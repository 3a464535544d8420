import Evalorch.Core.Redaction

/-!
# The matches of a redaction

Where a match of the two patterns starts, and how far one that starts in a text reaches into what
follows it. The user information of a URL is without white space and does not reach into that of
another; a secret reaches to the end of a word, and it does not start inside a key.
-/

open Python (Pattern isSpace)

namespace Evalorch

/-! ### The user information of a URL -/

theorem urlUserinfoRe_find_append {m : List Char} (hm : UrlUserinfo m) (rest : List Char) :
  urlUserinfoRe.find (m ++ rest) = some m.length
  := urlUserinfoLength_eq_some_iff.mpr ⟨m, rest, rfl, rfl, hm⟩

theorem urlUserinfo_of_find {m rest : List Char}
    (h : urlUserinfoRe.find (m ++ rest) = some m.length) :
  UrlUserinfo m
  := by
  obtain ⟨m', rest', heq, hlen, hm⟩ := urlUserinfoLength_eq_some_iff.mp h
  obtain ⟨rfl, -⟩ := List.append_inj heq hlen.symm
  apply hm

/-- The user information of a URL starts with a colon. -/
theorem urlUserinfoRe_find_cons {c : Char} (h : c ≠ ':') (l : List Char) :
  urlUserinfoRe.find (c :: l) = none
  := by
  by_contra hsome
  obtain ⟨n, hn⟩ := Option.ne_none_iff_exists'.mp hsome
  obtain ⟨m, rest, heq, -, info, rfl, -⟩ := urlUserinfoLength_eq_some_iff.mp hn
  apply h (List.cons.inj heq).1

theorem UrlUserinfo.solid {m : List Char} (hm : UrlUserinfo m) :
  Solid m
  := by
  obtain ⟨info, rfl, -, hinfo⟩ := hm
  have hinfo' : ∀ c ∈ info, isSolid c = true := by
    rintro c hc
    have hc' := hinfo c hc
    simp only [isUserinfo, Bool.and_eq_true] at hc'
    apply hc'.2
  have hmark : ∀ c ∈ [':', '/', '/'], isSolid c = true := Python.forall_mem_of_all (by decide)
  have hat : ∀ c ∈ ['@'], isSolid c = true := Python.forall_mem_of_all (by decide)
  apply List.forall_mem_append.mpr ⟨hmark, List.forall_mem_append.mpr ⟨hinfo', hat⟩⟩

/-- The user information of a URL does not reach into that of another. -/
theorem urlUserinfo_not_across {m₁ m₂ rest z : List Char} (hm : UrlUserinfo (m₁ ++ m₂))
    (h₁ : m₁ ≠ []) (h₂ : m₂ ≠ []) (heq : m₂ ++ rest = [':', '/', '/'] ++ z) :
  False
  := by
  obtain ⟨info, hsplit, hne, hinfo⟩ := hm
  have hslash : '/' ∉ info ++ ['@'] := by
    intro hmem
    rcases List.mem_append.mp hmem with hmem | hmem
    · have hc := hinfo '/' hmem
      simp [isUserinfo] at hc
    · simp at hmem
  rcases m₂ with _ | ⟨c, _ | ⟨d, m₂⟩⟩
  · apply h₂ rfl
  · have hlast := congrArg List.getLast? hsplit
    rw [← List.append_assoc, List.getLast?_concat, List.getLast?_concat, Option.some_inj] at hlast
    rw [hlast] at heq
    simp at heq
  · simp only [List.cons_append, List.cons.injEq] at heq
    obtain ⟨rfl, rfl, -⟩ := heq
    rcases m₁ with _ | ⟨a, _ | ⟨b, _ | ⟨c, m₁⟩⟩⟩
    · apply h₁ rfl
    · simp at hsplit
    · simp at hsplit
    · simp only [List.cons_append, List.nil_append, List.cons.injEq] at hsplit
      apply hslash
      rw [← hsplit.2.2.2]
      simp

/-- A match before the user information of a URL ends before it. -/
theorem le_of_urlUserinfoRe_find {xs z : List Char} {n : ℕ} (hxs : xs ≠ [])
    (h : urlUserinfoRe.find (xs ++ ([':', '/', '/'] ++ z)) = some n) :
  n ≤ xs.length
  := by
  by_contra hlt
  obtain ⟨m, rest, heq, hm, hfind⟩ := urlUserinfoRe.exists_of_lt_find h (Nat.lt_of_not_le hlt)
  rw [← List.append_assoc] at hfind
  apply urlUserinfo_not_across (urlUserinfo_of_find hfind) hxs hm heq.symm

/-- No match reaches into the user information of a URL. -/
theorem urlUserinfoRe_reaches_mark (xs z : List Char) :
  urlUserinfoRe.reaches xs ([':', '/', '/'] ++ z) = false
  := by
  by_contra hreaches
  rw [Bool.not_eq_false] at hreaches
  obtain ⟨before, m₁, m₂, rest, rfl, heq, h₁, h₂, hfind, -⟩ :=
    urlUserinfoRe.exists_of_reaches hreaches
  rw [← List.append_assoc] at hfind
  apply urlUserinfo_not_across (urlUserinfo_of_find hfind) h₁ h₂ heq.symm

/-- No match reaches into the next word. -/
theorem urlUserinfoRe_reaches_wordEnd (xs : List Char) {ys : List Char} (hys : WordEnd ys) :
  urlUserinfoRe.reaches xs ys = false
  := by
  by_contra hreaches
  rw [Bool.not_eq_false] at hreaches
  obtain ⟨before, m₁, m₂, rest, rfl, rfl, h₁, h₂, hfind, -⟩ :=
    urlUserinfoRe.exists_of_reaches hreaches
  rw [← List.append_assoc] at hfind
  have hsolid := (urlUserinfo_of_find hfind).solid
  cases m₂ with
  | nil => exact h₂ rfl
  | cons c m₂ =>
    have hspace := hys c rfl
    rw [← isSolid_eq_false, hsolid c (by simp)] at hspace
    cases hspace

/-- A match ends with an at sign. -/
theorem urlUserinfoRe_reaches_singleton (xs : List Char) {c : Char} (hc : c ≠ '@') :
  urlUserinfoRe.reaches xs [c] = false
  := by
  by_contra hreaches
  rw [Bool.not_eq_false] at hreaches
  obtain ⟨before, m₁, m₂, rest, rfl, heq, h₁, h₂, hfind, -⟩ :=
    urlUserinfoRe.exists_of_reaches hreaches
  rw [← List.append_assoc] at hfind
  obtain ⟨info, hinfo, -⟩ := urlUserinfo_of_find hfind
  cases m₂ with
  | nil => exact h₂ rfl
  | cons d m₂ =>
    obtain ⟨rfl, hnil⟩ := List.cons.inj heq
    obtain ⟨rfl, -⟩ := List.append_eq_nil_iff.mp hnil.symm
    have hlast := congrArg List.getLast? hinfo
    rw [← List.append_assoc, List.getLast?_concat, List.getLast?_concat, Option.some_inj] at hlast
    apply hc hlast

/-! ### Secrets -/

theorem secretRe_find_append {key m rest : List Char} (hkey : IsKey key) (hm : Assigned m)
    (hrest : WordEnd rest) :
  secretRe.find (key ++ (m ++ rest)) = some (key ++ m).length
  := secretLength_eq_some_iff.mpr ⟨key, m, rest, rfl, rfl, hkey, hm, hrest⟩

theorem secret_of_find {s rest : List Char} (h : secretRe.find (s ++ rest) = some s.length) :
  ∃ key m, s = key ++ m ∧ IsKey key ∧ Assigned m ∧ WordEnd rest
  := by
  obtain ⟨key, m, rest', heq, hlen, hkey, hm, hrest⟩ := secretLength_eq_some_iff.mp h
  rw [← List.append_assoc] at heq
  obtain ⟨rfl, rfl⟩ := List.append_inj heq hlen.symm
  exact ⟨key, m, rfl, hkey, hm, hrest⟩

/-- What is left of a secret. -/
theorem redactedSecret_append {key : List Char} (hkey : IsKey key) (m : List Char) :
  redactedSecret (key ++ m) = key ++ "=***".toList
  := by
  rw [redactedSecret, keyLength_eq_some_iff.mpr ⟨key, m, rfl, rfl, hkey⟩, Option.getD_some,
    List.take_left]

theorem assigned_redacted :
  Assigned "=***".toList
  := ⟨[], '=', [], ['*', '*', '*'], rfl, by simp [Blank], rfl, by simp [Blank], by simp,
    Python.forall_mem_of_all (by decide)⟩

/-- A match starts with a key. -/
theorem secretRe_find_cons {c : Char} (h : fold c ∉ keyCharacters) (l : List Char) :
  secretRe.find (c :: l) = none
  := by
  by_contra hsome
  obtain ⟨n, hn⟩ := Option.ne_none_iff_exists'.mp hsome
  obtain ⟨key, m, rest, heq, -, hkey, -⟩ := secretLength_eq_some_iff.mp hn
  have hlen := hkey.two_le_length
  cases key with
  | nil => simp at hlen
  | cons d key =>
    obtain ⟨rfl, -⟩ := List.cons.inj heq
    apply h (hkey.fold_mem c List.mem_cons_self)

/-- A separator and a later word are an assignment. -/
theorem exists_assigned {left l : List Char} {op : Char} (hleft : Blank left)
    (hop : isAssignment op = true) (hl : ∃ c ∈ l, isSolid c = true) :
  ∃ m rest, left ++ op :: l = m ++ rest ∧ Assigned m
  := by
  obtain ⟨c, hc, hsolid⟩ := hl
  have hne : l.dropWhile isSpace ≠ [] := by
    intro hnil
    have hall := List.dropWhile_eq_nil_iff.mp hnil c hc
    rw [isSolid, hall] at hsolid
    cases hsolid
  refine ⟨left ++ op :: (l.takeWhile isSpace ++ [(l.dropWhile isSpace).head hne]),
    (l.dropWhile isSpace).tail, ?_, left, op, _, _, rfl, hleft, hop, ?_, by simp, ?_⟩
  · simp [List.takeWhile_append_dropWhile]
  · rintro c hc
    apply List.mem_takeWhile_imp hc
  · rintro c hc
    rw [List.mem_singleton.mp hc, isSolid]
    simpa using List.head_dropWhile_not isSpace hne

/-- Whether an assignment starts before two characters of a word does not depend on what follows
the first of them. -/
theorem exists_assigned_append_iff {xs ys : List Char} {c d : Char} (hc : isSolid c = true)
    (hd : isSolid d = true) :
  (∃ m rest, xs ++ c :: d :: ys = m ++ rest ∧ Assigned m)
    ↔ ∃ left op xs', xs ++ [c] = left ++ op :: xs' ∧ Blank left ∧ isAssignment op = true
  := by
  constructor
  · rintro ⟨m, rest, heq, left, op, right, value, rfl, hleft, hop, -⟩
    rw [List.append_assoc, List.append_eq_append_iff] at heq
    rcases heq with ⟨as, rfl, heq⟩ | ⟨bs, rfl, heq⟩
    · cases as with
      | nil =>
        obtain ⟨rfl, -⟩ := List.cons.inj heq
        exact ⟨xs, c, [], rfl, by simpa using hleft, hop⟩
      | cons e as =>
        obtain ⟨rfl, -⟩ := List.cons.inj heq
        have hspace := hleft c (by simp)
        simp [isSolid, hspace] at hc
    · cases bs with
      | nil =>
        obtain ⟨rfl, -⟩ := List.cons.inj heq
        exact ⟨left, op, [], by simp, hleft, hop⟩
      | cons e bs =>
        obtain ⟨rfl, -⟩ := List.cons.inj heq
        exact ⟨left, op, bs ++ [c], by simp, hleft, hop⟩
  · rintro ⟨left, op, xs', heq, hleft, hop⟩
    rw [← List.singleton_append, ← List.append_assoc, heq, List.append_assoc]
    apply exists_assigned hleft hop
    exact ⟨d, List.mem_append_right xs' List.mem_cons_self, hd⟩

/-- The end of an assignment, from the start of a word on, is in that word. -/
theorem Assigned.solid_of_append {t m l : List Char} {c d : Char} (hassigned : Assigned (t ++ m))
    (hm : m <+: c :: d :: l) (hc : isSolid c = true) (hd : isSolid d = true) :
  Solid m
  := by
  obtain ⟨left, op, right, value, heq, hleft, -, hright, hne, hvalue⟩ := hassigned
  have hblank : ∀ {as bs cs : List Char}, Blank as → as ++ bs <+: c :: cs → as = [] := by
    intro as bs cs has hbegins
    cases as with
    | nil => rfl
    | cons a as =>
      obtain ⟨rfl, -⟩ := List.cons_prefix_cons.mp hbegins
      have hspace := has a List.mem_cons_self
      simp [isSolid, hspace] at hc
  have hop : m = op :: (right ++ value) → Solid m := by
    rintro rfl
    obtain ⟨rfl, hrest⟩ := List.cons_prefix_cons.mp hm
    cases right with
    | nil => exact List.forall_mem_cons.mpr ⟨hc, hvalue⟩
    | cons a right =>
      obtain ⟨rfl, -⟩ := List.cons_prefix_cons.mp hrest
      have hspace := hright a List.mem_cons_self
      simp [isSolid, hspace] at hd
  rcases List.append_eq_append_iff.mp heq with ⟨as, rfl, hrest⟩ | ⟨bs, rfl, hrest⟩
  · rw [hrest] at hm
    have has : as = [] := hblank (fun c hc => hleft c (by simp [hc])) hm
    subst has
    apply hop hrest
  · cases bs with
    | nil => exact hop hrest.symm
    | cons b bs =>
      obtain ⟨-, hrest⟩ := List.cons.inj hrest
      rcases List.append_eq_append_iff.mp hrest with ⟨as, rfl, rfl⟩ | ⟨as, rfl, rfl⟩
      · exact fun c hc => hvalue c (by simp [hc])
      · have has : as = [] := hblank (fun c hc => hright c (by simp [hc])) hm
        subst has
        apply hvalue

/-- The end of a word within an assignment, before white space, is its separator. -/
theorem Assigned.separator_of_gap {t gap m : List Char} {c : Char}
    (hassigned : Assigned (t ++ c :: (gap ++ m))) (hc : isSolid c = true) (hgap : Blank gap)
    (hne : gap ≠ []) :
  Blank t ∧ isAssignment c = true
  := by
  obtain ⟨left, op, right, value, heq, hleft, hop, hright, -, hvalue⟩ := hassigned
  have hnot : ∀ {l : List Char}, Blank l → c ∉ l := by
    rintro l hl hmem
    have hspace := hl c hmem
    simp [isSolid, hspace] at hc
  have hlater : ∀ {l : List Char}, value ≠ l ++ c :: (gap ++ m) := by
    rintro l rfl
    cases gap with
    | nil => exact hne rfl
    | cons d gap =>
      have hsolid := hvalue d (by simp)
      simp [isSolid, hgap d List.mem_cons_self] at hsolid
  rcases List.append_eq_append_iff.mp heq with ⟨as, rfl, hrest⟩ | ⟨bs, rfl, hrest⟩
  · cases as with
    | nil =>
      obtain ⟨rfl, -⟩ := List.cons.inj hrest
      exact ⟨fun d hd => hleft d (by simp [hd]), hop⟩
    | cons a as =>
      obtain ⟨rfl, -⟩ := List.cons.inj hrest
      exact absurd (by simp) (hnot hleft)
  · cases bs with
    | nil =>
      obtain ⟨rfl, -⟩ := List.cons.inj hrest
      exact ⟨by simpa using hleft, hop⟩
    | cons b bs =>
      obtain ⟨-, hrest⟩ := List.cons.inj hrest
      rcases List.append_eq_append_iff.mp hrest with ⟨as, rfl, hvalue'⟩ | ⟨as, rfl, hvalue'⟩
      · exact absurd hvalue' hlater
      · cases as with
        | nil => exact absurd hvalue'.symm (hlater (l := []))
        | cons a as =>
          obtain ⟨rfl, -⟩ := List.cons.inj hvalue'
          exact absurd (by simp) (hnot hright)

/-! ### How far a secret reaches -/

/-- A part of a word in which no key ends that starts before it. So a match that starts before it
ends before it or covers it. -/
structure Unsplit (w : List Char) : Prop where
  solid : Solid w
  two_le_length : 2 ≤ w.length
  apart : ∀ {before inside rest z}, before ≠ [] → inside ≠ [] → w ++ z = inside ++ rest →
    ¬ IsKey (before ++ inside)

theorem IsKey.unsplit {key : List Char} (hkey : IsKey key) :
  Unsplit key where
  solid c hc := (hkey.forall_mem c hc).1
  two_le_length := hkey.two_le_length
  apart hbefore hinside heq hkey' := hkey.not_inside hkey' hbefore hinside rfl heq.symm

/-- What is left of the user information of a URL. -/
theorem unsplit_masked :
  Unsplit [':', '/', '/', '*', '*', '*', '@'] where
  solid := Python.forall_mem_of_all (by decide)
  two_le_length := by decide
  apart {before inside rest z} _ hinside heq hkey := by
    cases inside with
    | nil => exact hinside rfl
    | cons c inside =>
      obtain ⟨rfl, -⟩ := List.cons.inj heq
      have hassign := (hkey.forall_mem ':' (by simp)).2.2
      revert hassign
      decide

theorem Unsplit.exists_cons {w : List Char} (hw : Unsplit w) :
  ∃ c d w', w = c :: d :: w' ∧ isSolid c = true ∧ isSolid d = true
  := by
  obtain ⟨hsolid, hlen, -⟩ := hw
  rcases w with _ | ⟨c, _ | ⟨d, w⟩⟩
  · simp at hlen
  · simp at hlen
  · exact ⟨c, d, w, rfl, hsolid c (by simp), hsolid d (by simp)⟩

/-- A key that starts before such a part of a word ends before it. -/
theorem Unsplit.exists_of_append_eq {w xs key l z : List Char} (hw : Unsplit w) (hxs : xs ≠ [])
    (hkey : IsKey key) (heq : xs ++ (w ++ z) = key ++ l) :
  ∃ t, xs = key ++ t ∧ l = t ++ (w ++ z)
  := by
  rcases List.append_eq_append_iff.mp heq with ⟨as, rfl, hrest⟩ | ⟨t, hxs, hl⟩
  · by_cases has : as = []
    · subst has
      exact ⟨[], by simp, by simpa using hrest.symm⟩
    · exact absurd hkey (hw.apart hxs has hrest)
  · exact ⟨t, hxs, hl⟩

/-- Whether a match starts before such a part of a word does not depend on what follows it. -/
theorem Unsplit.find_ne_none {w xs ys : List Char} (hw : Unsplit w) (hxs : xs ≠ [])
    (h : secretRe.find (xs ++ (w ++ ys)) ≠ none) (ys' : List Char) :
  secretRe.find (xs ++ (w ++ ys')) ≠ none
  := by
  obtain ⟨n, hn⟩ := Option.ne_none_iff_exists'.mp h
  obtain ⟨key, m, rest, heq, -, hkey, hm, -⟩ := secretLength_eq_some_iff.mp hn
  obtain ⟨t, rfl, hrest⟩ := hw.exists_of_append_eq hxs hkey heq
  obtain ⟨c, d, w', rfl, hc, hd⟩ := hw.exists_cons
  have hstart := (exists_assigned_append_iff hc hd).mp ⟨m, rest, hrest.symm, hm⟩
  obtain ⟨m', rest', heq', hm'⟩ : ∃ m rest, t ++ c :: d :: (w' ++ ys') = m ++ rest ∧ Assigned m :=
    (exists_assigned_append_iff hc hd).mpr hstart
  have hfind : secretRe.find (key ++ m') = some (key ++ m').length := by
    have hend : secretRe.find (key ++ (m' ++ [])) = some (key ++ m').length :=
      secretRe_find_append hkey hm' (by simp [WordEnd])
    rwa [List.append_nil] at hend
  have hlonger := secretRe.find_extend rest' hfind
  rw [List.append_assoc, ← heq'] at hlonger
  rwa [List.append_assoc]

/-- A match that ends before a word does not depend on the word. -/
theorem secretRe_find_of_le {xs w ys : List Char} {n : ℕ} (hw : Solid w) (hne : w ≠ [])
    (h : secretRe.find (xs ++ (w ++ ys)) = some n) (hle : n ≤ xs.length) (ys' : List Char) :
  secretRe.find (xs ++ (w ++ ys')) = some n
  := by
  obtain ⟨key, m, rest, heq, rfl, hkey, hm, hrest⟩ := secretLength_eq_some_iff.mp h
  rw [← List.append_assoc key] at heq
  obtain ⟨t, rfl⟩ := List.prefix_of_prefix_length_le ⟨rest, heq.symm⟩ (List.prefix_append _ _) hle
  rw [List.append_assoc (key ++ m), List.append_cancel_left_eq] at heq
  rw [List.append_assoc, List.append_assoc]
  apply secretRe_find_append hkey hm
  rw [← heq] at hrest
  cases t with
  | cons c t => exact hrest
  | nil =>
    cases w with
    | nil => exact absurd rfl hne
    | cons c w =>
      have hspace := hrest c rfl
      rw [← isSolid_eq_false, hw c (by simp)] at hspace
      cases hspace

/-- Whether a match reaches into such a part of a word does not depend on what follows it. -/
theorem Unsplit.reaches_append {w : List Char} (hw : Unsplit w) (xs z : List Char) :
  secretRe.reaches xs (w ++ z) = secretRe.reaches xs w
  := by
  have hne : w ≠ [] := by
    obtain ⟨c, d, w, rfl, -⟩ := hw.exists_cons
    simp
  induction xs using secretRe.scan_append (w ++ z) with
  | nil => rfl
  | skip x xs hfind ih =>
    have hnone : secretRe.find (x :: xs ++ w) = none := by
      by_contra hsome
      rw [← List.append_nil w] at hsome
      apply hw.find_ne_none (List.cons_ne_nil x xs) hsome z hfind
    rw [secretRe.reaches_cons_of_find_none hfind, secretRe.reaches_cons_of_find_none hnone, ih]
  | inside m xs hfind ih =>
    have hsome : secretRe.find (m ++ (xs ++ w)) = some m.length := by
      rw [← List.append_assoc] at hfind
      have hagain := secretRe_find_of_le hw.solid hne hfind (by simp) []
      rwa [List.append_assoc, List.append_nil] at hagain
    rw [secretRe.reaches_append_of_find hfind, secretRe.reaches_append_of_find hsome, ih]
  | across m₁ m₂ rest h₁ h₂ heq hfind =>
    rw [heq, secretRe.reaches_of_find h₁ h₂ hfind]
    rw [← heq] at hfind
    have hsome : secretRe.find (m₁ ++ (w ++ [])) ≠ none := by
      have hlonger : secretRe.find (m₁ ++ (w ++ z)) ≠ none := by
        rw [hfind]
        simp
      apply hw.find_ne_none h₁ hlonger []
    obtain ⟨n, hn⟩ := Option.ne_none_iff_exists'.mp hsome
    have hlt : m₁.length < n := by
      by_contra hle
      have hagain := secretRe_find_of_le hw.solid hne hn (Nat.le_of_not_lt hle) z
      rw [hfind, Option.some_inj, List.length_append] at hagain
      have hpos := List.length_pos_iff.mpr h₂
      omega
    rw [List.append_nil] at hn
    obtain ⟨m, rest', rfl, hm, hmatch⟩ := secretRe.exists_of_lt_find hn hlt
    exact (secretRe.reaches_of_find h₁ hm hmatch).symm

/-- The part of a match that is in such a word is solid, and its key is before the word. -/
theorem Unsplit.exists_of_parts {w z m₁ m₂ rest key m : List Char} (hw : Unsplit w)
    (h₁ : m₁ ≠ []) (heq : m₂ ++ rest = w ++ z) (hkey : IsKey key) (hm : Assigned m)
    (hsplit : m₁ ++ m₂ = key ++ m) :
  ∃ t, m₁ = key ++ t ∧ Solid m₂
  := by
  have hall : m₁ ++ (w ++ z) = key ++ (m ++ rest) := by
    rw [← heq, ← List.append_assoc, hsplit, List.append_assoc]
  obtain ⟨t, rfl, -⟩ := hw.exists_of_append_eq h₁ hkey hall
  rw [List.append_assoc, List.append_cancel_left_eq] at hsplit
  obtain ⟨c, d, w', rfl, hc, hd⟩ := hw.exists_cons
  rw [← hsplit] at hm
  exact ⟨t, rfl, hm.solid_of_append ⟨rest, heq⟩ hc hd⟩

end Evalorch
