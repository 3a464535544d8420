import Mathlib.Data.List.Basic

/-!
# Substitution

`sub` of a compiled regular expression: the text is scanned from its start, a match is replaced
and the scan goes on behind it. A pattern is given by the length of its match at the start of a
text. The scan of a text is that of its parts, unless a match reaches from one part into the
next.
-/

namespace Python

/-- A regular expression without anchors. A match is not empty, and a match in a part of the text
is a match in the text, which what follows the part can only make longer. -/
structure Pattern (α : Type) where
  /-- The length of the match at the start of a text. -/
  find : List α → Option ℕ
  find_pos : ∀ {l n}, find l = some n → 0 < n
  find_le : ∀ {l n}, find l = some n → n ≤ l.length
  find_extend : ∀ {xs n} (ys), find xs = some n → find (xs ++ ys) ≠ none
  find_restrict : ∀ {xs ys n}, find (xs ++ ys) = some n → n ≤ xs.length → find xs = some n

namespace Pattern

variable {α β : Type} (p : Pattern α) (replace : List α → List α)

/-- A text with its first elements dropped and the matches in the rest of it replaced. -/
def subFrom : ℕ → List α → List α
  | _, [] => []
  | n + 1, _ :: l => subFrom n l
  | 0, x :: l =>
    match p.find (x :: l) with
    | none => x :: subFrom 0 l
    | some n => replace ((x :: l).take n) ++ subFrom (n - 1) l

/-- `pattern.sub(replace, text)`. -/
def sub (text : List α) : List α :=
  p.subFrom replace 0 text

/-- Whether a match that starts in `xs`, after the first elements, reaches into `ys`. -/
def reachesFrom : ℕ → List α → List α → Bool
  | n, [], _ => 0 < n
  | n + 1, _ :: xs, ys => reachesFrom n xs ys
  | 0, x :: xs, ys =>
    match p.find (x :: xs ++ ys) with
    | none => reachesFrom 0 xs ys
    | some n => reachesFrom (n - 1) xs ys

/-- Whether a match that starts in `xs` reaches into `ys`, when `xs ++ ys` is scanned. -/
def reaches (xs ys : List α) : Bool :=
  p.reachesFrom 0 xs ys

/-! ### One step of a scan -/

@[simp]
theorem sub_nil :
  p.sub replace [] = []
  := rfl

theorem subFrom_eq_sub (n : ℕ) (l : List α) :
  p.subFrom replace n l = p.sub replace (l.drop n)
  := by
  induction l generalizing n with
  | nil => simp [subFrom]
  | cons x l ih =>
    cases n with
    | zero => rfl
    | succ n => exact ih n

/-- Where no match starts, the text is kept. -/
theorem sub_cons_of_find_none {x : α} {l : List α} (h : p.find (x :: l) = none) :
  p.sub replace (x :: l) = x :: p.sub replace l
  := by
  unfold sub
  rw [subFrom, h]

/-- Where a match starts, it is replaced. -/
theorem sub_append_of_find {m rest : List α} (h : p.find (m ++ rest) = some m.length) :
  p.sub replace (m ++ rest) = replace m ++ p.sub replace rest
  := by
  cases m with
  | nil => exact absurd (p.find_pos h) (Nat.lt_irrefl 0)
  | cons x m =>
    rw [List.cons_append] at h
    rw [List.cons_append, sub, subFrom, h]
    simp only [subFrom_eq_sub]
    simp

@[simp]
theorem reaches_nil (ys : List α) :
  p.reaches [] ys = false
  := rfl

theorem reachesFrom_eq_true {n : ℕ} {xs : List α} (h : xs.length < n) (ys : List α) :
  p.reachesFrom n xs ys = true
  := by
  induction xs generalizing n with
  | nil => simpa [reachesFrom] using h
  | cons x xs ih =>
    cases n with
    | zero => cases h
    | succ n => exact ih (Nat.lt_of_succ_lt_succ h)

theorem reachesFrom_eq_reaches {n : ℕ} {xs : List α} (h : n ≤ xs.length) (ys : List α) :
  p.reachesFrom n xs ys = p.reaches (xs.drop n) ys
  := by
  induction xs generalizing n with
  | nil =>
    obtain rfl := Nat.le_zero.mp h
    rfl
  | cons x xs ih =>
    cases n with
    | zero => rfl
    | succ n => exact ih (Nat.le_of_succ_le_succ h)

theorem reaches_cons_of_find_none {x : α} {xs ys : List α} (h : p.find (x :: xs ++ ys) = none) :
  p.reaches (x :: xs) ys = p.reaches xs ys
  := by
  unfold reaches
  rw [reachesFrom, h]

theorem reaches_append_of_find {m xs ys : List α}
    (h : p.find (m ++ (xs ++ ys)) = some m.length) :
  p.reaches (m ++ xs) ys = p.reaches xs ys
  := by
  cases m with
  | nil => rfl
  | cons x m =>
    rw [List.cons_append, ← List.append_assoc, ← List.cons_append] at h
    rw [List.cons_append, reaches, reachesFrom, h]
    simp only [List.length_cons, Nat.add_one_sub_one]
    rw [reachesFrom_eq_reaches p (by simp), List.drop_left]

theorem reaches_of_find {m₁ m₂ rest : List α} (h₁ : m₁ ≠ []) (h₂ : m₂ ≠ [])
    (h : p.find (m₁ ++ (m₂ ++ rest)) = some (m₁ ++ m₂).length) :
  p.reaches m₁ (m₂ ++ rest) = true
  := by
  cases m₁ with
  | nil => exact absurd rfl h₁
  | cons x m₁ =>
    unfold reaches
    rw [reachesFrom, h]
    apply reachesFrom_eq_true
    simpa using List.length_pos_iff.mpr h₂

/-- A match at the start of `xs ++ ys` that is longer than `xs`. -/
theorem exists_of_lt_find {xs ys : List α} {n : ℕ} (h : p.find (xs ++ ys) = some n)
    (hlt : xs.length < n) :
  ∃ m rest, ys = m ++ rest ∧ m ≠ [] ∧ p.find (xs ++ (m ++ rest)) = some (xs ++ m).length
  := by
  have hle := p.find_le h
  rw [List.length_append] at hle
  have hlen : (ys.take (n - xs.length)).length = n - xs.length := by
    apply List.length_take_of_le
    omega
  refine ⟨ys.take (n - xs.length), ys.drop (n - xs.length),
    (List.take_append_drop _ ys).symm, ?_, ?_⟩
  · rw [← List.length_pos_iff, hlen]
    omega
  · rw [List.take_append_drop, h, List.length_append, hlen]
    congr
    omega

/-- The scan of `xs` in `xs ++ ys`: it keeps an element, it finds a match in `xs`, or it finds one
that reaches into `ys`. -/
@[elab_as_elim]
theorem scan_append (ys : List α) {motive : List α → Prop} (nil : motive [])
    (skip : ∀ x xs, p.find (x :: xs ++ ys) = none → motive xs → motive (x :: xs))
    (inside : ∀ m xs, p.find (m ++ (xs ++ ys)) = some m.length → motive xs → motive (m ++ xs))
    (across : ∀ m₁ m₂ rest, m₁ ≠ [] → m₂ ≠ [] → ys = m₂ ++ rest →
      p.find (m₁ ++ (m₂ ++ rest)) = some (m₁ ++ m₂).length → motive m₁)
    (xs : List α) :
  motive xs
  := by
  induction hlen : xs.length using Nat.strongRecOn generalizing xs with
  | _ len ih =>
    cases xs with
    | nil => exact nil
    | cons x xs =>
      cases hfind : p.find (x :: xs ++ ys) with
      | none => exact skip x xs hfind (ih xs.length (by simp [← hlen]) xs rfl)
      | some n =>
        have hpos := p.find_pos hfind
        by_cases hn : n ≤ (x :: xs).length
        · have hsplit := List.take_append_drop n (x :: xs)
          have hmatch : ((x :: xs).take n).length = n := List.length_take_of_le hn
          have hrest : motive ((x :: xs).drop n) := by
            refine ih _ ?_ _ rfl
            rw [List.length_drop, hlen]
            omega
          rw [← hsplit]
          refine inside _ _ ?_ hrest
          rw [← List.append_assoc, hsplit, hmatch, hfind]
        · obtain ⟨m, rest, hys, hm, hmatch⟩ := p.exists_of_lt_find hfind (Nat.lt_of_not_le hn)
          apply across _ m rest (List.cons_ne_nil x xs) hm hys hmatch

/-- The scan of a text: it keeps an element or it finds a match. -/
@[elab_as_elim]
theorem scan {motive : List α → Prop} (nil : motive [])
    (skip : ∀ x l, p.find (x :: l) = none → motive l → motive (x :: l))
    (found : ∀ m l, p.find (m ++ l) = some m.length → motive l → motive (m ++ l))
    (l : List α) :
  motive l
  := by
  induction l using p.scan_append [] with
  | nil => exact nil
  | skip x l hfind ih =>
    rw [List.append_nil] at hfind
    apply skip x l hfind ih
  | inside m l hfind ih =>
    rw [List.append_nil] at hfind
    apply found m l hfind ih
  | across m₁ m₂ rest _ hne hnil _ =>
    cases m₂ with
    | nil => exact absurd rfl hne
    | cons => cases hnil

/-! ### The scan of two parts -/

/-- The scan of a text is that of its parts when no match reaches from the first into the
second. -/
theorem sub_append_of_not_reaches {xs ys : List α} (h : p.reaches xs ys = false) :
  p.sub replace (xs ++ ys) = p.sub replace xs ++ p.sub replace ys
  := by
  induction xs using p.scan_append ys with
  | nil => rfl
  | skip x xs hfind ih =>
    have hnone : p.find (x :: xs) = none := by
      by_contra hsome
      obtain ⟨n, hn⟩ := Option.ne_none_iff_exists'.mp hsome
      apply p.find_extend ys hn hfind
    rw [p.reaches_cons_of_find_none hfind] at h
    rw [List.cons_append] at hfind ⊢
    rw [p.sub_cons_of_find_none replace hfind, p.sub_cons_of_find_none replace hnone, ih h,
      List.cons_append]
  | inside m xs hfind ih =>
    have hsome : p.find (m ++ xs) = some m.length := by
      rw [← List.append_assoc] at hfind
      apply p.find_restrict hfind
      simp
    rw [p.reaches_append_of_find hfind] at h
    rw [List.append_assoc, p.sub_append_of_find replace hfind,
      p.sub_append_of_find replace hsome, ih h, List.append_assoc]
  | across m₁ m₂ rest h₁ h₂ hys hfind =>
    subst hys
    rw [p.reaches_of_find h₁ h₂ hfind] at h
    cases h

/-- A match that reaches from the first part of a text into the second. -/
theorem exists_of_reaches {xs ys : List α} (h : p.reaches xs ys = true) :
  ∃ before m₁ m₂ rest, xs = before ++ m₁ ∧ ys = m₂ ++ rest ∧ m₁ ≠ [] ∧ m₂ ≠ []
    ∧ p.find (m₁ ++ (m₂ ++ rest)) = some (m₁ ++ m₂).length
    ∧ p.reaches before (m₁ ++ ys) = false
  := by
  induction xs using p.scan_append ys with
  | nil => cases h
  | skip x xs hfind ih =>
    rw [p.reaches_cons_of_find_none hfind] at h
    obtain ⟨before, m₁, m₂, rest, rfl, hys, h₁, h₂, hmatch, hbefore⟩ := ih h
    refine ⟨x :: before, m₁, m₂, rest, rfl, hys, h₁, h₂, hmatch, ?_⟩
    rw [p.reaches_cons_of_find_none, hbefore]
    rw [← hfind]
    simp
  | inside m xs hfind ih =>
    rw [p.reaches_append_of_find hfind] at h
    obtain ⟨before, m₁, m₂, rest, rfl, hys, h₁, h₂, hmatch, hbefore⟩ := ih h
    refine ⟨m ++ before, m₁, m₂, rest, by simp, hys, h₁, h₂, hmatch, ?_⟩
    rw [p.reaches_append_of_find, hbefore]
    rw [← hfind]
    simp
  | across m₁ m₂ rest h₁ h₂ hys hfind =>
    exact ⟨[], m₁, m₂, rest, rfl, hys, h₁, h₂, hfind, rfl⟩

/-- The scan of a text in which a match reaches from one part into the next. -/
theorem sub_append_of_reaches {before m₁ m₂ rest : List α}
    (hfind : p.find (m₁ ++ (m₂ ++ rest)) = some (m₁ ++ m₂).length)
    (hbefore : p.reaches before (m₁ ++ (m₂ ++ rest)) = false) :
  p.sub replace (before ++ m₁ ++ (m₂ ++ rest))
    = p.sub replace before ++ replace (m₁ ++ m₂) ++ p.sub replace rest
  := by
  rw [List.append_assoc, p.sub_append_of_not_reaches replace hbefore, ← List.append_assoc m₁,
    p.sub_append_of_find replace, List.append_assoc]
  rw [List.append_assoc, hfind]

/-- Elements at which no match starts are kept. -/
theorem sub_append_of_no_start {xs : List α} (ys : List α)
    (h : ∀ x ∈ xs, ∀ l, p.find (x :: l) = none) :
  p.sub replace (xs ++ ys) = xs ++ p.sub replace ys
  := by
  induction xs with
  | nil => rfl
  | cons x xs ih =>
    rw [List.forall_mem_cons] at h
    rw [List.cons_append, p.sub_cons_of_find_none replace (h.1 _), ih h.2, List.cons_append]

/-- A match in a part of the text that starts with such elements is in the rest of it. -/
theorem suffix_of_no_start {xs ys l : List α} (h : ∀ x ∈ xs, ∀ l, p.find (x :: l) = none)
    (hfind : p.find l ≠ none) (hsuffix : l <:+ xs ++ ys) :
  l <:+ ys
  := by
  induction xs with
  | nil => exact hsuffix
  | cons x xs ih =>
    rw [List.forall_mem_cons] at h
    rcases List.suffix_cons_iff.mp hsuffix with rfl | hsuffix
    · exact absurd (h.1 _) hfind
    · apply ih h.2 hsuffix

/-! ### What a scan leaves alone -/

/-- A text is unchanged, or it has a first match. -/
theorem sub_eq_self_or (l : List α) :
  p.sub replace l = l
    ∨ ∃ before m rest, l = before ++ (m ++ rest) ∧ p.find (m ++ rest) = some m.length
      ∧ p.sub replace l = before ++ (replace m ++ p.sub replace rest)
  := by
  induction l using p.scan with
  | nil => exact .inl rfl
  | skip x l hfind ih =>
    rw [p.sub_cons_of_find_none replace hfind]
    rcases ih with ih | ⟨before, m, rest, rfl, hmatch, ih⟩
    · exact .inl (congrArg _ ih)
    · exact .inr ⟨x :: before, m, rest, rfl, hmatch, congrArg _ ih⟩
  | found m l hfind ih =>
    exact .inr ⟨[], m, l, rfl, hfind, p.sub_append_of_find replace hfind⟩

/-- A text is unchanged when each match in it is replaced by itself. -/
theorem sub_eq_self {l : List α}
    (h : ∀ m rest, m ++ rest <:+ l → p.find (m ++ rest) = some m.length → replace m = m) :
  p.sub replace l = l
  := by
  induction l using p.scan with
  | nil => rfl
  | skip x l hfind ih =>
    rw [p.sub_cons_of_find_none replace hfind, ih]
    rintro m rest hsuffix
    apply h m rest (hsuffix.trans (List.suffix_cons x l))
  | found m l hfind ih =>
    rw [p.sub_append_of_find replace hfind, h m l List.suffix_rfl hfind, ih]
    rintro m' rest hsuffix
    apply h m' rest (hsuffix.trans (List.suffix_append m l))

/-- A property of the elements of a text that each replacement keeps. -/
theorem forall_mem_sub {P : α → Prop} {l : List α} (hl : ∀ x ∈ l, P x)
    (hreplace : ∀ m, (∀ x ∈ m, P x) → ∀ x ∈ replace m, P x) :
  ∀ x ∈ p.sub replace l, P x
  := by
  induction l using p.scan with
  | nil => simp
  | skip x l hfind ih =>
    rw [List.forall_mem_cons] at hl
    rw [p.sub_cons_of_find_none replace hfind, List.forall_mem_cons]
    exact ⟨hl.1, ih hl.2⟩
  | found m l hfind ih =>
    rw [List.forall_mem_append] at hl
    rw [p.sub_append_of_find replace hfind, List.forall_mem_append]
    exact ⟨hreplace m hl.1, ih hl.2⟩

/-- A text begins as before when each replacement begins as its match. -/
theorem take_sub {k : ℕ}
    (h : ∀ m rest, p.find (m ++ rest) = some m.length →
      k ≤ m.length ∧ m.take k <+: replace m) (l : List α) :
  (p.sub replace l).take k = l.take k
  := by
  induction l using p.scan generalizing k with
  | nil => rfl
  | skip x l hfind ih =>
    cases k with
    | zero => rfl
    | succ k =>
      rw [p.sub_cons_of_find_none replace hfind, List.take_succ_cons, List.take_succ_cons, ih]
      rintro m rest hmatch
      obtain ⟨hlen, hbegins⟩ := h m rest hmatch
      exact ⟨Nat.le_of_succ_le hlen, (List.take_prefix_take_left (Nat.le_succ k)).trans hbegins⟩
  | found m l hfind ih =>
    obtain ⟨hlen, rest, hrest⟩ := h m l hfind
    rw [p.sub_append_of_find replace hfind, ← hrest, List.append_assoc,
      List.take_append_of_le_length (by simp [hlen]), List.take_take, Nat.min_self,
      List.take_append_of_le_length hlen]

/-- A text ends as before when each replacement ends as its match. -/
theorem getLast?_sub
    (h : ∀ m rest, p.find (m ++ rest) = some m.length → (replace m).getLast? = m.getLast?)
    (l : List α) :
  (p.sub replace l).getLast? = l.getLast?
  := by
  induction l using p.scan with
  | nil => rfl
  | skip x l hfind ih =>
    rw [p.sub_cons_of_find_none replace hfind, List.getLast?_cons, List.getLast?_cons, ih]
  | found m l hfind ih =>
    rw [p.sub_append_of_find replace hfind, List.getLast?_append, List.getLast?_append, ih,
      h m l hfind]

/-- Replacing the matches a second time changes nothing, when no new match arises and each
replacement is a match that is replaced by itself. -/
theorem sub_sub
    (hskip : ∀ x l, p.find (x :: l) = none → p.find (x :: p.sub replace l) = none)
    (hfound : ∀ m l, p.find (m ++ l) = some m.length →
      p.find (replace m ++ p.sub replace l) = some (replace m).length
        ∧ replace (replace m) = replace m) (l : List α) :
  p.sub replace (p.sub replace l) = p.sub replace l
  := by
  induction l using p.scan with
  | nil => rfl
  | skip x l hfind ih =>
    rw [p.sub_cons_of_find_none replace hfind, p.sub_cons_of_find_none replace (hskip x l hfind),
      ih]
  | found m l hfind ih =>
    obtain ⟨hagain, hreplace⟩ := hfound m l hfind
    rw [p.sub_append_of_find replace hfind, p.sub_append_of_find replace hagain, hreplace, ih]

/-! ### Texts of another alphabet -/

/-- A pattern for elements that stand for those of another alphabet. -/
def comap (f : β → α) : Pattern β where
  find l := p.find (l.map f)
  find_pos := p.find_pos
  find_le h := by simpa using p.find_le h
  find_extend ys h := by
    rw [List.map_append]
    apply p.find_extend _ h
  find_restrict h hle := by
    rw [List.map_append] at h
    apply p.find_restrict h
    simpa using hle

/-- Replacing matches commutes with a map, when the replacements do. -/
theorem map_sub_comap {f : β → α} {replace' : List β → List β}
    (h : ∀ m rest, (p.comap f).find (m ++ rest) = some m.length →
      (replace' m).map f = replace (m.map f)) (l : List β) :
  ((p.comap f).sub replace' l).map f = p.sub replace (l.map f)
  := by
  induction l using (p.comap f).scan with
  | nil => rfl
  | skip x l hfind ih =>
    have hnone : p.find (f x :: l.map f) = none := hfind
    rw [sub_cons_of_find_none _ _ hfind, List.map_cons, List.map_cons,
      p.sub_cons_of_find_none replace hnone, ih]
  | found m l hfind ih =>
    have hsome : p.find (m.map f ++ l.map f) = some (m.map f).length := by
      rw [← List.map_append, List.length_map]
      apply hfind
    rw [sub_append_of_find _ _ hfind, List.map_append, List.map_append,
      p.sub_append_of_find replace hsome, ih, h m l hfind]

theorem reaches_comap (f : β → α) (xs ys : List β) :
  (p.comap f).reaches xs ys = p.reaches (xs.map f) (ys.map f)
  := by
  induction xs using (p.comap f).scan_append ys with
  | nil => rfl
  | skip x xs hfind ih =>
    have hnone : p.find (f x :: xs.map f ++ ys.map f) = none := by
      simpa [comap] using hfind
    rw [reaches_cons_of_find_none _ hfind, List.map_cons, p.reaches_cons_of_find_none hnone, ih]
  | inside m xs hfind ih =>
    have hsome : p.find (m.map f ++ (xs.map f ++ ys.map f)) = some (m.map f).length := by
      simpa [comap] using hfind
    rw [reaches_append_of_find _ hfind, List.map_append, p.reaches_append_of_find hsome, ih]
  | across m₁ m₂ rest h₁ h₂ hys hfind =>
    subst hys
    have hsome : p.find (m₁.map f ++ (m₂.map f ++ rest.map f))
        = some (m₁.map f ++ m₂.map f).length := by
      simpa [comap] using hfind
    rw [reaches_of_find _ h₁ h₂ hfind, List.map_append, p.reaches_of_find _ _ hsome]
    · simpa using h₁
    · simpa using h₂

end Pattern

end Python
