import Evalorch.Redaction.Idempotence
import Evalorch.Redaction.Provenance

/-!
# When a redaction removes a credential

Exactly which occurrences of a credential `redact_secrets` removes. A scheme and a token are never
removed whole. A credential of one word is, except in two places: in the user information of a
URL, where it may go on after the `@`, and behind a key that an earlier secret has consumed.
-/

open Python (Pattern isSpace)

namespace Evalorch

/-! ### The first substitution -/

theorem Plain.cleanedGlyphs {l : List Glyph} (hl : Plain l) :
  Plain (cleanedGlyphs l)
  := by
  apply Pattern.forall_mem_sub _ _ hl
  rintro m hm
  refine List.forall_mem_append.mpr ⟨List.forall_mem_append.mpr ⟨?_, Plain.plain _⟩, ?_⟩
  · exact fun g hg => hm g (List.mem_of_mem_take hg)
  · exact fun g hg => hm g (List.mem_of_mem_drop hg)

theorem cleanedGlyphs_append {xs ys : List Glyph}
    (h : urlUserinfoRe.reaches (codes xs) (codes ys) = false) :
  cleanedGlyphs (xs ++ ys) = cleanedGlyphs xs ++ cleanedGlyphs ys
  := by
  apply Pattern.sub_append_of_not_reaches
  rw [Pattern.reaches_comap]
  apply h

theorem cleanedGlyphs_append_wordEnd (xs : List Glyph) {ys : List Glyph}
    (hys : WordEnd (codes ys)) :
  cleanedGlyphs (xs ++ ys) = cleanedGlyphs xs ++ cleanedGlyphs ys
  := cleanedGlyphs_append (urlUserinfoRe_reaches_wordEnd _ hys)

theorem cleanedGlyphs_append_of_no_colon {xs : List Glyph} (h : ':' ∉ codes xs)
    (ys : List Glyph) :
  cleanedGlyphs (xs ++ ys) = xs ++ cleanedGlyphs ys
  := by
  apply Pattern.sub_append_of_no_start
  rintro g hg l
  apply urlUserinfoRe_find_cons
  intro hcolon
  apply h
  rw [← hcolon]
  apply List.mem_map_of_mem hg

/-- The first substitution keeps the beginning of a text. -/
theorem take_cleanedGlyphs (l : List Glyph) :
  (cleanedGlyphs l).take 3 = l.take 3
  := by
  apply Pattern.take_sub
  rintro m rest hfind
  obtain ⟨mark, info, g, rfl, hmark, -⟩ := exists_of_urlUserinfo_glyphs hfind
  have hlen : mark.length = 3 := by rw [← length_codes, hmark]; rfl
  rw [maskInfo_append hlen, List.take_left' hlen, List.append_assoc]
  refine ⟨?_, List.prefix_append _ _⟩
  rw [List.length_append, hlen]
  omega

theorem Solid.cleaned {l : List Char} (hl : Solid l) :
  Solid (cleaned l)
  := by
  apply Pattern.forall_mem_sub _ _ hl
  rintro - -
  exact Python.forall_mem_of_all (by decide)

theorem head?_cleanedGlyphs (l : List Glyph) :
  (cleanedGlyphs l).head? = l.head?
  := by simpa [List.head?_take] using congrArg List.head? (take_cleanedGlyphs l)

theorem wordEnd_cleanedGlyphs {l : List Glyph} (hl : WordEnd (codes l)) :
  WordEnd (codes (cleanedGlyphs l))
  := by
  unfold WordEnd codes
  rw [List.head?_map, head?_cleanedGlyphs, ← List.head?_map]
  apply hl

theorem Blank.not_mem_colon {l : List Char} (hl : Blank l) :
  ':' ∉ l
  := by
  intro hmem
  have hspace := hl _ hmem
  revert hspace
  decide

theorem Blank.fold_not_mem {l : List Char} (hl : Blank l) :
  ∀ c ∈ l, fold c ∉ keyCharacters
  := fun c hc => fold_not_mem_of_isSpace (hl c hc)

theorem wordEnd_codes_append {l l' : List Glyph} (hl : Blank (codes l)) (hne : l ≠ []) :
  WordEnd (codes (l ++ l'))
  := by
  rintro c hc
  rw [codes_append, List.head?_append_of_ne_nil _ (by simpa [codes] using hne)] at hc
  apply hl c (List.mem_of_mem_head? hc)

/-- The user information of a URL is masked. -/
theorem cleanedGlyphs_url (front rest : List Glyph) {mark info : List Glyph} {g : Glyph}
    (hmark : codes mark = [':', '/', '/']) (hne : info ≠ [])
    (hinfo : ∀ c ∈ codes info, isUserinfo c = true) (hg : g.code = '@') :
  cleanedGlyphs (front ++ (mark ++ (info ++ g :: rest)))
    = cleanedGlyphs front ++ ((mark ++ plain "***".toList) ++ [g] ++ cleanedGlyphs rest)
  := by
  have hlen : mark.length = 3 := by rw [← length_codes, hmark]; rfl
  have hurl : UrlUserinfo (codes (mark ++ (info ++ [g]))) := by
    refine ⟨codes info, ?_, by simpa [codes] using hne, hinfo⟩
    rw [codes_append, codes_append, hmark, codes_cons, hg, codes_nil]
  have hfind : (urlUserinfoRe.comap Glyph.code).find ((mark ++ (info ++ [g])) ++ rest)
      = some (mark ++ (info ++ [g])).length := by
    have hcodes := urlUserinfoRe_find_append hurl (codes rest)
    rw [← codes_append, length_codes] at hcodes
    apply hcodes
  have hreaches : urlUserinfoRe.reaches (codes front) (codes (mark ++ (info ++ g :: rest)))
      = false := by
    rw [codes_append, hmark]
    apply urlUserinfoRe_reaches_mark _ _
  have hassoc : mark ++ (info ++ g :: rest) = (mark ++ (info ++ [g])) ++ rest := by simp
  rw [cleanedGlyphs_append hreaches, hassoc]
  congr 1
  rw [cleanedGlyphs, Pattern.sub_append_of_find _ _ hfind, maskInfo_append hlen]
  rfl

theorem isSolid_of_isAssignment {c : Char} (h : isAssignment c = true) :
  isSolid c = true
  := by
  rcases Bool.or_eq_true _ _ ▸ h with h | h
  · rw [of_decide_eq_true h]
    decide
  · rw [of_decide_eq_true h]
    decide

theorem isWord_of_head?_eq {l l' : List Glyph} (hl' : Solid (codes l')) (hl : codes l ≠ [])
    (hhead : l'.head? = l.head?) :
  IsWord (codes l')
  := by
  refine ⟨?_, hl'⟩
  cases l with
  | nil => exact absurd rfl hl
  | cons g l =>
    cases l' with
    | nil => cases hhead
    | cons => simp

theorem cleanedGlyphs_singleton (g : Glyph) :
  cleanedGlyphs [g] = [g]
  := by
  apply Pattern.sub_cons_of_find_none
  simp [Pattern.comap, urlUserinfoRe, urlUserinfoLength]

/-- A separator and the word behind it stay a separator and a word that begins as before. -/
theorem exists_cleanedGlyphs_eq {g : Glyph} {right word rest : List Glyph}
    (hg : isAssignment g.code = true) (hright : Blank (codes right)) (hword : IsWord (codes word))
    (hrest : WordEnd (codes rest)) :
  ∃ word', cleanedGlyphs (g :: (right ++ (word ++ rest)))
      = g :: (right ++ (word' ++ cleanedGlyphs rest))
    ∧ IsWord (codes word') ∧ word'.head? = word.head?
  := by
  obtain ⟨hne, hsolid⟩ := hword
  by_cases hnil : right = []
  · subst hnil
    have htake := take_cleanedGlyphs (g :: word)
    have hcodes := codes_cleanedGlyphs (g :: word)
    have hsplit : cleanedGlyphs (g :: (word ++ rest))
        = cleanedGlyphs (g :: word) ++ cleanedGlyphs rest :=
      cleanedGlyphs_append_wordEnd (g :: word) hrest
    cases hword' : cleanedGlyphs (g :: word) with
    | nil => simp [hword'] at htake
    | cons g' word' =>
      rw [hword', List.take_succ_cons, List.take_succ_cons] at htake
      obtain ⟨rfl, htail⟩ := List.cons.inj htake
      have hhead : word'.head? = word.head? := by
        have hhead := congrArg List.head? htail
        rwa [List.head?_take, List.head?_take] at hhead
      have hall : Solid (cleaned (codes (g' :: word))) :=
        Solid.cleaned (List.forall_mem_cons.mpr ⟨isSolid_of_isAssignment hg, hsolid⟩)
      rw [← hcodes, hword'] at hall
      have hsolid' : Solid (codes word') := (List.forall_mem_cons.mp hall).2
      refine ⟨word', ?_, isWord_of_head?_eq hsolid' hne hhead, hhead⟩
      rw [List.nil_append, hsplit, hword']
      rfl
  · have hend : WordEnd (codes (right ++ (word ++ rest))) := wordEnd_codes_append hright hnil
    have hsolid' : Solid (codes (cleanedGlyphs word)) := by
      rw [codes_cleanedGlyphs]
      apply hsolid.cleaned
    refine ⟨cleanedGlyphs word, ?_,
      isWord_of_head?_eq hsolid' hne (head?_cleanedGlyphs word), head?_cleanedGlyphs word⟩
    rw [← List.singleton_append, cleanedGlyphs_append_wordEnd [g] hend,
      cleanedGlyphs_append_of_no_colon hright.not_mem_colon,
      cleanedGlyphs_append_wordEnd word hrest, cleanedGlyphs_singleton]
    rfl

/-! ### The second substitution -/

theorem Plain.redactedGlyphs {l : List Glyph} (hl : Plain l) :
  Plain (redactedGlyphs l)
  := by
  apply Pattern.forall_mem_sub _ _ hl
  rintro m hm
  refine List.forall_mem_append.mpr ⟨?_, Plain.plain _⟩
  exact fun g hg => hm g (List.mem_of_mem_take hg)

theorem redactedGlyphs_append {xs ys : List Glyph}
    (h : secretRe.reaches (codes xs) (codes ys) = false) :
  redactedGlyphs (xs ++ ys) = redactedGlyphs xs ++ redactedGlyphs ys
  := by
  apply Pattern.sub_append_of_not_reaches
  rw [Pattern.reaches_comap]
  apply h

/-- The second substitution keeps the first glyph of a text. -/
theorem head?_redactedGlyphs (l : List Glyph) :
  (redactedGlyphs l).head? = l.head?
  := by
  have hone : ∀ m rest, (secretRe.comap Glyph.code).find (m ++ rest) = some m.length →
      1 ≤ m.length ∧ m.take 1 <+: maskSecret m := by
    rintro s rest hfind
    obtain ⟨key, m, rfl, hkey, -⟩ := exists_of_secret_glyphs hfind
    have hlen := hkey.two_le_length
    rw [length_codes] at hlen
    rw [maskSecret_append hkey, List.length_append]
    refine ⟨by omega, ?_⟩
    rw [List.take_append_of_le_length (by omega)]
    exact (List.take_prefix 1 key).trans (List.prefix_append _ _)
  have htake : (redactedGlyphs l).take 1 = l.take 1 := Pattern.take_sub _ maskSecret hone l
  simpa [List.head?_take] using congrArg List.head? htake

/-- A glyph of the credential at which no match reaches is left in the redacted text. -/
theorem not_plain_redactedGlyphs {l : List Glyph} (h : ∃ g ∈ l.head?, g.secret = true) :
  ¬ Plain (redactedGlyphs l)
  := by
  rintro hplain
  obtain ⟨g, hg, hsecret⟩ := h
  rw [← head?_redactedGlyphs] at hg
  have hfalse := hplain g (List.mem_of_mem_head? hg)
  rw [hsecret] at hfalse
  cases hfalse

/-- What cannot start a key is kept. -/
theorem redactedGlyphs_append_of_no_start {xs : List Glyph}
    (h : ∀ c ∈ codes xs, fold c ∉ keyCharacters) (ys : List Glyph) :
  redactedGlyphs (xs ++ ys) = xs ++ redactedGlyphs ys
  := by
  apply Pattern.sub_append_of_no_start
  rintro g hg l
  apply secretRe_find_cons (h g.code (List.mem_map_of_mem hg))

/-- A secret is replaced up to the end of its value. -/
theorem redactedGlyphs_secret {key m rest : List Glyph} (hkey : IsKey (codes key))
    (hm : Assigned (codes m)) (hrest : WordEnd (codes rest)) :
  redactedGlyphs (key ++ (m ++ rest)) = key ++ plain "=***".toList ++ redactedGlyphs rest
  := by
  have hfind : (secretRe.comap Glyph.code).find ((key ++ m) ++ rest) = some (key ++ m).length := by
    have hcodes := secretRe_find_append hkey hm hrest
    rw [← List.append_assoc, ← codes_append, ← codes_append, length_codes] at hcodes
    apply hcodes
  rw [← List.append_assoc, redactedGlyphs, Pattern.sub_append_of_find _ _ hfind,
    maskSecret_append hkey]
  rfl

/-- The second substitution where a secret reaches from one part of a text into the next. -/
theorem exists_secret_of_reaches {xs ys : List Glyph}
    (h : secretRe.reaches (codes xs) (codes ys) = true) :
  ∃ before m₁ m₂ rest key m, xs = before ++ m₁ ∧ ys = m₂ ++ rest ∧ m₁ ≠ []
    ∧ m₁ ++ m₂ = key ++ m ∧ IsKey (codes key) ∧ Assigned (codes m) ∧ WordEnd (codes rest)
    ∧ redactedGlyphs (xs ++ ys)
      = redactedGlyphs before ++ (key ++ plain "=***".toList) ++ redactedGlyphs rest
  := by
  have hreaches : (secretRe.comap Glyph.code).reaches xs ys = true := by
    rw [Pattern.reaches_comap]
    apply h
  obtain ⟨before, m₁, m₂, rest, rfl, rfl, h₁, -, hfind, hbefore⟩ :=
    Pattern.exists_of_reaches _ hreaches
  have hwhole := hfind
  rw [← List.append_assoc] at hwhole
  obtain ⟨key, m, hsplit, hkey, hm, hrest⟩ := exists_of_secret_glyphs hwhole
  refine ⟨before, m₁, m₂, rest, key, m, rfl, rfl, h₁, hsplit, hkey, hm, hrest, ?_⟩
  rw [redactedGlyphs, Pattern.sub_append_of_reaches _ _ hfind hbefore, hsplit,
    maskSecret_append hkey]
  rfl

/-- Where a secret reaches into a word, it goes on to the end of the word. -/
theorem exists_redactedGlyphs_eq {xs ys : List Glyph} {w z : List Char} (hw : Unsplit w)
    (hys : codes ys = w ++ z) (h : secretRe.reaches (codes xs) w = true) :
  ∃ front m rest, ys = m ++ rest ∧ Solid (codes m) ∧ WordEnd (codes rest)
    ∧ redactedGlyphs (xs ++ ys) = front ++ redactedGlyphs rest ∧ (Plain xs → Plain front)
  := by
  rw [← hw.reaches_append _ z, ← hys] at h
  obtain ⟨before, m₁, m₂, rest, key, m, rfl, rfl, h₁, hsplit, hkey, hm, hrest, hredacted⟩ :=
    exists_secret_of_reaches h
  rw [codes_append] at hys
  have hcodes : codes m₁ ++ codes m₂ = codes key ++ codes m := by
    rw [← codes_append, hsplit, codes_append]
  obtain ⟨t, hm₁, hsolid⟩ :=
    hw.exists_of_parts (by simpa [codes] using h₁) hys hkey hm hcodes
  have hkeyBegins : key <+: m₁ := by
    have hlen : key.length ≤ m₁.length := by
      rw [← length_codes, ← length_codes m₁, hm₁, List.length_append]
      omega
    apply List.prefix_of_prefix_length_le ⟨m, hsplit.symm⟩ (List.prefix_append m₁ m₂) hlen
  refine ⟨_, m₂, rest, rfl, hsolid, hrest, hredacted, ?_⟩
  intro hplain
  rw [Plain.append_iff] at hplain
  rw [Plain.append_iff, Plain.append_iff]
  exact ⟨hplain.1.redactedGlyphs, fun g hg => hplain.2 g (hkeyBegins.subset hg), Plain.plain _⟩

/-- The first word of a text is unique. -/
theorem word_unique {l rest l' rest' : List Glyph} (hl : Solid (codes l)) (hl' : Solid (codes l'))
    (hrest : WordEnd (codes rest)) (hrest' : WordEnd (codes rest'))
    (heq : l ++ rest = l' ++ rest') :
  l = l' ∧ rest = rest'
  := by
  have hnil : ∀ {as bs : List Glyph}, Solid (codes as) → WordEnd (codes (as ++ bs)) →
      as = [] := by
    intro as bs hsolid hend
    cases as with
    | nil => rfl
    | cons g as =>
      have hspace := hend g.code rfl
      rw [← isSolid_eq_false, hsolid g.code (by simp)] at hspace
      cases hspace
  rcases List.append_eq_append_iff.mp heq with ⟨as, rfl, rfl⟩ | ⟨as, rfl, rfl⟩
  · have has : as = [] := hnil (fun c hc => hl' c (by simp [hc])) hrest
    simp [has]
  · have has : as = [] := hnil (fun c hc => hl c (by simp [hc])) hrest'
    simp [has]

/-- A key and what follows it, when white space separates the key from the word behind it: the
first word of the text ends before that word. -/
theorem exists_separator_eq {key left right word rest m rest' : List Glyph} {g : Glyph}
    (hkey : Solid (codes key)) (hleft : Blank (codes left)) (hg : isAssignment g.code = true)
    (hright : Blank (codes right)) (hm : Solid (codes m)) (hend : WordEnd (codes rest'))
    (heq : key ++ (left ++ g :: (right ++ (word ++ rest))) = m ++ rest')
    (hspace : ¬ (left = [] ∧ right = [])) :
  ∃ separator, rest' = separator ++ (word ++ rest)
    ∧ ∀ c ∈ codes separator, fold c ∉ keyCharacters
  := by
  by_cases hnil : left = []
  · subst hnil
    have hne : right ≠ [] := fun hnil => hspace ⟨rfl, hnil⟩
    have hsolid : Solid (codes (key ++ [g])) := by
      rw [codes_append]
      refine List.forall_mem_append.mpr ⟨hkey, List.forall_mem_cons.mpr ⟨?_, by simp⟩⟩
      apply isSolid_of_isAssignment hg
    refine ⟨right, ?_, hright.fold_not_mem⟩
    refine (word_unique hm hsolid hend (wordEnd_codes_append hright hne) ?_).2
    rw [← heq]
    simp
  · refine ⟨left ++ g :: right, ?_, ?_⟩
    · rw [(word_unique hkey hm (wordEnd_codes_append hleft hnil) hend heq).2.symm]
      simp
    · rw [codes_append]
      refine List.forall_mem_append.mpr ⟨hleft.fold_not_mem, List.forall_mem_cons.mpr ⟨?_, ?_⟩⟩
      · apply fold_not_mem_of_isAssignment hg
      · apply hright.fold_not_mem

/-- What is left of a credential of one word, in a text without user information around it. -/
theorem plain_redactedGlyphs_iff {front key left right word rest : List Glyph} {g : Glyph}
    (hfront : Plain front) (hplain : Plain key) (hkey : IsKey (codes key))
    (hleft : Blank (codes left)) (hg : isAssignment g.code = true) (hright : Blank (codes right))
    (hword : IsWord (codes word)) (hhead : ∃ s ∈ word.head?, s.secret = true)
    (hrest : Plain rest) (hend : WordEnd (codes rest)) :
  Plain (redactedGlyphs (front ++ (key ++ (left ++ g :: (right ++ (word ++ rest))))))
    ↔ (left = [] ∧ right = []) ∨ secretRe.reaches (codes front) (codes key) = false
  := by
  have hcodes : codes (key ++ (left ++ g :: (right ++ (word ++ rest))))
      = codes key ++ codes (left ++ g :: (right ++ (word ++ rest))) := codes_append _ _
  cases hreaches : secretRe.reaches (codes front) (codes key) with
  | false =>
    have hassigned : Assigned (codes (left ++ g :: (right ++ word))) :=
      ⟨codes left, g.code, codes right, codes word, by simp, hleft, hg, hright, hword⟩
    have hsplit : left ++ g :: (right ++ (word ++ rest))
        = (left ++ g :: (right ++ word)) ++ rest := by simp
    have hall : Plain (redactedGlyphs (front ++ (key ++ (left ++ g :: (right ++ (word ++ rest))))))
        := by
      rw [redactedGlyphs_append (by rw [hcodes, hkey.unsplit.reaches_append, hreaches]), hsplit,
        redactedGlyphs_secret hkey hassigned hend]
      simp [hfront.redactedGlyphs, hplain, Plain.plain, hrest.redactedGlyphs]
    simp [hall]
  | true =>
    obtain ⟨front', m, rest', heq, hm, hend', hredacted, hfront'⟩ :=
      exists_redactedGlyphs_eq hkey.unsplit hcodes hreaches
    rw [hredacted, Plain.append_iff]
    constructor
    · rintro ⟨-, hplain'⟩
      left
      by_contra hspace
      obtain ⟨separator, rfl, hseparator⟩ :=
        exists_separator_eq hkey.unsplit.solid hleft hg hright hm hend' heq hspace
      rw [redactedGlyphs_append_of_no_start hseparator, Plain.append_iff] at hplain'
      refine not_plain_redactedGlyphs ?_ hplain'.2
      rw [List.head?_append_of_ne_nil _ (by simpa [codes] using hword.1)]
      exact hhead
    · rintro (⟨rfl, rfl⟩ | hfalse)
      · have hsolid : Solid (codes (key ++ g :: word)) := by
          rw [codes_append]
          refine List.forall_mem_append.mpr ⟨hkey.unsplit.solid, ?_⟩
          exact List.forall_mem_cons.mpr ⟨isSolid_of_isAssignment hg, hword.2⟩
        have hsplit : m ++ rest' = (key ++ g :: word) ++ rest := by
          rw [← heq]
          simp
        obtain ⟨-, rfl⟩ := word_unique hm hsolid hend' hend hsplit
        exact ⟨hfront' hfront, hrest.redactedGlyphs⟩
      · cases hfalse

/-- What is left of a credential that goes on behind the user information of a URL. -/
theorem plain_redactedGlyphs_masked_iff {front mask word rest : List Glyph} {g : Glyph}
    (hfront : Plain front) (hmask : codes mask = [':', '/', '/', '*', '*', '*'])
    (hg : g.code = '@') (hsecret : g.secret = true) (hword : Solid (codes word))
    (hrest : Plain rest) (hend : WordEnd (codes rest)) :
  Plain (redactedGlyphs (front ++ ((mask ++ [g]) ++ (word ++ rest))))
    ↔ secretRe.reaches (codes front) "://***@".toList = true
  := by
  have hmasked : codes (mask ++ [g]) = [':', '/', '/', '*', '*', '*', '@'] := by
    rw [codes_append, hmask, codes_cons, hg]
    rfl
  have hcodes : codes ((mask ++ [g]) ++ (word ++ rest))
      = [':', '/', '/', '*', '*', '*', '@'] ++ codes (word ++ rest) := by
    rw [codes_append, hmasked]
  have hlit : "://***@".toList = [':', '/', '/', '*', '*', '*', '@'] := rfl
  rw [hlit]
  cases hreaches : secretRe.reaches (codes front) [':', '/', '/', '*', '*', '*', '@'] with
  | false =>
    have hkept : ∀ c ∈ codes (mask ++ [g]), fold c ∉ keyCharacters := by
      rw [hmasked]
      exact Python.forall_mem_of_all (by decide +kernel)
    have hnot : ¬ Plain (mask ++ [g]) := by
      rintro hplain
      have hfalse := hplain g (by simp)
      rw [hsecret] at hfalse
      cases hfalse
    rw [redactedGlyphs_append (by rw [hcodes, unsplit_masked.reaches_append, hreaches]),
      redactedGlyphs_append_of_no_start hkept, Plain.append_iff, Plain.append_iff]
    simp [hnot]
  | true =>
    obtain ⟨front', m, rest', heq, hm, hend', hredacted, hfront'⟩ :=
      exists_redactedGlyphs_eq unsplit_masked hcodes hreaches
    have hsolid : Solid (codes (mask ++ [g] ++ word)) := by
      rw [codes_append, hmasked]
      apply List.forall_mem_append.mpr ⟨unsplit_masked.solid, hword⟩
    have hsplit : m ++ rest' = (mask ++ [g] ++ word) ++ rest := by
      rw [← heq]
      simp
    obtain ⟨-, rfl⟩ := word_unique hm hsolid hend' hend hsplit
    rw [hredacted, Plain.append_iff]
    simp [hfront' hfront, hrest.redactedGlyphs]

/-! ### A scheme and a token -/

/-- The first substitution keeps the end of a text. -/
theorem getLast?_cleanedGlyphs (l : List Glyph) :
  (cleanedGlyphs l).getLast? = l.getLast?
  := by
  apply Pattern.getLast?_sub
  rintro m rest hfind
  obtain ⟨mark, info, g, rfl, hmark, -⟩ := exists_of_urlUserinfo_glyphs hfind
  have hlen : mark.length = 3 := by rw [← length_codes, hmark]; rfl
  rw [maskInfo_append hlen, List.getLast?_concat, ← List.append_assoc, List.getLast?_concat]

theorem exists_cleanedGlyphs_concat (xs : List Glyph) (g : Glyph) :
  ∃ ys, cleanedGlyphs (xs ++ [g]) = ys ++ [g]
  := by
  apply List.getLast?_eq_some_iff.mp
  rw [getLast?_cleanedGlyphs, List.getLast?_concat]

/-- The last glyph of a text that is not white space is unique. -/
theorem last_solid_unique {l l' gap gap' : List Glyph} {g g' : Glyph} (hg : isSolid g.code = true)
    (hg' : isSolid g'.code = true) (hgap : Blank (codes gap)) (hgap' : Blank (codes gap'))
    (heq : l ++ g :: gap = l' ++ g' :: gap') :
  g = g'
  := by
  have hmem : ∀ {g : Glyph} {gap : List Glyph}, isSolid g.code = true → Blank (codes gap) →
      g ∉ gap := by
    rintro g gap hg hgap hmem
    have hspace := hgap g.code (List.mem_map_of_mem hmem)
    simp [isSolid, hspace] at hg
  rcases List.append_eq_append_iff.mp heq with ⟨as, -, hrest⟩ | ⟨as, -, hrest⟩
  · cases as with
    | nil => exact (List.cons.inj hrest).1
    | cons a as =>
      obtain ⟨-, rfl⟩ := List.cons.inj hrest
      exact absurd (by simp) (hmem hg' hgap)
  · cases as with
    | nil => exact (List.cons.inj hrest).1.symm
    | cons a as =>
      obtain ⟨-, rfl⟩ := List.cons.inj hrest
      exact absurd (by simp) (hmem hg hgap')

/-- Before the end of a scheme stands a glyph of the scheme or the separator. -/
theorem exists_last_solid {front right scheme : List Glyph} {g : Glyph}
    (hg : isAssignment g.code = true) (hright : Blank (codes right))
    (hscheme : ∀ s ∈ scheme, isSolid s.code = true ∧ s.secret = true) :
  ∃ l s gap, cleanedGlyphs (front ++ g :: (right ++ scheme)) = l ++ s :: gap ∧ Blank (codes gap)
    ∧ isSolid s.code = true ∧ (s.secret = true ∨ isAssignment s.code = true)
  := by
  rcases List.eq_nil_or_concat scheme with rfl | ⟨scheme, s, rfl⟩
  · obtain ⟨l, hl⟩ := exists_cleanedGlyphs_concat front g
    have hend : WordEnd (codes right) := by
      rintro c hc
      apply hright c (List.mem_of_mem_head? hc)
    have hkept : cleanedGlyphs right = right := by
      have hall := cleanedGlyphs_append_of_no_colon hright.not_mem_colon []
      rw [List.append_nil] at hall
      apply hall.trans (List.append_nil right)
    refine ⟨l, g, right, ?_, hright, isSolid_of_isAssignment hg, .inr hg⟩
    rw [List.append_nil, ← List.singleton_append, ← List.append_assoc,
      cleanedGlyphs_append_wordEnd _ hend, hl, hkept, List.append_assoc, List.singleton_append]
  · obtain ⟨l, hl⟩ := exists_cleanedGlyphs_concat (front ++ g :: (right ++ scheme)) s
    obtain ⟨hsolid, hsecret⟩ := hscheme s (by simp)
    refine ⟨l, s, [], ?_, by simp [Blank], hsolid, .inl hsecret⟩
    rw [← hl]
    simp

/-- A match that covers a word's end and the white space behind it has its key there, or its
separator is that end. -/
theorem exists_key_before_gap {l gap before m₁ m₂ key m : List Glyph} {s : Glyph}
    (hs : isSolid s.code = true) (hgap : Blank (codes gap)) (hne : gap ≠ [])
    (hkey : IsKey (codes key)) (hm : Assigned (codes m)) (h₁ : m₁ ≠ [])
    (hsplit : l ++ s :: gap = before ++ m₁) (hparts : m₁ ++ m₂ = key ++ m) :
  s ∈ key ∨ ∃ t, l = before ++ (key ++ t) ∧ Blank (codes t) ∧ isAssignment s.code = true
  := by
  obtain ⟨l', rfl, rfl⟩ : ∃ l', l = before ++ l' ∧ m₁ = l' ++ s :: gap := by
    rcases List.append_eq_append_iff.mp hsplit with ⟨as, rfl, hrest⟩ | ⟨l', hl⟩
    · cases as with
      | nil => exact ⟨[], by simp, hrest.symm⟩
      | cons a as =>
        obtain ⟨-, rfl⟩ := List.cons.inj hrest
        obtain ⟨g, m₁, rfl⟩ := List.exists_cons_of_ne_nil h₁
        have hlen := hkey.two_le_length
        rw [length_codes] at hlen
        cases key with
        | nil => simp at hlen
        | cons k key =>
          obtain ⟨rfl, -⟩ := List.cons.inj hparts
          have hsolid := (hkey.forall_mem g.code (by simp)).1
          have hspace := hgap g.code (by simp)
          simp [isSolid, hspace] at hsolid
    · exact ⟨l', hl⟩
  rw [List.append_assoc, List.cons_append] at hparts
  have hseparator : ∀ t, m = t ++ s :: (gap ++ m₂) →
      Blank (codes t) ∧ isAssignment s.code = true := by
    rintro t rfl
    rw [codes_append, codes_cons, codes_append] at hm
    apply hm.separator_of_gap hs hgap (by simpa [codes] using hne)
  rcases List.append_eq_append_iff.mp hparts with ⟨as, rfl, hrest⟩ | ⟨t, rfl, hrest⟩
  · cases as with
    | nil => exact .inr ⟨[], by simp, hseparator [] hrest.symm⟩
    | cons a as =>
      obtain ⟨rfl, -⟩ := List.cons.inj hrest
      exact .inl (by simp)
  · exact .inr ⟨t, rfl, hseparator t hrest⟩

/-- A scheme and a token are never removed whole: a match that covers the start of the token has
its key in the scheme. -/
theorem not_plain_scheme {front right scheme gap token : List Glyph} {g : Glyph}
    (hg : isAssignment g.code = true) (hright : Blank (codes right)) (hne : scheme ≠ [])
    (hscheme : ∀ s ∈ scheme, isSolid s.code = true ∧ s.secret = true)
    (hgapNe : gap ≠ []) (hgap : Blank (codes gap)) (htoken : ∃ s ∈ token.head?, s.secret = true) :
  ¬ Plain (redactedGlyphs (cleanedGlyphs (front ++ g :: (right ++ (scheme ++ (gap ++ token))))))
  := by
  obtain ⟨scheme, s, rfl⟩ := (List.eq_nil_or_concat' scheme).resolve_left hne
  obtain ⟨hsolid, hsecret⟩ := hscheme s (by simp)
  have hscheme' : ∀ s ∈ scheme, isSolid s.code = true ∧ s.secret = true := by
    rintro s hs
    apply hscheme s (by simp [hs])
  obtain ⟨l, hl⟩ := exists_cleanedGlyphs_concat (front ++ g :: (right ++ scheme)) s
  have hsplit : cleanedGlyphs (front ++ g :: (right ++ ((scheme ++ [s]) ++ (gap ++ token))))
      = (l ++ s :: gap) ++ cleanedGlyphs token := by
    have hassoc : front ++ g :: (right ++ ((scheme ++ [s]) ++ (gap ++ token)))
        = ((front ++ g :: (right ++ scheme)) ++ [s]) ++ (gap ++ token) := by simp
    rw [hassoc, cleanedGlyphs_append_wordEnd _ (wordEnd_codes_append hgap hgapNe), hl,
      cleanedGlyphs_append_of_no_colon hgap.not_mem_colon]
    simp
  have hhead : ∃ s ∈ (cleanedGlyphs token).head?, s.secret = true := by
    rw [head?_cleanedGlyphs]
    apply htoken
  have hnot : ∀ {key : List Glyph} {s : Glyph}, s ∈ key → s.secret = true → ¬ Plain key := by
    rintro key s hmem hsecret hplain
    rw [hplain s hmem] at hsecret
    cases hsecret
  intro hplain
  rw [hsplit] at hplain
  cases hreaches : secretRe.reaches (codes (l ++ s :: gap)) (codes (cleanedGlyphs token)) with
  | false =>
    rw [redactedGlyphs_append hreaches, Plain.append_iff] at hplain
    apply not_plain_redactedGlyphs hhead hplain.2
  | true =>
    obtain ⟨before, m₁, m₂, rest, key, m, hm₁, hm₂, h₁, hparts, hkey, hm, -, hredacted⟩ :=
      exists_secret_of_reaches hreaches
    have hkeyPlain : Plain key := by
      rw [hredacted, Plain.append_iff, Plain.append_iff, Plain.append_iff] at hplain
      apply hplain.1.2.1
    rcases exists_key_before_gap hsolid hgap hgapNe hkey hm h₁ hm₁ hparts with
      hmem | ⟨t, rfl, ht, hassign⟩
    · apply hnot hmem hsecret hkeyPlain
    · have hat : s.code ≠ '@' := by
        intro hat
        rw [hat] at hassign
        revert hassign
        decide
      have hfront : cleanedGlyphs (front ++ g :: (right ++ scheme)) = before ++ (key ++ t) := by
        rw [cleanedGlyphs_append (urlUserinfoRe_reaches_singleton _ hat),
          cleanedGlyphs_singleton] at hl
        apply List.append_cancel_right hl
      obtain ⟨l, s', gap', hlast, hgap', hsolid', hcases⟩ :=
        @exists_last_solid front right scheme g hg hright hscheme'
      obtain ⟨key, k, rfl⟩ := (List.eq_nil_or_concat' key).resolve_left (by
        rintro rfl
        have hlen := hkey.two_le_length
        simp at hlen)
      obtain ⟨hk, -, hkAssign⟩ := hkey.forall_mem k.code (by simp)
      have heq : l ++ s' :: gap' = (before ++ key) ++ k :: t := by
        rw [← hlast, hfront]
        simp
      obtain rfl := last_solid_unique hsolid' hk hgap' ht heq
      rcases hcases with hsecret' | hassign'
      · apply hnot (by simp) hsecret' hkeyPlain
      · rw [hkAssign] at hassign'
        cases hassign'

end Evalorch
