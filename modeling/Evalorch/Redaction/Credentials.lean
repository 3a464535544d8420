import Evalorch.Redaction.Removal

/-!
# Which credentials are removed

An occurrence of a credential is removed exactly when it is one word and stands in a safe place. In
the user information of a URL it must end before the `@`, unless an earlier secret reaches into
the URL. Elsewhere no earlier secret may have consumed the key, unless the key, the separator and
the credential are one word.
-/

open Python (Pattern isSpace)

namespace Evalorch

namespace Occurrence

variable (o : Occurrence)

/-- The key, the separator and the credential are not separated by white space. -/
def Tight : Prop :=
  o.left = [] ∧ o.right = []

/-- The key stands in the user information of a URL: `front` is before the URL, and `inside` is
what the user information still has behind the separator. -/
structure InUserinfo (front info inside rest : List Char) : Prop where
  before_eq : o.before = front ++ ([':', '/', '/'] ++ info)
  info_userinfo : ∀ c ∈ info, isUserinfo c = true
  tight : o.Tight
  behind_eq : o.credential ++ o.after = inside ++ '@' :: rest
  inside_userinfo : ∀ c ∈ inside, isUserinfo c = true

/-- A place where the redaction removes the credential. -/
def Safe : Prop :=
  IsWord o.credential
    ∧ ((∃ front info inside rest, o.InUserinfo front info inside rest
        ∧ (o.credential.length ≤ inside.length
          ∨ secretRe.reaches (cleaned front) "://***@".toList = true))
      ∨ ((¬ ∃ front info inside rest, o.InUserinfo front info inside rest)
        ∧ (o.Tight ∨ secretRe.reaches (cleaned o.before) o.key = false)))

/-! ### Keys in the user information of a URL -/

/-- The end of the user information of a URL is not in the label of a credential. -/
theorem at_not_mem_label :
  '@' ∉ o.label
  := by
  have hblank : ∀ {l : List Char}, Blank l → '@' ∉ l := by
    rintro l hl hmem
    have hspace := hl '@' hmem
    revert hspace
    decide
  intro hmem
  rcases List.mem_append.mp hmem with hmem | hmem
  · rcases List.mem_append.mp hmem with hmem | hmem
    · have huser := (o.key_sensitive.forall_mem '@' hmem).2.1
      revert huser
      decide
    · apply hblank o.left_blank hmem
  · rcases List.mem_cons.mp hmem with hop | hmem
    · have hassign := o.op_assigns
      rw [← hop] at hassign
      revert hassign
      decide
    · apply hblank o.right_blank hmem

/-- A match that reaches into the key is the user information of a URL around it. -/
theorem inUserinfo_of_reaches
    (h : urlUserinfoRe.reaches o.before (o.label ++ (o.credential ++ o.after)) = true) :
  ∃ front info inside rest, o.InUserinfo front info inside rest
  := by
  obtain ⟨front, m₁, m₂, rest, hbefore, heq, h₁, h₂, hfind, -⟩ := Pattern.exists_of_reaches _ h
  rw [← List.append_assoc] at hfind
  obtain ⟨info, hinfo, -, huser⟩ := urlUserinfo_of_find hfind
  obtain ⟨user, rfl, hrest⟩ : ∃ user, m₁ = [':', '/', '/'] ++ user
      ∧ info ++ ['@'] = user ++ m₂ := by
    rcases List.append_eq_append_iff.mp hinfo with ⟨as, hmark, hm₂⟩ | hsplit
    · cases as with
      | nil => exact ⟨[], by simpa using hmark.symm, by simpa using hm₂.symm⟩
      | cons a as =>
        obtain ⟨c, m₁, rfl⟩ := List.exists_cons_of_ne_nil h₁
        obtain ⟨-, htail⟩ := List.cons.inj hmark
        have ha : a ∈ ['/', '/'] := by simp [htail]
        have hslash : a = '/' := by simpa using ha
        have hkey : a ∈ o.key := by
          have hlen := o.key_sensitive.two_le_length
          cases hk : o.key with
          | nil => simp [hk] at hlen
          | cons k key =>
            rw [label, hk, hm₂] at heq
            obtain ⟨rfl, -⟩ := List.cons.inj heq
            apply List.mem_cons_self
        have hfalse := (o.key_sensitive.forall_mem a hkey).2.1
        rw [hslash] at hfalse
        exact absurd hfalse (by decide)
    · apply hsplit
  obtain ⟨m₂, rfl, rfl⟩ : ∃ m, m₂ = m ++ ['@'] ∧ info = user ++ m := by
    obtain ⟨m, c, rfl⟩ := (List.eq_nil_or_concat' m₂).resolve_left h₂
    rw [← List.append_assoc] at hrest
    obtain ⟨rfl, hc⟩ := List.append_inj' hrest rfl
    obtain ⟨rfl, -⟩ := List.cons.inj hc
    exact ⟨m, rfl, rfl⟩
  rw [List.append_assoc, List.singleton_append] at heq
  obtain ⟨inside, rfl, hbehind⟩ : ∃ inside, m₂ = o.label ++ inside
      ∧ o.credential ++ o.after = inside ++ '@' :: rest := by
    rcases List.append_eq_append_iff.mp heq with hsplit | ⟨bs, hlabel, hrest⟩
    · apply hsplit
    · cases bs with
      | nil => exact ⟨[], by simpa using hlabel.symm, hrest.symm⟩
      | cons b bs =>
        obtain ⟨rfl, -⟩ := List.cons.inj hrest
        exact absurd (by simp [hlabel]) o.at_not_mem_label
  have hnil : ∀ {l : List Char}, Blank l → (∀ c ∈ l, c ∈ o.label) → l = [] := by
    intro l hl hmem
    cases l with
    | nil => rfl
    | cons c l =>
      have hc := huser c (by simp [hmem c List.mem_cons_self])
      simp [isUserinfo, hl c List.mem_cons_self] at hc
  refine ⟨front, user, inside, rest, hbefore, ?_, ⟨?_, ?_⟩, hbehind, ?_⟩
  · exact fun c hc => huser c (by simp [hc])
  · apply hnil o.left_blank (fun c hc => by simp [label, hc])
  · apply hnil o.right_blank (fun c hc => by simp [label, hc])
  · exact fun c hc => huser c (by simp [hc])

/-! ### The credential in its place -/

/-- The glyphs of a credential and of the text behind it, up to the end of the word. -/
theorem exists_word (hword : IsWord o.credential) :
  ∃ word rest, marked o.credential ++ plain o.after = word ++ rest ∧ IsWord (codes word)
    ∧ (∃ s ∈ word.head?, s.secret = true) ∧ Plain rest ∧ WordEnd (codes rest)
  := by
  obtain ⟨hne, hsolid⟩ := hword
  refine ⟨marked o.credential ++ plain (o.after.takeWhile isSolid),
    plain (o.after.dropWhile isSolid), ?_, ⟨?_, ?_⟩, ?_, Plain.plain _, ?_⟩
  · rw [List.append_assoc, ← plain_append, List.takeWhile_append_dropWhile]
  · simp [hne]
  · rw [codes_append, codes_marked, codes_plain]
    apply List.forall_mem_append.mpr ⟨hsolid, solid_takeWhile o.after⟩
  · obtain ⟨c, credential, hcredential⟩ := List.exists_cons_of_ne_nil hne
    exact ⟨⟨c, true⟩, by simp [hcredential, marked], rfl⟩
  · rw [codes_plain]
    apply wordEnd_dropWhile o.after

/-- Outside the user information of a URL, the credential is removed unless an earlier secret ends
between the key and the credential. -/
theorem removed_iff_of_not_reaches (hword : IsWord o.credential)
    (h : urlUserinfoRe.reaches o.before (o.label ++ (o.credential ++ o.after)) = false) :
  o.Removed ↔ o.Tight ∨ secretRe.reaches (cleaned o.before) o.key = false
  := by
  obtain ⟨word, rest, hsplit, hword, hhead, hrest, hend⟩ := o.exists_word hword
  have hglyphs : o.glyphs = plain o.before ++ (plain o.key ++ (plain o.left
      ++ ⟨o.op, false⟩ :: (plain o.right ++ (word ++ rest)))) := by
    rw [← hsplit]
    simp [glyphs, label, plain]
  have hcodes : codes (plain o.key ++ (plain o.left
      ++ ⟨o.op, false⟩ :: (plain o.right ++ (word ++ rest)))) = o.label ++ (o.credential ++ o.after)
      := by
    rw [← hsplit]
    simp [label]
  have hcolon : ':' ∉ codes (plain o.key) := by
    rw [codes_plain]
    intro hmem
    exact absurd (o.key_sensitive.forall_mem ':' hmem).2.2 (by decide)
  have hleft : Blank (codes (plain o.left)) := by
    rw [codes_plain]
    apply o.left_blank
  have hright : Blank (codes (plain o.right)) := by
    rw [codes_plain]
    apply o.right_blank
  obtain ⟨word', hcleaned, hword', hhead'⟩ :=
    exists_cleanedGlyphs_eq (g := ⟨o.op, false⟩) o.op_assigns hright hword hend
  unfold Removed
  rw [hglyphs, cleanedGlyphs_append (by rw [codes_plain, hcodes, h]),
    cleanedGlyphs_append_of_no_colon hcolon,
    cleanedGlyphs_append_of_no_colon hleft.not_mem_colon, hcleaned,
    plain_redactedGlyphs_iff (Plain.plain o.before).cleanedGlyphs (Plain.plain o.key)
      (by rw [codes_plain]; exact o.key_sensitive) hleft o.op_assigns hright hword'
      (by rw [hhead']; exact hhead) hrest.cleanedGlyphs (wordEnd_cleanedGlyphs hend),
    codes_cleanedGlyphs, codes_plain, codes_plain]
  simp [Tight, plain]

/-- In the user information of a URL, the credential is removed when it ends there, or when an
earlier secret reaches into the URL. -/
theorem removed_iff_of_inUserinfo (hword : IsWord o.credential)
    {front info inside rest : List Char} (h : o.InUserinfo front info inside rest) :
  o.Removed ↔ o.credential.length ≤ inside.length
    ∨ secretRe.reaches (cleaned front) "://***@".toList = true
  := by
  obtain ⟨hbefore, hinfo, ⟨hleft, hright⟩, hbehind, hinside⟩ := h
  have hbehind' : codes (marked o.credential ++ plain o.after) = inside ++ '@' :: rest := by
    simpa using hbehind
  obtain ⟨inside', behind, hsplit, rfl, hcodes⟩ := exists_of_codes_eq_append hbehind'
  cases behind with
  | nil => cases hcodes
  | cons g behind =>
    obtain ⟨hg, -⟩ := List.cons.inj hcodes
    have hglyphs : o.glyphs = plain front ++ (plain [':', '/', '/']
        ++ ((plain (info ++ (o.key ++ [o.op])) ++ inside') ++ g :: behind)) := by
      rw [List.append_assoc, ← hsplit]
      simp [glyphs, label, plain, hbefore, hleft, hright]
    have huser : ∀ c ∈ codes (plain (info ++ (o.key ++ [o.op])) ++ inside'),
        isUserinfo c = true := by
      have hop : isUserinfo o.op = true := by
        rcases Bool.or_eq_true _ _ ▸ o.op_assigns with hop | hop
        · rw [of_decide_eq_true hop]
          decide
        · rw [of_decide_eq_true hop]
          decide
      rw [codes_append, codes_plain, List.append_assoc, List.append_assoc]
      simp only [List.forall_mem_append, List.forall_mem_singleton]
      exact ⟨hinfo, fun c hc => (o.key_sensitive.forall_mem c hc).2.1, hop, hinside⟩
    have hne : plain (info ++ (o.key ++ [o.op])) ++ inside' ≠ [] := by
      simp [plain]
    have hfront := (Plain.plain front).cleanedGlyphs
    have hmask : Plain (plain [':', '/', '/'] ++ plain "***".toList) :=
      Plain.append_iff.mpr ⟨Plain.plain _, Plain.plain _⟩
    have hlen := congrArg List.length hsplit
    simp only [List.length_append, List.length_cons, marked, List.length_map] at hlen
    unfold Removed
    rw [hglyphs, cleanedGlyphs_url _ _ (codes_plain _) hne huser hg]
    by_cases hle : o.credential.length ≤ (codes inside').length
    · have hsuffix : g :: behind <:+ plain o.after := by
        apply List.suffix_of_suffix_length_le ⟨inside', hsplit.symm⟩ (List.suffix_append _ _)
        rw [length_codes] at hle
        simp only [List.length_cons]
        omega
      have hbehindPlain : Plain (g :: behind) :=
        fun x hx => Plain.plain o.after x (hsuffix.subset hx)
      obtain ⟨hgPlain, hbehindPlain⟩ := List.forall_mem_cons.mp hbehindPlain
      have hall : Plain (cleanedGlyphs (plain front)
          ++ ((plain [':', '/', '/'] ++ plain "***".toList) ++ [g] ++ cleanedGlyphs behind)) := by
        simp only [Plain.append_iff]
        exact ⟨hfront, ⟨Plain.append_iff.mp hmask, by simpa [Plain] using hgPlain⟩,
          Plain.cleanedGlyphs hbehindPlain⟩
      apply iff_of_true hall.redactedGlyphs (.inl hle)
    · obtain ⟨as, has⟩ : inside' ++ [g] <+: marked o.credential := by
        have hbegins : marked o.credential <+: marked o.credential ++ plain o.after :=
          List.prefix_append _ _
        refine List.prefix_of_prefix_length_le ⟨behind, ?_⟩ hbegins ?_
        · rw [hsplit]
          simp
        · rw [length_codes] at hle
          simp only [List.length_append, List.length_singleton, marked, List.length_map]
          omega
      have hbehind'' : behind = as ++ plain o.after := by
        rw [← has] at hsplit
        simpa using hsplit.symm
      have hmarked : ∀ x ∈ marked o.credential, x.secret = true ∧ isSolid x.code = true := by
        rintro x hx
        obtain ⟨c, hc, rfl⟩ := List.mem_map.mp hx
        exact ⟨rfl, hword.2 c hc⟩
      have hword' : Solid (codes (as ++ plain (o.after.takeWhile isSolid))) := by
        rw [codes_append, codes_plain]
        refine List.forall_mem_append.mpr ⟨?_, solid_takeWhile o.after⟩
        rintro c hc
        obtain ⟨x, hx, rfl⟩ := List.mem_map.mp hc
        exact (hmarked x (by simp [← has, hx])).2
      have hend : WordEnd (codes (plain (o.after.dropWhile isSolid))) := by
        rw [codes_plain]
        apply wordEnd_dropWhile o.after
      have hcleaned : cleanedGlyphs behind
          = cleanedGlyphs (as ++ plain (o.after.takeWhile isSolid))
            ++ cleanedGlyphs (plain (o.after.dropWhile isSolid)) := by
        rw [← cleanedGlyphs_append_wordEnd _ hend, hbehind'', List.append_assoc, ← plain_append,
          List.takeWhile_append_dropWhile]
      have hsolid : Solid (codes (cleanedGlyphs (as ++ plain (o.after.takeWhile isSolid)))) := by
        rw [codes_cleanedGlyphs]
        apply hword'.cleaned
      rw [hcleaned, plain_redactedGlyphs_masked_iff hfront (by simp) hg
        (hmarked g (by simp [← has])).1 hsolid (Plain.plain _).cleanedGlyphs
        (wordEnd_cleanedGlyphs hend), codes_cleanedGlyphs, codes_plain]
      exact ⟨.inr, fun h => h.resolve_left hle⟩

/-! ### The exact places -/

/-- A scheme and a token are not removed. -/
theorem isWord_of_removed (h : o.Removed) :
  IsWord o.credential
  := by
  rcases o.credential_shape with hword | ⟨-, scheme, gap, token, heq, hscheme, hne, hgap, htoken⟩
  · apply hword
  · exfalso
    have hglyphs : o.glyphs = plain (o.before ++ (o.key ++ o.left))
        ++ ⟨o.op, false⟩ :: (plain o.right
          ++ (marked scheme ++ (marked gap ++ (marked token ++ plain o.after)))) := by
      simp [glyphs, label, plain, heq]
    unfold Removed at h
    rw [hglyphs] at h
    refine not_plain_scheme o.op_assigns ?_ ?_ ?_ ?_ ?_ ?_ h
    · rw [codes_plain]
      apply o.right_blank
    · simpa [marked] using hscheme.1
    · rintro s hs
      obtain ⟨c, hc, rfl⟩ := List.mem_map.mp hs
      exact ⟨hscheme.2 c hc, rfl⟩
    · simpa [marked] using hne
    · rw [codes_marked]
      apply hgap
    · obtain ⟨c, token, rfl⟩ := List.exists_cons_of_ne_nil htoken.1
      exact ⟨⟨c, true⟩, rfl, rfl⟩

/-- The places where a credential is removed are the safe ones. -/
theorem removed_iff_safe :
  o.Removed ↔ o.Safe
  := by
  unfold Safe
  by_cases hword : IsWord o.credential
  · rw [and_iff_right hword]
    by_cases hinside : ∃ front info inside rest, o.InUserinfo front info inside rest
    · rw [or_iff_left fun h => h.1 hinside]
      constructor
      · intro hremoved
        obtain ⟨front, info, inside, rest, h⟩ := hinside
        exact ⟨front, info, inside, rest, h, (o.removed_iff_of_inUserinfo hword h).mp hremoved⟩
      · rintro ⟨front, info, inside, rest, h, hsafe⟩
        exact (o.removed_iff_of_inUserinfo hword h).mpr hsafe
    · have hreaches : urlUserinfoRe.reaches o.before (o.label ++ (o.credential ++ o.after))
          = false := by
        by_contra hreaches
        rw [Bool.not_eq_false] at hreaches
        apply hinside (o.inUserinfo_of_reaches hreaches)
      have houtside : ¬ ∃ front info inside rest, o.InUserinfo front info inside rest
          ∧ (o.credential.length ≤ inside.length
            ∨ secretRe.reaches (cleaned front) "://***@".toList = true) := by
        rintro ⟨front, info, inside, rest, h, -⟩
        apply hinside ⟨front, info, inside, rest, h⟩
      rw [or_iff_right houtside, and_iff_right hinside, o.removed_iff_of_not_reaches hword hreaches]
  · constructor
    · intro h
      exact absurd (o.isWord_of_removed h) hword
    · rintro ⟨h, -⟩
      exact absurd h hword

end Occurrence

/-- A redaction removes a credential, and removes nothing when it is repeated, exactly where the
place is safe. -/
theorem credential_removed_iff (o : Occurrence) :
  o.Removed ∧ redactSecrets (redactSecrets o.text) = redactSecrets o.text ↔ o.Safe
  := by
  rw [← o.removed_iff_safe]
  simp

/-- Behind the `@` of a URL. -/
example : redactSecrets "http://host?password=p@ss" = "http://***@ss" := by decide +kernel

/-- Behind a key that an earlier secret has consumed. -/
example : redactSecrets "password: password: hunter2" = "password=*** hunter2" := by decide +kernel

/-- `Authorization: Bearer abc123` -/
def bearerHeader : Occurrence where
  before := []
  key := "Authorization".toList
  left := []
  op := ':'
  right := " ".toList
  credential := "Bearer abc123".toList
  after := []
  key_sensitive := by
    unfold IsKey
    decide +kernel
  left_blank := by simp [Blank]
  op_assigns := rfl
  right_blank := Python.forall_mem_of_all (by decide)
  credential_shape := by
    have hscheme : IsWord "Bearer".toList := ⟨by decide, Python.forall_mem_of_all (by decide)⟩
    have hgap : Blank " ".toList := Python.forall_mem_of_all (by decide)
    have htoken : IsWord "abc123".toList := ⟨by decide, Python.forall_mem_of_all (by decide)⟩
    exact .inr ⟨by decide +kernel, _, _, _, rfl, hscheme, by decide, hgap, htoken⟩

/-- The token of the header is left in the redacted text. -/
theorem bearer_token_kept :
  redactSecrets bearerHeader.text = "Authorization=*** abc123" ∧ ¬ bearerHeader.Removed
  := by
  constructor
  · decide +kernel
  · decide +kernel

end Evalorch
