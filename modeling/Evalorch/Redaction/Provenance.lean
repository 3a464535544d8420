import Evalorch.Redaction.Matches

/-!
# Where the characters of a redacted text come from

A credential is removed when none of its characters is left at its place, whatever else the
redacted text contains. So the two substitutions are run on glyphs, characters with a mark on
those of the credential: what a substitution keeps keeps its mark, and what it inserts has none.
-/

open Python (Pattern isSpace)

namespace Evalorch

/-- A character of a text, and whether it belongs to the credential. -/
structure Glyph where
  code : Char
  secret : Bool
deriving DecidableEq

/-- Characters that do not belong to the credential. -/
def plain (l : List Char) : List Glyph :=
  l.map fun c => ⟨c, false⟩

/-- The characters of the credential. -/
def marked (l : List Char) : List Glyph :=
  l.map fun c => ⟨c, true⟩

/-- The text of a row of glyphs. -/
def codes (l : List Glyph) : List Char :=
  l.map Glyph.code

/-- No glyph belongs to the credential. -/
def Plain (l : List Glyph) : Prop :=
  ∀ g ∈ l, g.secret = false

instance (l : List Glyph) : Decidable (Plain l) :=
  inferInstanceAs (Decidable (∀ g ∈ l, g.secret = false))

@[simp]
theorem codes_nil :
  codes [] = []
  := rfl

@[simp]
theorem codes_append (l l' : List Glyph) :
  codes (l ++ l') = codes l ++ codes l'
  := List.map_append

@[simp]
theorem codes_cons (g : Glyph) (l : List Glyph) :
  codes (g :: l) = g.code :: codes l
  := rfl

@[simp]
theorem codes_plain (l : List Char) :
  codes (plain l) = l
  := by simp [codes, plain, Function.comp_def]

@[simp]
theorem codes_marked (l : List Char) :
  codes (marked l) = l
  := by simp [codes, marked, Function.comp_def]

@[simp]
theorem length_codes (l : List Glyph) :
  (codes l).length = l.length
  := List.length_map _

@[simp]
theorem plain_append (l l' : List Char) :
  plain (l ++ l') = plain l ++ plain l'
  := List.map_append

@[simp]
theorem marked_append (l l' : List Char) :
  marked (l ++ l') = marked l ++ marked l'
  := List.map_append

theorem Plain.plain (l : List Char) :
  Plain (plain l)
  := by simp [Plain, Evalorch.plain]

@[simp]
theorem Plain.append_iff {l l' : List Glyph} :
  Plain (l ++ l') ↔ Plain l ∧ Plain l'
  := List.forall_mem_append

/-- A row of glyphs whose text is in two parts. -/
theorem exists_of_codes_eq_append {l : List Glyph} {xs ys : List Char} (h : codes l = xs ++ ys) :
  ∃ l₁ l₂, l = l₁ ++ l₂ ∧ codes l₁ = xs ∧ codes l₂ = ys
  := List.map_eq_append_iff.mp h

/-! ### The substitutions on glyphs -/

/-- The template `://***@`, which repeats the ends of the match. -/
def maskInfo (m : List Glyph) : List Glyph :=
  m.take 3 ++ plain "***".toList ++ m.drop (m.length - 1)

/-- The template `\1=***`. -/
def maskSecret (m : List Glyph) : List Glyph :=
  m.take ((keyLength (codes m)).getD 0) ++ plain "=***".toList

/-- `cleaned`, on glyphs. -/
def cleanedGlyphs (l : List Glyph) : List Glyph :=
  (urlUserinfoRe.comap Glyph.code).sub maskInfo l

/-- The second substitution, on glyphs. -/
def redactedGlyphs (l : List Glyph) : List Glyph :=
  (secretRe.comap Glyph.code).sub maskSecret l

theorem maskInfo_append {mark info : List Glyph} {g : Glyph} (hmark : mark.length = 3) :
  maskInfo (mark ++ (info ++ [g])) = mark ++ plain "***".toList ++ [g]
  := by
  unfold maskInfo
  rw [List.take_left' hmark]
  congr
  rw [← List.append_assoc, List.length_append, List.length_singleton, Nat.add_sub_cancel,
    List.drop_left]

/-- The parts of a URL with user information, as glyphs. -/
theorem exists_of_urlUserinfo_glyphs {m rest : List Glyph}
    (h : (urlUserinfoRe.comap Glyph.code).find (m ++ rest) = some m.length) :
  ∃ mark info g, m = mark ++ (info ++ [g]) ∧ codes mark = [':', '/', '/'] ∧ g.code = '@'
    ∧ UrlUserinfo (codes m)
  := by
  have hfind : urlUserinfoRe.find (codes m ++ codes rest) = some (codes m).length := by
    rw [← codes_append, length_codes]
    apply h
  have hurl := urlUserinfo_of_find hfind
  have ⟨info, hsplit, _⟩ := hurl
  obtain ⟨mark, tail, rfl, hmark, htail⟩ := exists_of_codes_eq_append hsplit
  obtain ⟨info', last, rfl, -, hlast⟩ := exists_of_codes_eq_append htail
  obtain ⟨g, hg, hcode⟩ : ∃ g, last = [g] ∧ g.code = '@' := by
    cases last with
    | nil => cases hlast
    | cons g last =>
      obtain ⟨hcode, hnil⟩ := List.cons.inj hlast
      exact ⟨g, by rw [List.map_eq_nil_iff.mp hnil], hcode⟩
  subst hg
  exact ⟨mark, info', g, rfl, hmark, hcode, hurl⟩

/-- The parts of a secret, as glyphs. -/
theorem exists_of_secret_glyphs {s rest : List Glyph}
    (h : (secretRe.comap Glyph.code).find (s ++ rest) = some s.length) :
  ∃ key m, s = key ++ m ∧ IsKey (codes key) ∧ Assigned (codes m) ∧ WordEnd (codes rest)
  := by
  have hfind : secretRe.find (codes s ++ codes rest) = some (codes s).length := by
    rw [← codes_append, length_codes]
    apply h
  obtain ⟨key, m, hsplit, hkey, hm, hrest⟩ := secret_of_find hfind
  obtain ⟨key', m', rfl, rfl, rfl⟩ := exists_of_codes_eq_append hsplit
  exact ⟨key', m', rfl, hkey, hm, hrest⟩

theorem maskSecret_append {key : List Glyph} (hkey : IsKey (codes key)) (m : List Glyph) :
  maskSecret (key ++ m) = key ++ plain "=***".toList
  := by
  have hlen : keyLength (codes (key ++ m)) = some key.length := by
    rw [codes_append, keyLength_eq_some_iff]
    exact ⟨codes key, codes m, rfl, length_codes key, hkey⟩
  rw [maskSecret, hlen, Option.getD_some, List.take_left]

/-- On glyphs, the first substitution yields the same text. -/
theorem codes_cleanedGlyphs (l : List Glyph) :
  codes (cleanedGlyphs l) = cleaned (codes l)
  := by
  apply urlUserinfoRe.map_sub_comap
  rintro m rest hfind
  obtain ⟨mark, info, g, rfl, hmark, hg, -⟩ := exists_of_urlUserinfo_glyphs hfind
  rw [maskInfo_append (by rw [← length_codes, hmark]; rfl)]
  show codes (mark ++ plain "***".toList ++ [g]) = _
  rw [codes_append, codes_append, hmark, codes_plain, codes_cons, hg]
  rfl

/-- On glyphs, the second substitution yields the same text. -/
theorem codes_redactedGlyphs (l : List Glyph) :
  codes (redactedGlyphs l) = secretRe.sub redactedSecret (codes l)
  := by
  apply secretRe.map_sub_comap
  rintro s rest hfind
  obtain ⟨key, m, rfl, hkey, -⟩ := exists_of_secret_glyphs hfind
  rw [maskSecret_append hkey]
  show codes (key ++ plain "=***".toList) = redactedSecret (codes (key ++ m))
  rw [codes_append, codes_append, codes_plain, redactedSecret_append hkey]

/-! ### Occurrences of a credential -/

/-- A word of a text. -/
def IsWord (l : List Char) : Prop :=
  l ≠ [] ∧ Solid l

/-- A credential is a word. That of an authorization may also be a scheme and a token. -/
def IsCredential (key credential : List Char) : Prop :=
  IsWord credential
    ∨ key.map fold = "authorization".toList ∧ ∃ scheme gap token,
      credential = scheme ++ (gap ++ token) ∧ IsWord scheme ∧ gap ≠ [] ∧ Blank gap ∧ IsWord token

/-- An occurrence of a sensitive key and its credential in a text. -/
structure Occurrence where
  before : List Char
  key : List Char
  left : List Char
  op : Char
  right : List Char
  credential : List Char
  after : List Char
  key_sensitive : IsKey key
  left_blank : Blank left
  op_assigns : isAssignment op = true
  right_blank : Blank right
  credential_shape : IsCredential key credential

namespace Occurrence

variable (o : Occurrence)

/-- The key and what separates it from the credential. -/
def label : List Char :=
  o.key ++ o.left ++ o.op :: o.right

/-- The text in which the credential occurs. -/
def text : String :=
  String.ofList (o.before ++ o.label ++ o.credential ++ o.after)

/-- The text with the credential marked in it. -/
def glyphs : List Glyph :=
  plain (o.before ++ o.label) ++ marked o.credential ++ plain o.after

/-- The credential is removed: none of its characters is left in the redacted text. -/
def Removed : Prop :=
  Plain (redactedGlyphs (cleanedGlyphs o.glyphs))

instance : Decidable o.Removed :=
  inferInstanceAs (Decidable (Plain _))

theorem codes_glyphs :
  codes o.glyphs = o.text.toList
  := by simp [glyphs, text]

/-- The glyphs of the redacted text are those of what the code computes. -/
theorem codes_redacted :
  String.ofList (codes (redactedGlyphs (cleanedGlyphs o.glyphs))) = redactSecrets o.text
  := by rw [codes_redactedGlyphs, codes_cleanedGlyphs, codes_glyphs, redactSecrets]

end Occurrence

end Evalorch
