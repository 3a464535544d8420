import Evalorch.Services.ContextResolver

/-!
# Writing paths

A path is written segment by segment: a name, followed by indices in brackets. `parsePath` reads
back the names and the indices, whatever white space stands around the segments and however many
empty segments stand between them, and an index may as well be a segment of its own.
-/

namespace Evalorch

/-! ### Stripping -/

/-- Nothing is dropped from a list that does not start with an element to drop. -/
theorem dropWhile_of_head? {α : Type} {p : α → Bool} {l : List α}
    (h : ∀ x ∈ l.head?, p x = false) :
  l.dropWhile p = l
  := by
  cases l with
  | nil => rfl
  | cons x l => simp [h x rfl]

/-- White space around a text that has none at its ends is stripped. -/
theorem stripBoth_append {α : Type} {p : α → Bool} {before l after : List α}
    (hbefore : ∀ x ∈ before, p x = true) (hafter : ∀ x ∈ after, p x = true)
    (hhead : ∀ x ∈ l.head?, p x = false) (hlast : ∀ x ∈ l.getLast?, p x = false) :
  Python.stripBoth p (before ++ l ++ after) = l
  := by
  have hafter' : ∀ x ∈ after.reverse, p x = true := by simpa using hafter
  cases l with
  | nil =>
    have hall : ∀ x ∈ before ++ [] ++ after, p x = true := by
      simp only [List.append_nil, List.mem_append]
      exact fun x hx => hx.elim (hbefore x) (hafter x)
    rw [Python.stripBoth, List.dropWhile_eq_nil_iff.mpr hall]
    rfl
  | cons x l =>
    have hfront : ((x :: l) ++ after).dropWhile p = (x :: l) ++ after :=
      dropWhile_of_head? hhead
    have hback : (x :: l).reverse.dropWhile p = (x :: l).reverse := by
      apply dropWhile_of_head?
      rw [List.head?_reverse]
      apply hlast
    rw [Python.stripBoth, List.append_assoc, List.dropWhile_append_of_pos hbefore, hfront,
      List.rdropWhile, List.reverse_append, List.dropWhile_append_of_pos hafter', hback,
      List.reverse_reverse]

/-- A decimal digit is no white space, and no character that has a meaning in a path. -/
theorem isDecimal_plain {c : Char} (h : Python.isDecimal c = true) :
  Python.isSpace c = false ∧ c ≠ '.' ∧ c ≠ '[' ∧ c ≠ ']' ∧ c ≠ '*'
  := by
  obtain ⟨d, hd⟩ := Option.isSome_iff_exists.mp h
  obtain ⟨first, hfind, -⟩ := Option.map_eq_some_iff.mp hd
  have hblock := List.mem_of_find?_eq_some hfind
  have hrange := List.find?_some hfind
  simp only [Bool.and_eq_true, decide_eq_true_eq] at hrange
  have hall : ∀ first ∈ Python.decimalBlocks, ∀ k < 10,
      Python.isSpace (Char.ofNat (first + k)) = false ∧ first + k ≠ '.'.toNat
        ∧ first + k ≠ '['.toNat ∧ first + k ≠ ']'.toNat ∧ first + k ≠ '*'.toNat := by
    decide +kernel
  have hc := hall first hblock (c.toNat - first) (by omega)
  rw [Nat.add_sub_cancel' hrange.1, Char.ofNat_toNat] at hc
  obtain ⟨hspace, hdot, hopen, hclose, hstar⟩ := hc
  exact ⟨hspace, fun h => hdot (h ▸ rfl), fun h => hopen (h ▸ rfl), fun h => hclose (h ▸ rfl),
    fun h => hstar (h ▸ rfl)⟩

/-! ### Segments -/

/-- A name of a segment: a text without dots, brackets and surrounding white space. -/
structure SegmentName where
  text : List Char
  nonempty : text ≠ []
  plain : ∀ c ∈ text, c ≠ '.' ∧ c ≠ '[' ∧ c ≠ ']'
  front : ∀ c ∈ text.head?, Python.isSpace c = false
  back : ∀ c ∈ text.getLast?, Python.isSpace c = false

/-- An index of a segment. -/
inductive PathIndex where
  | every
  | position (digits : List Char) (nonempty : digits ≠ [])
      (decimal : ∀ c ∈ digits, Python.isDecimal c = true)

/-- The text of an index, without brackets. -/
def PathIndex.text : PathIndex → List Char
  | .every => ['*']
  | .position digits _ _ => digits

/-- A segment of a path: a name with indices. -/
structure Segment where
  name : SegmentName
  indices : List PathIndex

namespace Segment

/-- The text of a segment, with the indices in brackets. -/
def text (s : Segment) : List Char :=
  s.name.text ++ s.indices.flatMap fun index => '[' :: index.text ++ [']']

/-- The tokens that a segment stands for. -/
def tokens (s : Segment) : List String :=
  String.ofList s.name.text :: s.indices.map fun index => String.ofList index.text

end Segment

/-! ### Reading a segment -/

/-- An index in brackets is found. -/
theorem matchIndex_text (index : PathIndex) (rest : List Char) :
  matchIndex ('[' :: index.text ++ ']' :: rest) = some index.text
  := by
  cases index with
  | every => rfl
  | position digits nonempty decimal =>
    have hclose : Python.isDecimal ']' = false := by decide
    have htake : (digits ++ ']' :: rest).takeWhile Python.isDecimal = digits := by
      rw [List.takeWhile_append_of_pos decimal]
      simp [hclose]
    change matchIndex ('[' :: (digits ++ ']' :: rest)) = some digits
    unfold matchIndex
    split
    case h_1 heq =>
      cases digits with
      | nil => exact absurd rfl nonempty
      | cons d digits =>
        have hd := (isDecimal_plain (decimal d List.mem_cons_self)).2.2.2.2
        exact absurd (List.cons.inj (List.cons.inj heq).2).1 hd
    case h_2 rest' _ heq =>
      obtain ⟨-, rfl⟩ := List.cons.inj heq
      simp [htake, nonempty]
    case h_3 h => exact absurd rfl (h _)

/-- The characters of an index are skipped. -/
theorem scanIndices_skip (skipped rest : List Char) :
  scanIndices skipped.length (skipped ++ rest) = scanIndices 0 rest
  := by
  induction skipped with
  | nil => rfl
  | cons c skipped ih => rw [List.length_cons, List.cons_append, scanIndices, ih]

/-- A text without brackets is kept. -/
theorem scanIndices_append {text : List Char} (h : '[' ∉ text) (rest : List Char) :
  scanIndices 0 (text ++ rest) = (text ++ (scanIndices 0 rest).1, (scanIndices 0 rest).2)
  := by
  induction text with
  | nil => rfl
  | cons c text ih =>
    obtain ⟨hc, htext⟩ := List.ne_and_not_mem_of_not_mem_cons h
    have hmatch : matchIndex (c :: (text ++ rest)) = none := by
      unfold matchIndex
      split
      case h_1 heq => exact absurd (List.cons.inj heq).1.symm hc
      case h_2 heq => exact absurd (List.cons.inj heq).1.symm hc
      case h_3 => rfl
    simp [scanIndices, hmatch, ih htext]

/-- Indices in brackets are read one after another. -/
theorem scanIndices_indices (indices : List PathIndex) :
  scanIndices 0 (indices.flatMap fun index => '[' :: index.text ++ [']'])
    = ([], indices.map fun index => String.ofList index.text)
  := by
  induction indices with
  | nil => rfl
  | cons index indices ih =>
    set rest := indices.flatMap fun index => '[' :: index.text ++ [']'] with hrest
    have hskip := scanIndices_skip (index.text ++ [']']) rest
    simp only [List.length_append, List.length_singleton, List.append_assoc,
      List.singleton_append] at hskip
    have hscan : scanIndices 0 ('[' :: (index.text ++ ']' :: rest))
        = ([], String.ofList index.text :: indices.map fun index => String.ofList index.text) := by
      rw [scanIndices, show '[' :: (index.text ++ ']' :: rest) = '[' :: index.text ++ ']' :: rest
        from rfl, matchIndex_text]
      simp only [hskip, ih]
    have hcons : ((index :: indices).flatMap fun index => '[' :: index.text ++ [']'])
        = '[' :: (index.text ++ ']' :: rest) := by simp [hrest]
    rw [hcons, hscan, List.map_cons]

/-- A segment is read as its name and its indices. -/
theorem segmentTokens_text (s : Segment) :
  segmentTokens (String.ofList s.text) = s.tokens
  := by
  have hbracket : '[' ∉ s.name.text := fun h => (s.name.plain _ h).2.1 rfl
  have hscan : scanIndices 0 s.text
      = (s.name.text, s.indices.map fun index => String.ofList index.text) := by
    rw [Segment.text, scanIndices_append hbracket, scanIndices_indices, List.append_nil]
  rw [segmentTokens, String.toList_ofList, hscan]
  simp [s.name.nonempty, Segment.tokens]

/-! ### Reading a path -/

/-- What stands between two dots of a path: white space, or a segment with white space around
it. -/
inductive Piece where
  | blank (space : List Char) (isSpace : ∀ c ∈ space, Python.isSpace c = true)
  | segment (before : List Char) (s : Segment) (after : List Char)
      (isSpaceBefore : ∀ c ∈ before, Python.isSpace c = true)
      (isSpaceAfter : ∀ c ∈ after, Python.isSpace c = true)

namespace Piece

/-- The text of a piece. -/
def text : Piece → List Char
  | .blank space _ => space
  | .segment before s after _ _ => before ++ s.text ++ after

/-- The segment of a piece, if it has one. -/
def segment? : Piece → Option Segment
  | .blank _ _ => none
  | .segment _ s _ _ _ => some s

end Piece

/-- The path that is made of pieces. -/
def joined (pieces : List Piece) : String :=
  String.ofList (['.'].intercalate (pieces.map Piece.text))

/-- The segments of a path, in order. -/
def segments (pieces : List Piece) : List Segment :=
  pieces.filterMap Piece.segment?

/-- A segment starts with its name. -/
theorem Segment.head_text (s : Segment) :
  ∀ c ∈ s.text.head?, Python.isSpace c = false
  := by
  intro c hc
  apply s.name.front
  rwa [Segment.text, List.head?_append_of_ne_nil _ s.name.nonempty] at hc

/-- A segment ends with a bracket, or with its name. -/
theorem Segment.last_text (s : Segment) :
  ∀ c ∈ s.text.getLast?, Python.isSpace c = false
  := by
  obtain ⟨name, indices⟩ := s
  induction indices using List.reverseRecOn with
  | nil =>
    intro c hc
    apply name.back
    simpa [Segment.text] using hc
  | append_singleton indices index _ =>
    intro c hc
    have hlast : (Segment.mk name (indices ++ [index])).text
        = (name.text ++ (indices.flatMap fun index => '[' :: index.text ++ [']'])
          ++ '[' :: index.text) ++ [']'] := by simp [Segment.text]
    rw [hlast, List.getLast?_concat] at hc
    cases hc
    decide

/-- The text of an index has no dot. -/
theorem PathIndex.text_no_dot (index : PathIndex) :
  '.' ∉ index.text
  := by
  cases index with
  | every => decide
  | position digits nonempty decimal => exact fun h => (isDecimal_plain (decimal _ h)).2.1 rfl

theorem Segment.text_no_dot (s : Segment) :
  '.' ∉ s.text
  := by
  have hname : '.' ∉ s.name.text := fun h => (s.name.plain _ h).1 rfl
  simp [Segment.text, hname, PathIndex.text_no_dot]

/-- No piece has a dot. -/
theorem Piece.text_no_dot (piece : Piece) :
  '.' ∉ piece.text
  := by
  have hspace : ∀ {space : List Char}, (∀ c ∈ space, Python.isSpace c = true) → '.' ∉ space :=
    fun h hdot => absurd (h _ hdot) (by decide)
  cases piece with
  | blank space isSpace => exact hspace isSpace
  | segment before s after isSpaceBefore isSpaceAfter =>
    simp [Piece.text, hspace isSpaceBefore, hspace isSpaceAfter, s.text_no_dot]

/-- The tokens of a piece are those of its segment. -/
theorem segmentTokens_piece (piece : Piece) :
  segmentTokens (Python.strip (String.ofList piece.text))
    = (piece.segment?.map Segment.tokens).getD []
  := by
  cases piece with
  | blank space isSpace =>
    have hnil := @stripBoth_append _ Python.isSpace space [] [] isSpace (by simp) (by simp)
      (by simp)
    rw [List.append_nil, List.append_nil] at hnil
    rw [Python.strip, String.toList_ofList, Piece.text, hnil]
    rfl
  | segment before s after isSpaceBefore isSpaceAfter =>
    rw [Python.strip, String.toList_ofList, Piece.text,
      stripBoth_append isSpaceBefore isSpaceAfter s.head_text s.last_text, segmentTokens_text]
    rfl

/-- The segments of a path are read one after another. -/
theorem parsePath_eq (pieces : List Piece) :
  parsePath (joined pieces) = (segments pieces).flatMap Segment.tokens
  := by
  cases pieces with
  | nil => decide
  | cons piece pieces =>
    have hsplit : Python.split '.' (joined (piece :: pieces))
        = (piece :: pieces).map fun piece => String.ofList piece.text := by
      rw [Python.split, joined, String.toList_ofList, List.splitOn_intercalate, List.map_map]
      · rfl
      · simp [Piece.text_no_dot]
      · simp
    rw [parsePath, hsplit, List.flatMap_map]
    simp only [segmentTokens_piece]
    generalize piece :: pieces = pieces
    induction pieces with
    | nil => rfl
    | cons piece pieces ih =>
      cases hpiece : piece.segment? with
      | none => simp [segments, hpiece, ih]
      | some s => simp [segments, hpiece, ih]

/-- An index as the name of a segment. -/
def PathIndex.name (index : PathIndex) : SegmentName where
  text := index.text
  nonempty := by cases index <;> simp [PathIndex.text, *]
  plain c hc := by
    cases index with
    | every =>
      obtain rfl := List.mem_singleton.mp hc
      decide
    | position digits nonempty decimal =>
      obtain ⟨-, hdot, hopen, hclose, -⟩ := isDecimal_plain (decimal c hc)
      exact ⟨hdot, hopen, hclose⟩
  front c hc := by
    cases index with
    | every =>
      cases hc
      decide
    | position digits nonempty decimal =>
      exact (isDecimal_plain (decimal c (List.mem_of_mem_head? hc))).1
  back c hc := by
    cases index with
    | every =>
      cases hc
      decide
    | position digits nonempty decimal =>
      exact (isDecimal_plain (decimal c (List.mem_of_mem_getLast? hc))).1

/-- The segments that stand for a segment when every index is a segment of its own. -/
def Segment.dotted (s : Segment) : List Segment :=
  ⟨s.name, []⟩ :: s.indices.map fun index => ⟨index.name, []⟩

theorem Segment.tokens_dotted (s : Segment) :
  s.dotted.flatMap Segment.tokens = s.tokens
  := by
  simp only [Segment.dotted, Segment.tokens, PathIndex.name, List.flatMap_cons, List.flatMap_map,
    List.map_nil, List.singleton_append]
  rw [List.map_eq_flatMap]

/-- Paths parse back to their tokens, whatever white space stands around the segments and however
many empty segments there are, and an index in brackets is the same as an index that is a segment of
its own. -/
theorem parsePath_joined {pieces dottedPieces : List Piece}
    (h : segments dottedPieces = (segments pieces).flatMap Segment.dotted) :
  parsePath (joined pieces) = (segments pieces).flatMap Segment.tokens
    ∧ parsePath (joined dottedPieces) = parsePath (joined pieces)
  := by
  use parsePath_eq pieces
  rw [parsePath_eq, parsePath_eq, h, List.flatMap_assoc]
  simp only [Segment.tokens_dotted]

namespace Demo

/-- The name `spans`. -/
def spansName : SegmentName where
  text := "spans".toList
  nonempty := by decide
  plain := Python.forall_mem_of_all (by decide)
  front := by
    rintro c ⟨⟩
    decide
  back := by
    rintro c ⟨⟩
    decide

/-- The segment `spans[*][0]`. -/
def spansSegment : Segment where
  name := spansName
  indices := [.every, .position ['0'] (by decide) (Python.forall_mem_of_all (by decide))]

end Demo

/-- With white space and an empty segment. -/
theorem parsePath_joined_demo :
  parsePath " spans[*][0]." = ["spans", "*", "0"]
    ∧ parsePath "spans.*.0" = parsePath " spans[*][0]."
  := by
  have hblank : ∀ c ∈ [' '], Python.isSpace c = true := Python.forall_mem_of_all (by decide)
  have hnone : ∀ c ∈ ([] : List Char), Python.isSpace c = true := by simp
  apply @parsePath_joined
    [.segment [' '] Demo.spansSegment [] hblank hnone, .blank [] hnone]
    (Demo.spansSegment.dotted.map fun s => .segment [] s [] hnone hnone)
  rfl

end Evalorch
