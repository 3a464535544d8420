import Mathlib.Data.List.DropRight
import Mathlib.Data.Int.Notation

/-!
# Text

The operations of `str` that depend on character classes: `strip`, `split` on one character,
`isdigit`, and `int` of a text. The classes are those of Unicode 14. `isDigit` accepts more
characters than `int` does: a superscript or a circled digit has a digit value but is not a
decimal digit.

A text of Python may hold lone surrogates, as the JSON decoder yields them, and is then no
Unicode text. A `Char` is never a surrogate, so the surrogates from U+D800 to U+DFFF stand here as
the private characters from U+10D800 to U+10DFFF: those are in no class either and have no case.
-/

namespace Python

/-! ### Surrogates -/

/-- The character stands for a lone surrogate. -/
def isSurrogate (c : Char) : Bool :=
  0x10d800 ≤ c.toNat && c.toNat ≤ 0x10dfff

/-- `text.encode()` does not raise. -/
def encodes (text : String) : Bool :=
  text.toList.all fun c => !isSurrogate c

/-! ### White space -/

/-- `str.isspace` of one character. -/
def isSpace (c : Char) : Bool :=
  (0x9 ≤ c.toNat && c.toNat ≤ 0xd) || (0x1c ≤ c.toNat && c.toNat ≤ 0x20)
    || (0x2000 ≤ c.toNat && c.toNat ≤ 0x200a)
    || [0x85, 0xa0, 0x1680, 0x2028, 0x2029, 0x202f, 0x205f, 0x3000].contains c.toNat

/-- A test that each element of a list passes. -/
theorem forall_mem_of_all {α : Type} {p : α → Prop} [DecidablePred p] {l : List α}
    (h : (l.all fun x => p x) = true) :
  ∀ x ∈ l, p x
  := by simpa using h

/-- A list without the elements at its ends that satisfy `p`. -/
def stripBoth {α : Type} (p : α → Bool) (l : List α) : List α :=
  (l.dropWhile p).rdropWhile p

/-- `text.strip()`. -/
def strip (text : String) : String :=
  String.ofList (stripBoth isSpace text.toList)

/-- What `dropWhile` leaves does not start with an element that satisfies `p`, and neither does
a nonempty prefix of it. -/
theorem dropWhile_eq_self_of_prefix {α : Type} {p : α → Bool} {l m : List α}
    (h : m <+: l.dropWhile p) :
  m.dropWhile p = m
  := by
  cases m with
  | nil => rfl
  | cons a m =>
    obtain ⟨rest, hrest⟩ := h
    have hne : l.dropWhile p ≠ [] := by
      rw [← hrest]
      simp
    have hhead : ¬ p ((l.dropWhile p).head hne) = true := by
      rw [List.head_dropWhile_not p hne]
      simp
    simp only [← hrest, List.cons_append, List.head_cons] at hhead
    simp [hhead]

theorem stripBoth_stripBoth {α : Type} (p : α → Bool) (l : List α) :
  stripBoth p (stripBoth p l) = stripBoth p l
  := by
  have hprefix : stripBoth p l <+: l.dropWhile p := List.rdropWhile_prefix p _
  have hdrop : (stripBoth p l).dropWhile p = stripBoth p l := dropWhile_eq_self_of_prefix hprefix
  calc stripBoth p (stripBoth p l)
      = (stripBoth p l).rdropWhile p := by rw [stripBoth, hdrop]
    _ = stripBoth p l := by
      unfold stripBoth
      apply List.rdropWhile_idempotent

/-- What is stripped from a list satisfies the test. -/
theorem mem_stripBoth_or {α : Type} {p : α → Bool} {l : List α} {x : α} (h : x ∈ l) :
  x ∈ stripBoth p l ∨ p x = true
  := by
  have hdrop : ∀ m : List α, x ∈ m → x ∈ m.dropWhile p ∨ p x = true := by
    intro m hm
    rw [← List.takeWhile_append_dropWhile (p := p) (l := m), List.mem_append] at hm
    exact hm.symm.imp_right List.mem_takeWhile_imp
  unfold stripBoth List.rdropWhile
  rcases hdrop l h with h | h
  · rw [List.mem_reverse]
    apply hdrop _ (List.mem_reverse.mpr h)
  · exact .inr h

/-- A text that is stripped is left alone by another `strip`. -/
@[simp]
theorem strip_strip (text : String) :
  strip (strip text) = strip text
  := by simp [strip, stripBoth_stripBoth]

/-! ### Splitting -/

/-- `text.split(separator)`, for a separator of one character. -/
def split (separator : Char) (text : String) : List String :=
  (text.toList.splitOn separator).map String.ofList

/-- `text.partition(separator)` without the separator itself, which is of one character. -/
def partition (separator : Char) (text : String) : String × String :=
  (String.ofList (text.toList.takeWhile (· ≠ separator)),
    String.ofList ((text.toList.dropWhile (· ≠ separator)).drop 1))

/-- A text without the separator is its own first part. -/
theorem partition_of_not_mem {separator : Char} {text : String} (h : separator ∉ text.toList) :
  partition separator text = (text, "")
  := by
  have hne : ∀ c ∈ text.toList, decide (c ≠ separator) = true := by
    rintro c hc
    simpa using ne_of_mem_of_not_mem hc h
  rw [partition, List.takeWhile_eq_self_iff.mpr hne, List.dropWhile_eq_nil_iff.mpr hne]
  simp

/-- A text that starts with a part free of the separator is split after that part. -/
theorem split_append {separator : Char} {first : List Char} (h : separator ∉ first)
    (rest : String) :
  split separator (String.ofList (first ++ [separator]) ++ rest)
    = String.ofList first :: split separator rest
  := by
  unfold split
  have hlist : (String.ofList (first ++ [separator]) ++ rest).toList
      = first ++ separator :: rest.toList := by simp
  rw [hlist, List.splitOn_append_cons_self_of_not_mem h]
  rfl

/-- A text without the separator is not split. -/
theorem split_of_not_mem {separator : Char} {text : String} (h : separator ∉ text.toList) :
  split separator text = [text]
  := by
  unfold split
  rw [List.splitOn_eq_singleton h]
  simp

/-- What is not the separator is in one of the parts. -/
theorem exists_mem_splitOn {α : Type} [DecidableEq α] {separator x : α} (hx : x ≠ separator)
    {l : List α} (h : x ∈ l) :
  ∃ part ∈ l.splitOn separator, x ∈ part
  := by
  induction l with
  | nil => cases h
  | cons y l ih =>
    rw [List.splitOn_cons_eq_if_modifyHead]
    split
    case isTrue hy =>
      rcases List.mem_cons.mp h with rfl | h
      · simp [hx] at hy
      · obtain ⟨part, hpart, hmem⟩ := ih h
        exact ⟨part, List.mem_cons_of_mem _ hpart, hmem⟩
    case isFalse =>
      cases hparts : l.splitOn separator with
      | nil => exact absurd hparts (List.splitOn_ne_nil _ _)
      | cons first parts =>
        rcases List.mem_cons.mp h with rfl | h
        · exact ⟨x :: first, List.mem_cons_self, List.mem_cons_self⟩
        · obtain ⟨part, hpart, hmem⟩ := ih h
          rw [hparts] at hpart
          rcases List.mem_cons.mp hpart with rfl | hpart
          · exact ⟨y :: part, List.mem_cons_self, List.mem_cons_of_mem _ hmem⟩
          · exact ⟨part, List.mem_cons_of_mem _ hpart, hmem⟩

/-- Splitting a list with one more element at its end only adds to the last part. -/
theorem splitOn_concat {α : Type} [DecidableEq α] {separator x : α} (h : x ≠ separator)
    (l : List α) :
  ∃ init last, l.splitOn separator = init ++ [last]
    ∧ (l ++ [x]).splitOn separator = init ++ [last ++ [x]]
  := by
  induction l with
  | nil => exact ⟨[], [], rfl, by simp [List.splitOn_cons_eq_if_modifyHead, h]⟩
  | cons y l ih =>
    obtain ⟨init, last, hl, hx⟩ := ih
    rw [List.cons_append, List.splitOn_cons_eq_if_modifyHead,
      List.splitOn_cons_eq_if_modifyHead, hl, hx]
    by_cases hy : y = separator
    · exact ⟨[] :: init, last, by simp [hy], by simp [hy]⟩
    · cases init with
      | nil => exact ⟨[], y :: last, by simp [hy], by simp [hy]⟩
      | cons first init => exact ⟨(y :: first) :: init, last, by simp [hy], by simp [hy]⟩

/-- Stripping the ends of a list changes no part of it that is itself stripped. -/
theorem map_stripBoth_splitOn {α : Type} [DecidableEq α] {p : α → Bool} {separator : α}
    (h : p separator = false) (l : List α) :
  ((stripBoth p l).splitOn separator).map (stripBoth p)
    = (l.splitOn separator).map (stripBoth p)
  := by
  have hne : ∀ x, p x = true → x ≠ separator := by
    rintro x hx rfl
    simp [h] at hx
  have hfront : ∀ l : List α, ((l.dropWhile p).splitOn separator).map (stripBoth p)
      = (l.splitOn separator).map (stripBoth p) := by
    intro l
    induction l with
    | nil => rfl
    | cons x l ih =>
      by_cases hx : p x = true
      · rw [List.dropWhile_cons_of_pos hx, ih, List.splitOn_cons_eq_if_modifyHead]
        cases hparts : l.splitOn separator with
        | nil => exact absurd hparts (List.splitOn_ne_nil separator l)
        | cons first parts => simp [hne x hx, stripBoth, hx]
      · rw [List.dropWhile_cons_of_neg hx]
  have hback : ∀ l : List α, ((l.rdropWhile p).splitOn separator).map (stripBoth p)
      = (l.splitOn separator).map (stripBoth p) := by
    intro l
    induction l using List.reverseRecOn with
    | nil => rfl
    | append_singleton l x ih =>
      by_cases hx : p x = true
      · obtain ⟨init, last, hl, hlx⟩ := splitOn_concat (hne x hx) l
        have hlast : stripBoth p (last ++ [x]) = stripBoth p last := by
          unfold stripBoth
          rw [List.dropWhile_append]
          split
          case isTrue hempty => simp [List.isEmpty_iff.mp hempty, hx]
          case isFalse => apply List.rdropWhile_concat_pos p _ x hx
        rw [List.rdropWhile_concat_pos p l x hx, ih, hl, hlx]
        simp [hlast]
      · rw [List.rdropWhile_concat_neg p l x hx]
  rw [stripBoth, hback, hfront]

/-- The stripped parts of a text are those of the stripped text. -/
theorem map_strip_split_strip {separator : Char} (h : isSpace separator = false)
    (text : String) :
  (split separator (strip text)).map strip = (split separator text).map strip
  := by
  have hparts := congrArg (List.map String.ofList) (map_stripBoth_splitOn h text.toList)
  simpa [split, strip, Function.comp_def] using hparts

/-- What follows a prefix of a text, as `text[len(start):]` after `text.startswith(start)`. -/
def dropPrefix? (start text : String) : Option String :=
  if start.toList.isPrefixOf text.toList then
    some (String.ofList (text.toList.drop start.toList.length))
  else none

theorem dropPrefix?_eq_some {start text rest : String} :
  dropPrefix? start text = some rest ↔ text.toList = start.toList ++ rest.toList
  := by
  unfold dropPrefix?
  constructor
  · intro h
    split at h
    case isFalse => cases h
    case isTrue hprefix =>
      cases h
      obtain ⟨rest, hrest⟩ := List.isPrefixOf_iff_prefix.mp hprefix
      simp [← hrest]
  · intro h
    have hprefix : start.toList.isPrefixOf text.toList = true := by
      rw [h]
      simp
    rw [if_pos hprefix, h]
    simp

/-! ### Digits -/

/-- The first digit of each block of ten decimal digits. -/
def decimalBlocks : List ℕ :=
  [0x30, 0x660, 0x6f0, 0x7c0, 0x966, 0x9e6, 0xa66, 0xae6, 0xb66, 0xbe6, 0xc66, 0xce6, 0xd66,
    0xde6, 0xe50, 0xed0, 0xf20, 0x1040, 0x1090, 0x17e0, 0x1810, 0x1946, 0x19d0, 0x1a80, 0x1a90,
    0x1b50, 0x1bb0, 0x1c40, 0x1c50, 0xa620, 0xa8d0, 0xa900, 0xa9d0, 0xa9f0, 0xaa50, 0xabf0,
    0xff10, 0x104a0, 0x10d30, 0x11066, 0x110f0, 0x11136, 0x111d0, 0x112f0, 0x11450, 0x114d0,
    0x11650, 0x116c0, 0x11730, 0x118e0, 0x11950, 0x11c50, 0x11d50, 0x11da0, 0x16a60, 0x16ac0,
    0x16b50, 0x1d7ce, 0x1d7d8, 0x1d7e2, 0x1d7ec, 0x1d7f6, 0x1e140, 0x1e2f0, 0x1e950, 0x1fbf0]

/-- The ranges of the characters with a digit value that are not decimal digits. -/
def digitRanges : List (ℕ × ℕ) :=
  [(0xb2, 0xb3), (0xb9, 0xb9), (0x1369, 0x1371), (0x19da, 0x19da), (0x2070, 0x2070),
    (0x2074, 0x2079), (0x2080, 0x2089), (0x2460, 0x2468), (0x2474, 0x247c), (0x2488, 0x2490),
    (0x24ea, 0x24ea), (0x24f5, 0x24fd), (0x24ff, 0x24ff), (0x2776, 0x277e), (0x2780, 0x2788),
    (0x278a, 0x2792), (0x10a40, 0x10a43), (0x10e60, 0x10e68), (0x11052, 0x1105a),
    (0x1f100, 0x1f10a)]

/-- The value of a decimal digit. -/
def decimal? (c : Char) : Option ℕ :=
  (decimalBlocks.find? fun first => first ≤ c.toNat && c.toNat < first + 10).map
    fun first => c.toNat - first

/-- A decimal digit, as `\d` matches it. -/
def isDecimal (c : Char) : Bool :=
  (decimal? c).isSome

/-- A character with a digit value. -/
def isDigitChar (c : Char) : Bool :=
  isDecimal c || digitRanges.any fun range => range.1 ≤ c.toNat && c.toNat ≤ range.2

/-- `text.isdigit()`. -/
def isDigit (text : String) : Bool :=
  !text.toList.isEmpty && text.toList.all isDigitChar

/-- The values of a row of decimal digits, with single underscores allowed between two. -/
def decimals? : List Char → Option (List ℕ)
  | [] => none
  | [c] => (decimal? c).map fun d => [d]
  | c :: '_' :: rest => do
    let d ← decimal? c
    let ds ← decimals? rest
    some (d :: ds)
  | c :: rest => do
    let d ← decimal? c
    let ds ← decimals? rest
    some (d :: ds)

/-- `sys.get_int_max_str_digits()`. -/
def intMaxStrDigits : ℕ := 4300

/-- The number that a row of digits denotes. -/
def natOfDigits (ds : List ℕ) : ℕ :=
  ds.foldl (fun n d => 10 * n + d) 0

/-- The number that a text of decimal digits denotes, if it has not too many. -/
def natOfText? (text : List Char) : Option ℕ :=
  ((decimals? text).filter fun ds => ds.length ≤ intMaxStrDigits).map natOfDigits

/-- White space to `int`: of the ASCII separators, only those of C. -/
def isIntSpace (c : Char) : Bool :=
  if c.toNat < 127 then (0x9 ≤ c.toNat && c.toNat ≤ 0xd) || c.toNat = 0x20 else isSpace c

/-- `int(text)`, or nothing when it raises `ValueError`. -/
def int? (text : String) : Option ℤ :=
  match stripBoth isIntSpace text.toList with
  | '-' :: digits => (natOfText? digits).map fun n => -(n : ℤ)
  | '+' :: digits => (natOfText? digits).map fun n => (n : ℤ)
  | digits => (natOfText? digits).map fun n => (n : ℤ)

/-- A character that may stand in a row of digits. -/
def isNumeral (c : Char) : Bool :=
  isDecimal c || c = '_'

/-- The characters of a row of digits are decimal digits and underscores. -/
theorem all_of_decimals?_eq_some {text : List Char} {ds : List ℕ}
    (h : decimals? text = some ds) :
  text.all isNumeral = true
  := by
  have hnumeral : ∀ {c d}, decimal? c = some d → isNumeral c = true := by
    intro c d hd
    simp [isNumeral, isDecimal, hd]
  have hunderscore : isNumeral '_' = true := by decide
  induction text using decimals?.induct generalizing ds with
  | case1 => rfl
  | case2 c =>
    obtain ⟨d, hd, -⟩ := Option.map_eq_some_iff.mp h
    simp [hnumeral hd]
  | case3 c rest ih =>
    simp only [decimals?, Option.bind_eq_bind, Option.bind_eq_some_iff] at h
    obtain ⟨d, hd, ds, hds, -⟩ := h
    simp [hnumeral hd, hunderscore, ih hds]
  | case4 c rest hne hseparated ih =>
    rw [decimals?.eq_4 c rest hne hseparated] at h
    simp only [Option.bind_eq_bind, Option.bind_eq_some_iff] at h
    obtain ⟨d, hd, ds, hds, -⟩ := h
    simp [hnumeral hd, ih hds]

/-- A text of digits has no other characters. -/
theorem all_of_natOfText?_eq_some {text : List Char} {n : ℕ} (h : natOfText? text = some n) :
  text.all isNumeral = true
  := by
  obtain ⟨ds, hds, -⟩ := Option.map_eq_some_iff.mp h
  apply all_of_decimals?_eq_some (Option.filter_eq_some_iff.mp hds).1

/-- A character that a number has no place for does not stand in the text of one. -/
theorem not_mem_of_int?_eq_some {text : String} {n : ℤ} (h : int? text = some n) {c : Char}
    (hspace : isIntSpace c = false) (hsign : c ≠ '-' ∧ c ≠ '+') (hnumeral : isNumeral c = false) :
  c ∉ text.toList
  := by
  intro hc
  have hmem := (mem_stripBoth_or hc).resolve_right (Bool.eq_false_iff.mp hspace)
  have hdigits : ∀ {digits : List Char} {f : ℤ → ℤ},
      ((do let n ← natOfText? digits; pure (n : ℤ)).map f) = some n → c ∉ digits := by
    intro digits f hdigits hc
    obtain ⟨m, hm, -⟩ := Option.map_eq_some_iff.mp hdigits
    obtain ⟨k, hk, -⟩ := Option.bind_eq_some_iff.mp hm
    have hall := List.all_eq_true.mp (all_of_natOfText?_eq_some hk) c hc
    rw [hnumeral] at hall
    cases hall
  unfold int? at h
  split at h
  case h_1 digits htext =>
    rw [htext] at hmem
    exact (List.mem_cons.mp hmem).elim hsign.1 (hdigits h)
  case h_2 digits htext =>
    rw [htext] at hmem
    exact (List.mem_cons.mp hmem).elim hsign.2 (hdigits h)
  case h_3 => exact hdigits h hmem

end Python
