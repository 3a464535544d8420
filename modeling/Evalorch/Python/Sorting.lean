import Mathlib.Data.List.Sort
import Mathlib.Order.Defs.LinearOrder

/-!
# Sorting by a key

`sorted` is stable. Sorting pairs of an item and its position, by a relation that falls back on
the position, sorts the items stably; and a stable sort may be done before or after items are
dropped.
-/

namespace Python

variable {α : Type} {s : α → α → Prop} [DecidableRel s]

/-! ### Positions -/

/-- A projection that agrees with the order of the inserted element carries the insertion
over. -/
theorem map_orderedInsert_of_iff {β : Type} {r : β → β → Prop} [DecidableRel r] (f : β → α)
    (x : β) {l : List β} (h : ∀ y ∈ l, r x y ↔ s (f x) (f y)) :
  (l.orderedInsert r x).map f = (l.map f).orderedInsert s (f x)
  := by
  induction l with
  | nil => rfl
  | cons y l ih =>
    have hy : r x y ↔ s (f x) (f y) := h y List.mem_cons_self
    have hl := ih fun z hz => h z (List.mem_cons_of_mem y hz)
    by_cases hxy : r x y
    · simp [hxy, hy.mp hxy]
    · have hxy' : ¬ s (f x) (f y) := fun hs => hxy (hy.mpr hs)
      simp [hxy, hxy', hl]

/-- Items sorted with their positions, by a relation that orders an item before a later one as
`s` orders them, are the items sorted by `s`. -/
theorem map_fst_insertionSort_zipIdx {r : α × ℕ → α × ℕ → Prop} [DecidableRel r]
    (h : ∀ x y i j, i < j → (r (x, i) (y, j) ↔ s x y)) (l : List α) (n : ℕ) :
  ((l.zipIdx n).insertionSort r).map Prod.fst = l.insertionSort s
  := by
  induction l generalizing n with
  | nil => rfl
  | cons x l ih =>
    rw [List.zipIdx_cons, List.insertionSort_cons, List.insertionSort_cons,
      @map_orderedInsert_of_iff α s _ _ r _ Prod.fst (x, n), ih]
    rintro ⟨y, j⟩ hy
    rw [List.mem_insertionSort] at hy
    apply h
    exact (List.le_snd_of_mem_zipIdx hy : n + 1 ≤ j)

/-- Two items at different positions, as a sublist. -/
theorem pair_sublist_of_getElem? {l : List α} {i j : ℕ} {x y : α} (hij : i < j)
    (hi : l[i]? = some x) (hj : l[j]? = some y) :
  [x, y].Sublist l
  := by
  obtain ⟨hilt, rfl⟩ := List.getElem?_eq_some_iff.mp hi
  have hy : y ∈ l.drop (i + 1) := by
    apply @List.mem_of_getElem? _ _ (j - (i + 1))
    rw [List.getElem?_drop, show i + 1 + (j - (i + 1)) = j by omega, hj]
  have hdrop : [l[i], y].Sublist (l.drop i) := by
    rw [List.drop_eq_getElem_cons hilt]
    apply (List.singleton_sublist.mpr hy).cons_cons
  exact hdrop.trans (List.drop_sublist i l)

/-- Of two items of a list that is ordered pairwise, one comes first. -/
theorem rel_or_rel_of_pairwise {R : α → α → Prop} {l : List α} (h : l.Pairwise R) {x y : α}
    (hx : x ∈ l) (hy : y ∈ l) (hne : x ≠ y) :
  R x y ∨ R y x
  := by
  induction l with
  | nil => simp at hx
  | cons z l ih =>
    obtain ⟨hz, hl⟩ := List.pairwise_cons.mp h
    rcases List.mem_cons.mp hx with rfl | hx'
    · left
      apply hz
      exact (List.mem_cons.mp hy).resolve_left (Ne.symm hne)
    · rcases List.mem_cons.mp hy with rfl | hy'
      · right
        apply hz x hx'
      · apply ih hl hx' hy'

/-! ### Dropping items -/

/-- Dropping items after an insertion into a sorted list. -/
theorem filter_orderedInsert [IsTrans α s] (p : α → Bool) (x : α) {l : List α} (h : l.Pairwise s) :
  (l.orderedInsert s x).filter p
    = if p x then (l.filter p).orderedInsert s x else l.filter p
  := by
  induction l with
  | nil => cases hx : p x <;> simp [hx]
  | cons y l ih =>
    obtain ⟨hy, hl⟩ := List.pairwise_cons.mp h
    by_cases hxy : s x y
    · rw [List.orderedInsert_cons_of_le s l hxy, List.filter_cons]
      split
      case isFalse => rfl
      case isTrue =>
        -- `x` comes before everything that is left of `y :: l`
        have hall : ∀ z ∈ (y :: l).filter p, s x z := by
          intro z hz
          rcases List.mem_cons.mp (List.mem_of_mem_filter hz) with rfl | hz
          · exact hxy
          · exact trans_of s hxy (hy z hz)
        symm
        cases hrest : (y :: l).filter p with
        | nil => rfl
        | cons z rest =>
          apply List.orderedInsert_cons_of_le
          apply hall
          simp [hrest]
    · rw [List.orderedInsert_of_not_le s l hxy, List.filter_cons, List.filter_cons, ih hl]
      cases hx : p x <;> cases hy' : p y <;> simp [hxy]

/-- Dropping items before or after sorting. -/
theorem filter_insertionSort [Std.Total s] [IsTrans α s] (p : α → Bool) (l : List α) :
  (l.insertionSort s).filter p = (l.filter p).insertionSort s
  := by
  induction l with
  | nil => rfl
  | cons x l ih =>
    rw [List.insertionSort_cons, filter_orderedInsert p x (List.pairwise_insertionSort s l), ih,
      List.filter_cons]
    cases p x <;> simp

end Python
