import Mathlib.Data.List.Forall2
import Mathlib.Data.List.Pairwise

/-!
# Subsequences up to a relation

A list follows another along a relation when its elements are related to elements at increasing
positions of the other. This is Mathlib's `List.SublistForall₂`, which
is easier to reach by recursion.
-/

namespace Sequence

variable {α β γ : Type} {R : α → β → Prop}

/-- Increasing positions of `ys`, one for each element of `xs`, whose elements are related to
those of `xs`. -/
def InOrder (R : α → β → Prop) (xs : List α) (ys : List β) : Prop :=
  ∃ positions : List ℕ, positions.Pairwise (· < ·)
    ∧ List.Forall₂ (fun x p => ∃ y, ys[p]? = some y ∧ R x y) xs positions

/-- The same positions, one further on. -/
theorem forall₂_succ {xs : List α} {ys : List β} {y : β} {positions : List ℕ}
    (h : List.Forall₂ (fun x p => ∃ z, ys[p]? = some z ∧ R x z) xs positions) :
  List.Forall₂ (fun x p => ∃ z, (y :: ys)[p]? = some z ∧ R x z) xs (positions.map (· + 1))
  := by
  rw [List.forall₂_map_right_iff]
  simpa only [List.getElem?_cons_succ] using h

/-- Positions that are not the first are those of the rest, one further on. -/
theorem exists_pred {xs : List α} {ys : List β} {y : β} {positions : List ℕ}
    (hincreasing : positions.Pairwise (· < ·)) (hpos : ∀ p ∈ positions, 0 < p)
    (h : List.Forall₂ (fun x p => ∃ z, (y :: ys)[p]? = some z ∧ R x z) xs positions) :
  InOrder R xs ys
  := by
  have hsucc : positions = (positions.map (· - 1)).map (· + 1) := by
    rw [List.map_map]
    apply (List.map_congr_left _).trans (List.map_id _) |>.symm
    intro p hp
    exact Nat.sub_add_cancel (hpos p hp)
  refine ⟨positions.map (· - 1), ?_, ?_⟩
  · apply List.pairwise_map.mpr
    apply hincreasing.imp_of_mem
    intro p q hp hq hlt
    have := hpos p hp
    omega
  · rw [hsucc, List.forall₂_map_right_iff] at h
    simpa only [List.getElem?_cons_succ] using h

/-- Positions increase exactly when each element is related to the first that is left or to a
later one. -/
theorem inOrder_iff {xs : List α} {ys : List β} :
  InOrder R xs ys ↔ List.SublistForall₂ R xs ys
  := by
  constructor
  · rintro ⟨positions, hincreasing, h⟩
    induction ys generalizing xs positions with
    | nil =>
      cases h with
      | nil => apply List.SublistForall₂.nil
      | cons hx _ => simp at hx
    | cons y ys ih =>
      cases h with
      | nil => apply List.SublistForall₂.nil
      | @cons x p xs positions hx hrest =>
        obtain ⟨hfirst, hlater⟩ := List.pairwise_cons.mp hincreasing
        cases p with
        | zero =>
          obtain ⟨ps, hps, h'⟩ := exists_pred hlater hfirst hrest
          have hxy : R x y := by simpa using hx
          exact .cons hxy (ih ps hps h')
        | succ p =>
          obtain ⟨ps, hps, h'⟩ := exists_pred hincreasing
            (List.forall_mem_cons.mpr ⟨p.succ_pos, fun q hq => Nat.zero_lt_of_lt (hfirst q hq)⟩)
            (.cons hx hrest)
          exact .cons_right (ih ps hps h')
  · intro h
    induction h with
    | nil => exact ⟨[], .nil, .nil⟩
    | cons hxy _ ih =>
      obtain ⟨positions, hincreasing, h⟩ := ih
      refine ⟨0 :: positions.map (· + 1), ?_, .cons ⟨_, rfl, hxy⟩ (forall₂_succ h)⟩
      apply List.pairwise_cons.mpr
      constructor
      · simp
      · apply List.pairwise_map.mpr
        apply hincreasing.imp
        exact Nat.succ_lt_succ
    | cons_right _ ih =>
      obtain ⟨positions, hincreasing, h⟩ := ih
      refine ⟨positions.map (· + 1), ?_, forall₂_succ h⟩
      apply List.pairwise_map.mpr
      apply hincreasing.imp
      exact Nat.succ_lt_succ

/-- A relation that is weaker on the elements of a list has its subsequences and more. -/
theorem InOrder.imp {S : α → β → Prop} {xs : List α} {ys : List β}
    (hRS : ∀ x ∈ xs, ∀ y, R x y → S x y) (h : InOrder R xs ys) :
  InOrder S xs ys
  := by
  obtain ⟨positions, hincreasing, h⟩ := h
  use positions, hincreasing
  clear hincreasing
  induction h with
  | nil => apply List.Forall₂.nil
  | cons hrelated _ ih =>
    obtain ⟨hx, hrest⟩ := List.forall_mem_cons.mp hRS
    obtain ⟨y, hy, hxy⟩ := hrelated
    exact .cons ⟨y, hy, hx y hxy⟩ (ih hrest)

/-- Every element of a subsequence is related to an element of the other list. -/
theorem InOrder.exists_related {xs : List α} {ys : List β} (h : InOrder R xs ys) {x : α}
    (hx : x ∈ xs) :
  ∃ y ∈ ys, R x y
  := by
  obtain ⟨positions, -, h⟩ := h
  induction h with
  | nil => cases hx
  | cons hrelated _ ih =>
    rcases List.mem_cons.mp hx with rfl | hx
    · obtain ⟨y, hy, hxy⟩ := hrelated
      exact ⟨y, List.mem_of_getElem? hy, hxy⟩
    · exact ih hx

/-- A subsequence of the elements that a partial function has. -/
theorem inOrder_filterMap {f : γ → Option β} {xs : List α} {zs : List γ} :
  InOrder R xs (zs.filterMap f) ↔ InOrder (fun x z => ∃ y, f z = some y ∧ R x y) xs zs
  := by
  rw [inOrder_iff, inOrder_iff]
  constructor
  · intro h
    induction zs generalizing xs with
    | nil =>
      cases h
      apply List.SublistForall₂.nil
    | cons z zs ih =>
      cases hz : f z with
      | none =>
        rw [List.filterMap_cons_none hz] at h
        exact .cons_right (ih h)
      | some y =>
        rw [List.filterMap_cons_some hz] at h
        cases h with
        | nil => apply List.SublistForall₂.nil
        | cons hxy hrest => exact .cons ⟨y, hz, hxy⟩ (ih hrest)
        | cons_right hrest => exact .cons_right (ih hrest)
  · intro h
    induction h with
    | nil => apply List.SublistForall₂.nil
    | cons hxz _ ih =>
      obtain ⟨y, hy, hxy⟩ := hxz
      rw [List.filterMap_cons_some hy]
      exact .cons hxy ih
    | @cons_right z _ zs _ ih =>
      cases hz : f z with
      | none => rwa [List.filterMap_cons_none hz]
      | some y =>
        rw [List.filterMap_cons_some hz]
        exact .cons_right ih

/-- Up to equality these are the sublists. -/
theorem inOrder_eq_iff {xs ys : List α} :
  InOrder Eq xs ys ↔ xs.Sublist ys
  := by
  rw [inOrder_iff, List.sublistForall₂_iff, List.forall₂_eq_eq_eq]
  constructor
  · rintro ⟨_, rfl, h⟩
    exact h
  · intro h
    exact ⟨xs, rfl, h⟩

/-- A sublist loses nothing to a filter that keeps whatever has one of its elements. -/
theorem sublist_filterMap_filter {f : γ → Option β} {keep : γ → Bool} {xs : List β} {zs : List γ}
    (hkeep : ∀ z, ∀ x ∈ xs, f z = some x → keep z = true) :
  xs.Sublist ((zs.filter keep).filterMap f) ↔ xs.Sublist (zs.filterMap f)
  := by
  constructor
  · intro h
    exact h.trans (List.filter_sublist.filterMap f)
  · intro h
    induction zs generalizing xs with
    | nil => exact h
    | cons z zs ih =>
      cases hz : f z with
      | none =>
        rw [List.filterMap_cons_none hz] at h
        rw [List.filter_cons]
        split
        · rw [List.filterMap_cons_none hz]
          exact ih hkeep h
        · exact ih hkeep h
      | some y =>
        rw [List.filterMap_cons_some hz] at h
        cases h with
        | cons _ hrest =>
          rw [List.filter_cons]
          split
          · rw [List.filterMap_cons_some hz]
            exact (ih hkeep hrest).cons y
          · exact ih hkeep hrest
        | @cons_cons xs' _ _ hrest =>
          rw [List.filter_cons_of_pos (hkeep z y List.mem_cons_self hz),
            List.filterMap_cons_some hz]
          apply List.Sublist.cons_cons
          exact ih (fun z x hx => hkeep z x (List.mem_cons_of_mem y hx)) hrest

end Sequence
