import Mathlib

/-!
# Grouping the rows of a query

A query with `GROUP BY` returns a row for each key that occurs. The groups divide the rows, so what
they count adds up to what is counted without groups.
-/

namespace Query

variable {α κ : Type} [DecidableEq κ] {key : α → κ} {rows : List α}

/-- The keys that occur, each with its rows. -/
def groups (key : α → κ) (rows : List α) : List (κ × List α) :=
  (rows.map key).dedup.map fun k => (k, rows.filter (key · = k))

/-- Each key has one group. -/
theorem nodup_groups (key : α → κ) (rows : List α) :
  ((groups key rows).map Prod.fst).Nodup
  := by
  rw [groups, List.map_map]
  simpa [Function.comp_def] using List.nodup_dedup (rows.map key)

/-- A group has the rows of its key, and at least one. -/
theorem of_mem_groups {group : κ × List α} (h : group ∈ groups key rows) :
  group.2 = rows.filter (key · = group.1) ∧ group.2 ≠ []
  := by
  obtain ⟨k, hk, rfl⟩ := List.mem_map.mp h
  obtain ⟨a, ha, rfl⟩ := List.mem_map.mp (List.mem_dedup.mp hk)
  use rfl
  exact List.ne_nil_of_mem (List.mem_filter.mpr ⟨ha, by simp⟩)

/-- What is counted key by key adds up, when the keys are all those that occur. -/
theorem sum_countP_filter {keys : List κ} (hnodup : keys.Nodup) (hkeys : ∀ a ∈ rows, key a ∈ keys)
    (p : α → Bool) :
  (keys.map fun k => (rows.filter (key · = k)).countP p).sum = rows.countP p
  := by
  induction keys generalizing rows with
  | nil =>
    cases rows with
    | nil => rfl
    | cons a rows => cases hkeys a List.mem_cons_self
  | cons k keys ih =>
    obtain ⟨hk, hnodup⟩ := List.nodup_cons.mp hnodup
    -- The rows of the other keys.
    set others := rows.filter fun a => !decide (key a = k) with hothers
    have hrest : (keys.map fun k' => (rows.filter (key · = k')).countP p)
        = keys.map fun k' => (others.filter (key · = k')).countP p := by
      apply List.map_congr_left
      intro k' hk'
      have hne : k' ≠ k := fun h => hk (h ▸ hk')
      rw [hothers, List.filter_filter]
      congr 1
      apply List.filter_congr
      intro a _
      by_cases h : key a = k'
      · simp [h, hne]
      · simp [h]
    have hmem : ∀ a ∈ others, key a ∈ keys := by
      intro a ha
      obtain ⟨hrow, hother⟩ := List.mem_filter.mp ha
      exact (List.mem_cons.mp (hkeys a hrow)).resolve_left (by simpa using hother)
    rw [List.map_cons, List.sum_cons, hrest, ih hnodup hmem]
    exact (List.countP_eq_countP_filter_add rows p (key · = k)).symm

/-- What the groups count adds up to what is counted without them. -/
theorem sum_countP_groups (key : α → κ) (rows : List α) (p : α → Bool) :
  ((groups key rows).map fun group => group.2.countP p).sum = rows.countP p
  := by
  rw [groups, List.map_map]
  apply sum_countP_filter (List.nodup_dedup _)
  intro a ha
  exact List.mem_dedup.mpr (List.mem_map_of_mem ha)

end Query
