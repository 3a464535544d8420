import Mathlib.Data.List.Basic

/-!
# Ancestry

Elements may link to a parent by its key, and a key may find an element. From an element
the chain of parents reaches a root, an element without a link, or it ends at a key that finds
nothing, or it runs for ever. The number of steps to the root is unique, and it is smaller for
a parent, so a chain that reaches a root never passes a key twice.
-/

namespace Ancestry

variable {α κ : Type} {link : α → Option κ} {find : κ → Option α}

/-- From an element the chain of parents reaches a root in a given number of steps. -/
inductive Climbs (link : α → Option κ) (find : κ → Option α) : ℕ → α → Prop
  | root {a : α} : link a = none → Climbs link find 0 a
  | step {n : ℕ} {a parent : α} {key : κ} :
      link a = some key → find key = some parent → Climbs link find n parent →
      Climbs link find (n + 1) a

/-- From an element the chain of parents reaches a root. -/
def ReachesRoot (link : α → Option κ) (find : κ → Option α) (a : α) : Prop :=
  ∃ n, Climbs link find n a

/-- An element with a parent is one step farther from the root. -/
theorem Climbs.parent {n : ℕ} {a parent : α} {key : κ} (h : Climbs link find n a)
    (hlink : link a = some key) (hfind : find key = some parent) :
  ∃ m, n = m + 1 ∧ Climbs link find m parent
  := by
  cases h with
  | root hnone => simp [hnone] at hlink
  | step hlink' hfind' hparent =>
    obtain rfl : key = _ := Option.some.inj (hlink.symm.trans hlink')
    obtain rfl : parent = _ := Option.some.inj (hfind.symm.trans hfind')
    exact ⟨_, rfl, hparent⟩

/-- The link of an element that reaches a root finds its parent. -/
theorem Climbs.finds {n : ℕ} {a : α} {key : κ} (h : Climbs link find n a)
    (hlink : link a = some key) :
  ∃ parent, find key = some parent
  := by
  cases h with
  | root hnone => simp [hnone] at hlink
  | step hlink' hfind' _ =>
    obtain rfl : key = _ := Option.some.inj (hlink.symm.trans hlink')
    exact ⟨_, hfind'⟩

/-- The number of steps to the root is unique. -/
theorem Climbs.unique {n m : ℕ} {a : α} (h : Climbs link find n a)
    (h' : Climbs link find m a) :
  n = m
  := by
  induction h generalizing m with
  | root hnone =>
    cases h' with
    | root _ => rfl
    | step hlink _ _ => simp [hnone] at hlink
  | step hlink hfind _ ih =>
    obtain ⟨k, rfl, hparent⟩ := h'.parent hlink hfind
    rw [ih hparent]

/-- A chain that reaches a root ends at one, which is the element itself or one that a key
finds. -/
theorem Climbs.exists_root {n : ℕ} {a : α} (h : Climbs link find n a) :
  ∃ top, link top = none ∧ (top = a ∨ ∃ key, find key = some top)
  := by
  induction h with
  | root hnone => exact ⟨_, hnone, .inl rfl⟩
  | step _ hfind _ ih =>
    obtain ⟨top, hnone, rfl | hfound⟩ := ih
    · exact ⟨_, hnone, .inr ⟨_, hfind⟩⟩
    · exact ⟨_, hnone, .inr hfound⟩

/-- Each key passed on the way finds an element that is at least so far from its root. -/
def Passed (link : α → Option κ) (find : κ → Option α) (n : ℕ) (passed : List κ) : Prop :=
  ∀ key ∈ passed, ∀ a m, find key = some a → Climbs link find m a → n ≤ m

theorem Passed.nil (n : ℕ) : Passed link find n [] := by simp [Passed]

/-- An element whose chain reaches a root has a parent that was not passed. -/
theorem Passed.not_mem {n : ℕ} {passed : List κ} (h : Passed link find (n + 1) passed)
    {key : κ} {parent : α} (hfind : find key = some parent)
    (hparent : Climbs link find n parent) :
  key ∉ passed
  := by
  intro hmem
  have hle := h key hmem parent n hfind hparent
  omega

/-- The parent is the last key passed. -/
theorem Passed.cons {n : ℕ} {passed : List κ} (h : Passed link find (n + 1) passed)
    {key : κ} {parent : α} (hfind : find key = some parent)
    (hparent : Climbs link find n parent) :
  Passed link find n (key :: passed)
  := by
  intro other hmem a m ha hclimbs
  rcases List.mem_cons.mp hmem with rfl | hmem
  · obtain rfl : parent = a := Option.some.inj (hfind.symm.trans ha)
    apply Nat.le_of_eq (hparent.unique hclimbs)
  · have hle := h other hmem a m ha hclimbs
    omega

end Ancestry
