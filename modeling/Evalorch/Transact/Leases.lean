import Evalorch.Transact.Machine
import Mathlib.Data.List.Induction

/-!
# Leased items

A queue hands items of work to workers. An item waits, or is leased to one worker, or is closed;
`Item.Moves` lists how it may go from one to another. A machine that moves an item only so never
takes it from one worker to another: between the two leases the item waits (`waits_between`).
-/

namespace Transact

/-- Where an item of work is. -/
inductive Item (ω : Type) where
  | waiting
  | leased (worker : ω)
  | closed
deriving DecidableEq

namespace Item

variable {ω : Type}

/-- What may happen to an item. -/
inductive Moves : Item ω → Item ω → Prop where
  | stay (i : Item ω) : Moves i i
  | lease (worker : ω) : Moves .waiting (.leased worker)
  | release (worker : ω) : Moves (.leased worker) .waiting
  | close (worker : ω) : Moves (.leased worker) .closed
  | withdraw : Moves .waiting .closed
  | reopen : Moves .closed .waiting

/-- The item is leased. -/
def isLeased : Item ω → Bool
  | .leased _ => true
  | _ => false

/-- An item that is leased was leased to the same worker, or waited. -/
theorem Moves.to_leased {i : Item ω} {worker : ω} (h : Moves i (.leased worker)) :
  i = .leased worker ∨ i = .waiting
  := by
  cases h with
  | stay => exact .inl rfl
  | lease => exact .inr rfl

end Item

/-- Whether a condition holds along a run can be decided by taking the run. -/
def decideAlong {σ ℓ : Type} (step : σ → ℓ → σ) (P : σ → ℓ → Prop) [∀ s l, Decidable (P s l)] :
    ∀ (s : σ) (labels : List ℓ), Decidable (Along step P s labels)
  | _, [] => .isTrue trivial
  | s, l :: labels => @instDecidableAnd _ _ _ (decideAlong step P (step s l) labels)

instance {σ ℓ : Type} {step : σ → ℓ → σ} {P : σ → ℓ → Prop} [∀ s l, Decidable (P s l)] {s : σ}
    {labels : List ℓ} : Decidable (Along step P s labels) := decideAlong step P s labels

section Run

variable {σ ℓ ω : Type} {step : σ → ℓ → σ} {I : σ → Prop} {P : σ → ℓ → Prop}

/-- An item goes from one worker to another only after it has waited. -/
theorem waits_between (item : σ → Item ω) (keep : ∀ s l, I s → P s l → I (step s l))
    (moves : ∀ s l, I s → P s l → (item s).Moves (item (step s l))) {s : σ} {labels : List ℓ}
    (hs : I s) (h : Along step P s labels) {worker worker' : ω} (hne : worker ≠ worker')
    (hstart : item s = .leased worker) (hend : item (run step s labels) = .leased worker') :
  ∃ before after, labels = before ++ after ∧ item (run step s before) = .waiting
  := by
  -- from the end of the run backwards, as long as the last worker has the item
  induction labels using List.reverseRecOn with
  | nil =>
    rw [run_nil, hstart] at hend
    cases hend
    exact absurd rfl hne
  | append_singleton labels l ih =>
    obtain ⟨hbefore, hlast, -⟩ := along_append.mp h
    have hI : I (run step s labels) := run_invariant I P keep hs hbefore
    have hmove := moves _ l hI hlast
    rw [run_append, run_cons, run_nil] at hend
    rw [hend] at hmove
    obtain hsame | hwaits := hmove.to_leased
    · obtain ⟨before, after, rfl, hwaits⟩ := ih hbefore hsame
      exact ⟨before, after ++ [l], by simp, hwaits⟩
    · exact ⟨labels, [l], rfl, hwaits⟩

/-- The step leases the item. -/
def leases (step : σ → ℓ → σ) (item : σ → Item ω) (s : σ) (l : ℓ) : Bool :=
  !(item s).isLeased && (item (step s l)).isLeased

end Run

end Transact
