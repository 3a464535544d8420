import Mathlib.Data.List.Basic
import Mathlib.Tactic.Ring

/-!
# Runs of a machine

A machine takes a step for every label. `run` takes the labels of a list one after another,
and `Along` says that a condition on a state and the label taken in it holds at every step
of a run; `AlongSince` asks for it from the last step of a kind on. An invariant that every step
meeting the condition keeps holds after every run that meets it throughout (`run_invariant`); a
reflexive and transitive relation that holds across every step holds across every run
(`run_relation`).
-/

namespace Transact

variable {σ ℓ : Type} (step : σ → ℓ → σ)

/-- The state after taking the labels of a list in order. -/
def run (s : σ) (labels : List ℓ) : σ :=
  labels.foldl step s

/-- The condition `P` holds of every label of a list in the state it is taken in. -/
def Along (P : σ → ℓ → Prop) : σ → List ℓ → Prop
  | _, [] => True
  | s, l :: labels => P s l ∧ Along P (step s l) labels

/-- The condition `P` holds at the steps of a run from the last one on that `starts` holds of, or
at every step when there is none. -/
def AlongSince (starts P : σ → ℓ → Prop) : σ → List ℓ → Prop
  | _, [] => True
  | s, l :: labels =>
      (Along step (fun s l => ¬ starts s l) (step s l) labels → P s l)
        ∧ AlongSince starts P (step s l) labels

/-- The number of steps of a run that meet a condition. -/
def steps (p : σ → ℓ → Bool) : σ → List ℓ → ℕ
  | _, [] => 0
  | s, l :: labels => (if p s l then 1 else 0) + steps p (step s l) labels

variable {step}

@[simp]
theorem run_nil (s : σ) :
  run step s [] = s
  := rfl

@[simp]
theorem run_cons (s : σ) (l : ℓ) (labels : List ℓ) :
  run step s (l :: labels) = run step (step s l) labels
  := rfl

theorem run_append (s : σ) (before after : List ℓ) :
  run step s (before ++ after) = run step (run step s before) after
  := List.foldl_append

theorem along_append {P : σ → ℓ → Prop} {s : σ} {before after : List ℓ} :
  Along step P s (before ++ after)
    ↔ Along step P s before ∧ Along step P (run step s before) after
  := by
  induction before generalizing s with
  | nil => simp [Along]
  | cons l before ih => simp [Along, ih, and_assoc]

/-- A step that `starts` holds of makes the steps before it irrelevant. -/
theorem alongSince_concat {starts P : σ → ℓ → Prop} {s : σ} {labels : List ℓ} {l : ℓ} :
  AlongSince step starts P s (labels ++ [l])
    ↔ P (run step s labels) l
      ∧ (starts (run step s labels) l ∨ AlongSince step starts P s labels)
  := by
  induction labels generalizing s with
  | nil => simp [AlongSince, Along]
  | cons l' labels ih =>
    simp only [List.cons_append, AlongSince, run_cons, ih, along_append, Along, and_true]
    by_cases hstarts : starts (run step (step s l') labels) l <;> simp [hstarts] <;> tauto

/-- A condition that holds of the labels of a list in every state holds along it. -/
theorem along_of_mem {P : σ → ℓ → Prop} {labels : List ℓ} (h : ∀ l ∈ labels, ∀ s, P s l)
    (s : σ) :
  Along step P s labels
  := by
  induction labels generalizing s with
  | nil => trivial
  | cons l labels ih =>
    constructor
    · apply h l List.mem_cons_self s
    · apply ih (fun l' hl' => h l' (List.mem_cons_of_mem l hl')) _

/-- A condition that is met with another one holds along every run that the other holds along. -/
theorem Along.imp {P Q : σ → ℓ → Prop} (hPQ : ∀ s l, P s l → Q s l) {s : σ} {labels : List ℓ}
    (h : Along step P s labels) :
  Along step Q s labels
  := by
  induction labels generalizing s with
  | nil => trivial
  | cons l labels ih => exact ⟨hPQ s l h.1, ih h.2⟩

/-- A condition that holds in every state holds along every run. -/
theorem along_of_forall {P : σ → ℓ → Prop} (h : ∀ s l, P s l) (s : σ) (labels : List ℓ) :
  Along step P s labels
  := along_of_mem (fun l _ s => h s l) s

/-- An invariant that every step meeting `P` keeps holds after every run meeting `P`. -/
theorem run_invariant (I : σ → Prop) (P : σ → ℓ → Prop)
    (keep : ∀ s l, I s → P s l → I (step s l)) {s : σ} {labels : List ℓ} (hs : I s)
    (h : Along step P s labels) :
  I (run step s labels)
  := by
  induction labels generalizing s with
  | nil => apply hs
  | cons l labels ih => apply ih (keep s l hs h.1) h.2

/-- A relation that holds across every step from an invariant state holds across every
run. -/
theorem run_relation (I : σ → Prop) (P : σ → ℓ → Prop) (R : σ → σ → Prop)
    (refl : ∀ s, R s s) (trans : ∀ s t u, R s t → R t u → R s u)
    (keep : ∀ s l, I s → P s l → I (step s l))
    (across : ∀ s l, I s → P s l → R s (step s l)) {s : σ} {labels : List ℓ} (hs : I s)
    (h : Along step P s labels) :
  R s (run step s labels)
  := by
  induction labels generalizing s with
  | nil => apply refl
  | cons l labels ih =>
    apply trans _ (step s l)
    · apply across s l hs h.1
    · apply ih (keep s l hs h.1) h.2

/-- A quantity that the steps meeting a condition increase by one, and the others leave alone,
counts them. -/
theorem run_counts (I : σ → Prop) (P : σ → ℓ → Prop) (p : σ → ℓ → Bool) (μ : σ → ℤ)
    (keep : ∀ s l, I s → I (step s l))
    (count : ∀ s l, I s → P s l → μ (step s l) = μ s + if p s l then 1 else 0) {s : σ}
    {labels : List ℓ} (hs : I s) (h : Along step P s labels) :
  μ (run step s labels) = μ s + steps step p s labels
  := by
  induction labels generalizing s with
  | nil => simp [steps]
  | cons l labels ih =>
    have hl := count s l hs h.1
    have hrest := ih (keep s l hs) h.2
    rw [run_cons, hrest, hl, steps]
    push_cast
    ring

/-- A measure that every label of a kind decreases, until it is zero, is zero after as many
of them. -/
theorem run_descends (I : σ → Prop) (Q : ℓ → Prop) (μ : σ → ℕ)
    (keep : ∀ s l, I s → Q l → I (step s l))
    (descend : ∀ s l, I s → Q l → μ (step s l) ≤ μ s - 1) {s : σ} {labels : List ℓ} (hs : I s)
    (hlabels : ∀ l ∈ labels, Q l) (hlength : μ s ≤ labels.length) :
  I (run step s labels) ∧ μ (run step s labels) = 0
  := by
  induction labels generalizing s with
  | nil => exact ⟨hs, Nat.le_zero.mp hlength⟩
  | cons l labels ih =>
    have hl := hlabels l List.mem_cons_self
    have hdescend := descend s l hs hl
    rw [List.length_cons] at hlength
    apply ih (keep s l hs hl)
    · exact fun l' hl' => hlabels l' (List.mem_cons_of_mem l hl')
    · omega

end Transact
