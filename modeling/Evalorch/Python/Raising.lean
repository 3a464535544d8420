import Mathlib.Data.List.Basic
import Mathlib.Data.List.Forall2

/-!
# Computations that may raise

`Returns x` says that `x` does not raise, and `RaisesOnly P x` that `P` holds of what it raises.
A sequence, a map over a list and a loop return when each of their parts does, and raise what one
of their parts raises.
-/

namespace Python

variable {ε α β γ : Type}

/-- The computation does not raise. -/
def Returns (x : Except ε α) : Prop :=
  ∃ a, x = .ok a

@[simp]
theorem returns_ok (a : α) :
  Returns (.ok a : Except ε α)
  := ⟨a, rfl⟩

@[simp]
theorem not_returns_error (e : ε) :
  ¬ Returns (.error e : Except ε α)
  := by
  rintro ⟨a, h⟩
  cases h

@[simp]
theorem returns_map {x : Except ε α} {f : α → β} :
  Returns (x.map f) ↔ Returns x
  := by cases x <;> simp [Except.map]

/-- A sequence whose first part returns goes on with the second. -/
theorem ok_bind (a : α) (f : α → Except ε β) :
  (.ok a >>= f : Except ε β) = f a
  := rfl

/-- A sequence returns when its first part does, and then its second. -/
theorem returns_bind {x : Except ε α} {f : α → Except ε β} :
  Returns (x >>= f) ↔ ∃ a, x = .ok a ∧ Returns (f a)
  := by cases x <;> simp [bind, Except.bind]

/-- A map over a list returns when it returns at each element. -/
theorem returns_mapM {f : α → Except ε β} {l : List α} :
  Returns (l.mapM f) ↔ ∀ x ∈ l, Returns (f x)
  := by
  induction l with
  | nil => simp [pure, Except.pure]
  | cons x l ih =>
    rw [List.mapM_cons, List.forall_mem_cons, ← ih]
    cases f x with
    | error e => simp [bind, Except.bind]
    | ok y => cases l.mapM f <;> simp [bind, Except.bind, pure, Except.pure]

/-- A map over a list that returns has the elements that it returns. -/
theorem forall₂_of_mapM {f : α → Except ε β} {l : List α} {l' : List β} (h : l.mapM f = .ok l') :
  List.Forall₂ (fun x y => f x = .ok y) l l'
  := by
  induction l generalizing l' with
  | nil =>
    cases h
    apply List.Forall₂.nil
  | cons x l ih =>
    rw [List.mapM_cons] at h
    cases hx : f x with
    | error e => simp [hx, bind, Except.bind] at h
    | ok y =>
      cases hl : l.mapM f with
      | error e => simp [hx, hl, bind, Except.bind] at h
      | ok ys =>
        simp only [hx, hl, bind, Except.bind, pure, Except.pure, Except.ok.injEq] at h
        subst h
        exact .cons hx (ih hl)

/-- Each element of a list that is related to another has a counterpart in that one. -/
theorem exists_rel_of_forall₂ {R : α → β → Prop} {xs : List α} {ys : List β}
    (h : List.Forall₂ R xs ys) {y : β} (hy : y ∈ ys) :
  ∃ x ∈ xs, R x y
  := by
  induction h with
  | nil => cases hy
  | cons hxy _ ih =>
    rcases List.mem_cons.mp hy with rfl | hy
    · exact ⟨_, List.mem_cons_self, hxy⟩
    · obtain ⟨x, hx, hxy'⟩ := ih hy
      exact ⟨x, List.mem_cons_of_mem _ hx, hxy'⟩

/-- What a map over a list returns is what it returns at an element. -/
theorem exists_of_mapM {f : α → Except ε β} {l : List α} {l' : List β} (h : l.mapM f = .ok l')
    {y : β} (hy : y ∈ l') :
  ∃ x ∈ l, f x = .ok y
  := exists_rel_of_forall₂ (forall₂_of_mapM h) hy

/-- A map over a list that returns `g x` at every `x` returns the list of these. -/
theorem mapM_eq_ok_map {f : α → Except ε β} {g : α → β} {l : List α}
    (h : ∀ x ∈ l, f x = .ok (g x)) :
  l.mapM f = .ok (l.map g)
  := by
  induction l with
  | nil => rfl
  | cons x l ih =>
    obtain ⟨hx, hl⟩ := List.forall_mem_cons.mp h
    rw [List.mapM_cons, hx, ih hl]
    rfl

/-- What is done to every result of a map over a list. -/
theorem map_mapM (g : β → γ) (f : α → Except ε β) (l : List α) :
  (l.mapM f).map (List.map g) = l.mapM fun x => (f x).map g
  := by
  induction l with
  | nil => rfl
  | cons x l ih =>
    rw [List.mapM_cons, List.mapM_cons, ← ih]
    cases f x with
    | error e => rfl
    | ok y => cases l.mapM f <;> rfl

/-! ### What is raised -/

variable {P Q : ε → Prop}

/-- Every exception of the computation satisfies `P`. -/
def RaisesOnly (P : ε → Prop) (x : Except ε α) : Prop :=
  ∀ e, x = .error e → P e

@[simp]
theorem raisesOnly_ok (P : ε → Prop) (a : α) :
  RaisesOnly P (.ok a)
  := by simp [RaisesOnly]

@[simp]
theorem raisesOnly_error {e : ε} :
  RaisesOnly P (.error e : Except ε α) ↔ P e
  := by simp [RaisesOnly]

theorem RaisesOnly.imp {x : Except ε α} (h : ∀ e, P e → Q e) (hx : RaisesOnly P x) :
  RaisesOnly Q x
  := by
  intro e he
  apply h
  apply hx e he

/-- A sequence raises what its first part raises, or else its second. -/
theorem raisesOnly_bind {x : Except ε α} {f : α → Except ε β} :
  RaisesOnly P (x >>= f) ↔ RaisesOnly P x ∧ ∀ a, x = .ok a → RaisesOnly P (f a)
  := by cases x <;> simp [bind, Except.bind]

/-- A map over a list raises what it raises at an element. -/
theorem raisesOnly_mapM {f : α → Except ε β} {l : List α} (h : ∀ x ∈ l, RaisesOnly P (f x)) :
  RaisesOnly P (l.mapM f)
  := by
  induction l with
  | nil => apply raisesOnly_ok
  | cons x l ih =>
    obtain ⟨hx, hl⟩ := List.forall_mem_cons.mp h
    rw [List.mapM_cons, raisesOnly_bind]
    use hx
    intro y _
    rw [raisesOnly_bind]
    use ih hl
    intro ys _
    apply raisesOnly_ok

end Python
