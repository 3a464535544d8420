import Mathlib.Data.List.Basic
import Mathlib.Data.Prod.Basic

/-!
# Programs made of transactions

A `Program` runs one transaction after another on a state it shares with others. A
transaction reads the state and either commits a new one or raises and leaves it as it was;
what the program does next depends on the state the transaction saw. Between two
transactions anything may happen to the state, so a program is stepped one transaction at a
time, on whatever the state then is (`step`), or played against a schedule that fixes the
state each of its transactions sees (`play`).

`Always P p` says that every transaction of `p` is one that `P` allows. It is proved once along
the text of a program (`always_attempt`, `always_atomically`) and kept by `step`, so it holds
of every residual of a running program.
-/

namespace Transact

variable {σ τ ε α β : Type}

/-- A program over the state `σ` that ends with a value in `α` or an exception in `ε`. A
transaction carries the name `tag`, the state it commits, the rest of the program after it,
and the rest of the program after it failed with an exception from outside. -/
inductive Program (σ τ ε α : Type) : Type where
  | done (outcome : Except ε α) : Program σ τ ε α
  | transaction (tag : τ) (commit : σ → σ) (next : σ → Program σ τ ε α)
      (fault : ε → Program σ τ ε α) : Program σ τ ε α

/-- A sequence of two computations returns when both do. -/
theorem bind_eq_ok {x : Except ε α} {f : α → Except ε β} {b : β} :
  x >>= f = .ok b ↔ ∃ a, x = .ok a ∧ f a = .ok b
  := by cases x <;> simp [bind, Except.bind]

/-- A sequence of two computations raises when the first does, or else the second. -/
theorem bind_eq_error {x : Except ε α} {f : α → Except ε β} {e : ε} :
  x >>= f = .error e ↔ x = .error e ∨ ∃ a, x = .ok a ∧ f a = .error e
  := by cases x <;> simp [bind, Except.bind]

/-- The state after a transaction body: the committed one, or the old one when it raised. -/
def committed (result : Except ε (α × σ)) (s : σ) : σ :=
  match result with
  | .ok (_, s') => s'
  | .error _ => s

@[simp]
theorem committed_ok (a : α) (s s' : σ) :
  committed (.ok (a, s') : Except ε (α × σ)) s = s'
  := rfl

@[simp]
theorem committed_error (e : ε) (s : σ) :
  committed (.error e : Except ε (α × σ)) s = s
  := rfl

/-- What holds of the old state and of every state the body returns holds of the state after
it. -/
theorem committed_of (R : σ → Prop) {result : Except ε (α × σ)} {s : σ} (raised : R s)
    (returned : ∀ a s', result = .ok (a, s') → R s') :
  R (committed result s)
  := by
  cases result with
  | error e => apply raised
  | ok r => apply returned r.1 r.2 rfl

/-- What a transaction ends in: the exception it fails with from outside, or what its body
returns or raises. -/
def ended (failure : Option ε) (body : σ → Except ε (α × σ)) (s : σ) : Except ε (α × σ) :=
  match failure with
  | none => body s
  | some e => .error e

@[simp]
theorem ended_some (e : ε) (body : σ → Except ε (α × σ)) (s : σ) :
  ended (some e) body s = .error e
  := rfl

namespace Program

/-- One transaction, committed when its body returns and rolled back when it raises. -/
def atomically (tag : τ) (body : σ → Except ε (α × σ)) : Program σ τ ε α :=
  .transaction tag (fun s => committed (body s) s) (fun s => .done ((body s).map Prod.fst))
    (fun e => .done (.error e))

/-- Run `p`, then go on with what it returned or raised. -/
def attempt : Program σ τ ε α → (Except ε α → Program σ τ ε β) → Program σ τ ε β
  | .done outcome, k => k outcome
  | .transaction tag commit next fault, k =>
      .transaction tag commit (fun s => (next s).attempt k) (fun e => (fault e).attempt k)

/-- Run `p`, and the handler when `p` raises. -/
def handle (p : Program σ τ ε α) (handler : ε → Program σ τ ε α) : Program σ τ ε α :=
  p.attempt fun
    | .ok a => .done (.ok a)
    | .error e => handler e

/-- The name of the transaction a program is about to run. -/
def pending : Program σ τ ε α → Option τ
  | .done _ => none
  | .transaction tag _ _ _ => some tag

/-- What a program has ended in. -/
def result : Program σ τ ε α → Option (Except ε α)
  | .done outcome => some outcome
  | .transaction .. => none

/-- Run the next transaction on the state `s`, or let it fail with an exception. -/
def step (failure : Option ε) (s : σ) : Program σ τ ε α → Program σ τ ε α × σ
  | .done outcome => (.done outcome, s)
  | .transaction _ commit next fault =>
      match failure with
      | none => (next s, commit s)
      | some e => (fault e, s)

/-- Play a program against the states `sched 0`, `sched 1`, … that its transactions see: the
states before and after each transaction, and the outcome. -/
def play (sched : ℕ → σ) : Program σ τ ε α → List (σ × σ) × Except ε α
  | .done outcome => ([], outcome)
  | .transaction _ commit next _ =>
      let rest := (next (sched 0)).play fun k => sched (k + 1)
      ((sched 0, commit (sched 0)) :: rest.1, rest.2)

/-- Play a program when its transactions may also fail with exceptions from outside, which leaves
the state as it was. -/
def playWith (sched : ℕ → σ) (failures : ℕ → Option ε) :
    Program σ τ ε α → List (σ × σ) × Except ε α
  | .done outcome => ([], outcome)
  | .transaction _ commit next fault =>
      match failures 0 with
      | none =>
          let rest := (next (sched 0)).playWith (fun k => sched (k + 1)) fun k => failures (k + 1)
          ((sched 0, commit (sched 0)) :: rest.1, rest.2)
      | some e =>
          let rest := (fault e).playWith (fun k => sched (k + 1)) fun k => failures (k + 1)
          ((sched 0, sched 0) :: rest.1, rest.2)

/-! ### Playing a program -/

@[simp]
theorem attempt_done (outcome : Except ε α) (k : Except ε α → Program σ τ ε β) :
  (done outcome : Program σ τ ε α).attempt k = k outcome
  := rfl

@[simp]
theorem play_done (sched : ℕ → σ) (outcome : Except ε α) :
  (done outcome : Program σ τ ε α).play sched = ([], outcome)
  := rfl

@[simp]
theorem play_atomically (sched : ℕ → σ) (tag : τ) (body : σ → Except ε (α × σ)) :
  (atomically tag body).play sched
    = ([(sched 0, committed (body (sched 0)) (sched 0))], (body (sched 0)).map Prod.fst)
  := rfl

/-- A program is played first, and what follows it on the states after those it saw. -/
theorem play_attempt (sched : ℕ → σ) (p : Program σ τ ε α) (k : Except ε α → Program σ τ ε β) :
  (p.attempt k).play sched
    = ((p.play sched).1
        ++ ((k (p.play sched).2).play fun i => sched (i + (p.play sched).1.length)).1,
      ((k (p.play sched).2).play fun i => sched (i + (p.play sched).1.length)).2)
  := by
  induction p generalizing sched with
  | done outcome => rfl
  | transaction tag commit next fault ihnext ihfault =>
    simp only [attempt, play, ihnext, List.length_cons, List.cons_append, ← Nat.add_assoc]

/-- When a program returns, its handler is not played. -/
theorem play_handle_of_ok {sched : ℕ → σ} {p : Program σ τ ε α} {handler : ε → Program σ τ ε α}
    {a : α} (h : (p.play sched).2 = .ok a) :
  (p.handle handler).play sched = p.play sched
  := by
  rw [handle, play_attempt, h]
  simp only [play_done, List.append_nil]
  rw [← h]

/-- When a program raises, its handler is played on the states after those it saw. -/
theorem play_handle_of_error {sched : ℕ → σ} {p : Program σ τ ε α}
    {handler : ε → Program σ τ ε α} {e : ε} (h : (p.play sched).2 = .error e) :
  ((p.handle handler).play sched).2
    = ((handler e).play fun i => sched (i + (p.play sched).1.length)).2
  := by rw [handle, play_attempt, h]

@[simp]
theorem playWith_done (sched : ℕ → σ) (failures : ℕ → Option ε) (outcome : Except ε α) :
  (done outcome : Program σ τ ε α).playWith sched failures = ([], outcome)
  := rfl

/-- A transaction is played first, and what follows it on the states and failures after it. -/
theorem playWith_atomically_attempt (sched : ℕ → σ) (failures : ℕ → Option ε) (tag : τ)
    (body : σ → Except ε (α × σ)) (k : Except ε α → Program σ τ ε β) :
  ((atomically tag body).attempt k).playWith sched failures
    = ((sched 0, committed (ended (failures 0) body (sched 0)) (sched 0))
        :: ((k ((ended (failures 0) body (sched 0)).map Prod.fst)).playWith
            (fun i => sched (i + 1)) fun i => failures (i + 1)).1,
      ((k ((ended (failures 0) body (sched 0)).map Prod.fst)).playWith
        (fun i => sched (i + 1)) fun i => failures (i + 1)).2)
  := by
  simp only [atomically, attempt, playWith]
  cases failures 0 <;> rfl

/-! ### What a program may commit -/

/-- Every transaction of the program is one that `P` allows: its name, and the state it
commits for every state it may meet. -/
def Always (P : τ → (σ → σ) → Prop) : Program σ τ ε α → Prop
  | .done _ => True
  | .transaction tag commit next fault =>
      P tag commit ∧ (∀ s, (next s).Always P) ∧ ∀ e, (fault e).Always P

/-- A single transaction commits what its body returns. -/
theorem always_atomically {P : τ → (σ → σ) → Prop} {tag : τ} {body : σ → Except ε (α × σ)}
    (h : P tag fun s => committed (body s) s) :
  (atomically tag body).Always P
  := ⟨h, fun _ => trivial, fun _ => trivial⟩

/-- The transactions of a program and of what follows it. -/
theorem always_attempt {P : τ → (σ → σ) → Prop} {p : Program σ τ ε α}
    {k : Except ε α → Program σ τ ε β} (hp : p.Always P) (hk : ∀ r, (k r).Always P) :
  (p.attempt k).Always P
  := by
  induction p with
  | done outcome => apply hk
  | transaction tag commit next fault ihnext ihfault =>
    obtain ⟨hcommit, hnext, hfault⟩ := hp
    exact ⟨hcommit, fun s => ihnext s (hnext s), fun e => ihfault e (hfault e)⟩

/-- The transactions of a program and of its handler. -/
theorem always_handle {P : τ → (σ → σ) → Prop} {p : Program σ τ ε α}
    {handler : ε → Program σ τ ε α} (hp : p.Always P) (hhandler : ∀ e, (handler e).Always P) :
  (p.handle handler).Always P
  := by
  apply always_attempt hp
  intro r
  cases r with
  | ok a => trivial
  | error e => apply hhandler

/-- What is left of a program after a step has no other transactions. -/
theorem always_step {P : τ → (σ → σ) → Prop} {p : Program σ τ ε α} (hp : p.Always P)
    (failure : Option ε) (s : σ) :
  (p.step failure s).1.Always P
  := by
  cases p with
  | done outcome => trivial
  | transaction tag commit next fault =>
    obtain ⟨-, hnext, hfault⟩ := hp
    cases failure with
    | none => apply hnext
    | some e => apply hfault

/-- A step leaves the state as it was, or commits the pending transaction. -/
theorem step_always {P : τ → (σ → σ) → Prop} {p : Program σ τ ε α} (hp : p.Always P)
    (failure : Option ε) (s : σ) :
  ((p.step failure s).2 = s ∧ (p.pending = none ∨ failure ≠ none))
    ∨ ∃ tag commit, p.pending = some tag ∧ failure = none ∧ P tag commit
      ∧ (p.step failure s).2 = commit s
  := by
  cases p with
  | done outcome => exact .inl ⟨rfl, .inl rfl⟩
  | transaction tag commit next fault =>
    cases failure with
    | some e => exact .inl ⟨rfl, .inr (by simp)⟩
    | none => exact .inr ⟨tag, commit, rfl, rfl, hp.1, rfl⟩

end Program

end Transact
