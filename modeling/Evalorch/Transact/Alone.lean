import Evalorch.Transact.Script

/-!
# A transaction alone

`Script.alone` is what a transaction commits when nobody else holds a lock or commits anything
while it runs. The steps of such a transaction among others lead there (`Concurrent.run_alone`).
-/

namespace Transact

variable {σ κ μ τ : Type} {ν : κ → Type}

/-- The state that a transaction commits when it runs alone, unless it gives up. -/
def Script.alone : Script σ κ μ → σ → Option σ
  | .commit, s => some s
  | .rollback, _ => none
  | .read next, s => (next s).alone s
  | .lock _ _ next, s => next.alone s
  | .tryLock _ _ next, s => (next true).alone s
  | .write _ effect next, s => next.alone (effect s)

namespace Concurrent

variable [DecidableEq κ] {L : Locking σ κ μ ν} {text : τ → Script σ κ μ}

theorem step_tryLock {s : Concurrent σ κ μ τ} {i : ℕ} (hi : i < s.txns.length) {tag : τ}
    {held : List (κ × μ)} {writes : List (κ × (σ → σ))} {key : κ} {mode : μ}
    (next : Bool → Script σ κ μ) (hfree : s.blocked L i key mode = false) :
  (s.set i ⟨tag, held, writes, .tryLock key mode next⟩).step L text (.act i)
    = s.set i ⟨tag, (key, mode) :: held, writes, next true⟩
  := by
  rw [step_set hi]
  simp [act, blocked_set, hfree]

/-- A transaction that is over stays as it is. -/
theorem run_over (text : τ → Script σ κ μ) {s : Concurrent σ κ μ τ} {i : ℕ}
    (hi : i < s.txns.length) (tag : τ) (m : ℕ) :
  run (step L text) (s.set i (.begin tag .rollback)) (List.replicate m (.act i))
    = s.set i (.begin tag .rollback)
  := by
  induction m with
  | zero => rfl
  | succ m ih =>
    have hact : (s.set i (.begin tag .rollback)).step L text (.act i)
        = s.set i (.begin tag .rollback) := by
      rw [step_set hi]
      simp [act, Txn.begin, Txn.ended]
    rw [List.replicate_succ, run_cons, hact, ih]

/-- A transaction whose locks are all free comes to its end, commits what it commits alone, and
does nothing after that. -/
theorem run_alone (text : τ → Script σ κ μ) {s : Concurrent σ κ μ τ} {i : ℕ}
    (hi : i < s.txns.length) (hfree : ∀ key mode, s.blocked L i key mode = false) (tag : τ)
    (rest : Script σ κ μ) (held : List (κ × μ)) (writes : List (κ × (σ → σ))) :
  ∃ n, ∀ m, n ≤ m →
    run (step L text) (s.set i ⟨tag, held, writes, rest⟩) (List.replicate m (.act i))
      = { s.set i (.begin tag .rollback) with
          committed := (rest.alone (written writes s.committed)).getD s.committed }
  := by
  -- a turn that leads to `next`, from which it takes `n` turns
  have turn : ∀ {t : Txn σ κ μ τ} {held writes n} {next : Script σ κ μ} {s' : Concurrent σ κ μ τ},
      (s.set i t).step L text (.act i) = s.set i ⟨tag, held, writes, next⟩ →
      (∀ m, n ≤ m → run (step L text) (s.set i ⟨tag, held, writes, next⟩)
        (List.replicate m (.act i)) = s') →
      ∃ n, ∀ m, n ≤ m → run (step L text) (s.set i t) (List.replicate m (.act i)) = s' := by
    intro t held writes n next s' hstep hn
    use n + 1
    intro m hm
    obtain ⟨m, rfl⟩ := Nat.exists_eq_add_of_le' hm
    rw [← Nat.add_assoc, List.replicate_succ, run_cons, hstep, hn _ (by omega)]
  induction rest generalizing held writes with
  | commit =>
    use 1
    intro m hm
    obtain ⟨m, rfl⟩ := Nat.exists_eq_add_of_le' hm
    have hover := run_over (L := L) text (s := { s with committed := written writes s.committed })
      hi tag m
    rw [List.replicate_succ, run_cons, step_set hi]
    simpa [act, Script.alone, set, Txn.ended, Txn.begin] using hover
  | rollback =>
    use 1
    intro m hm
    obtain ⟨m, rfl⟩ := Nat.exists_eq_add_of_le' hm
    have hover := run_over (L := L) text hi tag m
    rw [List.replicate_succ, run_cons, step_set hi]
    simpa [act, Script.alone, set, Txn.ended, Txn.begin] using hover
  | read next ih =>
    obtain ⟨n, hn⟩ := ih (written writes s.committed) held writes
    exact turn (step_read hi next) hn
  | lock key mode next ih =>
    obtain ⟨n, hn⟩ := ih ((key, mode) :: held) writes
    exact turn (step_lock hi next (hfree key mode)) hn
  | tryLock key mode next ih =>
    obtain ⟨n, hn⟩ := ih true ((key, mode) :: held) writes
    exact turn (step_tryLock hi next (hfree key mode)) hn
  | write key effect next ih =>
    obtain ⟨n, hn⟩ := ih held ((key, effect) :: writes)
    exact turn (step_write hi effect next) hn

/-- From the start, a transaction alone comes to its end, holds no locks there, and has committed
what it commits alone. -/
theorem run_start (L : Locking σ κ μ ν) (text : τ → Script σ κ μ) (s : σ) (tag : τ) :
  ∃ n, ∀ m, n ≤ m →
    run (step L text) (initial s) (.start tag :: List.replicate m (.act 0))
      = { committed := ((text tag).alone s).getD s, txns := [.begin tag .rollback] }
  := by
  let s₁ : Concurrent σ κ μ τ := ⟨s, [.begin tag (text tag)]⟩
  have hfree : ∀ key mode, s₁.blocked L 0 key mode = false := by
    simp [s₁, blocked]
  obtain ⟨n, hn⟩ := run_alone text (Nat.one_pos : 0 < s₁.txns.length) hfree tag (text tag) [] []
  use n
  intro m hm
  have hstart : (initial s).step L text (.start tag) = s₁.set 0 ⟨tag, [], [], text tag⟩ := rfl
  rw [run_cons, hstart, hn m hm]
  rfl

/-- A transaction takes its first look, another one runs from its start to its end, and then the
first one goes on with what it has seen. -/
theorem run_overtaken (L : Locking σ κ μ ν) (text : τ → Script σ κ μ) (s : σ) {tag : τ} (tag' : τ)
    {next : σ → Script σ κ μ} (htext : text tag = .read next) :
  ∃ n n', (run (step L text) (initial s)
      ([.start tag, .act 0, .start tag'] ++ (List.replicate n (.act 1)
        ++ List.replicate n' (.act 0)))).committed
    = ((next s).alone (((text tag').alone s).getD s)).getD (((text tag').alone s).getD s)
  := by
  let s₁ : Concurrent σ κ μ τ := ⟨s, [⟨tag, [], [], next s⟩, .begin tag' (text tag')]⟩
  have hs₁ : run (step L text) (initial s) [.start tag, .act 0, .start tag'] = s₁ := by
    have hstart : (initial s).step L text (.start tag) = ⟨s, [.begin tag (.read next)]⟩ := by
      rw [← htext]
      rfl
    rw [run_cons, hstart]
    rfl
  have hfree : ∀ key mode, s₁.blocked L 1 key mode = false := by simp [s₁, blocked, Txn.begin]
  obtain ⟨n, hn⟩ := run_alone text (by simp [s₁] : 1 < s₁.txns.length) hfree tag' (text tag') [] []
  set s₂ : Concurrent σ κ μ τ := { s₁.set 1 (.begin tag' .rollback) with
    committed := ((text tag').alone (written [] s₁.committed)).getD s₁.committed }
  have hfree' : ∀ key mode, s₂.blocked L 0 key mode = false := by
    simp [s₂, s₁, blocked, set, Txn.begin]
  have hlength : 0 < s₂.txns.length := by simp [s₂, s₁, set]
  obtain ⟨n', hn'⟩ := run_alone text hlength hfree' tag (next s) [] []
  use n, n'
  rw [run_append, run_append, hs₁]
  have hself : s₁ = s₁.set 1 ⟨tag', [], [], text tag'⟩ := rfl
  have hself' : s₂ = s₂.set 0 ⟨tag, [], [], next s⟩ := rfl
  conv_lhs => rw [hself, hn n le_rfl, hself', hn' n' le_rfl]
  rfl

end Concurrent

end Transact
