import Evalorch.Transact.WaitsFor
import Mathlib.Data.DFinsupp.WellFounded
import Mathlib.SetTheory.Ordinal.Rank

/-!
# Bringing transactions to their end

Every text comes to an end, however its looks turn out (`Script.wellFounded_follows`), and an
instruction of a transaction that waits for nobody makes it shorter (`able.left_lt`). So where no
cycle of the waits-for graph is ever reached, all transactions under way can be brought to their
end (`exists_completion`).
-/

namespace Transact

variable {σ κ μ τ : Type} {ν : κ → Type}

/-- What is left of a text after its first instruction. -/
inductive Script.Follows : Script σ κ μ → Script σ κ μ → Prop where
  | read (next : σ → Script σ κ μ) (s : σ) : Follows (next s) (.read next)
  | lock (key : κ) (mode : μ) (next : Script σ κ μ) : Follows next (.lock key mode next)
  | tryLock (key : κ) (mode : μ) (next : Bool → Script σ κ μ) (got : Bool) :
      Follows (next got) (.tryLock key mode next)
  | write (key : κ) (effect : σ → σ) (next : Script σ κ μ) :
      Follows next (.write key effect next)

theorem Script.wellFounded_follows :
  WellFounded (Script.Follows : Script σ κ μ → Script σ κ μ → Prop)
  := by
  constructor
  intro text
  induction text with
  | commit => exact ⟨_, fun _ h => nomatch h⟩
  | rollback => exact ⟨_, fun _ h => nomatch h⟩
  | read next ih =>
    constructor
    rintro _ ⟨_, s⟩
    apply ih
  | lock key mode next ih =>
    constructor
    rintro _ ⟨_⟩
    apply ih
  | tryLock key mode next ih =>
    constructor
    rintro _ (_ | _ | _ | _)
    apply ih
  | write key effect next ih =>
    constructor
    rintro _ ⟨_⟩
    apply ih

theorem Script.not_follows_rollback (text : Script σ κ μ) :
  ¬ Script.Follows text .rollback
  := nofun

instance : IsWellFounded (Script σ κ μ) Script.Follows := ⟨Script.wellFounded_follows⟩

/-- What a transaction has left to do: nothing when it is over. -/
noncomputable def Txn.left (t : Txn σ κ μ τ) : Ordinal :=
  open Classical in
  if t.rest = .rollback ∧ t.held = [] then 0
  else Order.succ (IsWellFounded.rank Script.Follows t.rest)

theorem Txn.left_ended (t : Txn σ κ μ τ) :
  t.ended.left = 0
  := if_pos ⟨rfl, rfl⟩

theorem Txn.left_le (t : Txn σ κ μ τ) :
  t.left ≤ Order.succ (IsWellFounded.rank Script.Follows t.rest)
  := by
  by_cases hover : t.rest = .rollback ∧ t.held = []
  · rw [show t.left = 0 from if_pos hover]
    apply zero_le
  · exact (if_neg hover).le

/-- A transaction whose text has got shorter has less left to do. -/
theorem Txn.left_lt {t t' : Txn σ κ μ τ} (h : Script.Follows t'.rest t.rest) :
  t'.left < t.left
  := by
  have hrank := IsWellFounded.rank_lt_of_rel h
  have hrest : ¬ (t.rest = .rollback ∧ t.held = []) := by
    rintro ⟨hrest, -⟩
    rw [hrest] at h
    exact Script.not_follows_rollback _ h
  rw [show t.left = _ from if_neg hrest]
  exact t'.left_le.trans_lt (Order.succ_lt_succ hrank)

namespace Concurrent

variable {L : Locking σ κ μ ν} {text : τ → Script σ κ μ} {s : Concurrent σ κ μ τ}

/-- What the transaction at `i` has left to do. -/
noncomputable def left (s : Concurrent σ κ μ τ) (i : ℕ) : Ordinal :=
  (s.txns[i]?).elim 0 Txn.left

theorem left_set {i j : ℕ} {t t' : Txn σ κ μ τ} (ht : s.txns[i]? = some t) :
  (s.set i t').left j = if j = i then t'.left else s.left j
  := by
  unfold left
  rw [getElem?_set ht]
  split <;> rfl

variable [DecidableEq κ]

/-- The next instruction of a transaction that waits for nobody leaves it less to do, and the
others as much. -/
theorem able.left_lt {i : ℕ} (h : s.able L i) (text : τ → Script σ κ μ) :
  (s.step L text (.act i)).txns.length = s.txns.length
    ∧ (s.step L text (.act i)).left i < s.left i
    ∧ ∀ j ≠ i, (s.step L text (.act i)).left j = s.left j
  := by
  obtain ⟨⟨t, ht, hunfinished⟩, hfree⟩ := h
  suffices hset : ∃ t', (s.step L text (.act i)).txns = (s.set i t').txns ∧ t'.left < t.left by
    obtain ⟨t', htxns, hlt⟩ := hset
    have hleft : ∀ j, (s.step L text (.act i)).left j = (s.set i t').left j := fun j => by
      unfold left
      rw [htxns]
    refine ⟨by simp [htxns, set], ?_, ?_⟩
    · rw [hleft, left_set ht, if_pos rfl]
      unfold left
      rw [ht]
      exact hlt
    · intro j hj
      rw [hleft, left_set ht, if_neg hj]
  have hended : t.ended.left < t.left := by
    rw [t.left_ended]
    unfold Txn.left
    rw [if_neg (by tauto)]
    exact zero_le.trans_lt (Order.lt_succ _)
  have hblocked : ∀ key mode next, t.rest = .lock key mode next →
      s.blocked L i key mode = false := by
    intro key mode next hrest
    by_contra hblocked
    obtain ⟨j, u, m, hji, hu, hm, hconflicts⟩ := blocked_iff.mp (Bool.not_eq_false _ ▸ hblocked)
    exact hfree j ⟨t, u, key, mode, next, m, hji.symm, ht, hu, hrest, hm, hconflicts⟩
  have hstep : s.step L text (.act i) = s.act L i t := by simp only [step, ht]
  rw [hstep]
  cases hrest : t.rest with
  | commit => exact ⟨t.ended, by simp only [act, hrest], hended⟩
  | rollback => exact ⟨t.ended, by simp only [act, hrest], hended⟩
  | read next =>
    refine ⟨_, by simp only [act, hrest]; rfl, Txn.left_lt ?_⟩
    rw [hrest]
    exact .read next _
  | write key effect next =>
    refine ⟨_, by simp only [act, hrest]; rfl, Txn.left_lt ?_⟩
    rw [hrest]
    exact .write key effect next
  | lock key mode next =>
    refine ⟨_, by simp only [act, hrest, hblocked key mode next hrest]; rfl, Txn.left_lt ?_⟩
    rw [hrest]
    exact .lock key mode next
  | tryLock key mode next =>
    cases hgot : s.blocked L i key mode
    · refine ⟨_, by simp only [act, hrest, hgot]; rfl, Txn.left_lt ?_⟩
      rw [hrest]
      exact .tryLock key mode next true
    · refine ⟨_, by simp only [act, hrest, hgot]; rfl, Txn.left_lt ?_⟩
      rw [hrest]
      exact .tryLock key mode next false

/-- Where no cycle is reached, all transactions can be brought to their end. -/
theorem exists_completion (L : Locking σ κ μ ν) (text : τ → Script σ κ μ)
    {s : Concurrent σ κ μ τ}
    (h : ∀ turns : List (Turn τ), (∀ l ∈ turns, ∃ i, l = .act i) →
      ∀ i, ¬ (run (step L text) s turns).deadlocked L i) :
  ∃ turns : List (Turn τ), (∀ l ∈ turns, ∃ i, l = .act i)
    ∧ ∀ i, ¬ (run (step L text) s turns).unfinished i
  := by
  obtain ⟨n, hn⟩ : ∃ n, s.txns.length = n := ⟨_, rfl⟩
  obtain ⟨f, hf⟩ : ∃ f : Fin n → Ordinal, (fun i : Fin n => s.left i) = f := ⟨_, rfl⟩
  induction f using WellFoundedLT.induction generalizing s with
  | ind f ih =>
    by_cases hdone : ∃ i, s.unfinished i
    case neg => exact ⟨[], by simp, fun i hi => hdone ⟨i, hi⟩⟩
    obtain ⟨i, hi⟩ := hdone
    obtain ⟨j, hj⟩ := exists_able (h [] (by simp)) hi
    obtain ⟨hlength, hlt, hsame⟩ := hj.left_lt text
    have hjn : j < n := by
      obtain ⟨⟨t, ht, -⟩, -⟩ := hj
      rw [← hn]
      exact (List.getElem?_eq_some_iff.mp ht).1
    obtain ⟨turns, hacts, hturns⟩ := ih (fun k : Fin n => (s.step L text (.act j)).left k) (by
      rw [← hf, Pi.lt_def]
      constructor
      · intro k
        by_cases hk : (k : ℕ) = j
        · simp only [hk]
          exact hlt.le
        · exact (hsame k hk).le
      · exact ⟨⟨j, hjn⟩, hlt⟩) (s := s.step L text (.act j))
      (fun turns hacts => h (.act j :: turns) (by simpa using hacts)) (hlength.trans hn) rfl
    exact ⟨.act j :: turns, by simpa using hacts, hturns⟩

end Concurrent

end Transact
