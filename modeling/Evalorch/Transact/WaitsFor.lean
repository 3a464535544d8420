import Evalorch.Transact.Script
import Mathlib.Data.Finite.Defs
import Mathlib.Data.Fintype.EquivFin
import Mathlib.Order.WellFounded

/-!
# Who waits for whom

A transaction that is about to lock a row waits for every transaction that has locked the row in
a conflicting mode. A cycle of the waits-for graph is a deadlock: none of its transactions can
go on. Without a cycle, as long as a transaction is unfinished, some unfinished transaction
waits for nobody (`exists_able`).
-/

namespace Transact.Concurrent

variable {σ κ μ τ : Type} {ν : κ → Type} {L : Locking σ κ μ ν} {spec : τ → Spec σ κ μ}
  {s : Concurrent σ κ μ τ}

/-- The transaction at `i` is about to lock a row that the one at `j` has locked. -/
def waitsFor (L : Locking σ κ μ ν) (s : Concurrent σ κ μ τ) (i j : ℕ) : Prop :=
  ∃ t u key mode next m, i ≠ j ∧ s.txns[i]? = some t ∧ s.txns[j]? = some u
    ∧ t.rest = .lock key mode next ∧ (key, m) ∈ u.held ∧ L.conflicts m mode = true

/-- The transaction is on a cycle of the waits-for graph. -/
def deadlocked (L : Locking σ κ μ ν) (s : Concurrent σ κ μ τ) (i : ℕ) : Prop :=
  Relation.TransGen (s.waitsFor L) i i

/-- The transaction has something left to do, or locks to release. -/
def unfinished (s : Concurrent σ κ μ τ) (i : ℕ) : Prop :=
  ∃ t, s.txns[i]? = some t ∧ (t.rest ≠ .rollback ∨ t.held ≠ [])

/-- The transaction is unfinished and waits for nobody. -/
def able (L : Locking σ κ μ ν) (s : Concurrent σ κ μ τ) (i : ℕ) : Prop :=
  s.unfinished i ∧ ∀ j, ¬ s.waitsFor L i j

/-- On a cycle, each transaction waits for another one of the cycle. -/
theorem deadlocked.waits {i : ℕ} (h : s.deadlocked L i) :
  ∃ j, s.waitsFor L i j ∧ s.deadlocked L j
  := by
  obtain ⟨j, hij, hji⟩ := Relation.TransGen.head'_iff.mp h
  use j, hij
  exact Relation.TransGen.trans_right hji (.single hij)

/-- On a cycle, each transaction is waited for by another one of the cycle. -/
theorem deadlocked.awaited {i : ℕ} (h : s.deadlocked L i) :
  ∃ j, s.waitsFor L j i ∧ s.deadlocked L j
  := by
  obtain ⟨j, hij, hji⟩ := Relation.TransGen.tail'_iff.mp h
  use j, hji
  exact Relation.TransGen.trans_left (.single hji) hij

/-- A transaction on a cycle holds a lock. -/
theorem deadlocked.held_ne_nil {i : ℕ} {t : Txn σ κ μ τ} (h : s.deadlocked L i)
    (ht : s.txns[i]? = some t) :
  t.held ≠ []
  := by
  obtain ⟨j, ⟨u, t', key, mode, next, m, -, -, ht', -, hm, -⟩, -⟩ := h.awaited
  rw [ht] at ht'
  cases ht'
  exact List.ne_nil_of_mem hm

/-- In a sound state a transaction waits only where its specification lets it, and for no row
that it has locked itself in that mode. -/
theorem Sound.waitsFor (hs : s.Sound L spec) {i j : ℕ} (h : s.waitsFor L i j) :
  ∃ t u key mode m, s.txns[i]? = some t ∧ s.txns[j]? = some u
    ∧ (spec t.tag).waits t.held key mode ∧ (key, mode) ∉ t.held
    ∧ (key, m) ∈ u.held ∧ L.conflicts m mode = true ∧ L.Compatible t.held u.held
  := by
  obtain ⟨t, u, key, mode, next, m, hij, ht, hu, hrest, hm, hconflicts⟩ := h
  have hcompatible := hs.apart i j t u hij ht hu
  have hmeets := hs.meets t (List.mem_of_getElem? ht)
  rw [hrest] at hmeets
  refine ⟨t, u, key, mode, m, ht, hu, hmeets.1, ?_, hm, hconflicts, hcompatible⟩
  intro hheld
  have hfalse := hcompatible key mode m hheld hm
  rw [L.symm, hconflicts] at hfalse
  cases hfalse

/-- A transaction that is waited for is unfinished. -/
theorem unfinished_of_waitsFor {i j : ℕ} (h : s.waitsFor L i j) :
  s.unfinished j
  := by
  obtain ⟨t, u, key, mode, next, m, -, -, hu, -, hm, -⟩ := h
  exact ⟨u, hu, .inr (List.ne_nil_of_mem hm)⟩

/-- Without a cycle, some unfinished transaction waits for nobody. -/
theorem exists_able (h : ∀ i, ¬ s.deadlocked L i) {i : ℕ} (hi : s.unfinished i) :
  ∃ j, s.able L j
  := by
  have hlt : ∀ {j}, s.unfinished j → j < s.txns.length := by
    rintro j ⟨t, ht, -⟩
    exact (List.getElem?_eq_some_iff.mp ht).1
  -- the transactions, each below those it waits for
  let after (j k : Fin s.txns.length) : Prop := Relation.TransGen (s.waitsFor L) k j
  have htrans : IsTrans _ after := ⟨fun _ _ _ hjk hkl => hkl.trans hjk⟩
  have hirrefl : Std.Irrefl after := ⟨fun j => h j⟩
  have hwf : WellFounded after := Finite.wellFounded_of_trans_of_irrefl after
  obtain ⟨j, hj, hmin⟩ := hwf.has_min {j | s.unfinished j} ⟨⟨i, hlt hi⟩, hi⟩
  use j, hj
  intro k hjk
  have hk := unfinished_of_waitsFor hjk
  exact hmin ⟨k, hlt hk⟩ hk (.single hjk)

/-- There is no cycle when along each edge of a cycle something increases. -/
theorem not_deadlocked {α : Type} [Preorder α] (rank : ℕ → α)
    (h : ∀ i j, s.waitsFor L i j → s.deadlocked L i → s.deadlocked L j → rank i < rank j) (i : ℕ) :
  ¬ s.deadlocked L i
  := by
  intro hcycle
  have hlt : ∀ j, Relation.TransGen (s.waitsFor L) i j → Relation.TransGen (s.waitsFor L) j i →
      rank i < rank j := by
    intro j hij
    induction hij with
    | single hedge => exact fun hji => h _ _ hedge hcycle (hji.trans (.single hedge))
    | tail hpath hedge ih =>
      intro hji
      have hback := Relation.TransGen.head hedge hji
      exact (ih hback).trans (h _ _ hedge (hback.trans hpath) (hji.trans (hpath.tail hedge)))
  exact lt_irrefl _ (hlt i hcycle hcycle)

end Transact.Concurrent
