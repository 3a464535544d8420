import Evalorch.Transact.Machine
import Mathlib.Logic.Relation

/-!
# Transactions that lock rows

A state is made of rows. A `Script` is the text of a transaction: it looks at the state, locks
rows, writes rows it has locked, and commits or gives up. Several transactions run at once
(`Concurrent`), one instruction at a time and in any order. What a transaction has written is
seen by itself only, until it commits; a row that another transaction has locked is waited for
by `lock`, and passed over by `tryLock`. Locks are kept to the end of the transaction.

`Script.Meets` is the rule of proof for one transaction: along its text, whatever the others
commit between two of its instructions, it writes only rows it has locked for writing, waits
only where its `Spec` lets it, and commits only what its `Spec` allows. What the others may
commit in between (`Meanwhile`) is what their specifications allow, on rows that the locks held
leave to them. When every transaction meets its specification alone, every commit of every run
is one that a specification allows (`sound_run`, `Sound.commits`).
-/

namespace Transact

variable {σ κ μ τ : Type} {ν : κ → Type}

/-- How a state is made of rows, and which locks on a row exclude each other. A lock whose mode
`writes` lets its holder write the row. What is written to a row that is `selfContained` depends
on that row alone. -/
structure Locking (σ κ μ : Type) (ν : κ → Type) where
  row : σ → (k : κ) → ν k
  selfContained : κ → Bool
  conflicts : μ → μ → Bool
  writes : μ → Bool
  symm : ∀ m m', conflicts m m' = conflicts m' m
  exclusive : ∀ m m', writes m = true → writes m' = true → conflicts m m' = true

/-- The text of a transaction. -/
inductive Script (σ κ μ : Type) : Type where
  | commit : Script σ κ μ
  | rollback : Script σ κ μ
  /-- A look at the last committed state, with the writes of the transaction itself. -/
  | read (next : σ → Script σ κ μ) : Script σ κ μ
  | lock (key : κ) (mode : μ) (next : Script σ κ μ) : Script σ κ μ
  /-- `SKIP LOCKED`. -/
  | tryLock (key : κ) (mode : μ) (next : Bool → Script σ κ μ) : Script σ κ μ
  | write (key : κ) (effect : σ → σ) (next : Script σ κ μ) : Script σ κ μ

/-- The state with a list of writes made on it, the last one first in the list. -/
def written (writes : List (κ × (σ → σ))) (s : σ) : σ :=
  writes.foldr (fun w s => w.2 s) s

@[simp]
theorem written_nil (s : σ) :
  written ([] : List (κ × (σ → σ))) s = s
  := rfl

@[simp]
theorem written_cons (w : κ × (σ → σ)) (writes : List (κ × (σ → σ))) (s : σ) :
  written (w :: writes) s = w.2 (written writes s)
  := rfl

/-- A transaction under way: who runs it, the locks it holds, what it has written, and the rest
of its text. -/
structure Txn (σ κ μ τ : Type) where
  tag : τ
  held : List (κ × μ)
  writes : List (κ × (σ → σ))
  rest : Script σ κ μ

/-- The transaction is over: its locks are released, and nothing is left to do. -/
def Txn.ended (t : Txn σ κ μ τ) : Txn σ κ μ τ where
  tag := t.tag
  held := []
  writes := []
  rest := .rollback

/-- A transaction at the start of its text. -/
def Txn.begin (tag : τ) (text : Script σ κ μ) : Txn σ κ μ τ where
  tag := tag
  held := []
  writes := []
  rest := text

/-- The last committed state, and the transactions in the order in which they began. -/
structure Concurrent (σ κ μ τ : Type) where
  committed : σ
  txns : List (Txn σ κ μ τ)

/-- What happens next: a transaction begins, takes its next instruction, or is aborted. -/
inductive Turn (τ : Type) : Type where
  | start (tag : τ)
  | act (i : ℕ)
  | abort (i : ℕ)

namespace Concurrent

variable [DecidableEq κ] (L : Locking σ κ μ ν) (text : τ → Script σ κ μ)

/-- Another transaction than the one at `i` has locked the row in a conflicting mode. -/
def blocked (s : Concurrent σ κ μ τ) (i : ℕ) (key : κ) (mode : μ) : Bool :=
  s.txns.zipIdx.any fun (t, j) =>
    j ≠ i && t.held.any fun (k, m) => k = key && L.conflicts m mode

/-- The transaction at `i` is replaced. -/
def set (s : Concurrent σ κ μ τ) (i : ℕ) (t : Txn σ κ μ τ) : Concurrent σ κ μ τ :=
  { s with txns := s.txns.set i t }

/-- The next instruction of a transaction at `i`. One that waits for a lock does nothing. -/
def act (s : Concurrent σ κ μ τ) (i : ℕ) (t : Txn σ κ μ τ) : Concurrent σ κ μ τ :=
  match t.rest with
  | .commit => { s.set i t.ended with committed := written t.writes s.committed }
  | .rollback => s.set i t.ended
  | .read next => s.set i { t with rest := next (written t.writes s.committed) }
  | .lock key mode next =>
      if s.blocked L i key mode then s
      else s.set i { t with held := (key, mode) :: t.held, rest := next }
  | .tryLock key mode next =>
      if s.blocked L i key mode then s.set i { t with rest := next false }
      else s.set i { t with held := (key, mode) :: t.held, rest := next true }
  | .write key effect next =>
      s.set i { t with writes := (key, effect) :: t.writes, rest := next }

/-- One step: a transaction that has not begun does nothing. -/
def step (s : Concurrent σ κ μ τ) : Turn τ → Concurrent σ κ μ τ
  | .start tag => { s with txns := s.txns ++ [.begin tag (text tag)] }
  | .act i =>
      match s.txns[i]? with
      | none => s
      | some t => s.act L i t
  | .abort i =>
      match s.txns[i]? with
      | none => s
      | some t => s.set i t.ended

/-- Before any transaction has begun. -/
def initial (s : σ) : Concurrent σ κ μ τ where
  committed := s
  txns := []

end Concurrent

/-! ### Specifications -/

/-- What a transaction that holds these locks may wait for, and with which writes it may commit in
a state. -/
structure Spec (σ κ μ : Type) where
  waits : List (κ × μ) → κ → μ → Prop
  commits : List (κ × μ) → List (κ × (σ → σ)) → σ → Prop

section Rules

variable (L : Locking σ κ μ ν) (spec : τ → Spec σ κ μ)

/-- Locks that two transactions may hold at once. -/
def Locking.Compatible (held held' : List (κ × μ)) : Prop :=
  ∀ key mode mode', (key, mode) ∈ held → (key, mode') ∈ held' → L.conflicts mode mode' = false

/-- The locks let the row be written. -/
def Locking.mayWrite (held : List (κ × μ)) (key : κ) : Prop :=
  ∃ mode, (key, mode) ∈ held ∧ L.writes mode = true

/-- The write changes one row, and depends on nothing else when the row is self-contained. -/
structure Locking.Touches (key : κ) (effect : σ → σ) : Prop where
  frame : ∀ s k, k ≠ key → L.row (effect s) k = L.row s k
  alone : L.selfContained key = true →
    ∀ s s', L.row s key = L.row s' key → L.row (effect s) key = L.row (effect s') key

/-- Every write is of a row that the locks let be written. -/
def Locking.Covered (held : List (κ × μ)) (writes : List (κ × (σ → σ))) : Prop :=
  ∀ w ∈ writes, L.mayWrite held w.1 ∧ L.Touches w.1 w.2

/-- A transaction other than one that holds `held` commits. -/
def Locking.Other (held : List (κ × μ)) (s s' : σ) : Prop :=
  ∃ tag held' writes', L.Compatible held held' ∧ L.Covered held' writes'
    ∧ (spec tag).commits held' writes' s ∧ s' = written writes' s

/-- What may become of the committed state between two instructions of a transaction that holds
`held`. -/
def Locking.Meanwhile (held : List (κ × μ)) : σ → σ → Prop :=
  Relation.ReflTransGen (L.Other spec held)

/-- From the state `s` on, whatever is committed meanwhile, what is left of a transaction keeps
to the specification `p`. -/
def Script.Meets (p : Spec σ κ μ) :
    Script σ κ μ → List (κ × μ) → List (κ × (σ → σ)) → σ → Prop
  | .commit, held, writes, s =>
      ∀ s', L.Meanwhile spec held s s' → p.commits held writes s'
  | .rollback, _, _, _ => True
  | .read next, held, writes, s =>
      ∀ s', L.Meanwhile spec held s s' → (next (written writes s')).Meets p held writes s'
  | .lock key mode next, held, writes, s =>
      p.waits held key mode
        ∧ ∀ s', L.Meanwhile spec held s s' → next.Meets p ((key, mode) :: held) writes s'
  | .tryLock key mode next, held, writes, s =>
      ∀ s', L.Meanwhile spec held s s' →
        (next true).Meets p ((key, mode) :: held) writes s' ∧ (next false).Meets p held writes s'
  | .write key effect next, held, writes, s =>
      L.mayWrite held key ∧ L.Touches key effect ∧ next.Meets p held ((key, effect) :: writes) s

end Rules

section

variable {L : Locking σ κ μ ν} {spec : τ → Spec σ κ μ} {held held' : List (κ × μ)}
  {writes : List (κ × (σ → σ))} {s s' s'' : σ}

theorem Locking.Compatible.symm (h : L.Compatible held held') :
  L.Compatible held' held
  := by
  intro key mode mode' hmode hmode'
  rw [L.symm]
  apply h key mode' mode hmode' hmode

/-- A row that may be written under some locks may not be under locks held at the same time. -/
theorem Locking.Compatible.not_mayWrite (h : L.Compatible held held') {key : κ}
    (hkey : L.mayWrite held key) :
  ¬ L.mayWrite held' key
  := by
  rintro ⟨mode', hmode', hwrites'⟩
  obtain ⟨mode, hmode, hwrites⟩ := hkey
  have hfalse := h key mode mode' hmode hmode'
  rw [L.exclusive mode mode' hwrites hwrites'] at hfalse
  cases hfalse

theorem Locking.mayWrite.cons {key key' : κ} {mode : μ} (h : L.mayWrite held key) :
  L.mayWrite ((key', mode) :: held) key
  := by
  obtain ⟨m, hm, hwrites⟩ := h
  exact ⟨m, List.mem_cons_of_mem _ hm, hwrites⟩

theorem Locking.Covered.cons_held (h : L.Covered held writes) (key : κ) (mode : μ) :
  L.Covered ((key, mode) :: held) writes
  := fun w hw => ⟨(h w hw).1.cons, (h w hw).2⟩

/-! ### Writes -/

/-- A row that is not written stays. -/
theorem row_written_of_ne (h : L.Covered held writes) {key : κ}
    (hkey : ∀ w ∈ writes, w.1 ≠ key) :
  L.row (written writes s) key = L.row s key
  := by
  induction writes with
  | nil => rfl
  | cons w writes ih =>
    rw [written_cons, (h w List.mem_cons_self).2.frame _ key (hkey w List.mem_cons_self).symm]
    apply ih
    · exact fun w' hw' => h w' (List.mem_cons_of_mem w hw')
    · exact fun w' hw' => hkey w' (List.mem_cons_of_mem w hw')

/-- A row that the locks do not let be written stays. -/
theorem row_written_of_not_mayWrite (h : L.Covered held writes) {key : κ}
    (hkey : ¬ L.mayWrite held key) :
  L.row (written writes s) key = L.row s key
  := by
  apply row_written_of_ne h
  rintro w hw rfl
  exact hkey (h w hw).1

/-- What is written of a self-contained row depends on that row alone. -/
theorem row_written_congr (h : L.Covered held writes) {key : κ}
    (hkey : L.selfContained key = true) (hrow : L.row s key = L.row s' key) :
  L.row (written writes s) key = L.row (written writes s') key
  := by
  induction writes with
  | nil => exact hrow
  | cons w writes ih =>
    have hw := (h w List.mem_cons_self).2
    have hrest := ih fun w' hw' => h w' (List.mem_cons_of_mem w hw')
    by_cases hsame : key = w.1
    · subst hsame
      apply hw.alone hkey _ _ hrest
    · rw [written_cons, written_cons, hw.frame _ key hsame, hw.frame _ key hsame]
      exact hrest

/-! ### Meanwhile -/

protected theorem Locking.Meanwhile.refl :
  L.Meanwhile spec held s s
  := Relation.ReflTransGen.refl

theorem Locking.Meanwhile.trans (h : L.Meanwhile spec held s s')
    (h' : L.Meanwhile spec held s' s'') :
  L.Meanwhile spec held s s''
  := Relation.ReflTransGen.trans h h'

/-- A reflexive and transitive relation that holds across the commits of others holds meanwhile. -/
theorem Locking.Meanwhile.across {R : σ → σ → Prop} (refl : ∀ s, R s s)
    (trans : ∀ s s' s'', R s s' → R s' s'' → R s s'')
    (other : ∀ s s', L.Other spec held s s' → R s s') (h : L.Meanwhile spec held s s') :
  R s s'
  := by
  induction h with
  | refl => apply refl
  | tail _ hother ih => exact trans _ _ _ ih (other _ _ hother)

/-- A row that the locks let be written stays as it is. -/
theorem Locking.Meanwhile.row (h : L.Meanwhile spec held s s') {key : κ}
    (hkey : L.mayWrite held key) :
  L.row s' key = L.row s key
  := by
  apply h.across (R := fun s s' => L.row s' key = L.row s key)
  · exact fun _ => rfl
  · exact fun _ _ _ h h' => h'.trans h
  · rintro s _ ⟨tag, held', writes', hcompatible, hcovered, -, rfl⟩
    exact row_written_of_not_mayWrite hcovered (hcompatible.not_mayWrite hkey)

/-- What may happen meanwhile is less when more locks are held. -/
theorem Locking.Meanwhile.of_cons {key : κ} {mode : μ}
    (h : L.Meanwhile spec ((key, mode) :: held) s s') :
  L.Meanwhile spec held s s'
  := by
  apply h.across (fun _ => .refl) (fun _ _ _ => .trans)
  rintro s s' ⟨tag, held', writes', hcompatible, hcommits⟩
  apply Relation.ReflTransGen.single
  refine ⟨tag, held', writes', ?_, hcommits⟩
  intro k m m' hm hm'
  exact hcompatible k m m' (List.mem_cons_of_mem _ hm) hm'

/-- What is left of a transaction keeps to its specification whatever is committed meanwhile. -/
theorem Script.Meets.meanwhile {p : Spec σ κ μ} {text : Script σ κ μ}
    (h : text.Meets L spec p held writes s) (hs : L.Meanwhile spec held s s') :
  text.Meets L spec p held writes s'
  := by
  induction text generalizing writes with
  | commit => exact fun s'' hs' => h s'' (hs.trans hs')
  | rollback => trivial
  | read next => exact fun s'' hs' => h s'' (hs.trans hs')
  | lock key mode next => exact ⟨h.1, fun s'' hs' => h.2 s'' (hs.trans hs')⟩
  | tryLock key mode next => exact fun s'' hs' => h s'' (hs.trans hs')
  | write key effect next ih => exact ⟨h.1, h.2.1, ih h.2.2⟩

end

/-! ### Runs -/

namespace Concurrent

/-- A transaction that is replaced is the one found at its place. -/
theorem getElem?_set {s : Concurrent σ κ μ τ} {i j : ℕ} {t t' : Txn σ κ μ τ}
    (ht : s.txns[i]? = some t) :
  (s.set i t').txns[j]? = if j = i then some t' else s.txns[j]?
  := by
  have hi : i < s.txns.length := (List.getElem?_eq_some_iff.mp ht).1
  unfold set
  rw [List.getElem?_set]
  by_cases hij : i = j
  · subst hij
    simp [hi]
  · simp [hij, Ne.symm hij]

@[simp]
theorem set_set {s : Concurrent σ κ μ τ} {i : ℕ} (t t' : Txn σ κ μ τ) :
  (s.set i t).set i t' = s.set i t'
  := by simp [set]

/-- Replacing a transaction by itself changes nothing. -/
theorem set_self {s : Concurrent σ κ μ τ} {i : ℕ} {t : Txn σ κ μ τ} (ht : s.txns[i]? = some t) :
  s.set i t = s
  := by
  obtain ⟨hi, rfl⟩ := List.getElem?_eq_some_iff.mp ht
  simp [set]

variable {L : Locking σ κ μ ν} {spec : τ → Spec σ κ μ}

/-- No transaction holds a lock that conflicts with one of another, and each keeps to the
specification of its tag. -/
structure Sound (L : Locking σ κ μ ν) (spec : τ → Spec σ κ μ) (s : Concurrent σ κ μ τ) :
    Prop where
  apart : ∀ (i j : ℕ) (t t' : Txn σ κ μ τ), i ≠ j → s.txns[i]? = some t → s.txns[j]? = some t' →
    L.Compatible t.held t'.held
  covered : ∀ t ∈ s.txns, L.Covered t.held t.writes
  meets : ∀ t ∈ s.txns, t.rest.Meets L spec (spec t.tag) t.held t.writes s.committed

/-- Every commit of a sound state is one that the specification of its transaction allows. -/
theorem Sound.commits {s : Concurrent σ κ μ τ} (h : s.Sound L spec) {i : ℕ} {t : Txn σ κ μ τ}
    (ht : s.txns[i]? = some t) (hrest : t.rest = .commit) :
  (spec t.tag).commits t.held t.writes s.committed
  := by
  have hmeets := h.meets t (List.mem_of_getElem? ht)
  rw [hrest] at hmeets
  exact hmeets _ .refl

/-- To a transaction, the commit of another is one of those that may happen meanwhile. -/
theorem Sound.meanwhile {s : Concurrent σ κ μ τ} (h : s.Sound L spec) {i j : ℕ}
    {t u : Txn σ κ μ τ} (hij : i ≠ j) (ht : s.txns[i]? = some t) (hu : s.txns[j]? = some u)
    (hrest : t.rest = .commit) :
  L.Meanwhile spec u.held s.committed (written t.writes s.committed)
  := by
  apply Relation.ReflTransGen.single
  exact ⟨t.tag, t.held, t.writes, (h.apart i j t u hij ht hu).symm,
    h.covered t (List.mem_of_getElem? ht), h.commits ht hrest, rfl⟩

theorem sound_initial (s : σ) :
  (initial s : Concurrent σ κ μ τ).Sound L spec
  := by constructor <;> simp [initial]

variable [DecidableEq κ] {text : τ → Script σ κ μ}

theorem blocked_iff {s : Concurrent σ κ μ τ} {i : ℕ} {key : κ} {mode : μ} :
  s.blocked L i key mode = true
    ↔ ∃ j t m, j ≠ i ∧ s.txns[j]? = some t ∧ (key, m) ∈ t.held ∧ L.conflicts m mode = true
  := by
  simp only [blocked, List.any_eq_true, Prod.exists, List.mem_zipIdx_iff_getElem?,
    Bool.and_eq_true, decide_eq_true_eq]
  constructor
  · rintro ⟨t, j, ht, hne, k, m, hm, rfl, hconflicts⟩
    exact ⟨j, t, m, hne, ht, hm, hconflicts⟩
  · rintro ⟨j, t, m, hne, ht, hm, hconflicts⟩
    exact ⟨t, j, ht, hne, key, m, hm, rfl, hconflicts⟩

/-! ### One instruction -/

/-- A transaction is not blocked by itself. -/
theorem blocked_set {s : Concurrent σ κ μ τ} {i : ℕ} (t : Txn σ κ μ τ) (key : κ) (mode : μ) :
  (s.set i t).blocked L i key mode = s.blocked L i key mode
  := by
  rw [Bool.eq_iff_iff, blocked_iff, blocked_iff]
  apply exists_congr
  intro j
  apply exists_congr
  intro u
  apply exists_congr
  intro m
  by_cases hj : j = i
  · simp [hj]
  · simp [set, Ne.symm hj]

section Act

variable {s : Concurrent σ κ μ τ} {i : ℕ} (hi : i < s.txns.length) {tag : τ}
  {held : List (κ × μ)} {writes : List (κ × (σ → σ))}
include hi

/-- The next instruction of a transaction that has just been replaced. -/
theorem step_set (t : Txn σ κ μ τ) :
  (s.set i t).step L text (.act i) = (s.set i t).act L i t
  := by
  have ht : (s.set i t).txns[i]? = some t := by simp [set, hi]
  simp only [step, ht]

theorem step_read (next : σ → Script σ κ μ) :
  (s.set i ⟨tag, held, writes, .read next⟩).step L text (.act i)
    = s.set i ⟨tag, held, writes, next (written writes s.committed)⟩
  := by
  rw [step_set hi]
  simp [act]
  rfl

theorem step_lock {key : κ} {mode : μ} (next : Script σ κ μ)
    (hfree : s.blocked L i key mode = false) :
  (s.set i ⟨tag, held, writes, .lock key mode next⟩).step L text (.act i)
    = s.set i ⟨tag, (key, mode) :: held, writes, next⟩
  := by
  rw [step_set hi]
  simp [act, blocked_set, hfree]

theorem step_write {key : κ} (effect : σ → σ) (next : Script σ κ μ) :
  (s.set i ⟨tag, held, writes, .write key effect next⟩).step L text (.act i)
    = s.set i ⟨tag, held, (key, effect) :: writes, next⟩
  := by
  rw [step_set hi]
  simp [act]

end Act

/-- What a transaction is replaced by: an instruction keeps its tag. -/
inductive Replaces (L : Locking σ κ μ ν) (s : Concurrent σ κ μ τ) (i : ℕ) (t : Txn σ κ μ τ) :
    Txn σ κ μ τ → Prop where
  | ended : Replaces L s i t t.ended
  | read {next} (rest : t.rest = .read next) :
      Replaces L s i t { t with rest := next (written t.writes s.committed) }
  | locked {key mode next} (rest : t.rest = .lock key mode next)
      (free : s.blocked L i key mode = false) :
      Replaces L s i t { t with held := (key, mode) :: t.held, rest := next }
  | skipped {key mode next} (rest : t.rest = .tryLock key mode next) :
      Replaces L s i t { t with rest := next false }
  | triedLock {key mode next} (rest : t.rest = .tryLock key mode next)
      (free : s.blocked L i key mode = false) :
      Replaces L s i t { t with held := (key, mode) :: t.held, rest := next true }
  | wrote {key effect next} (rest : t.rest = .write key effect next) :
      Replaces L s i t { t with writes := (key, effect) :: t.writes, rest := next }

/-- What a step does: it begins a transaction, commits one, replaces one, or does nothing. -/
theorem step_cases (L : Locking σ κ μ ν) (text : τ → Script σ κ μ) (s : Concurrent σ κ μ τ)
    (l : Turn τ) :
  (∃ tag, l = .start tag ∧ s.step L text l
      = { s with txns := s.txns ++ [.begin tag (text tag)] })
    ∨ (∃ i t, l = .act i ∧ s.txns[i]? = some t ∧ t.rest = .commit ∧ s.step L text l
      = { s.set i t.ended with committed := written t.writes s.committed })
    ∨ (∃ i t t', s.txns[i]? = some t ∧ Replaces L s i t t' ∧ s.step L text l = s.set i t')
    ∨ s.step L text l = s
  := by
  cases l with
  | start tag => exact .inl ⟨tag, rfl, rfl⟩
  | abort i =>
    cases ht : s.txns[i]? with
    | none => exact .inr (.inr (.inr (by simp only [step, ht])))
    | some t => exact .inr (.inr (.inl ⟨i, t, t.ended, ht, .ended, by simp only [step, ht]⟩))
  | act i =>
    cases ht : s.txns[i]? with
    | none => exact .inr (.inr (.inr (by simp only [step, ht])))
    | some t =>
      have hstep : s.step L text (.act i) = s.act L i t := by simp only [step, ht]
      rw [hstep]
      cases hrest : t.rest with
      | commit => exact .inr (.inl ⟨i, t, rfl, ht, hrest, by simp only [act, hrest]⟩)
      | rollback =>
        exact .inr (.inr (.inl ⟨i, t, _, ht, .ended, by simp only [act, hrest]⟩))
      | read next =>
        exact .inr (.inr (.inl ⟨i, t, _, ht, .read hrest, by simp only [act, hrest]⟩))
      | write key effect next =>
        exact .inr (.inr (.inl ⟨i, t, _, ht, .wrote hrest, by simp only [act, hrest]⟩))
      | lock key mode next =>
        cases hblocked : s.blocked L i key mode with
        | true => exact .inr (.inr (.inr (by simp [act, hrest, hblocked])))
        | false =>
          exact .inr (.inr (.inl ⟨i, t, _, ht, .locked hrest hblocked,
            by simp [act, hrest, hblocked]⟩))
      | tryLock key mode next =>
        cases hblocked : s.blocked L i key mode with
        | true =>
          exact .inr (.inr (.inl ⟨i, t, _, ht, .skipped hrest, by simp [act, hrest, hblocked]⟩))
        | false =>
          exact .inr (.inr (.inl ⟨i, t, _, ht, .triedLock hrest hblocked,
            by simp [act, hrest, hblocked]⟩))

/-- The locks of a new lock holder are compatible with those of the others. -/
theorem Sound.compatible_cons {s : Concurrent σ κ μ τ} (h : s.Sound L spec) {i j : ℕ}
    {t t' : Txn σ κ μ τ} (hij : i ≠ j) (ht : s.txns[i]? = some t) (ht' : s.txns[j]? = some t')
    {key : κ} {mode : μ} (hfree : s.blocked L i key mode = false) :
  L.Compatible ((key, mode) :: t.held) t'.held
  := by
  intro k m m' hm hm'
  rcases List.mem_cons.mp hm with heq | hm
  · cases heq
    by_contra hconflicts
    rw [Bool.not_eq_false] at hconflicts
    have hblocked : s.blocked L i key mode = true := by
      rw [blocked_iff]
      refine ⟨j, t', m', hij.symm, ht', hm', ?_⟩
      rw [L.symm]
      exact hconflicts
    rw [hfree] at hblocked
    cases hblocked
  · exact h.apart i j t t' hij ht ht' k m m' hm hm'

/-- A replaced transaction holds locks compatible with those of the others. -/
theorem Sound.compatible_of_replaces {s : Concurrent σ κ μ τ} (h : s.Sound L spec) {i j : ℕ}
    {t t' u : Txn σ κ μ τ} (hij : i ≠ j) (ht : s.txns[i]? = some t) (hu : s.txns[j]? = some u)
    (hreplaces : Replaces L s i t t') :
  L.Compatible t'.held u.held
  := by
  have hkept := h.apart i j t u hij ht hu
  cases hreplaces with
  | ended => simp [Locking.Compatible, Txn.ended]
  | read => exact hkept
  | locked rest free => exact h.compatible_cons hij ht hu free
  | skipped => exact hkept
  | triedLock rest free => exact h.compatible_cons hij ht hu free
  | wrote => exact hkept

/-- What is left of a replaced transaction keeps to its specification. -/
theorem Replaces.meets {s : Concurrent σ κ μ τ} {i : ℕ} {t t' : Txn σ κ μ τ} {p : Spec σ κ μ}
    (h : Replaces L s i t t') (hp : t.rest.Meets L spec p t.held t.writes s.committed) :
  t'.rest.Meets L spec p t'.held t'.writes s.committed
  := by
  cases h with
  | ended => trivial
  | read rest =>
    rw [rest] at hp
    exact hp _ .refl
  | locked rest =>
    rw [rest] at hp
    exact hp.2 _ .refl
  | skipped rest =>
    rw [rest] at hp
    exact (hp _ .refl).2
  | triedLock rest =>
    rw [rest] at hp
    exact (hp _ .refl).1
  | wrote rest =>
    rw [rest] at hp
    exact hp.2.2

theorem Replaces.covered {s : Concurrent σ κ μ τ} {i : ℕ} {t t' : Txn σ κ μ τ} {p : Spec σ κ μ}
    (h : Replaces L s i t t') (hp : t.rest.Meets L spec p t.held t.writes s.committed)
    (ht : L.Covered t.held t.writes) :
  L.Covered t'.held t'.writes
  := by
  cases h with
  | ended => simp [Locking.Covered, Txn.ended]
  | read => exact ht
  | locked => exact ht.cons_held _ _
  | skipped => exact ht
  | triedLock => exact ht.cons_held _ _
  | wrote rest =>
    rw [rest] at hp
    intro w hw
    rcases List.mem_cons.mp hw with rfl | hw
    · exact ⟨hp.1, hp.2.1⟩
    · exact ht w hw

theorem Replaces.tag {s : Concurrent σ κ μ τ} {i : ℕ} {t t' : Txn σ κ μ τ}
    (h : Replaces L s i t t') :
  t'.tag = t.tag
  := by cases h <;> rfl

/-- Replacing a transaction keeps a state sound. -/
theorem Sound.set {s : Concurrent σ κ μ τ} (h : s.Sound L spec) {i : ℕ} {t t' : Txn σ κ μ τ}
    (ht : s.txns[i]? = some t) (hreplaces : Replaces L s i t t') :
  (s.set i t').Sound L spec
  := by
  have hmem : ∀ u ∈ (s.set i t').txns, u = t' ∨ u ∈ s.txns :=
    fun u hu => (List.mem_or_eq_of_mem_set hu).symm
  have hmeets := h.meets t (List.mem_of_getElem? ht)
  constructor
  · intro j k u u' hjk hu hu'
    rw [getElem?_set ht] at hu hu'
    split at hu
    case isTrue hj =>
      cases hu
      rw [if_neg (by omega)] at hu'
      exact h.compatible_of_replaces (by omega) ht hu' hreplaces
    case isFalse hj =>
      split at hu'
      case isTrue hk =>
        cases hu'
        exact (h.compatible_of_replaces (Ne.symm hj) ht hu hreplaces).symm
      case isFalse hk => exact h.apart j k u u' hjk hu hu'
  · intro u hu
    obtain rfl | hu := hmem u hu
    · exact hreplaces.covered hmeets (h.covered t (List.mem_of_getElem? ht))
    · exact h.covered u hu
  · intro u hu
    obtain rfl | hu := hmem u hu
    · rw [hreplaces.tag]
      exact hreplaces.meets hmeets
    · exact h.meets u hu

/-- A transaction under way keeps to a specification across every step. -/
theorem Sound.meets_step {s : Concurrent σ κ μ τ} (h : s.Sound L spec)
    (text : τ → Script σ κ μ) (l : Turn τ) {j : ℕ} {u : Txn σ κ μ τ} {p : Spec σ κ μ}
    (hu : s.txns[j]? = some u) (hp : u.rest.Meets L spec p u.held u.writes s.committed) :
  ∃ u', (s.step L text l).txns[j]? = some u' ∧ u'.tag = u.tag
    ∧ u'.rest.Meets L spec p u'.held u'.writes (s.step L text l).committed
  := by
  obtain ⟨tag, -, hstep⟩ | ⟨i, t, -, ht, hrest, hstep⟩ | ⟨i, t, t', ht, hreplaces, hstep⟩ | hstep :=
    step_cases L text s l
  · rw [hstep]
    use u
    have hj : j < s.txns.length := (List.getElem?_eq_some_iff.mp hu).1
    exact ⟨(List.getElem?_append_left hj).trans hu, rfl, hp⟩
  · rw [hstep]
    simp only [getElem?_set ht]
    by_cases hij : j = i
    · subst hij
      rw [hu] at ht
      cases ht
      exact ⟨u.ended, if_pos rfl, rfl, trivial⟩
    · use u
      rw [if_neg hij]
      exact ⟨hu, rfl, hp.meanwhile (h.meanwhile (Ne.symm hij) ht hu hrest)⟩
  · rw [hstep]
    simp only [getElem?_set ht]
    by_cases hij : j = i
    · subst hij
      rw [hu] at ht
      cases ht
      exact ⟨t', if_pos rfl, hreplaces.tag, hreplaces.meets hp⟩
    · use u
      rw [if_neg hij]
      exact ⟨hu, rfl, hp⟩
  · rw [hstep]
    exact ⟨u, hu, rfl, hp⟩

/-- A step of a sound state leads to a sound state, when the transaction it may begin keeps to
its specification. -/
theorem sound_step {s : Concurrent σ κ μ τ} (h : s.Sound L spec) (l : Turn τ)
    (hstart : ∀ tag, l = .start tag → (text tag).Meets L spec (spec tag) [] [] s.committed) :
  (s.step L text l).Sound L spec
  := by
  have hmeets : ∀ t ∈ (s.step L text l).txns,
      t.rest.Meets L spec (spec t.tag) t.held t.writes (s.step L text l).committed := by
    intro u hu
    obtain ⟨j, hj⟩ := List.getElem?_of_mem hu
    by_cases hold : j < s.txns.length
    · have hbefore := List.getElem?_eq_getElem hold
      obtain ⟨u', hu', htag, hp⟩ := h.meets_step text l hbefore
        (h.meets _ (List.mem_of_getElem? hbefore))
      rw [hj] at hu'
      cases hu'
      rw [htag]
      exact hp
    · obtain ⟨tag, rfl, hstep⟩ | ⟨i, t, -, ht, hrest, hstep⟩ | ⟨i, t, t', ht, hreplaces, hstep⟩
          | hstep := step_cases L text s l
      all_goals rw [hstep] at hj ⊢
      · rw [List.getElem?_append_right (by omega)] at hj
        obtain rfl := List.mem_singleton.mp (List.mem_of_getElem? hj)
        exact hstart tag rfl
      · exact absurd (by simpa [set] using (List.getElem?_eq_some_iff.mp hj).1) hold
      · exact absurd (by simpa [set] using (List.getElem?_eq_some_iff.mp hj).1) hold
      · exact absurd (List.getElem?_eq_some_iff.mp hj).1 hold
  obtain ⟨tag, -, hstep⟩ | ⟨i, t, -, ht, -, hstep⟩ | ⟨i, t, t', ht, hreplaces, hstep⟩ | hstep :=
    step_cases L text s l
  · rw [hstep] at hmeets ⊢
    constructor
    · intro i j t t' hij ht ht'
      simp only [List.getElem?_append] at ht ht'
      split at ht <;> split at ht'
      · exact h.apart i j t t' hij ht ht'
      · obtain rfl := List.mem_singleton.mp (List.mem_of_getElem? ht')
        simp [Locking.Compatible, Txn.begin]
      · obtain rfl := List.mem_singleton.mp (List.mem_of_getElem? ht)
        simp [Locking.Compatible, Txn.begin]
      · obtain rfl := List.mem_singleton.mp (List.mem_of_getElem? ht)
        simp [Locking.Compatible, Txn.begin]
    · intro t ht
      rcases List.mem_append.mp ht with ht | ht
      · exact h.covered t ht
      · obtain rfl := List.mem_singleton.mp ht
        simp [Locking.Covered, Txn.begin]
    · exact hmeets
  · rw [hstep] at hmeets ⊢
    have hset := h.set ht .ended
    exact ⟨hset.apart, hset.covered, hmeets⟩
  · rw [hstep]
    exact h.set ht hreplaces
  · rw [hstep]
    exact h

/-- The committed state of a sound state moves by commits that specifications allow. -/
theorem committed_step {s : Concurrent σ κ μ τ} (h : s.Sound L spec) (text : τ → Script σ κ μ)
    (l : Turn τ) :
  (s.step L text l).committed = s.committed
    ∨ ∃ i t, l = .act i ∧ s.txns[i]? = some t ∧ t.rest = .commit
      ∧ (s.step L text l).committed = written t.writes s.committed
      ∧ (spec t.tag).commits t.held t.writes s.committed
  := by
  obtain ⟨tag, -, hstep⟩ | ⟨i, t, hl, ht, hrest, hstep⟩ | ⟨i, t, t', -, -, hstep⟩ | hstep :=
    step_cases L text s l
  · exact .inl (by rw [hstep])
  · right
    have hcommitted : (s.step L text l).committed = written t.writes s.committed := by rw [hstep]
    exact ⟨i, t, hl, ht, hrest, hcommitted, h.commits ht hrest⟩
  · exact .inl (by rw [hstep]; rfl)
  · exact .inl (by rw [hstep])

/-- An invariant that every allowed commit keeps holds of the committed state of every run whose
transactions each keep to their specification, and every state of the run is sound. -/
theorem sound_run {I : σ → Prop} {ok : τ → Prop}
    (keeps : ∀ tag held writes s, (spec tag).commits held writes s → I s → I (written writes s))
    (meets : ∀ tag s, ok tag → I s → (text tag).Meets L spec (spec tag) [] [] s)
    {s : Concurrent σ κ μ τ} (hs : s.Sound L spec) (hI : I s.committed) {turns : List (Turn τ)}
    (hok : ∀ tag, .start tag ∈ turns → ok tag) :
  (run (step L text) s turns).Sound L spec ∧ I (run (step L text) s turns).committed
  := by
  apply @run_invariant _ _ (step L text)
    (fun s : Concurrent σ κ μ τ => s.Sound L spec ∧ I s.committed)
    (fun _ l => ∀ tag, l = .start tag → ok tag) _ _ _ ⟨hs, hI⟩
  · apply along_of_mem
    rintro l hl - tag rfl
    exact hok tag hl
  · rintro s l ⟨hs, hI⟩ hl
    constructor
    · apply sound_step hs l
      intro tag htag
      exact meets tag s.committed (hl tag htag) hI
    · obtain hsame | ⟨i, t, -, -, -, hcommitted, hcommits⟩ := committed_step hs text l
      · rw [hsame]
        exact hI
      · rw [hcommitted]
        exact keeps _ _ _ _ hcommits hI

/-- A transaction under way keeps to a specification of its own along every run. -/
theorem meets_run {I : σ → Prop} {ok : τ → Prop}
    (keeps : ∀ tag held writes s, (spec tag).commits held writes s → I s → I (written writes s))
    (meets : ∀ tag s, ok tag → I s → (text tag).Meets L spec (spec tag) [] [] s)
    {s : Concurrent σ κ μ τ} (hs : s.Sound L spec) (hI : I s.committed) {turns : List (Turn τ)}
    (hok : ∀ tag, .start tag ∈ turns → ok tag) {j : ℕ} {u : Txn σ κ μ τ} {p : Spec σ κ μ}
    (hu : s.txns[j]? = some u) (hp : u.rest.Meets L spec p u.held u.writes s.committed) :
  ∃ u', (run (step L text) s turns).txns[j]? = some u' ∧ u'.tag = u.tag
    ∧ u'.rest.Meets L spec p u'.held u'.writes (run (step L text) s turns).committed
  := by
  induction turns generalizing s u with
  | nil => exact ⟨u, hu, rfl, hp⟩
  | cons l turns ih =>
    obtain ⟨u', hu', htag, hp'⟩ := hs.meets_step text l hu hp
    have hfirst : ∀ tag, .start tag ∈ [l] → ok tag := fun tag htag => hok tag (by simp_all)
    have hstep := sound_run keeps meets hs hI hfirst
    obtain ⟨u'', hu'', htag', hp''⟩ := ih hstep.1 hstep.2
      (fun tag htag => hok tag (List.mem_cons_of_mem l htag)) hu' hp'
    exact ⟨u'', hu'', htag'.trans htag, hp''⟩

/-- The tag of a transaction is one that was started. -/
theorem tag_of_run {s : Concurrent σ κ μ τ} {turns : List (Turn τ)} {t : Txn σ κ μ τ}
    (ht : t ∈ (run (step L text) s turns).txns) :
  (∃ u ∈ s.txns, u.tag = t.tag) ∨ .start t.tag ∈ turns
  := by
  induction turns generalizing s with
  | nil => exact .inl ⟨t, ht, rfl⟩
  | cons l turns ih =>
    obtain ⟨u, hu, htag⟩ | hstart := ih ht
    case inr => exact .inr (List.mem_cons_of_mem l hstart)
    obtain ⟨tag, rfl, hstep⟩ | ⟨i, t', -, ht', -, hstep⟩ | ⟨i, t', t'', ht', hreplaces, hstep⟩
        | hstep := step_cases L text s l
    all_goals rw [hstep] at hu
    · rcases List.mem_append.mp hu with hu | hu
      · exact .inl ⟨u, hu, htag⟩
      · obtain rfl := List.mem_singleton.mp hu
        rw [← htag]
        exact .inr List.mem_cons_self
    · rcases List.mem_or_eq_of_mem_set hu with hu | rfl
      · exact .inl ⟨u, hu, htag⟩
      · exact .inl ⟨t', List.mem_of_getElem? ht', htag⟩
    · rcases List.mem_or_eq_of_mem_set hu with hu | rfl
      · exact .inl ⟨u, hu, htag⟩
      · exact .inl ⟨t', List.mem_of_getElem? ht', hreplaces.tag.symm.trans htag⟩
    · exact .inl ⟨u, hu, htag⟩

end Concurrent

end Transact
