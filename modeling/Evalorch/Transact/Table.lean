import Mathlib.Data.List.Nodup
import Mathlib.Data.List.Lemmas
import Mathlib.Data.List.Perm.Subperm

/-!
# Tables with a primary key

A table lists its rows in some order, no two of them with the same key. `find` selects the
row with a given key, `update` rewrites the rows a condition selects without touching their
keys, and `insert` appends rows with new keys. A row of an updated table is the `patch` of a
row of the table it came from, so what holds of every row is carried over one row at a time.
-/

namespace Transact

/-- The row `r`, rewritten by `f` when `p` selects it. -/
def patch {ρ : Type} (p : ρ → Bool) (f : ρ → ρ) (r : ρ) : ρ :=
  if p r then f r else r

theorem patch_of_pos {ρ : Type} {p : ρ → Bool} {f : ρ → ρ} {r : ρ} (h : p r = true) :
  patch p f r = f r
  := if_pos h

theorem patch_of_neg {ρ : Type} {p : ρ → Bool} {f : ρ → ρ} {r : ρ} (h : p r = false) :
  patch p f r = r
  := by simp [patch, h]

/-- A field that `f` leaves alone is left alone by `patch p f`. -/
theorem patch_field {ρ α : Type} {p : ρ → Bool} {f : ρ → ρ} (field : ρ → α)
    (h : ∀ r, field (f r) = field r) (r : ρ) :
  field (patch p f r) = field r
  := by
  unfold patch
  split
  · apply h
  · rfl

/-- A condition selects fewer rows than another when it implies it, and a row that the other
selects fails it. -/
theorem countP_lt {ρ : Type} {p q : ρ → Bool} {rows : List ρ}
    (h : ∀ r ∈ rows, q r = true → p r = true) {r : ρ} (hr : r ∈ rows) (hp : p r = true)
    (hq : q r = false) :
  rows.countP q < rows.countP p
  := by
  obtain ⟨before, after, rfl⟩ := List.append_of_mem hr
  have hbefore : before.countP q ≤ before.countP p :=
    List.countP_mono_left fun x hx => h x (List.mem_append_left _ hx)
  have hafter : after.countP q ≤ after.countP p :=
    List.countP_mono_left fun x hx => h x (List.mem_append_right _ (List.mem_cons_of_mem r hx))
  simp only [List.countP_append, List.countP_cons, hp, hq, if_true, Bool.false_eq_true, if_false]
  omega

/-- A table: rows in some order, no two of them with the same key. -/
structure Table {ρ κ : Type} (key : ρ → κ) where
  rows : List ρ
  nodup : (rows.map key).Nodup

namespace Table

variable {ρ κ : Type} {key : ρ → κ}

@[ext]
theorem ext {T U : Table key} (h : T.rows = U.rows) :
  T = U
  := by
  cases T
  cases U
  simp_all

/-- The table without rows. -/
def empty : Table key where
  rows := []
  nodup := List.nodup_nil

/-- The row with key `k`. -/
def find [DecidableEq κ] (T : Table key) (k : κ) : Option ρ :=
  T.rows.find? fun r => key r = k

/-- The table with the rows `p` selects rewritten by `f`, which keeps the keys. -/
def update (T : Table key) (p : ρ → Bool) (f : ρ → ρ) (keeps : ∀ r, key (f r) = key r) :
    Table key where
  rows := T.rows.map (patch p f)
  nodup := by
    rw [List.map_map]
    convert T.nodup using 2
    funext r
    apply patch_field key keeps

/-- The table with rows appended, when no two rows share a key afterwards. -/
def insert (T : Table key) (new : List ρ) (h : ((T.rows ++ new).map key).Nodup) :
    Table key where
  rows := T.rows ++ new
  nodup := h

/-- The number of rows `p` selects. -/
def count (T : Table key) (p : ρ → Bool) : ℕ :=
  T.rows.countP p

/-! ### Rows and keys -/

/-- Two rows with the same key are the same row. -/
theorem eq_of_key {T : Table key} {r r' : ρ} (hr : r ∈ T.rows) (hr' : r' ∈ T.rows)
    (h : key r = key r') :
  r = r'
  := List.inj_on_of_nodup_map T.nodup hr hr' h

/-- `find k` is the row with key `k`. -/
theorem find_eq_some [DecidableEq κ] {T : Table key} {k : κ} {r : ρ} :
  T.find k = some r ↔ r ∈ T.rows ∧ key r = k
  := by
  have found : ∀ {r'}, T.find k = some r' → r' ∈ T.rows ∧ key r' = k := by
    intro r' h
    use List.mem_of_find?_eq_some h
    simpa using List.find?_some h
  constructor
  · apply found
  · rintro ⟨hr, hk⟩
    cases hf : T.find k with
    | none => simpa [hk] using List.find?_eq_none.mp hf r hr
    | some r' =>
      obtain ⟨hr', hk'⟩ := found hf
      rw [eq_of_key hr' hr (hk'.trans hk.symm)]

theorem find_eq_none [DecidableEq κ] {T : Table key} {k : κ} :
  T.find k = none ↔ ∀ r ∈ T.rows, key r ≠ k
  := by simp [find]

/-- A row is found under its own key. -/
theorem find_key [DecidableEq κ] {T : Table key} {r : ρ} (h : r ∈ T.rows) :
  T.find (key r) = some r
  := find_eq_some.mpr ⟨h, rfl⟩

/-! ### Updates -/

@[simp]
theorem rows_update {T : Table key} {p : ρ → Bool} {f : ρ → ρ}
    {keeps : ∀ r, key (f r) = key r} :
  (T.update p f keeps).rows = T.rows.map (patch p f)
  := rfl

theorem mem_update {T : Table key} {p : ρ → Bool} {f : ρ → ρ}
    {keeps : ∀ r, key (f r) = key r} {r : ρ} :
  r ∈ (T.update p f keeps).rows ↔ ∃ r₀ ∈ T.rows, patch p f r₀ = r
  := by simp

/-- The row with key `k` after an update is the patch of the row with key `k` before it. -/
theorem find_update [DecidableEq κ] {T : Table key} {p : ρ → Bool} {f : ρ → ρ}
    (keeps : ∀ r, key (f r) = key r) (k : κ) :
  (T.update p f keeps).find k = (T.find k).map (patch p f)
  := by
  unfold find
  rw [rows_update, List.find?_map]
  congr 2
  funext r
  simp [Function.comp, patch_field key keeps]

/-- An update keeps a row with a given key. -/
theorem exists_update_key {T : Table key} {p : ρ → Bool} {f : ρ → ρ}
    {keeps : ∀ r, key (f r) = key r} {k : κ} (h : ∃ r ∈ T.rows, key r = k) :
  ∃ r ∈ (T.update p f keeps).rows, key r = k
  := by
  obtain ⟨r, hr, hk⟩ := h
  use patch p f r, mem_update.mpr ⟨r, hr, rfl⟩
  rw [patch_field key keeps, hk]

/-- An update that selects no row changes nothing. -/
theorem update_of_forall_neg {T : Table key} {p : ρ → Bool} {f : ρ → ρ}
    (keeps : ∀ r, key (f r) = key r) (h : ∀ r ∈ T.rows, p r = false) :
  T.update p f keeps = T
  := by
  apply ext
  rw [rows_update]
  calc T.rows.map (patch p f) = T.rows.map id := by
        apply List.map_congr_left
        intro r hr
        apply patch_of_neg (h r hr)
    _ = T.rows := List.map_id _

/-- When the rows of a table are those of another, each rewritten under its own key, a row is
found under a key where the row it was rewritten from was. -/
theorem find_of_map [DecidableEq κ] {T U : Table key} {f : ρ → ρ} (h : U.rows = T.rows.map f)
    (keeps : ∀ r ∈ T.rows, key (f r) = key r) (k : κ) :
  U.find k = (T.find k).map f
  := by
  cases hT : T.find k with
  | some r =>
    obtain ⟨hr, hk⟩ := find_eq_some.mp hT
    apply find_eq_some.mpr
    constructor
    · rw [h]
      apply List.mem_map_of_mem hr
    · rw [keeps r hr, hk]
  | none =>
    apply find_eq_none.mpr
    intro r hr
    rw [h] at hr
    obtain ⟨r₀, hr₀, rfl⟩ := List.mem_map.mp hr
    rw [keeps r₀ hr₀]
    apply find_eq_none.mp hT r₀ hr₀

/-- Rows that have a row with their key among others are no more than these. -/
theorem count_le_count {σ : Type} {key' : σ → κ} {T : Table key} {U : Table key'} {p : ρ → Bool}
    {q : σ → Bool} (h : ∀ r ∈ T.rows, p r = true → ∃ r' ∈ U.rows, q r' = true ∧ key' r' = key r) :
  T.count p ≤ U.count q
  := by
  have hsubset : (T.rows.filter p).map key ⊆ (U.rows.filter q).map key' := by
    intro k hk
    obtain ⟨r, hr, rfl⟩ := List.mem_map.mp hk
    obtain ⟨hmem, hp⟩ := List.mem_filter.mp hr
    obtain ⟨r', hr', hq, hkey⟩ := h r hmem hp
    exact List.mem_map.mpr ⟨r', List.mem_filter.mpr ⟨hr', hq⟩, hkey⟩
  have hnodup : ((T.rows.filter p).map key).Nodup :=
    T.nodup.sublist (List.filter_sublist.map key)
  simpa [count, List.countP_eq_length_filter] using
    (List.subperm_of_subset hnodup hsubset).length_le

/-- A count, in terms of the keys. -/
theorem count_eq_countP_keys [DecidableEq κ] (T : Table key) (p : ρ → Bool) :
  T.count p = (T.rows.map key).countP fun k => (T.find k).any p
  := by
  rw [count, List.countP_map]
  apply List.countP_congr
  intro r hr
  simp [find_key hr]

/-- Two tables with the same keys, whose rows under a key are selected alike, have as many
selected rows. -/
theorem count_congr [DecidableEq κ] {T U : Table key} {p q : ρ → Bool}
    (hkeys : U.rows.map key = T.rows.map key)
    (h : ∀ k r r', T.find k = some r → U.find k = some r' → q r' = p r) :
  U.count q = T.count p
  := by
  rw [count_eq_countP_keys, count_eq_countP_keys, hkeys]
  apply List.countP_congr
  intro k hk
  obtain ⟨r, hr, rfl⟩ := List.mem_map.mp hk
  rw [← hkeys] at hk
  obtain ⟨r', hr', hkey⟩ := List.mem_map.mp hk
  have hfind := find_key hr
  have hfind' := find_key hr'
  rw [hkey] at hfind'
  simp [hfind, hfind', h _ _ _ hfind hfind']

/-! ### Insertions -/

/-- A row with a new key may be appended. -/
theorem nodup_append_singleton {T : Table key} {new : ρ} (h : ∀ r ∈ T.rows, key r ≠ key new) :
  ((T.rows ++ [new]).map key).Nodup
  := by
  rw [List.map_append, List.nodup_append]
  use T.nodup, List.nodup_singleton _
  simp only [List.mem_map, List.map_singleton, List.mem_singleton]
  rintro _ ⟨r, hr, rfl⟩ _ rfl
  apply h r hr

/-- After one row is appended, it is found under its key and the others under theirs. -/
theorem find_insert_singleton [DecidableEq κ] {T : Table key} {new : ρ}
    {h : ((T.rows ++ [new]).map key).Nodup} (k : κ) :
  (T.insert [new] h).find k = if k = key new then some new else T.find k
  := by
  split
  case isTrue hk =>
    rw [find_eq_some]
    use List.mem_append_right T.rows (List.mem_singleton.mpr rfl), hk.symm
  case isFalse hk =>
    unfold find insert
    have hlast : [new].find? (fun r => key r = k) = none := by
      simp [Ne.symm hk]
    rw [List.find?_append, hlast, Option.or_none]

/-- An insertion keeps a row with a given key. -/
theorem exists_insert_key {T : Table key} {new : List ρ}
    {h : ((T.rows ++ new).map key).Nodup} {k : κ} (hk : ∃ r ∈ T.rows, key r = k) :
  ∃ r ∈ (T.insert new h).rows, key r = k
  := by
  obtain ⟨r, hr, hrk⟩ := hk
  exact ⟨r, List.mem_append_left new hr, hrk⟩

end Table

end Transact
