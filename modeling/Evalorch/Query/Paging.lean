import Mathlib.Data.List.Perm.Basic
import Mathlib.Data.List.Sort
import Mathlib.Order.Defs.LinearOrder

/-!
# Paging through a query

A query with an order returns an arrangement of its rows: all of them, sorted by a key, with
rows of one key in any order. Paging asks the query again for every page. The pages list every
row once, whatever the arrangements are, exactly when no boundary between two pages divides rows
of one key.
-/

namespace Query

variable {α κ : Type} [LinearOrder κ] {key : α → κ}

/-- The rows, sorted by their keys. -/
structure Arranges (key : α → κ) (rows arranged : List α) : Prop where
  perm : arranged.Perm rows
  sorted : arranged.Pairwise fun a b => key a ≤ key b

/-- `OFFSET offset LIMIT limit`. -/
def page (limit offset : ℕ) (arranged : List α) : List α :=
  (arranged.drop offset).take limit

/-- The pages at the offsets `0`, `limit`, `2 * limit` and so on up to `total`, each from an
arrangement of its own. -/
def pages (limit total : ℕ) (arranged : ℕ → List α) : List α :=
  (List.range (total / limit + 1)).flatMap fun i => page limit (i * limit) (arranged i)

/-- The keys of rows, sorted. -/
def sortedKeys (key : α → κ) (rows : List α) : List κ :=
  (rows.map key).insertionSort (· ≤ ·)

/-- A boundary after a number of rows divides no rows of one key. -/
def Separates (key : α → κ) (rows : List α) (boundary : ℕ) : Prop :=
  0 < boundary → boundary < rows.length →
    (sortedKeys key rows)[boundary - 1]? ≠ (sortedKeys key rows)[boundary]?

/-! ### Pages of one arrangement -/

/-- Pages that follow each other are a part of the arrangement. -/
theorem flatMap_page (arranged : List α) (limit first count : ℕ) :
  ((List.range' first count).flatMap fun i => page limit (i * limit) arranged)
    = (arranged.drop (first * limit)).take (count * limit)
  := by
  induction count generalizing first with
  | zero => simp
  | succ count ih =>
    have hnext : arranged.drop ((first + 1) * limit)
        = (arranged.drop (first * limit)).drop limit := by
      rw [List.drop_drop, Nat.succ_mul]
    rw [List.range'_succ, List.flatMap_cons, ih, page, hnext, Nat.succ_mul, Nat.add_comm,
      List.take_add]

/-- The pages of one arrangement are its first rows and a page. -/
theorem take_succ_page (arranged : List α) (limit i : ℕ) :
  arranged.take ((i + 1) * limit) = arranged.take (i * limit) ++ page limit (i * limit) arranged
  := by rw [Nat.succ_mul, List.take_add, page]

/-- The pages up to the total reach the last row. -/
theorem total_le_pages {limit : ℕ} (hlimit : 0 < limit) (total : ℕ) :
  total ≤ (total / limit + 1) * limit
  := by
  have hdiv := Nat.lt_div_mul_add (a := total) hlimit
  rw [Nat.succ_mul]
  omega

/-! ### Arrangements -/

/-- The rows can be arranged. -/
theorem arranges_insertionSort (key : α → κ) (rows : List α) :
  Arranges key rows (rows.insertionSort fun a b => key a ≤ key b)
  := by
  have : Std.Total fun a b : α => key a ≤ key b := ⟨fun a b => le_total (key a) (key b)⟩
  have : IsTrans α fun a b => key a ≤ key b := ⟨fun _ _ _ => le_trans⟩
  constructor
  · apply List.perm_insertionSort
  · apply List.pairwise_insertionSort

/-- A list is divided after some but not all of its elements. -/
theorem exists_split {boundary : ℕ} {l : List α} (hpos : 0 < boundary)
    (hlt : boundary < l.length) :
  ∃ before x y after, l = before ++ x :: y :: after ∧ before.length + 1 = boundary
  := by
  refine ⟨l.take (boundary - 1), l[boundary - 1], l[boundary], l.drop (boundary + 1), ?_, ?_⟩
  · have hy : l.drop boundary = l[boundary] :: l.drop (boundary + 1) :=
      List.drop_eq_getElem_cons hlt
    have hx : l.drop (boundary - 1) = l[boundary - 1] :: l.drop boundary := by
      rw [List.drop_eq_getElem_cons (by omega), Nat.sub_add_cancel hpos]
    rw [← hy, ← hx, List.take_append_drop]
  · rw [List.length_take]
    omega

/-- The rows before a boundary are those with smaller keys than the row after it. -/
theorem filter_eq_before {before after : List α} {x y : α}
    (h : (before ++ x :: y :: after).Pairwise fun a b => key a ≤ key b) (hxy : key x < key y) :
  (before ++ x :: y :: after).filter (fun a => key a < key y) = before ++ [x]
  := by
  obtain ⟨-, hrest, hbefore⟩ := List.pairwise_append.mp h
  obtain ⟨-, hrest⟩ := List.pairwise_cons.mp hrest
  obtain ⟨hafter, -⟩ := List.pairwise_cons.mp hrest
  have hkept : before.filter (fun a => key a < key y) = before := by
    apply List.filter_eq_self.mpr
    intro a ha
    have hle := hbefore a ha x List.mem_cons_self
    simpa using lt_of_le_of_lt hle hxy
  have hdropped : after.filter (fun a => key a < key y) = [] := by
    apply List.filter_eq_nil_iff.mpr
    intro a ha
    simpa using hafter a ha
  simp [hkept, hdropped, hxy]

namespace Arranges

variable {rows arranged arranged' : List α}

/-- The keys of an arrangement are the sorted keys. -/
theorem map_key (h : Arranges key rows arranged) :
  arranged.map key = sortedKeys key rows
  := by
  apply List.Perm.eq_of_pairwise (fun _ _ _ _ => le_antisymm)
  · exact List.pairwise_map.mpr h.sorted
  · apply List.pairwise_insertionSort
  · exact (h.perm.map key).trans (List.perm_insertionSort _ _).symm

/-- The keys of the rows beside a boundary. -/
theorem keys_beside {before after : List α} {x y : α}
    (h : Arranges key rows (before ++ x :: y :: after)) :
  (sortedKeys key rows)[before.length]? = some (key x)
    ∧ (sortedKeys key rows)[before.length + 1]? = some (key y)
  := by
  rw [← h.map_key]
  simp

/-- The rows before a boundary that separates are those with smaller keys than a key that
depends on the rows only. -/
theorem take_eq_filter {before after : List α} {x y : α}
    (h : Arranges key rows (before ++ x :: y :: after))
    (hseparates : Separates key rows (before.length + 1)) :
  key x < key y
    ∧ (before ++ x :: y :: after).filter (fun a => key a < key y) = before ++ [x]
  := by
  obtain ⟨hx, hy⟩ := h.keys_beside
  have hlt : before.length + 1 < rows.length := by
    rw [← h.perm.length_eq]
    simp
  have hne := hseparates (Nat.succ_pos _) hlt
  rw [Nat.add_sub_cancel, hx, hy, ne_eq, Option.some.injEq] at hne
  have hle : key x ≤ key y := by
    obtain ⟨-, hrest, -⟩ := List.pairwise_append.mp h.sorted
    exact (List.pairwise_cons.mp hrest).1 y List.mem_cons_self
  have hxy : key x < key y := lt_of_le_of_ne hle hne
  exact ⟨hxy, filter_eq_before h.sorted hxy⟩

/-- The rows before a boundary that separates are the same in all arrangements. -/
theorem take_perm (h : Arranges key rows arranged) (h' : Arranges key rows arranged')
    {boundary : ℕ} (hseparates : Separates key rows boundary) :
  (arranged.take boundary).Perm (arranged'.take boundary)
  := by
  rcases Nat.eq_zero_or_pos boundary with rfl | hpos
  · simp
  rcases Nat.lt_or_ge boundary rows.length with hlt | hge
  · obtain ⟨before, x, y, after, rfl, hlength⟩ :=
      exists_split hpos (by rw [h.perm.length_eq]; exact hlt)
    obtain ⟨before', x', y', after', rfl, hlength'⟩ :=
      exists_split hpos (by rw [h'.perm.length_eq]; exact hlt)
    obtain ⟨-, hfilter⟩ := h.take_eq_filter (by rw [hlength]; exact hseparates)
    obtain ⟨-, hfilter'⟩ := h'.take_eq_filter (by rw [hlength']; exact hseparates)
    have hkey : key y = key y' := by
      have hy := h.keys_beside.2
      rw [hlength, ← hlength', h'.keys_beside.2] at hy
      exact (Option.some.inj hy).symm
    have htake : ∀ (before after : List α) (x y : α), before.length + 1 = boundary →
        (before ++ x :: y :: after).take boundary = before ++ [x] := by
      rintro before after x y rfl
      simp [List.take_append, List.take_of_length_le (Nat.le_succ _)]
    rw [htake _ _ _ _ hlength, htake _ _ _ _ hlength', ← hfilter, ← hfilter', hkey]
    exact (h.perm.trans h'.perm.symm).filter _
  · rw [List.take_of_length_le (by rw [h.perm.length_eq]; exact hge),
      List.take_of_length_le (by rw [h'.perm.length_eq]; exact hge)]
    exact h.perm.trans h'.perm.symm

/-- A page between boundaries that separate has the same rows in all arrangements. -/
theorem page_perm (h : Arranges key rows arranged) (h' : Arranges key rows arranged')
    {limit : ℕ} (hseparates : ∀ i, Separates key rows (i * limit)) (i : ℕ) :
  (page limit (i * limit) arranged).Perm (page limit (i * limit) arranged')
  := by
  have hbefore := h.take_perm h' (hseparates i)
  have hupto := h.take_perm h' (hseparates (i + 1))
  rw [take_succ_page, take_succ_page] at hupto
  exact (List.perm_append_left_iff _).mp (hupto.trans (hbefore.symm.append_right _))

/-- Rows of one key that a boundary divides may be exchanged. -/
theorem exchange {before after : List α} {x y : α}
    (h : Arranges key rows (before ++ x :: y :: after)) (hxy : key x = key y) :
  Arranges key rows (before ++ y :: x :: after)
  := by
  constructor
  · exact ((List.Perm.swap x y after).append_left before).trans h.perm
  · have hkeys : (before ++ y :: x :: after).map key = (before ++ x :: y :: after).map key := by
      simp [hxy]
    apply List.pairwise_map.mp
    rw [hkeys]
    apply List.pairwise_map.mpr h.sorted

end Arranges

/-! ### Lossless paging -/

/-- The pages of arrangements list every row once, when every boundary separates. -/
theorem pages_perm {rows : List α} {limit : ℕ} (hlimit : 0 < limit)
    (hseparates : ∀ i, Separates key rows (i * limit)) {arranged : ℕ → List α}
    (h : ∀ i, Arranges key rows (arranged i)) :
  (pages limit rows.length arranged).Perm rows
  := by
  have hone : (pages limit rows.length fun _ => arranged 0) = arranged 0 := by
    rw [pages, List.range_eq_range', flatMap_page, Nat.zero_mul, List.drop_zero]
    apply List.take_of_length_le
    rw [(h 0).perm.length_eq]
    apply total_le_pages hlimit
  have hsame : (pages limit rows.length arranged).Perm
      (pages limit rows.length fun _ => arranged 0) := by
    apply List.Perm.flatMap_left
    intro i _
    apply (h i).page_perm (h 0) hseparates
  rw [hone] at hsame
  exact hsame.trans (h 0).perm

/-- The pages of two arrangements, one before a boundary and one after it. -/
theorem pages_of_two {limit total i : ℕ} (hpos : 0 < i * limit) (hlt : i * limit < total)
    {first second : List α} (hsecond : second.length = total) :
  (pages limit total fun j => if j < i then first else second)
    = first.take (i * limit) ++ second.drop (i * limit)
  := by
  have hlimit : 0 < limit := Nat.pos_of_mul_pos_left hpos
  have hi : i ≤ total / limit := (Nat.le_div_iff_mul_le hlimit).mpr (le_of_lt hlt)
  obtain ⟨more, hmore⟩ := Nat.exists_eq_add_of_le (Nat.le_succ_of_le hi)
  have hbefore : ∀ j ∈ List.range' 0 i,
      page limit (j * limit) (if j < i then first else second) = page limit (j * limit) first := by
    intro j hj
    rw [if_pos (by simpa using hj)]
  have hafter : ∀ j ∈ List.range' i more,
      page limit (j * limit) (if j < i then first else second) = page limit (j * limit) second := by
    intro j hj
    rw [if_neg (Nat.not_lt.mpr (List.mem_range'_1.mp hj).1)]
  have hrange : List.range (total / limit + 1) = List.range' 0 i ++ List.range' i more := by
    rw [List.range_eq_range', ← Nat.succ_eq_add_one, hmore, ← List.range'_append_1, Nat.zero_add]
  have hall : total - i * limit ≤ more * limit := by
    have htotal := total_le_pages hlimit total
    rw [← Nat.succ_eq_add_one, hmore, Nat.add_mul] at htotal
    omega
  rw [pages, hrange, List.flatMap_append, List.flatMap_congr hbefore, List.flatMap_congr hafter,
    flatMap_page, flatMap_page, Nat.zero_mul, List.drop_zero,
    List.take_of_length_le (l := second.drop _)]
  rw [List.length_drop, hsecond]
  exact hall

/-- Rows of one key at a boundary are lost: two arrangements, one for the pages before the
boundary and one for those after it, list a row twice. -/
theorem pages_not_perm {rows : List α} (hrows : rows.Nodup) {limit i : ℕ}
    (hseparates : ¬ Separates key rows (i * limit)) :
  ∃ arranged : ℕ → List α, (∀ j, Arranges key rows (arranged j))
    ∧ ¬ (pages limit rows.length arranged).Perm rows
  := by
  simp only [Separates, not_forall, not_not] at hseparates
  obtain ⟨hpos, hlt, hkeys⟩ := hseparates
  have hfirst := arranges_insertionSort key rows
  obtain ⟨before, x, y, after, hsplit, hlength⟩ :=
    exists_split hpos (by rw [hfirst.perm.length_eq]; exact hlt)
  rw [hsplit] at hfirst
  have hxy : key x = key y := by
    obtain ⟨hx, hy⟩ := hfirst.keys_beside
    rw [← hlength, Nat.add_sub_cancel, hx, hy] at hkeys
    exact Option.some.inj hkeys
  have hsecond := hfirst.exchange hxy
  refine ⟨fun j => if j < i then before ++ x :: y :: after else before ++ y :: x :: after, ?_, ?_⟩
  · intro j
    rcases Nat.lt_or_ge j i with hj | hj
    · simpa only [if_pos hj] using hfirst
    · simpa only [if_neg (Nat.not_lt.mpr hj)] using hsecond
  -- the row before the boundary comes again after it
  · intro hperm
    have hnodup := hperm.nodup_iff.mpr hrows
    rw [pages_of_two hpos hlt hsecond.perm.length_eq, ← hlength] at hnodup
    simp [List.take_append, List.drop_append, List.take_of_length_le (Nat.le_succ _),
      List.nodup_append] at hnodup

/-- Paging lists every row once, whatever the arrangements are, exactly when every boundary
separates. -/
theorem pages_perm_iff {rows : List α} (hrows : rows.Nodup) {limit : ℕ} (hlimit : 0 < limit) :
  (∀ arranged : ℕ → List α, (∀ i, Arranges key rows (arranged i)) →
      (pages limit rows.length arranged).Perm rows)
    ↔ ∀ i, Separates key rows (i * limit)
  := by
  constructor
  · intro h i
    by_contra hseparates
    obtain ⟨arranged, harranged, hnot⟩ := pages_not_perm hrows hseparates
    exact hnot (h arranged harranged)
  · intro hseparates arranged h
    apply pages_perm hlimit hseparates h

/-! ### Rows that come first -/

/-- The rows that meet a condition come first, when every row before one of them meets it too. -/
theorem filter_eq_take {p : α → Bool} {l : List α}
    (h : l.Pairwise fun a b => p b = true → p a = true) :
  l.filter p = l.take (l.countP p)
  := by
  induction l with
  | nil => rfl
  | cons a l ih =>
    obtain ⟨hfirst, hrest⟩ := List.pairwise_cons.mp h
    cases ha : p a with
    | true => simp [ha, ih hrest]
    | false =>
      -- No row meets the condition when the first one does not.
      have hnone : ∀ b ∈ l, ¬ p b = true := by
        intro b hb hp
        simp [hfirst b hb hp] at ha
      have hcount : l.countP p = 0 := List.countP_eq_zero.mpr hnone
      have hfilter : l.filter p = [] := List.filter_eq_nil_iff.mpr hnone
      simp [ha, hcount, hfilter]

/-- The rows with keys in a lower part of the order are arranged first. -/
theorem Arranges.take {rows arranged : List α} (h : Arranges key rows arranged) {p : α → Bool}
    (hp : ∀ a b, key a ≤ key b → p b = true → p a = true) :
  Arranges key (rows.filter p) (arranged.take (rows.countP p))
  := by
  have hfilter : arranged.filter p = arranged.take (rows.countP p) := by
    rw [filter_eq_take (h.sorted.imp fun hle => hp _ _ hle), h.perm.countP_eq]
  rw [← hfilter]
  exact ⟨h.perm.filter p, h.sorted.filter p⟩

/-- A page that ends before a number of rows shows rows that are among the first so many. -/
theorem mem_take_of_mem_page {limit offset total : ℕ} {arranged : List α} {a : α}
    (ha : a ∈ page limit offset arranged) (hle : offset + limit ≤ total) :
  a ∈ arranged.take total
  := by
  rw [page, List.take_drop] at ha
  exact List.take_subset_take_left arranged hle (List.mem_of_mem_drop ha)

/-- A page that begins after a number of rows shows none of these. -/
theorem mem_drop_of_mem_page {limit offset total : ℕ} {arranged : List α} {a : α}
    (ha : a ∈ page limit offset arranged) (hle : total ≤ offset) :
  a ∈ arranged.drop total
  := List.drop_subset_drop_left arranged hle (List.mem_of_mem_take ha)

end Query
