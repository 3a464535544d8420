import Evalorch.Python.Sorting
import Evalorch.Services.ContextResolver

/-!
# The order of spans

`orderSpans` sorts stably by the wall time of `started_at`, spans without a time last, so the
order commutes with dropping spans. `StartOrdered` asks for the order of the instants that the
timestamps denote; since the offset of a timestamp is dropped, it holds exactly when wall times
and instants put the spans in the same order.
-/

namespace Evalorch

/-! ### The code's order -/

/-- What `order_spans` compares before the position. -/
def startKey (span : Dict) : ℕ ×ₗ ℤ :=
  match parseTime (span.get "started_at") with
  | some start => toLex (0, start.wall)
  | none => toLex (1, Python.DateTime.min.wall)

/-- Spans compared by their start. -/
abbrev startsNoLater (x y : Dict) : Prop :=
  startKey x ≤ startKey y

instance : Std.Total startsNoLater :=
  ⟨fun x y => le_total (startKey x) (startKey y)⟩

instance : IsTrans Dict startsNoLater :=
  ⟨fun _ _ _ h g => le_trans h g⟩

/-- An earlier position decides between two spans with the same start. -/
theorem sortKey_le_iff {x y : Dict} {i j : ℕ} :
  sortKey (x, i) ≤ sortKey (y, j) ↔ startKey x < startKey y ∨ startKey x = startKey y ∧ i ≤ j
  := by
  unfold sortKey startKey
  cases parseTime (x.get "started_at") <;> cases parseTime (y.get "started_at") <;>
    simp [Prod.Lex.le_iff, Prod.Lex.lt_iff]

/-- `order_spans` is a stable sort by the start. -/
theorem orderSpans_eq (spans : List Dict) :
  orderSpans spans = spans.insertionSort startsNoLater
  := by
  unfold orderSpans sortedSpans
  apply Python.map_fst_insertionSort_zipIdx
  intro x y i j hij
  rw [sortKey_le_iff]
  constructor
  · rintro (hlt | ⟨heq, -⟩)
    · apply hlt.le
    · apply heq.le
  · intro hle
    exact hle.lt_or_eq.imp_right fun heq => ⟨heq, hij.le⟩

theorem orderSpans_perm (spans : List Dict) :
  (orderSpans spans).Perm spans
  := by
  rw [orderSpans_eq]
  apply List.perm_insertionSort

/-- Spans may be dropped before or after they are ordered. -/
theorem orderSpans_filter (p : Dict → Bool) (spans : List Dict) :
  orderSpans (spans.filter p) = (orderSpans spans).filter p
  := by
  rw [orderSpans_eq, orderSpans_eq, Python.filter_insertionSort]

/-! ### The order of the instants -/

/-- The time that `started_at` denotes, with its offset. -/
def startTime (span : Dict) : Option Python.DateTime :=
  match span.get "started_at" with
  | .str text => Python.fromIsoFormat (isoText text)
  | _ => none

/-- The instant that a `started_at` with an offset denotes. -/
def startInstant (span : Dict) : Option ℤ :=
  (startTime span).bind Python.DateTime.instant?

/-- The non-empty object entries of `trace_context.trace.spans`. -/
def payloadSpans (payload : Dict) : List Dict :=
  spanEntries ((rawSpans payload).getD [])

/-- The span at `x` may stand somewhere before the span at `y`, their positions being those in
the payload. -/
structure StartsBefore (x y : Dict × ℕ) : Prop where
  /-- A span without a parseable start does not precede one that denotes an instant. -/
  dated : (startInstant y.1).isSome → (startTime x.1).isSome
  /-- The instants do not decrease. -/
  instants : ∀ s t, startInstant x.1 = some s → startInstant y.1 = some t → s ≤ t
  /-- Equal instants keep their positions. -/
  stable : ∀ s, startInstant x.1 = some s → startInstant y.1 = some s → x.2 < y.2
  /-- Spans without a time keep their positions. -/
  untimed : startTime x.1 = none → startTime y.1 = none → x.2 < y.2

/-- The spans of a payload are a permutation of its entries, in the order in which they
started. -/
def StartOrdered (payload : Dict) : Prop :=
  ∃ arrangement : List (Dict × ℕ),
    arrangement.Perm (payloadSpans payload).zipIdx
      ∧ extractSpans payload = arrangement.map Prod.fst
      ∧ arrangement.Pairwise StartsBefore

/-- Any two spans with an offset are ordered by their wall times as by their instants. -/
def ClocksAgree (payload : Dict) : Prop :=
  ∀ (i j : ℕ) (x y : Dict), i < j →
    (payloadSpans payload)[i]? = some x → (payloadSpans payload)[j]? = some y →
    ∀ s t p q, startTime x = some s → startTime y = some t →
      s.instant? = some p → t.instant? = some q → (s.wall ≤ t.wall ↔ p ≤ q)

/-! ### Keys and times -/

/-- `_parse_time` yields the wall time. -/
theorem parseTime_eq (span : Dict) :
  parseTime (span.get "started_at") = (startTime span).map Python.DateTime.naive
  := by
  unfold startTime
  cases span.get "started_at" with
  | str text =>
    simp only [parseTime]
    cases Python.fromIsoFormat (isoText text) with
    | none => rfl
    | some parsed =>
      obtain ⟨wall, offset⟩ := parsed
      cases offset <;> rfl
  | _ => rfl

theorem startKey_of_some {span : Dict} {t : Python.DateTime} (h : startTime span = some t) :
  startKey span = toLex (0, t.wall)
  := by
  unfold startKey
  rw [parseTime_eq, h]
  rfl

theorem startKey_of_none {span : Dict} (h : startTime span = none) :
  startKey span = toLex (1, 0)
  := by
  unfold startKey
  rw [parseTime_eq, h]
  rfl

/-- An instant is that of a start time. -/
theorem startInstant_eq_some {span : Dict} {p : ℤ} :
  startInstant span = some p ↔ ∃ t, startTime span = some t ∧ t.instant? = some p
  := Option.bind_eq_some_iff

theorem extractSpans_eq (payload : Dict) :
  extractSpans payload = orderSpans (payloadSpans payload)
  := by
  unfold extractSpans payloadSpans
  cases rawSpans payload <;> rfl

/-! ### The condition -/

/-- Where clocks agree, the sorted entries are in the order in which they started. -/
theorem startsBefore_of_clocksAgree {payload : Dict} (h : ClocksAgree payload) :
  (sortedSpans (payloadSpans payload)).Pairwise StartsBefore
  := by
  have hperm : (sortedSpans (payloadSpans payload)).Perm (payloadSpans payload).zipIdx :=
    List.perm_insertionSort _ _
  have hsorted : (sortedSpans (payloadSpans payload)).Pairwise
      fun x y => sortKey x ≤ sortKey y :=
    List.pairwise_insertionSort _ _
  have hnodup : ((sortedSpans (payloadSpans payload)).map Prod.snd).Nodup := by
    rw [(hperm.map Prod.snd).nodup_iff, List.zipIdx_map_snd]
    exact @List.nodup_range' _ _ 1 Nat.one_pos
  have hdistinct : (sortedSpans (payloadSpans payload)).Pairwise fun x y => x.2 ≠ y.2 :=
    List.pairwise_map.mp hnodup
  have hmem : ∀ x ∈ sortedSpans (payloadSpans payload), (payloadSpans payload)[x.2]? = some x.1 :=
    fun x hx => List.mem_zipIdx_iff_getElem?.mp (hperm.mem_iff.mp hx)
  apply (hsorted.and hdistinct).imp_of_mem
  rintro ⟨x, i⟩ ⟨y, j⟩ hx hy ⟨hle, hne⟩
  have hcases := sortKey_le_iff.mp hle
  -- two instants in this order are not the wrong way round
  have hinstants : ∀ p q, startInstant x = some p → startInstant y = some q →
      p ≤ q ∧ (p = q → i < j) := by
    intro p q hp hq
    obtain ⟨s, hs, hsp⟩ := startInstant_eq_some.mp hp
    obtain ⟨t, ht, htq⟩ := startInstant_eq_some.mp hq
    rw [startKey_of_some hs, startKey_of_some ht] at hcases
    simp only [Prod.Lex.lt_iff, ofLex_toLex, lt_irrefl, true_and, false_or,
      EmbeddingLike.apply_eq_iff_eq, Prod.mk.injEq] at hcases
    rcases Nat.lt_or_gt_of_ne hne with hij | hji
    · have hagree := h i j x y hij (hmem _ hx) (hmem _ hy) s t p q hs ht hsp htq
      refine ⟨hagree.mp ?_, fun _ => hij⟩
      omega
    · have hagree := h j i y x hji (hmem _ hy) (hmem _ hx) t s q p ht hs htq hsp
      have hlt : s.wall < t.wall := by omega
      have hpq : ¬ q ≤ p := fun hqp => absurd (hagree.mpr hqp) (not_le.mpr hlt)
      exact ⟨by omega, by omega⟩
  constructor
  · intro hdated
    obtain ⟨q, hq⟩ := Option.isSome_iff_exists.mp hdated
    obtain ⟨t, ht, -⟩ := startInstant_eq_some.mp hq
    by_contra hnone
    have hx' : startTime x = none := by simpa using hnone
    rw [startKey_of_none hx', startKey_of_some ht] at hcases
    simp [Prod.Lex.lt_iff] at hcases
  · intro p q hp hq
    exact (hinstants p q hp hq).1
  · intro p hp hq
    exact (hinstants p p hp hq).2 rfl
  · intro hx' hy'
    rw [startKey_of_none hx', startKey_of_none hy'] at hcases
    have hij : i ≤ j := by simpa using hcases
    exact lt_of_le_of_ne hij hne

/-- Where the spans are in the order in which they started, clocks agree. -/
theorem clocksAgree_of_startOrdered {payload : Dict} (h : StartOrdered payload) :
  ClocksAgree payload
  := by
  obtain ⟨arrangement, hperm, hresult, hbefore⟩ := h
  rw [extractSpans_eq, orderSpans_eq] at hresult
  have hsorted : arrangement.Pairwise fun u v => startsNoLater u.1 v.1 := by
    apply List.pairwise_map.mp
    rw [← hresult]
    apply List.pairwise_insertionSort
  have hinstants : (arrangement.map Prod.fst).Pairwise fun x y =>
      ∀ p q, startInstant x = some p → startInstant y = some q → p ≤ q :=
    List.pairwise_map.mpr (hbefore.imp fun huv => huv.instants)
  intro i j x y hij hi hj s t p q hs ht hp hq
  have hpx : startInstant x = some p := startInstant_eq_some.mpr ⟨s, hs, hp⟩
  have hqy : startInstant y = some q := startInstant_eq_some.mpr ⟨t, ht, hq⟩
  constructor
  · -- the sort is stable, so `x` stands before `y` in the result
    intro hwall
    have hle : startsNoLater x y := by
      unfold startsNoLater
      rw [startKey_of_some hs, startKey_of_some ht]
      simpa [Prod.Lex.le_iff] using hwall
    have hpair := List.pair_sublist_insertionSort hle (Python.pair_sublist_of_getElem? hij hi hj)
    rw [hresult] at hpair
    exact List.pairwise_pair.mp (hinstants.sublist hpair) p q hpx hqy
  · -- were the wall time of `y` earlier, then `y` would stand before `x`
    intro hpq
    by_contra hwall
    have hu : (x, i) ∈ arrangement := hperm.mem_iff.mpr (List.mk_mem_zipIdx_iff_getElem?.mpr hi)
    have hv : (y, j) ∈ arrangement := hperm.mem_iff.mpr (List.mk_mem_zipIdx_iff_getElem?.mpr hj)
    have hne : (x, i) ≠ (y, j) := fun heq => hij.ne (congrArg Prod.snd heq)
    rcases Python.rel_or_rel_of_pairwise (hsorted.and hbefore) hu hv hne
      with ⟨hle, -⟩ | ⟨-, hvu⟩
    · unfold startsNoLater at hle
      rw [startKey_of_some hs, startKey_of_some ht] at hle
      apply hwall
      simpa [Prod.Lex.le_iff] using hle
    · have heq : q = p := le_antisymm (hvu.instants q p hqy hpx) hpq
      subst heq
      exact absurd (hvu.stable q hqy hpx) (not_lt.mpr hij.le)

/-- The spans of a payload are in the order in which they started exactly when their wall times
and their instants agree. -/
theorem spans_startOrdered_iff (payload : Dict) :
  StartOrdered payload ↔ ClocksAgree payload
  := by
  constructor
  · apply clocksAgree_of_startOrdered
  · intro h
    use sortedSpans (payloadSpans payload)
    refine ⟨?_, ?_, startsBefore_of_clocksAgree h⟩
    · apply List.perm_insertionSort
    · apply extractSpans_eq

namespace Demo

/-- Two spans, the first of which started an hour before the second, five hours ahead of UTC. -/
def acrossOffsets : Dict :=
  payload [span "first" "2024-01-01T10:00:00+05:00", span "second" "2024-01-01T06:00:00Z"]

end Demo

/-- The span that started first is not put first. -/
theorem acrossOffsets_not_startOrdered :
  ¬ StartOrdered Demo.acrossOffsets
  := by
  intro h
  have hfirst : startTime (Demo.span "first" "2024-01-01T10:00:00+05:00")
      = some ⟨63839700000000000, some 18000000000⟩ := by decide +kernel
  have hsecond : startTime (Demo.span "second" "2024-01-01T06:00:00Z")
      = some ⟨63839685600000000, some 0⟩ := by decide +kernel
  have hagree := clocksAgree_of_startOrdered h 0 1 _ _ one_pos rfl rfl _ _ _ _ hfirst hsecond
    rfl rfl
  revert hagree
  decide

end Evalorch
