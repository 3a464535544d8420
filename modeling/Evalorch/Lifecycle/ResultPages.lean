import Evalorch.Lifecycle.Clock
import Evalorch.Lifecycle.Finality
import Evalorch.Lifecycle.Results

/-!
# The result list of a job that runs

A result keeps its identifier and the time it was created at when its ticket is evaluated again,
and the result list is ordered by that time. So while the clock moves on, the list of a job grows
at its end only: what has been listed stays on the same pages (`listed_results_stay`).
-/

namespace Evalorch

open Transact ResultRepository

/-! ### Results that stay -/

/-- A result in another database is the same one, perhaps evaluated again. -/
structure SameResult (r r' : EvaluationResult) : Prop where
  id : r'.id = r.id
  jobId : r'.jobId = r.jobId
  createdAt : r'.createdAt = r.createdAt

theorem SameResult.refl (r : EvaluationResult) :
  SameResult r r
  := ⟨rfl, rfl, rfl⟩

theorem SameResult.trans {r r' r'' : EvaluationResult} (h : SameResult r r')
    (h' : SameResult r' r'') :
  SameResult r r''
  := ⟨h'.id.trans h.id, h'.jobId.trans h.jobId, h'.createdAt.trans h.createdAt⟩

/-- The results of one database are in another, whose other results were created after a time. -/
structure ResultsGrow (bound : Instant) (db db' : Db) : Prop where
  kept : ∀ r ∈ db.results.rows, ∃ r' ∈ db'.results.rows, SameResult r r'
  created : ∀ r' ∈ db'.results.rows,
    (∃ r ∈ db.results.rows, SameResult r r') ∨ bound < r'.createdAt

theorem ResultsGrow.of_results {bound : Instant} {db db' : Db} (h : db'.results = db.results) :
  ResultsGrow bound db db'
  := by
  constructor
  · exact fun r hr => ⟨r, h ▸ hr, .refl r⟩
  · exact fun r hr => .inl ⟨r, h ▸ hr, .refl r⟩

theorem ResultsGrow.trans {bound : Instant} {db db' db'' : Db} (h : ResultsGrow bound db db')
    (h' : ResultsGrow bound db' db'') :
  ResultsGrow bound db db''
  := by
  constructor
  · intro r hr
    obtain ⟨r', hr', hsame⟩ := h.kept r hr
    obtain ⟨r'', hr'', hsame'⟩ := h'.kept r' hr'
    exact ⟨r'', hr'', hsame.trans hsame'⟩
  · intro r'' hr''
    rcases h'.created r'' hr'' with ⟨r', hr', hsame'⟩ | hlater
    · rcases h.created r' hr' with ⟨r, hr, hsame⟩ | hlater
      · exact .inl ⟨r, hr, hsame.trans hsame'⟩
      · exact .inr (hsame'.createdAt ▸ hlater)
    · exact .inr hlater

/-- A change keeps the results, and creates others at its own time only. -/
theorem resultsGrow_of_change {a : Action} {bound : Instant} {db db' : Db}
    (hnow : bound < db.now) (h : Change a db db') :
  ResultsGrow bound db db'
  := by
  obtain ⟨f, g, hby⟩ := h
  cases hby.results with
  | kept results => exact .of_results results
  | @recorded ticket worker target result row t htarget before hjob written resultOf =>
    constructor
    · intro r hr
      have hfound := Db.resultOf_eq_some.mpr ⟨hr, rfl⟩
      by_cases hid : r.ticketId = ticket.id
      · have hrow : db'.resultOf r.ticketId = some row := by rw [resultOf, if_pos hid]
        use row, (Db.resultOf_eq_some.mp hrow).1
        obtain ⟨old, hold, rfl⟩ | ⟨hnone, -⟩ := written
        · rw [← hid, hfound] at hold
          cases hold
          exact ⟨rfl, rfl, rfl⟩
        · rw [← hid, hfound] at hnone
          cases hnone
      · have hsame : db'.resultOf r.ticketId = some r := by rw [resultOf, if_neg hid, hfound]
        exact ⟨r, (Db.resultOf_eq_some.mp hsame).1, .refl r⟩
    · intro r hr
      have hfound := Db.resultOf_eq_some.mpr ⟨hr, rfl⟩
      rw [resultOf] at hfound
      split at hfound
      case isFalse => exact .inl ⟨r, (Db.resultOf_eq_some.mp hfound).1, .refl r⟩
      case isTrue =>
        cases hfound
        obtain ⟨old, hold, rfl⟩ | ⟨-, rfl⟩ := written
        · exact .inl ⟨old, (Db.resultOf_eq_some.mp hold).1, rfl, rfl, rfl⟩
        · exact .inr hnow

/-- Once the clock has passed a time, a run creates results after that time only. -/
theorem resultsGrow_run {settings : Settings} {s : System} (hs : s.sound) {bound : Instant}
    (hnow : bound < s.db.now) {labels : List Label}
    (hforward : Along (System.step settings) System.forward s labels) :
  ResultsGrow bound s.db (run (System.step settings) s labels).db
  := by
  have h := run_invariant
    (fun s' : System => s'.sound ∧ bound < s'.db.now ∧ ResultsGrow bound s.db s'.db)
    System.forward ?_ ⟨hs, hnow, .of_results rfl⟩ hforward
  · exact h.2.2
  rintro s' l ⟨hs', hnow', hgrow⟩ hl
  refine ⟨sound_step hs' l, hnow'.trans_le (now_le_step settings hs' hl), hgrow.trans ?_⟩
  obtain hsame | ⟨p, hcreated⟩ | ⟨a, -, hchange⟩ := step_cases settings hs' l
  · exact .of_results (congrArg Db.results hsame)
  · exact .of_results hcreated.results
  · exact resultsGrow_of_change hnow' hchange

/-! ### Listings -/

/-- The rows of a listing without conditions. -/
theorem mem_listByJob_noFilters {jobId : Uuid} {db : Db} {r : EvaluationResult} :
  r ∈ listByJob jobId noFilters db ↔ r ∈ db.results.rows ∧ r.jobId = jobId
  := by simp [listByJob, noFilters, Filters.admits]

theorem nodup_listByJob (jobId : Uuid) (f : Filters) (db : Db) :
  ((listByJob jobId f db).map (·.id)).Nodup
  := db.resultIds.sublist (List.filter_sublist.map _)

/-- The results that were created up to a time are those of the earlier database. -/
theorem perm_earlier {bound : Instant} {db db' : Db} (h : ResultsGrow bound db db')
    (hbound : ∀ r ∈ db.results.rows, r.createdAt ≤ bound) (jobId : Uuid) :
  (((listByJob jobId noFilters db').filter (·.createdAt ≤ bound)).map (·.id)).Perm
    ((listByJob jobId noFilters db).map (·.id))
  := by
  apply (List.perm_ext_iff_of_nodup _ (nodup_listByJob jobId noFilters db)).mpr
  · intro id
    simp only [List.mem_map, List.mem_filter, mem_listByJob_noFilters, decide_eq_true_eq]
    constructor
    · rintro ⟨r', ⟨⟨hr', hjob⟩, hle⟩, rfl⟩
      rcases h.created r' hr' with ⟨r, hr, hsame⟩ | hlater
      · exact ⟨r, ⟨hr, hsame.jobId.symm.trans hjob⟩, hsame.id.symm⟩
      · exact absurd hle (not_le.mpr hlater)
    · rintro ⟨r, ⟨hr, hjob⟩, rfl⟩
      obtain ⟨r', hr', hsame⟩ := h.kept r hr
      exact ⟨r', ⟨⟨hr', hsame.jobId.trans hjob⟩, hsame.createdAt ▸ hbound r hr⟩, hsame.id⟩
  · exact (nodup_listByJob jobId noFilters db').sublist (List.filter_sublist.map _)

variable {β : Type} [LinearOrder β]

/-- A later listing begins with the results of an earlier one. -/
theorem perm_take_of_grow {collate : String → β} {bound : Instant} {db db' : Db}
    (h : ResultsGrow bound db db') (hbound : ∀ r ∈ db.results.rows, r.createdAt ≤ bound)
    {jobId : Uuid} {listed : List EvaluationResult}
    (hlisted : Query.Arranges (listingKey collate) (listByJob jobId noFilters db') listed) :
  ((listed.take (listByJob jobId noFilters db).length).map (·.id)).Perm
    ((listByJob jobId noFilters db).map (·.id))
  := by
  have hearlier := perm_earlier h hbound jobId
  have hlower : ∀ r r' : EvaluationResult, listingKey collate r ≤ listingKey collate r' →
      decide (r'.createdAt ≤ bound) = true → decide (r.createdAt ≤ bound) = true := by
    intro r r' hle hr'
    simp only [decide_eq_true_eq] at hr' ⊢
    exact (Prod.Lex.monotone_fst _ _ hle).trans hr'
  have hfirst := (hlisted.take hlower).perm
  have hcount : (listByJob jobId noFilters db').countP (fun r => decide (r.createdAt ≤ bound))
      = (listByJob jobId noFilters db).length := by
    have hlength := hearlier.length_eq
    rwa [List.length_map, List.length_map, ← List.countP_eq_length_filter] at hlength
  rw [hcount] at hfirst
  exact (hfirst.map (·.id)).trans hearlier

/-- The pages of a later result list, and the results of an earlier one. -/
structure PagesStay (arrange : List EvaluationResult → List EvaluationResult) (jobId : Uuid)
    (db db' : Db) : Prop where
  total : (listByJob jobId noFilters db).length ≤ (listPage arrange jobId noFilters 0 0 db').1
  before : ∀ limit offset, offset + limit ≤ (listByJob jobId noFilters db).length →
    ∀ r ∈ (listPage arrange jobId noFilters limit offset db').2,
      r.id ∈ (listByJob jobId noFilters db).map (·.id)
  after : ∀ limit offset, (listByJob jobId noFilters db).length ≤ offset →
    ∀ r ∈ (listPage arrange jobId noFilters limit offset db').2,
      r.id ∉ (listByJob jobId noFilters db).map (·.id)

theorem pagesStay_of_grow {collate : String → β} {bound : Instant} {db db' : Db}
    (h : ResultsGrow bound db db') (hbound : ∀ r ∈ db.results.rows, r.createdAt ≤ bound)
    {arrange : List EvaluationResult → List EvaluationResult}
    (harrange : ∀ rows, Query.Arranges (listingKey collate) rows (arrange rows))
    (jobId : Uuid) :
  PagesStay arrange jobId db db'
  := by
  have hlisted := harrange (listByJob jobId noFilters db')
  have hfirst := perm_take_of_grow h hbound hlisted
  set listed := arrange (listByJob jobId noFilters db')
  set total := (listByJob jobId noFilters db).length
  constructor
  · have hlength := hfirst.length_eq
    rw [List.length_map, List.length_map, List.length_take, hlisted.perm.length_eq] at hlength
    exact hlength.symm.trans_le (min_le_right _ _)
  · intro limit offset hle r hr
    have hmem : r ∈ listed.take total := Query.mem_take_of_mem_page hr hle
    exact hfirst.subset (List.mem_map_of_mem hmem)
  · intro limit offset hle r hr hold
    have hlater : r ∈ listed.drop total := Query.mem_drop_of_mem_page hr hle
    -- No identifier is listed twice.
    have hnodup : ((listed.take total).map (·.id) ++ (listed.drop total).map (·.id)).Nodup := by
      rw [← List.map_append, List.take_append_drop]
      exact (hlisted.perm.map (·.id)).nodup_iff.mpr (nodup_listByJob jobId noFilters db')
    exact (List.nodup_append.mp hnodup).2.2 _ (hfirst.symm.subset hold) _
      (List.mem_map_of_mem hlater) rfl

/-- The result list of a job grows at its end only. In every run of transactions that do not
overlap, under a clock that does not go back, count the results of a job at some time and, once the
clock has moved on, list them page by page at any later time, with whatever order the database
gives to results of one time and check: the pages up to the earlier count show the results that
there were, and those after it show new ones. -/
theorem listed_results_stay (settings : Settings) (collate : String → β) (before after : List Label)
    {now : Instant} (hnow : (System.after settings before).db.now < now)
    (hforward : Along (System.step settings) System.forward System.initial
      (before ++ .tick now :: after))
    {arrange : List EvaluationResult → List EvaluationResult}
    (harrange : ∀ rows, Query.Arranges (listingKey collate) rows (arrange rows)) (jobId : Uuid) :
  PagesStay arrange jobId (System.after settings before).db
    (System.after settings (before ++ .tick now :: after)).db
  := by
  obtain ⟨hbefore, -, hafter⟩ := along_append.mp hforward
  set s := System.after settings before
  have htimed : s.Timed := timed_after settings hbefore
  have hgrow : ResultsGrow s.db.now s.db (System.after settings (before ++ .tick now :: after)).db
      := by
    rw [System.after_append]
    have htick : ResultsGrow s.db.now s.db (s.step settings (.tick now)).db := .of_results rfl
    exact htick.trans (resultsGrow_run (sound_step htimed.sound _) hnow hafter)
  exact pagesStay_of_grow hgrow (fun r hr => (htimed.timed.results r hr).1) harrange jobId

namespace Demo

/-- Results in the order of the list, with shorter names of checks first. -/
def arranged (rows : List EvaluationResult) : List EvaluationResult :=
  rows.insertionSort fun r r' => listingKey String.length r ≤ listingKey String.length r'

theorem listed_results_stay_completed :
  PagesStay arranged 1 (System.after .default completed).db
    (System.after .default (completed ++ .tick 10 :: afterwards)).db
  := by
  have hnow : (System.after .default completed).db.now < (10 : ℤ) := by decide +kernel
  apply listed_results_stay .default String.length completed afterwards hnow
  · refine ⟨trivial, trivial, trivial, trivial, ?_, trivial, trivial, ?_, trivial, trivial⟩
    · unfold System.forward
      decide +kernel
    · unfold System.forward
      decide +kernel
  · exact Query.arranges_insertionSort (listingKey String.length)

end Demo

end Evalorch
