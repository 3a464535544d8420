import Evalorch.Lifecycle.StateMachine
import Mathlib.Data.List.Induction

/-!
# Tickets and results

A ticket is linked to its result by `result_id`. `Linked` says what the link of one ticket
means: it names the result row of that ticket, whose status fits the ticket's. Every change
keeps it, because a result is written only together with the settlement of its ticket. The
row of a result outlives the link: a retry request clears the link of a failed ticket and
leaves the row until the ticket is settled again.
-/

namespace Evalorch

open Transact TicketRepository

/-! ### Links -/

/-- The link of a ticket names the result row of that ticket, with a fitting status, and a
`DONE` or `NOT_APPLICABLE` ticket has one. -/
structure Linked (db : Db) (t : EvaluationTicket) : Prop where
  row : ∀ id, t.resultId = some id →
    ∃ r, db.resultOf t.id = some r ∧ r.id = id ∧ pairs t.status r.status
  finished : t.resultId = none → t.status ≠ .done ∧ t.status ≠ .notApplicable

/-- A ticket in a status that no result fits has no link. -/
theorem Linked.resultId_eq_none {db : Db} {t : EvaluationTicket} (h : Linked db t)
    (hstatus : t.status = .ready ∨ t.status = .running ∨ t.status = .retry
      ∨ t.status = .cancelled) :
  t.resultId = none
  := by
  cases hresult : t.resultId with
  | none => rfl
  | some id =>
    obtain ⟨r, -, -, hpairs⟩ := h.row id hresult
    rcases hstatus with hs | hs | hs | hs <;> simp [hs, pairs] at hpairs

/-- A ticket without a link, in a status that needs none. -/
theorem linked_of_none {db : Db} {t : EvaluationTicket} (hresult : t.resultId = none)
    (hstatus : t.status ≠ .done ∧ t.status ≠ .notApplicable) :
  Linked db t
  := by
  constructor
  · intro id hid
    rw [hresult] at hid
    cases hid
  · exact fun _ => hstatus

/-- A link survives as long as the result row of the ticket does. -/
theorem Linked.of_resultOf {db db' : Db} {t : EvaluationTicket} (h : Linked db t)
    (hsame : db'.resultOf t.id = db.resultOf t.id) :
  Linked db' t
  := by
  constructor
  · rw [hsame]
    apply h.row
  · apply h.finished

/-- A move keeps the link of a ticket whose result row it does not touch, and makes one when
it records a result. -/
theorem linked_of_move {db db' : Db} {a : Action} {t t' : EvaluationTicket}
    (hmove : Move db db' a t t') (h : Linked db t)
    (hsame : db'.resultOf t.id = db.resultOf t.id) :
  Linked db' t'
  := by
  cases hmove with
  | stay => apply h.of_resultOf hsame
  | claimed leaseSeconds pending =>
    apply linked_of_none
    · apply h.resultId_eq_none
      rcases pending with hs | hs <;> simp [hs]
    · simp [claimedRow]
  | extended => exact ⟨(h.of_resultOf hsame).row, h.finished⟩
  | cancelled s id owns =>
    apply linked_of_none
    · apply h.resultId_eq_none
      simp [(owned_iff.mp owns).1]
    · simp [transitionRow]
  | retried s id owns =>
    apply linked_of_none
    · apply h.resultId_eq_none
      simp [(owned_iff.mp owns).1]
    · simp [transitionRow]
  | @recorded ticket worker target t s id owns records result =>
    obtain ⟨row, hrow, hresult, hpairs⟩ := result
    obtain ⟨hstatus, hlink⟩ := transitionRow_records db.now s t records hresult
    constructor
    · intro id hid
      rw [hlink] at hid
      cases hid
      rw [transitionRow_id, hstatus]
      exact ⟨row, hrow, rfl, hpairs⟩
    · intro hnone
      rw [hlink] at hnone
      cases hnone
  | cancelledUnclaimed message pending =>
    apply linked_of_none
    · apply h.resultId_eq_none
      rcases pending with hs | hs <;> simp [hs]
    · simp [cancelledRow]
  | reset =>
    apply linked_of_none
    · rfl
    · simp [resetRow]
  | recovered delay passed =>
    apply linked_of_none
    · apply h.resultId_eq_none
      simp [(expired_iff.mp passed).1]
    · unfold recoveredRow
      simp only
      split
      · simp
      · split <;> simp
  | swept message passed =>
    apply linked_of_none
    · apply h.resultId_eq_none
      simp [(expired_iff.mp passed).1]
    · simp [cancelledRow]

/-- Every ticket is linked to its result. -/
def Db.linked (db : Db) : Prop :=
  ∀ t ∈ db.tickets.rows, Linked db t

/-- Every change keeps tickets linked to their results. -/
theorem linked_of_change {a : Action} {db db' : Db} (h : db.linked) (hchange : Change a db db') :
  db'.linked
  := by
  intro t' ht'
  obtain ⟨f, g, hchange⟩ := hchange
  obtain ⟨t, ht, rfl⟩ := hchange.mem_tickets.mp ht'
  have hmove := hchange.moves t ht
  cases hchange.results with
  | kept results =>
    apply linked_of_move hmove (h t ht)
    unfold Db.resultOf
    rw [results]
  | @recorded ticket worker target result row t₀ ticketId before jobId written resultOf paired job
      settled =>
    by_cases hid : t.id = ticket.id
    · obtain ⟨t₁, ht₁, hstatus, hlink⟩ := settled
      have hsame : f t = t₁ := by
        rw [hchange.ticket, ← hid, Db.ticket_eq_some.mpr ⟨ht, rfl⟩, Option.map_some] at ht₁
        apply Option.some.inj ht₁
      rw [hsame]
      constructor
      · intro id hlinked
        rw [hlink] at hlinked
        cases hlinked
        rw [← hsame, hmove.id_jobId.1, resultOf, if_pos hid, hsame, hstatus]
        refine ⟨row, rfl, rfl, ?_⟩
        obtain ⟨old, -, rfl⟩ | ⟨-, rfl⟩ := written <;> apply paired
      · intro hnone
        rw [hlink] at hnone
        cases hnone
    · apply linked_of_move hmove (h t ht)
      rw [resultOf, if_neg hid]

theorem linked_of_created {p : PreparedJob} {db db' : Db} (h : db.linked)
    (hcreated : Created p db db') :
  db'.linked
  := by
  intro t ht
  rw [hcreated.tickets] at ht
  rcases List.mem_append.mp ht with ht | ht
  · apply (h t ht).of_resultOf
    unfold Db.resultOf
    rw [hcreated.results]
  · obtain ⟨q, -, rfl⟩ := List.mem_map.mp ht
    apply linked_of_none
    · rfl
    · simp [PreparedTicket.ticket]

/-- Every reachable ticket is linked to its result. -/
theorem linked_after (settings : Settings) (labels : List Label) :
  (System.after settings labels).db.linked
  := by
  apply after_keeps Db.linked
  · simp [Db.linked, Db.empty, Table.empty]
  · intro p db db' h hcreated
    apply linked_of_created h hcreated
  · intro a db db' h hchange
    apply linked_of_change h hchange

/-! ### Results that no longer change -/

/-- The status and the result row of every `DONE` or `NOT_APPLICABLE` ticket are the same in
two databases. -/
def Db.keepsResults (db db' : Db) : Prop :=
  ∀ ticketId t, db.ticket ticketId = some t → t.status = .done ∨ t.status = .notApplicable →
    (∃ t', db'.ticket ticketId = some t' ∧ t'.status = t.status)
      ∧ db'.resultOf ticketId = db.resultOf ticketId

theorem keepsResults_of_change {a : Action} {db db' : Db} (hchange : Change a db db') :
  db.keepsResults db'
  := by
  intro ticketId t ht hdone
  constructor
  · obtain ⟨t', ht', hmove⟩ := hchange.exists_ticket ht
    use t', ht'
    rcases hmove.advance.edge with hsame | hedge
    · apply hsame
    · rcases hdone with hs | hs <;> simp [hs, allowedTicketTransitions] at hedge
  · obtain ⟨f, g, hchange⟩ := hchange
    have henabled := hchange.enabled
    cases hchange.results with
    | kept results =>
      unfold Db.resultOf
      rw [results]
    | @recorded ticket worker target result row t₀ _ before _ _ resultOf =>
      rw [resultOf, if_neg]
      rintro rfl
      obtain ⟨t₁, ht₁, howns⟩ := henabled
      rw [ht] at ht₁
      cases ht₁
      rcases hdone with hs | hs <;> simp [hs, owned] at howns

/-- A finished ticket keeps its status and its result row throughout a run. -/
theorem keepsResults_run (settings : Settings) {s : System} (hs : s.sound)
    (labels : List Label) :
  s.db.keepsResults (run (System.step settings) s labels).db
  := by
  apply run_across (fun _ => True) Db.keepsResults _ _ _ _ hs trivial
  · intro p db db' _ hcreated
    use trivial
    intro ticketId t ht _
    use ⟨t, hcreated.ticket ht, rfl⟩
    unfold Db.resultOf
    rw [hcreated.results]
  · exact fun a db db' _ hchange => ⟨trivial, keepsResults_of_change hchange⟩
  · exact fun db ticketId t ht _ => ⟨⟨t, ht, rfl⟩, rfl⟩
  · intro db db' db'' h h' ticketId t ht hdone
    obtain ⟨⟨t', ht', hstatus⟩, hresult⟩ := h ticketId t ht hdone
    obtain ⟨⟨t'', ht'', hstatus'⟩, hresult'⟩ := h' ticketId t' ht' (hstatus ▸ hdone)
    exact ⟨⟨t'', ht'', hstatus'.trans hstatus⟩, hresult'.trans hresult⟩

/-- Tickets and results agree in every reachable state: a ticket has one result row at most,
a finished ticket and a failed one with a link are linked to their own row with a fitting
status, an unfinished or cancelled ticket has no link, and the result of a finished ticket
never changes again. -/
theorem tickets_agree_with_results (settings : Settings) (labels : List Label) :
  let db := (System.after settings labels).db
  (∀ r ∈ db.results.rows, ∀ r' ∈ db.results.rows, r.ticketId = r'.ticketId → r = r')
    ∧ (∀ t ∈ db.tickets.rows, t.status = .done →
        ∃ r ∈ db.results.rows, t.resultId = some r.id ∧ r.ticketId = t.id
          ∧ (r.status = .passed ∨ r.status = .failed))
    ∧ (∀ t ∈ db.tickets.rows, t.status = .notApplicable →
        ∃ r ∈ db.results.rows, t.resultId = some r.id ∧ r.ticketId = t.id
          ∧ r.status = .notApplicable)
    ∧ (∀ t ∈ db.tickets.rows, t.status = .failed → ∀ id, t.resultId = some id →
        ∃ r ∈ db.results.rows, r.id = id ∧ r.ticketId = t.id
          ∧ (r.status = .error ∨ r.status = .failed))
    ∧ (∀ t ∈ db.tickets.rows, (t.status = .ready ∨ t.status = .running ∨ t.status = .retry
          ∨ t.status = .cancelled) → t.resultId = none)
    ∧ ∀ more, ∀ t ∈ db.tickets.rows, t.status = .done ∨ t.status = .notApplicable →
        (System.after settings (labels ++ more)).db.resultOf t.id = db.resultOf t.id
  := by
  intro db
  have hlinked : db.linked := linked_after settings labels
  have hrow : ∀ t ∈ db.tickets.rows, ∀ id, t.resultId = some id →
      ∃ r ∈ db.results.rows, r.id = id ∧ r.ticketId = t.id ∧ pairs t.status r.status := by
    intro t ht id hid
    obtain ⟨r, hr, hrid, hpairs⟩ := (hlinked t ht).row id hid
    obtain ⟨hmem, hticket⟩ := Db.resultOf_eq_some.mp hr
    exact ⟨r, hmem, hrid, hticket, hpairs⟩
  have hfinished : ∀ t ∈ db.tickets.rows, t.status = .done ∨ t.status = .notApplicable →
      ∃ r ∈ db.results.rows, t.resultId = some r.id ∧ r.ticketId = t.id
        ∧ pairs t.status r.status := by
    intro t ht hdone
    cases hresult : t.resultId with
    | none =>
      have hnot := (hlinked t ht).finished hresult
      rcases hdone with hs | hs
      · exact absurd hs hnot.1
      · exact absurd hs hnot.2
    | some id =>
      obtain ⟨r, hr, rfl, hticket, hpairs⟩ := hrow t ht id hresult
      exact ⟨r, hr, rfl, hticket, hpairs⟩
  refine ⟨?_, ?_, ?_, ?_, ?_, ?_⟩
  · intro r hr r' hr' hticket
    apply Table.eq_of_key hr hr' hticket
  · intro t ht hstatus
    obtain ⟨r, hr, hlink, hticket, hpairs⟩ := hfinished t ht (.inl hstatus)
    rw [hstatus] at hpairs
    exact ⟨r, hr, hlink, hticket, hpairs⟩
  · intro t ht hstatus
    obtain ⟨r, hr, hlink, hticket, hpairs⟩ := hfinished t ht (.inr hstatus)
    rw [hstatus] at hpairs
    exact ⟨r, hr, hlink, hticket, hpairs⟩
  · intro t ht hstatus id hid
    obtain ⟨r, hr, hrid, hticket, hpairs⟩ := hrow t ht id hid
    rw [hstatus] at hpairs
    exact ⟨r, hr, hrid, hticket, hpairs⟩
  · intro t ht hstatus
    apply (hlinked t ht).resultId_eq_none hstatus
  · intro more t ht hdone
    have hkeeps := keepsResults_run settings (sound_after settings labels) more t.id t
      (Db.ticket_eq_some.mpr ⟨ht, rfl⟩) hdone
    rw [System.after_append]
    apply hkeeps.2

/-! ### Results whose ticket was reset -/

/-- A result belongs to a settled ticket of its job that is linked to it. -/
def Db.owns (db : Db) (r : EvaluationResult) : Prop :=
  ∃ t, db.ticket r.ticketId = some t ∧ t.jobId = r.jobId ∧ t.resultId = some r.id
    ∧ (t.status = .done ∨ t.status = .notApplicable ∨ t.status = .failed)

/-- A retry request in the run reset the ticket of a result, when it had failed with that
result, and the result has been left as it was since. -/
def leftByRetry (settings : Settings) (labels : List Label) (r : EvaluationResult) : Prop :=
  ∃ before since, labels = before ++ .retryFailedTickets r.jobId :: since
    ∧ (∃ t, (System.after settings before).db.ticket r.ticketId = some t ∧ t.status = .failed
        ∧ t.resultId = some r.id)
    ∧ ∀ part, part <+: since →
        (System.after settings (before ++ .retryFailedTickets r.jobId :: part)).db.resultOf
          r.ticketId = some r

/-- A result belongs to a ticket of its job without a link, since a retry request reset the
ticket. -/
def leftOver (settings : Settings) (labels : List Label) (r : EvaluationResult) : Prop :=
  (∃ t, (System.after settings labels).db.ticket r.ticketId = some t ∧ t.jobId = r.jobId
    ∧ t.resultId = none) ∧ leftByRetry settings labels r

/-- A result that was left by a retry request, and is not written in the next step either,
is still left. -/
theorem leftByRetry_concat {settings : Settings} {labels : List Label} {r : EvaluationResult}
    (h : leftByRetry settings labels r) {l : Label}
    (hsame : (System.after settings (labels ++ [l])).db.resultOf r.ticketId = some r) :
  leftByRetry settings (labels ++ [l]) r
  := by
  obtain ⟨before, since, rfl, hreset, hsince⟩ := h
  refine ⟨before, since ++ [l], by simp, hreset, ?_⟩
  intro part hpart
  rcases List.prefix_concat_iff.mp hpart with rfl | hpart
  · simpa using hsame
  · apply hsince part hpart

/-- A change that leaves the row of a result alone keeps the result accounted for. -/
theorem accounted_of_change {settings : Settings} {labels : List Label} {l : Label}
    {r : EvaluationResult} {a : Action}
    (hperforms : (System.after settings labels).performs l a)
    (hchange : Change a (System.after settings labels).db
      (System.after settings (labels ++ [l])).db)
    (hafter : (System.after settings (labels ++ [l])).db.resultOf r.ticketId = some r)
    (h : (System.after settings labels).db.owns r ∨ leftOver settings labels r) :
  (System.after settings (labels ++ [l])).db.owns r ∨ leftOver settings (labels ++ [l]) r
  := by
  rcases h with ⟨t, ht, hjob, hlink, hstatus⟩ | ⟨⟨t, ht, hjob, hnone⟩, hleft⟩
  · obtain ⟨t', ht', hmove⟩ := hchange.exists_ticket ht
    have hnot : ∀ worker : Worker, owned worker.id t = false := by
      intro worker
      rcases hstatus with hs | hs | hs <;> simp [owned, hs]
    have hclosed : ¬ t.status.pending
        ∧ expired (System.after settings labels).db.now t = false := by
      rcases hstatus with hs | hs | hs <;> simp [TicketStatus.pending, expired, hs]
    cases hmove with
    | stay => exact .inl ⟨t, ht', hjob, hlink, hstatus⟩
    | reset failed job =>
      right
      use ⟨_, ht', hjob, rfl⟩
      refine ⟨labels, [], ?_, ⟨t, ht, failed, hlink⟩, ?_⟩
      · cases l <;> simp [System.performs] at hperforms
        rw [← hperforms, hjob]
      · intro part hpart
        rw [List.prefix_nil.mp hpart]
        have hl : l = .retryFailedTickets r.jobId := by
          cases l <;> simp [System.performs] at hperforms
          rw [← hperforms, hjob]
        rw [← hl]
        apply hafter
    | claimed _ pending => exact absurd pending hclosed.1
    | extended _ owns => exact absurd owns (by simp [hnot])
    | cancelled _ _ owns => exact absurd owns (by simp [hnot])
    | retried _ _ owns => exact absurd owns (by simp [hnot])
    | recorded _ _ owns => exact absurd owns (by simp [hnot])
    | cancelledUnclaimed _ pending => exact absurd pending hclosed.1
    | recovered _ passed => exact absurd passed (by simp [hclosed.2])
    | swept _ passed => exact absurd passed (by simp [hclosed.2])
  · obtain ⟨t', ht', hmove⟩ := hchange.exists_ticket ht
    have hstill : t'.jobId = t.jobId := hmove.id_jobId.2.1
    have hleft' := leftByRetry_concat hleft hafter
    by_cases hlinked : t'.resultId = none
    · exact .inr ⟨⟨t', ht', hstill.trans hjob, hlinked⟩, hleft'⟩
    · left
      cases hmove with
      | @recorded ticket worker target t s id owns records result job =>
        obtain ⟨row, hrow, hresult, -⟩ := result
        obtain ⟨hstatus, hlink⟩ :=
          transitionRow_records (System.after settings labels).db.now s t records hresult
        rw [(Db.ticket_eq_some.mp ht).2, hafter] at hrow
        cases hrow
        refine ⟨_, ht', hstill.trans hjob, hlink, ?_⟩
        rw [hstatus]
        cases target <;> simp [recordsResult] at records ⊢
      | reset => exact absurd rfl hlinked
      | _ => exact absurd hnone hlinked

/-- Every result of a reachable state is accounted for. -/
theorem accounted_after (settings : Settings) (labels : List Label) (r : EvaluationResult)
    (hr : r ∈ (System.after settings labels).db.results.rows) :
  (System.after settings labels).db.owns r ∨ leftOver settings labels r
  := by
  induction labels using List.reverseRec generalizing r with
  | nil => simp [System.after, run, System.initial, Db.empty, Table.empty] at hr
  | append_singleton labels l ih =>
    have hsound := sound_after settings labels
    have hafter := Db.resultOf_eq_some.mpr ⟨hr, rfl⟩
    have hstep := step_cases settings hsound l
    rw [← System.after_concat] at hstep
    rcases hstep with hsame | ⟨p, hcreated⟩ | ⟨a, hperforms, hchange⟩
    · rw [hsame] at hr
      rcases ih r hr with howns | ⟨hticket, hleft⟩
      · left
        rw [hsame]
        apply howns
      · right
        refine ⟨?_, leftByRetry_concat hleft hafter⟩
        rw [hsame]
        apply hticket
    · rw [hcreated.results] at hr
      rcases ih r hr with ⟨t, ht, hrest⟩ | ⟨⟨t, ht, hrest⟩, hleft⟩
      · exact .inl ⟨t, hcreated.ticket ht, hrest⟩
      · exact .inr ⟨⟨t, hcreated.ticket ht, hrest⟩, leftByRetry_concat hleft hafter⟩
    · obtain ⟨f, g, hby⟩ := hchange
      cases hby.results with
      | kept results =>
        rw [results] at hr
        apply accounted_of_change hperforms ⟨f, g, hby⟩ hafter (ih r hr)
      | @recorded ticket worker target result row t ticketId before jobId written resultOf paired
          job settled =>
        by_cases hid : r.ticketId = ticket.id
        · left
          rw [hid, resultOf, if_pos rfl] at hafter
          cases hafter
          obtain ⟨t', ht', hstatus, hlink⟩ := settled
          refine ⟨t', ?_, ?_, hlink, ?_⟩
          · rw [hid]
            apply ht'
          · rw [hby.ticket, before, Option.map_some] at ht'
            cases ht'
            rw [(hby.moves t (Db.ticket_eq_some.mp before).1).id_jobId.2.1]
            obtain ⟨old, hold, rfl⟩ | ⟨-, rfl⟩ := written
            · obtain ⟨hmem, hticket⟩ := Db.resultOf_eq_some.mp hold
              rcases ih old hmem with ⟨t₁, ht₁, hjob, -⟩ | ⟨⟨t₁, ht₁, hjob, -⟩, -⟩ <;>
                rw [hticket, before] at ht₁ <;> cases ht₁ <;> apply hjob
            · apply jobId.symm
          · rw [hstatus]
            cases target <;> simp [pairs] at paired ⊢
        · have hold : (System.after settings labels).db.resultOf r.ticketId = some r := by
            rw [← hafter, resultOf, if_neg hid]
          apply accounted_of_change hperforms ⟨f, g, hby⟩ hafter
            (ih r (Db.resultOf_eq_some.mp hold).1)

/-- No condition on results. -/
def ResultRepository.noFilters : ResultRepository.Filters where
  status := none
  checkId := none
  payloadId := none
  sourcePayloadRef := none
  metricId := none

/-- The counts of a list of results. -/
def ResultRepository.Summary.ofResults (results : List EvaluationResult) :
    ResultRepository.Summary where
  totalResults := results.length
  passed := results.countP (·.status = .passed)
  failed := results.countP (·.status = .failed)
  notApplicable := results.countP (·.status = .notApplicable)
  errored := results.countP (·.status = .error)

/-- The summary of a job counts its result list. -/
theorem ResultRepository.summaryByJob_eq (jobId : Uuid) (db : Db) :
  summaryByJob jobId db = .ofResults (listByJob jobId noFilters db)
  := by
  simp [summaryByJob, Summary.ofResults, countByJob, listByJob, noFilters, Filters.admits,
    Table.count, List.countP_eq_length_filter, List.filter_filter, Bool.and_comm]

/-- Every result belongs to a ticket of its job. The ticket is settled and linked to the result,
unless a retry request reset it after it had failed with that result, and it has not been settled
with a result since. The result list of a job has only results of that job, and the summary counts
those. -/
theorem results_accounted (settings : Settings) (labels : List Label) :
  let db := (System.after settings labels).db
  (∀ r ∈ db.results.rows, db.owns r ∨ leftOver settings labels r)
    ∧ (∀ jobId filters, ∀ r ∈ ResultRepository.listByJob jobId filters db,
        r ∈ db.results.rows ∧ r.jobId = jobId)
    ∧ ∀ jobId, ResultRepository.summaryByJob jobId db
        = .ofResults (ResultRepository.listByJob jobId ResultRepository.noFilters db)
  := by
  intro db
  refine ⟨accounted_after settings labels, ?_, ?_⟩
  · intro jobId filters r hr
    obtain ⟨hmem, hadmits⟩ := List.mem_filter.mp hr
    simp only [Bool.and_eq_true, decide_eq_true_eq] at hadmits
    exact ⟨hmem, hadmits.1⟩
  · exact fun jobId => ResultRepository.summaryByJob_eq jobId db

namespace Demo

/-- A ticket fails for good, and is reset by a retry request. -/
def failedAndReset : List Label :=
  [.createJob job, claim worker (.error (.value "bad input")), .execute 0 none, .execute 0 none,
    .retryFailedTickets 1]

/-- After a retry request the summary counts an error that belongs to no settled ticket. -/
theorem orphan_after_retry :
  ¬ (∀ r ∈ (System.after .default failedAndReset).db.results.rows,
      (System.after .default failedAndReset).db.owns r)
    ∧ (ResultRepository.summaryByJob 1 (System.after .default failedAndReset).db).errored = 1
    ∧ ((System.after .default failedAndReset).db.ticket 10).map (·.status) = some .ready
  := by
  refine ⟨?_, by decide +kernel, by decide +kernel⟩
  intro h
  have hall : ((System.after .default failedAndReset).db.results.rows.all fun r =>
      ((System.after .default failedAndReset).db.ticket r.ticketId).any fun t =>
        t.resultId = some r.id) = true := by
    rw [List.all_eq_true]
    intro r hr
    obtain ⟨t, ht, -, hlink, -⟩ := h r hr
    simp [ht, hlink]
  revert hall
  decide +kernel

end Demo

end Evalorch
