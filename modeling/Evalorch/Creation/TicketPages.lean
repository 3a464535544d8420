import Evalorch.Creation.FanOut
import Mathlib.Data.String.Basic

/-!
# The pages of the tickets of a job

The listing of a job orders its tickets by priority, time and check, and returns one page. Each
page is a query of its own, which may arrange tickets that the order does not tell apart in its
own way. A job has one ticket of a check for every payload, so the order tells apart the tickets
of one payload only.
-/

namespace Evalorch

open TicketRepository

variable {β : Type} [LinearOrder β] {collate : String → β}

/-- The tickets on the pages at the offsets `0`, `limit`, `2 * limit` and so on up to the reported
total, where each query arranges the rows on its own. -/
def pagedTickets (arrange : ℕ → List EvaluationTicket → List EvaluationTicket) (jobId : Uuid)
    (f : Filters) (limit : ℕ) (db : Db) : List EvaluationTicket :=
  (List.range ((listByJob (arrange 0) jobId f limit 0 db).1 / limit + 1)).flatMap fun i =>
    (listByJob (arrange i) jobId f limit (i * limit) db).2

/-- Whatever order the queries return within the keys, the pages together have every matching
ticket exactly once. -/
def LosslessPaging (collate : String → β) (jobId : Uuid) (f : Filters) (limit : ℕ) (db : Db) :
    Prop :=
  ∀ arrange : ℕ → List EvaluationTicket → List EvaluationTicket,
    (∀ i, Query.Arranges (listingKey collate) (matching jobId f db)
      (arrange i (matching jobId f db))) →
    (pagedTickets arrange jobId f limit db).Perm (matching jobId f db)

/-- The rows of a query are different rows. -/
theorem matching_nodup (jobId : Uuid) (f : Filters) (db : Db) :
  (matching jobId f db).Nodup
  := by
  apply List.Nodup.filter
  exact List.Nodup.of_map _ db.tickets.nodup

/-- Paging is lossless exactly when no boundary between two pages divides tickets of one priority,
time and check. -/
theorem losslessPaging_iff (jobId : Uuid) (f : Filters) {limit : ℕ} (hlimit : 0 < limit)
    (db : Db) :
  LosslessPaging collate jobId f limit db
    ↔ ∀ i, Query.Separates (listingKey collate) (matching jobId f db) (i * limit)
  := by
  rw [← Query.pages_perm_iff (matching_nodup jobId f db) hlimit]
  constructor
  · intro h arranged harranged
    exact h (fun i _ => arranged i) harranged
  · intro h arrange harrange
    exact h (fun i => arrange i (matching jobId f db)) harrange

/-- Two tickets of one key are not told apart after the first of them. -/
theorem not_losslessPaging_of_two {jobId : Uuid} {f : Filters} {db : Db}
    {k : ℤᵒᵈ ×ₗ Instant ×ₗ β}
    (h : (matching jobId f db).map (listingKey collate) = [k, k]) :
  ¬ LosslessPaging collate jobId f 1 db
  := by
  have hlength : (matching jobId f db).length = 2 := by
    rw [← List.length_map, h]
    rfl
  have hsorted : Query.sortedKeys (listingKey collate) (matching jobId f db) = [k, k] := by
    rw [Query.sortedKeys, h]
    simp
  have hdivided : ¬ Query.Separates (listingKey collate) (matching jobId f db) (1 * 1) := by
    simp [Query.Separates, hlength, hsorted]
  obtain ⟨arranged, harranged, hnot⟩ :=
    Query.pages_not_perm (matching_nodup jobId f db) hdivided
  intro hlossless
  exact hnot (hlossless (fun i _ => arranged i) harranged)

/-- The dataset with a second check. -/
def Demo.twoChecks : Surroundings :=
  { surroundings with
    identifiers := { distinctIdentifiers with uuid5 := String.length }
    files := fun _ => .folder (.ok (entries.take 2 ++
      [⟨"config.json", false, .json (.dict (config [configMetric "first" "correlation" [],
        configMetric "second" "correlation" []]))⟩])) }

/-- The four tickets of two checks are on two pages, one for each check. -/
theorem losslessPaging_demo :
  ∃ result db, createJob Demo.twoChecks (Demo.createRequest none) Demo.rowIds Db.empty
      = .ok (result, db)
    ∧ (matching result.job.id ⟨none, none, none⟩ db).length = 4
    ∧ LosslessPaging (fun text : String => text) result.job.id ⟨none, none, none⟩ 2 db
  := by
  have hkeys : ((createJob Demo.twoChecks (Demo.createRequest none) Demo.rowIds
      Db.empty).toOption.map fun r => Query.sortedKeys (listingKey fun text : String => text)
        (matching r.1.job.id ⟨none, none, none⟩ r.2)) = some
      [toLex (OrderDual.toDual 1, toLex (0, "first")),
        toLex (OrderDual.toDual 1, toLex (0, "first")),
        toLex (OrderDual.toDual 1, toLex (0, "second")),
        toLex (OrderDual.toDual 1, toLex (0, "second"))] := by
    decide +kernel
  cases h : createJob Demo.twoChecks (Demo.createRequest none) Demo.rowIds Db.empty with
  | error exn => simp [h, Except.toOption] at hkeys
  | ok r =>
    obtain ⟨result, db⟩ := r
    rw [h] at hkeys
    have hsorted := Option.some.inj hkeys
    have hfour : (matching result.job.id ⟨none, none, none⟩ db).length = 4 := by
      simpa [Query.sortedKeys] using congrArg List.length hsorted
    refine ⟨result, db, rfl, hfour, ?_⟩
    apply (losslessPaging_iff result.job.id ⟨none, none, none⟩ Nat.two_pos db).mpr
    intro i hpos hlt
    obtain rfl : i = 1 := by omega
    simp [hsorted]

/-- A metric that is asked of two payloads has two tickets of one key, and pages of one ticket
lose one of them. -/
theorem losslessPaging_counterexample :
  ∃ result db, createJob Demo.surroundings (Demo.createRequest none) Demo.rowIds Db.empty
      = .ok (result, db)
    ∧ ¬ LosslessPaging (fun text : String => text) result.job.id ⟨none, none, none⟩ 1 db
  := by
  obtain ⟨result, db, h, -⟩ := demo_created
  have hkeys : ((createJob Demo.surroundings (Demo.createRequest none) Demo.rowIds
      Db.empty).toOption.map fun r => (matching r.1.job.id ⟨none, none, none⟩ r.2).map
        (listingKey fun text : String => text)) = some
      [toLex (OrderDual.toDual 1, toLex (0, "first")),
        toLex (OrderDual.toDual 1, toLex (0, "first"))] := by
    decide +kernel
  rw [h] at hkeys
  exact ⟨result, db, h, not_losslessPaging_of_two (Option.some.inj hkeys)⟩

end Evalorch
