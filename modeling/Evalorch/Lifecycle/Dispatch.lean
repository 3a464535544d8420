import Evalorch.Lifecycle.Operations
import Mathlib.Data.List.Perm.Subperm

/-!
# The order of service

A claim takes the first claimable tickets that no other transaction has locked, by priority and
age, as many as it asks for (`claim_serves_first`). So a ticket is passed over only for tickets of
a higher priority, or of the same priority that are not younger.
-/

namespace Evalorch

open Transact TicketRepository

/-! ### Queries -/

section Selected

variable {db : Db} {selects : EvaluationTicket → Bool}
  {order : EvaluationTicket → EvaluationTicket → Bool} {locked : Uuid → Bool} {limit : ℕ}

/-- The rows that a query may select. -/
def candidates (db : Db) (selects : EvaluationTicket → Bool) (locked : Uuid → Bool) :
    List EvaluationTicket :=
  db.tickets.rows.filter fun t => selects t && !locked t.id

theorem mem_candidates {t : EvaluationTicket} :
  t ∈ candidates db selects locked
    ↔ t ∈ db.tickets.rows ∧ selects t = true ∧ locked t.id = false
  := by simp [candidates]

/-- A query selects as many rows as it can, up to its limit. -/
theorem length_selectForUpdate (db : Db) (selects : EvaluationTicket → Bool)
    (order : EvaluationTicket → EvaluationTicket → Bool) (locked : Uuid → Bool) (limit : ℕ) :
  (selectForUpdate db selects order locked limit).length
    = min limit (candidates db selects locked).length
  := by
  rw [selectForUpdate, List.length_map, List.length_take, List.length_insertionSort, candidates]

/-- The rows of the table under the identifiers that a query selects. -/
theorem nodup_selectForUpdate (db : Db) (selects : EvaluationTicket → Bool)
    (order : EvaluationTicket → EvaluationTicket → Bool) (locked : Uuid → Bool) (limit : ℕ) :
  (selectForUpdate db selects order locked limit).Nodup
  := by
  have hcandidates : ((candidates db selects locked).map (·.id)).Nodup :=
    db.tickets.nodup.sublist (List.filter_sublist.map _)
  have hsorted := (List.perm_insertionSort (fun t t' => order t t' = true)
    (candidates db selects locked)).map EvaluationTicket.id
  exact (hsorted.nodup_iff.mpr hcandidates).sublist ((List.take_sublist _ _).map _)

/-- What a query selects are rows that it may select. -/
theorem exists_candidate {id : Uuid} (h : id ∈ selectForUpdate db selects order locked limit) :
  ∃ t ∈ candidates db selects locked, t.id = id
  := by
  obtain ⟨t, ht, hid⟩ := List.mem_map.mp h
  exact ⟨t, (List.mem_insertionSort _).mp (List.mem_of_mem_take ht), hid⟩

/-- A query whose limit suffices leaves nothing. -/
theorem selected_of_length_le {t : EvaluationTicket} (ht : t ∈ candidates db selects locked)
    (hle : (candidates db selects locked).length ≤ limit) :
  t.id ∈ selectForUpdate db selects order locked limit
  := by
  apply List.mem_map_of_mem
  rw [List.take_of_length_le]
  · exact (List.mem_insertionSort _).mpr ht
  · rwa [List.length_insertionSort]

/-- What a query selects comes before what it leaves. -/
theorem order_of_selected (htotal : ∀ t t', order t t' = true ∨ order t' t = true)
    (htrans : ∀ t t' t'', order t t' = true → order t' t'' = true → order t t'' = true)
    {t t' : EvaluationTicket} (ht : t ∈ candidates db selects locked)
    (hselected : t.id ∈ selectForUpdate db selects order locked limit)
    (ht' : t' ∈ candidates db selects locked)
    (hleft : t'.id ∉ selectForUpdate db selects order locked limit) :
  order t t' = true
  := by
  have : Std.Total fun t t' : EvaluationTicket => order t t' = true := ⟨htotal⟩
  have : IsTrans EvaluationTicket fun t t' => order t t' = true := ⟨htrans⟩
  set sorted := (candidates db selects locked).insertionSort fun t t' => order t t' = true
    with hsorted
  have hpairwise : sorted.Pairwise fun t t' => order t t' = true :=
    List.pairwise_insertionSort _ _
  rw [← List.take_append_drop limit sorted] at hpairwise
  apply (List.pairwise_append.mp hpairwise).2.2
  · obtain ⟨t₀, ht₀, hid⟩ := List.mem_map.mp hselected
    have hrow : t₀ ∈ candidates db selects locked :=
      (List.mem_insertionSort _).mp (List.mem_of_mem_take ht₀)
    have hsame : t₀ = t :=
      Table.eq_of_key (mem_candidates.mp hrow).1 (mem_candidates.mp ht).1 hid
    exact hsame ▸ ht₀
  · have hmem : t' ∈ sorted.take limit ++ sorted.drop limit := by
      rw [List.take_append_drop]
      exact (List.mem_insertionSort _).mpr ht'
    refine (List.mem_append.mp hmem).resolve_left fun htake => hleft ?_
    exact List.mem_map_of_mem htake

end Selected

/-! ### Claims -/

/-- The tickets that a claim returns are those that its query selects. -/
theorem claim_ids {locked : Uuid → Bool} {limit : ℕ} {workerId : String} {leaseSeconds : ℤ}
    {jobId : Option Uuid} {db db' : Db} {tickets : List EvaluationTicket}
    (h : claim locked limit workerId leaseSeconds jobId db = .ok (tickets, db')) :
  (tickets.map (·.id)).Perm (selectForUpdate db (claimable db jobId) claimOrder locked limit)
  := by
  unfold claim at h
  set ids := selectForUpdate db (claimable db jobId) claimOrder locked limit with hids
  have hnodup : ids.Nodup := nodup_selectForUpdate _ _ _ _ _
  simp only at h
  split at h
  case isTrue hnil =>
    cases h
    rw [List.isEmpty_iff.mp hnil]
    exact .refl _
  case isFalse =>
    split at h
    case isFalse => cases h
    case isTrue =>
      cases h
      apply (List.perm_ext_iff_of_nodup _ hnodup).mpr
      · intro id
        constructor
        · intro hid
          obtain ⟨t', ht', rfl⟩ := List.mem_map.mp hid
          obtain ⟨t, -, hselected, rfl⟩ := mem_taken.mp ht'
          exact hselected
        · intro hid
          obtain ⟨t, ht, rfl⟩ := exists_candidate hid
          exact List.mem_map.mpr ⟨_, mem_taken.mpr ⟨t, (mem_candidates.mp ht).1, hid, rfl⟩, rfl⟩
      · exact (takenBy ids workerId leaseSeconds db).tickets.nodup.sublist
          (List.filter_sublist.map _)

theorem claimOrder_total (t t' : EvaluationTicket) :
  claimOrder t t' = true ∨ claimOrder t' t = true
  := by
  simp only [claimOrder, Bool.or_eq_true, Bool.and_eq_true, decide_eq_true_eq]
  rcases lt_trichotomy t.priority t'.priority with hlt | heq | hgt
  · exact .inr (.inl hlt)
  · rcases le_total t.createdAt t'.createdAt with hle | hle
    · exact .inl (.inr ⟨heq, hle⟩)
    · exact .inr (.inr ⟨heq.symm, hle⟩)
  · exact .inl (.inl hgt)

theorem claimOrder_trans (t t' t'' : EvaluationTicket) (h : claimOrder t t' = true)
    (h' : claimOrder t' t'' = true) :
  claimOrder t t'' = true
  := by
  simp only [claimOrder, Bool.or_eq_true, Bool.and_eq_true, decide_eq_true_eq] at h h' ⊢
  rcases h with hlt | ⟨heq, hle⟩
  · left
    rcases h' with hlt' | ⟨heq', -⟩
    · exact hlt'.trans hlt
    · exact heq' ▸ hlt
  · rcases h' with hlt' | ⟨heq', hle'⟩
    · left
      exact heq ▸ hlt'
    · exact .inr ⟨heq.trans heq', hle.trans hle'⟩

/-- What `claim_tickets` asks for. -/
def claimLimit (settings : Settings) (limit : Option ℕ) : ℕ :=
  (limit.filter (· != 0)).getD settings.runnerClaimBatchSize

/-- The tickets that `claim_tickets` returns are those that its query selects. -/
theorem claimTickets_ids {settings : Settings} {locked : Uuid → Bool} {worker : Worker}
    {limit : Option ℕ} {leaseSeconds : Option ℤ} {jobId : Option Uuid} {db db' : Db}
    {tickets : List EvaluationTicket}
    (h : claimTickets settings locked worker limit leaseSeconds jobId db = .ok (tickets, db')) :
  (tickets.map (·.id)).Perm
    (selectForUpdate db (claimable db jobId) claimOrder locked (claimLimit settings limit))
  := by
  unfold claimTickets at h
  obtain ⟨⟨claimed, db₁⟩, hclaim, h⟩ := bind_eq_ok.mp h
  have hids := claim_ids hclaim
  simp only at h
  split at h <;> cases h <;> exact hids

/-- A claim returns no more tickets than it asks for. -/
theorem length_claimTickets_le {settings : Settings} {locked : Uuid → Bool} {worker : Worker}
    {limit : Option ℕ} {leaseSeconds : Option ℤ} {jobId : Option Uuid} {db db' : Db}
    {tickets : List EvaluationTicket}
    (h : claimTickets settings locked worker limit leaseSeconds jobId db = .ok (tickets, db')) :
  tickets.length ≤ claimLimit settings limit
  := by
  rw [← List.length_map, (claimTickets_ids h).length_eq, length_selectForUpdate]
  apply min_le_left

/-- What a claim takes, and what it leaves. -/
structure ServesFirst (claimable : EvaluationTicket → Prop) (limit : ℕ)
    (tickets : List EvaluationTicket) (db : Db) : Prop where
  taken : ∀ id ∈ tickets.map (·.id), ∃ t, db.ticket id = some t ∧ claimable t
  full : ∀ t ∈ db.tickets.rows, claimable t → t.id ∉ tickets.map (·.id) → tickets.length = limit
  order : ∀ t ∈ db.tickets.rows, t.id ∈ tickets.map (·.id) →
    ∀ t' ∈ db.tickets.rows, claimable t' → t'.id ∉ tickets.map (·.id) →
      t'.priority < t.priority ∨ t'.priority = t.priority ∧ t.createdAt ≤ t'.createdAt

/-- A claim serves the first tickets: it takes tickets that are claimable and not locked by another
transaction; it leaves one only when it has taken as many as it asks for, and then none that it has
taken has a lower priority or the same priority and a later time of creation. -/
theorem claim_serves_first {settings : Settings} {locked : Uuid → Bool} {worker : Worker}
    {limit : Option ℕ} {leaseSeconds : Option ℤ} {jobId : Option Uuid} {db db' : Db}
    {tickets : List EvaluationTicket}
    (h : claimTickets settings locked worker limit leaseSeconds jobId db = .ok (tickets, db')) :
  ServesFirst (fun t => claimable db jobId t = true ∧ locked t.id = false)
    (claimLimit settings limit) tickets db
  := by
  have hids := claimTickets_ids h
  set ids := selectForUpdate db (claimable db jobId) claimOrder locked (claimLimit settings limit)
    with hselect
  have hlength : tickets.length
      = min (claimLimit settings limit) (candidates db (claimable db jobId) locked).length := by
    rw [← length_selectForUpdate db (claimable db jobId) claimOrder locked, ← hselect,
      ← hids.length_eq, List.length_map]
  constructor
  · intro id hid
    obtain ⟨t, ht, hkey⟩ := exists_candidate (hids.subset hid)
    obtain ⟨hrow, hclaimable⟩ := mem_candidates.mp ht
    exact ⟨t, Db.ticket_eq_some.mpr ⟨hrow, hkey⟩, hclaimable⟩
  · intro t ht hclaimable hleft
    rw [hlength]
    apply min_eq_left
    by_contra hless
    rw [not_le] at hless
    -- Otherwise all candidates would have been taken.
    have hcandidate := mem_candidates.mpr ⟨ht, hclaimable⟩
    exact hleft (hids.symm.subset (selected_of_length_le hcandidate hless.le))
  · intro t ht htaken t' ht' hclaimable' hleft'
    obtain ⟨t₀, ht₀, hkey⟩ := exists_candidate (hids.subset htaken)
    have hsame : t₀ = t := Table.eq_of_key (mem_candidates.mp ht₀).1 ht hkey
    subst hsame
    have horder := order_of_selected claimOrder_total claimOrder_trans ht₀ (hids.subset htaken)
      (mem_candidates.mpr ⟨ht', hclaimable'⟩) fun hmem => hleft' (hids.symm.subset hmem)
    simp only [claimOrder, Bool.or_eq_true, Bool.and_eq_true, decide_eq_true_eq] at horder
    exact horder.imp_right fun hequal => ⟨hequal.1.symm, hequal.2⟩

namespace Demo

/-- A job with a second ticket that has a higher priority. -/
def urgentJob : PreparedJob :=
  { job with tickets := [ticket, { ticket with
      id := 11
      metricRecordId := 31
      metricId := "urgent"
      checkId := "urgent"
      priority := 5 }] }

/-- The database with this job. -/
def urgent : Db :=
  (System.after .default [.createJob urgentJob]).db

/-- The second ticket is claimed, and the first one left. -/
theorem claim_serves_first_urgent :
  ∃ tickets db', claimTickets .default (fun _ => false) worker (some 1) none none urgent
      = .ok (tickets, db')
    ∧ tickets.map (·.id) = [11]
    ∧ ServesFirst (fun t => claimable urgent none t = true ∧ (fun _ => false) t.id = false)
      (claimLimit .default (some 1)) tickets urgent
  := by
  obtain ⟨tickets, db', h, hids⟩ : ∃ tickets db', claimTickets .default (fun _ => false) worker
      (some 1) none none urgent = .ok (tickets, db') ∧ tickets.map (·.id) = [11] :=
    ⟨_, _, rfl, by decide +kernel⟩
  exact ⟨tickets, db', h, hids, claim_serves_first h⟩

end Demo

end Evalorch
