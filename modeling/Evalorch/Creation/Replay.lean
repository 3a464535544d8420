import Evalorch.Creation.Idempotency
import Evalorch.Lifecycle.Agreement
import Mathlib.Data.List.Find

/-!
# Replays

A job keeps its key, its snapshot and its counts through every later step. A later request with
the key and the body of the request that created the job is answered from the stored row alone:
with the job, the counts, the metrics and the agents of the first answer, also when the snapshot
comes back with the keys of its objects in another order.
-/

namespace Evalorch

open Python Transact

/-! ### What a job keeps -/

/-- The columns of a job that no later step writes. -/
def EvaluationJob.fixed (j : EvaluationJob) :
    Uuid × Option String × Dict × ℕ × Option String × Option String :=
  (j.id, j.datasetId, j.configSnapshotJson, j.payloadCount, j.idempotencyKey,
    j.idempotencyRequestHash)

theorem JobMove.fixed_eq {db db' : Db} {f : EvaluationTicket → EvaluationTicket} {a : Action}
    {j j' : EvaluationJob} (h : JobMove db db' f a j j') :
  j'.fixed = j.fixed
  := by
  cases h with
  | started => split <;> rfl
  | _ => rfl

/-- The job under a key stays there, with its fixed columns and its number of tickets. -/
def KeepsJobs (key : String) (db db' : Db) : Prop :=
  ∀ j, jobByKey db key = some j →
    ∃ j', jobByKey db' key = some j' ∧ j'.fixed = j.fixed ∧ j'.totalTickets = j.totalTickets

theorem keepsJobs_of_created {key : String} {p : PreparedJob} {db db' : Db}
    (h : Created p db db') :
  KeepsJobs key db db'
  := by
  intro j hj
  refine ⟨j, ?_, rfl, rfl⟩
  rw [jobByKey] at hj ⊢
  rw [h.jobs, List.find?_append, hj, Option.some_or]

theorem keepsJobs_of_change {key : String} {a : Action} {db db' : Db} (hagrees : db.agrees)
    (hagrees' : db'.agrees) (h : Change a db db') :
  KeepsJobs key db db'
  := by
  obtain ⟨f, g, h⟩ := h
  intro j hj
  have hmem : j ∈ db.jobs.rows := List.mem_of_find?_eq_some hj
  have hfixed : ∀ j ∈ db.jobs.rows, (g j).fixed = j.fixed := fun j hj => (h.jobMoves j hj).fixed_eq
  have hkey : ∀ j ∈ db.jobs.rows, (g j).idempotencyKey = j.idempotencyKey := fun j hj =>
    congrArg (·.2.2.2.2.1) (hfixed j hj)
  have hid : (g j).id = j.id := congrArg Prod.fst (hfixed j hmem)
  refine ⟨g j, ?_, hfixed j hmem, ?_⟩
  · rw [jobByKey] at hj ⊢
    rw [h.jobs, List.find?_map]
    have hfind : db.jobs.rows.find? ((fun job => decide (job.idempotencyKey = some key)) ∘ g)
        = db.jobs.rows.find? fun job => job.idempotencyKey = some key := by
      apply List.find?_congr
      intro j hj
      simp only [Function.comp_apply, hkey j hj]
    rw [hfind, hj, Option.map_some]
  · have hgj := hagrees' (g j) (h.mem_jobs.mpr ⟨j, hmem, rfl⟩)
    rw [hgj.total, (hagrees j hmem).total, hid, h.total]

/-- A job stays under its key throughout a run. -/
theorem keepsJobs_run (key : String) {settings : Settings} {s : System} (hs : s.sound)
    (hagrees : s.db.agrees) (later : List Label) :
  KeepsJobs key s.db (run (System.step settings) s later).db
  := by
  apply run_across Db.agrees (KeepsJobs key) _ _ _ _ hs hagrees
  · intro p db db' hdb hcreated
    exact ⟨agrees_of_created hdb hcreated, keepsJobs_of_created hcreated⟩
  · intro a db db' hdb hchange
    have hdb' := agrees_of_change hdb hchange
    exact ⟨hdb', keepsJobs_of_change hdb hdb' hchange⟩
  · exact fun db j hj => ⟨j, hj, rfl, rfl⟩
  · intro db db' db'' h h' j hj
    obtain ⟨j', hj', hfixed, htotal⟩ := h j hj
    obtain ⟨j'', hj'', hfixed', htotal'⟩ := h' j' hj'
    exact ⟨j'', hj'', hfixed'.trans hfixed, htotal'.trans htotal⟩

/-! ### Documents that come back -/

/-- The database as it is read, when the documents of its jobs come back as `read` has them. -/
def Db.reread (read : Dict → Dict) (db : Db) : Db :=
  db.updateJobs (fun _ => true) fun j => { j with configSnapshotJson := read j.configSnapshotJson }

/-- A document equal to a text is that text. -/
theorem eq_of_str_eq {text : String} {v : Json} (h : (Json.str text).eq v = true) :
  v = .str text
  := by
  cases v with
  | str text' =>
    rw [Json.eq, decide_eq_true_eq] at h
    rw [h]
  | _ => simp [Json.eq, Json.number?] at h

/-- The items of equal arrays are equal. -/
theorem forall₂_of_eqItems {xs ys : List Json} (h : Json.eqItems xs ys = true) :
  List.Forall₂ (fun x y => x.eq y = true) xs ys
  := by
  induction xs generalizing ys with
  | nil =>
    cases ys with
    | nil => exact .nil
    | cons y ys => simp [Json.eqItems] at h
  | cons x xs ih =>
    cases ys with
    | nil => simp [Json.eqItems] at h
    | cons y ys =>
      rw [Json.eqItems, Bool.and_eq_true] at h
      exact .cons h.1 (ih h.2)

/-- A document equal to an array is an array of equal items. -/
theorem forall₂_of_list_eq {xs : List Json} {v : Json} (h : (Json.list xs).eq v = true) :
  List.Forall₂ (fun x y => x.eq y = true) xs (itemsOf v)
  := by
  cases v with
  | list ys =>
    rw [Json.eq] at h
    apply forall₂_of_eqItems h
  | _ => simp [Json.eq, Json.number?] at h

/-- The fields of an object are those of any equal one. -/
theorem lookup_of_eqFields {fields fields' : Dict} (h : Json.eqFields fields fields' = true)
    {key : String} {x : Json} (hx : (key, x) ∈ fields) :
  ∃ y, fields'.lookup key = some y ∧ x.eq y = true
  := by
  induction fields with
  | nil => simp at hx
  | cons field fields ih =>
    obtain ⟨name, value⟩ := field
    rw [Json.eqFields] at h
    cases hlookup : fields'.lookup name with
    | none => simp [hlookup] at h
    | some y =>
      simp only [hlookup, Bool.and_eq_true] at h
      rcases List.mem_cons.mp hx with heq | hmem
      · obtain ⟨rfl, rfl⟩ := Prod.mk.inj heq
        exact ⟨y, hlookup, h.1⟩
      · apply ih h.2 hmem

/-- A document equal to an object has equal fields, and as many of them. -/
theorem fields_of_dict_eq {fields : Dict} {v : Json} (h : (Json.dict fields).eq v = true) :
  (fieldsOf v).length = fields.length
    ∧ ∀ key x, (key, x) ∈ fields → ∃ y, (fieldsOf v).lookup key = some y ∧ x.eq y = true
  := by
  cases v with
  | dict fields' =>
    rw [Json.eq, Bool.and_eq_true, decide_eq_true_eq] at h
    exact ⟨h.1.symm, fun key x hx => lookup_of_eqFields h.2 hx⟩
  | _ => simp [Json.eq, Json.number?] at h

/-- A field of a document equal to an object. -/
theorem get_of_dict_eq {fields : Dict} {v : Json} (h : (Json.dict fields).eq v = true)
    (key : String) {x : Json} (hx : (key, x) ∈ fields) :
  x.eq ((fieldsOf v).get key) = true
  := by
  obtain ⟨y, hlookup, heq⟩ := (fields_of_dict_eq h).2 key x hx
  rw [Dict.get, hlookup]
  exact heq

/-- An object equal to one with one field has that field only. -/
theorem fieldsOf_singleton_eq {key : String} {x v : Json}
    (h : (Json.dict [(key, x)]).eq v = true) :
  ∃ y, fieldsOf v = [(key, y)] ∧ x.eq y = true
  := by
  obtain ⟨hlength, hfields⟩ := fields_of_dict_eq h
  obtain ⟨y, hlookup, heq⟩ := hfields key x (List.mem_singleton.mpr rfl)
  obtain ⟨⟨key', y'⟩, hsingleton⟩ := List.length_eq_one_iff.mp hlength
  rw [hsingleton, List.lookup_cons] at hlookup
  cases hkey : key == key' with
  | true =>
    rw [hkey] at hlookup
    obtain rfl := eq_of_beq hkey
    obtain rfl := Option.some.inj hlookup
    exact ⟨y', hsingleton, heq⟩
  | false => simp [hkey] at hlookup

/-! ### Counts and names -/

/-- Counting one name many times. -/
theorem foldl_addCount_replicate (name : String) (weight : String → ℕ) (n : ℕ) :
  (List.replicate (n + 1) name).foldl (fun counts x => addCount x (weight x) counts) []
    = [(name, (n + 1) * weight name)]
  := by
  have hstep : ∀ n m, (List.replicate n name).foldl
      (fun counts x => addCount x (weight x) counts) [(name, m)]
        = [(name, m + n * weight name)] := by
    intro n
    induction n with
    | zero => simp
    | succ n ih =>
      intro m
      rw [List.replicate_succ, List.foldl_cons]
      simp only [addCount, if_true]
      rw [ih]
      congr 2
      ring
  rw [List.replicate_succ, List.foldl_cons, addCount, hstep]
  congr 2
  ring

/-- Names that are listed again and again are listed once. -/
theorem eraseDups_flatMap_const {α : Type} (names : List String) {xs : List α} (hne : xs ≠ []) :
  (xs.flatMap fun _ => names).eraseDups = names.eraseDups
  := by
  cases xs with
  | nil => exact absurd rfl hne
  | cons x xs =>
    rw [List.flatMap_cons, List.eraseDups_append]
    have hnone : (xs.flatMap fun _ => names).removeAll names = [] := by
      rw [List.removeAll, List.filter_eq_nil_iff]
      intro name hname
      obtain ⟨_, -, hmem⟩ := List.mem_flatMap.mp hname
      simp [hmem]
    rw [hnone, List.eraseDups_nil, List.append_nil]

/-! ### The agent of a job -/

variable {e : Surroundings} {request request' : CreateRequest} {drawn drawn' : Drawn}

/-- The agents that are known after the loop over the payloads are different, and each was
known before or is that of a payload. -/
theorem preparePayloads_agents {config : Dict} {i : ℕ} {known : List (String × List FrozenMetric)}
    {files : List PayloadFile} {preparation : Preparation} (hnodup : (known.map Prod.fst).Nodup)
    (h : preparePayloads e drawn config i known files = .ok preparation) :
  (preparation.metricsByAgent.map Prod.fst).Nodup
    ∧ ∀ agentId ∈ preparation.metricsByAgent.map Prod.fst,
      agentId ∈ known.map Prod.fst ∨ ∃ p ∈ preparation.prepared, p.agentId = agentId
  := by
  induction files generalizing i known preparation with
  | nil =>
    cases h
    exact ⟨hnodup, fun _ h => .inl h⟩
  | cons file files ih =>
    obtain ⟨⟨warnings, agentId, frozen, known'⟩, hfile, h⟩ := bind_eq_ok.mp h
    obtain ⟨rest, hrest, h⟩ := bind_eq_ok.mp h
    cases h
    obtain ⟨report, -, hfile⟩ := bind_eq_ok.mp (wrapping_eq_ok.mp hfile)
    obtain ⟨agentId', -, hfile⟩ := bind_eq_ok.mp hfile
    obtain ⟨⟨frozen', known''⟩, hselected, hfile⟩ := bind_eq_ok.mp hfile
    cases hfile
    have hknown : (known'.map Prod.fst).Nodup
        ∧ ∀ other ∈ known'.map Prod.fst, other ∈ known.map Prod.fst ∨ agentId = other := by
      rw [selectMetrics] at hselected
      split at hselected
      case h_1 =>
        cases hselected
        exact ⟨hnodup, fun _ h => .inl h⟩
      case h_2 hnone =>
        obtain ⟨metrics, -, hselected⟩ := bind_eq_ok.mp hselected
        cases hselected
        have hfresh : agentId ∉ known.map Prod.fst := by
          intro hmem
          obtain ⟨entry, hentry, heq⟩ := List.mem_map.mp hmem
          have hne := List.lookup_eq_none_iff.mp hnone entry hentry
          simp [heq] at hne
        rw [List.map_append]
        constructor
        · apply List.Nodup.append hnodup (List.nodup_singleton _)
          simpa using hfresh
        · intro other hother
          rcases List.mem_append.mp hother with hother | hother
          · exact .inl hother
          · exact .inr (by simpa using Eq.symm (List.mem_singleton.mp hother))
    obtain ⟨hnodup', hagents⟩ := ih hknown.1 hrest
    use hnodup'
    intro other hother
    rcases hagents other hother with hother | ⟨p, hp, hother⟩
    · rcases hknown.2 other hother with hother | hother
      · exact .inl hother
      · exact .inr ⟨_, List.mem_cons_self, hother⟩
    · exact .inr ⟨p, List.mem_cons_of_mem _ hp, hother⟩

/-- A list of entries with different keys that has one key only has one entry. -/
theorem eq_singleton_of_keys {α : Type} {entries : List (String × α)} {key : String} {a : α}
    (hnodup : (entries.map Prod.fst).Nodup) (hkeys : ∀ k ∈ entries.map Prod.fst, k = key)
    (h : entries.lookup key = some a) :
  entries = [(key, a)]
  := by
  cases entries with
  | nil => simp at h
  | cons entry entries =>
    obtain ⟨k, v⟩ := entry
    obtain rfl : k = key := hkeys k (by simp)
    obtain rfl : v = a := by simpa using h
    cases entries with
    | nil => rfl
    | cons entry entries =>
      have hsame := hkeys entry.1 (by simp)
      simp [hsame] at hnodup

/-- All payloads of a job have one agent, and there is a metric and a payload. -/
structure OneAgent (preparation : Preparation) (agentId : String) (frozen : List FrozenMetric) :
    Prop where
  named : agentId ≠ ""
  metricsByAgent : preparation.metricsByAgent = [(agentId, frozen)]
  prepared : ∀ p ∈ preparation.prepared, p.agentId = agentId ∧ p.metrics = frozen
  payloads_ne : preparation.prepared ≠ []
  metrics_ne : frozen ≠ []
  checkIds_ne : ∀ m ∈ frozen, m.definition.checkId ≠ ""

/-- The agent of a payload has a name. -/
theorem extractAgentId_ne_empty {payload : Dict} {source agentId : String}
    (h : extractAgentId payload source = .ok agentId) :
  agentId ≠ ""
  := by
  rw [extractAgentId.eq_def] at h
  split at h
  · cases h
  · split at h
    · cases h
    · split at h
      · cases h
      · cases h
        assumption
    · cases h
  · cases h

/-- A job that is created has one agent. -/
theorem oneAgent_of_prepareJob {folder : DatasetFolderContents} {preparation : Preparation}
    {key : Option String} (h : prepareJob e request drawn = .ok (folder, preparation))
    (htickets : (preparedJob e request key drawn preparation).tickets ≠ []) :
  ∃ agentId frozen, OneAgent preparation agentId frozen
  := by
  obtain ⟨entries, config, metrics, agentId, frozen, hof⟩ := prepareJob_ok h
  obtain ⟨folder', -, h⟩ := bind_eq_ok.mp h
  obtain ⟨preparation', hpreparation, h⟩ := bind_eq_ok.mp h
  cases h
  obtain ⟨-, hprepared, -, -⟩ := preparePayloads_ok (fun _ _ h => by cases h) hpreparation
  obtain ⟨hnodup, hagents⟩ := preparePayloads_agents (by simp) hpreparation
  have hpayloads : preparation.prepared ≠ [] := by
    rintro hnil
    simp [preparedJob, hnil] at htickets
  have hmetrics : frozen ≠ [] := by
    rintro rfl
    apply htickets
    rw [preparedJob, List.flatMap_eq_nil_iff]
    intro p hp
    have hmem : p.1 ∈ preparation.prepared := List.fst_mem_of_mem_zipIdx hp
    simp [payloadTickets, (hof.payloads p.1 hmem).2.2.2]
  obtain ⟨p, hp⟩ := List.exists_mem_of_ne_nil _ hpayloads
  obtain ⟨-, hagent, hagentId, hfrozen⟩ := hof.payloads p hp
  use agentId, frozen
  constructor
  case named => apply extractAgentId_ne_empty hagent
  case metricsByAgent =>
    apply eq_singleton_of_keys hnodup
    · intro k hk
      rcases hagents k hk with hk | ⟨q, hq, rfl⟩
      · simp at hk
      · apply (hof.payloads q hq).2.2.1
    · rw [← hagentId, ← hfrozen]
      apply (hprepared p hp).metrics
  case prepared => exact fun q hq => (hof.payloads q hq).2.2
  case payloads_ne => exact hpayloads
  case metrics_ne => exact hmetrics
  case checkIds_ne =>
    intro m hm
    obtain ⟨_, -, hconfigured⟩ := Python.exists_rel_of_forall₂ hof.configuredMetrics hm
    exact hconfigured.named

/-! ### The answer from the snapshot -/

section Snapshot

variable {preparation : Preparation} {agentId : String} {frozen : List FrozenMetric}

/-- What the tickets of a job of one agent say of their metric and their agent. -/
theorem tickets_of_oneAgent (h : OneAgent preparation agentId frozen) (key : Option String) :
  (preparedJob e request key drawn preparation).tickets.map PreparedTicket.agentId
      = List.replicate (preparation.prepared.length * frozen.length) agentId
    ∧ (preparedJob e request key drawn preparation).tickets.map PreparedTicket.metricId
      = preparation.prepared.flatMap fun _ => frozen.map fun m => m.definition.checkId
  := by
  constructor
  · rw [map_preparedTickets (g := fun p _ => p.agentId) (fun _ _ _ => rfl), List.eq_replicate_iff]
    constructor
    · rw [List.length_flatMap, List.map_congr_left (g := fun _ => frozen.length)]
      · simp
      · intro p hp
        rw [List.length_map, (h.prepared p hp).2]
    · intro other hother
      obtain ⟨p, hp, hother⟩ := List.mem_flatMap.mp hother
      obtain ⟨_, -, rfl⟩ := List.mem_map.mp hother
      exact (h.prepared p hp).1
  · rw [map_preparedTickets (g := fun _ m => m.definition.checkId) (fun _ _ _ => rfl)]
    apply List.flatMap_congr
    intro p hp
    rw [(h.prepared p hp).2]

/-- The agents that a stored snapshot lists. -/
theorem read_agents (h : OneAgent preparation agentId frozen) {datasetId : String} {read : Dict}
    (hread : (Json.dict (snapshotDoc e datasetId preparation)).eq (.dict read) = true) :
  ∃ stored, fieldsOf (read.get "agents") = [(agentId, stored)]
    ∧ List.Forall₂ (fun x y => x.eq y = true) (frozen.map (listedMetric e))
      (snapshotMetrics stored)
  := by
  have hagents : (Json.dict [(agentId, .dict [("metrics",
      .list (frozen.map (listedMetric e)))])]).eq (read.get "agents") = true := by
    have hget := get_of_dict_eq hread "agents"
      (List.mem_cons_of_mem _ (List.mem_cons_of_mem _ List.mem_cons_self))
    rw [h.metricsByAgent] at hget
    exact hget
  obtain ⟨stored, hstored, heq⟩ := fieldsOf_singleton_eq hagents
  refine ⟨stored, hstored, ?_⟩
  apply forall₂_of_list_eq
  apply get_of_dict_eq heq "metrics" (List.mem_singleton.mpr rfl)

/-- The metrics that a stored snapshot lists have the identifiers of the frozen ones. -/
theorem read_metricIds {metrics : List Json} (hne : ∀ m ∈ frozen, m.definition.checkId ≠ "")
    (h : List.Forall₂ (fun x y => x.eq y = true) (frozen.map (listedMetric e)) metrics) :
  metrics.filterMap (fun metric => textOf ((fieldsOf metric).get "metric_id"))
    = frozen.map fun m => m.definition.checkId
  := by
  induction frozen generalizing metrics with
  | nil =>
    cases h
    rfl
  | cons m frozen ih =>
    obtain ⟨hm, hrest⟩ := List.forall_mem_cons.mp hne
    cases h with
    | cons heq hmetrics =>
      have hget := get_of_dict_eq heq "metric_id" (x := .str m.definition.checkId) (by simp)
      rw [List.filterMap_cons, eq_of_str_eq hget, textOf, if_neg hm, List.map_cons,
        ih hrest hmetrics]

/-- The payloads that a stored snapshot lists have the agent of the prepared ones. -/
theorem read_payloads (h : OneAgent preparation agentId frozen) {datasetId : String}
    {read : Dict}
    (hread : (Json.dict (snapshotDoc e datasetId preparation)).eq (.dict read) = true) :
  (itemsOf (read.get "payloads")).filterMap
      (fun payload => textOf ((fieldsOf payload).get "agent_id"))
    = List.replicate preparation.prepared.length agentId
  := by
  have hlist := forall₂_of_list_eq (get_of_dict_eq hread "payloads"
    (List.mem_cons_of_mem _ List.mem_cons_self))
  have hprepared := h.prepared
  revert hlist hprepared
  change List.Forall₂ _ _ (itemsOf (read.get "payloads")) → _
  generalize itemsOf (read.get "payloads") = payloads
  generalize preparation.prepared = prepared
  intro hlist hprepared
  induction prepared generalizing payloads with
  | nil =>
    cases hlist
    rfl
  | cons p prepared ih =>
    obtain ⟨hp, hrest⟩ := List.forall_mem_cons.mp hprepared
    cases hlist with
    | cons heq hlist =>
      have hget := get_of_dict_eq heq "agent_id" (x := .str p.agentId) (by simp)
      rw [List.filterMap_cons, eq_of_str_eq hget, textOf, hp.1, if_neg h.named, ih _ hlist hrest,
        List.length_cons, List.replicate_succ]

end Snapshot

/-- What a job that was created is reported as, and its row. -/
structure CreatedAs (e : Surroundings) (request : CreateRequest) (key : String)
    (result : JobCreationResult) (db db' : Db) : Prop where
  free : jobByKey db key = none
  row : db'.jobs.rows = db.jobs.rows ++ [result.job]
  created : ∃ p, Created p db db'
  job : ∃ drawn folder preparation agentId frozen, OneAgent preparation agentId frozen
    ∧ result.job = (preparedJob e request (some key) drawn preparation).readyRow db.now
    ∧ result = createdResult request folder preparation
      (preparedJob e request (some key) drawn preparation) result.job

/-- A request with a key that creates a job. -/
theorem createdAs_of_createJob {key : String} {db db' : Db} {result : JobCreationResult}
    (hcarries : Carries request key)
    (h : createJob e request drawn db = .ok (result, db')) (hnew : result.replayed = false) :
  CreatedAs e request key result db db' ∧ requireKey e.settings request = .ok (some key)
  := by
  obtain ⟨key', hkey, h⟩ := bind_eq_ok.mp h
  obtain rfl : some key = key' := hcarries.symm.trans (requireKey_ok hkey)
  refine ⟨?_, hkey⟩
  cases hfound : jobByKey db key with
  | some job =>
    simp only [Option.bind_some, hfound] at h
    obtain ⟨replay, hreplay, h⟩ := bind_eq_ok.mp h
    cases h
    rw [resultForExistingJob] at hreplay
    split at hreplay
    case isTrue => cases hreplay
    case isFalse =>
      cases hreplay
      cases hnew
  | none =>
    simp only [Option.bind_some, hfound] at h
    obtain ⟨⟨folder, preparation⟩, hprepare, h⟩ := bind_eq_ok.mp h
    obtain ⟨⟨job, db₁⟩, hstore, h⟩ := bind_eq_ok.mp h
    cases h
    have hcreated := created_of_storeJob hstore
    have hjob := storeJob_job hstore
    obtain ⟨agentId, frozen, hone⟩ := oneAgent_of_prepareJob hprepare hcreated.tickets_ne
    constructor
    case free => exact hfound
    case row =>
      rw [hcreated.jobs, ← hjob]
      rfl
    case created => exact ⟨_, hcreated⟩
    case job => exact ⟨drawn, folder, preparation, agentId, frozen, hone, hjob, rfl⟩

/-- The job that was created is found under its key. -/
theorem CreatedAs.jobByKey {key : String} {db db' : Db} {result : JobCreationResult}
    (h : CreatedAs e request key result db db') :
  Evalorch.jobByKey db' key = some result.job
  := by
  obtain ⟨drawn, folder, preparation, agentId, frozen, -, hjob, -⟩ := h.job
  have hfree := h.free
  rw [Evalorch.jobByKey] at hfree ⊢
  rw [h.row, List.find?_append, hfree, Option.none_or]
  simp [hjob, PreparedJob.readyRow, PreparedJob.job, preparedJob]

/-- The row of a job that is read later, with its snapshot as it comes back. -/
theorem jobByKey_reread {key : String} {db : Db} {read : Dict → Dict} {j : EvaluationJob}
    (h : jobByKey db key = some j) :
  jobByKey (db.reread read) key
    = some { j with configSnapshotJson := read j.configSnapshotJson }
  := by
  have hrows : (db.reread read).jobs.rows
      = db.jobs.rows.map fun j => { j with configSnapshotJson := read j.configSnapshotJson } := by
    simp [Db.reread, Db.updateJobs, patch]
  rw [jobByKey] at h ⊢
  rw [hrows, List.find?_map]
  have hfind : db.jobs.rows.find? ((fun job => decide (job.idempotencyKey = some key))
      ∘ fun j => { j with configSnapshotJson := read j.configSnapshotJson })
        = db.jobs.rows.find? fun job => job.idempotencyKey = some key := rfl
  rw [hfind, h, Option.map_some]

/-- A later request is answered with what the first answer said. -/
structure SameStory (result replay : JobCreationResult) : Prop where
  job : replay.job.id = result.job.id
  ticketCount : replay.ticketCount = result.ticketCount
  payloadCount : replay.payloadCount = result.payloadCount
  datasetId : replay.datasetId = result.datasetId
  metricIds : replay.metricIds = result.metricIds
  profiles : replay.profiles = result.profiles
  byAgent : replay.byAgent = result.byAgent
  replayed : replay.replayed = true

/-- Counting the metrics of each payload counts the tickets. -/
theorem byAgent_same {preparation : Preparation} {agentId : String} {frozen : List FrozenMetric}
    (h : OneAgent preparation agentId frozen) {tickets : List PreparedTicket}
    (htickets : tickets.map PreparedTicket.agentId
      = List.replicate (preparation.prepared.length * frozen.length) agentId) {stored : Json}
    (hmetrics : (snapshotMetrics stored).length = frozen.length) :
  (List.replicate preparation.prepared.length agentId).foldl (fun counts agentId' =>
      addCount agentId' (snapshotMetrics (Dict.get [(agentId, stored)] agentId')).length counts) []
    = tickets.foldl (fun counts t => addCount t.agentId 1 counts) []
  := by
  have hpayloads : preparation.prepared.length ≠ 0 := by simpa using h.payloads_ne
  have hfrozen : frozen.length ≠ 0 := by simpa using h.metrics_ne
  obtain ⟨n, hn⟩ := Nat.exists_eq_succ_of_ne_zero hpayloads
  obtain ⟨m, hm⟩ := Nat.exists_eq_succ_of_ne_zero (Nat.mul_ne_zero hpayloads hfrozen)
  calc _ = [(agentId, (n + 1) * (snapshotMetrics (Dict.get [(agentId, stored)] agentId)).length)] :=
        by
        rw [hn]
        apply foldl_addCount_replicate agentId
          (fun agentId' => (snapshotMetrics (Dict.get [(agentId, stored)] agentId')).length)
    _ = [(agentId, (m + 1) * 1)] := by
        rw [show Dict.get [(agentId, stored)] agentId = stored by simp [Dict.get], hmetrics,
          Nat.mul_one, ← Nat.succ_eq_add_one m, ← hm, ← Nat.succ_eq_add_one n, ← hn]
    _ = (tickets.map PreparedTicket.agentId).foldl (fun counts x => addCount x 1 counts) [] := by
        rw [htickets, hm]
        exact (foldl_addCount_replicate agentId (fun _ => 1) m).symm
    _ = _ := by rw [List.foldl_map]

/-- The row of a job of one agent is answered with what the creation of the job was. -/
theorem resultForExistingJob_same {key : String} {db db' : Db} {result : JobCreationResult}
    (h : CreatedAs e request key result db db') (now : Db) {j : EvaluationJob} {read : Dict}
    (hfixed : j.fixed = result.job.fixed) (htotal : j.totalTickets = result.job.totalTickets)
    (hread : (Json.dict result.job.configSnapshotJson).eq (.dict read) = true) :
  ∃ replay, resultForExistingJob now { j with configSnapshotJson := read }
      j.idempotencyRequestHash (e.digest request.body) = .ok replay
    ∧ SameStory result replay
  := by
  obtain ⟨drawn, folder, preparation, agentId, frozen, hone, hjob, hresult⟩ := h.job
  simp only [EvaluationJob.fixed, Prod.mk.injEq] at hfixed
  obtain ⟨hid, hdataset, -, hpayloads, -, hhash⟩ := hfixed
  have hsnapshot : result.job.configSnapshotJson = snapshotDoc e request.datasetId preparation := by
    rw [hjob]
    rfl
  rw [hsnapshot] at hread
  obtain ⟨stored, hagents, hmetrics⟩ := read_agents hone hread
  obtain ⟨hagentIds, hmetricIds⟩ := @tickets_of_oneAgent e request drawn preparation agentId frozen
    hone (some key)
  have hstored : j.idempotencyRequestHash = some (e.digest request.body) := by
    rw [hhash, hjob]
    rfl
  rw [resultForExistingJob, if_neg (not_not.mpr hstored)]
  refine ⟨_, rfl, ?_⟩
  rw [hresult]
  constructor
  case job => exact hid
  case ticketCount =>
    change j.totalTickets = _
    rw [htotal, hjob]
    rfl
  case payloadCount =>
    change j.payloadCount = _
    rw [hpayloads, hjob]
    rfl
  case datasetId =>
    change j.datasetId.getD "" = _
    rw [hdataset, hjob]
    rfl
  case metricIds =>
    simp only [createdResult, hagents, List.flatMap_cons, List.flatMap_nil, List.append_nil]
    rw [read_metricIds hone.checkIds_ne hmetrics, hmetricIds,
      eraseDups_flatMap_const _ hone.payloads_ne]
  case profiles => simp [createdResult, hagents, hone.metricsByAgent]
  case byAgent =>
    simp only [createdResult, hagents]
    rw [read_payloads hone hread]
    apply byAgent_same hone hagentIds
    rw [← hmetrics.length_eq, List.length_map]
  case replayed => rfl

/-- A replay tells the same story. After a request with a key created a job, and whatever steps
followed, a request with the same key and body is answered as the first one was and changes
nothing, whatever the folders then hold and whatever order the keys of the snapshot come back
in. -/
theorem replay_same_story {settings : Settings} {before : List Label} {key : String}
    {result : JobCreationResult} {db : Db} {read : Dict → Dict} (hcarries : Carries request key)
    (hcarries' : Carries request' key) (hbody : request'.body = request.body)
    (h : createJob e request drawn (System.after settings before).db = .ok (result, db))
    (hnew : result.replayed = false)
    (hread : (Json.dict result.job.configSnapshotJson).eq
      (.dict (read result.job.configSnapshotJson)) = true) (later : List Label) (files : Files) :
  ∃ replay, createJob { e with files := files } request' drawn'
      ((run (System.step settings) { System.after settings before with db := db } later).db.reread
        read)
      = .ok (replay, (run (System.step settings) { System.after settings before with db := db }
        later).db.reread read)
    ∧ SameStory result replay
  := by
  obtain ⟨hcreated, hkey⟩ := createdAs_of_createJob hcarries h hnew
  obtain ⟨p, hp⟩ := hcreated.created
  have hsound : System.sound { System.after settings before with db := db } := by
    intro r hr
    apply (sound_after settings before r hr).of_keepsTickets
    apply keepsTickets_of_created hp
  have hagrees : db.agrees := agrees_of_created (agrees_after settings before) hp
  obtain ⟨j, hj, hfixed, htotal⟩ := keepsJobs_run key hsound hagrees later _ hcreated.jobByKey
  have hfound := @jobByKey_reread key _ read j hj
  generalize ((run (System.step settings) { System.after settings before with db := db }
    later).db.reread read) = db' at hfound ⊢
  have hsnapshot : j.configSnapshotJson = result.job.configSnapshotJson :=
    congrArg (·.2.2.1) hfixed
  rw [hsnapshot] at hfound
  obtain ⟨replay, hreplay, hsame⟩ :=
    resultForExistingJob_same hcreated db' hfixed htotal hread
  refine ⟨replay, ?_, hsame⟩
  rw [createJob, ← requireKey_of_carries hcarries hcarries', hkey]
  simp only [bind, Except.bind, Option.bind_some, hfound, hbody]
  rw [hreplay]

theorem replay_same_story_demo :
  ∃ result db replay,
    createJob Demo.surroundings (Demo.createRequest (some "key")) Demo.rowIds Db.empty
      = .ok (result, db)
    ∧ createJob { Demo.surroundings with files := fun _ => .absent }
        (Demo.createRequest (some " key ")) Demo.rowIds
        ((run (System.step .default) { System.initial with db := db } [.cancelJob 0]).db.reread
          List.reverse)
      = .ok (replay, (run (System.step .default) { System.initial with db := db }
        [.cancelJob 0]).db.reread List.reverse)
    ∧ SameStory result replay
  := by
  have hcreated : ((createJob Demo.surroundings (Demo.createRequest (some "key")) Demo.rowIds
      Db.empty).toOption.map fun r => (r.1.replayed,
        (Json.dict r.1.job.configSnapshotJson).eq (.dict r.1.job.configSnapshotJson.reverse)))
      = some (false, true) := by decide +kernel
  cases h : createJob Demo.surroundings (Demo.createRequest (some "key")) Demo.rowIds Db.empty with
  | error exn => simp [h, Except.toOption] at hcreated
  | ok r =>
    obtain ⟨result, db⟩ := r
    simp only [h, Except.toOption, Option.map_some, Option.some.injEq, Prod.mk.injEq] at hcreated
    obtain ⟨replay, hreplay, hsame⟩ := @replay_same_story Demo.surroundings
      (Demo.createRequest (some "key")) (Demo.createRequest (some " key ")) Demo.rowIds Demo.rowIds
      .default [] "key" result db List.reverse (by rw [Carries]; decide +kernel)
      (by rw [Carries]; decide +kernel) rfl h hcreated.1 hcreated.2 [.cancelJob 0]
      (fun _ => .absent)
    exact ⟨result, db, replay, rfl, hreplay, hsame⟩

end Evalorch
