import Evalorch.Evaluators.Deterministic.RequiredFields
import Evalorch.Python.Raising
import Evalorch.Verdicts.Order
import Mathlib.Tactic.Push
import Mathlib.Tactic.Tauto

/-!
# Required fields without a list

A check of required fields without a list of fields looks at the keys that resolved, and reads a
key with a dot as a path. So a key that did not resolve is not missed, and a key with a dot is
looked for in the value of another key.
-/

namespace Evalorch

open Evaluator

namespace RequiredFields

variable {b : Builtins}

/-! ### The verdict -/

/-- The key has a value that is not empty. -/
def Filled (values : Dict) (key : String) : Prop :=
  ∃ value, values.lookup key = some value ∧ isEmpty value = false

/-- The field, read as a key and a path, leads to a value that is not empty. -/
def LeadsToValue (b : Builtins) (values : Dict) (field : String) : Prop :=
  ∃ value, fieldValue b values field = some (.ok (some value)) ∧ isEmpty value = false

/-- A field is not missing when it leads to a value. -/
theorem missingReason_eq_none_iff {values : Dict} {field : String} :
  missingReason b values false field = .ok none ↔ LeadsToValue b values field
  := by
  unfold missingReason LeadsToValue
  cases fieldValue b values field with
  | none => simp
  | some found =>
    cases found with
    | error e => simp [Except.map]
    | ok value? => cases value? <;> simp [Except.map]

/-- A key without a dot is not read as a path. -/
theorem leadsToValue_iff_filled {values : Dict} {key : String} (h : '.' ∉ key.toList) :
  LeadsToValue b values key ↔ Filled values key
  := by
  simp only [LeadsToValue, Filled, fieldValue, Python.partition_of_not_mem h, if_true]
  cases values.lookup key <;> simp

/-- A property of the elements of a list is one of the elements related to them. -/
theorem forall_iff_of_forall₂ {α β : Type} {R : α → β → Prop} {p : α → Prop} {q : β → Prop}
    (hpq : ∀ x y, R x y → (p x ↔ q y)) {l : List α} {l' : List β} (h : List.Forall₂ R l l') :
  (∀ x ∈ l, p x) ↔ ∀ y ∈ l', q y
  := by
  induction h with
  | nil => simp
  | cons hxy _ ih => rw [List.forall_mem_cons, List.forall_mem_cons, hpq _ _ hxy, ih]

/-- The check passes when none of its fields is missing. -/
theorem passes_evaluate {input config params : Dict} {context : ExecutionContext}
    {fields : List Json} (hparams : paramsOf config = .ok params)
    (hfields : fieldsOf input params = .ok fields)
    (hempty : ((params.lookup "allow_empty").getD (.bool false)).truthy = false) :
  Passes (evaluate b input config context)
    ↔ ∀ field ∈ fields, LeadsToValue b input (b.str field)
  := by
  simp only [evaluate, hparams, hfields, hempty, bind, Except.bind]
  cases hchecked : fields.mapM (m := Except Exn) fun field =>
      (missingReason b input false (b.str field)).map fun reason => (field, reason) with
  | error e =>
    constructor
    · rintro ⟨output, houtput, -⟩
      cases houtput
    · intro hleads
      rw [Python.mapM_eq_ok_map (g := fun field => (field, none))] at hchecked
      · cases hchecked
      · intro field hfield
        rw [missingReason_eq_none_iff.mpr (hleads field hfield)]
        rfl
  | ok checked =>
    rw [passes_outcome, List.isEmpty_iff, List.filterMap_eq_nil_iff]
    symm
    apply forall_iff_of_forall₂ _ (Python.forall₂_of_mapM hchecked)
    intro field c hc
    rw [← missingReason_eq_none_iff]
    cases hreason : missingReason b input false (b.str field) with
    | error e => simp [hreason, Except.map] at hc
    | ok reason =>
      simp only [hreason, Except.map, Except.ok.injEq] at hc
      simp [← hc]

/-! ### The keys that resolve -/

/-- A key with a value is one of the keys. -/
theorem mem_keys_of_lookup {fields : Dict} {key : String} {value : Json}
    (h : fields.lookup key = some value) :
  key ∈ fields.map Prod.fst
  := by
  obtain ⟨before, after, heq, -⟩ := List.lookup_eq_some_iff.mp h
  rw [heq]
  simp

/-- The keys of a dictionary in which a key was set. -/
theorem keys_set (fields : Dict) (key : String) (value : Json) :
  (fields.set key value).map Prod.fst ⊆ key :: fields.map Prod.fst
  := by
  induction fields with
  | nil => simp [Dict.set]
  | cons field rest ih =>
    rw [Dict.set]
    split
    · apply List.subset_cons_self
    · rw [List.map_cons, List.map_cons]
      apply List.cons_subset.mpr
      constructor
      · simp
      · intro k hk
        rcases List.mem_cons.mp (ih hk) with rfl | hk
        · exact List.mem_cons_self
        · exact List.mem_cons_of_mem _ (List.mem_cons_of_mem _ hk)

/-- The keys of the values with those of one more entry. -/
theorem keys_record {resolved : ResolvedInput} {key : String} {outcome : EntryOutcome}
    {keys : List String} (hkey : key ∈ keys) (h : resolved.values.map Prod.fst ⊆ keys) :
  (resolved.record key outcome).values.map Prod.fst ⊆ keys
  := by
  rw [ResolvedInput.record]
  cases outcome.value with
  | none => exact h
  | some value => exact List.Subset.trans (keys_set _ _ _) (List.cons_subset.mpr ⟨hkey, h⟩)

/-- The keys that are recorded are those of the entries. -/
theorem keys_of_loop {payload : Dict} {allowNull : Bool} {keys : List String} {entries : Dict}
    {start resolved : ResolvedInput} (hentries : entries.map Prod.fst ⊆ keys)
    (hstart : start.values.map Prod.fst ⊆ keys)
    (h : entries.foldlM (m := Except Exn) (fun resolved entry => do
      let outcome ← resolveEntry b payload allowNull entry.1 entry.2
      .ok (resolved.record entry.1 outcome)) start = .ok resolved) :
  resolved.values.map Prod.fst ⊆ keys
  := by
  induction entries generalizing start with
  | nil =>
    cases h
    exact hstart
  | cons entry entries ih =>
    obtain ⟨hentry, hentries⟩ := List.cons_subset.mp hentries
    rw [List.foldlM_cons] at h
    obtain ⟨next, hnext, h⟩ := Transact.bind_eq_ok.mp h
    obtain ⟨outcome, -, hrecord⟩ := Transact.bind_eq_ok.mp hnext
    cases hrecord
    exact ih hentries (keys_record hentry hstart) h

/-- Only keys of the mapping resolve. -/
theorem key_of_resolved {payload mapping : Dict} {allowNull : Bool} {resolved : ResolvedInput}
    (h : resolveInputMapping b payload (.dict mapping) allowNull = .ok resolved) :
  resolved.values.map Prod.fst ⊆ mapping.map Prod.fst
  := by
  rw [resolveInputMapping] at h
  split at h
  · cases h
    apply List.nil_subset
  · apply keys_of_loop (List.Subset.refl _) (List.nil_subset _) h

/-- A check without a list of fields passes exactly when every key of the mapping has a value that
is not empty, under one of these conditions: a key without a dot has an empty value; or every key
resolved, and the keys with a dot lead to values as paths when they have values; or some key did
not resolve, and some key with a dot does not lead to a value as a path. -/
theorem required_fields_iff {payload mapping config params : Dict} {allowNull : Bool}
    {resolved : ResolvedInput} {context : ExecutionContext}
    (hresolved : resolveInputMapping b payload (.dict mapping) allowNull = .ok resolved)
    (hparams : paramsOf config = .ok params) (hfields : (params.get "fields").truthy = false)
    (hempty : ((params.lookup "allow_empty").getD (.bool false)).truthy = false) :
  (Passes (evaluate b resolved.values config context)
      ↔ ∀ key ∈ mapping.map Prod.fst, Filled resolved.values key)
    ↔ (∃ key ∈ resolved.values.map Prod.fst, '.' ∉ key.toList ∧ ¬ Filled resolved.values key)
      ∨ ((∀ key ∈ mapping.map Prod.fst, key ∈ resolved.values.map Prod.fst)
        ∧ ((∀ key ∈ resolved.values.map Prod.fst, '.' ∈ key.toList →
            LeadsToValue b resolved.values key)
          ↔ ∀ key ∈ resolved.values.map Prod.fst, '.' ∈ key.toList → Filled resolved.values key))
      ∨ ((∃ key ∈ mapping.map Prod.fst, key ∉ resolved.values.map Prod.fst)
        ∧ ∃ key ∈ resolved.values.map Prod.fst, '.' ∈ key.toList
          ∧ ¬ LeadsToValue b resolved.values key)
  := by
  have hkeys := key_of_resolved hresolved
  have hdefault : fieldsOf resolved.values params
      = .ok (resolved.values.map fun entry => .str entry.1) := by
    rw [fieldsOf, hfields]
    rfl
  have hpasses : Passes (evaluate b resolved.values config context)
      ↔ (∀ key ∈ resolved.values.map Prod.fst, '.' ∉ key.toList → Filled resolved.values key)
        ∧ ∀ key ∈ resolved.values.map Prod.fst, '.' ∈ key.toList →
            LeadsToValue b resolved.values key := by
    rw [passes_evaluate hparams hdefault hempty, List.forall_mem_map]
    constructor
    · intro h
      have hleads : ∀ key ∈ resolved.values.map Prod.fst,
          LeadsToValue b resolved.values key := List.forall_mem_map.mpr h
      use fun key hkey hdot => (leadsToValue_iff_filled hdot).mp (hleads key hkey)
      exact fun key hkey _ => hleads key hkey
    · rintro ⟨hplain, hdotted⟩ entry hentry
      have hkey := List.mem_map_of_mem (f := Prod.fst) hentry
      by_cases hdot : '.' ∈ entry.1.toList
      · exact hdotted entry.1 hkey hdot
      · exact (leadsToValue_iff_filled hdot).mpr (hplain entry.1 hkey hdot)
  have hfilled : (∀ key ∈ mapping.map Prod.fst, Filled resolved.values key)
      ↔ (∀ key ∈ mapping.map Prod.fst, key ∈ resolved.values.map Prod.fst)
        ∧ (∀ key ∈ resolved.values.map Prod.fst, '.' ∉ key.toList → Filled resolved.values key)
        ∧ ∀ key ∈ resolved.values.map Prod.fst, '.' ∈ key.toList →
            Filled resolved.values key := by
    constructor
    · intro h
      refine ⟨?_, fun key hkey _ => h key (hkeys hkey), fun key hkey _ => h key (hkeys hkey)⟩
      intro key hkey
      obtain ⟨value, hvalue, -⟩ := h key hkey
      apply mem_keys_of_lookup hvalue
    · rintro ⟨hall, hplain, hdotted⟩ key hkey
      by_cases hdot : '.' ∈ key.toList
      · exact hdotted key (hall key hkey) hdot
      · exact hplain key (hall key hkey) hdot
  have hnot : ∀ p q r : String → Prop, (∃ key, p key ∧ q key ∧ ¬ r key)
      ↔ ¬ ∀ key, p key → q key → r key := by
    intro p q r
    push Not
    rfl
  have hsome : (∃ key ∈ mapping.map Prod.fst, key ∉ resolved.values.map Prod.fst)
      ↔ ¬ ∀ key ∈ mapping.map Prod.fst, key ∈ resolved.values.map Prod.fst := by
    push Not
    rfl
  rw [hpasses, hfilled, hnot, hnot, hsome]
  tauto

end RequiredFields

namespace Demo

/-- A mapping of one key that may be missing. -/
def optionalMapping : Dict :=
  [("answer", .dict [("path", .str "correlation.answer"), ("required", .bool false)])]

/-- A payload whose correlation has a given answer. -/
def answering (answer : Json) : Dict :=
  [("correlation", .dict [("answer", answer)])]

/-- A mapping of two keys, one of which may be missing. -/
def questionMapping : Dict :=
  ("question", .str "correlation.question") :: optionalMapping

/-- A payload with a question and an answer. -/
def questioning : Dict :=
  [("correlation", .dict [("question", .str "why"), ("answer", .str "yes")])]

end Demo

namespace RequiredFields

/-- A question that must be there and an answer that may be missing are both there, and neither is
missed. -/
theorem required_fields_demo :
  ∃ resolved, resolveInputMapping Demo.builtins Demo.questioning (.dict Demo.questionMapping) false
      = .ok resolved
    ∧ (Passes (evaluate Demo.builtins resolved.values [] Demo.context)
      ↔ ∀ key ∈ Demo.questionMapping.map Prod.fst, Filled resolved.values key)
    ∧ Passes (evaluate Demo.builtins resolved.values [] Demo.context)
  := by
  obtain ⟨resolved, hresolved, hkeys, hpasses⟩ : ∃ resolved, resolveInputMapping Demo.builtins
        Demo.questioning (.dict Demo.questionMapping) false = .ok resolved
      ∧ resolved.values.map Prod.fst = ["question", "answer"]
      ∧ Passes (evaluate Demo.builtins resolved.values [] Demo.context) :=
    ⟨_, rfl, by decide +kernel, _, rfl, rfl⟩
  refine ⟨resolved, hresolved, ?_, hpasses⟩
  apply (@required_fields_iff Demo.builtins _ Demo.questionMapping [] [] false _ Demo.context
    hresolved rfl rfl rfl).mpr
  right
  left
  rw [hkeys]
  constructor
  · exact fun key hkey => hkey
  · simp

/-- An answer that may be missing and is not there is not missed either. -/
theorem required_fields_counterexample :
  ∃ resolved, validateInputMapping Demo.builtins (.dict Demo.optionalMapping) "metric"
      = (Demo.optionalMapping, [])
    ∧ resolveInputMapping Demo.builtins (Demo.answering .null) (.dict Demo.optionalMapping) false
      = .ok resolved
    ∧ resolved.ok = true
    ∧ Passes (evaluate Demo.builtins resolved.values [] Demo.context)
    ∧ ¬ ∀ key ∈ Demo.optionalMapping.map Prod.fst, Filled resolved.values key
  := by
  refine ⟨_, rfl, rfl, rfl, ⟨_, rfl, rfl⟩, ?_⟩
  intro h
  obtain ⟨value, hvalue, -⟩ := h "answer" List.mem_cons_self
  cases hvalue

end RequiredFields

end Evalorch
