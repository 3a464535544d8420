import Evalorch.Services.ContextResolver
import Evalorch.Transact.Program

/-!
# What becomes of the keys of a mapping

`resolveInputMapping` leaves a key of a mapping in one of four classes, which its own entry and the
payload decide, and it records nothing about any other key.
-/

namespace Evalorch

open Transact

/-- What becomes of a key of a mapping. -/
inductive KeyClass where
  | resolved (value : Json)
  | defaulted (value : Json)
  | missing
  | skipped

namespace KeyClass

/-- The value of a key of the class. -/
def value : KeyClass → Option Json
  | .resolved value => some value
  | .defaulted value => some value
  | .missing => none
  | .skipped => none

/-- The number of errors of a key of the class. -/
def errors : KeyClass → ℕ
  | .resolved _ => 0
  | .defaulted _ => 1
  | .missing => 1
  | .skipped => 1

/-- How often a key of the class is listed as missing. -/
def missings : KeyClass → ℕ
  | .resolved _ => 0
  | .defaulted _ => 0
  | .missing => 1
  | .skipped => 0

end KeyClass

section Accounting

variable {b : Builtins} {payload : Dict} {allowNull : Bool}

/-- The class of a key, from its entry and the payload. -/
def keyClass (b : Builtins) (payload : Dict) (allowNull : Bool) (entry : Json) :
    Except Exn KeyClass :=
  match readSpec allowNull entry with
  | .error (_, required) => .ok (if required then .missing else .skipped)
  | .ok spec => do
    let resolution ← resolvePath b payload spec.path
    match (← checkValue b spec resolution).1, spec.default with
    | none, _ => .ok (.resolved resolution.value)
    | some _, some default => .ok (.defaulted default)
    | some _, none => .ok (if spec.required then .missing else .skipped)

namespace ResolvedInput

/-- The errors of a key. -/
def errorsOf (resolved : ResolvedInput) (key : String) : List ResolutionError :=
  resolved.errors.filter (·.key = key)

/-- The key is in the class: its value, its errors and whether it is listed as missing. -/
structure InClass (resolved : ResolvedInput) (key : String) (c : KeyClass) : Prop where
  value : resolved.values.lookup key = c.value
  errors : (resolved.errorsOf key).length = c.errors
  missings : resolved.missingRequired.count key = c.missings

/-- Nothing is recorded about the key. -/
structure Silent (resolved : ResolvedInput) (key : String) : Prop where
  value : resolved.values.lookup key = none
  resolution : resolved.resolutions.lookup key = none
  errors : resolved.errorsOf key = []
  missing : key ∉ resolved.missingRequired

end ResolvedInput

/-! ### The outcome of one entry -/

/-- The outcome of an entry that puts its key in the class. -/
structure EntryOutcome.HasClass (outcome : EntryOutcome) (key : String) (c : KeyClass) : Prop where
  value : outcome.value = c.value
  key : ∀ e ∈ outcome.error, e.key = key
  errors : outcome.error.toList.length = c.errors
  missings : (if outcome.missing then 1 else 0) = c.missings

/-- The outcome of a path that was resolved: the value, the default, or nothing. -/
theorem hasClass_entryOutcome (key : String) (spec : MappingSpec) (r : Resolution)
    (checked : Option ErrorCode × Dict) :
  (entryOutcome b key spec r checked).HasClass key
    (match checked.1, spec.default with
    | none, _ => .resolved r.value
    | some _, some default => .defaulted default
    | some _, none => if spec.required then .missing else .skipped)
  := by
  obtain ⟨code, mismatch⟩ := checked
  cases code with
  | none => constructor <;> simp [entryOutcome, KeyClass.value, KeyClass.errors, KeyClass.missings]
  | some code =>
    cases hdefault : spec.default with
    | some default =>
      constructor <;>
        simp [entryOutcome, hdefault, KeyClass.value, KeyClass.errors, KeyClass.missings]
    | none =>
      cases hrequired : spec.required <;> constructor <;>
        simp [entryOutcome, hdefault, hrequired, KeyClass.value, KeyClass.errors, KeyClass.missings]

/-- An entry puts its key in its class. -/
theorem hasClass_of_resolveEntry {key : String} {entry : Json} {outcome : EntryOutcome}
    (h : resolveEntry b payload allowNull key entry = .ok outcome) :
  ∃ c, keyClass b payload allowNull entry = .ok c ∧ outcome.HasClass key c
  := by
  unfold resolveEntry at h
  unfold keyClass
  cases hspec : readSpec allowNull entry with
  | error e =>
    obtain ⟨message, required⟩ := e
    rw [hspec] at h
    cases h
    use if required then .missing else .skipped, rfl
    cases required <;> constructor <;> simp [KeyClass.value, KeyClass.errors, KeyClass.missings]
  | ok spec =>
    rw [hspec] at h
    obtain ⟨resolution, hresolution, h⟩ := bind_eq_ok.mp h
    obtain ⟨checked, hchecked, h⟩ := bind_eq_ok.mp h
    cases h
    simp only [hresolution, hchecked, bind, Except.bind]
    refine ⟨_, ?_, hasClass_entryOutcome key spec resolution checked⟩
    cases checked.1 <;> cases spec.default <;> rfl

/-! ### Recording an outcome -/

namespace ResolvedInput

variable {resolved : ResolvedInput} {key other : String} {outcome : EntryOutcome} {c : KeyClass}

/-- The value of another key stays. -/
theorem lookup_record_of_ne (hne : key ≠ other) :
  (resolved.record other outcome).values.lookup key = resolved.values.lookup key
  := by
  rw [record]
  cases outcome.value with
  | none => rfl
  | some value => exact Dict.lookup_set_of_ne _ _ hne

/-- The errors of another key stay. -/
theorem errorsOf_record_of_ne (hne : key ≠ other) (herror : ∀ e ∈ outcome.error, e.key = other) :
  (resolved.record other outcome).errorsOf key = resolved.errorsOf key
  := by
  rw [record, errorsOf, List.filter_append, errorsOf, List.append_right_eq_self,
    List.filter_eq_nil_iff]
  intro e he
  rw [Option.mem_toList] at he
  simpa [herror e he] using hne.symm

/-- Another key is listed as missing as often as before. -/
theorem count_record_of_ne (hne : key ≠ other) :
  (resolved.record other outcome).missingRequired.count key = resolved.missingRequired.count key
  := by
  rw [record, List.count_append]
  split <;> simp [hne.symm]

/-- The class of another key stays. -/
theorem InClass.record (hne : key ≠ other) (herror : ∀ e ∈ outcome.error, e.key = other)
    (h : resolved.InClass key c) :
  (resolved.record other outcome).InClass key c
  where
    value := by rw [lookup_record_of_ne hne, h.value]
    errors := by rw [errorsOf_record_of_ne hne herror, h.errors]
    missings := by rw [count_record_of_ne hne, h.missings]

/-- Nothing is recorded about another key. -/
theorem Silent.record (hne : key ≠ other) (herror : ∀ e ∈ outcome.error, e.key = other)
    (h : resolved.Silent key) :
  (resolved.record other outcome).Silent key
  where
    value := by rw [lookup_record_of_ne hne, h.value]
    resolution := by
      rw [ResolvedInput.record]
      cases outcome.resolution with
      | none => exact h.resolution
      | some detail => exact (Dict.lookup_set_of_ne _ _ hne).trans h.resolution
    errors := by rw [errorsOf_record_of_ne hne herror, h.errors]
    missing := by
      rw [← List.count_eq_zero, count_record_of_ne hne, List.count_eq_zero]
      apply h.missing

/-- A key about which nothing was recorded is in the class of its outcome. -/
theorem Silent.inClass (h : resolved.Silent key) (houtcome : outcome.HasClass key c) :
  (resolved.record key outcome).InClass key c
  where
    value := by
      rw [← houtcome.value, ResolvedInput.record]
      cases outcome.value with
      | none => exact h.value
      | some value => exact Dict.lookup_set_self _ _ _
    errors := by
      have hself : outcome.error.toList.filter (·.key = key) = outcome.error.toList := by
        rw [List.filter_eq_self]
        intro e he
        simpa using houtcome.key e (Option.mem_toList.mp he)
      rw [← houtcome.errors, ResolvedInput.record, errorsOf, List.filter_append, hself]
      have hnone := h.errors
      unfold errorsOf at hnone
      rw [hnone, List.nil_append]
    missings := by
      rw [← houtcome.missings, ResolvedInput.record, List.count_append,
        List.count_eq_zero.mpr h.missing, Nat.zero_add]
      split <;> simp

/-- A key is in one class only. -/
theorem InClass.unique {c' : KeyClass} (h : resolved.InClass key c)
    (h' : resolved.InClass key c') :
  c' = c
  := by
  have hvalue : c'.value = c.value := h'.value.symm.trans h.value
  have herrors : c'.errors = c.errors := h'.errors.symm.trans h.errors
  have hmissings : c'.missings = c.missings := h'.missings.symm.trans h.missings
  cases c <;> cases c' <;>
    simp_all [KeyClass.value, KeyClass.errors, KeyClass.missings]

end ResolvedInput

/-! ### The whole mapping -/

/-- Every key of the mapping is in its class, and nothing is recorded about any other key. -/
structure Accounted (b : Builtins) (payload : Dict) (allowNull : Bool) (mapping : Dict)
    (resolved : ResolvedInput) : Prop where
  inClass : ∀ entry ∈ mapping,
    ∃ c, keyClass b payload allowNull entry.2 = .ok c ∧ resolved.InClass entry.1 c
  silent : ∀ key ∉ mapping.map Prod.fst, resolved.Silent key

theorem accounted_empty :
  Accounted b payload allowNull [] .empty
  where
    inClass := by simp
    silent := by
      intro key _
      constructor <;> simp [ResolvedInput.empty, ResolvedInput.errorsOf]

/-- The keys are accounted for with the outcome of one more entry. -/
theorem Accounted.record {mapping : Dict} {resolved : ResolvedInput} {key : String} {entry : Json}
    {outcome : EntryOutcome} (h : Accounted b payload allowNull mapping resolved)
    (hkey : key ∉ mapping.map Prod.fst)
    (houtcome : resolveEntry b payload allowNull key entry = .ok outcome) :
  Accounted b payload allowNull (mapping ++ [(key, entry)]) (resolved.record key outcome)
  := by
  obtain ⟨c, hc, hclass⟩ := hasClass_of_resolveEntry houtcome
  constructor
  · intro other hother
    rcases List.mem_append.mp hother with hmem | hmem
    · obtain ⟨c', hc', hin⟩ := h.inClass other hmem
      have hne : other.1 ≠ key := by
        intro heq
        rw [← heq] at hkey
        apply hkey (List.mem_map_of_mem hmem)
      exact ⟨c', hc', hin.record hne hclass.key⟩
    · rw [List.mem_singleton] at hmem
      subst hmem
      exact ⟨c, hc, (h.silent key hkey).inClass hclass⟩
  · intro other hother
    rw [List.map_append, List.mem_append, not_or] at hother
    apply (h.silent other hother.1).record _ hclass.key
    simpa using hother.2

/-- The keys are accounted for along the loop. -/
theorem accounted_loop {done entries : Dict} {start resolved : ResolvedInput}
    (hnodup : ((done ++ entries).map Prod.fst).Nodup)
    (hstart : Accounted b payload allowNull done start)
    (h : entries.foldlM (m := Except Exn) (fun resolved entry => do
      let outcome ← resolveEntry b payload allowNull entry.1 entry.2
      .ok (resolved.record entry.1 outcome)) start = .ok resolved) :
  Accounted b payload allowNull (done ++ entries) resolved
  := by
  induction entries generalizing done start with
  | nil =>
    cases h
    rw [List.append_nil]
    apply hstart
  | cons entry entries ih =>
    rw [List.foldlM_cons] at h
    obtain ⟨next, hnext, h⟩ := bind_eq_ok.mp h
    obtain ⟨outcome, houtcome, hrecord⟩ := bind_eq_ok.mp hnext
    cases hrecord
    have hnew : entry.1 ∉ done.map Prod.fst := by
      rw [List.map_append, List.map_cons, List.nodup_append] at hnodup
      intro hmem
      apply hnodup.2.2 entry.1 hmem entry.1 List.mem_cons_self rfl
    rw [List.append_cons] at hnodup ⊢
    apply ih hnodup (hstart.record hnew houtcome) h

/-- The keys of a mapping are accounted for. -/
theorem accounted_of_resolveInputMapping {mapping : Dict} {resolved : ResolvedInput}
    (hnodup : (mapping.map Prod.fst).Nodup)
    (h : resolveInputMapping b payload (.dict mapping) allowNull = .ok resolved) :
  Accounted b payload allowNull mapping resolved
  := by
  rw [resolveInputMapping] at h
  split at h
  case isTrue hempty =>
    cases h
    obtain rfl : mapping = [] := by simpa [Json.truthy] using hempty
    apply accounted_empty
  case isFalse =>
    rw [← List.nil_append mapping] at hnodup ⊢
    apply accounted_loop hnodup accounted_empty h

/-- Every key of a mapping is in exactly one class, which its own entry and the payload decide, the
mapping is resolved when no key of it is missing, and nothing is recorded about any other key. -/
theorem resolveInputMapping_accounts {mapping : Dict} {resolved : ResolvedInput}
    (hnodup : (mapping.map Prod.fst).Nodup)
    (h : resolveInputMapping b payload (.dict mapping) allowNull = .ok resolved) :
  (∀ entry ∈ mapping, ∃ c, keyClass b payload allowNull entry.2 = .ok c
      ∧ resolved.InClass entry.1 c ∧ ∀ c', resolved.InClass entry.1 c' → c' = c)
    ∧ (resolved.ok = true
      ↔ ∀ entry ∈ mapping, keyClass b payload allowNull entry.2 ≠ .ok .missing)
    ∧ ∀ key ∉ mapping.map Prod.fst, resolved.Silent key
  := by
  have hall := accounted_of_resolveInputMapping hnodup h
  refine ⟨?_, ?_, hall.silent⟩
  · intro entry hentry
    obtain ⟨c, hc, hin⟩ := hall.inClass entry hentry
    exact ⟨c, hc, hin, fun c' => hin.unique⟩
  · rw [ResolvedInput.ok, List.isEmpty_iff, List.eq_nil_iff_forall_not_mem]
    constructor
    · intro hnone entry hentry hmissing
      obtain ⟨c, hc, hin⟩ := hall.inClass entry hentry
      rw [hmissing] at hc
      cases hc
      have hcount := hin.missings
      rw [List.count_eq_zero.mpr (hnone entry.1)] at hcount
      cases hcount
    · intro hnone key hmem
      by_cases hkey : key ∈ mapping.map Prod.fst
      · obtain ⟨entry, hentry, rfl⟩ := List.mem_map.mp hkey
        obtain ⟨c, hc, hin⟩ := hall.inClass entry hentry
        have hpos := List.count_pos_iff.mpr hmem
        rw [hin.missings] at hpos
        cases c with
        | missing => exact hnone entry hentry hc
        | _ => cases hpos
      · exact (hall.silent key hkey).missing hmem

end Accounting

namespace Demo

/-- A mapping with a key of each class. -/
def classedMapping : Dict :=
  [("answer", .str "correlation.answer"),
    ("tone", .dict [("path", .str "correlation.tone"), ("default", .str "calm")]),
    ("source", .str "correlation.source"),
    ("note", .dict [("path", .str "correlation.note"), ("required", .bool false)])]

/-- A payload with an answer. -/
def answered : Dict :=
  [("correlation", .dict [("answer", .str "yes")])]

end Demo

/-- Four keys of four classes. -/
theorem resolveInputMapping_accounts_demo :
  ∃ resolved,
    resolveInputMapping Demo.builtins Demo.answered (.dict Demo.classedMapping) false = .ok resolved
      ∧ resolved.InClass "answer" (.resolved (.str "yes"))
      ∧ resolved.InClass "tone" (.defaulted (.str "calm"))
      ∧ resolved.InClass "source" .missing
      ∧ resolved.InClass "note" .skipped
      ∧ resolved.ok = false
  := by
  obtain ⟨resolved, hresolved, hok⟩ : ∃ resolved,
      resolveInputMapping Demo.builtins Demo.answered (.dict Demo.classedMapping) false
        = .ok resolved ∧ resolved.ok = false := ⟨_, rfl, rfl⟩
  obtain ⟨hclasses, -, -⟩ := resolveInputMapping_accounts (by decide) hresolved
  simp only [Demo.classedMapping, List.forall_mem_cons] at hclasses
  obtain ⟨⟨_, ⟨⟩, hanswer, -⟩, ⟨_, ⟨⟩, htone, -⟩, ⟨_, ⟨⟩, hsource, -⟩, ⟨_, ⟨⟩, hnote, -⟩, -⟩ :=
    hclasses
  exact ⟨resolved, hresolved, hanswer, htone, hsource, hnote, hok⟩

end Evalorch
