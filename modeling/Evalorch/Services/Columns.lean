import Evalorch.Services.JobCreation

/-!
# Columns

What the columns of jobs and tickets hold. An `Integer` column holds 32 bits, a `Text` column
holds text without NUL that can be encoded, and a `JSONB` column holds documents of such texts
whose numbers are finite. `createJobTyped` is `createJob` against these columns: the driver or the
database refuses a row with any other value.
-/

namespace Evalorch

/-- A value of an `Integer` column. -/
def fitsInteger (n : ℤ) : Bool :=
  -2147483648 ≤ n && n ≤ 2147483647

/-- A character of a `Text` column. -/
def fitsChar (c : Char) : Bool :=
  c ≠ Char.ofNat 0 && !Python.isSurrogate c

/-- A value of a `Text` column. -/
def fitsText (text : String) : Bool :=
  text.toList.all fitsChar

mutual

/-- A value of a `JSONB` column. -/
def fitsJson : Json → Bool
  | .null | .bool _ | .int _ => true
  | .float (.finite _) => true
  | .float _ => false
  | .str text => fitsText text
  | .list items => fitsItems items
  | .dict fields => fitsFields fields

/-- The items of an array in a `JSONB` column. -/
def fitsItems : List Json → Bool
  | [] => true
  | item :: items => fitsJson item && fitsItems items

/-- The fields of an object in a `JSONB` column. -/
def fitsFields : List (String × Json) → Bool
  | [] => true
  | (key, value) :: fields => fitsText key && fitsJson value && fitsFields fields

end

/-- The numbers of a ticket fit their columns, and so does `max_attempts + 1`, which
`ck_tickets_attempts` computes. -/
def fitsNumbers (t : EvaluationTicket) : Bool :=
  fitsInteger t.priority && fitsInteger t.metricVersionNumber && fitsInteger t.maxAttempts
    && fitsInteger (t.maxAttempts + 1)

/-- The values that `bulk_insert` binds fit the columns of a ticket. -/
def fitsTicket (t : EvaluationTicket) : Bool :=
  fitsNumbers t && fitsText t.sourceDatasetId && fitsText t.sourcePayloadRef
    && t.sourcePayloadId.all fitsText && fitsText t.metricId && fitsText t.agentId
    && fitsFields t.metricSnapshotJson && fitsText t.checkId && fitsText t.evaluator

/-- The values that `JobRepository.insert` binds fit the columns of a job. -/
def fitsJob (j : EvaluationJob) : Bool :=
  j.name.all fitsText && j.datasetId.all fitsText && fitsFields j.configSnapshotJson
    && fitsInteger j.payloadCount && fitsInteger j.totalTickets
    && j.idempotencyKey.all fitsText && j.idempotencyRequestHash.all fitsText

/-- The error of the driver, a `DataError` or an `UnicodeEncodeError`. -/
def dataError : Exn :=
  .other "DataError" "value out of range or not valid for its column"

/-- `create_job`, where a row is refused unless its values fit. -/
def createJobTyped (e : Surroundings) (request : CreateRequest) (drawn : Drawn) (db : Db) :
    Except Exn (JobCreationResult × Db) := do
  let (result, db') ← createJob e request drawn db
  if result.replayed || (fitsJob result.job
      && (db'.tickets.rows.filter fun t => t.jobId = result.job.id).all fitsTicket) then
    .ok (result, db')
  else .error dataError

/-! ### Texts -/

theorem fitsText_iff {text : String} :
  fitsText text = true ↔ ∀ c ∈ text.toList, fitsChar c = true
  := by simp [fitsText]

/-- A character of the tables of classes fits. -/
theorem fitsChar_of_lt {c : Char} (hpos : 0 < c.toNat) (h : c.toNat < 0x10d800) :
  fitsChar c = true
  := by
  have hne : c ≠ Char.ofNat 0 := by
    rintro rfl
    exact absurd hpos (by decide)
  simp [fitsChar, Python.isSurrogate, hne, h]

/-- A character of a range fits. -/
theorem fitsChar_of_le {c first last : Char} (hfirst : first ≤ c) (hlast : c ≤ last)
    (hpos : 0 < first.toNat) (h : last.toNat < 0x10d800) :
  fitsChar c = true
  := by
  have hfirst := UInt32.le_iff_toNat_le.mp hfirst
  have hlast := UInt32.le_iff_toNat_le.mp hlast
  exact fitsChar_of_lt (hpos.trans_le hfirst) (hlast.trans_lt h)

/-- White space at the ends of a text fits. -/
@[simp]
theorem fitsText_strip (text : String) :
  fitsText (Python.strip text) = fitsText text
  := by
  have hspace : ∀ c, Python.isSpace c = true → fitsChar c = true := by
    intro c hc
    have hbounds : 0 < c.toNat ∧ c.toNat < 0x10d800 := by
      simp only [Python.isSpace, Bool.or_eq_true, Bool.and_eq_true, decide_eq_true_eq,
        List.contains_iff_mem, List.mem_cons, List.not_mem_nil, or_false] at hc
      omega
    exact fitsChar_of_lt hbounds.1 hbounds.2
  rw [Bool.eq_iff_iff, fitsText_iff, fitsText_iff, Python.strip, String.toList_ofList]
  constructor
  · intro h c hc
    exact (Python.mem_stripBoth_or hc).elim (h c) (hspace c)
  · intro h c hc
    apply h
    apply (List.dropWhile_sublist _).subset
    apply (List.rdropWhile_prefix _ _).subset hc

/-! ### Documents -/

theorem fitsItems_iff {items : List Json} :
  fitsItems items = true ↔ ∀ item ∈ items, fitsJson item = true
  := by induction items <;> simp_all [fitsItems]

theorem fitsFields_iff {fields : Dict} :
  fitsFields fields = true
    ↔ ∀ field ∈ fields, fitsText field.1 = true ∧ fitsJson field.2 = true
  := by
  induction fields with
  | nil => simp [fitsFields]
  | cons field fields ih =>
    obtain ⟨key, value⟩ := field
    simp [fitsFields, ih]

theorem fitsFields_append (fields fields' : Dict) :
  fitsFields (fields ++ fields') = (fitsFields fields && fitsFields fields')
  := by rw [Bool.eq_iff_iff, Bool.and_eq_true, fitsFields_iff, fitsFields_iff, fitsFields_iff,
    List.forall_mem_append]

end Evalorch
