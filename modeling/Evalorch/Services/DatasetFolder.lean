import Evalorch.Services.PayloadValidation
import Evalorch.Transact.Program

/-!
# Dataset folders

`readDatasetFolder` reads the payloads and the configuration that a dataset folder holds. The
file system is a parameter: what each folder name under the root stands for, and what each
entry of a folder contains.
-/

namespace Evalorch

/-- `DatasetFolderError(message)`. -/
def datasetFolderError (message : String) : Exn :=
  .builtin "DatasetFolderError" message

/-- `DatasetNotFoundError(message)`. -/
def datasetNotFoundError (message : String) : Exn :=
  .builtin "DatasetNotFoundError" message

/-! ### The file system -/

/-- What reading and parsing a file yields. -/
inductive FileText where
  | unreadable (reason : String)
  | notUtf8 (reason : String)
  | notJson (reason : String) (line : ℕ)
  | json (document : Json)

/-- An entry of a folder. -/
structure Entry where
  name : String
  isDir : Bool
  text : FileText

/-- What a folder name under the root stands for; a folder that cannot be listed has a reason
for it. -/
inductive Location where
  | outside
  | root
  | file
  | absent
  | folder (entries : Except String (List Entry))

/-- The folders under `EVALUATION_TEMP_ROOT`. -/
abbrev Files : Type := String → Location

/-! ### Names -/

/-- A character of `[A-Za-z0-9]`. -/
def isPlain (c : Char) : Bool :=
  ('A' ≤ c && c ≤ 'Z') || ('a' ≤ c && c ≤ 'z') || ('0' ≤ c && c ≤ '9')

/-- `DATASET_ID_RE.match`, of a text without surrounding white space. -/
def isDatasetId (identifier : String) : Bool :=
  match identifier.toList with
  | [] => false
  | c :: rest => isPlain c && rest.length ≤ 254
      && rest.all fun c => isPlain c || c = '.' || c = '_' || c = '-'

/-- `entry.suffix`: from the last dot on, unless the name starts or ends with that dot. -/
def suffix (name : String) : String :=
  let extension := name.toList.reverse.takeWhile (· ≠ '.')
  if extension.isEmpty || name.toList.length ≤ extension.length + 1 then ""
  else String.ofList ('.' :: extension.reverse)

/-- `CONFIG_FILENAME`. -/
def configFilename : String := "config.json"

/-! ### Reading -/

/-- `resolve_dataset_dir`, with the listing of the folder. -/
def resolveDatasetDir (b : Builtins) (files : Files) (datasetId : String) :
    Except Exn (Except String (List Entry)) :=
  let identifier := Python.strip datasetId
  if identifier = "" then .error (datasetFolderError "dataset_id is required")
  else if !isDatasetId identifier then
    .error (datasetFolderError ("dataset_id must be a single folder name using letters, digits, "
      ++ "dot, underscore, or hyphen"))
  else
    match files identifier with
    | .outside => .error (datasetFolderError "dataset_id escapes EVALUATION_TEMP_ROOT")
    | .root => .error (datasetFolderError
        "dataset_id must name a folder inside EVALUATION_TEMP_ROOT")
    | .file => .error (datasetFolderError
        ("dataset path " ++ b.repr (.str identifier) ++ " is not a directory"))
    | .absent => .error (datasetNotFoundError
        ("dataset folder " ++ b.repr (.str identifier) ++ " was not found"))
    | .folder entries => .ok entries

/-- `_read_json_object`. -/
def readJsonObject (entry : Entry) : Except Exn Dict :=
  match entry.text with
  | .notUtf8 reason => .error (payloadValidationError
      (entry.name ++ " is not valid UTF-8: " ++ reason))
  | .unreadable reason => .error (datasetFolderError
      ("could not read " ++ entry.name ++ ": " ++ reason))
  | .notJson reason line => .error (payloadValidationError
      ("invalid JSON in " ++ entry.name ++ ": " ++ reason ++ s!" (line {line})"))
  | .json (.dict []) => .error (payloadValidationError (entry.name ++ " must not be empty"))
  | .json (.dict document) => .ok document
  | .json document => .error (payloadValidationError
      (entry.name ++ " must contain a JSON object, got " ++ document.typeName))

/-- A payload read from a dataset folder. -/
structure PayloadFile where
  filename : String
  payload : Dict
  payloadId : Option String

/-- What a dataset folder holds. -/
structure DatasetFolderContents where
  datasetId : String
  payloads : List PayloadFile
  config : Dict
  warnings : List String

/-- A hidden entry, or the configuration. -/
def isSkipped (b : Builtins) (entry : Entry) : Bool :=
  (Python.dropPrefix? "." entry.name).isSome || b.lower entry.name = configFilename

/-- The entries that hold payloads. -/
def isPayload (b : Builtins) (entry : Entry) : Bool :=
  !isSkipped b entry && !entry.isDir && b.lower (suffix entry.name) = ".json"

/-- The payload of an entry. -/
def readPayload (b : Builtins) (entry : Entry) : Except Exn PayloadFile := do
  let document ← readJsonObject entry
  .ok ⟨entry.name, document, (extractIdentifiers b document).externalPayloadId⟩

/-- The warning about an entry that holds no payload, if it is worth one. -/
def entryWarning (b : Builtins) (entry : Entry) : List String :=
  if isSkipped b entry || isPayload b entry then []
  else if entry.isDir then ["skipped directory " ++ b.repr (.str entry.name)]
  else ["skipped unsupported file " ++ b.repr (.str entry.name)
    ++ " (supported extensions: .json)"]

/-- `sorted(folder.iterdir(), key=lambda p: p.name.lower())`. -/
def sortedEntries (b : Builtins) (entries : List Entry) : List Entry :=
  entries.insertionSort fun x y => b.lower x.name ≤ b.lower y.name

/-- The payloads of a folder, in the order in which they are read. -/
def payloadEntries (b : Builtins) (entries : List Entry) : List Entry :=
  (sortedEntries b entries).filter (isPayload b)

/-- The entry of the configuration. -/
def configEntry (entries : List Entry) : Option Entry :=
  entries.find? fun entry => entry.name = configFilename && !entry.isDir

/-- `read_dataset_folder`. -/
def readDatasetFolder (b : Builtins) (files : Files) (datasetId : String) :
    Except Exn DatasetFolderContents := do
  match ← resolveDatasetDir b files datasetId with
  | .error reason => .error (datasetFolderError
      ("could not list dataset folder " ++ b.repr (.str datasetId) ++ ": " ++ reason))
  | .ok entries =>
    let payloads ← (payloadEntries b entries).mapM (readPayload b)
    if payloads.isEmpty then
      .error (datasetFolderError ("dataset folder " ++ b.repr (.str datasetId)
        ++ " contains no supported JSON payload files"))
    else
      match configEntry entries with
      | none => .error (datasetFolderError ("dataset folder " ++ b.repr (.str datasetId)
          ++ " is missing " ++ configFilename))
      | some entry => do
        let config ← readJsonObject entry
        .ok {
          datasetId := datasetId
          payloads := payloads
          config := config
          warnings := (sortedEntries b entries).flatMap (entryWarning b) }

/-- The folder of a dataset is listed under its name. -/
theorem resolveDatasetDir_ok {b : Builtins} {files : Files} {datasetId : String}
    {entries : List Entry} (h : resolveDatasetDir b files datasetId = .ok (.ok entries)) :
  isDatasetId (Python.strip datasetId) = true
    ∧ files (Python.strip datasetId) = .folder (.ok entries)
  := by
  rw [resolveDatasetDir] at h
  split at h
  case isTrue => cases h
  case isFalse =>
    split at h
    case isTrue => cases h
    case isFalse hid =>
      split at h
      case h_5 listing hfolder =>
        obtain rfl := Except.ok.inj h
        exact ⟨by simpa using hid, hfolder⟩
      all_goals cases h

/-- The folder that is read for a dataset: its entries, one payload to each that holds one, and
its configuration. -/
theorem readDatasetFolder_ok {b : Builtins} {files : Files} {datasetId : String}
    {folder : DatasetFolderContents} (h : readDatasetFolder b files datasetId = .ok folder) :
  ∃ entries config, resolveDatasetDir b files datasetId = .ok (.ok entries)
    ∧ (payloadEntries b entries).mapM (readPayload b) = .ok folder.payloads
    ∧ folder.payloads ≠ []
    ∧ configEntry entries = some config ∧ readJsonObject config = .ok folder.config
  := by
  unfold readDatasetFolder at h
  obtain ⟨listing, hlisting, h⟩ := Transact.bind_eq_ok.mp h
  cases listing with
  | error reason => cases h
  | ok entries =>
    obtain ⟨payloads, hpayloads, h⟩ := Transact.bind_eq_ok.mp h
    split at h
    case isTrue => cases h
    case isFalse hne =>
      split at h
      case h_1 => cases h
      case h_2 entry hentry =>
        obtain ⟨config, hconfig, h⟩ := Transact.bind_eq_ok.mp h
        cases h
        exact ⟨entries, entry, hlisting, hpayloads, by simpa using hne, hentry, hconfig⟩

end Evalorch
