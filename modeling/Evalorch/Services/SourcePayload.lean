import Evalorch.Services.DatasetFolder
import Evalorch.Storage.FileTree

/-!
# Source payloads

`loadSourcePayload` reads a payload again when a ticket executes. It resolves the path that the
dataset and the file name make, where `readDatasetFolder` opens what the folder lists, so here the
folders under the root are those of a tree of files with links (`FileSystem.files`).
-/

namespace Evalorch

open Storage

/-- The files that the service sees, and `temp_root()`. -/
structure FileSystem extends FileTree FileText where
  tempRoot : Path

namespace FileSystem

variable (fs : FileSystem)

/-- What a folder lists, opened. -/
def entry (folder : Path) (name : String) : Entry :=
  match fs.find (folder ++ [name]) with
  | some (.folder _) => ⟨name, true, .unreadable "Is a directory"⟩
  | some (.file text) => ⟨name, false, text⟩
  | _ => ⟨name, false, .unreadable "No such file or directory"⟩

/-- The folders under the root. A path whose links do not end counts as absent. -/
def files : Files := fun identifier =>
  match fs.resolve (fs.tempRoot ++ [identifier]) with
  | none => .absent
  | some candidate =>
    if !fs.tempRoot.isPrefixOf candidate then .outside
    else if candidate = fs.tempRoot then .root
    else
      match fs.node candidate with
      | none => .absent
      | some (.folder names) => .folder (names.map (List.map (fs.entry candidate)))
      | some _ => .file

end FileSystem

/-! ### Reading a payload again -/

/-- `SourcePayloadMissingError(message)`. -/
def sourcePayloadMissingError (message : String) : Exn :=
  .permanentEvaluation message "SOURCE_PAYLOAD_MISSING"

/-- `payload_ref and Path(payload_ref).name == payload_ref`. -/
def isFileName (payloadRef : String) : Bool :=
  payloadRef != "" && payloadRef != "." && !payloadRef.toList.contains '/'

/-- `resolve_dataset_dir`, with the path of the folder. -/
def resolveDatasetPath (b : Builtins) (fs : FileSystem) (datasetId : String) :
    Except Exn Path := do
  let _ ← resolveDatasetDir b fs.files datasetId
  match fs.resolve (fs.tempRoot ++ [Python.strip datasetId]) with
  | some folder => .ok folder
  | none => .error (.other "RuntimeError" "Symlink loop")

/-- What `load_source_payload` makes of an exception of `resolve_dataset_dir`. -/
def folderUnavailable (b : Builtins) (datasetId : String) : Exn → Exn
  | .builtin "DatasetNotFoundError" _ => sourcePayloadMissingError
      ("dataset folder " ++ b.repr (.str datasetId) ++ " is no longer available")
  | .builtin "DatasetFolderError" message => sourcePayloadMissingError message
  | e => e

/-- What `load_source_payload` makes of an exception of `_read_json_object`. -/
def payloadUnavailable : Exn → Exn
  | .builtin "PayloadValidationError" message => sourcePayloadMissingError message
  | e => e

/-- The part of `load_source_payload` after the folder is resolved. -/
def readSourcePayload (b : Builtins) (fs : FileSystem) (datasetId payloadRef : String)
    (folder : Path) : Except Exn Dict :=
  match fs.resolve (folder ++ [payloadRef]) with
  | none => .error (.other "RuntimeError" "Symlink loop")
  | some path =>
    if !folder.isPrefixOf path then
      .error (sourcePayloadMissingError
        ("source payload " ++ b.repr (.str payloadRef) ++ " escapes the dataset folder"))
    else
      match fs.node path with
      | some (.file text) =>
          (readJsonObject ⟨path.getLastD "", false, text⟩).mapError payloadUnavailable
      | _ => .error (sourcePayloadMissingError ("source payload " ++ b.repr (.str payloadRef)
          ++ " is missing from dataset " ++ b.repr (.str datasetId)))

/-- `load_source_payload`. -/
def loadSourcePayload (b : Builtins) (fs : FileSystem) (datasetId payloadRef : String) :
    Except Exn Dict :=
  if !isFileName payloadRef then
    .error (sourcePayloadMissingError
      ("source payload reference " ++ b.repr (.str payloadRef) ++ " is invalid"))
  else do
    let folder ← (resolveDatasetPath b fs datasetId).mapError (folderUnavailable b datasetId)
    readSourcePayload b fs datasetId payloadRef folder

end Evalorch
