import Evalorch.Python.Raising
import Evalorch.Services.SourcePayload

/-!
# Payloads that are read again

A payload that a dataset folder lists is opened at the creation of a job, through whatever links
lead to it. When a ticket executes, its path is resolved, and it is read only if it is inside the
folder. So a folder whose payloads are read again is one without links that lead outside.
-/

namespace Evalorch

open Storage Transact

variable {b : Builtins} {fs : FileSystem} {datasetId : String}

namespace FileSystem

/-- The entry of a dataset folder leads to a place inside the folder. -/
def LeadsInside (fs : FileSystem) (datasetId filename : String) : Prop :=
  ∃ folder path, fs.resolve (fs.tempRoot ++ [Python.strip datasetId]) = some folder
    ∧ fs.resolve (folder ++ [filename]) = some path ∧ folder <+: path

end FileSystem

/-! ### The folder -/

/-- A folder that is listed is resolved, and its entries are the names that it holds. -/
theorem files_folder {identifier : String} {entries : List Entry}
    (h : fs.files identifier = .folder (.ok entries)) :
  ∃ folder names, fs.resolve (fs.tempRoot ++ [identifier]) = some folder
    ∧ fs.node folder = some (.folder (.ok names)) ∧ entries = names.map (fs.entry folder)
  := by
  unfold FileSystem.files at h
  cases hresolve : fs.resolve (fs.tempRoot ++ [identifier]) with
  | none => simp [hresolve] at h
  | some folder =>
    simp only [hresolve] at h
    split at h
    case isTrue => cases h
    case isFalse =>
      split at h
      case isTrue => cases h
      case isFalse =>
        split at h
        case h_1 => cases h
        case h_3 => cases h
        case h_2 listing hnode =>
          cases listing with
          | error reason => cases h
          | ok names =>
            cases h
            exact ⟨folder, names, rfl, hnode, rfl⟩

/-! ### The payloads -/

/-- A document is read from a text that is an object with fields. -/
theorem readJsonObject_eq_ok {entry : Entry} {document : Dict} :
  readJsonObject entry = .ok document ↔ entry.text = .json (.dict document) ∧ document ≠ []
  := by
  obtain ⟨name, isDir, text⟩ := entry
  cases text with
  | json found =>
    cases found with
    | dict fields =>
      cases fields with
      | nil => simp +contextual [readJsonObject]
      | cons field rest =>
        simp only [readJsonObject, Except.ok.injEq, FileText.json.injEq, Json.dict.injEq,
          iff_self_and]
        rintro rfl
        apply List.cons_ne_nil
    | _ => simp [readJsonObject]
  | _ => simp [readJsonObject]

/-- A payload is the document of an entry that is no folder. -/
theorem payload_of_mem {entries : List Entry} {payloads : List PayloadFile} {payload : PayloadFile}
    (h : (payloadEntries b entries).mapM (readPayload b) = .ok payloads)
    (hpayload : payload ∈ payloads) :
  ∃ entry ∈ entries, payload.filename = entry.name ∧ entry.isDir = false
    ∧ readJsonObject entry = .ok payload.payload
  := by
  obtain ⟨entry, hentry, hok⟩ := Python.exists_of_mapM h hpayload
  obtain ⟨hmem, hkind⟩ := List.mem_filter.mp hentry
  obtain ⟨document, hdocument, hpayload⟩ := bind_eq_ok.mp hok
  cases hpayload
  refine ⟨entry, ?_, rfl, ?_, hdocument⟩
  · exact (List.mem_insertionSort _).mp hmem
  · simp only [isPayload, Bool.and_eq_true, Bool.not_eq_true'] at hkind
    apply hkind.1.2

/-- An entry of a folder that has a document leads to a file with this document. -/
theorem find_of_entry {folder : Path} {name : String} {document : Dict}
    (hfile : (fs.entry folder name).isDir = false)
    (h : readJsonObject (fs.entry folder name) = .ok document) :
  ∃ path text, fs.resolve (folder ++ [name]) = some path ∧ fs.node path = some (.file text)
    ∧ ∀ name isDir, readJsonObject ⟨name, isDir, text⟩ = .ok document
  := by
  obtain ⟨htext, hne⟩ := readJsonObject_eq_ok.mp h
  unfold FileSystem.entry at hfile htext
  cases hresolve : fs.resolve (folder ++ [name]) with
  | none => simp [FileTree.find, hresolve] at htext
  | some path =>
    rw [FileTree.find_eq hresolve] at hfile htext
    cases hnode : fs.node path with
    | none => simp [hnode] at htext
    | some node =>
      cases node with
      | folder names => simp [hnode] at hfile
      | link absolute parts => simp [hnode] at htext
      | file text =>
        simp only [hnode] at htext
        refine ⟨path, text, rfl, hnode, ?_⟩
        intro name isDir
        apply readJsonObject_eq_ok.mpr ⟨htext, hne⟩

/-- A payload is read again when its entry leads inside the folder. -/
theorem readSourcePayload_ok_iff {folder path : Path} {filename : String} {document : Dict}
    {text : FileText} (hresolve : fs.resolve (folder ++ [filename]) = some path)
    (hnode : fs.node path = some (.file text))
    (hread : ∀ name isDir, readJsonObject ⟨name, isDir, text⟩ = .ok document) :
  readSourcePayload b fs datasetId filename folder = .ok document ↔ folder <+: path
  := by
  rw [← List.isPrefixOf_iff_prefix, readSourcePayload, hresolve]
  cases hinside : folder.isPrefixOf path <;> simp [hinside, hnode, hread, Except.mapError]

/-- A name that a folder lists is a file name. -/
theorem isFileName_of_isName {name : String} (h : IsName name) :
  isFileName name = true
  := by simp [isFileName, h.notEmpty, h.notSelf, h.noSlash]

/-- The payloads of a folder that was accepted are all read again as they were validated, exactly
when none of them is a link that leads outside the folder. -/
theorem payloads_reload_iff {contents : DatasetFolderContents}
    (h : readDatasetFolder b fs.files datasetId = .ok contents) :
  (∀ payload ∈ contents.payloads,
      loadSourcePayload b fs datasetId payload.filename = .ok payload.payload)
    ↔ ∀ payload ∈ contents.payloads, fs.LeadsInside datasetId payload.filename
  := by
  obtain ⟨entries, config, hdir, hpayloads, -, -, -⟩ := readDatasetFolder_ok h
  obtain ⟨folder, names, hfolder, hlisted, rfl⟩ := files_folder (resolveDatasetDir_ok hdir).2
  refine forall_congr' fun payload => forall_congr' fun hpayload => ?_
  obtain ⟨entry, hentry, hname, hfile, hdocument⟩ := payload_of_mem hpayloads hpayload
  obtain ⟨name, hmem, rfl⟩ := List.mem_map.mp hentry
  have hfilename : payload.filename = name := by
    rw [hname]
    unfold FileSystem.entry
    split <;> rfl
  obtain ⟨path, text, hresolve, hnode, hread⟩ := find_of_entry hfile hdocument
  have hpath : resolveDatasetPath b fs datasetId = .ok folder := by
    simp [resolveDatasetPath, hdir, hfolder, bind, Except.bind]
  have hload : loadSourcePayload b fs datasetId name
      = readSourcePayload b fs datasetId name folder := by
    rw [loadSourcePayload, isFileName_of_isName (fs.listed folder names hlisted name hmem), hpath]
    rfl
  rw [hfilename, hload, readSourcePayload_ok_iff hresolve hnode hread]
  constructor
  · intro hinside
    exact ⟨folder, path, hfolder, hresolve, hinside⟩
  · rintro ⟨folder', path', hfolder', hresolve', hinside⟩
    rw [hfolder] at hfolder'
    cases hfolder'
    rw [hresolve] at hresolve'
    cases hresolve'
    apply hinside

namespace Demo

/-- The nodes of a dataset with a payload and a configuration; `linked` says where the payload is
a link to. -/
def datasetNode (linked : Option Path) : Path → Option (Node FileText)
  | ["data", "demo"] => some (.folder (.ok ["a.json", "config.json"]))
  | ["data", "demo", "a.json"] =>
    match linked with
    | some target => some (.link true target)
    | none => some (.file (.json (.dict [("trace", .null)])))
  | ["data", "demo", "b.json"] => some (.file (.json (.dict [("trace", .null)])))
  | ["data", "demo", "config.json"] => some (.file (.json (.dict [("metrics", .null)])))
  | ["shared", "a.json"] => some (.file (.json (.dict [("trace", .null)])))
  | _ => none

/-- A file system with this dataset. -/
def fileSystem (linked : Option Path) : FileSystem where
  node := datasetNode linked
  limit := 40
  tempRoot := ["data"]
  listed := by
    intro path names hnode name hname
    unfold datasetNode at hnode
    split at hnode
    case h_1 =>
      cases hnode
      simp only [List.mem_cons, List.not_mem_nil, or_false] at hname
      rcases hname with rfl | rfl <;> constructor <;> decide
    case h_2 =>
      split at hnode <;> cases hnode
    all_goals cases hnode

/-- What is read of the dataset, wherever its payload is. -/
def datasetContents : DatasetFolderContents where
  datasetId := "demo"
  payloads := [⟨"a.json", [("trace", .null)], none⟩]
  config := [("metrics", .null)]
  warnings := []

end Demo

/-- A payload that is a link inside the folder is read again. -/
theorem payloads_reload_demo :
  loadSourcePayload Demo.builtins (Demo.fileSystem (some ["data", "demo", "b.json"])) "demo" "a.json"
    = .ok [("trace", .null)]
  := by
  have hread : readDatasetFolder Demo.builtins
      (Demo.fileSystem (some ["data", "demo", "b.json"])).files "demo"
      = .ok Demo.datasetContents := rfl
  apply (payloads_reload_iff hread).mpr _ ⟨"a.json", [("trace", .null)], none⟩ List.mem_cons_self
  intro payload hpayload
  rw [List.mem_singleton.mp hpayload]
  exact ⟨["data", "demo"], ["data", "demo", "b.json"], rfl, rfl, ⟨["b.json"], rfl⟩⟩

/-- A payload that is a link out of the folder is validated and then missing. -/
theorem payload_outside_is_missing :
  readDatasetFolder Demo.builtins (Demo.fileSystem (some ["shared", "a.json"])).files "demo"
      = .ok Demo.datasetContents
    ∧ ⟨"a.json", [("trace", .null)], none⟩ ∈ Demo.datasetContents.payloads
    ∧ loadSourcePayload Demo.builtins (Demo.fileSystem (some ["shared", "a.json"])) "demo" "a.json"
      = .error (sourcePayloadMissingError
        "source payload 'a.json' escapes the dataset folder")
  := ⟨rfl, List.mem_cons_self, rfl⟩

end Evalorch
