import Evalorch.Creation.Reloading

/-!
# What executions read

When a ticket executes, its payload is read from a file in the folder of its dataset, which is a
folder under the root, wherever links lead (`source_payload_is_confined`). What stands in files
outside the root has no influence on it (`outside_is_not_read`).
-/

namespace Evalorch

open Storage Transact

variable {b : Builtins} {fs fs' : FileSystem} {datasetId payloadRef : String}

/-! ### Where payloads are -/

/-- What does not raise after a translation of exceptions does not raise before. -/
theorem eq_ok_of_mapError {ε ε' α : Type} {f : ε → ε'} {x : Except ε α} {a : α}
    (h : x.mapError f = .ok a) :
  x = .ok a
  := by
  cases x with
  | error e => cases h
  | ok a' => exact congrArg Except.ok (Except.ok.inj h)

/-- A dataset that is found names a folder. -/
theorem files_of_resolveDatasetDir {files : Files} {listing : Except String (List Entry)}
    (h : resolveDatasetDir b files datasetId = .ok listing) :
  files (Python.strip datasetId) = .folder listing
  := by
  simp only [resolveDatasetDir] at h
  split at h
  case isTrue => cases h
  case isFalse =>
    split at h
    case isTrue => cases h
    case isFalse =>
      split at h
      case h_5 listing' hfolder =>
        cases h
        exact hfolder
      all_goals cases h

/-- A folder of the root is under the root, and not the root itself. -/
theorem folder_of_files {identifier : String} {listing : Except String (List Entry)}
    (h : fs.files identifier = .folder listing) :
  ∃ folder names, fs.resolve (fs.tempRoot ++ [identifier]) = some folder ∧ fs.tempRoot <+: folder
    ∧ folder ≠ fs.tempRoot ∧ fs.node folder = some (.folder names)
  := by
  unfold FileSystem.files at h
  cases hresolve : fs.resolve (fs.tempRoot ++ [identifier]) with
  | none => simp [hresolve] at h
  | some folder =>
    simp only [hresolve] at h
    split at h
    case isTrue => cases h
    case isFalse hinside =>
      split at h
      case isTrue => cases h
      case isFalse hroot =>
        split at h
        case h_1 => cases h
        case h_3 => cases h
        case h_2 names hnode =>
          refine ⟨folder, names, rfl, ?_, hroot, hnode⟩
          simpa using hinside

theorem resolveDatasetPath_ok {folder : Path} (h : resolveDatasetPath b fs datasetId = .ok folder) :
  fs.resolve (fs.tempRoot ++ [Python.strip datasetId]) = some folder ∧ fs.tempRoot <+: folder
    ∧ folder ≠ fs.tempRoot ∧ ∃ names, fs.node folder = some (.folder names)
  := by
  obtain ⟨listing, hdir, h⟩ := bind_eq_ok.mp h
  obtain ⟨found, names, hresolve, hunder, hroot, hnode⟩ :=
    folder_of_files (files_of_resolveDatasetDir hdir)
  rw [hresolve] at h
  cases h
  exact ⟨hresolve, hunder, hroot, names, hnode⟩

/-- Whatever document an execution gets is that of a file in the folder of its dataset, under the
root, on a path without links. -/
theorem source_payload_is_confined {document : Dict}
    (h : loadSourcePayload b fs datasetId payloadRef = .ok document) :
  ∃ folder path, fs.resolve (fs.tempRoot ++ [Python.strip datasetId]) = some folder
    ∧ fs.tempRoot <+: folder ∧ folder ≠ fs.tempRoot ∧ folder <+: path ∧ folder ≠ path
    ∧ fs.Settled path ∧ fs.node path = some (.file (.json (.dict document)))
  := by
  unfold loadSourcePayload at h
  split at h
  case isTrue => cases h
  case isFalse =>
    obtain ⟨folder, hfolder, h⟩ := bind_eq_ok.mp h
    have hfound := eq_ok_of_mapError hfolder
    obtain ⟨hresolve, hunder, hroot, names, hnode⟩ := resolveDatasetPath_ok hfound
    unfold readSourcePayload at h
    cases hpath : fs.resolve (folder ++ [payloadRef]) with
    | none => simp [hpath] at h
    | some path =>
      simp only [hpath] at h
      split at h
      case isTrue => cases h
      case isFalse hinside =>
        split at h
        case h_2 => cases h
        case h_1 text hfile =>
          have hread := (readJsonObject_eq_ok.mp (eq_ok_of_mapError h)).1
          refine ⟨folder, path, hresolve, hunder, hroot, by simpa using hinside, ?_,
            FileTree.settled_resolve hpath, hread ▸ hfile⟩
          rintro rfl
          rw [hnode] at hfile
          cases hfile

/-! ### What payloads do not depend on -/

/-- The file systems differ in the contents of files outside the root at most. -/
structure SameInside (fs fs' : FileSystem) : Prop where
  root : fs'.tempRoot = fs.tempRoot
  limit : fs'.limit = fs.limit
  nodes : ∀ path, fs'.node path = fs.node path
    ∨ ¬ fs.tempRoot <+: path ∧ (∃ text, fs.node path = some (.file text))
      ∧ ∃ text, fs'.node path = some (.file text)

namespace SameInside

theorem sameLinks (h : SameInside fs fs') :
  FileTree.SameLinks fs.toFileTree fs'.toFileTree
  := by
  refine ⟨h.limit, fun path absolute parts => ?_⟩
  rcases h.nodes path with hsame | ⟨-, ⟨text, hnode⟩, ⟨text', hnode'⟩⟩
  · rw [hsame]
  · simp [hnode, hnode']

theorem node (h : SameInside fs fs') {path : Path} (hunder : fs.tempRoot <+: path) :
  fs'.node path = fs.node path
  := (h.nodes path).resolve_right fun hout => hout.1 hunder

/-- A name under the root is at the same place in both, up to what its entries contain. -/
theorem files (h : SameInside fs fs') (identifier : String) :
  fs'.files identifier = fs.files identifier
    ∨ ∃ listing listing', fs.files identifier = .folder listing
      ∧ fs'.files identifier = .folder listing'
  := by
  unfold FileSystem.files
  rw [h.root, h.sameLinks.resolve]
  cases fs.resolve (fs.tempRoot ++ [identifier]) with
  | none => exact .inl rfl
  | some folder =>
    cases hbelow : fs.tempRoot.isPrefixOf folder
    case false => simp [hbelow]
    case true =>
      have hunder := List.isPrefixOf_iff_prefix.mp hbelow
      by_cases hroot : folder = fs.tempRoot
      case pos => simp [hroot]
      case neg =>
        simp only [hbelow, hroot, Bool.not_true, Bool.false_eq_true, if_false, h.node hunder]
        cases fs.node folder with
        | none => exact .inl rfl
        | some found =>
          cases found with
          | folder names => exact .inr ⟨_, _, rfl, rfl⟩
          | _ => exact .inl rfl

theorem resolveDatasetPath (h : SameInside fs fs') (b : Builtins) (datasetId : String) :
  Evalorch.resolveDatasetPath b fs' datasetId = Evalorch.resolveDatasetPath b fs datasetId
  := by
  unfold Evalorch.resolveDatasetPath resolveDatasetDir
  rw [h.root, h.sameLinks.resolve]
  simp only
  split
  case isTrue => rfl
  case isFalse =>
    split
    case isTrue => rfl
    case isFalse =>
      rcases h.files (Python.strip datasetId) with hsame | ⟨listing, listing', hfound, hfound'⟩
      · rw [hsame]
      · rw [hfound, hfound']
        rfl

end SameInside

/-- What stands in files outside the root has no influence on what an execution reads, or on the
error that it gets. -/
theorem outside_is_not_read (h : SameInside fs fs') (b : Builtins) (datasetId payloadRef : String) :
  loadSourcePayload b fs' datasetId payloadRef = loadSourcePayload b fs datasetId payloadRef
  := by
  unfold loadSourcePayload
  rw [h.resolveDatasetPath]
  split
  case isTrue => rfl
  case isFalse =>
    cases hfolder : resolveDatasetPath b fs datasetId with
    | error e => rfl
    | ok folder =>
      have hunder := (resolveDatasetPath_ok hfolder).2.1
      change readSourcePayload b fs' datasetId payloadRef folder
        = readSourcePayload b fs datasetId payloadRef folder
      unfold readSourcePayload
      rw [h.sameLinks.resolve]
      cases fs.resolve (folder ++ [payloadRef]) with
      | none => rfl
      | some path =>
        cases hbelow : folder.isPrefixOf path
        case false => simp [hbelow]
        case true =>
          have hinside := List.isPrefixOf_iff_prefix.mp hbelow
          simp only [hbelow, h.node (hunder.trans hinside)]

namespace Demo

/-- The file system with a payload that is a link to another, after a file outside the root was
overwritten. -/
def overwritten : FileSystem where
  node := fun path =>
    if path = ["shared", "a.json"] then some (.file (.json (.dict [("trace", .bool true)])))
    else (fileSystem (some ["data", "demo", "b.json"])).node path
  limit := 40
  tempRoot := ["data"]
  listed := by
    intro path names hnode
    split at hnode
    case isTrue => cases hnode
    case isFalse => exact (fileSystem _).listed path names hnode

/-- Its payload is in the folder. -/
theorem source_payload_is_confined_demo :
  ∃ folder path, (fileSystem (some ["data", "demo", "b.json"])).resolve ["data", "demo"]
      = some folder ∧ folder <+: path
    ∧ (fileSystem (some ["data", "demo", "b.json"])).node path
      = some (.file (.json (.dict [("trace", .null)])))
  := by
  have hload : loadSourcePayload builtins (fileSystem (some ["data", "demo", "b.json"])) "demo"
      "a.json" = .ok [("trace", .null)] := rfl
  obtain ⟨folder, path, hfolder, -, -, hinside, -, -, hnode⟩ := source_payload_is_confined hload
  exact ⟨folder, path, hfolder, hinside, hnode⟩

/-- It is read as before. -/
theorem outside_is_not_read_overwritten :
  loadSourcePayload builtins overwritten "demo" "a.json"
    = loadSourcePayload builtins (fileSystem (some ["data", "demo", "b.json"])) "demo" "a.json"
  := by
  apply outside_is_not_read
  refine ⟨rfl, rfl, fun path => ?_⟩
  by_cases hpath : path = ["shared", "a.json"]
  · right
    subst hpath
    exact ⟨by decide, ⟨_, rfl⟩, ⟨_, rfl⟩⟩
  · left
    exact if_neg hpath

end Demo

end Evalorch
