import Mathlib.Data.List.Infix

/-!
# File trees with symbolic links

A tree has nodes at paths: folders with the names in them, files, and symbolic links. A path is
resolved part by part, where a link is replaced by its target, up to a limit on the number of
links. A resolved path has no links left, so resolving it again changes nothing, and a path and
its resolution find the same node.
-/

namespace Storage

/-- The parts of a path from the root. -/
abbrev Path : Type := List String

/-- A node: a folder with its names, or the reason why they cannot be listed; a file; or a link
with the parts of its target, from the root or from the folder of the link. -/
inductive Node (α : Type) where
  | folder (names : Except String (List String))
  | file (content : α)
  | link (absolute : Bool) (parts : List String)

/-- The node is not a link. -/
def Node.solid {α : Type} : Node α → Prop
  | .link _ _ => False
  | _ => True

/-- A name that a folder may list. -/
structure IsName (name : String) : Prop where
  notEmpty : name ≠ ""
  notSelf : name ≠ "."
  notParent : name ≠ ".."
  noSlash : '/' ∉ name.toList

/-- A tree of files, with the number of links that a path may follow. -/
structure FileTree (α : Type) where
  node : Path → Option (Node α)
  limit : ℕ
  listed : ∀ path names, node path = some (.folder (.ok names)) → ∀ name ∈ names, IsName name

namespace FileTree

variable {α : Type} (t : FileTree α)

/-- Walk parts from a path that is resolved; `onLink` goes on at a link, with the parts of its
target and those after it. -/
def walk (onLink : Path → Bool → List String → List String → Option Path) :
    Path → List String → Option Path
  | current, [] => some current
  | current, part :: rest =>
    if part = ".." then walk onLink current.dropLast rest
    else
      match t.node (current ++ [part]) with
      | some (.link absolute target) => onLink current absolute target rest
      | _ => walk onLink (current ++ [part]) rest

/-- Follow parts from a path that is resolved. -/
def follow : ℕ → Path → List String → Option Path
  | 0 => t.walk fun _ _ _ _ => none
  | limit + 1 => t.walk fun current absolute target rest =>
      follow limit (if absolute then [] else current) (target ++ rest)

/-- The path without links, if the limit suffices. -/
def resolve (path : Path) : Option Path :=
  t.follow t.limit [] path

/-- The node that a path leads to. -/
def find (path : Path) : Option (Node α) :=
  (t.resolve path).bind t.node

/-- No part of the path leads to a link or to a parent. -/
def Settled (path : Path) : Prop :=
  ∀ before part, before ++ [part] <+: path →
    part ≠ ".." ∧ ∀ node ∈ t.node (before ++ [part]), node.solid

variable {t}

theorem settled_nil :
  t.Settled []
  := by
  intro before part h
  have hlength := h.length_le
  simp at hlength

/-- A beginning of a settled path is settled. -/
theorem Settled.of_prefix {path path' : Path} (h : t.Settled path) (hbegins : path' <+: path) :
  t.Settled path'
  := fun before part hpart => h before part (hpart.trans hbegins)

/-- A settled path goes on with a part that is no link. -/
theorem Settled.snoc {path : Path} {part : String} (h : t.Settled path) (hpart : part ≠ "..")
    (hsolid : ∀ node ∈ t.node (path ++ [part]), node.solid) :
  t.Settled (path ++ [part])
  := by
  intro before last hlast
  rcases List.prefix_concat_iff.mp hlast with heq | hbefore
  · obtain ⟨rfl, hsame⟩ := List.append_inj' heq rfl
    cases hsame
    exact ⟨hpart, hsolid⟩
  · apply h before last hbefore

/-- What is walked from a settled path is settled, when the walk after a link is. -/
theorem Settled.walk {onLink : Path → Bool → List String → List String → Option Path}
    {current path : Path} {parts : List String}
    (honLink : ∀ current absolute target rest path, t.Settled current →
      onLink current absolute target rest = some path → t.Settled path)
    (hcurrent : t.Settled current) (h : t.walk onLink current parts = some path) :
  t.Settled path
  := by
  induction parts generalizing current with
  | nil =>
    cases h
    apply hcurrent
  | cons part rest ih =>
    rw [FileTree.walk] at h
    split at h
    case isTrue => exact ih (hcurrent.of_prefix (List.dropLast_prefix current)) h
    case isFalse hpart =>
      split at h
      case h_1 absolute target hnode => exact honLink _ _ _ _ _ hcurrent h
      case h_2 hnot =>
        apply ih (hcurrent.snoc hpart _) h
        intro node hnode
        cases node with
        | link absolute target => exact absurd hnode (hnot absolute target)
        | folder names => trivial
        | file content => trivial

/-- What is followed from a settled path is settled. -/
theorem Settled.follow {limit : ℕ} {current path : Path} {parts : List String}
    (hcurrent : t.Settled current) (h : t.follow limit current parts = some path) :
  t.Settled path
  := by
  induction limit generalizing current path parts with
  | zero =>
    apply hcurrent.walk _ h
    simp
  | succ limit ih =>
    apply hcurrent.walk _ h
    intro current absolute target rest path hcurrent hfollow
    apply ih _ hfollow
    split
    · apply settled_nil
    · apply hcurrent

/-- A resolved path is settled. -/
theorem settled_resolve {path resolved : Path} (h : t.resolve path = some resolved) :
  t.Settled resolved
  := settled_nil.follow h

/-- A path finds what its resolution finds. -/
theorem find_eq {path resolved : Path} (h : t.resolve path = some resolved) :
  t.find path = t.node resolved
  := by rw [find, h, Option.bind_some]

/-! ### Trees with the same links -/

/-- A path leads to the same link in both trees, if to any. -/
structure SameLinks (t t' : FileTree α) : Prop where
  limit : t'.limit = t.limit
  links : ∀ path absolute parts,
    t'.node path = some (.link absolute parts) ↔ t.node path = some (.link absolute parts)

namespace SameLinks

variable {t' : FileTree α}

theorem walk (h : SameLinks t t')
    {onLink onLink' : Path → Bool → List String → List String → Option Path}
    (honLink : ∀ current absolute target rest,
      onLink' current absolute target rest = onLink current absolute target rest)
    (current : Path) (parts : List String) :
  t'.walk onLink' current parts = t.walk onLink current parts
  := by
  induction parts generalizing current with
  | nil => rfl
  | cons part rest ih =>
    rw [FileTree.walk, FileTree.walk]
    split
    case isTrue => apply ih
    case isFalse =>
      split
      case h_1 absolute target hnode =>
        rw [(h.links _ _ _).mp hnode, honLink]
      case h_2 hnot =>
        split
        case h_1 absolute target hnode =>
          exact absurd ((h.links _ _ _).mpr hnode) (hnot absolute target)
        case h_2 => apply ih

theorem follow (h : SameLinks t t') (limit : ℕ) (current : Path) (parts : List String) :
  t'.follow limit current parts = t.follow limit current parts
  := by
  induction limit generalizing current parts with
  | zero => exact h.walk (fun _ _ _ _ => rfl) current parts
  | succ limit ih => exact h.walk (fun _ _ _ _ => ih _ _) current parts

/-- Trees with the same links resolve paths alike. -/
theorem resolve (h : SameLinks t t') (path : Path) :
  t'.resolve path = t.resolve path
  := by rw [FileTree.resolve, FileTree.resolve, h.limit, h.follow]

end SameLinks

end FileTree

end Storage
