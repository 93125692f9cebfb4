import Chronicle.Keyed

/-!
# Folders

What stands at a path is a folder, a file with a text, or a file whose bytes are no text. A folder
lists its entries by name in an order of its own, each with the moment of its last change; moments
are counted. A listing gives one entry after another and can fail at any of them.
-/

namespace Chronicle

/-- What stands at a path where there is something. -/
inductive Entry where
  | folder
  | text (cs : List Char)
  | binary
deriving DecidableEq

/-- The text in a file. -/
def Entry.text? : Entry → Option (List Char)
  | text cs => some cs
  | _ => none

/-- An entry and the moment of its last change. -/
structure Stamped where
  entry : Entry
  modified : Nat
deriving DecidableEq

/-- The entries of a folder by name. -/
abbrev Folder := List (String × Stamped)

namespace Folder

/-- The text in the file of the given name. -/
def text? (folder : Folder) (name : String) : Option (List Char) :=
  (folder.lookup name).bind fun stamped ↦ stamped.entry.text?

/-- Writes a file, which fails where a folder has the name. -/
def write? (folder : Folder) (name : String) (cs : List Char) (now : Nat) : Option Folder :=
  if (folder.lookup name).any fun stamped ↦ stamped.entry = .folder then none
  else some (Keyed.insert name ⟨.text cs, now⟩ folder)

end Folder

/-- How the listing of a folder goes: to its end, or up to a failure after so many entries. -/
inductive Scan where
  | whole
  | broken (count : Nat)
deriving DecidableEq

/-- What a listing gives: the entries in order, and `none` where it fails. -/
def Folder.listed (folder : Folder) : Scan → List (Option (String × Stamped))
  | .whole => folder.map some
  | .broken count => (folder.take count).map some ++ [none]

/-- What stands at the path of a directory: nothing, a folder, or something that keeps a folder from
being there. -/
inductive Place where
  | vacant
  | folder (folder : Folder)
  | blocked
deriving DecidableEq

/-- What a disk shows at the path of a file and at the path of a directory. A directory is listed to
its end, or else it counts as blocked. -/
structure Disk (m : Type → Type) where
  entry : String → m (Option Entry)
  place : String → m Place

end Chronicle
