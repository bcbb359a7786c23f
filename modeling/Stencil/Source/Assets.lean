import Stencil.Source.FileTree

/-!
# Templates as assets

An **asset store** holds templates by their normal names, registered from memory or from
files. A name that comes a second time is a fault, but its new text has replaced the old
one by then.
-/

namespace Stencil

/-- Templates by their normal names. -/
abbrev AssetStore := Table String

namespace AssetStore

/-- Registers a template that comes from a source. -/
def register (name text source : String) (s : AssetStore) : Except AssetFault Unit × AssetStore :=
  let name := Path.normalize name
  let fault : Except AssetFault Unit :=
    if Table.has name s then .error (.duplicate name source) else .ok ()
  (fault, Table.insert name text s)

/-- Registers templates from memory, up to the first fault. -/
def load : List (String × String) → AssetStore → Except AssetFault Unit × AssetStore
  | [], s => (.ok (), s)
  | (name, text) :: rest, s =>
    match register name text "memory" s with
    | (.ok (), s) => load rest s
    | (.error fault, s) => (.error fault, s)

/-- Registers the files of these names below `base`, up to the first fault. Gives their
number. -/
def loadNames (tree : FileTree) (base : String) (count : Nat) :
    List String → AssetStore → Except AssetFault Nat × AssetStore
  | [], s => (.ok count, s)
  | name :: rest, s =>
    let path := FileTree.pathBelow base name
    match tree.read path with
    | .error fault => (.error (.unreadable path fault), s)
    | .ok text =>
      match register name text path s with
      | (.ok (), s) => loadNames tree base (count + 1) rest s
      | (.error fault, s) => (.error fault, s)

/-- Registers all files below a directory and gives their number. -/
def loadTree (tree : FileTree) (base : String) (s : AssetStore) :
    Except AssetFault Nat × AssetStore :=
  loadNames tree base 0 (tree.namesBelow base) s

/-- The text of a template. -/
def find? (name : String) (s : AssetStore) : Option String :=
  Table.find? (Path.normalize name) s

end AssetStore

end Stencil
