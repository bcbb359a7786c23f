import Stencil.Source.FileTree

/-!
# Templates from files

A **file source** reads templates below a root directory and never outside of it. On
demand it **keeps** what it reads and answers from that later, whatever has become of the
file in the meantime.
-/

namespace Stencil

/-- A root directory, the files as they are now, and the texts kept by their contained
paths. -/
structure FileSource where
  root : String
  tree : FileTree := {}
  kept : Table String := []

namespace FileSource

/-- Reads a file, by its path from the top of the tree. -/
def readFile (s : FileSource) (path : String) : Except Error String :=
  match s.tree.read path with
  | .ok text => .ok text
  | .error .missing => .error (.notFound path)
  | .error fault => .error (.file path fault)

/-- Keeps a text under a contained path. -/
def keep (key text : String) (s : FileSource) : FileSource :=
  { s with kept := Table.insert key text s.kept }

/-- The text of a template; if `useKept`, what is kept, and what is read is kept. -/
def read (path : String) (useKept : Bool) (s : FileSource) : Except Error String × FileSource :=
  match Path.contained? path with
  | none =>
    (.error (.notFound (path ++ " (outside of template root " ++ s.root ++ ")")), s)
  | some key =>
    match if useKept then Table.find? key s.kept else none with
    | some text => (.ok text, s)
    | none =>
      match s.readFile (Path.join s.root key) with
      | .error e => (.error e, s)
      | .ok text => (.ok text, if useKept then s.keep key text else s)

/-- Keeps the files of these names below the root, up to the first that cannot be read.
Gives their number. -/
def preloadNames (s : FileSource) (count : Nat) : List String → Except Error Nat × FileSource
  | [] => (.ok count, s)
  | name :: rest =>
    match s.readFile (FileTree.pathBelow s.root name) with
    | .error e => (.error e, s)
    | .ok text => (s.keep (Path.normalize name) text).preloadNames (count + 1) rest

/-- Keeps all files below the root and gives their number. -/
def preload (s : FileSource) : Except Error Nat × FileSource :=
  s.preloadNames 0 (s.tree.namesBelow s.root)

end FileSource

end Stencil
