import Stencil.Error
import Stencil.Path
import Stencil.Table

/-!
# File trees

What a directory holds at some moment: files with their bytes, and directories. A path
is **resolved** segment by segment from the top. An empty segment or `.` stays where it
is and `..` goes up, but only a directory has anything below or beside it, so a path may
fail although its normal form would not.
-/

namespace Stencil

/-- Files and directories by the path from the top, with single slashes between names.
The top itself is always there. -/
structure FileTree where
  files : Table ByteArray := []
  directories : List String := []

namespace FileTree

/-- The longest name in bytes. -/
def maxName : Nat := 255

/-- The longest path in bytes, whatever its segments are. -/
def maxPath : Nat := 4095

/-- The key of a place, which lists the names from the innermost out. -/
def key (place : List String) : String :=
  Text.join "/" place.reverse

def isFile (t : FileTree) (place : List String) : Bool :=
  Table.has (key place) t.files

def isDirectory (t : FileTree) (place : List String) : Bool :=
  place.isEmpty || t.directories.contains (key place)

/-- The segments of a path. -/
def segments (path : String) : List String :=
  (Text.splitAt '/' path.toList).map String.ofList

/-- Where a path starts: at the top of the tree, or at the place of absolute paths, which
has a name that no segment has. -/
def origin (path : String) : List String :=
  if path.toList.head? == some '/' then ["/"] else []

/-- The directory around a place. There is none around those where paths start. -/
def up : List String → List String
  | [] => []
  | [s] => if s = "/" then [s] else []
  | _ :: outer => outer

/-- Where segments lead from a place. -/
def resolve (t : FileTree) (place : List String) : List String → Except FileFault (List String)
  | [] => .ok place
  | s :: rest =>
    if t.isFile place then .error .notDirectory
    else if s = "" || s = "." then t.resolve place rest
    else if s = ".." then t.resolve (up place) rest
    else if maxName < s.utf8ByteSize then .error .nameTooLong
    else if t.isFile (s :: place) || t.isDirectory (s :: place) then t.resolve (s :: place) rest
    else .error .missing

/-- Where a path leads. -/
def locate (t : FileTree) (path : String) : Except FileFault (List String) :=
  if path.toList.contains '\x00' then .error .nulInPath
  else if path.isEmpty then .error .missing
  else if maxPath < path.utf8ByteSize then .error .nameTooLong
  else t.resolve (origin path) (segments path)

/-- The text of a file. -/
def read (t : FileTree) (path : String) : Except FileFault String := do
  let place ← t.locate path
  match Table.find? (key place) t.files with
  | none => throw .isDirectory
  | some bytes =>
    match String.fromUTF8? bytes with
    | some text => return text
    | none => throw .notText

/-! ### Changes -/

/-- The place that a segment leads to if all that it needs is there. -/
def enter (place : List String) (s : String) : List String :=
  if s = "" || s = "." then place else if s = ".." then up place else s :: place

/-- The place that a path leads to if all that it needs is there. -/
def placeOf (path : String) : List String :=
  (segments path).foldl enter (origin path)

/-- Adds a directory and those around it. -/
def addPlace (t : FileTree) : List String → FileTree
  | [] => t
  | s :: outer =>
    let t := t.addPlace outer
    if t.isDirectory (s :: outer) then t
    else { t with directories := key (s :: outer) :: t.directories }

def addDirectory (path : String) (t : FileTree) : FileTree :=
  t.addPlace (placeOf path)

/-- Writes a file, in directories that are made if need be. -/
def write (path : String) (bytes : ByteArray) (t : FileTree) : FileTree :=
  let place := placeOf path
  let t := t.addPlace place.tail
  { t with files := Table.insert (key place) bytes t.files }

/-- Takes a file away. -/
def remove (path : String) (t : FileTree) : FileTree :=
  { t with files := Table.erase (key (placeOf path)) t.files }

/-! ### All files below -/

/-- What a key is called from a place, if it lies there or below. -/
def nameFrom? (place : List String) (name : String) : Option String :=
  if place.isEmpty then some name
  else if name = key place then some ""
  else (Text.dropPattern? ((key place).toList ++ ['/']) name.toList).map String.ofList

/-- The path of a file by its name from `base`. -/
def pathBelow (base name : String) : String :=
  if name.isEmpty then base else Path.join base name

/-- The files at or below a path, by their names from there. A path that leads nowhere
has none, and files whose own paths are too long are passed over. -/
def namesBelow (t : FileTree) (path : String) : List String :=
  match t.locate path with
  | .ok place =>
    let names := t.files.filterMap fun f => nameFrom? place f.1
    names.filter fun name => (pathBelow path name).utf8ByteSize ≤ maxPath
  | .error _ => []

end FileTree

end Stencil
