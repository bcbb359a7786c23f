import Stencil.Text.Replace

/-!
# Template paths

A path is a text of **segments** between slashes, backslashes counting as slashes.
Empty segments and `.` mean nothing, and `..` takes back the segment before it.
**Normalizing** a path drops a `..` that has nothing to take back, and keeps a slash at
the front. A **contained** path is one that stays below its starting directory: it is
not absolute, names no drive, and never takes back more than it has.
-/

namespace Stencil.Path

/-- The segments of a path. -/
def segments (path : String) : List (List Char) :=
  Text.splitAt '/' (path.toList.map fun c => if c = '\\' then '/' else c)

/-- Whether the path begins at the top. -/
def isAbsolute (path : String) : Bool :=
  match path.toList with
  | c :: _ => c = '/' || c = '\\'
  | [] => false

/-- Whether a segment stands for itself. -/
def isOrdinary (segment : List Char) : Bool :=
  segment != [] && segment != ['.'] && segment != ['.', '.']

/-- The segments that are left, on top of `kept`, the last one first. A `..` that has
nothing to take back is dropped. -/
def cancel (kept : List (List Char)) : List (List Char) → List (List Char)
  | [] => kept
  | s :: rest =>
    if s = ['.', '.'] then cancel kept.tail rest
    else if isOrdinary s then cancel (s :: kept) rest
    else cancel kept rest

/-- The segments that are left, unless some `..` has nothing to take back. -/
def cancel? (kept : List (List Char)) : List (List Char) → Option (List (List Char))
  | [] => some kept
  | s :: rest =>
    if s = ['.', '.'] then
      match kept with
      | [] => none
      | _ :: below => cancel? below rest
    else if isOrdinary s then cancel? (s :: kept) rest
    else cancel? kept rest

/-- Segments as a path. -/
def ofSegments (segments : List (List Char)) : String :=
  Text.join "/" (segments.map String.ofList)

/-- The path with nothing left to cancel. -/
def normalize (path : String) : String :=
  let kept := ofSegments (cancel [] (segments path)).reverse
  if isAbsolute path then "/" ++ kept else kept

/-- Whether the first segment names a drive. -/
def namesDrive (path : String) : Bool :=
  match segments path with
  | s :: _ => s.getLast? == some ':'
  | [] => false

/-- The normal form of a path that stays below its starting directory. -/
def contained? (path : String) : Option String :=
  if isAbsolute path || namesDrive path then none
  else (cancel? [] (segments path)).map fun kept => ofSegments kept.reverse

/-- Whether a path lies at `base` or below it, once both are normal. -/
def isInside (base path : String) : Bool :=
  let base := (normalize base).toList
  let path := (normalize path).toList
  let top := if base.getLast? == some '/' then base else base ++ ['/']
  path == base || top.isPrefixOf path

/-- A path that starts at `base`. One that begins with a slash starts at the top. -/
def join (base path : String) : String :=
  if path.toList.head? == some '/' || base.isEmpty then path
  else if base.toList.getLast? == some '/' then base ++ path
  else base ++ "/" ++ path

end Stencil.Path
