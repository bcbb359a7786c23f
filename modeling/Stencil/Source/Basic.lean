import Stencil.Source.Assets
import Stencil.Source.Files

/-!
# Sources

A **source** is where the texts of templates come from: the memory of the host, files
below a directory, or the assets. A host may also bring a lookup of its own. Only such
lookups are told here that give the same answer whenever they are asked, and that fail by
not finding; one that changes over time, or that fails otherwise, is left out.
-/

namespace Stencil

/-- Where templates come from. In memory they stand under their normal paths. -/
inductive Source where
  | memory (templates : Table String)
  | files (s : FileSource)
  | assets (s : AssetStore)
  /-- What the host finds under a path, with the use of copies allowed or not. -/
  | host (lookup : String → Bool → Option String)

namespace Source

/-- A source without templates. -/
def empty : Source := .memory []

/-- Puts a template into memory. Other sources are not written to. -/
def add (path text : String) : Source → Source
  | memory templates => memory (Table.insert (Path.normalize path) text templates)
  | s => s

/-- A memory source of some templates. -/
def ofTemplates (templates : List (String × String)) : Source :=
  templates.foldl (fun s t => s.add t.1 t.2) empty

/-- What was looked up under a path. -/
def foundAt (path : String) : Option String → Except Error String
  | some text => .ok text
  | none => .error (.notFound path)

/-- The text of a template. A source with a copy of its own may answer from that if
`useKept`. -/
def read (path : String) (useKept : Bool) : Source → Except Error String × Source
  | memory templates =>
    (foundAt path (Table.find? (Path.normalize path) templates), memory templates)
  | files s =>
    let (r, s) := s.read path useKept
    (r, files s)
  | assets s => (foundAt path (s.find? path), assets s)
  | host lookup => (foundAt path (lookup path useKept), host lookup)

end Source

end Stencil
