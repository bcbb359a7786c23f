import Stencil.Program.Template

/-!
# Caches

A **cache** holds the loaded templates, those read from a source by their paths and the
inline ones by their texts, and nothing leaves it by itself. It also hands out the
**identities** of templates, each only once.
-/

namespace Stencil

/-- Loaded templates by path and by text, and the next identity. -/
structure Cache where
  byPath : Table Template := []
  byText : Table Template := []
  nextId : Nat := 0

namespace Cache

def findPath? (path : String) (c : Cache) : Option Template :=
  Table.find? path c.byPath

def findText? (text : String) (c : Cache) : Option Template :=
  Table.find? text c.byText

def evictPath (path : String) (c : Cache) : Cache :=
  { c with byPath := Table.erase path c.byPath }

def evictText (text : String) (c : Cache) : Cache :=
  { c with byText := Table.erase text c.byText }

/-- Stores a template, which takes the next identity, under a path. -/
def insertPath (path : String) (t : Template) (c : Cache) : Cache :=
  { c with byPath := Table.insert path t c.byPath, nextId := c.nextId + 1 }

/-- Stores a template, which takes the next identity, under its text. -/
def insertText (text : String) (t : Template) (c : Cache) : Cache :=
  { c with byText := Table.insert text t c.byText, nextId := c.nextId + 1 }

/-- Forgets all templates. -/
def clear (c : Cache) : Cache :=
  { c with byPath := [], byText := [] }

/-- The number of templates held. -/
def size (c : Cache) : Nat :=
  c.byPath.length + c.byText.length

end Cache

end Stencil
