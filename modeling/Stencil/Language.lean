import Stencil.Filter
import Stencil.Function
import Stencil.Tag.Basic

/-!
# Languages

The **language** of an engine is what its templates can say: its tags, its filters and
its functions. Every language begins with the built-in ones, and a host that registers
another thing under the name of one of them replaces it.
-/

namespace Stencil

/-- Tags, filters and functions by name. -/
structure Language where
  tags : TagTable := TagTable.builtins
  filters : Table Filter := Filter.builtins
  functions : Table Function := Function.builtins

namespace Language

/-- Adds a tag. -/
def withTag (name : String) (handler : TagHandler) (l : Language) : Language :=
  { l with tags := l.tags.register name handler }

/-- Adds a filter. -/
def withFilter (name : String) (f : Filter) (l : Language) : Language :=
  { l with filters := Table.insert name f l.filters }

/-- Adds a function. -/
def withFunction (name : String) (f : Function) (l : Language) : Language :=
  { l with functions := Table.insert name f l.functions }

end Language

end Stencil
