import Stencil.Program.Instr
import Stencil.Token.Basic

/-!
# Tags

A tag is known by its first word. A **handler** says what it does: the built-in ones form
conditions, loops and so on, a **terminator** ends the body of some tag before it, and an
extension of the language may add transforms of its body, terminators for them, and tags
that stand for a fixed text. A host's own handlers go before the built-in ones.

An **open** tag is one whose end is still to come. It knows which terminators may end it.
-/

namespace Stencil

/-- The tags that every engine has. -/
inductive BuiltinTag where
  | condition
  | loop
  | set
  | block
  | extend
  | embed
  | macroDef
  | importAs
  | importNames
  deriving DecidableEq, Repr

/-- What a tag does. -/
inductive TagHandler where
  | builtin (tag : BuiltinTag)
  | terminator
  /-- Transforms a body that ends with the tag `closer`. -/
  | transform (t : Transform) (closer : String)
  /-- Stands for a text, whatever its arguments. -/
  | constant (text : String)
  deriving DecidableEq, Repr

/-- Handlers by the names of their tags. -/
abbrev TagTable := Table TagHandler

namespace TagTable

/-- The tags that every engine has. -/
def builtins : TagTable := Table.ofEntries [
  ("if", .builtin .condition),
  ("for", .builtin .loop),
  ("set", .builtin .set),
  ("block", .builtin .block),
  ("extends", .builtin .extend),
  ("include", .builtin .embed),
  ("macro", .builtin .macroDef),
  ("import", .builtin .importAs),
  ("from", .builtin .importNames),
  ("elseif", .terminator),
  ("elif", .terminator),
  ("else", .terminator),
  ("endif", .terminator),
  ("endfor", .terminator),
  ("endset", .terminator),
  ("endblock", .terminator),
  ("endmacro", .terminator)]

/-- Registers a handler, in place of one of the same name. -/
def register (name : String) (handler : TagHandler) (tags : TagTable) : TagTable :=
  Table.insert name handler tags

end TagTable

/-- A tag that ended a body, and what stands after its name. -/
structure Terminator where
  tag : String
  args : List Token
  deriving DecidableEq, Repr

/-- What has been read of a tag whose end is still to come. -/
inductive OpenTag where
  /-- A condition, its branches so far and the condition of the next one. -/
  | branch (done : List (Expr × List Instr)) (cond : Expr)
  | otherwise (branches : List (Expr × List Instr))
  | loop (key : Option String) (value : String) (iterable : Expr)
  | loopElse (key : Option String) (value : String) (iterable : Expr) (body : List Instr)
  | capture (name : String)
  | block (name : String)
  | macroBody (name : String)
  | transform (tag : String) (t : Transform) (closer : String)

namespace OpenTag

/-- The name of the tag in error texts. -/
def opener : OpenTag → String
  | branch .. | otherwise .. => "if"
  | loop .. | loopElse .. => "for"
  | capture _ => "set"
  | block _ => "block"
  | macroBody _ => "macro"
  | transform tag _ _ => tag

/-- The tags that may end it. -/
def expected : OpenTag → List String
  | branch .. => ["elseif", "elif", "else", "endif"]
  | otherwise .. => ["endif"]
  | loop .. => ["else", "endfor"]
  | loopElse .. => ["endfor"]
  | capture _ => ["endset"]
  | block _ => ["endblock"]
  | macroBody _ => ["endmacro"]
  | transform _ _ closer => [closer]

end OpenTag

end Stencil
