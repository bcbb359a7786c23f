import Stencil.Expr.Basic
import Stencil.Table

/-!
# Instructions

A template is compiled to a **program**, whose instructions nest as the tags of the
template do. Its main instructions run from the start; the instructions of a **block** or
of a **macro** run when they are called. A **transform** runs its body aside and writes
the changed text; it is how an extension of the language adds to the instructions.
-/

namespace Stencil

/-- The changes that a transform can make to a text. -/
inductive Transform where
  | upper
  deriving DecidableEq, Repr

/-- One instruction. -/
inductive Instr where
  | text (s : String)
  | output (e : Expr)
  /-- Runs the first branch whose condition holds, or else the last body. -/
  | branch (branches : List (Expr × List Instr)) (otherwise : List Instr)
  /-- Runs the body for each pair of a value, or the other body if there is none. -/
  | loop (key : Option String) (value : String) (iterable : Expr)
      (body otherwise : List Instr)
  | set (name : String) (value : Expr)
  /-- Sets a name to the text that the body writes. -/
  | capture (name : String) (body : List Instr)
  | callBlock (name : String)
  /-- Hands the rendering over to a parent template. -/
  | extend (parent : Expr)
  | embed (template : Expr) (vars : Option Expr) (only ignoreMissing : Bool)
  | importAs (template : Expr) (newName : String)
  | importNames (template : Expr) (names : List (String × String))
  | transform (t : Transform) (body : List Instr)

instance : Inhabited Instr := ⟨.text ""⟩

/-- The parameters of a macro, some with a default. -/
abbrev Params := List (String × Option Expr)

/-- A macro: its parameters and what it runs. -/
structure MacroDef where
  params : Params := []
  body : List Instr

/-- The instructions of one compiled template. -/
structure Program where
  main : List Instr := []
  blocks : Table (List Instr) := []
  macros : Table MacroDef := []

end Stencil
