import Stencil.Program.Instr

/-!
# Writing programs

A program is written instruction by instruction into **segments**: the main one, one for
each block and one for each macro. Writing goes to the **active** segment, and entering a
block or a macro makes its segment active until it is left; a segment entered again is
written on at its end. A **capture** takes what is written in the meantime aside instead.

`withBlock`, `withMacro` and `withCapture` enter, do something that may fail, and leave
again in either case.
-/

namespace Stencil

/-- A place to write to, other than the main segment. -/
inductive Frame where
  | block (name : String)
  | macroBody (name : String)
  /-- What was captured so far. -/
  | capture (written : List Instr)

/-- The segments of a program in the making, and the places entered and not yet left,
innermost first. -/
structure Accumulator where
  main : List Instr := []
  blocks : Table (List Instr) := []
  macros : Table (List Instr) := []
  params : Table Params := []
  frames : List Frame := []

namespace Accumulator

/-- The segment under a name with more at its end; it is made if it is not there. -/
def append (name : String) (more : List Instr) (t : Table (List Instr)) : Table (List Instr) :=
  Table.insert name ((Table.find? name t).getD [] ++ more) t

/-- Writes an instruction to the innermost place. -/
def write (i : Instr) (a : Accumulator) : Accumulator :=
  match a.frames with
  | [] => { a with main := a.main ++ [i] }
  | .block name :: _ => { a with blocks := append name [i] a.blocks }
  | .macroBody name :: _ => { a with macros := append name [i] a.macros }
  | .capture written :: outer => { a with frames := .capture (written ++ [i]) :: outer }

/-- Enters the segment of a block. -/
def enterBlock (name : String) (a : Accumulator) : Accumulator :=
  { a with blocks := append name [] a.blocks, frames := .block name :: a.frames }

/-- Enters the segment of a macro. -/
def enterMacro (name : String) (a : Accumulator) : Accumulator :=
  { a with macros := append name [] a.macros, frames := .macroBody name :: a.frames }

/-- Begins a capture. -/
def enterCapture (a : Accumulator) : Accumulator :=
  { a with frames := .capture [] :: a.frames }

/-- What the innermost place has captured. -/
def captured (a : Accumulator) : List Instr :=
  match a.frames with
  | .capture written :: _ => written
  | _ => []

/-- Leaves the innermost place. -/
def leave (a : Accumulator) : Accumulator :=
  { a with frames := a.frames.tail }

/-- Leaves the `n` innermost places. -/
def leaveAll (n : Nat) (a : Accumulator) : Accumulator :=
  { a with frames := a.frames.drop n }

/-- Sets the parameters of a macro. -/
def setParams (name : String) (params : Params) (a : Accumulator) : Accumulator :=
  { a with params := Table.insert name params a.params }

/-- Whether the main segment is active. -/
def inMain (a : Accumulator) : Bool :=
  a.frames.isEmpty

section Scoped

variable {ε α : Type}

/-- Something that writes to an accumulator and may fail. What it wrote stays. -/
abbrev Writer (ε α : Type) := Accumulator → Except ε α × Accumulator

/-- Does something inside a block. -/
def withBlock (name : String) (body : Writer ε α) : Writer ε α := fun a =>
  let (r, a) := body (a.enterBlock name)
  (r, a.leave)

/-- Does something inside a macro. -/
def withMacro (name : String) (body : Writer ε α) : Writer ε α := fun a =>
  let (r, a) := body (a.enterMacro name)
  (r, a.leave)

/-- Does something and gives what it wrote. If it fails, that is lost. -/
def withCapture (body : Writer ε α) : Writer ε (List Instr × α) := fun a =>
  let (r, a) := body a.enterCapture
  (r.map fun x => (a.captured, x), a.leave)

end Scoped

/-- The finished program. A macro without parameters set has none. -/
def finish (a : Accumulator) : Program where
  main := a.main
  blocks := a.blocks
  macros := a.macros.map fun m =>
    (m.1, { params := (Table.find? m.1 a.params).getD [], body := m.2 })

end Accumulator

end Stencil
