import Stencil.Error
import Stencil.Program.Listing

/-!
# Loaded templates

A compiled program is a **draft** until it is loaded. Loading refuses a program whose
blocks or macros hand the rendering over to a parent, and macros that name a parameter
twice. A loaded **template** has an identity: two loads of the same source are two
templates, which matters where a chain of templates is searched for one of them.
-/

namespace Stencil

mutual

/-- Whether the instruction hands the rendering over, the insides of transforms aside. -/
def Instr.handsOver : Instr → Bool
  | .extend _ => true
  | .branch branches otherwise => anyBranchHandsOver branches || anyHandsOver otherwise
  | .loop _ _ _ body otherwise => anyHandsOver body || anyHandsOver otherwise
  | .capture _ body => anyHandsOver body
  | _ => false

def anyHandsOver : List Instr → Bool
  | [] => false
  | i :: is => i.handsOver || anyHandsOver is

def anyBranchHandsOver : List (Expr × List Instr) → Bool
  | [] => false
  | (_, body) :: rest => anyHandsOver body || anyBranchHandsOver rest

end

/-- The first name that comes a second time. -/
def firstDuplicate? (seen : List String) : List String → Option String
  | [] => none
  | name :: rest => if name ∈ seen then some name else firstDuplicate? (name :: seen) rest

/-- What is wrong with a block. -/
def blockFault? (b : String × List Instr) : Option LoadFault :=
  if anyHandsOver b.2 then some (.extendsInBlock b.1) else none

/-- What is wrong with a macro. -/
def macroFault? (m : String × MacroDef) : Option LoadFault :=
  if anyHandsOver m.2.body then some (.extendsInMacro m.1)
  else (firstDuplicate? [] (m.2.params.map Prod.fst)).map (.duplicateParameter · m.1)

/-- The first thing wrong with a program: with a block, or else with a macro. -/
def Program.fault? (p : Program) : Option LoadFault :=
  match p.blocks.findSome? blockFault? with
  | some fault => some fault
  | none => p.macros.findSome? macroFault?

/-- A compiled program that is not loaded yet. -/
structure Draft where
  name : String
  program : Program

/-- The listing of the program. -/
def Draft.listing (d : Draft) : String :=
  d.program.listing d.name

/-- A template that can be rendered. -/
structure Template where
  /-- What tells this template from all others. -/
  id : Nat
  name : String
  program : Program

namespace Template

def main (t : Template) : List Instr := t.program.main

/-- The template's own definition of a block. -/
def block? (t : Template) (name : String) : Option (List Instr) :=
  Table.find? name t.program.blocks

def hasBlock (t : Template) (name : String) : Bool :=
  (t.block? name).isSome

def findMacro? (t : Template) (name : String) : Option MacroDef :=
  Table.find? name t.program.macros

def listing (t : Template) : String := t.program.listing t.name

end Template

/-- Loads a program, giving it its identity. -/
def Draft.load (d : Draft) (id : Nat) : Except Error Template :=
  match d.program.fault? with
  | some fault => .error (.load d.name fault d.listing)
  | none => .ok { id, name := d.name, program := d.program }

end Stencil
