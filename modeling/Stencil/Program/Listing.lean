import Stencil.Expr.Printer
import Stencil.Program.Instr

/-!
# Program listings

The **listing** of a program shows it line by line, nested instructions indented under
their own. It goes with the errors about a program, and a compiled template keeps it.
-/

namespace Stencil

/-- The name of a transform in listings. -/
def Transform.label : Transform → String
  | .upper => "Upper"

namespace Instr

/-- A line at an indent, which counts pairs of blanks. -/
def line (indent : Nat) (s : String) : String :=
  String.ofList (List.replicate (2 * indent) ' ') ++ s

/-- The keyword of a branch: the first one is an `if`. -/
def branchWord (first : Bool) : String :=
  if first then "if" else "elseif"

/-- The head of a loop. -/
def loopHead (key : Option String) (value : String) (iterable : Expr) : String :=
  let names := match key with
    | some k => k ++ ", " ++ value
    | none => value
  "for " ++ names ++ " in " ++ iterable.display ++ ":"

/-- The whole line of an include. -/
def embedLine (template : Expr) (vars : Option Expr) (only ignoreMissing : Bool) : String :=
  "include " ++ template.display ++ (if ignoreMissing then " ignore missing" else "") ++
    (match vars with
      | some e => " with " ++ e.display
      | none => "") ++
    (if only then " only" else "")

/-- A name and its alias. -/
def aliasing (n : String × String) : String :=
  n.1 ++ " as " ++ n.2

mutual

/-- The lines of one instruction. -/
def lines (indent : Nat) : Instr → List String
  | .text s => [line indent ("write_text " ++ Text.quote s)]
  | .output e => [line indent ("write_expr " ++ e.display)]
  | .branch branches otherwise =>
    branchLines indent true branches ++ elseLines indent otherwise ++ [line indent "end"]
  | .loop key value iterable body otherwise =>
    line indent (loopHead key value iterable) :: (listLines (indent + 1) body ++
      elseLines indent otherwise ++ [line indent "end"])
  | .set name value => [line indent ("set " ++ name ++ " = " ++ value.display)]
  | .capture name body =>
    line indent ("capture " ++ name ++ ":") :: (listLines (indent + 1) body ++
      [line indent "end"])
  | .callBlock name => [line indent ("call_block " ++ Text.quote name)]
  | .extend parent => [line indent ("extends " ++ parent.display)]
  | .embed template vars only ignoreMissing =>
    [line indent (embedLine template vars only ignoreMissing)]
  | .importAs template newName =>
    [line indent ("import " ++ template.display ++ " as " ++ newName)]
  | .importNames template names =>
    [line indent ("from " ++ template.display ++ " import " ++
      Text.join ", " (names.map aliasing))]
  | .transform t body =>
    [line indent ("custom " ++ t.label ++ "(" ++ toString body.length ++ ")")]

/-- The lines of a list of instructions. -/
def listLines (indent : Nat) : List Instr → List String
  | [] => []
  | i :: is => lines indent i ++ listLines indent is

/-- The lines of the branches of a condition. -/
def branchLines (indent : Nat) (first : Bool) : List (Expr × List Instr) → List String
  | [] => []
  | (cond, body) :: rest =>
    line indent (branchWord first ++ " " ++ cond.display ++ ":") ::
      (listLines (indent + 1) body ++ branchLines indent false rest)

/-- The lines of what runs otherwise, if there is anything. -/
def elseLines (indent : Nat) : List Instr → List String
  | [] => []
  | i :: is => line indent "else:" :: (lines (indent + 1) i ++ listLines (indent + 1) is)

end

end Instr

/-- Lines as a text, each ended by a line feed. -/
def unlines (ls : List String) : String :=
  ls.foldr (fun l rest => l ++ "\n" ++ rest) ""

/-- The listing of a list of instructions. -/
def Instr.listing (indent : Nat) (instrs : List Instr) : String :=
  unlines (Instr.listLines indent instrs)

/-- A parameter with its default. -/
def MacroDef.param : String × Option Expr → String
  | (name, some default) => name ++ " = " ++ default.display
  | (name, none) => name

/-- The parameters of a macro as they are listed. -/
def MacroDef.signature (d : MacroDef) : String :=
  Text.join ", " (d.params.map MacroDef.param)

/-- The listing of a program under a name. -/
def Program.listing (p : Program) (name : String) : String :=
  let block (b : String × List Instr) : List String :=
    ("block " ++ b.1 ++ ":") :: ("  with_current_block " ++ Text.quote b.1) ::
      Instr.listLines 2 b.2
  let macroLines (m : String × MacroDef) : List String :=
    ("  macro " ++ m.1 ++ "(" ++ m.2.signature ++ "):") :: Instr.listLines 2 m.2.body
  unlines (
    ["template " ++ Text.quote name, "render:", "  set_current_template", "  call main", "main:"] ++
    Instr.listLines 1 p.main ++
    p.blocks.flatMap block ++
    ["macros:", "  bind runtime"] ++
    p.macros.flatMap macroLines)

end Stencil
