import Stencil.Engine.Render
import Stencil.Json.Reader

/-!
# The command line

The arguments are a directory, a template in it and, if wanted, a JSON file whose members
are the scope. The output is written if all of it is there, or else the error and, under
*Caused by*, what lies behind it.
-/

namespace Stencil.CommandLine

/-- What a run leaves. -/
structure Report where
  code : Nat := 0
  stdout : String := ""
  stderr : String := ""
  deriving DecidableEq, Repr

/-- Why a run fails. -/
inductive Failure where
  | usage
  | scopeFile (path : String) (fault : FileFault)
  | scopeText (path reason : String)
  | template (e : Error)

namespace Failure

/-- What went wrong. -/
def message : Failure → String
  | usage => "usage: stanza <template-dir> <template> [scope.json]"
  | scopeFile path _ => "Failed to read scope file: " ++ path
  | scopeText path _ => "Invalid JSON in scope file: " ++ path
  | template e => e.message

/-- What lies behind it, if that is known. -/
def cause? : Failure → Option String
  | usage => none
  | scopeFile _ fault => some fault.message
  | scopeText _ reason => some reason
  | template (.file _ fault) => some fault.message
  | template _ => none

/-- The report of a failed run. -/
def report (f : Failure) : Report where
  code := 1
  stderr := "Error: " ++ f.message ++
    (match f.cause? with
      | some cause => "\n\nCaused by:\n    " ++ cause
      | none => "") ++ "\n"

end Failure

/-- The scope that a JSON file gives. -/
def readScope (tree : FileTree) (path : String) : Except Failure Value :=
  match tree.read path with
  | .error fault => .error (.scopeFile path fault)
  | .ok text =>
    match Json.read text with
    | .error fault => .error (.scopeText path (fault.message text))
    | .ok j => j.toDatum.toValue.mapError .template

/-- Renders a template below a directory. -/
def render (tree : FileTree) (root template : String) (scope : Value) : Except Failure String :=
  let store : Store := { source := .files { root, tree } }
  (Engine.render {} template scope store).1.mapError .template

/-- Does what the arguments ask for. -/
def answer (tree : FileTree) : List String → Except Failure String
  | [root, template] => render tree root template (.map [])
  | [root, template, scopeFile] => do
    render tree root template (← readScope tree scopeFile)
  | _ => .error .usage

/-- Runs the command line on the files that are there. -/
def run (tree : FileTree) (args : List String) : Report :=
  match answer tree args with
  | .ok output => { stdout := output }
  | .error f => f.report

end Stencil.CommandLine
