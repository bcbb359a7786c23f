import Stencil.Render.Run

/-!
# Rendering

What a host asks of an engine: the output of a template, found by its path or given by
its text, or the output of one of its macros. Each is answered together with the store as
it is afterwards.
-/

namespace Stencil.Engine

/-- A context at the start of a render. -/
def start (scope : Value) (s : Store) : Context :=
  { store := s, scope := Scope.ofValue scope }

/-- The outermost level of a render. -/
def top (e : Engine) : Level := e.level e.config.maxDepth

/-- The output of a template. -/
def output (e : Engine) (t : Template) (scope : Value) (s : Store) : Except Error String × Store :=
  let c := start scope s
  let (r, c) := (e.levelOf c).render t c
  (r.map fun () => c.output, c.store)

/-- Renders the template of a path. -/
def render (e : Engine) (path : String) (scope : Value) (s : Store) :
    Except Error String × Store :=
  match e.fetch path s with
  | (.error fault, s) => (.error fault, s)
  | (.ok t, s) => e.output t scope s

/-- Renders the inline template of a text. -/
def renderInline (e : Engine) (text : String) (scope : Value) (s : Store) :
    Except Error String × Store :=
  match e.fetchInline text s with
  | (.error fault, s) => (.error fault, s)
  | (.ok t, s) => e.output t scope s

/-- Calls a macro of the template of a path. -/
def callMacro (e : Engine) (path name : String) (args : List Value) (s : Store) :
    Except Error String × Store :=
  match e.fetch path s with
  | (.error fault, s) => (.error fault, s)
  | (.ok t, s) =>
    let c := start .null s
    let (r, c) := Action.withTemplate t ((e.belowOf c).callMacro e t name args) c
    (r.map Value.display, c.store)

end Stencil.Engine
