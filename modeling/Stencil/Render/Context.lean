import Stencil.Engine.Basic
import Stencil.Scope

/-!
# Rendering contexts

A **context** is the state of a render: the output so far, the scope, and whose
instructions run. The **chain** holds the template that is rendered and the parents it
has been handed to, the most derived first. The **owners** are the templates whose
instructions run one inside the other, the **blocks** those blocks of theirs that are
being rendered, both with the innermost first. Imports belong to the context as well, and
so does the **depth**, the number of levels of nesting around what runs.

An **action** works on a context and may fail. What it has changed before it fails stays,
so everything that puts a part of the context aside for a while also puts it back after a
failure.
-/

namespace Stencil

/-- The state of a render. -/
structure Context where
  store : Store := {}
  scope : Scope := {}
  output : String := ""
  chain : List Template := []
  blocks : List (Template × String) := []
  owners : List Template := []
  /-- Imported templates by alias. -/
  imports : Table Template := []
  /-- Macros imported one by one: by alias, the template and the name in it. -/
  importedMacros : Table (Template × String) := []
  /-- How many levels of nesting have been entered and not left. -/
  depth : Nat := 0

/-- Something done to a context that may fail. -/
abbrev Action := ExceptT Error (StateM Context)

namespace Action

variable {α : Type}

/-- Fails with a fault of the render. -/
def fault (f : RenderFault) : Action α :=
  throw (.render f)

/-- A result that does not depend on the context. -/
def lift (r : Except Error α) : Action α :=
  fun c => (r, c)

/-- Does something to the store. -/
def onStore (f : Store → Except Error α × Store) : Action α := fun c =>
  let (r, store) := f c.store
  (r, { c with store })

/-- Gets a template by its path. -/
def fetch (e : Engine) (path : String) : Action Template :=
  onStore (e.fetch path)

/-! ### Output -/

def write (s : String) : Action Unit :=
  modify fun c => { c with output := c.output ++ s }

/-- Writes the text of a value. -/
def writeValue (v : Value) : Action Unit :=
  write v.display

/-- Gives what the action writes instead of writing it. If it fails, that is lost. -/
def capture (body : Action Unit) : Action String := fun c =>
  let outer := c.output
  let (r, inner) := body { c with output := "" }
  (r.map fun () => inner.output, { inner with output := outer })

/-! ### Scopes -/

def push (name : String) (v : Value) : Action Unit :=
  modify fun c => { c with scope := c.scope.push name v }

/-- Gives a name a value. -/
def set (name : String) (v : Value) : Action Unit :=
  modify fun c => { c with scope := c.scope.set name v }

/-- Takes away the locals that the action brings. -/
def withLocals (body : Action α) : Action α := fun c =>
  let mark := c.scope.mark
  let (r, inner) := body c
  (r, { inner with scope := inner.scope.truncate mark })

/-- Does something in another scope. -/
def withScope (scope : Scope) (body : Action α) : Action α := fun c =>
  let outer := c.scope
  let (r, inner) := body { c with scope }
  (r, { inner with scope := outer })

/-- Does something in a scope without any names. -/
def isolated (body : Action α) : Action α :=
  withScope {} body

/-! ### Whose instructions run -/

/-- Does something while a template owns the instructions. -/
def withOwner (t : Template) (body : Action α) : Action α := fun c =>
  let (r, inner) := body { c with owners := t :: c.owners }
  (r, { inner with owners := inner.owners.tail })

/-- Does something while a block of a template is rendered. -/
def withBlock (t : Template) (name : String) (body : Action α) : Action α := fun c =>
  let (r, inner) := body { c with blocks := (t, name) :: c.blocks }
  (r, { inner with blocks := inner.blocks.tail })

/-- Does something while a template is rendered, which begins a chain of its own. -/
def withTemplate (t : Template) (body : Action α) : Action α := fun c =>
  let outer := c.chain
  let (r, inner) := body { c with chain := [t] }
  (r, { inner with chain := outer })

/-- Does something one level of nesting deeper. -/
def deeper (body : Action α) : Action α := fun c =>
  let (r, inner) := body { c with depth := c.depth + 1 }
  (r, { inner with depth := inner.depth - 1 })

/-- Adds a parent to the chain. -/
def pushParent (t : Template) : Action Unit :=
  modify fun c => { c with chain := c.chain ++ [t] }

/-! ### Imports -/

/-- Imports a template under an alias. -/
def importAs (newName : String) (t : Template) : Action Unit :=
  modify fun c => { c with imports := Table.insert newName t c.imports }

/-- Imports a macro of a template under an alias. -/
def importMacro (newName : String) (t : Template) (name : String) : Action Unit :=
  modify fun c => { c with importedMacros := Table.insert newName (t, name) c.importedMacros }

/-- Does something that sees no imports from outside, and whose own are forgotten. -/
def withFreshImports (body : Action α) : Action α := fun c =>
  let imports := c.imports
  let importedMacros := c.importedMacros
  let (r, inner) := body { c with imports := [], importedMacros := [] }
  (r, { inner with imports, importedMacros })

end Action

namespace Context

/-- The template whose instructions run. -/
def owner? (c : Context) : Option Template :=
  c.owners.head?

/-- The first template of the chain that has the block, or else the owner if that has
it. -/
def blockProvider? (c : Context) (name : String) : Option Template :=
  match c.chain.find? fun t => t.hasBlock name with
  | some t => some t
  | none => c.owner?.filter fun t => t.hasBlock name

/-- The templates that follow one in the chain. -/
def parentsOf (t : Template) : List Template → List Template
  | [] => []
  | u :: rest => if u.id = t.id then rest else parentsOf t rest

/-- The next template of the chain below another one that has the block. -/
def parentProvider? (c : Context) (t : Template) (name : String) : Option Template :=
  (parentsOf t c.chain).find? fun u => u.hasBlock name

end Context

end Stencil
