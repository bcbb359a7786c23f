import Stencil.Proofs.Engine.Loaded
import Stencil.Proofs.Language
import Stencil.Proofs.Render.Running

/-!
# Scripts

An action tells how it ends, and nothing of the moments in between. A **script** is a piece of code
that is still to be run: single deeds, one script after the other, a script between two **brackets**
that set a part of the context aside and put it back, and the **entries**, which is where an engine
goes one level deeper. An entry says no more than what is entered, so no script knows of levels;
what an entry runs is looked up when it is made.

What a script does if it is run as one action (`Script.denote`) depends on what is below. A script
`Script.Does` an action if it comes to that action and raises no depth fault of its own, so that
only an entry can.
-/

namespace Stencil

/-! ### Depth faults -/

/-- Whether something failed since the nesting was too deep. -/
inductive Error.IsDepthFault : Error → Prop
  | intro (limit : Nat) : IsDepthFault (.render (.tooDeep limit))

/-- Whether a result is not a depth fault. -/
def SparesDepth {α : Type} (r : Except Error α) : Prop :=
  ∀ fault, r = .error fault → ¬ fault.IsDepthFault

theorem OverValues.sparesDepth {α : Type} {r : Except Error α} (h : OverValues r) :
    SparesDepth r := by
  rintro fault hr ⟨limit⟩
  cases h _ hr

theorem sparesDepth_ok {α : Type} (x : α) : SparesDepth (.ok x) :=
  fun _ h => by cases h

theorem sparesDepth_error {α : Type} {fault : Error} (h : ¬ fault.IsDepthFault) :
    SparesDepth (.error fault : Except Error α) := by
  rintro _ ⟨⟩
  exact h

/-! ### Deeds -/

/-- Something that is done to a context in one go. -/
inductive Primitive : Type → Type 1
  | look {α : Type} (f : Context → Except Error α) : Primitive α
  | onStore {α : Type} (f : Store → Except Error α × Store) : Primitive α
  | write (s : String) : Primitive Unit
  | push (name : String) (v : Value) : Primitive Unit
  | set (name : String) (v : Value) : Primitive Unit
  | pushParent (t : Template) : Primitive Unit
  | importAs (newName : String) (t : Template) : Primitive Unit
  | importMacro (newName : String) (t : Template) (name : String) : Primitive Unit

namespace Primitive

/-- What is done. -/
def action {α : Type} : Primitive α → Action α
  | look f => fun c => (f c, c)
  | onStore f => Action.onStore f
  | write s => Action.write s
  | push name v => Action.push name v
  | set name v => Action.set name v
  | pushParent t => Action.pushParent t
  | importAs newName t => Action.importAs newName t
  | importMacro newName t name => Action.importMacro newName t name

theorem depth_action {α : Type} (p : Primitive α) (c : Context) :
    (p.action c).2.depth = c.depth := by
  cases p <;> rfl

/-- Whether it raises no depth fault. -/
def SparesDepth {α : Type} (p : Primitive α) : Prop :=
  ∀ c, Stencil.SparesDepth (p.action c).1

end Primitive

/-! ### Brackets -/

/-- A part of the context that is set aside and put back. -/
inductive Bracket : Type → Type → Type 1
  | capture : Bracket Unit String
  | locals {α : Type} : Bracket α α
  | scope {α : Type} (scope : Scope) : Bracket α α
  | owner {α : Type} (t : Template) : Bracket α α
  | block {α : Type} (t : Template) (name : String) : Bracket α α
  | template {α : Type} (t : Template) : Bracket α α
  | freshImports {α : Type} : Bracket α α

namespace Bracket

variable {α β : Type}

/-- Does something between the brackets. -/
def around : Bracket α β → Action α → Action β
  | capture => Action.capture
  | locals => Action.withLocals
  | scope s => Action.withScope s
  | owner t => Action.withOwner t
  | block t name => Action.withBlock t name
  | template t => Action.withTemplate t
  | freshImports => Action.withFreshImports

/-- The context behind the opening bracket. -/
def opening (b : Bracket α β) (c : Context) : Context :=
  match b with
  | capture => { c with output := "" }
  | locals => c
  | scope s => { c with scope := s }
  | owner t => { c with owners := t :: c.owners }
  | block t name => { c with blocks := (t, name) :: c.blocks }
  | template t => { c with chain := [t] }
  | freshImports => { c with imports := [], importedMacros := [] }

/-- The result and the context behind the closing bracket, if `outer` is the context before the
opening one. -/
def closing (outer : Context) : Bracket α β → Except Error α × Context → Except Error β × Context
  | capture, (r, c) => (r.map fun () => c.output, { c with output := outer.output })
  | locals, (r, c) => (r, { c with scope := c.scope.truncate outer.scope.mark })
  | scope _, (r, c) => (r, { c with scope := outer.scope })
  | owner _, (r, c) => (r, { c with owners := c.owners.tail })
  | block _ _, (r, c) => (r, { c with blocks := c.blocks.tail })
  | template _, (r, c) => (r, { c with chain := outer.chain })
  | freshImports, (r, c) =>
    (r, { c with imports := outer.imports, importedMacros := outer.importedMacros })

theorem around_apply (b : Bracket α β) (a : Action α) (c : Context) :
    b.around a c = b.closing c (a (b.opening c)) := by
  cases b <;> rfl

@[simp] theorem depth_opening (b : Bracket α β) (c : Context) :
    (b.opening c).depth = c.depth := by
  cases b <;> rfl

@[simp] theorem depth_closing (b : Bracket α β) (outer : Context) (r : Except Error α × Context) :
    (b.closing outer r).2.depth = r.2.depth := by
  cases b <;> rfl

/-- A failure passes through. -/
theorem closing_error (b : Bracket α β) (outer : Context) (fault : Error) (c : Context) :
    (b.closing outer (.error fault, c)).1 = .error fault := by
  cases b <;> rfl

/-- No bracket fails. -/
theorem sparesDepth_closing (b : Bracket α β) (outer : Context) {r : Except Error α × Context}
    (h : SparesDepth r.1) : SparesDepth (b.closing outer r).1 := by
  obtain ⟨fault | x, c⟩ := r
  · rw [closing_error]
    exact sparesDepth_error (h fault rfl)
  · cases b <;> exact sparesDepth_ok _

end Bracket

/-! ### Entries -/

/-- What is entered one level deeper. -/
inductive Entry : Type → Type
  | embed (t : Template) (vars : Table Value) (only : Bool) : Entry Unit
  | parent (t : Template) : Entry Unit
  | block (t : Template) (name : String) (body : List Instr) : Entry Unit
  | macroCall (t : Template) (d : MacroDef) (args : List Value) : Entry Value

/-- What is done on the level that is entered. -/
def Entry.body {α : Type} : Entry α → Level → Action α
  | embed t vars only, l => Action.withFreshImports (
    if only then Action.withScope { root := vars } (l.render t)
    else Action.withLocals do
      vars.forM fun v => Action.push v.1 v.2
      l.render t)
  | parent t, l => Action.withOwner t (l.run t.main)
  | block t name body, l => Action.withBlock t name (Action.withOwner t (l.run body))
  | macroCall t d args, l => Action.isolated do
    l.bindParams d.params args
    return .str (← Action.capture (Action.withOwner t (l.run d.body)))

/-! ### Scripts -/

/-- Code that is still to be run. -/
inductive Script : Type → Type 1
  | ret {α : Type} (r : Except Error α) : Script α
  | act {α : Type} (p : Primitive α) : Script α
  | andThen {α β : Type} (first : Script α) (next : α → Script β) : Script β
  | within {α β : Type} (b : Bracket α β) (body : Script α) : Script β
  | enter {α : Type} (x : Entry α) : Script α

namespace Script

variable {α β : Type}

instance : Monad Script where
  pure x := ret (.ok x)
  bind := andThen

/-- Fails with a fault of the render. -/
def fault (f : RenderFault) : Script α :=
  ret (.error (.render f))

/-- Looks at the context. -/
def look : Script Context :=
  act (.look .ok)

/-- What a script does as one action. -/
def denote (e : Engine) (below : Below) : {α : Type} → Script α → Action α
  | _, ret r => Action.lift r
  | _, act p => p.action
  | _, andThen first next => first.denote e below >>= fun x => (next x).denote e below
  | _, within b body => b.around (body.denote e below)
  | _, enter x => below.descend e x.body

/-- Whether no part of a script raises a depth fault, entries apart. -/
def SparesDepth : {α : Type} → Script α → Prop
  | _, ret r => Stencil.SparesDepth r
  | _, act p => p.SparesDepth
  | _, andThen first next => first.SparesDepth ∧ ∀ x, (next x).SparesDepth
  | _, within _ body => body.SparesDepth
  | _, enter _ => True

/-- Whether a script comes to an action and raises no depth fault, entries apart. -/
structure Does (e : Engine) (below : Below) (s : Script α) (a : Action α) : Prop where
  spares : s.SparesDepth
  denote : s.denote e below = a

namespace Does

variable {e : Engine} {below : Below} {s : Script α} {a : Action α}

theorem pure (x : α) : Does e below (Pure.pure x) (Pure.pure x) :=
  ⟨sparesDepth_ok x, rfl⟩

theorem result {r : Except Error α} (h : Stencil.SparesDepth r) :
    Does e below (ret r) (Action.lift r) :=
  ⟨h, rfl⟩

theorem fault {f : RenderFault} (h : ¬ (Error.render f).IsDepthFault) :
    Does e below (Script.fault f : Script α) (Action.fault f) :=
  ⟨sparesDepth_error h, rfl⟩

theorem bind {f : α → Script β} {g : α → Action β} (h : Does e below s a)
    (hf : ∀ x, Does e below (f x) (g x)) : Does e below (s >>= f) (a >>= g) where
  spares := ⟨h.spares, fun x => (hf x).spares⟩
  denote := by
    change (s.denote e below >>= fun x => (f x).denote e below) = a >>= g
    rw [h.denote]
    exact congrArg (a >>= ·) (funext fun x => (hf x).denote)

theorem look {f : Context → Script β} {g : Context → Action β}
    (hf : ∀ c, Does e below (f c) (g c)) : Does e below (Script.look >>= f) (get >>= g) :=
  bind ⟨fun _ => sparesDepth_ok _, rfl⟩ hf

theorem act {p : Primitive α} (h : p.SparesDepth) : Does e below (Script.act p) p.action :=
  ⟨h, rfl⟩

theorem onStore {f : Store → Except Error α × Store} (h : ∀ s, Stencil.SparesDepth (f s).1) :
    Does e below (Script.act (.onStore f)) (Action.onStore f) :=
  act fun c => h c.store

theorem write (s : String) : Does e below (Script.act (.write s)) (Action.write s) :=
  act fun _ => sparesDepth_ok ()

theorem push (name : String) (v : Value) :
    Does e below (Script.act (.push name v)) (Action.push name v) :=
  act fun _ => sparesDepth_ok ()

theorem set (name : String) (v : Value) :
    Does e below (Script.act (.set name v)) (Action.set name v) :=
  act fun _ => sparesDepth_ok ()

theorem pushParent (t : Template) :
    Does e below (Script.act (.pushParent t)) (Action.pushParent t) :=
  act fun _ => sparesDepth_ok ()

theorem importAs (newName : String) (t : Template) :
    Does e below (Script.act (.importAs newName t)) (Action.importAs newName t) :=
  act fun _ => sparesDepth_ok ()

theorem importMacro (newName : String) (t : Template) (name : String) :
    Does e below (Script.act (.importMacro newName t name)) (Action.importMacro newName t name) :=
  act fun _ => sparesDepth_ok ()

theorem within (h : Does e below s a) (b : Bracket α β) :
    Does e below (Script.within b s) (b.around a) :=
  ⟨h.spares, congrArg b.around h.denote⟩

theorem enter (x : Entry α) : Does e below (Script.enter x) (below.descend e x.body) :=
  ⟨trivial, rfl⟩

end Does

end Script

end Stencil
