import Stencil.Proofs.Render.Pairing

/-!
# Compositional properties

Many a property of actions holds of everything that an engine does for one and the same reason:
it holds of the primitive actions, and whatever is put together from actions with the property
has it as well. Such a property is **compositional**, and then it holds of all that runs on
every level (`Engine.has`).

The interpreter looks at a context in a few places only. It never asks for the output, for the
depth or for any owner but the innermost, so a compositional property need not allow for more:
two contexts that **resemble** each other in what is left cannot be told apart by looking.
-/

namespace Stencil

/-- Whether two contexts cannot be told apart by looking. -/
structure Context.Resembles (c d : Context) : Prop where
  scope : d.scope = c.scope
  chain : d.chain = c.chain
  blocks : d.blocks = c.blocks
  owner? : d.owner? = c.owner?
  imports : d.imports = c.imports
  importedMacros : d.importedMacros = c.importedMacros

/-- What a property of actions needs for holding of all that is put together from them. -/
structure Compositional (p : ∀ {α : Type}, Action α → Prop) : Prop where
  pure {α : Type} (x : α) : p (Pure.pure x : Action α)
  fail {α : Type} (fault : Error) : p (throw fault : Action α)
  bind {α β : Type} {a : Action α} {f : α → Action β} (ha : p a)
    (hf : ∀ c x, (a c).1 = .ok x → p (f x)) : p (a >>= f)
  look {α : Type} {f : Context → Action α} (hf : ∀ c, p (f c))
    (hsame : ∀ c d : Context, c.Resembles d → f d = f c) : p (get >>= f)
  onStore {α : Type} (f : Store → Except Error α × Store) : p (Action.onStore f)
  write (s : String) : p (Action.write s)
  capture {a : Action Unit} (ha : p a) : p (Action.capture a)
  push (name : String) (v : Value) : p (Action.push name v)
  set (name : String) (v : Value) : p (Action.set name v)
  pushParent (t : Template) : p (Action.pushParent t)
  importAs (newName : String) (t : Template) : p (Action.importAs newName t)
  importMacro (newName : String) (t : Template) (name : String) :
    p (Action.importMacro newName t name)
  withLocals {α : Type} {a : Action α} (ha : p a) : p (Action.withLocals a)
  withScope {α : Type} {a : Action α} (ha : p a) (scope : Scope) : p (Action.withScope scope a)
  withOwner {α : Type} {a : Action α} (ha : p a) (t : Template) : p (Action.withOwner t a)
  withBlock {α : Type} {a : Action α} (ha : p a) (t : Template) (name : String) :
    p (Action.withBlock t name a)
  withTemplate {α : Type} {a : Action α} (ha : p a) (t : Template) : p (Action.withTemplate t a)
  withFreshImports {α : Type} {a : Action α} (ha : p a) : p (Action.withFreshImports a)
  deeper {α : Type} {a : Action α} (ha : p a) : p (Action.deeper a)

/-- A level on which everything has a property. -/
structure Level.Has (p : ∀ {α : Type}, Action α → Prop) (l : Level) : Prop where
  eval (x : Expr) : p (l.eval x)
  run (instrs : List Instr) : p (l.run instrs)

/-- Whether everything below has a property. -/
def Below.Has (p : ∀ {α : Type}, Action α → Prop) (below : Below) : Prop :=
  ∀ l ∈ below, l.get.Has p

namespace Compositional

variable {p : ∀ {α : Type}, Action α → Prop} (hp : Compositional p)

include hp

theorem andThen {α β : Type} {a : Action α} {f : α → Action β} (ha : p a)
    (hf : ∀ x, p (f x)) : p (a >>= f) :=
  hp.bind ha fun _ x _ => hf x

theorem fault {α : Type} (f : RenderFault) : p (Action.fault f : Action α) :=
  hp.fail (.render f)

/-! ### Levels -/

section Levels

variable {l : Level} (hl : l.Has p)

include hl

theorem render (t : Template) : p (l.render t) :=
  hp.withTemplate (hp.withOwner (hl.run t.main) t) t

theorem bindParams (params : Params) (args : List Value) : p (l.bindParams params args) := by
  induction params generalizing args with
  | nil => exact hp.pure ()
  | cons param params ih =>
    have hvalue : p (l.paramValue args.head? param.2) := by
      cases args.head? with
      | some arg => exact hp.pure arg
      | none =>
        cases param.2 with
        | some default => exact hl.eval default
        | none => exact hp.pure Value.null
    exact hp.andThen hvalue fun v => hp.andThen (hp.push param.1 v) fun _ => ih args.tail

/-- An included template among the variables handed to it. -/
theorem renderWith (t : Template) (vars : Table Value) :
    p (do vars.forM fun v => Action.push v.1 v.2; l.render t) := by
  refine hp.andThen ?_ fun _ => hp.render hl t
  induction vars with
  | nil => exact hp.pure ()
  | cons v vars ih => exact hp.andThen (hp.push v.1 v.2) fun _ => ih

end Levels

/-! ### What runs on the level below -/

section Calls

variable {below : Below} (hb : below.Has p) (e : Engine)

include hb

theorem descend {α : Type} {body : Level → Action α}
    (h : ∀ l : Level, l.Has p → p (body l)) : p (below.descend e body) := by
  cases below with
  | none => exact hp.fault _
  | some l => exact hp.deeper (h l.get (hb l rfl))

theorem callBlock (t : Template) (name : String) : p (below.callBlock e t name) := by
  unfold Below.callBlock
  split
  · exact hp.fault _
  · exact hp.descend hb e fun l hl => hp.withBlock (hp.withOwner (hl.run _) t) t name

theorem callMacro (t : Template) (name : String) (args : List Value) :
    p (below.callMacro e t name args) := by
  unfold Below.callMacro
  split
  · exact hp.fault _
  · rename_i m _
    refine hp.descend hb e fun l hl => hp.withScope ?_ {}
    refine hp.andThen (hp.bindParams hl m.params args) fun _ => ?_
    exact hp.andThen (hp.capture (hp.withOwner (hl.run m.body) t)) fun _ => hp.pure _

theorem callParent (t : Template) : p (below.callParent e t) :=
  hp.andThen (hp.pushParent t) fun _ => hp.descend hb e fun _ hl => hp.withOwner (hl.run t.main) t

theorem renderBlock (name : String) : p (below.renderBlock e name) := by
  refine hp.look (fun c => ?_) fun c d h => ?_
  · split
    · exact hp.callBlock hb e _ name
    · exact hp.fault _
  · rw [Context.blockProvider?, Context.blockProvider?, h.chain, h.owner?]

theorem parentBlock : p (below.parentBlock e) := by
  refine hp.look (fun c => ?_) fun c d h => ?_
  · split
    · exact hp.fault _
    · split
      · exact hp.fault _
      · exact hp.andThen (hp.capture (hp.callBlock hb e _ _)) fun _ => hp.pure _
  · simp only [Context.parentProvider?, h.blocks, h.chain]

theorem embed (t : Template) (vars : Table Value) (only : Bool) :
    p (below.embed e t vars only) := by
  refine hp.descend hb e fun l hl => hp.withFreshImports ?_
  cases only with
  | true => exact hp.withScope (hp.render hl t) _
  | false => exact hp.withLocals (hp.renderWith hl t vars)

theorem callNamed (name : String) (args : List Value) :
    p (Expr.callNamed e below name args) := by
  refine hp.look (fun c => ?_) fun c d h => ?_
  · split
    · exact hp.callMacro hb e _ _ args
    · split
      · exact hp.callMacro hb e _ name args
      · split
        · rename_i f _
          cases hf : f args with
          | ok v => exact hp.pure v
          | error fault => exact hp.fail fault
        · exact hp.fault _
  · simp only [h.importedMacros, h.owner?]

/-! ### The walk -/

theorem evaluates : (Pairing.alone fun _ a => p a).Evaluates e e below below where
  language := rfl
  result h := Pairing.rel_alone_result h (hp.pure _)
  bind ha hf := Pairing.rel_alone_bind ha hf (hp.bind ha.1)
  fail {_ _ fault} _ := Pairing.rel_alone_fail _ fault (hp.fail fault)
  raised _ := trivial
  missing path := by
    refine Pairing.rel_alone_eq _ ?_
    simp only [Expr.orMissing]
    split
    · exact hp.fault _
    · exact hp.pure _
  lookup name := Pairing.rel_alone_eq _
    (hp.look (fun _ => hp.pure _) fun _ _ h => by rw [h.scope])
  parentCall _ := by
    refine Pairing.rel_alone_eq _ ?_
    simp only [Expr.value?, Expr.values]
    refine hp.look (fun c => ?_) fun c d h => ?_
    · split
      · exact hp.andThen (hp.parentBlock hb e) fun _ => hp.pure _
      · refine hp.andThen (hp.pure _) fun _ => ?_
        exact hp.andThen (hp.callNamed hb e _ _) fun _ => hp.pure _
    · simp only [Expr.isParentCall, h.blocks]
  callNamed name args := Pairing.rel_alone_eq _ (hp.callNamed hb e name args)
  qualifier target := Pairing.rel_alone_option _
    (hp.look (fun _ => hp.pure _) fun _ _ h => by simp only [Expr.qualifier?, h.owner?, h.imports])
  callMacro {t u} _ name args := Pairing.rel_alone_eq _ (hp.callMacro hb e t name args)

omit hb in
theorem fetchIncluded (path : String) (ignoreMissing : Bool) :
    p (Instr.fetchIncluded e path ignoreMissing) := by
  rw [Instr.fetchIncluded_eq_onStore]
  exact hp.onStore _

omit hb in
theorem importEach (t : Template) (names : List (String × String)) :
    p (Instr.importEach t names) := by
  induction names with
  | nil => exact hp.pure ()
  | cons n names ih =>
    have hrest := hp.andThen (hp.importMacro n.2 t n.1) fun _ => ih
    unfold Instr.importEach
    split
    · exact hp.andThen (hp.fault _) fun _ => hrest
    · exact hrest

theorem executes : (Pairing.alone fun _ a => p a).Executes e e below below where
  toEvaluates := hp.evaluates hb e
  write s := Pairing.rel_alone_eq _ (hp.write s)
  capture h := Pairing.rel_alone_eq _ (hp.capture h.1)
  push name v := Pairing.rel_alone_eq _ (hp.push name v)
  set name v := Pairing.rel_alone_eq _ (hp.set name v)
  withLocals h := Pairing.rel_alone_eq _ (hp.withLocals h.1)
  renderBlock {name} _ := Pairing.rel_alone_eq _ (hp.renderBlock hb e name)
  named h := Pairing.rel_alone _ (fun _ => ⟨rfl, trivial⟩) h.1
  fetch _ _ _ _ _ := Pairing.rel_alone_eq _ (hp.onStore _)
  fetchIncluded _ _ _ path _ ignoreMissing :=
    Pairing.rel_alone_option _ (hp.fetchIncluded e path ignoreMissing)
  callParent _ t _ _ := Pairing.rel_alone_eq _ (hp.callParent hb e t)
  embed {t _} _ vars only := Pairing.rel_alone_eq _ (hp.embed hb e t vars only)
  owner? := Pairing.rel_alone_option _
    (hp.look (fun _ => hp.pure _) fun _ _ h => by rw [h.owner?])
  owner h := h
  importAs {_ newName} _ t _ _ := Pairing.rel_alone_eq _ (hp.importAs newName t)
  importEach {_ names} _ t _ _ := Pairing.rel_alone_eq _ (hp.importEach t names)

theorem eval (x : Expr) : p (x.eval e below) :=
  ((hp.evaluates hb e).eval (x := x) fun _ _ => trivial).1

theorem sequence (instrs : List Instr) : p (Instr.sequence e below instrs) :=
  ((hp.executes hb e).sequence instrs fun _ _ => ⟨trivial, fun _ _ _ _ => trivial⟩).1

theorem levelOver : (Level.over e below).Has p where
  eval x := hp.eval hb e x
  run instrs := hp.andThen (hp.sequence hb e instrs) fun _ => hp.pure _

end Calls

end Compositional

namespace Engine

variable {p : ∀ {α : Type}, Action α → Prop} (hp : Compositional p)

include hp

theorem has_below (e : Engine) (n : Nat) : (e.below n).Has p := by
  -- up from the lowest level, below which there is none
  induction n with
  | zero =>
    intro l hl
    cases hl
  | succ n ih =>
    intro l hl
    obtain rfl := Option.some.inj hl
    change (e.level n).Has p
    rw [level_eq_over]
    exact hp.levelOver ih e

/-- **A compositional property holds on every level.** -/
theorem has (e : Engine) (n : Nat) : (e.level n).Has p := by
  rw [level_eq_over]
  exact hp.levelOver (e.has_below hp n) e

end Engine

end Stencil
