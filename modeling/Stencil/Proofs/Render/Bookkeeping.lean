import Stencil.Proofs.Render.Composing
import Stencil.Proofs.Render.Isolation

/-!
# Bookkeeping

Whatever runs, and whether or not it fails, most of a context is afterwards as it was
before: the depth, the blocks and the owners exactly, the chain up to parents added at its
end, the scope up to new innermost locals and new values of old ones, and the output up
to what was written at its end. This is `Context.Kept`, and an action that keeps so much
of every context is **tidy**.

The brackets of `Stencil.Render.Context` set a part of the context aside and put it back,
and each of them is tidy around a tidy action. Since the interpreter is made of nothing
else, all of it is tidy, level after level.
-/

namespace Stencil

/-! ### Names of locals -/

namespace Scope

/-- The names of the locals, the innermost first. -/
def names (s : Scope) : List String :=
  s.locals.map Prod.fst

@[simp] theorem names_push (key : String) (v : Value) (s : Scope) :
    (s.push key v).names = key :: s.names := rfl

@[simp] theorem root_push (key : String) (v : Value) (s : Scope) :
    (s.push key v).root = s.root := rfl

@[simp] theorem root_truncate (mark : Nat) (s : Scope) : (s.truncate mark).root = s.root := rfl

theorem map_fst_rebind? {key : String} {v : Value} {locals bound : List (String × Value)}
    (h : rebind? key v locals = some bound) : bound.map Prod.fst = locals.map Prod.fst := by
  fun_induction rebind? key v locals generalizing bound with
  | case1 => simp at h
  | case2 w rest =>
    obtain rfl := Option.some.inj h
    rfl
  | case3 k w rest hk ih =>
    obtain ⟨rebound, hrest, rfl⟩ := Option.map_eq_some_iff.mp h
    simp [ih hrest]

/-- Giving a name a value changes a value alone or adds an innermost local. -/
theorem names_set (key : String) (v : Value) (s : Scope) :
    (s.set key v).names = s.names ∨ (s.set key v).names = key :: s.names := by
  unfold set
  split
  · rename_i locals h
    exact Or.inl (map_fst_rebind? h)
  · exact Or.inr (names_push key v s)

@[simp] theorem root_set (key : String) (v : Value) (s : Scope) :
    (s.set key v).root = s.root := by
  unfold set
  split <;> rfl

/-- **Cutting back to a mark** leaves the names that there were at the mark. -/
theorem names_truncate {s s' : Scope} (h : s.names <:+ s'.names) :
    (s'.truncate s.mark).names = s.names := by
  have hlen : s.names.length = s.locals.length := List.length_map ..
  have hlen' : s'.names.length = s'.locals.length := List.length_map ..
  have hdrop : s'.names.drop (s'.names.length - s.names.length) = s.names :=
    (List.suffix_iff_eq_drop.mp h).symm
  rw [hlen, hlen'] at hdrop
  simpa only [names, truncate, mark, List.map_drop] using hdrop

end Scope

/-! ### What is kept -/

/-- What a run keeps of a context `c`, if `c'` is the context afterwards. -/
structure Context.Kept (c c' : Context) : Prop where
  depth : c'.depth = c.depth
  blocks : c'.blocks = c.blocks
  owners : c'.owners = c.owners
  chain : c.chain <+: c'.chain
  root : c'.scope.root = c.scope.root
  names : c.scope.names <:+ c'.scope.names
  output : ∃ written, c'.output = c.output ++ written

namespace Context.Kept

theorem refl (c : Context) : c.Kept c where
  depth := rfl
  blocks := rfl
  owners := rfl
  chain := List.prefix_rfl
  root := rfl
  names := List.suffix_rfl
  output := ⟨"", by simp⟩

theorem trans {c c' c'' : Context} (h : c.Kept c') (h' : c'.Kept c'') : c.Kept c'' where
  depth := h'.depth.trans h.depth
  blocks := h'.blocks.trans h.blocks
  owners := h'.owners.trans h.owners
  chain := h.chain.trans h'.chain
  root := h'.root.trans h.root
  names := h.names.trans h'.names
  output := by
    obtain ⟨first, hfirst⟩ := h.output
    obtain ⟨second, hsecond⟩ := h'.output
    exact ⟨first ++ second, by rw [hsecond, hfirst, String.append_assoc]⟩

end Context.Kept

/-- An action that keeps the books, also when it fails. -/
def Action.Tidy {α : Type} (a : Action α) : Prop :=
  ∀ c : Context, c.Kept (a c).2

namespace Action

variable {α β : Type}

namespace Tidy

theorem bind {a : Action α} {f : α → Action β} (ha : a.Tidy)
    (hf : ∀ c x, (a c).1 = .ok x → (f x).Tidy) : (a >>= f).Tidy := by
  intro c
  rw [bind_apply]
  have hc := ha c
  rcases hac : a c with ⟨_ | x, d⟩ <;> rw [hac] at hc
  · exact hc
  · exact hc.trans (hf c x (by rw [hac]) d)

/-- An action that changes nothing at all. -/
theorem of_unchanged {a : Action α} (h : ∀ c, (a c).2 = c) : a.Tidy := by
  intro c
  rw [h c]
  exact Context.Kept.refl c

theorem onStore (f : Store → Except Error α × Store) : (Action.onStore f).Tidy :=
  fun c => { Context.Kept.refl c with }

theorem write (s : String) : (Action.write s).Tidy :=
  fun c => { Context.Kept.refl c with output := ⟨s, rfl⟩ }

theorem push (name : String) (v : Value) : (Action.push name v).Tidy :=
  fun c => { Context.Kept.refl c with names := List.suffix_cons .. }

theorem set (name : String) (v : Value) : (Action.set name v).Tidy := by
  intro c
  refine { Context.Kept.refl c with root := Scope.root_set .., names := ?_ }
  -- the name is that of a local, or it becomes the innermost one
  rcases Scope.names_set name v c.scope with h | h
  · exact h ▸ List.suffix_rfl
  · exact h ▸ List.suffix_cons ..

theorem pushParent (t : Template) : (Action.pushParent t).Tidy :=
  fun c => { Context.Kept.refl c with chain := List.prefix_append .. }

theorem importAs (newName : String) (t : Template) : (Action.importAs newName t).Tidy :=
  fun c => { Context.Kept.refl c with }

theorem importMacro (newName : String) (t : Template) (name : String) :
    (Action.importMacro newName t name).Tidy :=
  fun c => { Context.Kept.refl c with }

/-! ### Brackets -/

theorem capture {a : Action Unit} (ha : a.Tidy) : (Action.capture a).Tidy :=
  fun c => { ha { c with output := "" } with output := (Context.Kept.refl c).output }

/-- The locals that an action brings are gone after it, also when it fails. -/
theorem names_withLocals {a : Action α} (ha : a.Tidy) (c : Context) :
    (Action.withLocals a c).2.scope.names = c.scope.names :=
  Scope.names_truncate (ha c).names

theorem withLocals {a : Action α} (ha : a.Tidy) : (Action.withLocals a).Tidy := fun c =>
  { ha c with names := names_withLocals ha c ▸ List.suffix_rfl }

theorem withScope {a : Action α} (ha : a.Tidy) (scope : Scope) :
    (Action.withScope scope a).Tidy :=
  fun c => { ha { c with scope } with
    root := rfl
    names := List.suffix_rfl }

theorem withOwner {a : Action α} (ha : a.Tidy) (t : Template) : (Action.withOwner t a).Tidy :=
  fun c => { ha { c with owners := t :: c.owners } with
    owners := congrArg List.tail (ha { c with owners := t :: c.owners }).owners }

theorem withBlock {a : Action α} (ha : a.Tidy) (t : Template) (name : String) :
    (Action.withBlock t name a).Tidy :=
  fun c => { ha { c with blocks := (t, name) :: c.blocks } with
    blocks := congrArg List.tail (ha { c with blocks := (t, name) :: c.blocks }).blocks }

theorem withTemplate {a : Action α} (ha : a.Tidy) (t : Template) :
    (Action.withTemplate t a).Tidy :=
  fun c => { ha { c with chain := [t] } with chain := List.prefix_rfl }

theorem deeper {a : Action α} (ha : a.Tidy) : (Action.deeper a).Tidy :=
  fun c => { ha { c with depth := c.depth + 1 } with
    depth := congrArg Nat.pred (ha { c with depth := c.depth + 1 }).depth }

theorem withFreshImports {a : Action α} (ha : a.Tidy) : (Action.withFreshImports a).Tidy :=
  fun c => { ha { c with imports := [], importedMacros := [] } with }

end Tidy

/-- **Whatever is put together from tidy actions is tidy.** -/
theorem compositional_tidy : Compositional fun a => a.Tidy where
  pure _ := .of_unchanged fun _ => rfl
  fail _ := .of_unchanged fun _ => rfl
  bind := Tidy.bind
  look hf _ c := hf c c
  onStore := Tidy.onStore
  write := Tidy.write
  capture := Tidy.capture
  push := Tidy.push
  set := Tidy.set
  pushParent := Tidy.pushParent
  importAs := Tidy.importAs
  importMacro := Tidy.importMacro
  withLocals := Tidy.withLocals
  withScope := Tidy.withScope
  withOwner := Tidy.withOwner
  withBlock := Tidy.withBlock
  withTemplate := Tidy.withTemplate
  withFreshImports := Tidy.withFreshImports
  deeper := Tidy.deeper

end Action

/-! ### Levels -/

section Locals

variable {below : Below} (hb : below.Has Action.Tidy) (e : Engine)

include hb

/-- An included template leaves the names of locals that it found. -/
theorem Below.names_embed (t : Template) (vars : Table Value) (only : Bool) (c : Context) :
    (below.embed e t vars only c).2.scope.names = c.scope.names := by
  unfold Below.embed
  cases below with
  | none => rfl
  | some l =>
    cases only with
    -- the scope is replaced and put back, whatever runs in it
    | true => rfl
    | false =>
      have hinner := Action.compositional_tidy.renderWith (hb l rfl) t vars
      exact hinner.names_withLocals
        { c with depth := c.depth + 1, imports := [], importedMacros := [] }

/-- A round of a loop leaves the names of locals that it found. -/
theorem Instr.names_round (key : Option String) (value : String) (length : Nat)
    (body : List Instr) (index : Nat) (pair : Value × Value) (c : Context) :
    (Instr.round key value length (Instr.sequence e below body) index pair c).2.scope.names =
      c.scope.names := by
  have hbody : Action.Tidy
      (do Instr.bindRound key value pair index length; Instr.sequence e below body) := by
    refine Action.Tidy.bind ?_ fun _ _ _ => Action.compositional_tidy.sequence hb e body
    have hrest := (Action.Tidy.push value pair.2).bind fun _ _ _ =>
      Action.Tidy.push "loop" (Instr.loopValue index length)
    cases key with
    | none => exact hrest
    | some name => exact (Action.Tidy.push name pair.1).bind fun _ _ _ => hrest
  exact hbody.names_withLocals c

end Locals

namespace Engine

/-- Every level keeps the books, and so does what is below it. -/
theorem tidy (e : Engine) (n : Nat) :
    (e.below n).Has Action.Tidy ∧ (e.level n).Has Action.Tidy :=
  ⟨e.has_below Action.compositional_tidy n, e.has Action.compositional_tidy n⟩

/-- **Whatever runs restores the bookkeeping**, in every context, on every level and with
every outcome: instructions, the rendering of a template, the call of a block or of a
macro, and the value of an expression, which moreover writes nothing. A round of a loop
and an included template also leave exactly the names of locals that they found. -/
theorem restores_bookkeeping (e : Engine) (n : Nat) (c : Context) :
    (∀ instrs, c.Kept ((e.level n).run instrs c).2) ∧
    (∀ x, c.Kept ((e.level n).eval x c).2 ∧ ((e.level n).eval x c).2.output = c.output) ∧
    (∀ t, c.Kept ((e.level n).render t c).2) ∧
    (∀ t name, c.Kept ((e.below n).callBlock e t name c).2) ∧
    (∀ t name args, c.Kept ((e.below n).callMacro e t name args c).2) ∧
    (∀ key value length body index pair,
      (Instr.round key value length (Instr.sequence e (e.below n) body) index pair
        c).2.scope.names = c.scope.names) ∧
    (∀ t vars only, ((e.below n).embed e t vars only c).2.scope.names = c.scope.names) := by
  obtain ⟨hbelow, hlevel⟩ := e.tidy n
  have htidy := Action.compositional_tidy
  refine ⟨fun instrs => hlevel.run instrs c, fun x => ⟨hlevel.eval x c, ?_⟩,
    fun t => htidy.render hlevel t c, fun t name => htidy.callBlock hbelow e t name c,
    fun t name args => htidy.callMacro hbelow e t name args c, ?_, ?_⟩
  · exact ((e.silent n).2 x).output_eq c
  · intro key value length body index pair
    exact Instr.names_round hbelow e key value length body index pair c
  · intro t vars only
    exact Below.names_embed hbelow e t vars only c

end Engine

end Stencil
