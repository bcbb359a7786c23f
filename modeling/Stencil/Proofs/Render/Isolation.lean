import Stencil.Proofs.Render.Pairing

/-!
# Isolation

Evaluating an expression writes nothing, and what was written before does not matter to
it: whatever a macro or the parent of a block writes on the way is captured. Such an action
is **silent**. A call of a macro is even **sealed**: it has a scope of its own as well, so
it neither sees nor changes the variables around it.

Both are told by an equation between two runs: other variables, or another output, give
the same result, and the same variables and output as before are there afterwards.
-/

namespace Stencil

namespace Action

variable {α β : Type}

/-- An action that neither sees nor changes the output. -/
def Silent (a : Action α) : Prop :=
  ∀ (c : Context) (output : String),
    a { c with output } = ((a c).1, { (a c).2 with output })

/-- An action that neither sees nor changes the scope and the output. -/
def Sealed (a : Action α) : Prop :=
  ∀ (c : Context) (scope : Scope) (output : String),
    a { c with scope, output } = ((a c).1, { (a c).2 with scope, output })

theorem Silent.output_eq {a : Action α} (ha : a.Silent) (c : Context) :
    (a c).2.output = c.output :=
  congrArg (fun r => r.2.output) (ha c c.output)

theorem Sealed.scope_eq {a : Action α} (ha : a.Sealed) (c : Context) :
    (a c).2.scope = c.scope :=
  congrArg (fun r => r.2.scope) (ha c c.scope c.output)

theorem Sealed.silent {a : Action α} (ha : a.Sealed) : a.Silent := by
  intro c output
  -- the scope stays in any case, so that it is the one that was there
  refine (ha c c.scope output).trans ?_
  rw [← ha.scope_eq c]

namespace Silent

theorem pure (x : α) : (Pure.pure x : Action α).Silent :=
  fun _ _ => rfl

theorem fail (fault : Error) : (throw fault : Action α).Silent :=
  fun _ _ => rfl

theorem bind {a : Action α} {f : α → Action β} (ha : a.Silent)
    (hf : ∀ c x, (a c).1 = .ok x → (f x).Silent) : (a >>= f).Silent := by
  intro c output
  rw [bind_apply, bind_apply, ha c output]
  rcases hac : a c with ⟨_ | x, d⟩
  · rfl
  · exact hf c x (by rw [hac]) d output

/-- What looks at the context first, but not at its output. -/
theorem get_bind {f : Context → Action α}
    (hout : ∀ (c : Context) (output : String), f { c with output } = f c)
    (hf : ∀ c, (f c).Silent) : (get >>= f).Silent := by
  intro c output
  rw [get_bind_apply, get_bind_apply, hout c output]
  exact hf c c output

/-- **Whatever is captured is silent.** -/
theorem capture (body : Action Unit) : (Action.capture body).Silent :=
  fun _ _ => rfl

theorem push (name : String) (v : Value) : (Action.push name v).Silent :=
  fun _ _ => rfl

/-- In a scope of its own a silent action is sealed. -/
theorem isolated {a : Action α} (ha : a.Silent) : (Action.isolated a).Sealed := by
  intro c scope output
  have h := ha { c with scope := {} } output
  simp only [Action.isolated, Action.withScope]
  rw [h]
  rfl

end Silent

theorem Sealed.deeper {a : Action α} (ha : a.Sealed) : (Action.deeper a).Sealed := by
  intro c scope output
  have h := ha { c with depth := c.depth + 1 } scope output
  simp only [Action.deeper]
  rw [h]
  rfl

end Action

/-! ### Levels -/

/-- Whether evaluation on the level below is silent. -/
def Below.Silent (below : Below) : Prop :=
  ∀ l ∈ below, ∀ x : Expr, (l.get.eval x).Silent

theorem Level.silent_bindParams {l : Level} (hl : ∀ x, (l.eval x).Silent) (params : Params)
    (args : List Value) : (l.bindParams params args).Silent := by
  induction params generalizing args with
  | nil => exact .pure ()
  | cons param params ih =>
    refine Action.Silent.bind ?_ fun _ v _ => (Action.Silent.push param.1 v).bind fun _ _ _ => ih _
    cases args.head? with
    | some arg => exact .pure arg
    | none =>
      -- without an argument a default is evaluated, and this is why evaluation has to be silent
      -- before anything is captured
      cases param.2 with
      | some default => exact hl default
      | none => exact .pure Value.null

namespace Below.Silent

variable {below : Below} (hb : below.Silent) (e : Engine)

include hb

/-- **A call of a macro is sealed.** Its defaults are evaluated before the capture begins,
but evaluation is silent on the level below. -/
theorem callMacro (t : Template) (name : String) (args : List Value) :
    (below.callMacro e t name args).Sealed := by
  unfold Below.callMacro
  split
  · exact fun _ _ _ => rfl
  · rename_i d _
    cases below with
    | none => exact fun _ _ _ => rfl
    | some l =>
      simp only [Below.descend]
      refine (Action.Silent.isolated ?_).deeper
      refine (Level.silent_bindParams (hb l rfl) d.params args).bind fun _ _ _ => ?_
      exact (Action.Silent.capture _).bind fun _ _ _ => .pure _

omit hb in
theorem parentBlock : (below.parentBlock e).Silent := by
  refine Action.Silent.get_bind (fun _ _ => rfl) fun c => ?_
  split
  · exact .fail _
  · split
    · exact .fail _
    · exact (Action.Silent.capture _).bind fun _ _ _ => .pure _

theorem callNamed (name : String) (args : List Value) :
    (Expr.callNamed e below name args).Silent := by
  refine Action.Silent.get_bind (fun _ _ => rfl) fun c => ?_
  split
  · exact (hb.callMacro e _ _ args).silent
  · split
    · exact (hb.callMacro e _ name args).silent
    · split
      · exact fun _ _ => rfl
      · exact .fail _

/-- The laws of the pairing of silent actions. -/
theorem evaluates : (Pairing.alone fun _ a => a.Silent).Evaluates e e below below where
  language := rfl
  result h := Pairing.rel_alone_result h (.pure _)
  bind ha hf := Pairing.rel_alone_bind ha hf ha.1.bind
  fail {_ _ fault} _ := Pairing.rel_alone_fail _ fault (.fail fault)
  raised _ := trivial
  missing path := by
    refine Pairing.rel_alone_eq _ ?_
    simp only [Expr.orMissing]
    split
    · exact .fail _
    · exact .pure _
  lookup name := Pairing.rel_alone_eq _ fun _ _ => rfl
  parentCall _ := by
    refine Pairing.rel_alone_eq _ ?_
    simp only [Expr.value?, Expr.values]
    refine Action.Silent.get_bind (fun _ _ => rfl) fun c => ?_
    split
    · exact (parentBlock e).bind fun _ _ _ => .pure _
    · exact (Action.Silent.pure _).bind fun _ _ _ => (hb.callNamed e _ _).bind fun _ _ _ => .pure _
  callNamed name args := Pairing.rel_alone_eq _ (hb.callNamed e name args)
  qualifier target := Pairing.rel_alone_option _ fun _ _ => rfl
  callMacro {t u} _ name args :=
    Pairing.rel_alone_eq _ (hb.callMacro e t name args).silent

end Below.Silent

namespace Engine

/-- Evaluation is silent on every level, and so is what is below it. -/
theorem silent (e : Engine) (n : Nat) :
    (e.below n).Silent ∧ ∀ x : Expr, ((e.level n).eval x).Silent := by
  have hlevel : ∀ m, (e.below m).Silent → ∀ x : Expr, ((e.level m).eval x).Silent := by
    intro m hm x
    rw [level_eq_over]
    exact ((hm.evaluates e).eval (x := x) fun _ _ => trivial).1
  have hbelow : (e.below n).Silent := by
    induction n with
    | zero =>
      intro l hl
      cases hl
    | succ n ih =>
      intro l hl x
      obtain rfl := Option.some.inj hl
      exact hlevel n ih x
  exact ⟨hbelow, hlevel n hbelow⟩

/-- **A macro neither sees nor touches the variables and the output of its caller**: from
two contexts that differ in nothing but these, a call gives the same value or the same
failure, and each context has its own scope and its own output afterwards. -/
theorem macro_isolated (e : Engine) (n : Nat) (t : Template) (name : String)
    (args : List Value) (c : Context) (scope : Scope) (output : String) :
    let here := (e.below n).callMacro e t name args c
    let there := (e.below n).callMacro e t name args { c with scope, output }
    here.1 = there.1 ∧ here.2.scope = c.scope ∧ here.2.output = c.output ∧
      there.2.scope = scope ∧ there.2.output = output := by
  intro here there
  have hsealed := (e.silent n).1.callMacro e t name args
  have hthere : there = (here.1, { here.2 with scope, output }) := hsealed c scope output
  rw [hthere]
  exact ⟨rfl, hsealed.scope_eq c, hsealed.silent.output_eq c, rfl, rfl⟩

end Engine

end Stencil
