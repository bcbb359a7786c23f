import Mathlib.Order.Basic
import Stencil.Proofs.Render.Parts
import Stencil.Render.Run

/-!
# Growing pairings

Everything the interpreter does is put together from a few actions. So whatever relation
holds between those few of one engine and those of another, and is kept when actions are
done one after the other, holds between the two interpreters as a whole. Such a relation
is a **pairing**. It says when two actions are related, given when their results are, and
its laws are the steps of the proof that are left to whoever uses it.

What is related may depend on what has happened so far, such as which template was loaded
in the place of which: on a **world**, which only ever grows. Two actions that are related
in a world may end in a larger one, and it is there that their results are related.

A pairing need not speak of everything: `expr` and `instr` say which expressions and
instructions it covers. Nor does it have to allow every failure, as long as it allows those
that evaluation **raises** by itself.
-/

namespace Stencil

/-- Two actions one after the other, of which the second runs only if the first gives a
result. -/
theorem Action.bind_apply {α β : Type} (a : Action α) (f : α → Action β) (c : Context) :
    (a >>= f) c = match a c with
      | (.ok x, d) => f x d
      | (.error fault, d) => (.error fault, d) := by
  simp only [bind, ExceptT.bind, ExceptT.mk, StateT.bind]
  rcases a c with ⟨x | x, d⟩ <;> rfl

/-- An action that looks at the context first. -/
theorem Action.get_bind_apply {α : Type} (f : Context → Action α) (c : Context) :
    (get >>= f) c = f c c := rfl

/-- The failures that evaluation raises by itself, not counting what the level below, the store
and functions do. -/
inductive Language.Raises (l : Language) : Error → Prop
  | unknownFilter (name : String) : Raises l (.render (.unknownFilter name))
  | unknownTest (name : String) : Raises l (.render (.unknownTest name))
  | notCallable (expression : String) : Raises l (.render (.notCallable expression))
  | includeVariables (type : String) : Raises l (.render (.includeVariables type))
  | selfOutside : Raises l (.render .selfOutside)
  | filter {name : String} {f : Filter} {v : Value} {args : List Value} {fault : Error}
    (hf : Table.find? name l.filters = some f) (h : f v args = .error fault) : Raises l fault
  | unary {op : UnaryOp} {v : Value} {fault : Error} (h : op.apply v = .error fault) :
    Raises l fault
  | binary {op : BinaryOp} {a b : Value} {fault : Error} (h : op.apply a b = .error fault) :
    Raises l fault
  | pairs {v : Value} {fault : Error} (h : v.pairs = .error fault) : Raises l fault

/-- A relation between actions in a world. -/
structure GrowingPairing (W : Type) where
  /-- When two actions are related, given when their results are. -/
  rel {α : Type} (w : W) (S : W → α → α → Prop) (a b : Action α) : Prop
  /-- Which templates may own the instructions that run on the two sides. -/
  owner : W → Template → Template → Prop
  /-- Which templates may be fetched on the two sides. -/
  fetched : W → Template → Template → Prop
  /-- The expressions that are covered. -/
  expr : Expr → Prop := fun _ => True
  /-- The instructions that are covered. -/
  instr : Instr → Prop := fun _ => True
  /-- Which paths an expression may name another template by. -/
  names : Expr → String → Prop := fun _ _ => True
  /-- The failures that may happen. -/
  allowed : Error → Prop := fun _ => True

namespace GrowingPairing

variable {W : Type} (P : GrowingPairing W)

/-- Whether two actions are related whose results are equal. -/
abbrev same {α : Type} (w : W) (a b : Action α) : Prop :=
  P.rel w (fun _ => Eq) a b

/-- Whether an instruction is covered, with the expressions that stand in it. -/
def covers (i : Instr) : Prop :=
  P.instr i ∧ ∀ e ∈ i.exprs, e.Every P.expr

variable [Preorder W]

/-! ### Evaluation -/

/-- What a pairing must keep to hold of the values of expressions. -/
structure Evaluates (e₁ e₂ : Engine) (b₁ b₂ : Below) : Prop where
  language : e₁.language = e₂.language
  result {w : W} {α : Type} {S : W → α → α → Prop} {x y : α} (h : S w x y) :
    P.rel w S (pure x) (pure y)
  bind {w : W} {α β : Type} {S : W → α → α → Prop} {T : W → β → β → Prop} {a b : Action α}
    {f g : α → Action β} (h : P.rel w S a b)
    (hf : ∀ w', w ≤ w' → ∀ x y, S w' x y → P.rel w' T (f x) (g y)) :
    P.rel w T (a >>= f) (b >>= g)
  fail {w : W} {α : Type} {S : W → α → α → Prop} {fault : Error} (h : P.allowed fault) :
    P.rel w S (throw fault) (throw fault)
  raised {fault : Error} (h : e₁.language.Raises fault) : P.allowed fault
  missing (w : W) (path : Expr) :
    P.same w (Expr.orMissing e₁ path none) (Expr.orMissing e₂ path none)
  lookup (w : W) (name : String) :
    P.same w (do return (← get).scope.lookup? name) (do return (← get).scope.lookup? name)
  parentCall (w : W) (h : P.expr (.call (.var "parent") [])) :
    P.same w (Expr.value? e₁ b₁ (.call (.var "parent") []))
      (Expr.value? e₂ b₂ (.call (.var "parent") []))
  callNamed (w : W) {name : String} {args : List Expr} (h : P.expr (.call (.var name) args))
    (values : List Value) :
    P.same w (Expr.callNamed e₁ b₁ name values) (Expr.callNamed e₂ b₂ name values)
  qualifier (w : W) {target : Expr} {name : String} {args : List Expr}
    (h : P.expr (.call (.attr target name) args)) :
    P.rel w (fun w' => Option.Rel (P.owner w')) (do return Expr.qualifier? (← get) target)
      (do return Expr.qualifier? (← get) target)
  callMacro {w : W} {t u : Template} (h : P.owner w t u) (name : String) (args : List Value) :
    P.same w (b₁.callMacro e₁ t name args) (b₂.callMacro e₂ u name args)
  owner_mono {w w' : W} (hw : w ≤ w') {t u : Template} (h : P.owner w t u) : P.owner w' t u

namespace Evaluates

variable {P} {e₁ e₂ : Engine} {b₁ b₂ : Below}

section Steps

variable (h : P.Evaluates e₁ e₂ b₁ b₂) {w : W} {α β : Type} {T : W → β → β → Prop}

include h

/-- Two related actions with equal results, each followed by something. -/
theorem andThen {a b : Action α} {f g : α → Action β} (ha : P.same w a b)
    (hf : ∀ w', w ≤ w' → ∀ x, P.rel w' T (f x) (g x)) : P.rel w T (a >>= f) (b >>= g) := by
  refine h.bind ha ?_
  rintro w' hw x _ rfl
  exact hf w' hw x

/-- What is known of the results may be forgotten in part. -/
theorem mono {S S' : W → α → α → Prop} {a b : Action α} (hab : P.rel w S a b)
    (hS : ∀ w' x y, S w' x y → S' w' x y) : P.rel w S' a b := by
  rw [← bind_pure a, ← bind_pure b]
  exact h.bind hab fun w' _ x y hxy => h.result (hS w' x y hxy)

theorem pure (x : α) : P.same w (Pure.pure x : Action α) (Pure.pure x) :=
  h.result rfl

theorem fault {S : W → α → α → Prop} {f : RenderFault} (hf : e₁.language.Raises (.render f)) :
    P.rel w S (Action.fault f : Action α) (Action.fault f) :=
  h.fail (h.raised hf)

theorem lift {r : Except Error α} (hr : ∀ fault, r = .error fault → e₁.language.Raises fault) :
    P.same w (Action.lift r) (Action.lift r) := by
  cases r with
  | ok x => exact h.pure x
  | error fault => exact h.fail (h.raised (hr fault rfl))

theorem orMissing (path : Expr) (v : Option Value) :
    P.same w (Expr.orMissing e₁ path v) (Expr.orMissing e₂ path v) := by
  cases v with
  | none => exact h.missing w path
  | some v => exact h.pure v

theorem applyFilter (name : String) (v : Value) (args : List Value) :
    P.same w (Expr.applyFilter e₁ name v args) (Expr.applyFilter e₂ name v args) := by
  simp only [Expr.applyFilter, ← h.language]
  split
  next f hf => exact h.lift fun _ => .filter hf
  next => exact h.fault (.unknownFilter name)

end Steps

/-- A call that does not render the parent of a block. -/
theorem isParentCall_eq_false {name : String} {args : List Expr}
    (hne : ¬(name = "parent" ∧ args = [])) (c : Context) :
    Expr.isParentCall c name args = false := by
  simp only [Expr.isParentCall, Bool.and_eq_false_iff, decide_eq_false_iff_not]
  refine Or.inl ?_
  by_cases hname : name = "parent"
  · exact Or.inr (by cases args <;> simp_all)
  · exact Or.inl hname

/-- A qualified call, which looks for the template before anything else. -/
theorem value?_call_attr (e : Engine) (b : Below) (target : Expr) (name : String)
    (args : List Expr) :
    Expr.value? e b (.call (.attr target name) args) =
      (do return Expr.qualifier? (← get) target) >>= fun q =>
        match q with
        | some t => do return some (← b.callMacro e t name (← Expr.values e b args))
        | none => Action.fault (.notCallable (Expr.attr target name).display) := by
  simp only [Expr.value?]
  rfl

/-! ### The walk over an expression -/

mutual

theorem value? (h : P.Evaluates e₁ e₂ b₁ b₂) :
    ∀ (x : Expr) (w : W), x.Every P.expr → P.same w (Expr.value? e₁ b₁ x) (Expr.value? e₂ b₂ x)
  | .literal v, _, _ => by
    simp only [Expr.value?]
    exact h.pure _
  | .var name, w, _ => by
    simp only [Expr.value?]
    exact h.lookup w name
  | .list items, w, hx => by
    simp only [Expr.value?]
    refine h.andThen (values h items w fun y hy => hx y ?_) fun _ _ _ => h.pure _
    simp [Expr.parts, hy]
  | .map entries, w, hx => by
    simp only [Expr.value?]
    refine h.andThen (entryValues h entries [] w fun y hy => hx y ?_) fun _ _ _ => h.pure _
    simp [Expr.parts, hy]
  | .attr target name, w, hx => by
    simp only [Expr.value?]
    refine h.andThen (value? h target w fun y hy => hx y ?_) fun _ _ _ => h.pure _
    simp [Expr.parts, hy]
  | .index target position, w, hx => by
    have htarget := value? h target w fun y hy => hx y (by simp [Expr.parts, hy])
    have hposition := fun w' => value? h position w' fun y hy => hx y (by simp [Expr.parts, hy])
    simp only [Expr.value?]
    refine h.andThen htarget fun w' _ v => h.andThen (hposition w') fun _ _ i => ?_
    exact h.andThen (h.orMissing position i) fun _ _ _ => h.pure _
  | .call callee args, w, hx => by
    have hself := hx _ (Expr.mem_parts_self _)
    have hargs := fun w' => values h args w' fun y hy => hx y (by simp [Expr.parts, hy])
    cases callee with
    | var name =>
      -- `parent()` is the one call whose meaning depends on the block that is rendered
      by_cases hparent : name = "parent" ∧ args = []
      · obtain ⟨rfl, rfl⟩ := hparent
        exact h.parentCall w hself
      · simp only [Expr.value?, isParentCall_eq_false hparent]
        change P.same w (do return some (← Expr.callNamed e₁ b₁ name (← Expr.values e₁ b₁ args)))
          (do return some (← Expr.callNamed e₂ b₂ name (← Expr.values e₂ b₂ args)))
        refine h.andThen (hargs w) fun w' _ vs => ?_
        exact h.andThen (h.callNamed w' hself vs) fun _ _ _ => h.pure _
    | attr target name =>
      rw [value?_call_attr, value?_call_attr]
      refine h.bind (h.qualifier w hself) ?_
      rintro w' _ _ _ (htu | _)
      · -- the world may have grown while the arguments were evaluated
        refine h.andThen (hargs w') fun w'' hw vs => ?_
        exact h.andThen (h.callMacro (h.owner_mono hw htu) name vs) fun _ _ _ => h.pure _
      · exact h.fault (.notCallable _)
    | _ =>
      simp only [Expr.value?]
      exact h.fault (.notCallable _)
  | .filter input name args, w, hx => by
    have hinput := value? h input w fun y hy => hx y (by simp [Expr.parts, hy])
    have hargs := fun w' => values h args w' fun y hy => hx y (by simp [Expr.parts, hy])
    -- what is done once the input is there, be it missing or not
    have hfinish : ∀ w' v, P.same w'
        (do return some (← Expr.applyFilter e₁ name v (← Expr.values e₁ b₁ args)))
        (do return some (← Expr.applyFilter e₂ name v (← Expr.values e₂ b₂ args))) :=
      fun w' v => h.andThen (hargs w') fun _ _ vs =>
        h.andThen (h.applyFilter name v vs) fun _ _ _ => h.pure _
    simp only [Expr.value?]
    refine h.andThen hinput fun w' _ v => ?_
    by_cases hname : name = "default"
    · simp only [if_pos hname]
      exact hfinish w' _
    · simp only [if_neg hname]
      exact h.andThen (h.orMissing input v) fun w'' _ _ => hfinish w'' _
  | .test input name negated, w, hx => by
    have hinput := value? h input w fun y hy => hx y (by simp [Expr.parts, hy])
    simp only [Expr.value?]
    by_cases hname : name = "defined"
    · simp only [if_pos hname]
      exact h.andThen hinput fun _ _ _ => h.pure _
    · simp only [if_neg hname]
      split
      · refine h.andThen hinput fun _ _ v => ?_
        exact h.andThen (h.orMissing input v) fun _ _ _ => h.pure _
      · exact h.fault (.unknownTest name)
  | .unary op operand, w, hx => by
    have hoperand := value? h operand w fun y hy => hx y (by simp [Expr.parts, hy])
    simp only [Expr.value?]
    refine h.andThen hoperand fun _ _ v => h.andThen (h.orMissing operand v) fun _ _ _ => ?_
    exact h.andThen (h.lift fun _ => .unary) fun _ _ _ => h.pure _
  | .binary op left right, w, hx => by
    have hleft := value? h left w fun y hy => hx y (by simp [Expr.parts, hy])
    have hright := fun w' => value? h right w' fun y hy => hx y (by simp [Expr.parts, hy])
    simp only [Expr.value?]
    refine h.andThen hleft fun _ _ v => h.andThen (h.orMissing left v) fun w' _ a => ?_
    split
    · exact h.pure _
    · refine h.andThen (hright w') fun _ _ v => h.andThen (h.orMissing right v) fun _ _ b => ?_
      exact h.andThen (h.lift fun _ => .binary) fun _ _ _ => h.pure _
  | .ternary cond yes no, w, hx => by
    have hcond := value? h cond w fun y hy => hx y (by simp [Expr.parts, hy])
    have hyes := fun w' => value? h yes w' fun y hy => hx y (by simp [Expr.parts, hy])
    have hno := fun w' => value? h no w' fun y hy => hx y (by simp [Expr.parts, hy])
    simp only [Expr.value?]
    refine h.andThen hcond fun _ _ v => h.andThen (h.orMissing cond v) fun w' _ c => ?_
    split
    · refine h.andThen (hyes w') fun _ _ v => ?_
      exact h.andThen (h.orMissing yes v) fun _ _ _ => h.pure _
    · refine h.andThen (hno w') fun _ _ v => ?_
      exact h.andThen (h.orMissing no v) fun _ _ _ => h.pure _

theorem values (h : P.Evaluates e₁ e₂ b₁ b₂) :
    ∀ (items : List Expr) (w : W), (∀ y ∈ Expr.partsOf items, P.expr y) →
      P.same w (Expr.values e₁ b₁ items) (Expr.values e₂ b₂ items)
  | [], _, _ => by
    simp only [Expr.values]
    exact h.pure _
  | item :: items, w, hx => by
    have hitem := value? h item w fun y hy => hx y (by simp [Expr.partsOf, hy])
    have hitems := fun w' => values h items w' fun y hy => hx y (by simp [Expr.partsOf, hy])
    simp only [Expr.values]
    refine h.andThen hitem fun _ _ v => h.andThen (h.orMissing item v) fun w' _ _ => ?_
    exact h.andThen (hitems w') fun _ _ _ => h.pure _

theorem entryValues (h : P.Evaluates e₁ e₂ b₁ b₂) :
    ∀ (entries : List (Expr × Expr)) (before : Table Value) (w : W),
      (∀ y ∈ Expr.entryParts entries, P.expr y) →
      P.same w (Expr.entryValues e₁ b₁ before entries) (Expr.entryValues e₂ b₂ before entries)
  | [], _, _, _ => by
    simp only [Expr.entryValues]
    exact h.pure _
  | (key, item) :: rest, before, w, hx => by
    have hkey := value? h key w fun y hy => hx y (by simp [Expr.entryParts, hy])
    have hitem := fun w' => value? h item w' fun y hy => hx y (by simp [Expr.entryParts, hy])
    simp only [Expr.entryValues]
    refine h.andThen hkey fun _ _ k => h.andThen (h.orMissing key k) fun w' _ _ => ?_
    refine h.andThen (hitem w') fun _ _ v => h.andThen (h.orMissing item v) fun w'' _ _ => ?_
    exact entryValues h rest _ w'' fun y hy => hx y (by simp [Expr.entryParts, hy])

end

/-- The value of an expression. -/
theorem eval (h : P.Evaluates e₁ e₂ b₁ b₂) (w : W) {x : Expr} (hx : x.Every P.expr) :
    P.same w (x.eval e₁ b₁) (x.eval e₂ b₂) :=
  h.andThen (h.value? x w hx) fun _ _ v => h.orMissing x v

end Evaluates

end GrowingPairing

end Stencil
