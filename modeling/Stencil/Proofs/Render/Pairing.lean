import Stencil.Proofs.Render.Running

/-!
# Pairings

A relation between actions may need no world: what is related is the same all the time. Such
a **pairing** has the laws of a growing one with the world left out, `Pairing.Evaluates` for
the value of an expression and `Pairing.Executes` for running instructions, and the walks
over expressions and instructions are those of the growing pairing that it is.

A property of single actions is a pairing too, one that does not look at the second action.
-/

namespace Stencil

/-- The world of what is the same all the time. -/
inductive StillWorld where
  | still

instance : Preorder StillWorld where
  le _ _ := True
  le_refl _ := trivial
  le_trans _ _ _ _ _ := trivial

/-- A relation between actions. -/
structure Pairing where
  /-- When two actions are related, given when their results are. -/
  rel {α : Type} (S : α → α → Prop) (a b : Action α) : Prop
  /-- Which templates may own the instructions that run on the two sides. -/
  owner : Template → Template → Prop := Eq
  /-- Which templates may be fetched on the two sides. -/
  fetched : Template → Template → Prop := Eq
  /-- The expressions that are covered. -/
  expr : Expr → Prop := fun _ => True
  /-- The instructions that are covered. -/
  instr : Instr → Prop := fun _ => True
  /-- Which paths an expression may name another template by. -/
  names : Expr → String → Prop := fun _ _ => True
  /-- The failures that may happen. -/
  allowed : Error → Prop := fun _ => True

namespace Pairing

/-- The pairing of a property that actions have by themselves. -/
def alone (p : ∀ α : Type, Action α → Prop) : Pairing where
  rel {α} S a _ := p α a ∧ ∀ c x, (a c).1 = .ok x → ∃ y, S x y

/-- For results that are related to themselves nothing but the property is left. -/
theorem rel_alone {p : ∀ α : Type, Action α → Prop} {α : Type} {S : α → α → Prop}
    {a : Action α} (b : Action α) (hS : ∀ x, S x x) (ha : p α a) : (alone p).rel S a b :=
  ⟨ha, fun _ x _ => ⟨x, hS x⟩⟩

theorem rel_alone_eq {p : ∀ α : Type, Action α → Prop} {α : Type} {a : Action α}
    (b : Action α) (ha : p α a) : (alone p).rel Eq a b :=
  rel_alone b (fun _ => rfl) ha

theorem rel_alone_option {p : ∀ α : Type, Action α → Prop} {α : Type}
    {a : Action (Option α)} (b : Action (Option α)) (ha : p (Option α) a) :
    (alone p).rel (Option.Rel Eq) a b := by
  refine rel_alone b (fun x => ?_) ha
  cases x with
  | none => exact .none
  | some x => exact .some rfl

theorem rel_alone_result {p : ∀ α : Type, Action α → Prop} {α : Type} {S : α → α → Prop}
    {x y : α} (h : S x y) (hpure : p α (pure x)) : (alone p).rel S (pure x) (pure y) := by
  refine ⟨hpure, fun c z hz => ⟨y, ?_⟩⟩
  rwa [← Except.ok.inj hz]

theorem rel_alone_fail {p : ∀ α : Type, Action α → Prop} {α : Type} (S : α → α → Prop)
    (fault : Error) (hfail : p α (throw fault)) : (alone p).rel S (throw fault) (throw fault) := by
  refine ⟨hfail, fun c z hz => ?_⟩
  cases hz

theorem rel_alone_bind {p : ∀ α : Type, Action α → Prop} {α β : Type} {S : α → α → Prop}
    {T : β → β → Prop} {a b : Action α} {f g : α → Action β} (ha : (alone p).rel S a b)
    (hf : ∀ x y, S x y → (alone p).rel T (f x) (g y))
    (hbind : (∀ c x, (a c).1 = .ok x → p β (f x)) → p β (a >>= f)) :
    (alone p).rel T (a >>= f) (b >>= g) := by
  refine ⟨hbind fun c x hx => ?_, fun c z hz => ?_⟩
  · obtain ⟨y, hxy⟩ := ha.2 c x hx
    exact (hf x y hxy).1
  · rw [Action.bind_apply] at hz
    rcases hac : a c with ⟨_ | x, d⟩ <;> rw [hac] at hz
    · simp at hz
    · obtain ⟨y, hxy⟩ := ha.2 c x (by rw [hac])
      exact (hf x y hxy).2 d z hz

variable (P : Pairing)

/-- The growing pairing whose only world never grows. -/
def growing : GrowingPairing StillWorld where
  rel _ S a b := P.rel (S .still) a b
  owner _ := P.owner
  fetched _ := P.fetched
  expr := P.expr
  instr := P.instr
  names := P.names
  allowed := P.allowed

/-- Whether an instruction is covered, with the expressions that stand in it. -/
def covers (i : Instr) : Prop :=
  P.instr i ∧ ∀ e ∈ i.exprs, e.Every P.expr

/-! ### Evaluation -/

/-- What a pairing must keep to hold of the values of expressions. -/
structure Evaluates (e₁ e₂ : Engine) (b₁ b₂ : Below) : Prop where
  language : e₁.language = e₂.language
  result {α : Type} {S : α → α → Prop} {x y : α} (h : S x y) : P.rel S (pure x) (pure y)
  bind {α β : Type} {S : α → α → Prop} {T : β → β → Prop} {a b : Action α}
    {f g : α → Action β} (h : P.rel S a b) (hf : ∀ x y, S x y → P.rel T (f x) (g y)) :
    P.rel T (a >>= f) (b >>= g)
  fail {α : Type} {S : α → α → Prop} {fault : Error} (h : P.allowed fault) :
    P.rel S (throw fault) (throw fault)
  raised {fault : Error} (h : e₁.language.Raises fault) : P.allowed fault
  missing (path : Expr) :
    P.rel Eq (Expr.orMissing e₁ path none) (Expr.orMissing e₂ path none)
  lookup (name : String) :
    P.rel Eq (do return (← get).scope.lookup? name) (do return (← get).scope.lookup? name)
  parentCall (h : P.expr (.call (.var "parent") [])) :
    P.rel Eq (Expr.value? e₁ b₁ (.call (.var "parent") []))
      (Expr.value? e₂ b₂ (.call (.var "parent") []))
  callNamed (name : String) (args : List Value) :
    P.rel Eq (Expr.callNamed e₁ b₁ name args) (Expr.callNamed e₂ b₂ name args)
  qualifier (target : Expr) :
    P.rel (Option.Rel P.owner) (do return Expr.qualifier? (← get) target)
      (do return Expr.qualifier? (← get) target)
  callMacro {t u : Template} (h : P.owner t u) (name : String) (args : List Value) :
    P.rel Eq (b₁.callMacro e₁ t name args) (b₂.callMacro e₂ u name args)

variable {P} {e₁ e₂ : Engine} {b₁ b₂ : Below}

theorem Evaluates.growing (h : P.Evaluates e₁ e₂ b₁ b₂) : P.growing.Evaluates e₁ e₂ b₁ b₂ where
  language := h.language
  result hxy := h.result hxy
  bind hab hf := h.bind hab (hf .still le_rfl)
  fail hfault := h.fail hfault
  raised hfault := h.raised hfault
  missing _ path := h.missing path
  lookup _ name := h.lookup name
  parentCall _ hx := h.parentCall hx
  callNamed _ _ _ _ values := h.callNamed _ values
  qualifier _ _ _ _ _ := h.qualifier _
  callMacro htu name args := h.callMacro htu name args
  owner_mono _ _ _ htu := htu

/-- The value of an expression. -/
theorem Evaluates.eval (h : P.Evaluates e₁ e₂ b₁ b₂) {x : Expr} (hx : x.Every P.expr) :
    P.rel Eq (x.eval e₁ b₁) (x.eval e₂ b₂) :=
  h.growing.eval .still hx

/-! ### Running -/

variable (P) in
/-- What a pairing must keep to hold of running instructions. -/
structure Executes (e₁ e₂ : Engine) (b₁ b₂ : Below) : Prop extends P.Evaluates e₁ e₂ b₁ b₂ where
  write (s : String) : P.rel Eq (Action.write s) (Action.write s)
  capture {a b : Action Unit} (h : P.rel Eq a b) :
    P.rel Eq (Action.capture a) (Action.capture b)
  push (name : String) (v : Value) : P.rel Eq (Action.push name v) (Action.push name v)
  set (name : String) (v : Value) : P.rel Eq (Action.set name v) (Action.set name v)
  withLocals {a b : Action Flow} (h : P.rel Eq a b) :
    P.rel Eq (Action.withLocals a) (Action.withLocals b)
  renderBlock {name : String} (hi : P.instr (.callBlock name)) :
    P.rel Eq (b₁.renderBlock e₁ name) (b₂.renderBlock e₂ name)
  named {x : Expr} (h : P.rel Eq (x.eval e₁ b₁) (x.eval e₂ b₂)) :
    P.rel (fun v w => v = w ∧ P.names x v.display) (x.eval e₁ b₁) (x.eval e₂ b₂)
  fetch {i : Instr} (hi : P.instr i) {x : Expr} (hx : i.template? = some x) {path : String}
    (hpath : P.names x path) : P.rel P.fetched (Action.fetch e₁ path) (Action.fetch e₂ path)
  fetchIncluded {i : Instr} (hi : P.instr i) {x : Expr} (hx : i.template? = some x)
    {path : String} (hpath : P.names x path) (ignoreMissing : Bool) :
    P.rel (Option.Rel P.fetched) (Instr.fetchIncluded e₁ path ignoreMissing)
      (Instr.fetchIncluded e₂ path ignoreMissing)
  callParent {x : Expr} (hi : P.instr (.extend x)) {t u : Template} (h : P.fetched t u) :
    P.rel Eq (b₁.callParent e₁ t) (b₂.callParent e₂ u)
  embed {t u : Template} (h : P.fetched t u) (vars : Table Value) (only : Bool) :
    P.rel Eq (b₁.embed e₁ t vars only) (b₂.embed e₂ u vars only)
  owner? : P.rel (Option.Rel P.owner) (do return (← get).owner?) (do return (← get).owner?)
  owner {t u : Template} (h : P.fetched t u) : P.owner t u
  importAs {x : Expr} {newName : String} (hi : P.instr (.importAs x newName)) {t u : Template}
    (h : P.owner t u) : P.rel Eq (Action.importAs newName t) (Action.importAs newName u)
  importEach {x : Expr} {names : List (String × String)} (hi : P.instr (.importNames x names))
    {t u : Template} (h : P.owner t u) :
    P.rel Eq (Instr.importEach t names) (Instr.importEach u names)

theorem Executes.growing (h : P.Executes e₁ e₂ b₁ b₂) : P.growing.Executes e₁ e₂ b₁ b₂ where
  toEvaluates := h.toEvaluates.growing
  write _ s := h.write s
  capture hab := h.capture hab
  push _ name v := h.push name v
  set _ name v := h.set name v
  withLocals hab := h.withLocals hab
  renderBlock _ _ hi := h.renderBlock hi
  named hx := h.named hx
  fetch _ _ hi _ hx _ hpath := h.fetch hi hx hpath
  fetchIncluded _ _ hi _ hx _ hpath ignoreMissing := h.fetchIncluded hi hx hpath ignoreMissing
  callParent hi _ _ htu := h.callParent hi htu
  embed htu vars only := h.embed htu vars only
  owner? _ := h.owner?
  owner htu := h.owner htu
  fetched_mono _ _ _ htu := htu
  importAs hi _ _ htu := h.importAs hi htu
  importEach hi _ _ htu := h.importEach hi htu

/-- A list of instructions. -/
theorem Executes.sequence (h : P.Executes e₁ e₂ b₁ b₂) (instrs : List Instr)
    (hi : ∀ j ∈ Instr.partsOf instrs, P.covers j) :
    P.rel Eq (Instr.sequence e₁ b₁ instrs) (Instr.sequence e₂ b₂ instrs) :=
  h.growing.sequence instrs .still hi

theorem Executes.discard (h : P.Executes e₁ e₂ b₁ b₂) {a b : Action Flow} (hab : P.rel Eq a b) :
    P.rel Eq (discard a : Action Unit) (discard b) :=
  h.growing.discard (w := .still) hab

end Pairing

end Stencil
