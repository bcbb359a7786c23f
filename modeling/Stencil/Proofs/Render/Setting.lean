import Stencil.Proofs.Engine.Loaded
import Stencil.Proofs.Render.Pairing

/-!
# Settings

While instructions run on one level of nesting, a part of the context stays as it is: the
owners, the blocks that are being rendered, and the chain so far. Where no main part runs
that may hand over, nothing is added to the chain either, and it is **fixed**. This part is
the **setting** of the run. What is entered on the way has a setting of its own, and the old
one is back when it is left, also after a failure.

That it is so rests on what programs look like, so a setting comes with **rules** that all
programs obey which a run can come upon. Two runs from one context **keep** its setting if
they end in the same way, in one context that is in the setting again. Both may be the same
run; then it is only said that the setting is kept.
-/

namespace Stencil

/-- Whether something failed since there is no block of a name. -/
inductive Error.IsBlockFault : Error → Prop
  | undefined (name : String) : IsBlockFault (.render (.blockUndefined name))
  | notIn (name template : String) : IsBlockFault (.render (.blockNotIn name template))

/-! ### Rules -/

/-- What may be asked of programs. -/
structure Rules where
  /-- Whether every block that is called is one of the same program. -/
  closed : Prop
  /-- Whether no block and no macro hands over. -/
  steady : Prop

namespace Rules

/-- No rules. -/
def none : Rules := { closed := False, steady := False }

/-- That every block is there that is called. -/
def calls : Rules := { closed := True, steady := False }

/-- That no block and no macro hands over. -/
def handovers : Rules := { closed := False, steady := True }

/-- Whether an instruction may stand in a program, in a block or macro of it if `inner`. -/
structure Admits (R : Rules) (p : Program) (inner : Prop) (i : Instr) : Prop where
  called (h : R.closed) {name : String} (hi : i = .callBlock name) :
    (Table.find? name p.blocks).isSome
  stays (h : R.steady) (hinner : inner) (x : Expr) : i ≠ .extend x

end Rules

/-- Whether only such instructions stand in a program as may do so. -/
structure Program.Obeys (R : Rules) (p : Program) : Prop where
  main : ∀ i ∈ Instr.partsOf p.main, R.Admits p False i
  block : ∀ b ∈ p.blocks, ∀ i ∈ Instr.partsOf b.2, R.Admits p True i
  body : ∀ m ∈ p.macros, ∀ i ∈ Instr.partsOf m.2.body, R.Admits p True i

/-- Where there are no rules, every instruction is admitted. -/
theorem Rules.admits_none (p : Program) (inner : Prop) (i : Instr) : Rules.none.Admits p inner i :=
  ⟨fun h => h.elim, fun h => h.elim⟩

theorem Program.obeys_none (p : Program) : p.Obeys .none where
  main i _ := Rules.admits_none p False i
  block _ _ i _ := Rules.admits_none p True i
  body _ _ i _ := Rules.admits_none p True i

/-- Whether something holds of all templates that can be reached from a context. -/
structure Context.Knows (p : Template → Prop) (c : Context) : Prop where
  store : ∀ k t, c.store.held? k = some t → p t
  chain : ∀ t ∈ c.chain, p t
  owners : ∀ t ∈ c.owners, p t
  imports : ∀ name t, Table.find? name c.imports = some t → p t
  importedMacros : ∀ name m, Table.find? name c.importedMacros = some m → p m.1

/-- What holds of all templates holds of those that can be reached. -/
theorem Context.knows_of_forall {p : Template → Prop} (h : ∀ t, p t) (c : Context) : c.Knows p where
  store _ t _ := h t
  chain t _ := h t
  owners t _ := h t
  imports _ t _ := h t
  importedMacros _ m _ := h m.1

theorem Context.Knows.mono {p q : Template → Prop} {c : Context} (h : c.Knows p)
    (hpq : ∀ t, p t → q t) : c.Knows q where
  store k t ht := hpq t (h.store k t ht)
  chain t ht := hpq t (h.chain t ht)
  owners t ht := hpq t (h.owners t ht)
  imports name t ht := hpq t (h.imports name t ht)
  importedMacros name m hm := hpq m.1 (h.importedMacros name m hm)

/-! ### Settings -/

/-- What stays as it is while instructions run. -/
structure Setting where
  owners : List Template
  blocks : List (Template × String)
  /-- What the chain begins with. -/
  base : List Template
  /-- Whether the chain is nothing else. -/
  fixed : Prop

namespace Setting

/-- Whether a context is in a setting. -/
structure Holds (R : Rules) (σ : Setting) (c : Context) : Prop where
  knows : c.Knows fun t => t.program.Obeys R
  owners : c.owners = σ.owners
  blocks : c.blocks = σ.blocks
  base : σ.base <+: c.chain
  chain (hR : R.steady) (hfixed : σ.fixed) : c.chain = σ.base

/-- The setting of what begins to run in a context, with a chain that stays or one that may
grow. -/
def of (c : Context) (fixed : Prop) : Setting :=
  { owners := c.owners, blocks := c.blocks, base := c.chain, fixed }

theorem holds_of {R : Rules} {c : Context} (hc : c.Knows fun t => t.program.Obeys R)
    (fixed : Prop) : (of c fixed).Holds R c where
  knows := hc
  owners := rfl
  blocks := rfl
  base := List.prefix_rfl
  chain _ _ := rfl

/-- How two runs end that keep a setting: with the same failure, which is not one about blocks
where all calls of blocks are closed, or with related results. -/
inductive Ends (R : Rules) (σ : Setting) {α : Type} (S : α → α → Prop) :
    Except Error α × Context → Except Error α × Context → Prop
  | fail {fault : Error} {c : Context} (h : R.closed → ¬ fault.IsBlockFault) (hc : σ.Holds R c) :
    Ends R σ S (.error fault, c) (.error fault, c)
  | give {x y : α} {c : Context} (h : S x y) (hc : σ.Holds R c) :
    Ends R σ S (.ok x, c) (.ok y, c)

/-- **The pairing of runs that keep a setting.** -/
def pairing (R : Rules) (σ : Setting) : Pairing where
  rel S a b := ∀ c, σ.Holds R c → σ.Ends R S (a c) (b c)
  owner t u := u = t ∧ t.program.Obeys R
  fetched t u := u = t ∧ t.program.Obeys R
  instr i := ∃ t, σ.owners.head? = some t ∧ R.Admits t.program σ.fixed i
  allowed fault := R.closed → ¬ fault.IsBlockFault

variable {R : Rules} {σ σ' : Setting} {α β : Type} {S : α → α → Prop}

/-! ### Actions -/

/-- Something is put back after two runs in another setting. -/
theorem Ends.exit {r₁ r₂ : Except Error α × Context} (h : σ'.Ends R S r₁ r₂)
    (exit : Context → Context) (hexit : ∀ c, σ'.Holds R c → σ.Holds R (exit c)) :
    σ.Ends R S (r₁.1, exit r₁.2) (r₂.1, exit r₂.2) := by
  cases h with
  | fail hfault hc => exact .fail hfault (hexit _ hc)
  | give hxy hc => exact .give hxy (hexit _ hc)

/-- The same results are the same ends. -/
theorem Ends.eq {r₁ r₂ : Except Error α × Context} (h : σ.Ends R Eq r₁ r₂) : r₁ = r₂ := by
  cases h with
  | fail _ _ => rfl
  | give hxy _ => rw [hxy]

theorem result {x y : α} (h : S x y) : (σ.pairing R).rel S (pure x) (pure y) :=
  fun _ hc => .give h hc

theorem fail {fault : Error} (h : R.closed → ¬ fault.IsBlockFault) :
    (σ.pairing R).rel S (throw fault) (throw fault) :=
  fun _ hc => .fail h hc

theorem lift {r : Except Error α}
    (h : ∀ fault, r = .error fault → R.closed → ¬ fault.IsBlockFault) :
    (σ.pairing R).rel Eq (Action.lift r) (Action.lift r) := by
  cases r with
  | error fault => exact fail (h fault rfl)
  | ok x => exact result rfl

/-- Two runs that go on where two others ended. -/
theorem Ends.bind {T : β → β → Prop} {a b : Action α} {f g : α → Action β} {c : Context}
    (h : σ.Ends R S (a c) (b c)) (hf : ∀ x y, S x y → (σ.pairing R).rel T (f x) (g y)) :
    σ.Ends R T ((a >>= f) c) ((b >>= g) c) := by
  rw [Action.bind_apply, Action.bind_apply]
  generalize a c = r₁, b c = r₂ at h
  cases h with
  | fail hfault hc' => exact .fail hfault hc'
  | give hxy hc' => exact hf _ _ hxy _ hc'

theorem bind {T : β → β → Prop} {a b : Action α} {f g : α → Action β}
    (h : (σ.pairing R).rel S a b) (hf : ∀ x y, S x y → (σ.pairing R).rel T (f x) (g y)) :
    (σ.pairing R).rel T (a >>= f) (b >>= g) :=
  fun c hc => (h c hc).bind hf

theorem andThen {T : β → β → Prop} {a b : Action α} {f g : α → Action β}
    (h : (σ.pairing R).rel Eq a b) (hf : ∀ x, (σ.pairing R).rel T (f x) (g x)) :
    (σ.pairing R).rel T (a >>= f) (b >>= g) := by
  refine bind h ?_
  rintro x _ rfl
  exact hf x

theorem mono {S' : α → α → Prop} {a b : Action α} (h : (σ.pairing R).rel S a b)
    (hS : ∀ x y, S x y → S' x y) : (σ.pairing R).rel S' a b := by
  intro c hc
  have hab := h c hc
  generalize a c = r₁, b c = r₂ at hab ⊢
  cases hab with
  | fail hfault hc' => exact .fail hfault hc'
  | give hxy hc' => exact .give (hS _ _ hxy) hc'

/-- What a context has besides its setting may change. -/
theorem change (f : Context → Context) (hf : ∀ c, σ.Holds R c → σ.Holds R (f c)) :
    (σ.pairing R).rel Eq (modify f : Action Unit) (modify f) :=
  fun c hc => .give rfl (hf c hc)

/-- A context with another output is in the same setting. -/
theorem Holds.withOutput {c : Context} (hc : σ.Holds R c) (output : String) :
    σ.Holds R { c with output } :=
  { hc with knows := { hc.knows with } }

theorem write (s : String) : (σ.pairing R).rel Eq (Action.write s) (Action.write s) :=
  change _ fun _ hc => hc.withOutput _

theorem push (name : String) (v : Value) :
    (σ.pairing R).rel Eq (Action.push name v) (Action.push name v) :=
  change _ fun _ hc => { hc with knows := { hc.knows with } }

theorem set (name : String) (v : Value) :
    (σ.pairing R).rel Eq (Action.set name v) (Action.set name v) :=
  change _ fun _ hc => { hc with knows := { hc.knows with } }

theorem importAs (newName : String) {t : Template} (ht : t.program.Obeys R) :
    (σ.pairing R).rel Eq (Action.importAs newName t) (Action.importAs newName t) := by
  refine change _ fun c hc => { hc with knows := { hc.knows with imports := ?_ } }
  intro name u hu
  rw [Table.find?_insert] at hu
  split at hu
  · cases hu
    exact ht
  · exact hc.knows.imports name u hu

theorem importMacro (newName : String) {t : Template} (name : String) (ht : t.program.Obeys R) :
    (σ.pairing R).rel Eq (Action.importMacro newName t name)
      (Action.importMacro newName t name) := by
  refine change _ fun c hc => { hc with knows := { hc.knows with importedMacros := ?_ } }
  intro newer m hm
  rw [Table.find?_insert] at hm
  split at hm
  · cases hm
    exact ht
  · exact hc.knows.importedMacros newer m hm

/-! ### Brackets -/

section Brackets

variable {a b : Action α}

theorem withLocals (h : (σ.pairing R).rel S a b) :
    (σ.pairing R).rel S (Action.withLocals a) (Action.withLocals b) :=
  fun c hc => (h c hc).exit (fun i => { i with scope := i.scope.truncate c.scope.mark })
    fun _ hi => { hi with knows := { hi.knows with } }

theorem withScope (scope : Scope) (h : (σ.pairing R).rel S a b) :
    (σ.pairing R).rel S (Action.withScope scope a) (Action.withScope scope b) :=
  fun c hc => (h { c with scope } { hc with knows := { hc.knows with } }).exit
    (fun i => { i with scope := c.scope }) fun _ hi => { hi with knows := { hi.knows with } }

theorem deeper (h : (σ.pairing R).rel S a b) :
    (σ.pairing R).rel S (Action.deeper a) (Action.deeper b) :=
  fun c hc => (h { c with depth := c.depth + 1 } { hc with knows := { hc.knows with } }).exit
    (fun i => { i with depth := i.depth - 1 }) fun _ hi => { hi with knows := { hi.knows with } }

theorem withFreshImports (h : (σ.pairing R).rel S a b) :
    (σ.pairing R).rel S (Action.withFreshImports a) (Action.withFreshImports b) := by
  intro c hc
  have hfresh : σ.Holds R { c with imports := [], importedMacros := [] } :=
    { hc with knows := { hc.knows with
        imports := fun _ _ ht => by cases ht
        importedMacros := fun _ _ hm => by cases hm } }
  exact (h _ hfresh).exit
    (fun i => { i with imports := c.imports, importedMacros := c.importedMacros })
    fun _ hi => { hi with knows := { hi.knows with
      imports := hc.knows.imports
      importedMacros := hc.knows.importedMacros } }

theorem Ends.capture {a b : Action Unit} {c : Context}
    (h : σ.Ends R Eq (a { c with output := "" }) (b { c with output := "" })) :
    σ.Ends R Eq (Action.capture a c) (Action.capture b c) := by
  simp only [Action.capture]
  generalize a { c with output := "" } = r₁, b { c with output := "" } = r₂ at h
  cases h with
  | fail hfault hi => exact .fail hfault (hi.withOutput _)
  | give _ hi => exact .give rfl (hi.withOutput _)

theorem capture {a b : Action Unit} (h : (σ.pairing R).rel Eq a b) :
    (σ.pairing R).rel Eq (Action.capture a) (Action.capture b) :=
  fun _ hc => Ends.capture (h _ (hc.withOutput ""))

/-- A template that obeys the rules becomes the innermost owner. -/
theorem withOwner {t : Template} (ht : t.program.Obeys R)
    (h : (pairing R { σ with owners := t :: σ.owners }).rel S a b) :
    (σ.pairing R).rel S (Action.withOwner t a) (Action.withOwner t b) := by
  intro c hc
  have hentered : Holds R { σ with owners := t :: σ.owners } { c with owners := t :: c.owners } :=
    { hc with
      owners := congrArg (t :: ·) hc.owners
      knows := { hc.knows with owners := List.forall_mem_cons.mpr ⟨ht, hc.knows.owners⟩ } }
  refine (h _ hentered).exit (fun i => { i with owners := i.owners.tail }) fun i hi => ?_
  exact { hi with
    owners := congrArg List.tail hi.owners
    knows := { hi.knows with owners := fun u hu => hi.knows.owners u (List.mem_of_mem_tail hu) } }

theorem withBlock (t : Template) (name : String)
    (h : (pairing R { σ with blocks := (t, name) :: σ.blocks }).rel S a b) :
    (σ.pairing R).rel S (Action.withBlock t name a) (Action.withBlock t name b) := by
  intro c hc
  have hentered : Holds R { σ with blocks := (t, name) :: σ.blocks }
      { c with blocks := (t, name) :: c.blocks } :=
    { hc with
      blocks := congrArg ((t, name) :: ·) hc.blocks
      knows := { hc.knows with } }
  refine (h _ hentered).exit (fun i => { i with blocks := i.blocks.tail }) fun i hi => ?_
  exact { hi with
    blocks := congrArg List.tail hi.blocks
    knows := { hi.knows with } }

/-- A chain of its own may change as long as it is thrown away. -/
theorem withTemplate {t : Template} (ht : t.program.Obeys R)
    (h : (pairing R { σ with base := [], fixed := False }).rel S a b) :
    (σ.pairing R).rel S (Action.withTemplate t a) (Action.withTemplate t b) := by
  intro c hc
  have hentered : Holds R { σ with base := [], fixed := False } { c with chain := [t] } :=
    { hc with
      base := List.nil_prefix
      chain := fun _ hfixed => hfixed.elim
      knows := { hc.knows with chain := List.forall_mem_singleton.mpr ht } }
  refine (h _ hentered).exit (fun i => { i with chain := c.chain }) fun i hi => ?_
  exact { hi with
    base := hc.base
    chain := hc.chain
    knows := { hi.knows with chain := hc.knows.chain } }

/-- The chain of a context may be taken into its setting. -/
theorem Holds.rebase {c : Context} {fixed : Prop} (hc : σ.Holds R c) (hfixed : σ.fixed → fixed)
    (h : (pairing R { σ with base := c.chain, fixed }).rel S a b) : σ.Ends R S (a c) (b c) := by
  have hentered : Holds R { σ with base := c.chain, fixed } c :=
    { hc with
      base := List.prefix_rfl
      chain := fun _ _ => rfl }
  refine (h c hentered).exit id fun i hi => ?_
  exact { hi with
    base := hc.base.trans hi.base
    chain := fun hR h => (hi.chain hR (hfixed h)).trans (hc.chain hR h) }

/-- A setting with the chain of a context is the setting of that context. -/
theorem Holds.of_eq {c : Context} (hc : σ.Holds R c) :
    of c σ.fixed = { σ with base := c.chain } := by
  rw [of, hc.owners, hc.blocks]

/-- What does not stay need not be told. -/
theorem free (hfree : R.steady → ¬ σ.fixed)
    (h : (pairing R { σ with fixed := False }).rel S a b) : (σ.pairing R).rel S a b := by
  intro c hc
  have hentered : Holds R { σ with fixed := False } c :=
    { hc with chain := fun _ hfixed => hfixed.elim }
  refine (h c hentered).exit id fun i hi => ?_
  exact { hi with chain := fun hR hfixed => absurd hfixed (hfree hR) }

end Brackets

/-! ### What a context is asked for -/

theorem lookup (name : String) :
    (σ.pairing R).rel Eq (do return (← get).scope.lookup? name)
      (do return (← get).scope.lookup? name) :=
  fun _ hc => .give rfl hc

/-- An owner obeys the rules. -/
theorem Holds.owner? {c : Context} (hc : σ.Holds R c) :
    Option.Rel (σ.pairing R).owner c.owner? c.owner? := by
  cases ht : c.owner? with
  | none => exact .none
  | some t => exact .some ⟨rfl, hc.knows.owners t (List.mem_of_head? ht)⟩

theorem owner? :
    (σ.pairing R).rel (Option.Rel (σ.pairing R).owner) (do return (← get).owner?)
      (do return (← get).owner?) :=
  fun _ hc => .give hc.owner? hc

theorem qualifier (target : Expr) :
    (σ.pairing R).rel (Option.Rel (σ.pairing R).owner)
      (do return Expr.qualifier? (← get) target) (do return Expr.qualifier? (← get) target) := by
  refine fun c hc => .give ?_ hc
  cases target with
  | var name =>
    change Option.Rel _ (if name = "_self" then _ else _) (if name = "_self" then _ else _)
    split
    · exact hc.owner?
    · cases ht : Table.find? name c.imports with
      | none => exact .none
      | some t => exact .some ⟨rfl, hc.knows.imports name t ht⟩
  | _ => exact .none

/-- A provider of a block obeys the rules and has the block. -/
theorem Holds.blockProvider? {c : Context} (hc : σ.Holds R c) {name : String} {t : Template}
    (h : c.blockProvider? name = some t) : t.program.Obeys R ∧ t.hasBlock name := by
  rw [Context.blockProvider?] at h
  split at h
  next u hu =>
    obtain rfl := Option.some.inj h
    have hblock := List.find?_some hu
    exact ⟨hc.knows.chain u (List.mem_of_find?_eq_some hu), hblock⟩
  next =>
    obtain ⟨howner, hblock⟩ := Option.filter_eq_some_iff.mp h
    exact ⟨hc.knows.owners t (List.mem_of_head? howner), hblock⟩

theorem parentsOf_subset (t : Template) (ts : List Template) : Context.parentsOf t ts ⊆ ts := by
  induction ts with
  | nil => exact fun _ hu => hu
  | cons u ts ih =>
    rw [Context.parentsOf]
    split
    · exact List.subset_cons_self u ts
    · exact fun v hv => List.mem_cons_of_mem u (ih hv)

theorem Holds.parentProvider? {c : Context} (hc : σ.Holds R c) {t u : Template} {name : String}
    (h : c.parentProvider? u name = some t) : t.program.Obeys R ∧ t.hasBlock name := by
  rw [Context.parentProvider?] at h
  have hblock := List.find?_some h
  exact ⟨hc.knows.chain t (parentsOf_subset u c.chain (List.mem_of_find?_eq_some h)), hblock⟩

/-! ### Fetching -/

section Fetching

variable {e : Engine} (he : e.Compiles (Program.Obeys R))

include he

theorem fetch (path : String) :
    (σ.pairing R).rel (σ.pairing R).fetched (Action.fetch e path) (Action.fetch e path) := by
  intro c hc
  have hfetched := he.fetch hc.knows.store path
  simp only [Action.fetch, Action.onStore]
  generalize e.fetch path c.store = r at hfetched
  have hstore : σ.Holds R { c with store := r.2 } :=
    { hc with knows := { hc.knows with store := hfetched.store } }
  obtain ⟨fault | t, s⟩ := r
  · refine .fail (fun _ hfault => hfetched.fail fault rfl ?_) hstore
    cases hfault <;> exact ⟨_, rfl⟩
  · exact .give ⟨rfl, hfetched.give t rfl⟩ hstore

theorem fetchIncluded (path : String) (ignoreMissing : Bool) :
    (σ.pairing R).rel (Option.Rel (σ.pairing R).fetched)
      (Instr.fetchIncluded e path ignoreMissing) (Instr.fetchIncluded e path ignoreMissing) := by
  intro c hc
  have hfetch := fetch he path c hc
  simp only [Instr.fetchIncluded]
  generalize Action.fetch e path c = r at hfetch
  cases hfetch with
  | give ht hi => exact .give (.some ht) hi
  | @fail fault c' hfault hi =>
    cases fault with
    | notFound name =>
      cases ignoreMissing with
      | true => exact .give .none hi
      | false => exact .fail hfault hi
    | _ => exact .fail hfault hi

end Fetching

end Setting

end Stencil
