import Stencil.Proofs.Inheritance.Chain
import Stencil.Proofs.Render.Bookkeeping

/-!
# Contexts that look alike

Two renders look **alike** if nothing but the templates in their chains and their owners
may differ, and these differ in nothing that can be seen: the same blocks are found in the
two chains, and the owners have no macros and no blocks that the chain does not have.

Alike contexts stay alike whatever runs, as long as it does not speak of macros or of the
parent of a block. This is a pairing of the interpreter with itself, under two limits.
-/

namespace Stencil

/-! ### Owners and chains -/

/-- The programs of a chain of templates. -/
def Context.programs (c : Context) : List Program :=
  c.chain.map Template.program

/-- Whether a template shows nothing of itself next to a chain: it has no macros, and each
of its blocks is found in the chain. -/
structure Owned (chain : List Program) (t : Template) : Prop where
  macros : t.program.macros = []
  blocks : ∀ name, t.hasBlock name → (findBlock chain name).isSome

theorem Owned.mono {ps qs : List Program} {t : Template} (h : Owned ps t) (hpre : ps <+: qs) :
    Owned qs t where
  macros := h.macros
  blocks name hname := by
    obtain ⟨more, rfl⟩ := hpre
    rw [findBlock_append, Option.isSome_or, h.blocks name hname]
    rfl

/-- Owners show nothing of themselves next to longer chains either. -/
theorem Owned.mono_rel {ps qs ps' qs' : List Program} {o o' : Option Template}
    (h : Option.Rel (fun t u => Owned ps t ∧ Owned ps' u) o o') (hpre : ps <+: qs)
    (hpre' : ps' <+: qs') : Option.Rel (fun t u => Owned qs t ∧ Owned qs' u) o o' := by
  cases h with
  | none => exact .none
  | some hown => exact .some ⟨hown.1.mono hpre, hown.2.mono hpre'⟩

/-- A template of the chain. -/
theorem Owned.of_mem {chain : List Program} {t : Template} (ht : t.program ∈ chain)
    (hmacros : t.program.macros = []) : Owned chain t where
  macros := hmacros
  blocks _ hname := findBlock_isSome ht hname

theorem find?_hasBlock (chain : List Template) (name : String) :
    (chain.find? fun t => t.hasBlock name).bind (fun t => t.block? name) =
      findBlock (chain.map Template.program) name := by
  induction chain with
  | nil => rfl
  | cons t chain ih =>
    rw [List.find?_cons, List.map_cons, findBlock, List.findSome?_cons, ← findBlock]
    cases h : Table.find? name t.program.blocks with
    | none =>
      have hno : t.hasBlock name = false := by simp [Template.hasBlock, Template.block?, h]
      rw [hno]
      exact ih
    | some body =>
      have hyes : t.hasBlock name = true := by simp [Template.hasBlock, Template.block?, h]
      rw [hyes]
      exact h

/-- A block is provided by a template of the chain, and as it is found in the chain, unless
it is not found there at all. -/
theorem Context.blockProvider?_eq {c : Context} (hown : ∀ t ∈ c.owner?, Owned c.programs t)
    (name : String) :
    (c.blockProvider? name = none ∧ findBlock c.programs name = none) ∨
      ∃ t ∈ c.chain, c.blockProvider? name = some t ∧
        ∃ body, t.block? name = some body ∧ findBlock c.programs name = some body := by
  have hfind := find?_hasBlock c.chain name
  rw [blockProvider?]
  cases hchain : c.chain.find? fun t => t.hasBlock name with
  | none =>
    rw [hchain] at hfind
    refine .inl ⟨?_, hfind.symm⟩
    -- the owner has no block that the chain does not have
    rw [Option.filter_eq_none_iff]
    intro t ht hblock
    have hsome := (hown t ht).blocks name hblock
    rw [programs, ← hfind] at hsome
    cases hsome
  | some t =>
    rw [hchain] at hfind
    have hblock := List.find?_some hchain
    obtain ⟨body, hbody⟩ := Option.isSome_iff_exists.mp hblock
    refine .inr ⟨t, List.mem_of_find?_eq_some hchain, rfl, body, hbody, ?_⟩
    rw [programs, ← hfind]
    exact hbody

/-! ### Alike contexts -/

/-- Whether an instruction imports nothing and names only programs that are reached. -/
def Tame (e : Engine) (s : Store) (p : Program) (i : Instr) : Prop :=
  ¬ i.Imports ∧ ∀ x ∈ i.template?, ∀ path q, e.CanName x path → e.content s path = .ok q →
    e.Reaches s p q

/-- Whether moreover no expression in it calls for the parent of a block. -/
def Fit (e : Engine) (s : Store) (p : Program) (i : Instr) : Prop :=
  Tame e s p i ∧ ∀ x ∈ i.exprs, x.Every (· ≠ Expr.parentCall)

/-- Whether two contexts show the same blocks and no macros, if `chain` is what the chain
of the left one holds or will hold. -/
structure SameFrame (e : Engine) (s : Store) (p : Program) (chain : List Program)
    (c d : Context) : Prop where
  blocks : ∀ name, findBlock d.programs name = findBlock chain name
  fit : ∀ name body, findBlock chain name = some body → ∀ i ∈ Instr.partsOf body, Fit e s p i
  macros : ∀ q ∈ chain, q.macros = []
  macros' : ∀ q ∈ d.programs, q.macros = []
  owner : Option.Rel (fun t u => Owned chain t ∧ Owned d.programs u) c.owner? d.owner?
  imports : c.imports = [] ∧ c.importedMacros = []
  imports' : d.imports = [] ∧ d.importedMacros = []

theorem SameFrame.owned {e : Engine} {s : Store} {p : Program} {chain : List Program}
    {c d : Context} (h : SameFrame e s p chain c d) :
    (∀ t ∈ c.owner?, Owned chain t) ∧ ∀ u ∈ d.owner?, Owned d.programs u := by
  have howner := h.owner
  generalize c.owner? = o, d.owner? = o' at howner ⊢
  cases howner with
  | none =>
    constructor
    · intro t ht
      cases ht
    · intro u hu
      cases hu
  | some hown =>
    refine ⟨fun t ht => ?_, fun u hu => ?_⟩
    · cases ht
      exact hown.1
    · cases hu
      exact hown.2

/-- Whether two contexts hold the same data. -/
structure SameData (e : Engine) (s : Store) (c d : Context) : Prop where
  honest : e.Honest c.store
  honest' : e.Honest d.store
  content : e.content c.store = e.content s
  content' : e.content d.store = e.content s
  scope : d.scope = c.scope
  output : d.output = c.output

/-- Two contexts between which no run tells a difference. -/
structure Alike (e : Engine) (s : Store) (p : Program) (c d : Context) : Prop where
  data : SameData e s c d
  frame : SameFrame e s p c.programs c d

/-- What a run leaves of the owners and of the chain. -/
structure Context.Steady (c c' : Context) : Prop where
  owners : c'.owners = c.owners
  chain : c.chain <+: c'.chain

theorem Context.Steady.refl (c : Context) : c.Steady c :=
  ⟨rfl, List.prefix_rfl⟩

theorem Context.Steady.trans {c c' c'' : Context} (h : c.Steady c') (h' : c'.Steady c'') :
    c.Steady c'' :=
  ⟨h'.owners.trans h.owners, h.chain.trans h'.chain⟩

/-- How two runs end: both fail, or both give related results in contexts that are alike. -/
def Outcome (e : Engine) (s : Store) (p : Program) {α : Type} (S : α → α → Prop)
    (c d : Context) : Except Error α × Context → Except Error α × Context → Prop
  | (.ok x, c'), (.ok y, d') =>
    S x y ∧ Alike e s p c' d' ∧ c.Steady c' ∧ d.Steady d'
  | (.error _, _), (.error _, _) => True
  | _, _ => False

/-- **The pairing of renders that look alike.** -/
def alikeness (e : Engine) (s : Store) (p : Program) : Pairing where
  rel S a b := ∀ c d, Alike e s p c d → Outcome e s p S c d (a c) (b d)
  owner t u := t.program.macros = [] ∧ u.program.macros = []
  fetched t u := u.program = t.program ∧ e.Reaches s p t.program
  expr x := x ≠ Expr.parentCall
  instr := Tame e s p
  names := e.CanName

section Laws

variable {e : Engine} {s : Store} {p : Program}

namespace Outcome

variable {α β : Type} {S : α → α → Prop} {c d : Context}

/-- Two runs that end alike both fail or both give results. -/
theorem split {r₁ r₂ : Except Error α × Context} (h : Outcome e s p S c d r₁ r₂) :
    (∃ f f' c' d', r₁ = (.error f, c') ∧ r₂ = (.error f', d')) ∨
      ∃ x y c' d', r₁ = (.ok x, c') ∧ r₂ = (.ok y, d') ∧ S x y ∧ Alike e s p c' d' ∧
        c.Steady c' ∧ d.Steady d' := by
  rcases r₁ with ⟨f | x, c'⟩ <;> rcases r₂ with ⟨f' | y, d'⟩
  · exact .inl ⟨f, f', c', d', rfl, rfl⟩
  · exact h.elim
  · exact h.elim
  · exact .inr ⟨x, y, c', d', rfl, rfl, h⟩

/-- Two runs that began where two others ended. -/
theorem trans {c' d' : Context} (hc : c.Steady c') (hd : d.Steady d')
    {r₁ r₂ : Except Error α × Context} (h : Outcome e s p S c' d' r₁ r₂) :
    Outcome e s p S c d r₁ r₂ := by
  obtain ⟨f, f', c'', d'', rfl, rfl⟩ | ⟨x, y, c'', d'', rfl, rfl, hxy, halike, hc', hd'⟩ := h.split
  · trivial
  · exact ⟨hxy, halike, hc.trans hc', hd.trans hd'⟩

/-- Two runs in contexts of their own, after which something is put back. -/
theorem bracket {c₀ d₀ : Context} {r₁ r₂ : Except Error α × Context}
    (h : Outcome e s p S c₀ d₀ r₁ r₂) (exit exit' : Context → Context)
    (hexit : ∀ c' d', Alike e s p c' d' → c₀.Steady c' → d₀.Steady d' →
      Alike e s p (exit c') (exit' d') ∧ c.Steady (exit c') ∧ d.Steady (exit' d')) :
    Outcome e s p S c d (r₁.1, exit r₁.2) (r₂.1, exit' r₂.2) := by
  obtain ⟨f, f', c', d', rfl, rfl⟩ | ⟨x, y, c', d', rfl, rfl, hxy, halike, hc, hd⟩ := h.split
  · trivial
  · exact ⟨hxy, hexit c' d' halike hc hd⟩

end Outcome

namespace Alike

variable {c d : Context}

/-- Contexts with new data in the same frame. -/
theorem withData (h : Alike e s p c d) {c' d' : Context} (hdata : SameData e s c' d')
    (hc : c' = { c with store := c'.store, scope := c'.scope, output := c'.output })
    (hd : d' = { d with store := d'.store, scope := d'.scope, output := d'.output }) :
    Alike e s p c' d' ∧ c.Steady c' ∧ d.Steady d' := by
  rw [hc, hd]
  exact ⟨⟨{ hdata with }, { h.frame with }⟩, ⟨rfl, List.prefix_rfl⟩, ⟨rfl, List.prefix_rfl⟩⟩

/-- The owners are those of the contexts around a run, whose chains may have grown since. -/
theorem withOwners (h : Alike e s p c d) {c' d' : Context} (h' : Alike e s p c' d')
    (hc : c.chain <+: c'.chain) (hd : d.chain <+: d'.chain) :
    Alike e s p { c' with owners := c.owners } { d' with owners := d.owners } := by
  have howner := Owned.mono_rel h.frame.owner (hc.map Template.program) (hd.map Template.program)
  exact ⟨{ h'.data with }, { h'.frame with owner := howner }⟩

end Alike

namespace Alikeness

variable {limit₁ limit₂ : Nat} {α β : Type} {S : α → α → Prop}

theorem result {x y : α} (h : S x y) : (alikeness e s p).rel S (pure x) (pure y) :=
  fun c d halike => ⟨h, halike, .refl c, .refl d⟩

theorem bind {T : β → β → Prop} {a b : Action α} {f g : α → Action β}
    (h : (alikeness e s p).rel S a b)
    (hf : ∀ x y, S x y → (alikeness e s p).rel T (f x) (g y)) :
    (alikeness e s p).rel T (a >>= f) (b >>= g) := by
  intro c d halike
  rw [Action.bind_apply, Action.bind_apply]
  obtain ⟨f, f', c', d', hac, hbd⟩ | ⟨x, y, c', d', hac, hbd, hxy, halike', hc, hd⟩ :=
    (h c d halike).split
  · rw [hac, hbd]
    trivial
  · rw [hac, hbd]
    exact (hf x y hxy c' d' halike').trans hc hd

theorem write (text : String) :
    (alikeness e s p).rel Eq (Action.write text) (Action.write text) := by
  intro c d h
  have hdata : SameData e s { c with output := c.output ++ text }
      { d with output := d.output ++ text } :=
    { h.data with output := congrArg (· ++ text) h.data.output }
  exact ⟨rfl, h.withData hdata rfl rfl⟩

theorem push (name : String) (v : Value) :
    (alikeness e s p).rel Eq (Action.push name v) (Action.push name v) := by
  intro c d h
  have hdata : SameData e s { c with scope := c.scope.push name v }
      { d with scope := d.scope.push name v } :=
    { h.data with scope := congrArg (Scope.push name v) h.data.scope }
  exact ⟨rfl, h.withData hdata rfl rfl⟩

theorem set (name : String) (v : Value) :
    (alikeness e s p).rel Eq (Action.set name v) (Action.set name v) := by
  intro c d h
  have hdata : SameData e s { c with scope := c.scope.set name v }
      { d with scope := d.scope.set name v } :=
    { h.data with scope := congrArg (Scope.set name v) h.data.scope }
  exact ⟨rfl, h.withData hdata rfl rfl⟩

/-! ### Brackets -/

theorem deeper {a b : Action α} {c d : Context}
    (hinner : Outcome e s p S { c with depth := c.depth + 1 } { d with depth := d.depth + 1 }
      (a { c with depth := c.depth + 1 }) (b { d with depth := d.depth + 1 })) :
    Outcome e s p S c d (Action.deeper a c) (Action.deeper b d) :=
  hinner.bracket (fun i => { i with depth := i.depth - 1 })
    (fun i => { i with depth := i.depth - 1 }) fun _ _ h' hc hd =>
    ⟨⟨{ h'.data with }, { h'.frame with }⟩, ⟨hc.owners, hc.chain⟩, ⟨hd.owners, hd.chain⟩⟩

theorem withBlock {t u : Template} {name : String} {a b : Action α} {c d : Context}
    (hinner : Outcome e s p S { c with blocks := (t, name) :: c.blocks }
      { d with blocks := (u, name) :: d.blocks } (a { c with blocks := (t, name) :: c.blocks })
      (b { d with blocks := (u, name) :: d.blocks })) :
    Outcome e s p S c d (Action.withBlock t name a c) (Action.withBlock u name b d) :=
  hinner.bracket (fun i => { i with blocks := i.blocks.tail })
    (fun i => { i with blocks := i.blocks.tail }) fun _ _ h' hc hd =>
    ⟨⟨{ h'.data with }, { h'.frame with }⟩, ⟨hc.owners, hc.chain⟩, ⟨hd.owners, hd.chain⟩⟩

theorem withLocals {a b : Action α} (hab : (alikeness e s p).rel S a b) :
    (alikeness e s p).rel S (Action.withLocals a) (Action.withLocals b) := by
  intro c d h
  refine (hab c d h).bracket (fun i => { i with scope := i.scope.truncate c.scope.mark })
    (fun i => { i with scope := i.scope.truncate d.scope.mark }) fun c' d' h' hc hd => ?_
  -- the scopes were equal before and are equal now, so they are cut back to equal ones
  have hscope : d'.scope.truncate d.scope.mark = c'.scope.truncate c.scope.mark := by
    rw [h'.data.scope, h.data.scope]
  exact ⟨⟨{ h'.data with scope := hscope }, { h'.frame with }⟩, ⟨hc.owners, hc.chain⟩,
    ⟨hd.owners, hd.chain⟩⟩

theorem withScope (scope : Scope) {a b : Action α} (hab : (alikeness e s p).rel S a b) :
    (alikeness e s p).rel S (Action.withScope scope a) (Action.withScope scope b) := by
  intro c d h
  have hinner := hab { c with scope } { d with scope }
    ⟨{ h.data with scope := rfl }, { h.frame with }⟩
  exact hinner.bracket (fun i => { i with scope := c.scope })
    (fun i => { i with scope := d.scope }) fun c' d' h' hc hd =>
    ⟨⟨{ h'.data with scope := h.data.scope }, { h'.frame with }⟩, ⟨hc.owners, hc.chain⟩,
      ⟨hd.owners, hd.chain⟩⟩

theorem withFreshImports {a b : Action α} (hab : (alikeness e s p).rel S a b) :
    (alikeness e s p).rel S (Action.withFreshImports a) (Action.withFreshImports b) := by
  intro c d h
  have hinner := hab { c with imports := [], importedMacros := [] }
    { d with imports := [], importedMacros := [] }
    ⟨{ h.data with }, { h.frame with imports := ⟨rfl, rfl⟩, imports' := ⟨rfl, rfl⟩ }⟩
  refine hinner.bracket
    (fun i => { i with imports := c.imports, importedMacros := c.importedMacros })
    (fun i => { i with imports := d.imports, importedMacros := d.importedMacros })
    fun c' d' h' hc hd => ⟨⟨{ h'.data with }, ?_⟩, ⟨hc.owners, hc.chain⟩, ⟨hd.owners, hd.chain⟩⟩
  exact { h'.frame with imports := h.frame.imports, imports' := h.frame.imports' }

theorem capture {a b : Action Unit} (hab : (alikeness e s p).rel Eq a b) :
    (alikeness e s p).rel Eq (Action.capture a) (Action.capture b) := by
  intro c d h
  have hinner := hab { c with output := "" } { d with output := "" }
    ⟨{ h.data with output := rfl }, { h.frame with }⟩
  simp only [Action.capture]
  obtain ⟨f, f', c', d', hac, hbd⟩ | ⟨x, y, c', d', hac, hbd, -, h', hc, hd⟩ := hinner.split
  · rw [hac, hbd]
    trivial
  · rw [hac, hbd]
    exact ⟨h'.data.output.symm,
      ⟨{ h'.data with output := h.data.output }, { h'.frame with }⟩, ⟨hc.owners, hc.chain⟩,
      ⟨hd.owners, hd.chain⟩⟩

/-- A template that shows nothing of itself may own the instructions. -/
theorem withOwner {t u : Template} {a b : Action α} (hab : (alikeness e s p).rel S a b)
    {c d : Context} (h : Alike e s p c d) (ht : Owned c.programs t) (hu : Owned d.programs u) :
    Outcome e s p S c d (Action.withOwner t a c) (Action.withOwner u b d) := by
  have hinner := hab { c with owners := t :: c.owners } { d with owners := u :: d.owners }
    ⟨{ h.data with }, { h.frame with owner := .some ⟨ht, hu⟩ }⟩
  refine hinner.bracket (fun i => { i with owners := i.owners.tail })
    (fun i => { i with owners := i.owners.tail }) fun c' d' h' hc hd => ?_
  -- behind the new owner there are those from before, whose chains may have grown
  have howners : c'.owners.tail = c.owners := congrArg List.tail hc.owners
  have howners' : d'.owners.tail = d.owners := congrArg List.tail hd.owners
  rw [howners, howners']
  exact ⟨h.withOwners h' hc.chain hd.chain, ⟨rfl, hc.chain⟩, ⟨rfl, hd.chain⟩⟩

end Alikeness

end Laws

end Stencil
