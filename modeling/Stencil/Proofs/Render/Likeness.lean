import Stencil.Proofs.Render.Agreement
import Stencil.Proofs.Render.Correspondence
import Stencil.Proofs.Render.Pairing

/-!
# Runs of templates that agree

Let a run meet templates that agree with those which another run meets at the same places, under the
same identities. Then the two runs do the same all the time, and fail at the same time if they do.
Nothing is asked of how they came by their templates but that fetching keeps the stores as they
should be (`Store.Matched`).

What runs is not the same list of instructions on the two sides. But a level does not tell lists
that agree apart (`Level.Even.congr`), so the walk over instructions only ever has to compare a list
with itself. All brackets put back what they set aside after a failure, too. Therefore the contexts
can be compared whatever the outcome, and `Context.Agrees` is kept by every action.
-/

namespace Stencil

open Instr (ListsAgree)

/-! ### Templates -/

/-- Whether two templates have the same identity and name, and programs that agree. -/
structure Template.Agrees (t u : Template) : Prop where
  id : u.id = t.id
  name : u.name = t.name
  program : t.program.Agrees u.program

theorem Template.Agrees.refl (t : Template) : t.Agrees t :=
  ⟨rfl, rfl, .refl t.program⟩

namespace Template.Agrees

variable {t u : Template} (h : t.Agrees u)

include h

theorem block? (name : String) : Option.Rel ListsAgree (t.block? name) (u.block? name) :=
  h.program.blocks.find? name

theorem hasBlock (name : String) : u.hasBlock name = t.hasBlock name := by
  have hblock := h.block? name
  rw [Template.hasBlock, Template.hasBlock]
  generalize t.block? name = o, u.block? name = o' at hblock
  cases hblock <;> rfl

theorem findMacro? (name : String) :
    Option.Rel MacroDef.Agrees (t.findMacro? name) (u.findMacro? name) :=
  h.program.macros.find? name

theorem isSome_findMacro? (name : String) :
    (u.findMacro? name).isSome = (t.findMacro? name).isSome := by
  have hmacro := h.findMacro? name
  generalize t.findMacro? name = o, u.findMacro? name = o' at hmacro
  cases hmacro <;> rfl

end Template.Agrees

/-- The same for templates that come with a name. -/
def Template.PairAgrees (m m' : Template × String) : Prop :=
  m.1.Agrees m'.1 ∧ m'.2 = m.2

/-! ### Contexts -/

/-- Whether two contexts are the same up to templates that agree. Which stores they may have is
told. -/
structure Context.Agrees (stores : Store → Store → Prop) (c d : Context) : Prop where
  store : stores c.store d.store
  scope : d.scope = c.scope
  output : d.output = c.output
  chain : List.Forall₂ Template.Agrees c.chain d.chain
  blocks : List.Forall₂ Template.PairAgrees c.blocks d.blocks
  owners : List.Forall₂ Template.Agrees c.owners d.owners
  imports : Table.Rel Template.Agrees c.imports d.imports
  importedMacros : Table.Rel Template.PairAgrees c.importedMacros d.importedMacros

namespace Context.Agrees

variable {stores : Store → Store → Prop} {c d : Context} (h : c.Agrees stores d)

include h

theorem owner? : Option.Rel Template.Agrees c.owner? d.owner? :=
  forall₂_head? h.owners

theorem blockProvider? (name : String) :
    Option.Rel Template.Agrees (c.blockProvider? name) (d.blockProvider? name) := by
  have hfind := forall₂_find? (p := fun t => t.hasBlock name) (q := fun u => u.hasBlock name)
    (fun _ _ htu => Template.Agrees.hasBlock htu name) h.chain
  have howner := h.owner?
  rw [Context.blockProvider?, Context.blockProvider?]
  generalize c.chain.find? _ = o, d.chain.find? _ = o' at hfind
  cases hfind with
  | some htu => exact .some htu
  | none =>
    -- no template of the chain has the block
    generalize c.owner? = o, d.owner? = o' at howner
    cases howner with
    | none => exact .none
    | some htu =>
      dsimp only
      rw [Option.filter_some, Option.filter_some, htu.hasBlock]
      split
      · exact .some htu
      · exact .none

end Context.Agrees

/-- What follows a template in a chain is told by the identities. -/
theorem Context.forall₂_parentsOf_of_id {t u : Template} (htu : u.id = t.id)
    {ts us : List Template} (h : List.Forall₂ Template.Agrees ts us) :
    List.Forall₂ Template.Agrees (parentsOf t ts) (parentsOf u us) := by
  induction h with
  | nil => exact .nil
  | cons h hrest ih =>
    rw [parentsOf, parentsOf, h.id, htu]
    split
    · exact hrest
    · exact ih

/-! ### Actions -/

/-- Whether two actions do the same in contexts that agree: they fail for the same cause or give
related results, and in either case they leave contexts that agree. -/
def Action.Concur (stores : Store → Store → Prop) {α : Type} (S : α → α → Prop) (a b : Action α) :
    Prop :=
  ∀ c d : Context, c.Agrees stores d →
    Error.AlikeOr S (a c).1 (b d).1 ∧ (a c).2.Agrees stores (b d).2

namespace Action.Concur

variable {stores : Store → Store → Prop} {α β : Type} {S : α → α → Prop} {T : β → β → Prop}

theorem result {x y : α} (h : S x y) : Concur stores S (pure x) (pure y) :=
  fun _ _ hcd => ⟨.give h, hcd⟩

theorem fail (fault : Error) : Concur stores S (throw fault) (throw fault) :=
  fun _ _ hcd => ⟨.fail (.refl fault), hcd⟩

theorem fault (f : RenderFault) : Concur stores S (Action.fault f : Action α) (Action.fault f) :=
  fail (.render f)

theorem bind {a b : Action α} {f g : α → Action β} (h : Concur stores S a b)
    (hf : ∀ x y, S x y → Concur stores T (f x) (g y)) :
    Concur stores T (a >>= f) (b >>= g) := by
  intro c d hcd
  obtain ⟨hresults, hcontexts⟩ := h c d hcd
  rw [Action.bind_apply, Action.bind_apply]
  generalize a c = r, b d = r' at hresults hcontexts ⊢
  obtain ⟨r, c'⟩ := r
  obtain ⟨r', d'⟩ := r'
  cases hresults with
  | fail hfault => exact ⟨.fail hfault, hcontexts⟩
  | give hxy => exact hf _ _ hxy c' d' hcontexts

/-- Two actions of which the first give the same. -/
theorem andThen {a b : Action α} {f g : α → Action β} (h : Concur stores Eq a b)
    (hf : ∀ x, Concur stores T (f x) (g x)) : Concur stores T (a >>= f) (b >>= g) := by
  refine h.bind ?_
  rintro x _ rfl
  exact hf x

theorem mono {S' : α → α → Prop} {a b : Action α} (h : Concur stores S a b)
    (hS : ∀ x y, S x y → S' x y) : Concur stores S' a b := by
  intro c d hcd
  obtain ⟨hresults, hcontexts⟩ := h c d hcd
  refine ⟨?_, hcontexts⟩
  generalize (a c).1 = r, (b d).1 = r' at hresults
  cases hresults with
  | fail hfault => exact .fail hfault
  | give hxy => exact .give (hS _ _ hxy)

/-- What changes two contexts alike. -/
theorem change {f g : Context → Context}
    (h : ∀ c d : Context, c.Agrees stores d → (f c).Agrees stores (g d)) :
    Concur stores Eq (modify f : Action Unit) (modify g) :=
  fun c d hcd => ⟨.give rfl, h c d hcd⟩

/-- What is read off two contexts. -/
theorem read {f g : Context → α} (h : ∀ c d : Context, c.Agrees stores d → S (f c) (g d)) :
    Concur stores S (do return f (← get)) (do return g (← get)) :=
  fun c d hcd => ⟨.give (h c d hcd), hcd⟩

/-- An action that first looks at the context. -/
theorem get_bind {f g : Context → Action α}
    (h : ∀ c d : Context, c.Agrees stores d →
      Error.AlikeOr S (f c c).1 (g d d).1 ∧ (f c c).2.Agrees stores (g d d).2) :
    Concur stores S (get >>= f) (get >>= g) := by
  intro c d hcd
  rw [Action.get_bind_apply, Action.get_bind_apply]
  exact h c d hcd

theorem write (s : String) : Concur stores Eq (Action.write s) (Action.write s) :=
  change fun _ _ hcd => { hcd with output := by rw [hcd.output] }

theorem push (name : String) (v : Value) :
    Concur stores Eq (Action.push name v) (Action.push name v) :=
  change fun _ _ hcd => { hcd with scope := by rw [hcd.scope] }

/-- The names handed to an included template. -/
theorem pushes (vars : Table Value) :
    Concur stores Eq (vars.forM fun v => Action.push v.1 v.2)
      (vars.forM fun v => Action.push v.1 v.2) := by
  induction vars with
  | nil => exact result rfl
  | cons v vars ih => exact (push v.1 v.2).andThen fun _ => ih

theorem lift (r : Except Error α) : Concur stores Eq (Action.lift r) (Action.lift r) :=
  fun _ _ hcd => ⟨.refl (fun _ => rfl) r, hcd⟩

theorem set (name : String) (v : Value) :
    Concur stores Eq (Action.set name v) (Action.set name v) :=
  change fun _ _ hcd => { hcd with scope := by rw [hcd.scope] }

section Templates

variable {t u : Template} (htu : t.Agrees u)

include htu

theorem pushParent : Concur stores Eq (Action.pushParent t) (Action.pushParent u) :=
  change fun _ _ hcd => { hcd with chain := List.rel_append hcd.chain (.cons htu .nil) }

theorem importAs (newName : String) :
    Concur stores Eq (Action.importAs newName t) (Action.importAs newName u) :=
  change fun _ _ hcd => { hcd with imports := hcd.imports.insert newName htu }

theorem importMacro (newName name : String) :
    Concur stores Eq (Action.importMacro newName t name) (Action.importMacro newName u name) :=
  change fun _ _ hcd =>
    { hcd with importedMacros := hcd.importedMacros.insert newName ⟨htu, rfl⟩ }

end Templates

/-! ### Brackets -/

variable {a b : Action α}

theorem capture {a b : Action Unit} (h : Concur stores Eq a b) :
    Concur stores Eq (Action.capture a) (Action.capture b) := by
  intro c d hcd
  obtain ⟨hresults, hcontexts⟩ := h _ _
    ({ hcd with output := rfl } : Context.Agrees stores { c with output := "" }
      { d with output := "" })
  rw [Action.capture, Action.capture]
  generalize a { c with output := "" } = r, b { d with output := "" } = r'
    at hresults hcontexts ⊢
  obtain ⟨r, c'⟩ := r
  obtain ⟨r', d'⟩ := r'
  -- the output before is put back after a failure, too
  refine ⟨?_, { hcontexts with output := hcd.output }⟩
  have houtput := hcontexts.output
  dsimp only at houtput
  cases hresults with
  | fail hfault => exact .fail hfault
  | give _ => exact .give houtput.symm

theorem withLocals (h : Concur stores S a b) :
    Concur stores S (Action.withLocals a) (Action.withLocals b) := by
  intro c d hcd
  obtain ⟨hresults, hcontexts⟩ := h c d hcd
  refine ⟨hresults, { hcontexts with scope := ?_ }⟩
  change (b d).2.scope.truncate d.scope.mark = (a c).2.scope.truncate c.scope.mark
  rw [hcd.scope, hcontexts.scope]

theorem withScope (scope : Scope) (h : Concur stores S a b) :
    Concur stores S (Action.withScope scope a) (Action.withScope scope b) := by
  intro c d hcd
  obtain ⟨hresults, hcontexts⟩ := h _ _
    ({ hcd with scope := rfl } : Context.Agrees stores { c with scope } { d with scope })
  exact ⟨hresults, { hcontexts with scope := hcd.scope }⟩

theorem withFreshImports (h : Concur stores S a b) :
    Concur stores S (Action.withFreshImports a) (Action.withFreshImports b) := by
  intro c d hcd
  obtain ⟨hresults, hcontexts⟩ := h _ _
    ({ hcd with imports := .nil, importedMacros := .nil } : Context.Agrees stores
      { c with imports := [], importedMacros := [] } { d with imports := [], importedMacros := [] })
  exact ⟨hresults,
    { hcontexts with imports := hcd.imports, importedMacros := hcd.importedMacros }⟩

theorem deeper (h : Concur stores S a b) :
    Concur stores S (Action.deeper a) (Action.deeper b) := by
  intro c d hcd
  obtain ⟨hresults, hcontexts⟩ := h _ _ ({ hcd with } : Context.Agrees stores
    { c with depth := c.depth + 1 } { d with depth := d.depth + 1 })
  exact ⟨hresults, { hcontexts with }⟩

section Templates

variable {t u : Template} (htu : t.Agrees u) (h : Concur stores S a b)

include htu h

theorem withOwner : Concur stores S (Action.withOwner t a) (Action.withOwner u b) := by
  intro c d hcd
  obtain ⟨hresults, hcontexts⟩ := h _ _
    ({ hcd with owners := .cons htu hcd.owners } : Context.Agrees stores
      { c with owners := t :: c.owners } { d with owners := u :: d.owners })
  exact ⟨hresults, { hcontexts with owners := forall₂_tail hcontexts.owners }⟩

theorem withBlock (name : String) :
    Concur stores S (Action.withBlock t name a) (Action.withBlock u name b) := by
  intro c d hcd
  obtain ⟨hresults, hcontexts⟩ := h _ _
    ({ hcd with blocks := .cons ⟨htu, rfl⟩ hcd.blocks } : Context.Agrees stores
      { c with blocks := (t, name) :: c.blocks } { d with blocks := (u, name) :: d.blocks })
  exact ⟨hresults, { hcontexts with blocks := forall₂_tail hcontexts.blocks }⟩

theorem withTemplate : Concur stores S (Action.withTemplate t a) (Action.withTemplate u b) := by
  intro c d hcd
  obtain ⟨hresults, hcontexts⟩ := h _ _
    ({ hcd with chain := .cons htu .nil } : Context.Agrees stores { c with chain := [t] }
      { d with chain := [u] })
  exact ⟨hresults, { hcontexts with chain := hcd.chain }⟩

end Templates

end Action.Concur

end Stencil
