import Mathlib.Data.List.Forall2
import Stencil.Proofs.Render.Running
import Stencil.Proofs.Table

/-!
# Corresponding contexts

Two engines that render the same texts may load them as different templates: what they look
like is the same, but their identities are not. A **world** says which template of the one
run stands for which of the other, and grows whenever both have loaded one more. Two contexts
**correspond** in a world if they are the same up to what stands for what.

A **correspondence** says what else is asked of the two stores, and of the programs that the
runs may come upon: which names a call may begin with and which names an import may bind.
Two corresponding contexts then need to agree on no other imports than those that are called,
and a run leaves all imports alone that it may not bind.

Some failures of the left run may be **refusals**, about which nothing is said. A refusal
excludes what a correspondence is not meant for, such as a run that meets its limit. It may
also keep the left run from going on where the place of a template in its chain is not
**clear**.
-/

namespace Stencil

/-! ### Coverage -/

/-- What the programs that two runs may come upon are confined to. -/
structure Coverage where
  /-- The names that a call may begin with. -/
  called : String → Prop := fun _ => True
  /-- The names that an import may bind. -/
  bound : String → Prop := fun _ => True

namespace Coverage

variable (V : Coverage)

/-- Whether the call, if the expression is one, begins with a name that it may begin with. -/
def expr : Expr → Prop
  | .call (.var name) _ | .call (.attr (.var name) _) _ => V.called name
  | _ => True

/-- Whether the import, if the instruction is one, binds what it may bind. -/
def instr : Instr → Prop
  | .importAs _ newName => V.bound newName
  | .importNames _ names => ∀ n ∈ names, V.bound n.2
  | _ => True

/-- Whether an instruction is covered, with the expressions that stand in it. -/
def covers (i : Instr) : Prop :=
  V.instr i ∧ ∀ x ∈ i.exprs, x.Every V.expr

end Coverage

/-- Whether a program keeps to a coverage wherever instructions and expressions stand in it. -/
structure Program.Within (V : Coverage) (p : Program) : Prop where
  main : ∀ i ∈ Instr.partsOf p.main, V.covers i
  block : ∀ b ∈ p.blocks, ∀ i ∈ Instr.partsOf b.2, V.covers i
  body : ∀ m ∈ p.macros, ∀ i ∈ Instr.partsOf m.2.body, V.covers i
  default : ∀ m ∈ p.macros, ∀ param ∈ m.2.params, ∀ x ∈ param.2, x.Every V.expr

/-- Every expression keeps to a coverage that allows all names. -/
theorem Expr.every_all (x : Expr) : x.Every ({} : Coverage).expr := by
  intro y _
  unfold Coverage.expr
  split <;> trivial

/-- So does every program. -/
theorem Program.within_all (p : Program) : p.Within {} := by
  have hinstr : ∀ i, ({} : Coverage).covers i := by
    intro i
    refine ⟨?_, fun x _ => x.every_all⟩
    cases i with
    | importNames template names => exact fun _ _ => trivial
    | _ => trivial
  exact ⟨fun i _ => hinstr i, fun _ _ i _ => hinstr i, fun _ _ i _ => hinstr i,
    fun _ _ _ _ x _ => x.every_all⟩

/-! ### Worlds -/

/-- Which templates stand for which. They may have different identities only. -/
structure World (V : Coverage) where
  stands : Template → Template → Prop
  name {t u : Template} (h : stands t u) : u.name = t.name
  program {t u : Template} (h : stands t u) : u.program = t.program
  within {t u : Template} (h : stands t u) : t.program.Within V

namespace World

variable {V : Coverage}

instance : Preorder (World V) :=
  Preorder.lift World.stands

theorem stands_mono {w w' : World V} (hw : w ≤ w') {t u : Template} (h : w.stands t u) :
    w'.stands t u :=
  hw t u h

/-- The world of nothing. -/
def empty : World V where
  stands _ _ := False
  name h := h.elim
  program h := h.elim
  within h := h.elim

/-- A world with one more pair of templates. -/
def extend (w : World V) (t u : Template) (hname : u.name = t.name)
    (hprogram : u.program = t.program) (hwithin : t.program.Within V) : World V where
  stands t' u' := w.stands t' u' ∨ (t' = t ∧ u' = u)
  name := by
    rintro _ _ (h | ⟨rfl, rfl⟩)
    · exact w.name h
    · exact hname
  program := by
    rintro _ _ (h | ⟨rfl, rfl⟩)
    · exact w.program h
    · exact hprogram
  within := by
    rintro _ _ (h | ⟨rfl, rfl⟩)
    · exact w.within h
    · exact hwithin

theorem le_extend (w : World V) (t u : Template) (hname : u.name = t.name)
    (hprogram : u.program = t.program) (hwithin : t.program.Within V) :
    w ≤ w.extend t u hname hprogram hwithin :=
  fun _ _ => .inl

/-- The same for templates that come with a name. -/
def pair (w : World V) (m m' : Template × String) : Prop :=
  w.stands m.1 m'.1 ∧ m'.2 = m.2

theorem pair_mono {w w' : World V} (hw : w ≤ w') {m m' : Template × String} (h : w.pair m m') :
    w'.pair m m' :=
  ⟨stands_mono hw h.1, h.2⟩

section Looks

variable {w : World V} {t u : Template} (h : w.stands t u)

include h

theorem block? (name : String) : u.block? name = t.block? name := by
  rw [Template.block?, w.program h, Template.block?]

theorem hasBlock (name : String) : u.hasBlock name = t.hasBlock name := by
  rw [Template.hasBlock, block? h, Template.hasBlock]

theorem findMacro? (name : String) : u.findMacro? name = t.findMacro? name := by
  rw [Template.findMacro?, w.program h, Template.findMacro?]

theorem main : u.main = t.main := by
  rw [Template.main, w.program h, Template.main]

end Looks

end World

/-! ### Correspondences -/

/-- What is asked of two runs besides that their templates stand for each other. -/
structure Correspondence (V : Coverage) where
  /-- Which stores may be there on the two sides. -/
  stores : World V → Store → Store → Prop
  /-- Whether the place of a template in a chain is clear. -/
  clear : List Template → Template → Prop := fun _ _ => True
  /-- The failures of the left run about which nothing is said. -/
  refused : Error → Prop := fun _ => False

/-- Two results that are the same failure or related. -/
inductive Matches {α : Type} (S : α → α → Prop) : Except Error α → Except Error α → Prop
  | fail (fault : Error) : Matches S (.error fault) (.error fault)
  | give {x y : α} (h : S x y) : Matches S (.ok x) (.ok y)

/-- What a run leaves of a context: the blocks that are rendered, and all imports that it may
not bind. -/
structure Context.Intact (V : Coverage) (c c' : Context) : Prop where
  blocks : c'.blocks = c.blocks
  imports (name : String) (h : ¬ V.bound name) :
    Table.find? name c'.imports = Table.find? name c.imports
  importedMacros (name : String) (h : ¬ V.bound name) :
    Table.find? name c'.importedMacros = Table.find? name c.importedMacros

namespace Correspondence

variable {V : Coverage} (K : Correspondence V)

/-- Two contexts that are the same up to what stands for what. -/
structure Contexts (w : World V) (c d : Context) : Prop where
  stores : K.stores w c.store d.store
  scope : d.scope = c.scope
  output : d.output = c.output
  chain : List.Forall₂ w.stands c.chain d.chain
  blocks : List.Forall₂ w.pair c.blocks d.blocks
  owners : List.Forall₂ w.stands c.owners d.owners
  imports (name : String) (h : V.called name) :
    Option.Rel w.stands (Table.find? name c.imports) (Table.find? name d.imports)
  importedMacros (name : String) (h : V.called name) :
    Option.Rel w.pair (Table.find? name c.importedMacros) (Table.find? name d.importedMacros)

/-- Whether the places of all templates are clear whose blocks are rendered. -/
def Clear (c : Context) : Prop :=
  ∀ b ∈ c.blocks, K.clear c.chain b.1

/-- How two runs end, if the left one does not end in a refusal: with the same failure, or with
related results in corresponding contexts of a larger world. -/
inductive Ends {α : Type} (S : World V → α → α → Prop) (w : World V) (c d : Context) :
    Except Error α × Context → Except Error α × Context → Prop
  | refuse {fault : Error} {c' : Context} {r : Except Error α × Context}
    (h : K.refused fault) : Ends S w c d (.error fault, c') r
  | fail {fault : Error} {c' d' : Context} {w' : World V} (hw : w ≤ w')
    (hstores : K.stores w' c'.store d'.store) (hc : c.Intact V c') (hd : d.Intact V d') :
    Ends S w c d (.error fault, c') (.error fault, d')
  | give {x y : α} {c' d' : Context} {w' : World V} (hw : w ≤ w') (h : K.Contexts w' c' d')
    (hclear : K.Clear c') (hc : c.Intact V c') (hd : d.Intact V d') (hxy : S w' x y) :
    Ends S w c d (.ok x, c') (.ok y, d')

/-- **The pairing of corresponding runs.** -/
def pairing : GrowingPairing (World V) where
  rel w S a b := ∀ c d, K.Contexts w c d → K.Clear c → K.Ends S w c d (a c) (b d)
  owner := World.stands
  fetched := World.stands
  expr := V.expr
  instr := V.instr

end Correspondence

/-! ### What stays in a larger world -/

theorem Context.Intact.refl (V : Coverage) (c : Context) : c.Intact V c :=
  ⟨rfl, fun _ _ => rfl, fun _ _ => rfl⟩

theorem Context.Intact.trans {V : Coverage} {c c' c'' : Context} (h : c.Intact V c')
    (h' : c'.Intact V c'') : c.Intact V c'' where
  blocks := h'.blocks.trans h.blocks
  imports name hname := (h'.imports name hname).trans (h.imports name hname)
  importedMacros name hname := (h'.importedMacros name hname).trans (h.importedMacros name hname)

theorem optionRel_mono {α β : Type} {R R' : α → β → Prop} (hR : ∀ x y, R x y → R' x y)
    {o : Option α} {o' : Option β} (h : Option.Rel R o o') : Option.Rel R' o o' := by
  cases h with
  | none => exact .none
  | some h => exact .some (hR _ _ h)

/-- What is found first in two lists whose members correspond. -/
theorem forall₂_find? {α β : Type} {R : α → β → Prop} {p : α → Bool} {q : β → Bool}
    (hpq : ∀ x y, R x y → q y = p x) {xs : List α} {ys : List β} (h : List.Forall₂ R xs ys) :
    Option.Rel R (xs.find? p) (ys.find? q) := by
  induction h with
  | nil => exact .none
  | @cons x y xs ys hxy _ ih =>
    rw [List.find?_cons, List.find?_cons, hpq x y hxy]
    cases p x with
    | true => exact .some hxy
    | false => exact ih

theorem forall₂_head? {α β : Type} {R : α → β → Prop} {xs : List α} {ys : List β}
    (h : List.Forall₂ R xs ys) : Option.Rel R xs.head? ys.head? := by
  cases h with
  | nil => exact .none
  | cons h _ => exact .some h

theorem forall₂_tail {α β : Type} {R : α → β → Prop} {xs : List α} {ys : List β}
    (h : List.Forall₂ R xs ys) : List.Forall₂ R xs.tail ys.tail := by
  rw [← List.drop_one, ← List.drop_one]
  exact List.forall₂_drop 1 h

namespace Correspondence

variable {V : Coverage} {K : Correspondence V} {α β : Type} {S : World V → α → α → Prop}
  {w : World V} {c d : Context}

namespace Contexts

/-- With stores of a larger world corresponding contexts correspond there. -/
theorem withStores {w' : World V} (hw : w ≤ w') (h : K.Contexts w c d) {s s' : Store}
    (hstores : K.stores w' s s') : K.Contexts w' { c with store := s } { d with store := s' } where
  stores := hstores
  scope := h.scope
  output := h.output
  chain := h.chain.imp fun _ _ => World.stands_mono hw
  blocks := h.blocks.imp fun _ _ => World.pair_mono hw
  owners := h.owners.imp fun _ _ => World.stands_mono hw
  imports name hname := optionRel_mono (fun _ _ => World.stands_mono hw) (h.imports name hname)
  importedMacros name hname :=
    optionRel_mono (fun _ _ => World.pair_mono hw) (h.importedMacros name hname)

/-- The owners of the instructions stand for each other. -/
theorem owner? (h : K.Contexts w c d) : Option.Rel w.stands c.owner? d.owner? :=
  forall₂_head? h.owners

/-- So do the templates that provide a block. -/
theorem blockProvider? (h : K.Contexts w c d) (name : String) :
    Option.Rel w.stands (c.blockProvider? name) (d.blockProvider? name) := by
  have hfind := forall₂_find? (p := fun t => t.hasBlock name) (q := fun u => u.hasBlock name)
    (fun _ _ htu => World.hasBlock htu name) h.chain
  have howner := h.owner?
  rw [Context.blockProvider?, Context.blockProvider?]
  generalize c.chain.find? _ = o, d.chain.find? _ = o' at hfind
  cases hfind with
  | some htu => exact .some htu
  | none =>
    generalize c.owner? = o, d.owner? = o' at howner
    cases howner with
    | none => exact .none
    | some htu =>
      dsimp only
      rw [Option.filter_some, Option.filter_some, World.hasBlock htu]
      split
      · exact .some htu
      · exact .none

end Contexts

namespace Ends

/-- Two runs that began where two others ended. -/
theorem trans {c' d' : Context} {w' : World V} (hw : w ≤ w') (hc : c.Intact V c')
    (hd : d.Intact V d') {r₁ r₂ : Except Error α × Context} (h : K.Ends S w' c' d' r₁ r₂) :
    K.Ends S w c d r₁ r₂ := by
  cases h with
  | refuse h => exact .refuse h
  | fail hw' hstores hc' hd' => exact .fail (hw.trans hw') hstores (hc.trans hc') (hd.trans hd')
  | give hw' h hclear hc' hd' hxy =>
    exact .give (hw.trans hw') h hclear (hc.trans hc') (hd.trans hd') hxy

/-- Two runs in contexts of their own, after which something is put back. -/
theorem bracket {c₀ d₀ : Context} {r₁ r₂ : Except Error α × Context}
    (h : K.Ends S w c₀ d₀ r₁ r₂) (exit exit' : Context → Context)
    (hstore : ∀ i, (exit i).store = i.store) (hstore' : ∀ i, (exit' i).store = i.store)
    (hc : ∀ i, c₀.Intact V i → c.Intact V (exit i))
    (hd : ∀ i, d₀.Intact V i → d.Intact V (exit' i))
    (hexit : ∀ w' c' d', w ≤ w' → K.Contexts w' c' d' → K.Clear c' → c₀.Intact V c' →
      K.Contexts w' (exit c') (exit' d') ∧ K.Clear (exit c')) :
    K.Ends S w c d (r₁.1, exit r₁.2) (r₂.1, exit' r₂.2) := by
  cases h with
  | refuse h => exact .refuse h
  | fail hw hstores hc' hd' =>
    refine .fail hw ?_ (hc _ hc') (hd _ hd')
    rw [hstore, hstore']
    exact hstores
  | give hw h hclear hc' hd' hxy =>
    obtain ⟨hcontexts, hclear'⟩ := hexit _ _ _ hw h hclear hc'
    exact .give hw hcontexts hclear' (hc _ hc') (hd _ hd') hxy

end Ends

/-! ### Actions -/

theorem result {x y : α} (h : S w x y) : K.pairing.rel w S (pure x) (pure y) :=
  fun c d hcd hclear => .give le_rfl hcd hclear (.refl V c) (.refl V d) h

theorem fail (fault : Error) : K.pairing.rel w S (throw fault) (throw fault) :=
  fun c d hcd _ => .fail le_rfl hcd.stores (.refl V c) (.refl V d)

theorem bind {T : World V → β → β → Prop} {a b : Action α} {f g : α → Action β}
    (h : K.pairing.rel w S a b)
    (hf : ∀ w', w ≤ w' → ∀ x y, S w' x y → K.pairing.rel w' T (f x) (g y)) :
    K.pairing.rel w T (a >>= f) (b >>= g) := by
  intro c d hcd hclear
  have hab := h c d hcd hclear
  rw [Action.bind_apply, Action.bind_apply]
  generalize a c = r₁, b d = r₂ at hab
  cases hab with
  | refuse h => exact .refuse h
  | fail hw hstores hc hd => exact .fail hw hstores hc hd
  | give hw h' hclear' hc hd hxy => exact (hf _ hw _ _ hxy _ _ h' hclear').trans hw hc hd

/-- What changes two contexts alike. -/
theorem change (f g : Context → Context)
    (hcontexts : ∀ c d, K.Contexts w c d → K.Contexts w (f c) (g d))
    (hclear : ∀ c, K.Clear c → K.Clear (f c)) (hf : ∀ c : Context, c.Intact V (f c))
    (hg : ∀ d : Context, d.Intact V (g d)) :
    K.pairing.same w (modify f : Action Unit) (modify g) :=
  fun c d hcd hc => .give le_rfl (hcontexts c d hcd) (hclear c hc) (hf c) (hg d) rfl

theorem write (s : String) : K.pairing.same w (Action.write s) (Action.write s) :=
  change _ _ (fun _ _ h => { h with output := congrArg (· ++ s) h.output }) (fun _ h => h)
    (fun c => { Context.Intact.refl V c with }) fun d => { Context.Intact.refl V d with }

theorem push (name : String) (v : Value) :
    K.pairing.same w (Action.push name v) (Action.push name v) :=
  change _ _ (fun _ _ h => { h with scope := congrArg (Scope.push name v) h.scope })
    (fun _ h => h) (fun c => { Context.Intact.refl V c with })
    fun d => { Context.Intact.refl V d with }

theorem set (name : String) (v : Value) :
    K.pairing.same w (Action.set name v) (Action.set name v) :=
  change _ _ (fun _ _ h => { h with scope := congrArg (Scope.set name v) h.scope })
    (fun _ h => h) (fun c => { Context.Intact.refl V c with })
    fun d => { Context.Intact.refl V d with }

/-- Two tables that correspond under the names that are called, with one entry more. -/
theorem insert_rel {R : α → β → Prop} {t : Table α} {u : Table β}
    (h : ∀ name, V.called name → Option.Rel R (Table.find? name t) (Table.find? name u))
    (newName : String) {x : α} {y : β} (hxy : R x y) (name : String) (hname : V.called name) :
    Option.Rel R (Table.find? name (Table.insert newName x t))
      (Table.find? name (Table.insert newName y u)) := by
  rw [Table.find?_insert, Table.find?_insert]
  split
  · exact .some hxy
  · exact h name hname

/-- An import leaves what stands under the names that may not be bound. -/
theorem find?_insert_of_not_bound {newName name : String} (hbound : V.bound newName)
    (hname : ¬ V.bound name) (x : α) (t : Table α) :
    Table.find? name (Table.insert newName x t) = Table.find? name t := by
  refine Table.find?_insert_of_ne ?_ x t
  rintro rfl
  exact hname hbound

theorem importAs {newName : String} (hbound : V.bound newName) {t u : Template}
    (htu : w.stands t u) :
    K.pairing.same w (Action.importAs newName t) (Action.importAs newName u) :=
  change _ _ (fun _ _ h => { h with imports := insert_rel h.imports newName htu }) (fun _ h => h)
    (fun c => { Context.Intact.refl V c with
      imports := fun _ hname => find?_insert_of_not_bound hbound hname t c.imports })
    fun d => { Context.Intact.refl V d with
      imports := fun _ hname => find?_insert_of_not_bound hbound hname u d.imports }

theorem importMacro {newName : String} (hbound : V.bound newName) {t u : Template}
    (htu : w.stands t u) (name : String) :
    K.pairing.same w (Action.importMacro newName t name) (Action.importMacro newName u name) :=
  change _ _
    (fun _ _ h => { h with importedMacros := insert_rel h.importedMacros newName ⟨htu, rfl⟩ })
    (fun _ h => h)
    (fun c => { Context.Intact.refl V c with
      importedMacros := fun _ hname => find?_insert_of_not_bound hbound hname _ c.importedMacros })
    fun d => { Context.Intact.refl V d with
      importedMacros := fun _ hname => find?_insert_of_not_bound hbound hname _ d.importedMacros }

/-! ### Brackets -/

section Brackets

variable {a b : Action α}

theorem deeper (h : K.Ends S w { c with depth := c.depth + 1 } { d with depth := d.depth + 1 }
      (a { c with depth := c.depth + 1 }) (b { d with depth := d.depth + 1 })) :
    K.Ends S w c d (Action.deeper a c) (Action.deeper b d) :=
  h.bracket (fun i => { i with depth := i.depth - 1 }) (fun i => { i with depth := i.depth - 1 })
    (fun _ => rfl) (fun _ => rfl) (fun _ hi => { hi with }) (fun _ hi => { hi with })
    fun _ _ _ _ h' hclear _ => ⟨{ h' with }, hclear⟩

theorem withOwner {t u : Template}
    (h : K.Ends S w { c with owners := t :: c.owners } { d with owners := u :: d.owners }
      (a { c with owners := t :: c.owners }) (b { d with owners := u :: d.owners })) :
    K.Ends S w c d (Action.withOwner t a c) (Action.withOwner u b d) :=
  h.bracket (fun i => { i with owners := i.owners.tail })
    (fun i => { i with owners := i.owners.tail })
    (fun _ => rfl) (fun _ => rfl) (fun _ hi => { hi with }) (fun _ hi => { hi with })
    fun _ _ _ _ h' hclear _ => ⟨{ h' with owners := forall₂_tail h'.owners }, hclear⟩

theorem withBlock {t u : Template} {name : String}
    (h : K.Ends S w { c with blocks := (t, name) :: c.blocks }
      { d with blocks := (u, name) :: d.blocks } (a { c with blocks := (t, name) :: c.blocks })
      (b { d with blocks := (u, name) :: d.blocks })) :
    K.Ends S w c d (Action.withBlock t name a c) (Action.withBlock u name b d) :=
  h.bracket (fun i => { i with blocks := i.blocks.tail })
    (fun i => { i with blocks := i.blocks.tail }) (fun _ => rfl) (fun _ => rfl)
    (fun _ hi => { hi with blocks := congrArg List.tail hi.blocks })
    (fun _ hi => { hi with blocks := congrArg List.tail hi.blocks })
    fun _ _ _ _ h' hclear _ =>
      ⟨{ h' with blocks := forall₂_tail h'.blocks },
        fun m hm => hclear m (List.mem_of_mem_tail hm)⟩

/-- Inside, a template begins a chain of its own; outside, the chain and the blocks are those
that were there, so that all is as clear as it was. -/
theorem withTemplate (hcd : K.Contexts w c d) (hclear : K.Clear c) {t u : Template}
    (h : K.Ends S w { c with chain := [t] } { d with chain := [u] } (a { c with chain := [t] })
      (b { d with chain := [u] })) :
    K.Ends S w c d (Action.withTemplate t a c) (Action.withTemplate u b d) :=
  h.bracket (fun i => { i with chain := c.chain }) (fun i => { i with chain := d.chain })
    (fun _ => rfl) (fun _ => rfl) (fun _ hi => { hi with }) (fun _ hi => { hi with })
    fun _ c' _ hw h' _ hc => by
      have hblocks : c'.blocks = c.blocks := hc.blocks
      refine ⟨{ h' with chain := hcd.chain.imp fun _ _ => World.stands_mono hw }, fun m hm => ?_⟩
      exact hclear m (hblocks ▸ hm)

theorem withLocals (hab : K.pairing.rel w S a b) :
    K.pairing.rel w S (Action.withLocals a) (Action.withLocals b) := by
  intro c d hcd hclear
  refine (hab c d hcd hclear).bracket (fun i => { i with scope := i.scope.truncate c.scope.mark })
    (fun i => { i with scope := i.scope.truncate d.scope.mark }) (fun _ => rfl) (fun _ => rfl)
    (fun _ hi => { hi with }) (fun _ hi => { hi with }) fun _ c' d' _ h' hclear' _ => ?_
  -- the scopes were equal before and are equal now, so they are cut back to equal ones
  have hscope : d'.scope.truncate d.scope.mark = c'.scope.truncate c.scope.mark := by
    rw [h'.scope, hcd.scope]
  exact ⟨{ h' with scope := hscope }, hclear'⟩

theorem withScope (scope : Scope) (hab : K.pairing.rel w S a b) :
    K.pairing.rel w S (Action.withScope scope a) (Action.withScope scope b) := by
  intro c d hcd hclear
  have hinner := hab { c with scope } { d with scope } { hcd with scope := rfl } hclear
  exact hinner.bracket (fun i => { i with scope := c.scope }) (fun i => { i with scope := d.scope })
    (fun _ => rfl) (fun _ => rfl) (fun _ hi => { hi with }) (fun _ hi => { hi with })
    fun _ _ _ _ h' hclear' _ => ⟨{ h' with scope := hcd.scope }, hclear'⟩

theorem withFreshImports (hab : K.pairing.rel w S a b) :
    K.pairing.rel w S (Action.withFreshImports a) (Action.withFreshImports b) := by
  intro c d hcd hclear
  have hinner := hab { c with imports := [], importedMacros := [] }
    { d with imports := [], importedMacros := [] }
    { hcd with imports := fun _ _ => .none, importedMacros := fun _ _ => .none } hclear
  exact hinner.bracket
    (fun i => { i with imports := c.imports, importedMacros := c.importedMacros })
    (fun i => { i with imports := d.imports, importedMacros := d.importedMacros })
    (fun _ => rfl) (fun _ => rfl)
    (fun _ hi => { hi with imports := fun _ _ => rfl, importedMacros := fun _ _ => rfl })
    (fun _ hi => { hi with imports := fun _ _ => rfl, importedMacros := fun _ _ => rfl })
    fun w' _ _ hw h' hclear' _ => by
      refine ⟨{ h' with imports := fun name hname => ?_, importedMacros := fun name hname => ?_ },
        hclear'⟩
      · exact optionRel_mono (fun _ _ => World.stands_mono hw) (hcd.imports name hname)
      · exact optionRel_mono (fun _ _ => World.pair_mono hw) (hcd.importedMacros name hname)

end Brackets

/-- The texts that two runs write instead of an output. -/
theorem capture {a b : Action Unit} (hab : K.pairing.same w a b) :
    K.pairing.same w (Action.capture a) (Action.capture b) := by
  intro c d hcd hclear
  have hinner := hab { c with output := "" } { d with output := "" } { hcd with output := rfl }
    hclear
  rw [Action.capture, Action.capture]
  generalize a { c with output := "" } = r₁, b { d with output := "" } = r₂ at hinner
  cases hinner with
  | refuse h => exact .refuse h
  | fail hw hstores hc hd => exact .fail hw hstores { hc with } { hd with }
  | give hw h' hclear' hc hd _ =>
    exact .give hw { h' with output := hcd.output } hclear' { hc with } { hd with } h'.output.symm

end Correspondence

end Stencil
