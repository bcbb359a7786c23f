import Stencil.Proofs.Render.Correspondence

/-!
# Runs in lockstep

Two engines with the same language and the same strictness take corresponding contexts to
corresponding contexts, instruction by instruction and level after level, if two things are
seen to: fetching a path keeps the stores as they should be, and the parents of a template
stand for the parents of the one it stands for wherever its place is clear. These are the laws
of `Correspondence.Lawful`; all the rest follows from them by the walk over instructions.

The left engine may also be strict where the right one is not, if a name that stands for
nothing is a refusal.
-/

namespace Stencil

namespace Correspondence

variable {V : Coverage} (K : Correspondence V)

/-! ### Laws -/

/-- Two attempts to get a template that end in corresponding stores, with the same failure or
with templates that stand for each other. -/
def Fetches (w : World V) (r₁ r₂ : Except Error Template × Store) : Prop :=
  ∃ w', w ≤ w' ∧ K.stores w' r₁.2 r₂.2 ∧ Matches w'.stands r₁.1 r₂.1

/-- What a correspondence must see to. -/
structure Lawful (e₁ e₂ : Engine) : Prop where
  language : e₁.language = e₂.language
  strict : e₁.config.strict = e₂.config.strict ∨
    e₁.config.strict = true ∧ ∀ path, K.refused (.render (.undefinedVariable path))
  fetch {w : World V} {s s' : Store} (h : K.stores w s s') (path : String) :
    K.Fetches w (e₁.fetch path s) (e₂.fetch path s')
  parents {w : World V} {c d : Context} (h : K.Contexts w c d) {t u : Template}
    (htu : w.stands t u) (hclear : K.clear c.chain t) :
    List.Forall₂ w.stands (Context.parentsOf t c.chain) (Context.parentsOf u d.chain)

/-- Two levels that run in lockstep. When instructions begin to run, it is not known yet that
all places are clear. -/
structure Levels (l₁ l₂ : Level) : Prop where
  eval {x : Expr} (hx : x.Every V.expr) (w : World V) : K.pairing.same w (l₁.eval x) (l₂.eval x)
  run {instrs : List Instr} (hi : ∀ i ∈ Instr.partsOf instrs, V.covers i) {w : World V}
    {c d : Context} (h : K.Contexts w c d) :
    K.Ends (fun _ => Eq) w c d (l₁.run instrs c) (l₂.run instrs d)

/-- The same of what is below. The right side may go deeper, if meeting the limit of the left
one is a refusal. -/
inductive Belows (e₁ e₂ : Engine) : Below → Below → Prop
  | bottom (h : e₁.config.maxDepth = e₂.config.maxDepth) : Belows e₁ e₂ none none
  | refused (h : K.refused (.render (.tooDeep e₁.config.maxDepth))) (b : Below) :
    Belows e₁ e₂ none b
  | some {l₁ l₂ : Thunk Level} (h : K.Levels l₁.get l₂.get) : Belows e₁ e₂ (some l₁) (some l₂)

variable {K} {e₁ e₂ : Engine} {b₁ b₂ : Below} {α : Type} {S : World V → α → α → Prop}
  {w : World V} {c d : Context}

/-- Failing for the same reason. -/
theorem fault (f : RenderFault) :
    K.pairing.rel w S (Action.fault f : Action α) (Action.fault f) :=
  fail (.render f)

/-- Parents stand for parents if equal identities stand for equal ones. -/
theorem forall₂_parentsOf {R : Template → Template → Prop} {t u : Template}
    {ts us : List Template} (h : List.Forall₂ R ts us)
    (hid : ∀ t' u', R t' u' → (u'.id = u.id ↔ t'.id = t.id)) :
    List.Forall₂ R (Context.parentsOf t ts) (Context.parentsOf u us) := by
  induction h with
  | nil => exact .nil
  | @cons t' u' ts us htu hrest ih =>
    simp only [Context.parentsOf, hid t' u' htu]
    split
    · exact hrest
    · exact ih

/-! ### What runs on the level below -/

theorem descend (hb : K.Belows e₁ e₂ b₁ b₂) (hcd : K.Contexts w c d)
    {body body' : Level → Action α}
    (hbody : ∀ l l', K.Levels l l' →
      K.Ends S w { c with depth := c.depth + 1 } { d with depth := d.depth + 1 }
        (body l { c with depth := c.depth + 1 }) (body' l' { d with depth := d.depth + 1 })) :
    K.Ends S w c d (b₁.descend e₁ body c) (b₂.descend e₂ body' d) := by
  cases hb with
  | bottom h =>
    rw [Below.descend, Below.descend, h]
    exact .fail le_rfl hcd.stores (.refl V c) (.refl V d)
  | refused h => exact .refuse h
  | some hl => exact deeper (hbody _ _ hl)

theorem Levels.render {l l' : Level} (hl : K.Levels l l') {t u : Template}
    (htu : w.stands t u) : K.pairing.same w (l.render t) (l'.render u) := by
  intro c d hcd hclear
  refine withTemplate hcd hclear (withOwner ?_)
  rw [World.main htu]
  exact hl.run (w.within htu).main
    { hcd with chain := .cons htu .nil, owners := .cons htu hcd.owners }

theorem Levels.bindParams {l l' : Level} (hl : K.Levels l l') {params : Params}
    (hparams : ∀ param ∈ params, ∀ x ∈ param.2, x.Every V.expr) (args : List Value) :
    K.pairing.same w (l.bindParams params args) (l'.bindParams params args) := by
  induction params generalizing args w with
  | nil => exact result rfl
  | cons param params ih =>
    have hvalue : K.pairing.same w (l.paramValue args.head? param.2)
        (l'.paramValue args.head? param.2) := by
      cases args.head? with
      | some arg => exact result rfl
      | none =>
        cases hdefault : param.2 with
        | none => exact result rfl
        | some x => exact hl.eval (hparams param (List.mem_cons_self ..) x hdefault) w
    refine bind hvalue ?_
    rintro w' _ v _ rfl
    refine bind (push param.1 v) fun w'' _ _ _ _ => ?_
    exact ih (fun p hp => hparams p (List.mem_cons_of_mem _ hp)) args.tail

/-- What the body of a macro writes while its template owns the instructions. -/
theorem Levels.captureBody {l l' : Level} (hl : K.Levels l l') {t u : Template}
    (htu : w.stands t u) {m : MacroDef} (hm : ∀ i ∈ Instr.partsOf m.body, V.covers i) :
    K.pairing.same w (Action.capture (Action.withOwner t (l.run m.body)))
      (Action.capture (Action.withOwner u (l'.run m.body))) :=
  capture fun _ _ hcd _ => withOwner (hl.run hm { hcd with owners := .cons htu hcd.owners })

theorem pushes (vars : Table Value) :
    K.pairing.same w (vars.forM fun v => Action.push v.1 v.2)
      (vars.forM fun v => Action.push v.1 v.2) := by
  induction vars generalizing w with
  | nil => exact result rfl
  | cons v vars ih => exact bind (push v.1 v.2) fun _ _ _ _ _ => ih

section Calls

variable (hb : K.Belows e₁ e₂ b₁ b₂)

include hb

theorem callBlock {t u : Template} (htu : w.stands t u) (name : String) :
    K.pairing.same w (b₁.callBlock e₁ t name) (b₂.callBlock e₂ u name) := by
  rw [Below.callBlock, Below.callBlock, World.block? htu, w.name htu]
  cases hbody : t.block? name with
  | none => exact fault _
  | some body =>
    intro c d hcd _
    have hwithin := (w.within htu).block _ (Table.mem_of_find? hbody)
    refine descend hb hcd fun l l' hl => withBlock (withOwner (hl.run hwithin ?_))
    exact { hcd with
      blocks := .cons ⟨htu, rfl⟩ hcd.blocks, owners := .cons htu hcd.owners }

theorem callMacro {t u : Template} (htu : w.stands t u) (name : String) (args : List Value) :
    K.pairing.same w (b₁.callMacro e₁ t name args) (b₂.callMacro e₂ u name args) := by
  rw [Below.callMacro, Below.callMacro, World.findMacro? htu, w.name htu]
  cases hfind : t.findMacro? name with
  | none => exact fault _
  | some m =>
    intro c d hcd hclear
    have hmem := Table.mem_of_find? hfind
    have hdefaults := (w.within htu).default _ hmem
    have hbody := (w.within htu).body _ hmem
    refine descend hb hcd fun l l' hl => ?_
    refine withScope {} (bind (hl.bindParams hdefaults args) ?_) _ _ { hcd with } hclear
    rintro w' hw _ _ -
    refine bind (hl.captureBody (World.stands_mono hw htu) hbody) ?_
    rintro _ _ s _ rfl
    exact result rfl

/-- The parent joins both chains. Whether all places are clear then is for the level below to
tell. -/
theorem callParent {t u : Template} (htu : w.stands t u) :
    K.pairing.same w (b₁.callParent e₁ t) (b₂.callParent e₂ u) := by
  intro c d hcd _
  have hchain : List.Forall₂ w.stands (c.chain ++ [t]) (d.chain ++ [u]) :=
    List.rel_append hcd.chain (.cons htu .nil)
  have hpushed : K.Contexts w { c with chain := c.chain ++ [t] }
      { d with chain := d.chain ++ [u] } := { hcd with chain := hchain }
  have hc : c.Intact V { c with chain := c.chain ++ [t] } := { Context.Intact.refl V c with }
  have hd : d.Intact V { d with chain := d.chain ++ [u] } := { Context.Intact.refl V d with }
  refine Ends.trans le_rfl hc hd ?_
  change K.Ends _ w _ _ (b₁.descend e₁ (fun l => Action.withOwner t (l.run t.main)) _)
    (b₂.descend e₂ (fun l => Action.withOwner u (l.run u.main)) _)
  refine descend hb hpushed fun l l' hl => withOwner ?_
  rw [World.main htu]
  exact hl.run (w.within htu).main { hpushed with owners := .cons htu hcd.owners }

theorem renderBlock (name : String) :
    K.pairing.same w (b₁.renderBlock e₁ name) (b₂.renderBlock e₂ name) := by
  intro c d hcd hclear
  have hprovider := hcd.blockProvider? name
  rw [Below.renderBlock, Below.renderBlock, Action.get_bind_apply, Action.get_bind_apply]
  generalize c.blockProvider? name = o, d.blockProvider? name = o' at hprovider
  cases hprovider with
  | none => exact fault _ c d hcd hclear
  | some htu => exact callBlock hb htu name c d hcd hclear

theorem parentBlock (hK : K.Lawful e₁ e₂) :
    K.pairing.same w (b₁.parentBlock e₁) (b₂.parentBlock e₂) := by
  intro c d hcd hclear
  have hblocks := hcd.blocks
  rw [Below.parentBlock, Below.parentBlock, Action.get_bind_apply, Action.get_bind_apply]
  rcases hc : c.blocks with _ | ⟨⟨t, name⟩, cs⟩ <;>
    rcases hd : d.blocks with _ | ⟨⟨u, name'⟩, ds⟩ <;>
    rw [hc, hd] at hblocks
  · exact fault _ c d hcd hclear
  · cases hblocks
  · cases hblocks
  · obtain ⟨htu, hname⟩ := (List.forall₂_cons.mp hblocks).1
    dsimp only at htu hname
    subst hname
    -- the block stands where its template is found in the chain
    have hparents := hK.parents hcd htu (hclear (t, name') (hc ▸ List.mem_cons_self ..))
    have hprovider := forall₂_find? (p := fun t => t.hasBlock name')
      (q := fun u => u.hasBlock name') (fun _ _ h => World.hasBlock h name') hparents
    simp only [List.head?_cons, Context.parentProvider?]
    generalize (Context.parentsOf t c.chain).find? _ = o,
      (Context.parentsOf u d.chain).find? _ = o' at hprovider
    cases hprovider with
    | none => exact fault _ c d hcd hclear
    | some h =>
      refine bind (capture (callBlock hb h name')) ?_ c d hcd hclear
      rintro _ _ s _ rfl
      exact result rfl

theorem embed {t u : Template} (htu : w.stands t u) (vars : Table Value) (only : Bool) :
    K.pairing.same w (b₁.embed e₁ t vars only) (b₂.embed e₂ u vars only) := by
  intro c d hcd hclear
  refine descend hb hcd fun l l' hl => withFreshImports ?_ _ _ { hcd with } hclear
  cases only with
  | true => exact withScope _ (hl.render htu)
  | false =>
    refine withLocals (bind (pushes vars) fun w' hw _ _ _ => ?_)
    exact hl.render (World.stands_mono hw htu)

end Calls

/-! ### Names -/

/-- A name that means no macro means the same function on both sides. -/
theorem functionCall (hK : K.Lawful e₁ e₂) (name : String) (args : List Value) :
    K.pairing.same w
      (match Table.find? name e₁.language.functions with
      | some f => Action.lift (f args)
      | none => Action.fault (.unknownFunction name))
      (match Table.find? name e₂.language.functions with
      | some f => Action.lift (f args)
      | none => Action.fault (.unknownFunction name)) := by
  rw [hK.language]
  cases Table.find? name e₂.language.functions with
  | none => exact fault _
  | some f =>
    dsimp only
    cases f args with
    | error f => exact fail f
    | ok v => exact result rfl

theorem callNamed (hb : K.Belows e₁ e₂ b₁ b₂) (hK : K.Lawful e₁ e₂) {name : String}
    (hname : V.called name) (args : List Value) :
    K.pairing.same w (Expr.callNamed e₁ b₁ name args) (Expr.callNamed e₂ b₂ name args) := by
  intro c d hcd hclear
  have himported := hcd.importedMacros name hname
  have howner := hcd.owner?
  rw [Expr.callNamed, Expr.callNamed, Action.get_bind_apply, Action.get_bind_apply]
  generalize Table.find? name c.importedMacros = o, Table.find? name d.importedMacros = o'
    at himported
  cases himported with
  | some h =>
    obtain ⟨htu, hown⟩ := h
    dsimp only
    rw [hown]
    exact callMacro hb htu _ args c d hcd hclear
  | none =>
    generalize c.owner? = o, d.owner? = o' at howner
    cases howner with
    | none => exact functionCall hK name args c d hcd hclear
    | @some t u htu =>
      dsimp only
      rw [Option.filter_some, Option.filter_some, World.findMacro? htu]
      split
      · exact callMacro hb htu name args c d hcd hclear
      · exact functionCall hK name args c d hcd hclear

theorem owner? (w : World V) :
    K.pairing.rel w (fun w' => Option.Rel w'.stands) (do return (← get).owner?)
      (do return (← get).owner?) :=
  fun c d hcd hclear => .give le_rfl hcd hclear (.refl V c) (.refl V d) hcd.owner?

theorem qualifier {target : Expr} {name : String} {args : List Expr}
    (h : V.expr (.call (.attr target name) args)) :
    K.pairing.rel w (fun w' => Option.Rel w'.stands) (do return Expr.qualifier? (← get) target)
      (do return Expr.qualifier? (← get) target) := by
  intro c d hcd hclear
  refine .give le_rfl hcd hclear (.refl V c) (.refl V d) ?_
  cases target with
  | var q =>
    change Option.Rel _ (if q = "_self" then _ else _) (if q = "_self" then _ else _)
    split
    · exact hcd.owner?
    · exact hcd.imports q h
  | _ => exact .none

/-! ### Fetching -/

/-- What is fetched is used in the contexts that fetching leaves. -/
theorem fetch (hK : K.Lawful e₁ e₂) (path : String) :
    K.pairing.rel w World.stands (Action.fetch e₁ path) (Action.fetch e₂ path) := by
  intro c d hcd hclear
  obtain ⟨w', hw, hstores, hmatches⟩ := hK.fetch hcd.stores path
  rw [Action.fetch, Action.fetch, Action.onStore, Action.onStore]
  generalize e₁.fetch path c.store = r₁, e₂.fetch path d.store = r₂ at hstores hmatches ⊢
  obtain ⟨r₁, s₁⟩ := r₁
  obtain ⟨r₂, s₂⟩ := r₂
  cases hmatches with
  | fail fault =>
    exact .fail hw hstores { Context.Intact.refl V c with } { Context.Intact.refl V d with }
  | give htu =>
    exact .give hw (hcd.withStores hw hstores) hclear { Context.Intact.refl V c with }
      { Context.Intact.refl V d with } htu

/-- A template that is missing is missing on both sides, whatever the contexts are besides their
stores. -/
theorem fetchIncluded_stores (hK : K.Lawful e₁ e₂) {c d : Context}
    (h : K.stores w c.store d.store) (path : String) (ignoreMissing : Bool) :
    ∃ w', w ≤ w' ∧
      K.stores w' (Instr.fetchIncluded e₁ path ignoreMissing c).2.store
        (Instr.fetchIncluded e₂ path ignoreMissing d).2.store ∧
      Matches (Option.Rel w'.stands) (Instr.fetchIncluded e₁ path ignoreMissing c).1
        (Instr.fetchIncluded e₂ path ignoreMissing d).1 := by
  obtain ⟨w', hw, hstores, hmatches⟩ := hK.fetch h path
  refine ⟨w', hw, ?_⟩
  rw [Instr.fetchIncluded_eq_onStore, Instr.fetchIncluded_eq_onStore]
  simp only [Action.onStore, Instr.snd_fetchedIncluded]
  refine ⟨hstores, ?_⟩
  generalize e₁.fetch path c.store = r₁, e₂.fetch path d.store = r₂ at hmatches ⊢
  obtain ⟨r₁, s₁⟩ := r₁
  obtain ⟨r₂, s₂⟩ := r₂
  cases hmatches with
  | give htu => exact .give (.some htu)
  | fail fault =>
    cases fault with
    | notFound name =>
      cases ignoreMissing with
      | true => exact .give .none
      | false => exact .fail _
    | _ => exact .fail _

/-- The runs may go on after that. -/
theorem fetchIncluded (hK : K.Lawful e₁ e₂) (path : String) (ignoreMissing : Bool) :
    K.pairing.rel w (fun w' => Option.Rel w'.stands) (Instr.fetchIncluded e₁ path ignoreMissing)
      (Instr.fetchIncluded e₂ path ignoreMissing) := by
  intro c d hcd hclear
  obtain ⟨w', hw, hstores, hmatches⟩ := fetchIncluded_stores hK hcd.stores path ignoreMissing
  rw [Instr.fetchIncluded_eq_onStore, Instr.fetchIncluded_eq_onStore] at hstores hmatches ⊢
  simp only [Action.onStore] at hstores hmatches ⊢
  generalize Instr.fetchedIncluded ignoreMissing (e₁.fetch path c.store) = r₁,
    Instr.fetchedIncluded ignoreMissing (e₂.fetch path d.store) = r₂ at hstores hmatches ⊢
  obtain ⟨r₁, s₁⟩ := r₁
  obtain ⟨r₂, s₂⟩ := r₂
  have hc : c.Intact V { c with store := s₁ } := { Context.Intact.refl V c with }
  have hd : d.Intact V { d with store := s₂ } := { Context.Intact.refl V d with }
  cases hmatches with
  | fail fault => exact .fail hw hstores hc hd
  | give ho => exact .give hw (hcd.withStores hw hstores) hclear hc hd ho

/-! ### The walk and the levels -/

theorem missing (hK : K.Lawful e₁ e₂) (path : Expr) :
    K.pairing.same w (Expr.orMissing e₁ path none) (Expr.orMissing e₂ path none) := by
  rw [Expr.orMissing, Expr.orMissing]
  rcases hK.strict with hsame | ⟨hstrict, hrefused⟩
  · rw [hsame]
    split
    · exact fault _
    · exact result rfl
  · rw [if_pos hstrict]
    exact fun _ _ _ _ => .refuse (hrefused _)

theorem lookup (name : String) :
    K.pairing.same w (do return (← get).scope.lookup? name)
      (do return (← get).scope.lookup? name) :=
  fun c d hcd hclear => .give le_rfl hcd hclear (.refl V c) (.refl V d)
    (congrArg (Scope.lookup? name) hcd.scope.symm)

theorem importEach {t u : Template} (htu : w.stands t u) {names : List (String × String)}
    (hbound : ∀ n ∈ names, V.bound n.2) :
    K.pairing.same w (Instr.importEach t names) (Instr.importEach u names) := by
  induction names generalizing w with
  | nil => exact result rfl
  | cons n names ih =>
    have hrest : ∀ w', w ≤ w' → K.pairing.same w'
        (do Action.importMacro n.2 t n.1; Instr.importEach t names)
        (do Action.importMacro n.2 u n.1; Instr.importEach u names) := by
      intro w' hw
      have hn := hbound n (List.mem_cons_self ..)
      have hnames := fun m hm => hbound m (List.mem_cons_of_mem _ hm)
      refine bind (importMacro hn (World.stands_mono hw htu) n.1) fun w'' hw' _ _ _ => ?_
      exact ih (World.stands_mono (hw.trans hw') htu) hnames
    simp only [Instr.importEach, World.findMacro? htu, w.name htu]
    split
    · exact bind (S := fun _ => Eq) (fault _) fun w' hw _ _ _ => hrest w' hw
    · exact hrest w le_rfl

/-- The call that renders the parent of the current block, if there is a current block. -/
theorem parentCall (hb : K.Belows e₁ e₂ b₁ b₂) (hK : K.Lawful e₁ e₂) (h : V.called "parent") :
    K.pairing.same w (Expr.value? e₁ b₁ (.call (.var "parent") []))
      (Expr.value? e₂ b₂ (.call (.var "parent") [])) := by
  intro c d hcd hclear
  have hempty : d.blocks.isEmpty = c.blocks.isEmpty := by
    have hblocks := hcd.blocks
    generalize c.blocks = cs, d.blocks = ds at hblocks
    cases hblocks <;> rfl
  simp only [Expr.value?, Expr.values, Action.get_bind_apply, Expr.isParentCall, hempty]
  split
  · refine bind (parentBlock hb hK) ?_ c d hcd hclear
    rintro _ _ v _ rfl
    exact result rfl
  · refine bind (callNamed hb hK h []) ?_ c d hcd hclear
    rintro _ _ v _ rfl
    exact result rfl

theorem evaluates (hb : K.Belows e₁ e₂ b₁ b₂) (hK : K.Lawful e₁ e₂) :
    K.pairing.Evaluates e₁ e₂ b₁ b₂ where
  language := hK.language
  result := result
  bind := bind
  fail {_ _ _ f} _ := fail f
  raised _ := trivial
  missing _ := missing hK
  lookup _ := lookup
  parentCall _ := parentCall hb hK
  callNamed _ _ _ hname := callNamed hb hK hname
  qualifier _ _ _ _ := qualifier
  callMacro := callMacro hb
  owner_mono hw _ _ := World.stands_mono hw

theorem executes (hb : K.Belows e₁ e₂ b₁ b₂) (hK : K.Lawful e₁ e₂) :
    K.pairing.Executes e₁ e₂ b₁ b₂ where
  toEvaluates := evaluates hb hK
  write _ := write
  capture := capture
  push _ := push
  set _ := set
  withLocals := withLocals
  renderBlock _ {name} _ := renderBlock hb name
  named h := (evaluates hb hK).mono h fun _ _ _ heq => ⟨heq, trivial⟩
  fetch _ _ _ _ _ path _ := fetch hK path
  fetchIncluded _ _ _ _ _ path _ := fetchIncluded hK path
  callParent _ _ _ := callParent hb
  embed := embed hb
  owner? := owner?
  owner h := h
  fetched_mono hw _ _ := World.stands_mono hw
  importAs hi _ _ htu := importAs hi htu
  importEach hi _ _ htu := importEach htu hi

/-- **Levels over lockstep levels run in lockstep**, where no place is unclear. -/
theorem levelOver (hb : K.Belows e₁ e₂ b₁ b₂) (hK : K.Lawful e₁ e₂)
    (hclear : ∀ c, K.Clear c) : K.Levels (Level.over e₁ b₁) (Level.over e₂ b₂) where
  eval hx w := (evaluates hb hK).eval w hx
  run hi w c d hcd :=
    (executes hb hK).discard ((executes hb hK).sequence _ w hi) c d hcd (hclear c)

/-- **All levels run in lockstep** if what is below the lowest left one does, and no place is
unclear. -/
theorem belows (hK : K.Lawful e₁ e₂) (hclear : ∀ c, K.Clear c) {k : Nat}
    (hbottom : K.Belows e₁ e₂ none (e₂.below k)) (n : Nat) :
    K.Belows e₁ e₂ (e₁.below n) (e₂.below (n + k)) := by
  induction n with
  | zero =>
    rw [Nat.zero_add]
    exact hbottom
  | succ n ih =>
    rw [Nat.succ_add]
    refine .some ?_
    change K.Levels (e₁.level n) (e₂.level (n + k))
    rw [Engine.level_eq_over, Engine.level_eq_over]
    exact levelOver ih hK hclear

theorem levels (hK : K.Lawful e₁ e₂) (hclear : ∀ c, K.Clear c) {k : Nat}
    (hbottom : K.Belows e₁ e₂ none (e₂.below k)) (n : Nat) :
    K.Levels (e₁.level n) (e₂.level (n + k)) := by
  rw [Engine.level_eq_over, Engine.level_eq_over]
  exact levelOver (belows hK hclear hbottom n) hK hclear

end Correspondence

end Stencil
