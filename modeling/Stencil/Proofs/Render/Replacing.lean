import Stencil.Proofs.Render.Likeness

/-!
# Replacing programs by programs that agree

A level of nesting is **even** if it does the same in contexts that agree, and does not tell apart
lists of instructions that agree. Levels over even ones are even (`Level.Even.over`), so all levels
of an engine are, and a template may be replaced by one that agrees with it wherever it is rendered,
included, inherited from or asked for its macros.

Only fetching is left open, since it depends on the stores (`Engine.FetchesAlike`).
-/

open Stencil.Action (Concur)

namespace Stencil

open Instr (ListsAgree)

/-- Whether fetching gives templates that agree and leaves stores as they should be. -/
def Engine.FetchesAlike (e : Engine) (stores : Store → Store → Prop) : Prop :=
  ∀ s s', stores s s' → ∀ path,
    Error.AlikeOr Template.Agrees (e.fetch path s).1 (e.fetch path s').1 ∧
      stores (e.fetch path s).2 (e.fetch path s').2

/-- Whether a level does the same in contexts that agree and for lists that agree. -/
structure Level.Even (stores : Store → Store → Prop) (l : Level) : Prop where
  eval (x : Expr) : Concur stores Eq (l.eval x) (l.eval x)
  run (is : List Instr) : Concur stores Eq (l.run is) (l.run is)
  congr {is js : List Instr} (h : ListsAgree is js) : l.run js = l.run is

/-- Whether the level below is even, if there is one. -/
def Below.Even (stores : Store → Store → Prop) (b : Below) : Prop :=
  ∀ l ∈ b, Level.Even stores l.get

variable {stores : Store → Store → Prop} {t u : Template}

/-! ### What runs on an even level -/

namespace Level.Even

variable {l : Level} (hl : l.Even stores)

include hl

theorem runs {is js : List Instr} (h : ListsAgree is js) :
    Concur stores Eq (l.run is) (l.run js) := by
  rw [hl.congr h]
  exact hl.run is

theorem render (htu : t.Agrees u) : Concur stores Eq (l.render t) (l.render u) :=
  .withTemplate htu (.withOwner htu (hl.runs htu.program.main))

theorem bindParams (params : Params) (args : List Value) :
    Concur stores Eq (l.bindParams params args) (l.bindParams params args) := by
  induction params generalizing args with
  | nil => exact .result rfl
  | cons param params ih =>
    have hvalue : Concur stores Eq (l.paramValue args.head? param.2)
        (l.paramValue args.head? param.2) := by
      rcases args.head? with _ | arg
      · rcases param.2 with _ | default
        · exact .result rfl
        · exact hl.eval default
      · exact .result rfl
    exact hvalue.andThen fun v => (Concur.push param.1 v).andThen fun _ => ih args.tail

end Level.Even

/-! ### Calls -/

/-- A name that means no macro means the same function on both sides. -/
theorem Action.Concur.functionCall (e : Engine) (name : String) (args : List Value) :
    Concur stores Eq
      (match Table.find? name e.language.functions with
      | some f => Action.lift (f args)
      | none => Action.fault (.unknownFunction name))
      (match Table.find? name e.language.functions with
      | some f => Action.lift (f args)
      | none => Action.fault (.unknownFunction name)) := by
  cases Table.find? name e.language.functions with
  | none => exact .fault _
  | some f => exact .lift (f args)

section Calls

variable {e : Engine} {b : Below} (hb : b.Even stores)

include hb

theorem Below.Even.descend {α : Type} {S : α → α → Prop} {body body' : Level → Action α}
    (h : ∀ l, l.Even stores → Concur stores S (body l) (body' l)) :
    Concur stores S (b.descend e body) (b.descend e body') := by
  rcases b with _ | l
  · exact .fault _
  · exact .deeper (h l.get (hb l rfl))

theorem Below.Even.callBlock (htu : t.Agrees u) (name : String) :
    Concur stores Eq (b.callBlock e t name) (b.callBlock e u name) := by
  have hblock := htu.block? name
  rw [Below.callBlock, Below.callBlock, htu.name]
  generalize t.block? name = o, u.block? name = o' at hblock
  cases hblock with
  | none => exact .fault _
  | some hbody =>
    exact hb.descend fun l hl => .withBlock htu (.withOwner htu (hl.runs hbody)) name

theorem Below.Even.callMacro (htu : t.Agrees u) (name : String) (args : List Value) :
    Concur stores Eq (b.callMacro e t name args) (b.callMacro e u name args) := by
  have hmacro := htu.findMacro? name
  rw [Below.callMacro, Below.callMacro, htu.name]
  generalize t.findMacro? name = o, u.findMacro? name = o' at hmacro
  cases hmacro with
  | none => exact .fault _
  | some hm =>
    refine hb.descend fun l hl => ?_
    rw [hm.params]
    refine .withScope {} ((hl.bindParams _ args).andThen fun _ => ?_)
    have hbody := Concur.capture (.withOwner htu (hl.runs hm.body))
    exact hbody.andThen fun s => .result rfl

theorem Below.Even.callParent (htu : t.Agrees u) :
    Concur stores Eq (b.callParent e t) (b.callParent e u) :=
  (Concur.pushParent htu).andThen fun _ =>
    hb.descend fun _ hl => .withOwner htu (hl.runs htu.program.main)

theorem Below.Even.renderBlock (name : String) :
    Concur stores Eq (b.renderBlock e name) (b.renderBlock e name) := by
  refine .get_bind fun c d hcd => ?_
  have hprovider := hcd.blockProvider? name
  generalize c.blockProvider? name = o, d.blockProvider? name = o' at hprovider
  cases hprovider with
  | none => exact Concur.fault _ c d hcd
  | some htu => exact hb.callBlock htu name c d hcd

theorem Below.Even.parentBlock : Concur stores Eq (b.parentBlock e) (b.parentBlock e) := by
  refine .get_bind fun c d hcd => ?_
  have hblock := forall₂_head? hcd.blocks
  generalize c.blocks.head? = o, d.blocks.head? = o' at hblock
  cases hblock with
  | none => exact Concur.fault _ c d hcd
  | @some m m' hm =>
    obtain ⟨t, name⟩ := m
    obtain ⟨u, name'⟩ := m'
    obtain ⟨htu, rfl⟩ := hm
    -- the same template is searched from, as its identity says
    have hprovider := forall₂_find? (p := fun t => t.hasBlock name')
      (q := fun u => u.hasBlock name') (fun _ _ h => Template.Agrees.hasBlock h name')
      (Context.forall₂_parentsOf_of_id htu.id hcd.chain)
    simp only [Context.parentProvider?]
    generalize (Context.parentsOf t c.chain).find? _ = o,
      (Context.parentsOf u d.chain).find? _ = o' at hprovider
    cases hprovider with
    | none => exact Concur.fault _ c d hcd
    | some h =>
      exact (Concur.capture (hb.callBlock h name')).andThen (fun s => .result rfl) c d hcd

theorem Below.Even.embed (htu : t.Agrees u) (vars : Table Value) (only : Bool) :
    Concur stores Eq (b.embed e t vars only) (b.embed e u vars only) := by
  refine hb.descend fun l hl => .withFreshImports ?_
  cases only with
  | true => exact .withScope _ (hl.render htu)
  | false =>
    exact .withLocals ((Concur.pushes vars).andThen fun _ => hl.render htu)

theorem Below.Even.callNamed (name : String) (args : List Value) :
    Concur stores Eq (Expr.callNamed e b name args) (Expr.callNamed e b name args) := by
  refine .get_bind fun c d hcd => ?_
  have himported := hcd.importedMacros.find? name
  have howner := hcd.owner?
  generalize Table.find? name c.importedMacros = o, Table.find? name d.importedMacros = o'
    at himported
  cases himported with
  | @some m m' hm =>
    obtain ⟨htu, hown⟩ := hm
    dsimp only
    rw [hown]
    exact hb.callMacro htu _ args c d hcd
  | none =>
    generalize c.owner? = o, d.owner? = o' at howner
    cases howner with
    | none => exact Concur.functionCall e name args c d hcd
    | @some t u htu =>
      dsimp only
      rw [Option.filter_some, Option.filter_some, htu.isSome_findMacro?]
      split
      · exact hb.callMacro htu name args c d hcd
      · exact Concur.functionCall e name args c d hcd

end Calls

/-! ### Fetching -/

section Fetching

variable {e : Engine} (he : e.FetchesAlike stores)

include he

theorem Engine.FetchesAlike.fetch (path : String) :
    Concur stores Template.Agrees (Action.fetch e path) (Action.fetch e path) := by
  intro c d hcd
  obtain ⟨hresults, hstores⟩ := he c.store d.store hcd.store path
  exact ⟨hresults, { hcd with store := hstores }⟩

/-- A template that is missing is missing on both sides. -/
theorem Engine.FetchesAlike.fetchIncluded (path : String) (ignoreMissing : Bool) :
    Concur stores (Option.Rel Template.Agrees) (Instr.fetchIncluded e path ignoreMissing)
      (Instr.fetchIncluded e path ignoreMissing) := by
  intro c d hcd
  obtain ⟨hresults, hstores⟩ := he c.store d.store hcd.store path
  rw [Instr.fetchIncluded_eq_onStore]
  simp only [Action.onStore, Instr.snd_fetchedIncluded]
  refine ⟨?_, { hcd with store := hstores }⟩
  generalize e.fetch path c.store = r, e.fetch path d.store = r' at hresults
  obtain ⟨r, s⟩ := r
  obtain ⟨r', s'⟩ := r'
  cases hresults with
  | give htu => exact .give (.some htu)
  | fail hfault =>
    cases hfault with
    | scan fault line column line' column' => exact .fail (.scan fault line column line' column')
    | load name fault listing listing' => exact .fail (.load name fault listing listing')
    | refl =>
      -- which faults are forgiven does not depend on the store
      rename_i fault
      have hsame : (Instr.fetchedIncluded ignoreMissing (.error fault, s')).1 =
          (Instr.fetchedIncluded ignoreMissing (.error fault, s)).1 := by
        cases fault <;> rfl
      rw [hsame]
      refine .refl (fun o => ?_) _
      cases o with
      | none => exact .none
      | some t => exact .some (.refl t)

end Fetching

/-! ### The walk and the levels -/

/-- The pairing of runs that do the same. -/
def agreeing (stores : Store → Store → Prop) : Pairing where
  rel := Concur stores
  owner := Template.Agrees
  fetched := Template.Agrees

section Levels

variable {e : Engine} {b : Below} (he : e.FetchesAlike stores) (hb : b.Even stores)

include hb in
theorem Below.Even.parentCall : Concur stores Eq (Expr.value? e b (.call (.var "parent") []))
    (Expr.value? e b (.call (.var "parent") [])) := by
  simp only [Expr.value?, Expr.values]
  refine .get_bind fun c d hcd => ?_
  have hempty : d.blocks.isEmpty = c.blocks.isEmpty := by
    have hblocks := hcd.blocks
    generalize c.blocks = cs, d.blocks = ds at hblocks
    cases hblocks <;> rfl
  simp only [Expr.isParentCall, hempty]
  split
  · exact hb.parentBlock.andThen (fun v => .result rfl) c d hcd
  · exact ((hb.callNamed "parent" []).andThen fun v => .result rfl) c d hcd

include hb in
theorem Below.Even.evaluates : (agreeing stores).Evaluates e e b b where
  language := rfl
  result := .result
  bind := .bind
  fail {_ _ fault} _ := .fail fault
  raised _ := trivial
  missing path := by
    rw [Expr.orMissing]
    split
    · exact .fault _
    · exact .result rfl
  lookup name := .read fun c d hcd => by rw [hcd.scope]
  parentCall _ := hb.parentCall
  callNamed := hb.callNamed
  qualifier target := .read fun c d hcd => by
    cases target with
    | var name =>
      change Option.Rel _ (if name = "_self" then _ else _) (if name = "_self" then _ else _)
      split
      · exact hcd.owner?
      · exact hcd.imports.find? name
    | _ => exact .none
  callMacro htu := hb.callMacro htu

theorem Concur.importEach (htu : t.Agrees u) (names : List (String × String)) :
    Concur stores Eq (Instr.importEach t names) (Instr.importEach u names) := by
  induction names with
  | nil => exact .result rfl
  | cons n names ih =>
    have hrest : Concur stores Eq (do Action.importMacro n.2 t n.1; Instr.importEach t names)
        (do Action.importMacro n.2 u n.1; Instr.importEach u names) :=
      (Concur.importMacro htu n.2 n.1).andThen fun _ => ih
    simp only [Instr.importEach, ← Option.not_isSome, htu.isSome_findMacro?, htu.name]
    split
    · exact Concur.andThen (.fault _) fun _ => hrest
    · exact hrest

include he hb in
theorem Below.Even.executes : (agreeing stores).Executes e e b b where
  toEvaluates := hb.evaluates
  write := .write
  capture := .capture
  push := .push
  set := .set
  withLocals := .withLocals
  renderBlock _ := hb.renderBlock _
  named h := h.mono fun _ _ hvw => ⟨hvw, trivial⟩
  fetch _ _ _ path _ := he.fetch path
  fetchIncluded _ _ _ path _ := he.fetchIncluded path
  callParent _ _ _ htu := hb.callParent htu
  embed htu := hb.embed htu
  owner? := .read fun _ _ hcd => hcd.owner?
  owner htu := htu
  importAs _ _ _ htu := .importAs htu _
  importEach _ _ _ htu := Concur.importEach htu _

include he hb in
/-- **Levels over even ones are even.** -/
theorem Level.Even.over : (Level.over e b).Even stores where
  eval x := hb.evaluates.eval fun _ _ => trivial
  run is := by
    refine (hb.executes he).discard ((hb.executes he).sequence is fun i _ => ?_)
    exact ⟨trivial, fun x _ _ _ => trivial⟩
  congr h := by simp only [Level.over, h.sequence_eq]

end Levels

/-- **All levels are even.** -/
theorem Engine.FetchesAlike.below {e : Engine} (he : e.FetchesAlike stores) (n : Nat) :
    (e.below n).Even stores := by
  induction n with
  | zero => exact fun l hl => by cases hl
  | succ n ih =>
    rintro l hl
    cases hl
    change (e.level n).Even stores
    rw [e.level_eq_over]
    exact .over he ih

theorem Engine.FetchesAlike.level {e : Engine} (he : e.FetchesAlike stores) (n : Nat) :
    (e.level n).Even stores := by
  rw [e.level_eq_over]
  exact .over he (he.below n)

end Stencil
