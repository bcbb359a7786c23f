import Stencil.Proofs.Render.Setting

/-!
# Runs that keep their setting

What runs on one level keeps its setting if whatever it begins on the level below keeps a
setting of its own. `Setting.Entered` lists what that can be: the main part of a template, a
block that the context provides, or the body of a macro. The two runs of the pairing may have
different levels below them, as long as these do the same for everything on the list
(`Setting.Levels`).
-/

namespace Stencil

/-- What an engine must be like for its runs to keep their settings. -/
structure Engine.Follows (e : Engine) (R : Rules) : Prop where
  compiles : e.Compiles (Program.Obeys R)
  raised {fault : Error} (h : e.language.Raises fault) : R.closed → ¬ fault.IsBlockFault
  function {name : String} {f : Function} {args : List Value} {fault : Error}
    (hf : Table.find? name e.language.functions = some f) (h : f args = .error fault) :
    R.closed → ¬ fault.IsBlockFault

/-- Where there are no rules, every engine follows them. -/
theorem Engine.follows_none (e : Engine) : e.Follows .none where
  compiles _ _ program _ := program.obeys_none
  raised _ hclosed := hclosed.elim
  function _ _ hclosed := hclosed.elim

/-- Whether a context has a block from a template, for a call of the block or as the parent of
the current one. -/
def Context.Provides (c : Context) (name : String) (t : Template) : Prop :=
  c.blockProvider? name = some t ∨
    ∃ u, c.blocks.head? = some (u, name) ∧ c.parentProvider? u name = some t

namespace Setting

/-- The instructions that a run in a setting can begin on the level below, each with the setting
that they run in. -/
inductive Entered (R : Rules) (σ : Setting) : Setting → List Instr → Prop
  | main {t : Template} (ht : t.program.Obeys R) (base : List Template) :
    Entered R σ { σ with owners := t :: σ.owners, base, fixed := False } t.main
  | block {c : Context} (hc : σ.Holds R c) {t : Template} (ht : t.program.Obeys R)
    {name : String} {body : List Instr} (hbody : t.block? name = some body)
    (provided : c.Provides name t) :
    Entered R σ ⟨t :: σ.owners, (t, name) :: σ.blocks, c.chain, True⟩ body
  | body {t : Template} (ht : t.program.Obeys R) {name : String} {d : MacroDef}
    (hd : t.findMacro? name = some d) {chain : List Template} (hchain : σ.base <+: chain) :
    Entered R σ { σ with owners := t :: σ.owners, base := chain, fixed := True } d.body

/-- Two levels that do the same for a run in a setting above them. -/
structure Levels (R : Rules) (σ : Setting) (l l' : Level) : Prop where
  eval (x : Expr) : (σ.pairing R).rel Eq (l.eval x) (l'.eval x)
  run {σ' : Setting} {instrs : List Instr} (h : Entered R σ σ' instrs) :
    (σ'.pairing R).rel Eq (l.run instrs) (l'.run instrs)

/-- The same for what is below. -/
def Belows (R : Rules) (σ : Setting) (b b' : Below) : Prop :=
  Option.Rel (fun l l' => Levels R σ l.get l'.get) b b'

variable {R : Rules} {σ : Setting} {α : Type} {S : α → α → Prop} {e : Engine} {l l' : Level}
  {b b' : Below}

/-- Whatever obeys the rules is covered. -/
theorem covers_of_admits {t : Template} {instrs : List Instr} {inner : Prop}
    (howner : σ.owners.head? = some t) (hinner : σ.fixed → inner)
    (h : ∀ i ∈ Instr.partsOf instrs, R.Admits t.program inner i) :
    ∀ i ∈ Instr.partsOf instrs, (σ.pairing R).covers i := by
  refine fun i hi => ⟨⟨t, howner, (h i hi).called, ?_⟩, fun _ _ _ _ => trivial⟩
  exact fun hR hfixed => (h i hi).stays hR (hinner hfixed)

/-- What is entered is covered by the setting that it is entered in. -/
theorem Entered.covers {σ' : Setting} {instrs : List Instr} (h : Entered R σ σ' instrs) :
    ∀ i ∈ Instr.partsOf instrs, (σ'.pairing R).covers i := by
  cases h with
  | main ht => exact covers_of_admits rfl id ht.main
  | block hc ht hbody provided =>
    exact covers_of_admits rfl (fun _ => trivial) (ht.block _ (Table.mem_of_find? hbody))
  | body ht hd _ =>
    exact covers_of_admits rfl (fun _ => trivial) (ht.body _ (Table.mem_of_find? hd))

/-! ### What a level does for the one above it -/

theorem pushes (vars : Table Value) :
    (σ.pairing R).rel Eq (vars.forM fun v => Action.push v.1 v.2)
      (vars.forM fun v => Action.push v.1 v.2) := by
  induction vars with
  | nil => exact result rfl
  | cons v vars ih => exact andThen (push v.1 v.2) fun _ => ih

theorem Levels.bindParams (hl : Levels R σ l l') (params : Params) (args : List Value) :
    (σ.pairing R).rel Eq (l.bindParams params args) (l'.bindParams params args) := by
  induction params generalizing args with
  | nil => exact result rfl
  | cons param params ih =>
    refine andThen ?_ fun v => andThen (push param.1 v) fun _ => ih args.tail
    cases args.head? with
    | some arg => exact result rfl
    | none =>
      cases param.2 with
      | some default => exact hl.eval default
      | none => exact result rfl

theorem Levels.render (hl : Levels R σ l l') {t : Template} (ht : t.program.Obeys R) :
    (σ.pairing R).rel Eq (l.render t) (l'.render t) :=
  withTemplate ht (withOwner ht (hl.run (.main ht [])))

/-- At the limit there is no level below on either side. -/
theorem descend (hb : Belows R σ b b') {f g : Level → Action α}
    (h : ∀ l l', Levels R σ l l' → (σ.pairing R).rel S (f l) (g l')) :
    (σ.pairing R).rel S (b.descend e f) (b'.descend e g) := by
  cases hb with
  | none => exact fail fun _ hfault => by cases hfault
  | some hl => exact deeper (h _ _ hl)

/-- A block that a context provides. -/
theorem callBlock (hb : Belows R σ b b') {c : Context} (hc : σ.Holds R c) {t : Template}
    (ht : t.program.Obeys R) {name : String} (hblock : t.hasBlock name)
    (provided : c.Provides name t) :
    σ.Ends R Eq (b.callBlock e t name c) (b'.callBlock e t name c) := by
  obtain ⟨body, hbody⟩ := Option.isSome_iff_exists.mp hblock
  refine hc.rebase (fun _ => trivial) ?_
  rw [Below.callBlock, Below.callBlock, hbody]
  cases hb with
  | none => exact fail fun _ hfault => by cases hfault
  | some hl =>
    exact deeper (withBlock t name (withOwner ht (hl.run (.block hc ht hbody provided))))

theorem callMacro (hb : Belows R σ b b') {t : Template} (ht : t.program.Obeys R) (name : String)
    (args : List Value) :
    (σ.pairing R).rel Eq (b.callMacro e t name args) (b'.callMacro e t name args) := by
  rw [Below.callMacro, Below.callMacro]
  cases hd : t.findMacro? name with
  | none => exact fail fun _ hfault => by cases hfault
  | some d =>
    refine descend hb fun l l' hl => withScope {} ?_
    refine andThen (hl.bindParams d.params args) fun _ => andThen (capture ?_) fun _ => result rfl
    -- whatever the chain is now, the body leaves it so
    exact withOwner ht fun c hc => hc.rebase (fun _ => trivial) (hl.run (.body ht hd hc.base))

/-- A parent joins the chain only where the setting does not tell the chain. -/
theorem callParent (hb : Belows R σ b b') {x : Expr} (hi : (σ.pairing R).instr (.extend x))
    {t : Template} (ht : t.program.Obeys R) :
    (σ.pairing R).rel Eq (b.callParent e t) (b'.callParent e t) := by
  have hfree : R.steady → ¬ σ.fixed := by
    obtain ⟨u, -, hu⟩ := hi
    exact fun hR hfixed => hu.stays hR hfixed x rfl
  have hpush : (σ.pairing R).rel Eq (Action.pushParent t) (Action.pushParent t) := by
    refine change _ fun c hc => { hc with
      base := hc.base.trans (List.prefix_append ..)
      chain := fun hR hfixed => absurd hfixed (hfree hR)
      knows := { hc.knows with chain := ?_ } }
    exact List.forall_mem_append.mpr ⟨hc.knows.chain, List.forall_mem_singleton.mpr ht⟩
  refine andThen hpush fun _ => descend hb fun l l' hl => withOwner ht ?_
  refine free (σ := { σ with owners := t :: σ.owners }) hfree ?_
  exact hl.run (.main ht σ.base)

theorem renderBlock (hb : Belows R σ b b') {name : String}
    (hi : (σ.pairing R).instr (.callBlock name)) :
    (σ.pairing R).rel Eq (b.renderBlock e name) (b'.renderBlock e name) := by
  intro c hc
  rw [Below.renderBlock, Below.renderBlock, Action.get_bind_apply, Action.get_bind_apply]
  cases hprovider : c.blockProvider? name with
  | some t =>
    obtain ⟨ht, hblock⟩ := hc.blockProvider? hprovider
    exact callBlock hb hc ht hblock (.inl hprovider)
  | none =>
    refine fail (fun hR => ?_) c hc
    -- the owner has the block if all calls are closed, and so there would be a provider
    obtain ⟨t, howner, ht⟩ := hi
    have hblock : t.hasBlock name := ht.called hR rfl
    rw [Context.blockProvider?] at hprovider
    split at hprovider
    · cases hprovider
    · rw [Context.owner?, hc.owners, howner, Option.filter_some, if_pos hblock] at hprovider
      cases hprovider

theorem parentBlock (hb : Belows R σ b b') :
    (σ.pairing R).rel Eq (b.parentBlock e) (b'.parentBlock e) := by
  intro c hc
  rw [Below.parentBlock, Below.parentBlock, Action.get_bind_apply, Action.get_bind_apply]
  cases hblocks : c.blocks.head? with
  | none => exact fail (fun _ hfault => by cases hfault) c hc
  | some m =>
    obtain ⟨u, name⟩ := m
    dsimp only
    cases hprovider : c.parentProvider? u name with
    | none => exact fail (fun _ hfault => by cases hfault) c hc
    | some t =>
      obtain ⟨ht, hblock⟩ := hc.parentProvider? hprovider
      have hcall := callBlock (e := e) hb (hc.withOutput "") ht hblock (.inr ⟨u, hblocks, hprovider⟩)
      refine hcall.capture.bind ?_
      rintro s _ rfl
      exact result rfl

theorem embed (hb : Belows R σ b b') {t : Template} (ht : t.program.Obeys R) (vars : Table Value)
    (only : Bool) : (σ.pairing R).rel Eq (b.embed e t vars only) (b'.embed e t vars only) := by
  refine descend hb fun l l' hl => withFreshImports ?_
  cases only with
  | true => exact withScope _ (hl.render ht)
  | false => exact withLocals (andThen (pushes vars) fun _ => hl.render ht)

/-! ### The walk and the levels -/

theorem callNamed (he : e.Follows R) (hb : Belows R σ b b') (name : String) (args : List Value) :
    (σ.pairing R).rel Eq (Expr.callNamed e b name args) (Expr.callNamed e b' name args) := by
  intro c hc
  rw [Expr.callNamed, Expr.callNamed, Action.get_bind_apply, Action.get_bind_apply]
  cases hm : Table.find? name c.importedMacros with
  | some m => exact callMacro hb (hc.knows.importedMacros name m hm) m.2 args c hc
  | none =>
    cases howner : c.owner?.filter fun t => (t.findMacro? name).isSome with
    | some t =>
      have ht := hc.knows.owners t (List.mem_of_head? (Option.filter_eq_some_iff.mp howner).1)
      exact callMacro hb ht name args c hc
    | none =>
      cases hf : Table.find? name e.language.functions with
      | some f => exact lift (fun _ => he.function hf) c hc
      | none => exact fail (fun _ hfault => by cases hfault) c hc

/-- The call that renders the parent of the current block, if there is a current block. -/
theorem parentCall (he : e.Follows R) (hb : Belows R σ b b') :
    (σ.pairing R).rel Eq (Expr.value? e b (.call (.var "parent") []))
      (Expr.value? e b' (.call (.var "parent") [])) := by
  intro c hc
  simp only [Expr.value?, Expr.values, Action.get_bind_apply]
  split
  · exact andThen (parentBlock hb) (fun _ => result rfl) c hc
  · exact andThen (callNamed he hb "parent" []) (fun _ => result rfl) c hc

theorem importEach {t : Template} (ht : t.program.Obeys R) (names : List (String × String)) :
    (σ.pairing R).rel Eq (Instr.importEach t names) (Instr.importEach t names) := by
  induction names with
  | nil => exact result rfl
  | cons n names ih =>
    have hrest := andThen (importMacro n.2 n.1 ht) fun _ => ih
    simp only [Instr.importEach]
    split
    · exact andThen (fail fun _ hfault => by cases hfault) fun _ => hrest
    · exact hrest

theorem evaluates (he : e.Follows R) (hb : Belows R σ b b') :
    (σ.pairing R).Evaluates e e b b' where
  language := rfl
  result := result
  bind := bind
  fail := fail
  raised := he.raised
  missing path := by
    rw [Expr.orMissing]
    split
    · exact fail fun _ hfault => by cases hfault
    · exact result rfl
  lookup := lookup
  parentCall _ := parentCall he hb
  callNamed := callNamed he hb
  qualifier := qualifier
  callMacro := by
    rintro t _ ⟨rfl, ht⟩ name args
    exact callMacro hb ht name args

theorem executes (he : e.Follows R) (hb : Belows R σ b b') :
    (σ.pairing R).Executes e e b b' where
  toEvaluates := evaluates he hb
  write := write
  capture := capture
  push := push
  set := set
  withLocals := withLocals
  renderBlock := renderBlock hb
  named h := mono h fun _ _ heq => ⟨heq, trivial⟩
  fetch _ _ _ path _ := fetch he.compiles path
  fetchIncluded _ _ _ path _ := fetchIncluded he.compiles path
  callParent := by
    rintro x hi t _ ⟨rfl, ht⟩
    exact callParent hb hi ht
  embed := by
    rintro t _ ⟨rfl, ht⟩ vars only
    exact embed hb ht vars only
  owner? := owner?
  owner h := h
  importAs := by
    rintro x newName _ t _ ⟨rfl, ht⟩
    exact importAs newName ht
  importEach := by
    rintro x names _ t _ ⟨rfl, ht⟩
    exact importEach ht names

/-- Running covered instructions keeps the setting. -/
theorem run (he : e.Follows R) (hb : Belows R σ b b') {instrs : List Instr}
    (hi : ∀ i ∈ Instr.partsOf instrs, (σ.pairing R).covers i) :
    (σ.pairing R).rel Eq ((Level.over e b).run instrs) ((Level.over e b').run instrs) :=
  (executes he hb).discard ((executes he hb).sequence instrs hi)

/-- **Levels keep every setting** above levels that do. -/
theorem levelOver (he : e.Follows R) (hb : ∀ σ, Belows R σ b b') (σ : Setting) :
    Levels R σ (Level.over e b) (Level.over e b') where
  eval _ := (evaluates he (hb σ)).eval fun _ _ => trivial
  run h := run he (hb _) h.covers

/-- **All levels keep every setting.** -/
theorem belows_self (he : e.Follows R) (n : Nat) (σ : Setting) :
    Belows R σ (e.below n) (e.below n) := by
  -- up from the lowest level, below which there is none
  induction n generalizing σ with
  | zero => exact .none
  | succ n ih =>
    refine .some ?_
    change Levels R σ (e.level n) (e.level n)
    rw [Engine.level_eq_over]
    exact levelOver he ih σ

theorem levels_self (he : e.Follows R) (n : Nat) (σ : Setting) :
    Levels R σ (e.level n) (e.level n) := by
  rw [Engine.level_eq_over]
  exact levelOver he (belows_self he n) σ

/-- Running covered instructions keeps a setting, and both runs may be the same. -/
theorem run_self (he : e.Follows R) (n : Nat) {instrs : List Instr}
    (hi : ∀ i ∈ Instr.partsOf instrs, (σ.pairing R).covers i) :
    (σ.pairing R).rel Eq ((e.level n).run instrs) ((e.level n).run instrs) := by
  rw [Engine.level_eq_over]
  exact run he (belows_self he n σ) hi

end Setting

end Stencil
