import Stencil.Proofs.Moment.Code

/-!
# What the code of an engine does

Each script in the code of an engine does the action that it is written for, on every level. The
walk follows the constructors of expressions and instructions; where code looks at something before
it goes on, both sides look at the same.

No deed of the code raises a depth fault, if the filters and functions of the language fail over
values only. So a depth fault always comes from an entry.
-/

namespace Stencil

/-! ### Fetching -/

namespace Engine

/-- Fetching raises no depth fault: it is a matter of sources and of texts. -/
theorem Fetched.sparesDepth {p : Program → Prop} {r : Except Error Template × Store}
    (h : Fetched p r) : SparesDepth r.1 := by
  rintro fault hfault ⟨limit⟩
  exact h.fail _ hfault ⟨_, rfl⟩

theorem compiles_true (e : Engine) : e.Compiles fun _ => True :=
  fun _ _ _ _ => trivial

theorem sparesDepth_obtain (e : Engine) (k : Slot) (s : Store) : SparesDepth (e.obtain k s).1 :=
  (e.compiles_true.obtain (fun _ _ _ => trivial) k).sparesDepth

theorem sparesDepth_fetch (e : Engine) (path : String) (s : Store) :
    SparesDepth (e.fetch path s).1 :=
  (e.compiles_true.fetch (fun _ _ _ => trivial) path).sparesDepth

end Engine

namespace Script

variable {e : Engine} {below : Below}

/-! ### Calls -/

theorem does_callBlock (t : Template) (name : String) :
    Does e below (callBlock t name) (below.callBlock e t name) := by
  unfold callBlock Below.callBlock
  cases t.block? name with
  | none => exact .fault fun h => by cases h
  | some body => exact .enter (.block t name body)

theorem does_callMacro (t : Template) (name : String) (args : List Value) :
    Does e below (callMacro t name args) (below.callMacro e t name args) := by
  unfold callMacro Below.callMacro
  cases t.findMacro? name with
  | none => exact .fault fun h => by cases h
  | some d => exact .enter (.macroCall t d args)

theorem does_callParent (t : Template) :
    Does e below (callParent t) (below.callParent e t) :=
  .bind (.pushParent t) fun _ => .enter (.parent t)

theorem does_renderBlock (name : String) :
    Does e below (renderBlock name) (below.renderBlock e name) := by
  refine .look fun c => ?_
  cases c.blockProvider? name with
  | none => exact .fault fun h => by cases h
  | some t => exact does_callBlock t name

theorem does_parentBlock : Does e below parentBlock (below.parentBlock e) := by
  refine .look fun c => ?_
  cases c.blocks.head? with
  | none => exact .fault fun h => by cases h
  | some b =>
    obtain ⟨t, name⟩ := b
    dsimp only
    cases c.parentProvider? t name with
    | none => exact .fault fun h => by cases h
    | some parent => exact .bind ((does_callBlock parent name).within .capture) fun _ => .pure _

/-! ### Expressions -/

theorem does_orMissing (path : Expr) (v : Option Value) :
    Does e below (orMissing e path v) (Expr.orMissing e path v) := by
  cases v with
  | some v => exact .pure v
  | none =>
    rw [orMissing, Expr.orMissing]
    split
    · exact .fault fun h => by cases h
    · exact .pure _

theorem does_callNamed (hl : e.language.OverValues) (name : String) (args : List Value) :
    Does e below (callNamed e name args) (Expr.callNamed e below name args) := by
  refine .look fun c => ?_
  cases Table.find? name c.importedMacros with
  | some m => exact does_callMacro m.1 m.2 args
  | none =>
    dsimp only
    cases c.owner?.filter fun t => (t.findMacro? name).isSome with
    | some t => exact does_callMacro t name args
    | none =>
      dsimp only
      cases hf : Table.find? name e.language.functions with
      | some f => exact .result (hl.function hf args).sparesDepth
      | none => exact .fault fun h => by cases h

theorem does_applyFilter (hl : e.language.OverValues) (name : String) (v : Value)
    (args : List Value) :
    Does e below (applyFilter e name v args) (Expr.applyFilter e name v args) := by
  unfold applyFilter Expr.applyFilter
  cases hf : Table.find? name e.language.filters with
  | some f => exact .result (hl.filter hf v args).sparesDepth
  | none => exact .fault fun h => by cases h

mutual

theorem does_value? (hl : e.language.OverValues) :
    ∀ x : Expr, Does e below (value? e x) (Expr.value? e below x)
  | .literal v => by
    rw [value?, Expr.value?]
    exact .pure _
  | .var name => by
    rw [value?, Expr.value?]
    exact .look fun _ => .pure _
  | .list items => by
    rw [value?, Expr.value?]
    exact (does_values hl items).bind fun _ => .pure _
  | .map entries => by
    rw [value?, Expr.value?]
    exact (does_entryValues hl [] entries).bind fun _ => .pure _
  | .attr target name => by
    rw [value?, Expr.value?]
    exact (does_value? hl target).bind fun _ => .pure _
  | .index target position => by
    rw [value?, Expr.value?]
    refine (does_value? hl target).bind fun v => ?_
    exact (does_value? hl position).bind fun i => (does_orMissing position i).bind fun _ => .pure _
  | .call (.var name) args => by
    rw [value?, Expr.value?]
    refine .look fun c => ?_
    split
    · exact does_parentBlock.bind fun _ => .pure _
    · exact (does_values hl args).bind fun vs => (does_callNamed hl name vs).bind fun _ => .pure _
  | .call (.attr target name) args => by
    rw [value?, Expr.value?]
    refine .look fun c => ?_
    cases Expr.qualifier? c target with
    | some t =>
      exact (does_values hl args).bind fun vs => (does_callMacro t name vs).bind fun _ => .pure _
    | none => exact .fault fun h => by cases h
  | .filter input name args => by
    rw [value?, Expr.value?]
    refine (does_value? hl input).bind fun v => ?_
    have happly (v : Value) :
        Does e below (do return some (← applyFilter e name v (← values e args)))
          (do return some (← Expr.applyFilter e name v (← Expr.values e below args))) :=
      (does_values hl args).bind fun vs => (does_applyFilter hl name v vs).bind fun _ => .pure _
    split
    · exact (Does.pure _).bind happly
    · exact (does_orMissing input v).bind happly
  | .test input name negated => by
    rw [value?, Expr.value?]
    split
    · exact (does_value? hl input).bind fun _ => .pure _
    · cases Value.testOf? name with
      | some holds =>
        exact (does_value? hl input).bind fun v => (does_orMissing input v).bind fun _ => .pure _
      | none => exact .fault fun h => by cases h
  | .unary op operand => by
    rw [value?, Expr.value?]
    refine (does_value? hl operand).bind fun v => (does_orMissing operand v).bind fun v => ?_
    exact (Does.result (UnaryOp.overValues_apply op v).sparesDepth).bind fun _ => .pure _
  | .binary op left right => by
    rw [value?, Expr.value?]
    refine (does_value? hl left).bind fun a => (does_orMissing left a).bind fun a => ?_
    cases op.shortcut? a with
    | some v => exact .pure _
    | none =>
      refine (does_value? hl right).bind fun b => (does_orMissing right b).bind fun b => ?_
      exact (Does.result (BinaryOp.overValues_apply op a b).sparesDepth).bind fun _ => .pure _
  | .ternary cond yes no => by
    rw [value?, Expr.value?]
    refine (does_value? hl cond).bind fun c => (does_orMissing cond c).bind fun c => ?_
    split
    · exact (does_value? hl yes).bind fun v => (does_orMissing yes v).bind fun _ => .pure _
    · exact (does_value? hl no).bind fun v => (does_orMissing no v).bind fun _ => .pure _
  | .call (.literal _) _ | .call (.list _) _ | .call (.map _) _ | .call (.index _ _) _
  | .call (.call _ _) _ | .call (.filter _ _ _) _ | .call (.test _ _ _) _ | .call (.unary _ _) _
  | .call (.binary _ _ _) _ | .call (.ternary _ _ _) _ => by
    rw [value?, Expr.value?]
    · exact .fault fun h => by cases h
    all_goals simp

theorem does_values (hl : e.language.OverValues) :
    ∀ items : List Expr, Does e below (values e items) (Expr.values e below items)
  | [] => by
    rw [values, Expr.values]
    exact .pure _
  | item :: items => by
    rw [values, Expr.values]
    refine (does_value? hl item).bind fun v => (does_orMissing item v).bind fun v => ?_
    exact (does_values hl items).bind fun _ => .pure _

theorem does_entryValues (hl : e.language.OverValues) :
    ∀ (entries : Table Value) (items : List (Expr × Expr)),
    Does e below (entryValues e entries items) (Expr.entryValues e below entries items)
  | entries, [] => by
    rw [entryValues, Expr.entryValues]
    exact .pure _
  | entries, (key, item) :: rest => by
    rw [entryValues, Expr.entryValues]
    refine (does_value? hl key).bind fun k => (does_orMissing key k).bind fun k => ?_
    refine (does_value? hl item).bind fun v => (does_orMissing item v).bind fun v => ?_
    exact does_entryValues hl _ rest

end

/-- **Expressions do what they should**, whatever is below. -/
theorem does_eval (hl : e.language.OverValues) (x : Expr) :
    Does e below (eval e x) (x.eval e below) :=
  (does_value? hl x).bind fun v => does_orMissing x v


/-! ### Rounds of a loop -/

theorem does_bindRound (key : Option String) (value : String) (pair : Value × Value)
    (index length : Nat) :
    Does e below (bindRound key value pair index length)
      (Instr.bindRound key value pair index length) := by
  have hrest : Does e below
      (do act (.push value pair.2); act (.push "loop" (Instr.loopValue index length)))
      (do Action.push value pair.2; Action.push "loop" (Instr.loopValue index length)) :=
    (Does.push value pair.2).bind fun _ => .push "loop" _
  cases key with
  | none => exact hrest
  | some name => exact (Does.push name pair.1).bind fun _ => hrest

theorem does_round (key : Option String) (value : String) (length : Nat) {body : Script Flow}
    {a : Action Flow} (h : Does e below body a) (index : Nat) (pair : Value × Value) :
    Does e below (round key value length body index pair)
      (Instr.round key value length a index pair) :=
  ((does_bindRound key value pair index length).bind fun _ => h).within .locals

theorem does_rounds (key : Option String) (value : String) (length : Nat) {body : Script Flow}
    {a : Action Flow} (h : Does e below body a) (index : Nat) (pairs : List (Value × Value)) :
    Does e below (rounds key value length body index pairs)
      (Instr.rounds key value length a index pairs) := by
  induction pairs generalizing index with
  | nil => exact .pure _
  | cons pair pairs ih =>
    refine (does_round key value length h index pair).bind fun flow => ?_
    cases flow with
    | halt => exact .pure _
    | goOn => exact ih (index + 1)

/-! ### Templates -/

theorem does_fetch (path : String) : Does e below (fetch e path) (Action.fetch e path) :=
  .onStore (e.sparesDepth_fetch path)

theorem does_fetchIncluded (path : String) (ignoreMissing : Bool) :
    Does e below (fetchIncluded e path ignoreMissing)
      (Instr.fetchIncluded e path ignoreMissing) := by
  rw [Instr.fetchIncluded_eq_onStore]
  refine .onStore fun s => ?_
  have hfetch := e.sparesDepth_fetch path s
  generalize e.fetch path s = r at hfetch ⊢
  obtain ⟨fault | t, s⟩ := r
  · cases fault with
    | notFound name =>
      cases ignoreMissing with
      | true => exact sparesDepth_ok _
      | false => exact sparesDepth_error fun h => by cases h
    | _ => exact sparesDepth_error (hfetch _ rfl)
  · exact sparesDepth_ok _

theorem does_includedVars (hl : e.language.OverValues) (vars : Option Expr) :
    Does e below (includedVars e vars) (Instr.includedVars e below vars) := by
  cases vars with
  | none => exact .pure _
  | some vars =>
    refine (does_eval hl vars).bind fun v => ?_
    cases v with
    | map entries => exact .pure _
    | null => exact .pure _
    | _ => exact .fault fun h => by cases h

theorem does_importedTemplate (hl : e.language.OverValues) (template : Expr) :
    Does e below (importedTemplate e template) (Instr.importedTemplate e below template) := by
  by_cases hself : template = .var "_self"
  · subst hself
    refine .look fun c => ?_
    cases c.owner? with
    | some t => exact .pure _
    | none => exact .fault fun h => by cases h
  · have hfetched : importedTemplate e template = (do fetch e (← eval e template).display) := by
      unfold importedTemplate
      split
      · exact absurd rfl hself
      · rfl
    rw [hfetched, importedTemplate_fetched hself]
    exact (does_eval hl template).bind fun v => does_fetch v.display

theorem does_importEach (t : Template) (names : List (String × String)) :
    Does e below (importEach t names) (Instr.importEach t names) := by
  induction names with
  | nil => exact .pure _
  | cons entry names ih =>
    obtain ⟨name, newName⟩ := entry
    have hrest : Does e below (do act (.importMacro newName t name); importEach t names)
        (do Action.importMacro newName t name; Instr.importEach t names) :=
      (Does.importMacro newName t name).bind fun _ => ih
    rw [importEach, Instr.importEach]
    split
    · exact (Does.fault fun h => by cases h).bind fun _ => hrest
    · exact hrest

/-! ### Instructions -/

theorem Does.discard {s : Script Flow} {a : Action Flow} (h : Does e below s a) :
    Does e below (discard s) (discard a) :=
  h.bind fun _ => .pure ()

/-- What is done before going on. -/
theorem Does.goOn {s : Script Unit} {a : Action Unit} (h : Does e below s a) :
    Does e below (do s; return Flow.goOn) (do a; return Flow.goOn) :=
  h.bind fun _ => .pure _

mutual

theorem does_step (hl : e.language.OverValues) {ds : Script Unit} {d : Action Unit}
    (hd : Does e below ds d) :
    ∀ i : Instr, Does e below (step e ds i) (Instr.step e below d i)
  | .text s => by
    rw [step, Instr.step]
    exact (Does.write s).goOn
  | .output value => by
    rw [step, Instr.step]
    exact (does_eval hl value).bind fun v => (Does.write v.display).goOn
  | .branch branches otherwise => by
    rw [step, Instr.step]
    exact does_firstBranch hl (does_sequence hl otherwise) branches
  | .loop key value iterable body otherwise => by
    rw [step, Instr.step]
    refine (does_eval hl iterable).bind fun v => ?_
    refine (Does.result v.overValues_pairs.sparesDepth).bind fun pairs => ?_
    split
    · exact does_sequence hl otherwise
    · exact does_rounds key value pairs.length (does_sequence hl body) 0 pairs
  | .set name value => by
    rw [step, Instr.step]
    exact (does_eval hl value).bind fun v => (Does.set name v).goOn
  | .capture name body => by
    rw [step, Instr.step]
    refine ((does_sequence hl body).discard.within .capture).bind fun s => ?_
    exact (Does.set name _).goOn
  | .callBlock name => by
    rw [step, Instr.step]
    exact (does_renderBlock name).goOn
  | .extend parent => by
    rw [step, Instr.step]
    refine (does_eval hl parent).bind fun v => (does_fetch v.display).bind fun t => ?_
    exact hd.bind fun _ => (does_callParent t).bind fun _ => .pure _
  | .embed template vars only ignoreMissing => by
    rw [step, Instr.step]
    refine (does_eval hl template).bind fun v => ?_
    refine (does_fetchIncluded v.display ignoreMissing).bind fun found => ?_
    cases found with
    | some t =>
      exact (does_includedVars hl vars).bind fun vs => (Does.enter (.embed t vs only)).goOn
    | none => exact .pure _
  | .importAs template newName => by
    rw [step, Instr.step]
    exact (does_importedTemplate hl template).bind fun t => (Does.importAs newName t).goOn
  | .importNames template names => by
    rw [step, Instr.step]
    exact (does_importedTemplate hl template).bind fun t => (does_importEach t names).goOn
  | .transform t body => by
    rw [step, Instr.step]
    refine ((does_sequence hl body).discard.within .capture).bind fun s => ?_
    exact (Does.write _).goOn

/-- **Instructions do what they should**, whatever is below. -/
theorem does_sequence (hl : e.language.OverValues) :
    ∀ instrs : List Instr, Does e below (sequence e instrs) (Instr.sequence e below instrs)
  | [] => by
    rw [sequence, Instr.sequence]
    exact .pure _
  | i :: rest => by
    rw [sequence, Instr.sequence]
    refine (does_step hl (does_declarations hl rest) i).bind fun flow => ?_
    cases flow with
    | halt => exact .pure _
    | goOn => exact does_sequence hl rest

theorem does_declarations (hl : e.language.OverValues) :
    ∀ instrs : List Instr,
      Does e below (declarations e instrs) (Instr.declarations e below instrs)
  | [] => by
    rw [declarations, Instr.declarations]
    exact .pure _
  | i :: rest => by
    rw [declarations, Instr.declarations]
    split
    · exact (does_step hl (.pure ()) i).discard.bind fun _ => does_declarations hl rest
    · exact does_declarations hl rest

theorem does_firstBranch (hl : e.language.OverValues) {s : Script Flow} {a : Action Flow}
    (h : Does e below s a) :
    ∀ branches : List (Expr × List Instr),
      Does e below (firstBranch e s branches) (Instr.firstBranch e below a branches)
  | [] => by
    rw [firstBranch, Instr.firstBranch]
    exact h
  | (cond, body) :: rest => by
    rw [firstBranch, Instr.firstBranch]
    refine (does_eval hl cond).bind fun v => ?_
    split
    · exact does_sequence hl body
    · exact does_firstBranch hl h rest

end

/-! ### What is entered -/

theorem does_run (hl : e.language.OverValues) (instrs : List Instr) :
    Does e below (run e instrs) ((Level.over e below).run instrs) :=
  (does_sequence hl instrs).discard

theorem does_render (hl : e.language.OverValues) (t : Template) :
    Does e below (render e t) ((Level.over e below).render t) :=
  ((does_run hl t.main).within (.owner t)).within (.template t)

theorem does_paramValue (hl : e.language.OverValues) (arg : Option Value)
    (default : Option Expr) :
    Does e below (paramValue e arg default) ((Level.over e below).paramValue arg default) := by
  cases arg with
  | some v => exact .pure v
  | none =>
    cases default with
    | some x => exact does_eval hl x
    | none => exact .pure _

theorem does_bindParams (hl : e.language.OverValues) (params : Params) (args : List Value) :
    Does e below (bindParams e params args) ((Level.over e below).bindParams params args) := by
  induction params generalizing args with
  | nil => exact .pure _
  | cons p params ih =>
    obtain ⟨name, default⟩ := p
    refine (does_paramValue hl args.head? default).bind fun v => ?_
    exact (Does.push name v).bind fun _ => ih args.tail

/-- Names pushed one after the other. -/
theorem does_pushes (vars : Table Value) :
    Does e below (vars.forM fun v => act (.push v.1 v.2))
      (vars.forM fun v => Action.push v.1 v.2) := by
  induction vars with
  | nil => exact .pure _
  | cons v vars ih => exact (Does.push v.1 v.2).bind fun _ => ih

end Script

/-- **What an entry runs does what is done on the level that is entered.** -/
theorem Entry.does_script {e : Engine} {below : Below} (hl : e.language.OverValues) {α : Type}
    (x : Entry α) : Script.Does e below (x.script e) (x.body (Level.over e below)) := by
  cases x with
  | embed t vars only =>
    refine Script.Does.within ?_ .freshImports
    split
    · exact (Script.does_render hl t).within (.scope { root := vars })
    · exact ((Script.does_pushes vars).bind fun _ => Script.does_render hl t).within .locals
  | parent t => exact (Script.does_run hl t.main).within (.owner t)
  | block t name body => exact ((Script.does_run hl body).within (.owner t)).within (.block t name)
  | macroCall t d args =>
    refine Script.Does.within ?_ (.scope {})
    refine (Script.does_bindParams hl d.params args).bind fun _ => ?_
    exact (((Script.does_run hl d.body).within (.owner t)).within .capture).bind fun _ => .pure _

theorem Entry.sparesDepth_script {e : Engine} (hl : e.language.OverValues) {α : Type}
    (x : Entry α) : (x.script e).SparesDepth :=
  have h : Script.Does e none (x.script e) (x.body (Level.over e none)) := x.does_script hl
  h.spares

end Stencil
