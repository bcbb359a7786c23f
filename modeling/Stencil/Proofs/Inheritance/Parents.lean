import Stencil.Proofs.Engine.Tracking
import Stencil.Proofs.Inheritance.Alike
import Stencil.Proofs.Render.Bookkeeping

/-!
# Walking down a chain

The templates of a chain that define a block are its **definers**, in the order of the chain. A
call of the block runs the definition of the first one, and while one definition runs, `parent()`
runs the next.

How far down the walk has come is kept nowhere. It is found again at each step, from the
innermost current block and the identity of its template, and so there are two things to show. The
template that is found is the next definer, if no template comes twice in the chain. And other
blocks, captures, macros and included templates may come and go while a definition runs, yet
whenever one of its own instructions runs, the innermost current block is that of the definition.
The second is told by tracked runs (`Engine.tracked`): nothing begins to run unless it **follows**
from the instructions around it, and nothing leaves the current blocks changed.

Definitions that run one inside the other, each but the first by `parent()`, make a **nest**. It
takes the definers in their order and skips none of them, so it runs each at most once.
-/

namespace Stencil

/-! ### Definers -/

/-- The templates of a chain that define a block. -/
def definers (name : String) (chain : List Template) : List Template :=
  chain.filter fun t => t.hasBlock name

theorem definers_cons (name : String) (u : Template) (chain : List Template) :
    definers name (u :: chain) =
      if u.hasBlock name then u :: definers name chain else definers name chain :=
  List.filter_cons

theorem head?_definers (name : String) (chain : List Template) :
    (definers name chain).head? = chain.find? fun t => t.hasBlock name :=
  List.head?_filter

theorem mem_of_getElem?_definers {name : String} {chain : List Template} {j : Nat} {t : Template}
    (h : (definers name chain)[j]? = some t) : t ∈ chain :=
  (List.mem_filter.mp (List.mem_of_getElem? h)).1

theorem exists_block_of_definer {name : String} {chain : List Template} {j : Nat} {t : Template}
    (h : (definers name chain)[j]? = some t) : ∃ body, t.block? name = some body := by
  have hblock : t.hasBlock name := (List.mem_filter.mp (List.mem_of_getElem? h)).2
  exact Option.isSome_iff_exists.mp hblock

/-- A longer chain has more definers, after those of the shorter one. -/
theorem definers_mono (name : String) {chain chain' : List Template} (h : chain <+: chain') :
    definers name chain <+: definers name chain' :=
  h.filter _

/-- Definers are as distinct as the templates of the chain. -/
theorem nodup_definers (name : String) {chain : List Template}
    (h : (chain.map Template.id).Nodup) : (definers name chain).Nodup := by
  have hchain : chain.Nodup := List.Pairwise.of_map Template.id (fun _ _ => mt (congrArg _)) h
  exact hchain.filter _

/-- **Below a definer stands the next one**, if the templates of the chain are distinct. -/
theorem find?_parentsOf {name : String} {chain : List Template}
    (hchain : (chain.map Template.id).Nodup) {j : Nat} {t : Template}
    (ht : (definers name chain)[j]? = some t) :
    (Context.parentsOf t chain).find? (fun u => u.hasBlock name) =
      (definers name chain)[j + 1]? := by
  induction chain generalizing j with
  | nil => cases ht
  | cons u chain ih =>
    rw [List.map_cons, List.nodup_cons] at hchain
    obtain ⟨hu, hchain⟩ := hchain
    -- a definer further down is another template than the first one
    have hlater : ∀ {i : Nat}, (definers name chain)[i]? = some t → u.id ≠ t.id := by
      intro i hi heq
      exact hu (heq ▸ List.mem_map_of_mem (mem_of_getElem?_definers hi))
    rw [definers_cons] at ht ⊢
    rw [Context.parentsOf]
    by_cases hblock : u.hasBlock name
    · rw [if_pos hblock] at ht ⊢
      cases j with
      | zero =>
        obtain rfl : u = t := Option.some.inj ht
        rw [if_pos rfl, List.getElem?_cons_succ, ← head?_definers, List.head?_eq_getElem?]
      | succ j =>
        rw [List.getElem?_cons_succ] at ht ⊢
        rw [if_neg (hlater ht)]
        exact ih hchain ht
    · rw [if_neg hblock] at ht ⊢
      rw [if_neg (hlater ht)]
      exact ih hchain ht

/-! ### Running a definition -/

/-- Runs a definition of a block one level deeper. The block is the current one meanwhile, and
its template the owner. -/
def Level.runBlock (l : Level) (t : Template) (name : String) (body : List Instr) : Action Unit :=
  Action.deeper (Action.withBlock t name (Action.withOwner t (l.run body)))

namespace Engine

variable {e : Engine} {n : Nat} {c : Context} {name : String} {t u : Template}
  {body : List Instr}

theorem callBlock_eq_runBlock (hbody : t.block? name = some body) :
    (e.below (n + 1)).callBlock e t name = (e.level n).runBlock t name body := by
  rw [Below.callBlock, hbody]
  rfl

/-- The call of a block runs its first definition. -/
theorem renderBlock_eq_runBlock (ht : (definers name c.chain).head? = some t)
    (hbody : t.block? name = some body) :
    (e.below (n + 1)).renderBlock e name c = (e.level n).runBlock t name body c := by
  have hprovider : c.blockProvider? name = some t := by
    rw [Context.blockProvider?, ← head?_definers, ht]
  rw [Below.renderBlock, Action.get_bind_apply, hprovider]
  exact congrFun (callBlock_eq_runBlock hbody) c

/-- Within a block, `parent()` renders the parent of the block. -/
theorem eval_parentCall (hblocks : c.blocks.head? = some (t, name)) :
    (e.level n).eval Expr.parentCall c = (e.below n).parentBlock e c := by
  have hcall : Expr.isParentCall c "parent" [] := by
    cases hc : c.blocks with
    | nil =>
      rw [hc] at hblocks
      cases hblocks
    | cons m ms => simp [Expr.isParentCall, hc]
  have hvalue : Expr.parentCall.value? e (e.below n) c =
      (some <$> (e.below n).parentBlock e : Action _) c := by
    simp only [Expr.parentCall, Expr.value?, Action.get_bind_apply]
    rw [if_pos hcall]
    rfl
  rw [level_eq_over]
  change Expr.parentCall.eval e (e.below n) c = _
  rw [Expr.eval, Action.bind_apply, hvalue, map_eq_pure_bind, Action.bind_apply]
  generalize (e.below n).parentBlock e c = r
  obtain ⟨_ | v, c'⟩ := r <;> rfl

/-- The next definition is captured. -/
theorem eval_parentCall_of_some (hblocks : c.blocks.head? = some (t, name))
    (hparent : c.parentProvider? t name = some u) (hbody : u.block? name = some body) :
    (e.level (n + 1)).eval Expr.parentCall c =
      (((e.level n).runBlock u name body { c with output := "" }).1.map fun _ =>
          .str ((e.level n).runBlock u name body { c with output := "" }).2.output,
        { ((e.level n).runBlock u name body { c with output := "" }).2 with
          output := c.output }) := by
  rw [eval_parentCall hblocks, Below.parentBlock, Action.get_bind_apply, hblocks]
  dsimp only
  rw [hparent]
  dsimp only
  rw [callBlock_eq_runBlock hbody, Action.bind_apply]
  simp only [Action.capture]
  generalize (e.level n).runBlock u name body { c with output := "" } = r
  obtain ⟨_ | _, c'⟩ := r <;> rfl

/-- There may be no next definition. -/
theorem eval_parentCall_of_none (hblocks : c.blocks.head? = some (t, name))
    (hparent : c.parentProvider? t name = none) :
    (e.level n).eval Expr.parentCall c = (.error (.render (.noParentBlock name)), c) := by
  rw [eval_parentCall hblocks, Below.parentBlock, Action.get_bind_apply, hblocks]
  dsimp only
  rw [hparent]
  rfl

end Engine

/-! ### What follows from what -/

namespace Context

/-- Whether instructions that began to run in one context can have come to another one, with
nothing entered that is not left. -/
structure Passes (c c' : Context) : Prop extends c.Steady c' where
  blocks : c'.blocks = c.blocks

/-- Whether a block of a template is entered from one context in another one. -/
structure Enters (c : Context) (t : Template) (name : String) (c' : Context) : Prop where
  owners : c'.owners = t :: c.owners
  blocks : c'.blocks = (t, name) :: c.blocks
  chain : c.chain <+: c'.chain

/-- What may begin to run on the level below instructions that began to run in a context `d`, and
in which context. -/
inductive Follows (d : Context) : Context → List Instr → Prop
  /-- The main part of an included template or of a parent. -/
  | main {t : Template} {c : Context} (owners : c.owners = t :: d.owners)
    (blocks : c.blocks = d.blocks) : Follows d c t.main
  /-- The body of a macro. -/
  | body {t : Template} {name : String} {m : MacroDef} {c : Context}
    (found : t.findMacro? name = some m) (owners : c.owners = t :: d.owners)
    (blocks : c.blocks = d.blocks) (chain : d.chain <+: c.chain) : Follows d c m.body
  /-- A definition of a block, for a call of the block or of `parent()`. -/
  | block {t : Template} {name : String} {body : List Instr} {c c' : Context} (passes : d.Passes c)
    (provided : c.Provides name t) (found : t.block? name = some body)
    (enters : c.Enters t name c') : Follows d c' body

end Context

/-- What is entered follows. -/
theorem Context.tracks_follows (R : Rules) : Setting.Tracks R Context.Follows := by
  intro d fixed σ' instrs c h hc
  cases h with
  | main => exact .main hc.owners hc.blocks
  | body _ hd hchain => exact .body hd hc.owners hc.blocks (hchain.trans hc.base)
  | @block m hm t _ name body hbody provided =>
    have hpasses : d.Passes m := { owners := hm.owners, chain := hm.base, blocks := hm.blocks }
    have hblocks : c.blocks = (t, name) :: m.blocks := by rw [hc.blocks, hm.blocks]
    have howners : c.owners = t :: m.owners := by rw [hc.owners, hm.owners]
    exact .block hpasses provided hbody ⟨howners, hblocks, hc.base⟩

/-! ### Nests -/

/-- Definitions of a block that run one inside the other, each but the first by `parent()`, the
innermost first; and a context that is passed while the innermost one runs. -/
inductive Nest (name : String) : List Template → Context → Prop
  /-- The block is called. -/
  | call {t : Template} {c c' : Context} (first : (definers name c.chain).head? = some t)
    (enters : c.Enters t name c') : Nest name [t] c'
  /-- The innermost definition goes on, or something of its own runs for it. -/
  | pass {ts : List Template} {c c' : Context} (nest : Nest name ts c)
    (blocks : c'.blocks = c.blocks) (chain : c.chain <+: c'.chain) : Nest name ts c'
  /-- The innermost definition calls `parent()`. -/
  | parent {t u : Template} {ts : List Template} {c c' : Context} (nest : Nest name (t :: ts) c)
    (next : c.parentProvider? t name = some u) (enters : c.Enters u name c') :
    Nest name (u :: t :: ts) c'

namespace Nest

variable {name : String} {ts : List Template} {c : Context}

/-- The current block is that of the innermost definition. -/
theorem current (h : Nest name ts c) : c.blocks.head? = ts.head?.map fun t => (t, name) := by
  induction h with
  | call _ enters => rw [enters.blocks, List.head?_cons, List.head?_cons, Option.map_some]
  | pass _ blocks _ ih => rw [blocks, ih]
  | parent _ _ enters _ => rw [enters.blocks, List.head?_cons, List.head?_cons, Option.map_some]

/-- **A nest takes the definers in their order.** -/
theorem reverse_prefix (h : Nest name ts c) (hc : (c.chain.map Template.id).Nodup) :
    ts.reverse <+: definers name c.chain := by
  induction h with
  | @call t c c' first enters =>
    obtain ⟨us, hus⟩ := List.head?_eq_some_iff.mp first
    have hfirst : [t] <+: definers name c.chain := hus ▸ List.prefix_append [t] us
    exact hfirst.trans (definers_mono name enters.chain)
  | pass _ _ chain ih =>
    exact (ih (hc.sublist (chain.sublist.map _))).trans (definers_mono name chain)
  | @parent t u ts c c' _ next enters ih =>
    have hnodup : (c.chain.map Template.id).Nodup := hc.sublist (enters.chain.sublist.map _)
    obtain ⟨us, hus⟩ := ih hnodup
    rw [List.reverse_cons] at hus
    -- the innermost definer is followed by the one that `parent()` finds
    have ht : (definers name c.chain)[ts.length]? = some t := by
      rw [← hus]
      simp
    have hu : (definers name c.chain)[ts.length + 1]? = some u := by
      rw [← find?_parentsOf hnodup ht]
      exact next
    have hlength : (ts.reverse ++ [t]).length = ts.length + 1 := by simp
    have hrest : us.head? = some u := by
      rw [List.head?_eq_getElem?, ← Nat.sub_self (ts.length + 1)]
      rw [← hus, List.getElem?_append_right (Nat.le_of_eq hlength), hlength] at hu
      exact hu
    obtain ⟨vs, rfl⟩ := List.head?_eq_some_iff.mp hrest
    refine List.IsPrefix.trans ⟨vs, ?_⟩ (definers_mono name enters.chain)
    rw [← hus]
    simp

/-- **A definition that begins to run begins a nest or adds to the one that runs**, unless the
block is the owner's alone. -/
theorem of_follows {d : Context} {u : Template} {instrs : List Instr} (h : d.Follows c instrs)
    (hc : c.blocks = (u, name) :: d.blocks) :
    Nest name [u] c ∨ (∀ ts, Nest name ts d → Nest name (u :: ts) c) ∨
      (definers name d.chain = [] ∧ d.owner? = some u) := by
  cases h with
  | main _ blocks => exact absurd (blocks.symm.trans hc) (List.ne_cons_self)
  | body _ _ blocks _ => exact absurd (blocks.symm.trans hc) (List.ne_cons_self)
  | @block t name' body m _ passes provided _ enters =>
    have hentered : (t, name') :: m.blocks = (u, name) :: m.blocks := by
      rw [← enters.blocks, hc, passes.blocks]
    obtain ⟨rfl, rfl⟩ := Prod.mk.inj (List.cons.inj hentered).1
    rcases provided with hcalled | ⟨v, hcurrent, hparent⟩
    · rw [Context.blockProvider?, ← head?_definers] at hcalled
      split at hcalled
      next first =>
        obtain rfl := Option.some.inj hcalled
        exact .inl (.call first enters)
      next hnone =>
        have hm : definers name' m.chain = [] := List.head?_eq_none_iff.mp hnone
        have hd : definers name' d.chain = [] :=
          List.prefix_nil.mp (hm ▸ definers_mono name' passes.chain)
        have howner : m.owner? = some t := (Option.filter_eq_some_iff.mp hcalled).1
        rw [Context.owner?, passes.owners] at howner
        exact .inr (.inr ⟨hd, howner⟩)
    · refine .inr (.inl fun ts hnest => ?_)
      have hhead := hnest.current
      rw [← passes.blocks, hcurrent] at hhead
      obtain ⟨w, hw, hvw⟩ := Option.map_eq_some_iff.mp hhead.symm
      obtain rfl : w = v := congrArg Prod.fst hvw
      obtain ⟨rest, rfl⟩ := List.head?_eq_some_iff.mp hw
      exact .parent (.pass hnest passes.blocks passes.chain) hparent enters

end Nest

/-- **`parent()` walks down the chain.** The call of a block runs the definition of its first
definer. Where the templates of the chain are distinct and the current block is that of one
definer, `parent()` runs the definition of the next one: its value is the text that this writes,
and nothing is written. If there is no next one, it fails.

In every run, at any depth, nothing begins that does not follow from the instructions around it,
and whatever has run leaves the current blocks as they were. So a definition that begins to run
begins a nest or adds to the one that runs, if it is not of a block that the owner has alone. In a
nest the current block is that of the innermost definition, and nested definitions take the
definers in their order, each once. -/
theorem Engine.parent_walks_down (e : Engine) :
    (∀ n name c t, (definers name c.chain).head? = some t →
      ∃ body, t.block? name = some body ∧
        (e.below (n + 1)).renderBlock e name c = (e.level n).runBlock t name body c) ∧
    (∀ n name c j t, (c.chain.map Template.id).Nodup → (definers name c.chain)[j]? = some t →
      c.blocks.head? = some (t, name) →
      (∀ u, (definers name c.chain)[j + 1]? = some u →
        ∃ body, u.block? name = some body ∧
          let r := (e.level n).runBlock u name body { c with output := "" }
          (e.level (n + 1)).eval Expr.parentCall c =
            (r.1.map fun _ => .str r.2.output, { r.2 with output := c.output })) ∧
      ((definers name c.chain)[j + 1]? = none →
        (e.level n).eval Expr.parentCall c = (.error (.render (.noParentBlock name)), c))) ∧
    (∀ fault n instrs d t, d.owner? = some t →
      (Level.over e (e.trackedBelow Context.Follows fault n d)).run instrs d =
        (e.level n).run instrs d) ∧
    (∀ n c, (∀ instrs, ((e.level n).run instrs c).2.blocks = c.blocks) ∧
      ∀ x, ((e.level n).eval x c).2.blocks = c.blocks) ∧
    (∀ name d c u instrs, d.Follows c instrs → c.blocks = (u, name) :: d.blocks →
      Nest name [u] c ∨ (∀ ts, Nest name ts d → Nest name (u :: ts) c) ∨
        (definers name d.chain = [] ∧ d.owner? = some u)) ∧
    (∀ name ts c, Nest name ts c → c.blocks.head? = ts.head?.map (fun t => (t, name)) ∧
      ((c.chain.map Template.id).Nodup →
        ts.reverse <+: definers name c.chain ∧ ts.Nodup)) := by
  refine ⟨fun n name c t ht => ?_,
    fun n name c j t hc ht hblocks => ⟨fun u hu => ?_, fun hnone => ?_⟩,
    fun fault n instrs d t => e.run_tracked (Context.tracks_follows .none) fault n instrs,
    fun n c => ⟨?_, ?_⟩, fun name d c u instrs h hc => Nest.of_follows h hc,
    fun name ts c hnest => ⟨hnest.current, fun hc => ?_⟩⟩
  · rw [List.head?_eq_getElem?] at ht
    obtain ⟨body, hbody⟩ := exists_block_of_definer ht
    rw [← List.head?_eq_getElem?] at ht
    exact ⟨body, hbody, renderBlock_eq_runBlock ht hbody⟩
  · obtain ⟨body, hbody⟩ := exists_block_of_definer hu
    have hparent : c.parentProvider? t name = some u := (find?_parentsOf hc ht).trans hu
    exact ⟨body, hbody, eval_parentCall_of_some hblocks hparent hbody⟩
  · exact eval_parentCall_of_none hblocks ((find?_parentsOf hc ht).trans hnone)
  · exact fun instrs => ((e.tidy n).2.run instrs c).blocks
  · exact fun x => ((e.tidy n).2.eval x c).blocks
  · have horder := hnest.reverse_prefix hc
    have hnodup : ts.reverse.Nodup := (nodup_definers name hc).sublist horder.sublist
    exact ⟨horder, (List.reverse_perm ts).nodup_iff.mp hnodup⟩

/-! ### Drafts of a letter -/

/-- A draft that only defines a block. -/
def draft (id : Nat) (body : List Instr) : Template where
  id := id
  name := "draft"
  program := { main := [], blocks := [("body", body)] }

/-- Two drafts that each add to the one after it, and a first one. -/
def drafts : List Template :=
  [draft 2 [.output Expr.parentCall, .text "!"], draft 1 [.text "dear ", .output Expr.parentCall],
    draft 0 [.text "you"]]

/-- While definitions of drafts run, the innermost first. -/
def draftContext (ts : List Template) : Context where
  chain := drafts
  owners := ts
  blocks := ts.map fun t => (t, "body")

theorem enters_drafts (t : Template) (ts : List Template) :
    (draftContext ts).Enters t "body" (draftContext (t :: ts)) :=
  ⟨rfl, rfl, List.prefix_rfl⟩

/-- The drafts make a nest. -/
theorem nest_drafts : Nest "body" drafts.reverse (draftContext drafts.reverse) := by
  have hfirst : Nest "body" [drafts[0]] (draftContext [drafts[0]]) := .call rfl (enters_drafts _ [])
  have hsecond : Nest "body" [drafts[1], drafts[0]] (draftContext [drafts[1], drafts[0]]) :=
    .parent hfirst rfl (enters_drafts _ _)
  exact .parent hsecond rfl (enters_drafts _ _)

/-- A call of the block runs the first draft and in it the others. In the second one, `parent()`
gives the text of the last one, and there it fails. -/
theorem Engine.parent_walks_down_drafts :
    let e : Engine := {}
    let c := draftContext [drafts[1], drafts[0]]
    let d := draftContext drafts.reverse
    (drafts.map Template.id).Nodup ∧ definers "body" drafts = drafts ∧
      ((e.below 5).renderBlock e "body" c).2.output = "dear you!" ∧
      ((e.level 5).eval Expr.parentCall c).1.map Value.display = .ok "you" ∧
      ((e.level 5).eval Expr.parentCall c).2.output = "" ∧
      ((e.level 5).eval Expr.parentCall d).1.map Value.display =
        .error (.render (.noParentBlock "body")) ∧
      ((Level.over e (e.trackedBelow Context.Follows (.render .selfOutside) 5 c)).run
        [.output Expr.parentCall] c).2.output = "you" ∧
      Nest "body" drafts.reverse d ∧ drafts.reverse.Nodup := by
  obtain ⟨hcall, hparent, htracked, -, -, hnest⟩ := Engine.parent_walks_down {}
  have hdistinct : (drafts.map Template.id).Nodup := by decide
  obtain ⟨hnext, -⟩ :=
    hparent 4 "body" (draftContext [drafts[1], drafts[0]]) 1 drafts[1] hdistinct rfl rfl
  obtain ⟨-, hlast⟩ := hparent 5 "body" (draftContext drafts.reverse) 2 drafts[2] hdistinct rfl rfl
  obtain ⟨body, hbody, hvalue⟩ := hnext drafts[2] rfl
  obtain rfl := Option.some.inj hbody
  refine ⟨hdistinct, rfl, ?_, ?_, ?_, ?_, ?_, nest_drafts, ?_⟩
  · obtain ⟨body, hbody, heq⟩ := hcall 4 "body" (draftContext [drafts[1], drafts[0]]) drafts[0] rfl
    obtain rfl := Option.some.inj hbody
    rw [heq]
    decide +kernel
  · rw [hvalue]
    decide +kernel
  · rw [hvalue]
    rfl
  · rw [hlast rfl]
    rfl
  · rw [htracked _ 5 _ _ drafts[1] rfl]
    decide +kernel
  · exact ((hnest "body" _ _ nest_drafts).2 hdistinct).2

end Stencil
