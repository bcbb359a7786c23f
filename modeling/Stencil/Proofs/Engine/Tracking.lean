import Stencil.Proofs.Engine.Calls
import Stencil.Proofs.Render.Keeping

/-!
# Tracked runs

What holds whenever instructions begin to run cannot be read off the answer of an engine. It is
told by a run that is **tracked**: every level knows the context in which the instructions around
it began, and refuses to run anything that does not begin as it should there. If no run differs
from its tracked one, then nothing ever begins otherwise.

This is so if everything that can be entered from a setting (`Setting.Entered`) begins as it
should.
-/

namespace Stencil

/-! ### Watching -/

open Classical in
/-- A level that runs instructions only if they begin as they should, and fails otherwise. -/
noncomputable def Level.watch (l : Level) (begins : Context → List Instr → Prop)
    (fault : Error) : Level where
  eval := l.eval
  run instrs c := if begins c instrs then l.run instrs c else (.error fault, c)

/-- Nothing is noticed on a level that is watched if everything begins as it should. -/
theorem Setting.Levels.watch {R : Rules} {σ : Setting} {l l' : Level} (hl : Levels R σ l l')
    {begins : Context → List Instr → Prop}
    (h : ∀ σ' instrs c, Entered R σ σ' instrs → σ'.Holds R c → begins c instrs)
    (fault : Error) : Levels R σ l (l'.watch begins fault) where
  eval := hl.eval
  run hentered c hc := by
    have hrun := hl.run hentered c hc
    rw [Level.watch]
    dsimp only
    rwa [if_pos (h _ _ c hentered hc)]

/-! ### Levels -/

namespace Engine

section Tracking

variable (e : Engine) (begins : Context → Context → List Instr → Prop) (fault : Error)

/-- A tracked level, given those below it. -/
noncomputable def track (below : Context → Below) (d : Context) : Level :=
  Level.watch {
      eval := (Level.over e (below d)).eval
      run := fun instrs c => (Level.over e (below c)).run instrs c }
    (begins d) fault

/-- The level of number `n`, tracked, below instructions that began in a context. -/
noncomputable def tracked : (n : Nat) → Context → Level
  | 0 => e.track begins fault fun _ => none
  | n + 1 => e.track begins fault fun d => some (.mk fun _ => tracked n d)

/-- What is below the level of number `n`, tracked. -/
noncomputable def trackedBelow : (n : Nat) → Context → Below
  | 0, _ => none
  | n + 1, d => some (.mk fun _ => e.tracked begins fault n d)

theorem tracked_eq_track (n : Nat) :
    e.tracked begins fault n = e.track begins fault (e.trackedBelow begins fault n) := by
  cases n <;> rfl

end Tracking

end Engine

namespace Setting

/-- Whether everything that can be entered begins as it should. -/
def Tracks (R : Rules) (begins : Context → Context → List Instr → Prop) : Prop :=
  ∀ (d : Context) (fixed : Prop) (σ' : Setting) (instrs : List Instr) (c : Context),
    Entered R (of d fixed) σ' instrs → σ'.Holds R c → begins d c instrs

variable {R : Rules} {e : Engine} {begins : Context → Context → List Instr → Prop}

theorem levels_track (he : e.Follows R) (h : Tracks R begins) (fault : Error) {b : Below}
    {b' : Context → Below} (hb : ∀ d fixed, Belows R (of d fixed) b (b' d)) (d : Context)
    (fixed : Prop) : Levels R (of d fixed) (Level.over e b) (e.track begins fault b' d) := by
  refine Levels.watch ⟨fun x => ?_, fun {σ'} instrs hentered c hc => ?_⟩ (h d fixed) fault
  · exact (evaluates he (hb d fixed)).eval fun _ _ => trivial
  · -- what is below is tracked from here on, so the setting is that of this context now
    have hbelow : Belows R { σ' with base := c.chain } b (b' c) := by
      rw [← hc.of_eq]
      exact hb c σ'.fixed
    have hends : σ'.Ends R Eq ((Level.over e b).run instrs c)
        ((Level.over e (b' c)).run instrs c) := hc.rebase id (run he hbelow hentered.covers)
    exact hends

/-- **A tracked level does what the plain one does.** -/
theorem levels_tracked (he : e.Follows R) (h : Tracks R begins) (fault : Error) (n : Nat)
    (d : Context) (fixed : Prop) :
    Levels R (of d fixed) (e.level n) (e.tracked begins fault n d) := by
  rw [Engine.level_eq_over, Engine.tracked_eq_track]
  refine levels_track he h fault (fun d fixed => ?_) d fixed
  -- up from the lowest level, below which there is none
  induction n generalizing d fixed with
  | zero => exact .none
  | succ n ih =>
    refine .some ?_
    change Levels R (of d fixed) (e.level n) (e.tracked begins fault n d)
    rw [Engine.level_eq_over, Engine.tracked_eq_track]
    exact levels_track he h fault ih d fixed

theorem belows_tracked (he : e.Follows R) (h : Tracks R begins) (fault : Error) (n : Nat)
    (d : Context) (fixed : Prop) :
    Belows R (of d fixed) (e.below n) (e.trackedBelow begins fault n d) := by
  cases n with
  | zero => exact .none
  | succ n => exact .some (levels_tracked he h fault n d fixed)

/-! ### Answers -/

/-- The setting of a host. -/
def outermost : Setting :=
  of {} False

theorem holds_start {s : Store} (hs : s.All (Program.Obeys R)) (scope : Value) :
    outermost.Holds R (Engine.start scope s) where
  knows := {
    store := hs
    chain := fun _ ht => by cases ht
    owners := fun _ ht => by cases ht
    imports := fun _ _ ht => by cases ht
    importedMacros := fun _ _ hm => by cases hm }
  owners := rfl
  blocks := rfl
  base := List.prefix_rfl
  chain _ hfixed := hfixed.elim

/-- How two answers compare whose runs keep the setting of a host. -/
structure Answers (R : Rules) (r₁ r₂ : Except Error String × Store) : Prop where
  same : r₂ = r₁
  fail (fault : Error) (h : r₁.1 = .error fault) : R.closed → ¬ fault.IsBlockFault
  store : r₁.2.All (Program.Obeys R)

theorem Ends.answers {α : Type} {r₁ r₂ : Except Error α × Context}
    (h : outermost.Ends R Eq r₁ r₂) (f : α → Context → String) :
    Answers R (r₁.1.map fun x => f x r₁.2, r₁.2.store)
      (r₂.1.map fun x => f x r₂.2, r₂.2.store) := by
  cases h with
  | fail hfault hc =>
    refine ⟨rfl, ?_, hc.knows.store⟩
    rintro _ ⟨⟩
    exact hfault
  | give hxy hc =>
    subst hxy
    refine ⟨rfl, fun fault hfault => ?_, hc.knows.store⟩
    cases hfault

variable {l l' : Level} {b b' : Below}

theorem runOn (hl : Levels R outermost l l') (hb : Belows R outermost b b') {t : Template}
    (ht : t.program.Obeys R) (call : Call) {s : Store} (hs : s.All (Program.Obeys R)) :
    Answers R (e.runOn l b t call s) (e.runOn l' b' t call s) := by
  have hrender : ∀ scope, Answers R (e.runOn l b t (.render "" scope) s)
      (e.runOn l' b' t (.render "" scope) s) :=
    fun scope => (hl.render ht _ (holds_start hs scope)).answers fun _ c => c.output
  cases call with
  | render path scope => exact hrender scope
  | renderInline text scope => exact hrender scope
  | callMacro path name args =>
    have hcall := withTemplate (σ := outermost) ht (callMacro (e := e) hb ht name args)
    exact (hcall _ (holds_start hs .null)).answers fun v _ => v.display

/-- Levels that do the same for a host give the same answers. -/
theorem answerOn (he : e.Compiles (Program.Obeys R)) (hl : Levels R outermost l l')
    (hb : Belows R outermost b b') (call : Call) {s : Store} (hs : s.All (Program.Obeys R)) :
    Answers R (e.answerOn l b call s) (e.answerOn l' b' call s) := by
  have hfetched : Engine.Fetched (Program.Obeys R) (e.template call s) := by
    cases call with
    | renderInline text scope => exact he.obtain hs (.text text)
    | _ => exact he.fetch hs _
  rw [Engine.answerOn, Engine.answerOn]
  generalize e.template call s = r at hfetched ⊢
  obtain ⟨fault | t, s⟩ := r
  · refine ⟨rfl, ?_, hfetched.store⟩
    rintro _ ⟨⟩ _ hfault
    refine hfetched.fail fault rfl ?_
    cases hfault <;> exact ⟨_, rfl⟩
  · exact runOn hl hb (hfetched.give t rfl) call hfetched.store

end Setting

namespace Engine

variable {begins : Context → Context → List Instr → Prop}

/-- **No run differs from its tracked one.** -/
theorem run_tracked (e : Engine) (h : Setting.Tracks .none begins) (fault : Error) (n : Nat)
    (instrs : List Instr) {d : Context} {t : Template} (howner : d.owner? = some t) :
    (Level.over e (e.trackedBelow begins fault n d)).run instrs d =
      (e.level n).run instrs d := by
  let σ := Setting.of d False
  have hd : σ.Holds .none d :=
    Setting.holds_of (d.knows_of_forall fun t => t.program.obeys_none) False
  have hcovers : ∀ i ∈ Instr.partsOf instrs, (σ.pairing .none).covers i :=
    Setting.covers_of_admits howner id fun i _ => Rules.admits_none t.program False i
  have hbelow := Setting.belows_tracked e.follows_none h fault n d False
  have hrun := Setting.run e.follows_none hbelow hcovers d hd
  rw [← level_eq_over] at hrun
  exact hrun.eq.symm

/-- **No answer differs from the one of a tracked run.** -/
theorem answerOn_tracked (e : Engine) (h : Setting.Tracks .none begins) (fault : Error)
    (call : Call) (s : Store) :
    e.answerOn (e.tracked begins fault e.config.maxDepth {})
      (e.trackedBelow begins fault e.config.maxDepth {}) call s = e.answer call s := by
  have he := e.follows_none
  have hs : s.All (Program.Obeys .none) := fun _ t _ => t.program.obeys_none
  have hlevels := Setting.levels_tracked he h fault e.config.maxDepth {} False
  have hbelows := Setting.belows_tracked he h fault e.config.maxDepth {} False
  rw [answer_eq_answerOn]
  exact (Setting.answerOn he.compiles hlevels hbelows call hs).same

end Engine

end Stencil
