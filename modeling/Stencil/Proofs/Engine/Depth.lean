import Stencil.Proofs.Engine.Calls
import Stencil.Proofs.Moment.Counting

/-!
# The end of a call

A call of a host is a run as well: its template is fetched, and then something runs on the outermost
level. The run of a script comes to its result (`Script.ends`), so a call comes to its answer,
however templates include, extend and import each other, and however blocks and macros call
themselves. What makes it so is the limit on the depth, and the moments of the run show that the
limit is exact.
-/

namespace Stencil

/-- An action that ends with a look at the context. -/
theorem Action.bind_reading_apply {α β : Type} (a : Action α) (f : α → Context → β)
    (c : Context) :
    (a >>= fun x => (fun d => (.ok (f x d), d) : Action β)) c =
      ((a c).1.map fun x => f x (a c).2, (a c).2) := by
  rw [Action.bind_apply]
  rcases a c with ⟨fault | x, d⟩ <;> rfl

/-! ### The run of a call -/

namespace Call

/-- A result and the store that is left. -/
def outcome {α : Type} (x : Except Error α × Context) : Except Error α × Store :=
  (x.1, x.2.store)

/-- The scope at the start. -/
def scope : Call → Value
  | .render _ scope | .renderInline _ scope => scope
  | .callMacro .. => .null

/-- What runs when the template has been fetched. -/
def scriptOn (e : Engine) (t : Template) : Call → Script String
  | .render .. | .renderInline .. => do
    Script.render e t
    return (← Script.look).output
  | .callMacro _ name args =>
    return (← Script.within (.template t) (Script.callMacro t name args)).display

/-- What runs for a call. -/
def script (e : Engine) (call : Call) : Script String := do
  call.scriptOn e (← Script.act (.onStore (e.template call)))

/-- The first moment of a call. -/
def moment (e : Engine) (call : Call) (s : Store) : Moment String :=
  ⟨call.script e, .done, Engine.start call.scope s⟩

/-- What runs when the template has been fetched, as one action. -/
def actionOn (e : Engine) (below : Below) (t : Template) : Call → Action String
  | .render .. | .renderInline .. => do
    (Level.over e below).render t
    return (← get).output
  | .callMacro _ name args =>
    return (← Action.withTemplate t (below.callMacro e t name args)).display

variable {e : Engine} {below : Below}

theorem does_scriptOn (hl : e.language.OverValues) (t : Template) (call : Call) :
    Script.Does e below (call.scriptOn e t) (call.actionOn e below t) := by
  have hrender : Script.Does e below
      (do Script.render e t; return (← Script.look).output)
      (do (Level.over e below).render t; return (← get).output) :=
    (Script.does_render hl t).bind fun _ => .look fun _ => .pure _
  cases call with
  | render path scope => exact hrender
  | renderInline text scope => exact hrender
  | callMacro path name args =>
    exact ((Script.does_callMacro t name args).within (.template t)).bind fun _ => .pure _

theorem sparesDepth_template (call : Call) (s : Store) : SparesDepth (e.template call s).1 := by
  cases call with
  | render path scope => exact e.sparesDepth_fetch path s
  | renderInline text scope => exact e.sparesDepth_obtain (.text text) s
  | callMacro path name args => exact e.sparesDepth_fetch path s

theorem does_script (hl : e.language.OverValues) (call : Call) :
    Script.Does e below (call.script e)
      (do call.actionOn e below (← Action.onStore (e.template call))) :=
  (Script.Does.onStore call.sparesDepth_template).bind fun t => does_scriptOn hl t call

/-- As one action, a call gives what the engine answers. -/
theorem runOn_eq_actionOn (call : Call) (t : Template) (s : Store) :
    e.runOn (e.level e.config.maxDepth) (e.below e.config.maxDepth) t call s =
      outcome (call.actionOn e (e.below e.config.maxDepth) t (Engine.start call.scope s)) := by
  rw [Engine.level_eq_over]
  cases call with
  | render path scope | renderInline text scope =>
    exact congrArg outcome (Action.bind_reading_apply ((Level.over e _).render t)
      (fun _ d => d.output) _).symm
  | callMacro path name args =>
    exact congrArg outcome (Action.bind_reading_apply
      (Action.withTemplate t (Below.callMacro e _ t name args)) (fun v _ => v.display) _).symm

/-- So the script of a call gives it, where the whole limit is left. -/
theorem answer_eq_denote (hl : e.language.OverValues) (call : Call) (s : Store) :
    e.answer call s =
      outcome ((call.script e).denote e (e.below e.config.maxDepth)
        (Engine.start call.scope s)) := by
  have hfetch : Action.onStore (e.template call) (Engine.start call.scope s) =
      ((e.template call s).1, Engine.start call.scope (e.template call s).2) := rfl
  rw [Engine.answer_eq_answerOn, Engine.answerOn, (does_script hl call).denote, Action.bind_apply,
    hfetch]
  rcases e.template call s with ⟨fault | t, s⟩
  · rfl
  · exact runOn_eq_actionOn call t s

/-- The run of a call comes to the answer of the engine. -/
theorem over_moment (hl : e.language.OverValues) (call : Call) (s : Store) :
    ∃ n, ((call.moment e s).after e n).Over (e.answer call s) := by
  have hends := (call.script e).ends hl e.config.maxDepth
  obtain ⟨n, hn⟩ := (hends (Engine.start call.scope s) _ _ (Nat.zero_add _) rfl).2 .done
  refine ⟨n, ?_⟩
  rw [answer_eq_denote hl, moment, hn]
  exact ⟨_, rfl⟩

theorem sparesDepth_moment (hl : e.language.OverValues) (call : Call) (s : Store) :
    (call.moment e s).SparesDepth where
  script :=
    have h : Script.Does e none _ _ := does_script hl call
    h.spares
  pending := trivial

/-- And it starts soundly. -/
theorem sound_moment (hl : e.language.OverValues) (call : Call) (s : Store) :
    (call.moment e s).Sound e where
  depth := rfl
  le := Nat.zero_le _
  fault := .inl (sparesDepth_moment hl call s)

end Call

/-! ### The limit is exact -/

/-- **A call ends, and the limit on the depth is exact.** From some moment on its run is over, with
the answer of the engine. In every moment the depth counts the entries that are active, of which
there are never more than the limit allows. The fault of the depth is raised by an attempt of one
more entry with the limit reached and by nothing else, and any other attempt makes one more entry
active. So the answer is that fault if and only if there is an attempt with the limit reached. -/
theorem Engine.call_ends_within_limit (config : Config) (extensions : List Extension)
    (call : Call) (s : Store) :
    let e : Engine := { config, language := .ofExtensions extensions }
    let run := (call.moment e s).after e
    (∃ n, ∀ i ≥ n, (run i).Over (e.answer call s)) ∧
      (∀ i, (run i).context.depth = (run i).active.length ∧
        (run i).active.length ≤ config.maxDepth) ∧
      (∀ i, (run i).Raises e ↔ (run i).Overruns e) ∧
      (∀ i, (run i).Attempts → ¬ (run i).Overruns e →
        ∃ x, (run (i + 1)).active = x :: (run i).active) ∧
      ∀ limit, (e.answer call s).1 = .error (.render (.tooDeep limit)) ↔
        limit = config.maxDepth ∧ ∃ i, (run i).Overruns e := by
  intro e run
  have hl : e.language.OverValues := .ofExtensions extensions
  have hstart : (call.moment e s).Sound e := call.sound_moment hl s
  have hsound (i : Nat) : (run i).Sound e := hstart.after hl i
  obtain ⟨n, hn⟩ := call.over_moment hl s
  have hover (i : Nat) (hi : n ≤ i) : (run i).Over (e.answer call s) := by
    have hrest := hn.after (e := e) (i - n)
    rwa [Moment.after_add, Nat.add_sub_cancel' hi] at hrest
  have hfaulty := hstart.faulty_after_iff hl (call.sparesDepth_moment hl s).not_faulty
  refine ⟨⟨n, hover⟩, fun i => ⟨(hsound i).depth, (hsound i).le⟩,
    fun i => (hsound i).raises_iff hl,
    fun i hi hnot => hi.active_step hnot (hsound i).depth (hsound i).le, fun limit => ?_⟩
  constructor
  · intro hanswer
    obtain ⟨hlimit, hlast⟩ := ((hsound n).over_iff (hover n (Nat.le_refl n)) limit).mp hanswer
    obtain ⟨i, -, hi⟩ := (hfaulty n).mp hlast
    exact ⟨hlimit, i, hi⟩
  · -- the fault is still at hand when the run is over
    rintro ⟨hlimit, i, hi⟩
    have hlate : (run (n + (i + 1))).Faulty e := (hfaulty _).mpr ⟨i, by omega, hi⟩
    exact ((hsound _).over_iff (hover _ (Nat.le_add_right ..)) limit).mpr ⟨hlimit, hlate⟩

/-- A template that includes itself. -/
example :
    (({ config := { maxDepth := 3 } } : Engine).answer
      (.render "page" (.map [("next", .str "page")]))
      { source := .memory [("page", "a{% include next %}")] }).1 =
      .error (.render (.tooDeep 3)) := by
  decide +kernel

end Stencil
