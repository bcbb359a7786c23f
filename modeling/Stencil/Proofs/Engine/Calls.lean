import Stencil.Engine.Render
import Stencil.Proofs.Render.Lockstep

/-!
# Calls of a host

A host asks an engine for the output of a template, which it gives by its path or by its
text, or for the output of a macro. In each case a template is fetched first, and then
something runs on the outermost level. If the two engines of a lawful correspondence fetch
templates that stand for each other, and have outermost levels that run in lockstep, then
they give the same answer.
-/

namespace Stencil

/-- What a host asks of an engine. -/
inductive Call where
  | render (path : String) (scope : Value)
  | renderInline (text : String) (scope : Value)
  | callMacro (path name : String) (args : List Value)

namespace Engine

/-- What an engine answers, and the store afterwards. -/
def answer (e : Engine) : Call → Store → Except Error String × Store
  | .render path scope => e.render path scope
  | .renderInline text scope => e.renderInline text scope
  | .callMacro path name args => e.callMacro path name args

/-- The template that a call is about. -/
def template (e : Engine) : Call → Store → Except Error Template × Store
  | .render path _ => e.fetch path
  | .renderInline text _ => e.fetchInline text
  | .callMacro path _ _ => e.fetch path

/-- What runs for a call on an outermost level and what is below it. -/
def runOn (e : Engine) (l : Level) (b : Below) (t : Template) :
    Call → Store → Except Error String × Store
  | .render _ scope, s | .renderInline _ scope, s =>
    let (r, c) := l.render t (start scope s)
    (r.map fun () => c.output, c.store)
  | .callMacro _ name args, s =>
    let (r, c) := Action.withTemplate t (b.callMacro e t name args) (start .null s)
    (r.map Value.display, c.store)

/-- What an engine would answer if its outermost level were another one. -/
def answerOn (e : Engine) (l : Level) (b : Below) (call : Call) (s : Store) :
    Except Error String × Store :=
  match e.template call s with
  | (.error fault, s) => (.error fault, s)
  | (.ok t, s) => e.runOn l b t call s

theorem answer_eq_answerOn (e : Engine) (call : Call) (s : Store) :
    e.answer call s =
      e.answerOn (e.level e.config.maxDepth) (e.below e.config.maxDepth) call s := by
  cases call <;> rfl

end Engine

namespace Correspondence

variable {V : Coverage} {K : Correspondence V} {e₁ e₂ : Engine} {w : World V}

/-- Two answers that are the same and leave corresponding stores, if the left one is not a
refusal. -/
def Answers (K : Correspondence V) (w : World V) (r₁ r₂ : Except Error String × Store) : Prop :=
  (∀ fault, r₁.1 = .error fault → ¬ K.refused fault) →
    r₂.1 = r₁.1 ∧ ∃ w', w ≤ w' ∧ K.stores w' r₁.2 r₂.2

/-- Nothing is rendered at the start, so all places are clear. -/
theorem contexts_start (K : Correspondence V) {s s' : Store} (h : K.stores w s s')
    (scope : Value) :
    K.Contexts w (Engine.start scope s) (Engine.start scope s') ∧
      K.Clear (Engine.start scope s) where
  left := {
    stores := h
    scope := rfl
    output := rfl
    chain := .nil
    blocks := .nil
    owners := .nil
    imports := fun _ _ => .none
    importedMacros := fun _ _ => .none }
  right b hb := by cases hb

/-- The answers read off two runs that ended alike. -/
theorem Ends.answers {α : Type} {c d : Context} {r₁ r₂ : Except Error α × Context}
    (h : K.Ends (fun _ => Eq) w c d r₁ r₂) (f : α → Context → String)
    (hf : ∀ x (c d : Context), d.output = c.output → f x d = f x c) :
    K.Answers w (r₁.1.map fun x => f x r₁.2, r₁.2.store)
      (r₂.1.map fun x => f x r₂.2, r₂.2.store) := by
  intro hne
  cases h with
  | refuse h => exact absurd h (hne _ rfl)
  | fail hw hstores => exact ⟨rfl, _, hw, hstores⟩
  | give hw h _ _ _ hxy =>
    subst hxy
    exact ⟨congrArg Except.ok (hf _ _ _ h.output), _, hw, h.stores⟩

variable {l₁ l₂ : Level} {b₁ b₂ : Below}

theorem runOn (hl : K.Levels l₁ l₂) (hb : K.Belows e₁ e₂ b₁ b₂) {t u : Template}
    (htu : w.stands t u) (call : Call) {s s' : Store} (h : K.stores w s s') :
    K.Answers w (e₁.runOn l₁ b₁ t call s) (e₂.runOn l₂ b₂ u call s') := by
  have hrender : ∀ scope, K.Answers w (e₁.runOn l₁ b₁ t (.render "" scope) s)
      (e₂.runOn l₂ b₂ u (.render "" scope) s') := by
    intro scope
    obtain ⟨hcd, hclear⟩ := K.contexts_start h scope
    exact (hl.render htu _ _ hcd hclear).answers (fun _ c => c.output) fun _ _ _ heq => heq
  cases call with
  | render path scope => exact hrender scope
  | renderInline text scope => exact hrender scope
  | callMacro path name args =>
    obtain ⟨hcd, hclear⟩ := K.contexts_start h .null
    have hcall : K.Ends (fun _ => Eq) w (Engine.start .null s) (Engine.start .null s')
        (Action.withTemplate t (b₁.callMacro e₁ t name args) (Engine.start .null s))
        (Action.withTemplate u (b₂.callMacro e₂ u name args) (Engine.start .null s')) := by
      refine withTemplate hcd hclear (callMacro hb htu name args _ _ ?_ ?_)
      · exact { hcd with chain := .cons htu .nil }
      · intro m hm
        cases hm
    exact hcall.answers (fun (v : Value) _ => v.display) fun _ _ _ _ => rfl

/-- **Engines in lockstep give the same answers.** -/
theorem answerOn (hl : K.Levels l₁ l₂) (hb : K.Belows e₁ e₂ b₁ b₂) (call : Call) {s s' : Store}
    (h : K.Fetches w (e₁.template call s) (e₂.template call s')) :
    K.Answers w (e₁.answerOn l₁ b₁ call s) (e₂.answerOn l₂ b₂ call s') := by
  obtain ⟨w', hw, hstores, hmatches⟩ := h
  rw [Engine.answerOn, Engine.answerOn]
  generalize e₁.template call s = r₁, e₂.template call s' = r₂ at hstores hmatches ⊢
  obtain ⟨r₁, s₁⟩ := r₁
  obtain ⟨r₂, s₂⟩ := r₂
  cases hmatches with
  | fail fault => exact fun _ => ⟨rfl, w', hw, hstores⟩
  | give htu =>
    intro hne
    obtain ⟨heq, w'', hw', hstores'⟩ := runOn hl hb htu call hstores hne
    exact ⟨heq, w'', hw.trans hw', hstores'⟩

/-- The answers of two whole engines, of which the right one may nest `k` levels deeper. -/
theorem answer (hK : K.Lawful e₁ e₂) (hclear : ∀ c, K.Clear c) {k : Nat}
    (hbottom : K.Belows e₁ e₂ none (e₂.below k))
    (hlimit : e₂.config.maxDepth = e₁.config.maxDepth + k) (call : Call) {s s' : Store}
    (h : K.Fetches w (e₁.template call s) (e₂.template call s')) :
    K.Answers w (e₁.answer call s) (e₂.answer call s') := by
  rw [e₁.answer_eq_answerOn, e₂.answer_eq_answerOn, hlimit]
  exact answerOn (levels hK hclear hbottom _) (belows hK hclear hbottom _) call h

end Correspondence

end Stencil
