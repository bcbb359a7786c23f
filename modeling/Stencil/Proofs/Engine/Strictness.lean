import Stencil.Proofs.Engine.Calls
import Stencil.Proofs.Render.Unison

/-!
# Strict engines

A strict engine fails where a name stands for nothing, and any other one goes on with null.
Nothing else in a render asks how strict the engine is, and nothing catches the failure. So
strictness adds failures and changes nothing: as long as no name is found undefined, a strict
engine and a lenient one do the same.

The two run in unison, the strict one on the left, and that a name is undefined is a refusal.
-/

namespace Stencil

/-- Whether something failed since a name stands for nothing. -/
def Error.IsUndefined (fault : Error) : Prop :=
  ∃ path, fault = .render (.undefinedVariable path)

namespace Engine

/-- The same engine, be it strict or not. -/
def withStrict (e : Engine) (strict : Bool) : Engine :=
  { e with config := { e.config with strict } }

@[simp] theorem withStrict_template (e : Engine) (strict : Bool) :
    (e.withStrict strict).template = e.template := by
  funext call
  cases call <;> rfl

/-- The correspondence of a strict run and a lenient one. -/
abbrev leniency : Correspondence {} :=
  .unison {} (fun _ => True) Error.IsUndefined

theorem lawful_leniency (e : Engine) : leniency.Lawful (e.withStrict true) (e.withStrict false) :=
  Correspondence.lawful_unison_of_strict rfl (.inr ⟨rfl, fun path => ⟨path, rfl⟩⟩) rfl
    (fun _ _ _ => trivial) fun _ _ t _ _ => t.program.within_all

theorem belows_leniency (e : Engine) (n : Nat) :
    leniency.Belows (e.withStrict true) (e.withStrict false) ((e.withStrict true).below n)
      ((e.withStrict false).below n) :=
  Correspondence.belows (k := 0) (lawful_leniency e) Correspondence.clear_unison (.bottom rfl) n

theorem levels_leniency (e : Engine) (n : Nat) :
    leniency.Levels ((e.withStrict true).level n) ((e.withStrict false).level n) :=
  Correspondence.levels (k := 0) (lawful_leniency e) Correspondence.clear_unison (.bottom rfl) n

/-- What a lenient run from the same context gives, if the strict one finds no name undefined. -/
theorem result_eq_of_ends {α : Type} {c : Context} {r₁ r₂ : Except Error α × Context}
    (h : leniency.Ends (fun _ => Eq) Correspondence.selfWorld c c r₁ r₂)
    (hdefined : ∀ fault, r₁.1 = .error fault → ¬ fault.IsUndefined) : r₂.1 = r₁.1 := by
  cases h with
  | refuse hrefused => exact absurd hrefused (hdefined _ rfl)
  | fail => rfl
  | give _ _ _ _ _ hxy => exact congrArg Except.ok hxy.symm

/-- **Strictness only adds failures**: whatever a strict engine answers without finding a name
undefined, a lenient one answers as well, and it leaves the same store. So it is with the value
of an expression and with the call of a macro, in every context and on every level. -/
theorem lenient_of_strict (e : Engine) :
    (∀ call s, (∀ fault, ((e.withStrict true).answer call s).1 = .error fault →
        ¬ fault.IsUndefined) →
      (e.withStrict false).answer call s = (e.withStrict true).answer call s) ∧
    (∀ n x c, (∀ fault, (((e.withStrict true).level n).eval x c).1 = .error fault →
        ¬ fault.IsUndefined) →
      (((e.withStrict false).level n).eval x c).1 = (((e.withStrict true).level n).eval x c).1) ∧
    (∀ n t name args c, (∀ fault, (((e.withStrict true).below n).callMacro (e.withStrict true) t
        name args c).1 = .error fault → ¬ fault.IsUndefined) →
      (((e.withStrict false).below n).callMacro (e.withStrict false) t name args c).1 =
        (((e.withStrict true).below n).callMacro (e.withStrict true) t name args c).1) := by
  refine ⟨fun call s hdefined => ?_, fun n x c => ?_, fun n t name args c => ?_⟩
  · have hfetches : leniency.Fetches .empty ((e.withStrict true).template call s)
        ((e.withStrict false).template call s) := by
      rw [withStrict_template, withStrict_template]
      exact Correspondence.fetches_unison (fun _ _ h => h.elim) trivial
        fun t _ => t.program.within_all
    obtain ⟨heq, _, _, hstore, _⟩ := Correspondence.answer (k := 0) (lawful_leniency e)
      Correspondence.clear_unison (.bottom rfl) rfl call hfetches hdefined
    exact Prod.ext heq hstore
  · exact result_eq_of_ends ((levels_leniency e n).eval x.every_all _ c c
      (Correspondence.contexts_self trivial) (Correspondence.clear_unison c))
  · exact result_eq_of_ends (Correspondence.callMacro (belows_leniency e n)
      (w := Correspondence.selfWorld) rfl name args c c (Correspondence.contexts_self trivial)
      (Correspondence.clear_unison c))

/-! ### A greeting -/

/-- Renders a greeting that asks whether there is a name before it writes one. -/
def greeting : Call :=
  .renderInline "{% if name is defined %}hello {{ name }}{% else %}hello{% endif %}" .null

/-- Whether there is a name. -/
def nameDefined : Expr :=
  .test (.var "name") "defined" false

/-- A template whose macro greets by a name, if it is given one. -/
def greeter : Template where
  id := 0
  name := "greeter"
  program := { macros := [("greet", {
    params := [("name", none)]
    body := [.text "hello ", .output (.var "name")] })] }

/-- The greeting, the question in it and the macro are the same to a strict engine and to a
lenient one. -/
theorem lenient_greeting :
    (∀ fault, ((({} : Engine).withStrict true).answer greeting {}).1 = .error fault →
        ¬ fault.IsUndefined) ∧
      (({} : Engine).withStrict false).answer greeting {} =
        (({} : Engine).withStrict true).answer greeting {} ∧
      ((({} : Engine).withStrict true).answer greeting {}).1 = .ok "hello" ∧
      (((({} : Engine).withStrict false).level 0).eval nameDefined {}).1 =
        (((({} : Engine).withStrict true).level 0).eval nameDefined {}).1 ∧
      (((({} : Engine).withStrict false).below 1).callMacro (({} : Engine).withStrict false)
          greeter "greet" [.str "you"] {}).1 =
        (((({} : Engine).withStrict true).below 1).callMacro (({} : Engine).withStrict true)
          greeter "greet" [.str "you"] {}).1 := by
  have hanswer : ((({} : Engine).withStrict true).answer greeting {}).1 = .ok "hello" := by
    decide +kernel
  have heval : (((({} : Engine).withStrict true).level 0).eval nameDefined {}).1 =
      .ok (.bool false) := rfl
  have hgreets : (((({} : Engine).withStrict true).below 1).callMacro
      (({} : Engine).withStrict true) greeter "greet" [.str "you"] {}).1 =
        .ok (.str "hello you") := rfl
  have hdefined : ∀ fault, ((({} : Engine).withStrict true).answer greeting {}).1 = .error fault →
      ¬ fault.IsUndefined := by simp [hanswer]
  obtain ⟨hrender, hvalue, hcall⟩ := lenient_of_strict {}
  exact ⟨hdefined, hrender greeting {} hdefined, hanswer,
    hvalue 0 nameDefined {} (by simp [heval]),
    hcall 1 greeter "greet" [.str "you"] {} (by simp [hgreets])⟩

/-- A greeting that does not ask tells a strict engine from a lenient one. -/
example :
    let hasty := Call.renderInline "hello {{ name }}" .null
    ((({} : Engine).withStrict true).answer hasty {}).1 =
        .error (.render (.undefinedVariable "name")) ∧
      ((({} : Engine).withStrict false).answer hasty {}).1 = .ok "hello " := by
  decide +kernel

end Engine

end Stencil
