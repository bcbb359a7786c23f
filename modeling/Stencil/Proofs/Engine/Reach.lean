import Stencil.Engine.Render
import Stencil.Proofs.Engine.Fetching
import Stencil.Proofs.Render.Parts

/-!
# What a template can reach

While a template is rendered, others are fetched: those that its instructions **name**.
The name is the value of an expression and may depend on the context, so a program
**reaches** every program that one of its expressions can name in some context, and those
that these reach in turn.
-/

namespace Stencil

/-- The same engine with another limit to the depth of nesting. -/
def Engine.withLimit (e : Engine) (limit : Nat) : Engine :=
  { e with config := { e.config with maxDepth := limit } }

@[simp] theorem Engine.withLimit_language (e : Engine) (limit : Nat) :
    (e.withLimit limit).language = e.language := rfl

@[simp] theorem Engine.withLimit_strict (e : Engine) (limit : Nat) :
    (e.withLimit limit).config.strict = e.config.strict := rfl

@[simp] theorem Engine.withLimit_maxDepth (e : Engine) (limit : Nat) :
    (e.withLimit limit).config.maxDepth = limit := rfl

/-- The limit is of no account when a template is fetched. -/
@[simp] theorem Engine.withLimit_fetch (e : Engine) (limit : Nat) :
    (e.withLimit limit).fetch = e.fetch := rfl

/-- Whether an instruction stands in the main part of a program or in a block. -/
def Program.Has (p : Program) (i : Instr) : Prop :=
  i ∈ Instr.partsOf p.main ∨ ∃ b ∈ p.blocks, i ∈ Instr.partsOf b.2

namespace Engine

/-- Whether the value of an expression may be the name of a path: on some level, under some
limit and in some context it is. -/
def CanName (e : Engine) (x : Expr) (path : String) : Prop :=
  ∃ limit n c v c',
    x.eval (e.withLimit limit) ((e.withLimit limit).below n) c = (.ok v, c') ∧ v.display = path

/-- The programs that a program reaches, given what a store holds. -/
inductive Reaches (e : Engine) (s : Store) (p : Program) : Program → Prop
  | refl : Reaches e s p p
  | step {q r : Program} {i : Instr} {x : Expr} {path : String} (h : Reaches e s p q)
    (has : q.Has i) (template : i.template? = some x) (name : e.CanName x path)
    (found : e.content s path = .ok r) : Reaches e s p r

/-- What a reached program reaches is reached. -/
theorem Reaches.trans {e : Engine} {s : Store} {p q r : Program} (h : e.Reaches s p q)
    (h' : e.Reaches s q r) : e.Reaches s p r := by
  induction h' with
  | refl => exact h
  | step _ has template name found ih => exact .step ih has template name found

/-- A literal names its text. -/
theorem canName_literal (e : Engine) (v : Value) : e.CanName (.literal v) v.display :=
  ⟨0, 0, {}, v, {}, rfl, rfl⟩

/-- A literal names nothing else. -/
theorem CanName.eq_of_literal {e : Engine} {v : Value} {path : String}
    (h : e.CanName (.literal v) path) : path = v.display := by
  obtain ⟨limit, n, c, w, c', heval, rfl⟩ := h
  cases heval
  rfl

end Engine

end Stencil
