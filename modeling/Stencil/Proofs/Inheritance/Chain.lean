import Stencil.Proofs.Engine.Reach

/-!
# Chains of programs

A program that does nothing but extend another one by name, and define blocks for it,
**inherits** from that one, and so on up to a last program: its **parents**. The definition
of a block that counts is that of the first program of the chain that has one. A program
**merges** the chain if it has the main part of the last program and of each block the
definition that counts.
-/

namespace Stencil

/-- What a block is in a chain of programs: the definition of the first one that has it. -/
def findBlock (chain : List Program) (name : String) : Option (List Instr) :=
  chain.findSome? fun p => Table.find? name p.blocks

theorem findBlock_append (ps qs : List Program) (name : String) :
    findBlock (ps ++ qs) name = (findBlock ps name).or (findBlock qs name) := by
  rw [findBlock, List.findSome?_append]
  rfl

theorem findBlock_singleton (p : Program) (name : String) :
    findBlock [p] name = Table.find? name p.blocks :=
  List.findSome?_singleton

/-- A block of one of the programs is found in the chain. -/
theorem findBlock_isSome {chain : List Program} {p : Program} {name : String} (hp : p ∈ chain)
    (h : (Table.find? name p.blocks).isSome) : (findBlock chain name).isSome := by
  rw [findBlock, List.findSome?_isSome_iff]
  exact ⟨p, hp, h⟩

/-- A block that is found is one of some program. -/
theorem mem_of_findBlock {chain : List Program} {name : String} {body : List Instr}
    (h : findBlock chain name = some body) :
    ∃ p ∈ chain, Table.find? name p.blocks = some body := by
  obtain ⟨ps, p, qs, rfl, hp, -⟩ := List.findSome?_eq_some_iff.mp h
  exact ⟨p, by simp, hp⟩

/-! ### Inheriting -/

/-- A text or the call of a block, which a parent that renders in its place makes idle. -/
def Instr.IsPassive (i : Instr) : Prop :=
  (∃ s, i = .text s) ∨ ∃ name, i = .callBlock name

/-- The parents of a program, where `find` tells the program under a path. -/
inductive Inherits (find : String → Except Error Program) : Program → List Program → Prop
  | root (p : Program) : Inherits find p []
  | child {p q : Program} {parents : List Program} {v : Value} {rest : List Instr}
    (main : p.main = .extend (.literal v) :: rest) (passive : ∀ i ∈ rest, i.IsPassive)
    (found : find v.display = .ok q) (next : Inherits find q parents) :
    Inherits find p (q :: parents)

/-- A single program for a whole chain. -/
structure Program.Merges (m p : Program) (parents : List Program) : Prop where
  main : m.main = (parents.getLast?.getD p).main
  block : ∀ name, Table.find? name m.blocks = findBlock (p :: parents) name
  macros : m.macros = []

/-! ### Programs without macros and parent blocks -/

/-- Whether an instruction imports macros. -/
def Instr.Imports (i : Instr) : Prop :=
  (∃ x newName, i = .importAs x newName) ∨ ∃ x names, i = .importNames x names

/-- The expression that renders the parent of a block. -/
def Expr.parentCall : Expr :=
  .call (.var "parent") []

/-- A program that neither defines nor imports macros and never calls `parent()`. -/
structure Program.Plain (p : Program) : Prop where
  macros : p.macros = []
  imports : ∀ i, p.Has i → ¬ i.Imports
  parent : ∀ i, p.Has i → ∀ x ∈ i.exprs, x.Every (· ≠ Expr.parentCall)

/-! ### Parents are reached -/

/-- A parent is one of the programs that are reached. -/
theorem Inherits.reaches {e : Engine} {s : Store} {p : Program} {parents : List Program}
    (h : Inherits (e.content s) p parents) : ∀ q ∈ p :: parents, e.Reaches s p q := by
  induction h with
  | root p =>
    intro q hq
    rw [List.mem_singleton.mp hq]
    exact .refl
  | @child p q parents v rest main passive found next ih =>
    have hfirst : e.Reaches s p q := by
      have htemplate : (Instr.extend (.literal v)).template? = some (.literal v) := rfl
      refine .step .refl (.inl ?_) htemplate (e.canName_literal v) found
      simp [main, Instr.partsOf, Instr.parts]
    intro r hr
    rcases List.mem_cons.mp hr with rfl | hr
    · exact .refl
    · exact hfirst.trans (ih r hr)

end Stencil
