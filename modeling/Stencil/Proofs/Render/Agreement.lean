import Mathlib.Data.List.Forall2
import Stencil.Proofs.Table
import Stencil.Render.Run

/-!
# Instructions that agree

Two lists of instructions **agree** if running does not tell them apart: on each level of each
engine they do the same, whatever instructions come behind them, and loading does not tell them
apart either. What is built from agreeing parts agrees again, be it a condition, a loop, a capture
or a longer list, so a program may be changed deep inside and still agree with the one that it was.

A capture of nothing but a text does what an assignment of this text does
(`Instr.step_capture_text`). Yet the two are not the same instruction, since only one of them is a
**declaration**: behind an `extend` the assignment runs and the capture does not. So lists that end
in them agree if no `extend` stands before them in the same list
(`Instr.ListsAgree.capture_text`), whatever there is around that list.
-/

namespace Stencil

namespace Instr

variable {e : Engine} {b : Below} {i j : Instr} {is js pre : List Instr}

/-! ### Instructions and lists -/

/-- Whether two instructions do the same wherever they stand. -/
structure Agrees (i j : Instr) : Prop where
  step (e : Engine) (b : Below) (d : Action Unit) : step e b d j = step e b d i
  isDeclaration : j.isDeclaration = i.isDeclaration
  handsOver : j.handsOver = i.handsOver

/-- Whether two lists of instructions do the same whatever comes behind them. -/
structure ListsAgree (is js : List Instr) : Prop where
  sequence (e : Engine) (b : Below) (rest : List Instr) :
    sequence e b (js ++ rest) = sequence e b (is ++ rest)
  handsOver : anyHandsOver js = anyHandsOver is

theorem Agrees.refl (i : Instr) : Agrees i i :=
  ⟨fun _ _ _ => rfl, rfl, rfl⟩

theorem ListsAgree.refl (is : List Instr) : ListsAgree is is :=
  ⟨fun _ _ _ => rfl, rfl⟩

/-- Lists that agree do the same with nothing behind them. -/
theorem ListsAgree.sequence_eq (h : ListsAgree is js) (e : Engine) (b : Below) :
    Instr.sequence e b js = Instr.sequence e b is := by
  have hnil := h.sequence e b []
  rwa [List.append_nil, List.append_nil] at hnil

theorem anyHandsOver_append (is js : List Instr) :
    anyHandsOver (is ++ js) = (anyHandsOver is || anyHandsOver js) := by
  induction is with
  | nil => rfl
  | cons i is ih => rw [List.cons_append, anyHandsOver, ih, anyHandsOver, Bool.or_assoc]

/-! ### Longer lists -/

theorem Agrees.declarations (h : Agrees i j) (pre rest : List Instr) :
    Instr.declarations e b (pre ++ j :: rest) = Instr.declarations e b (pre ++ i :: rest) := by
  induction pre with
  | nil =>
    rw [List.nil_append, List.nil_append, Instr.declarations, Instr.declarations, h.isDeclaration,
      h.step]
  | cons k pre ih =>
    rw [List.cons_append, List.cons_append, Instr.declarations, Instr.declarations, ih]

theorem Agrees.sequence (h : Agrees i j) (pre rest : List Instr) :
    Instr.sequence e b (pre ++ j :: rest) = Instr.sequence e b (pre ++ i :: rest) := by
  induction pre with
  | nil => rw [List.nil_append, List.nil_append, Instr.sequence, Instr.sequence, h.step]
  | cons k pre ih =>
    rw [List.cons_append, List.cons_append, Instr.sequence, Instr.sequence, ih, h.declarations]

/-- Agreeing lists with agreeing instructions at their ends. -/
theorem ListsAgree.concat (h : ListsAgree is js) (hij : Agrees i j) :
    ListsAgree (is ++ [i]) (js ++ [j]) where
  sequence e b rest := by
    rw [List.append_assoc, List.append_assoc, h.sequence]
    exact hij.sequence is rest
  handsOver := by
    rw [anyHandsOver_append, anyHandsOver_append, h.handsOver]
    simp only [anyHandsOver, hij.handsOver]

/-! ### Bodies -/

/-- Whether two branches have the same condition and bodies that agree. -/
def BranchesAgree (x y : Expr × List Instr) : Prop :=
  y.1 = x.1 ∧ ListsAgree x.2 y.2

theorem Agrees.branch {xs ys : List (Expr × List Instr)}
    (hbranches : List.Forall₂ BranchesAgree xs ys) (h : ListsAgree is js) :
    Agrees (.branch xs is) (.branch ys js) where
  step e b d := by
    rw [Instr.step, Instr.step, h.sequence_eq]
    induction hbranches with
    | nil => rfl
    | cons hxy _ ih =>
      obtain ⟨hcond, hbody⟩ := hxy
      rw [firstBranch, firstBranch, hcond, hbody.sequence_eq, ih]
  isDeclaration := rfl
  handsOver := by
    have hany : anyBranchHandsOver ys = anyBranchHandsOver xs := by
      induction hbranches with
      | nil => rfl
      | cons hxy _ ih => rw [anyBranchHandsOver, anyBranchHandsOver, hxy.2.handsOver, ih]
    rw [Instr.handsOver, Instr.handsOver, hany, h.handsOver]

theorem Agrees.loop (key : Option String) (value : String) (iterable : Expr)
    {is' js' : List Instr} (hbody : ListsAgree is js) (h : ListsAgree is' js') :
    Agrees (.loop key value iterable is is') (.loop key value iterable js js') where
  step e b d := by rw [Instr.step, Instr.step, hbody.sequence_eq, h.sequence_eq]
  isDeclaration := rfl
  handsOver := by rw [Instr.handsOver, Instr.handsOver, hbody.handsOver, h.handsOver]

theorem Agrees.capture (name : String) (h : ListsAgree is js) :
    Agrees (.capture name is) (.capture name js) where
  step e b d := by rw [Instr.step, Instr.step, h.sequence_eq]
  isDeclaration := rfl
  handsOver := by rw [Instr.handsOver, Instr.handsOver, h.handsOver]

theorem Agrees.transform (t : Transform) (h : ListsAgree is js) :
    Agrees (.transform t is) (.transform t js) where
  step e b d := by rw [Instr.step, Instr.step, h.sequence_eq]
  isDeclaration := rfl
  handsOver := rfl

/-! ### Captures of plain text -/

/-- What a text between tags is compiled to. -/
def ofText (cs : List Char) : List Instr :=
  if cs.isEmpty then [] else [.text (String.ofList cs)]

/-- A capture of a text is an assignment of this text. -/
theorem step_capture_text (e : Engine) (b : Below) (d : Action Unit) (name : String)
    (cs : List Char) :
    Instr.step e b d (.capture name (ofText cs)) =
      Instr.step e b d (.set name (.literal (.str (String.ofList cs)))) := by
  have hcapture : Action.capture (discard (Instr.sequence e b (ofText cs))) =
      (pure (String.ofList cs) : Action String) := by
    funext c
    cases cs with
    | nil => rfl
    | cons x cs =>
      have hwritten : "" ++ String.ofList (x :: cs) = String.ofList (x :: cs) := String.empty_append
      change (Except.ok ("" ++ String.ofList (x :: cs)), c) = _
      rw [hwritten]
      rfl
  rw [Instr.step, Instr.step, hcapture]
  rfl

/-- Only an `extend` asks what is declared behind it. -/
theorem step_congr_declarations (hi : ∀ x, i ≠ .extend x) (d d' : Action Unit) :
    Instr.step e b d i = Instr.step e b d' i := by
  cases i with
  | extend x => exact absurd rfl (hi x)
  | _ => simp only [Instr.step]

/-- **A capture of a text agrees with the assignment** if no `extend` stands before it. -/
theorem ListsAgree.capture_text (h : ∀ x, .extend x ∉ pre) (name : String) (cs : List Char) :
    ListsAgree (pre ++ [.capture name (ofText cs)])
      (pre ++ [.set name (.literal (.str (String.ofList cs)))]) where
  sequence e b rest := by
    induction pre with
    | nil =>
      rw [List.nil_append, List.nil_append, List.singleton_append, List.singleton_append,
        Instr.sequence, Instr.sequence, step_capture_text]
    | cons k pre ih =>
      -- what is declared behind it differs on the two sides, but only an `extend` looks at that
      have hk (x : Expr) : k ≠ .extend x := fun hkx => h x (hkx ▸ List.mem_cons_self ..)
      rw [List.cons_append, List.cons_append, List.cons_append, List.cons_append, Instr.sequence,
        Instr.sequence, ih fun x hx => h x (List.mem_cons_of_mem k hx),
        step_congr_declarations hk]
  handsOver := by
    have hbody : anyHandsOver (ofText cs) = false := by
      rw [ofText]
      split <;> rfl
    rw [anyHandsOver_append, anyHandsOver_append]
    simp [anyHandsOver, Instr.handsOver, hbody]

end Instr

/-! ### Programs -/

/-- Whether two macros have the same parameters and bodies that agree. -/
structure MacroDef.Agrees (m n : MacroDef) : Prop where
  params : n.params = m.params
  body : Instr.ListsAgree m.body n.body

/-- Whether two programs agree instruction by instruction. -/
structure Program.Agrees (p q : Program) : Prop where
  main : Instr.ListsAgree p.main q.main
  blocks : Table.Rel Instr.ListsAgree p.blocks q.blocks
  macros : Table.Rel MacroDef.Agrees p.macros q.macros

theorem Program.Agrees.refl (p : Program) : p.Agrees p :=
  ⟨.refl _, .refl .refl _, .refl (fun m => ⟨rfl, .refl m.body⟩) _⟩

/-- Loading finds the same fault in programs that agree, or none. -/
theorem Program.Agrees.fault? {p q : Program} (h : p.Agrees q) : q.fault? = p.fault? := by
  have hblocks : q.blocks.findSome? blockFault? = p.blocks.findSome? blockFault? := by
    refine h.blocks.findSome? fun name is js his => ?_
    rw [blockFault?, blockFault?, his.handsOver]
  have hmacros : q.macros.findSome? macroFault? = p.macros.findSome? macroFault? := by
    refine h.macros.findSome? fun name m n hm => ?_
    rw [macroFault?, macroFault?, hm.body.handsOver, hm.params]
  rw [Program.fault?, Program.fault?, hblocks, hmacros]

/-! ### Failures -/

/-- Whether two failures have the same cause. The place of a scan error and the listing that comes
with a load error belong to the source, not to the cause. -/
inductive Error.Alike : Error → Error → Prop
  | refl (fault : Error) : Alike fault fault
  | scan (fault : ScanFault) (line column line' column' : Nat) :
    Alike (.scan fault line column) (.scan fault line' column')
  | load (name : String) (fault : LoadFault) (listing listing' : String) :
    Alike (.load name fault listing) (.load name fault listing')

/-- Whether two results are failures with the same cause, or are related. -/
inductive Error.AlikeOr {α : Type} (S : α → α → Prop) : Except Error α → Except Error α → Prop
  | fail {fault fault' : Error} (h : fault.Alike fault') : AlikeOr S (.error fault) (.error fault')
  | give {x y : α} (h : S x y) : AlikeOr S (.ok x) (.ok y)

theorem Error.AlikeOr.refl {α : Type} {S : α → α → Prop} (hS : ∀ x, S x x) (r : Except Error α) :
    AlikeOr S r r := by
  cases r with
  | error fault => exact .fail (.refl fault)
  | ok x => exact .give (hS x)

end Stencil
