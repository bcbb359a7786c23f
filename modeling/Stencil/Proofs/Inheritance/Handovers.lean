import Stencil.Proofs.Inheritance.Chain
import Stencil.Proofs.Nesting.Contents
import Stencil.Proofs.Render.Keeping

/-!
# Who hands over

Only the main part of a template hands the rendering over to a parent, and so only a main part
adds to a chain: the call of a block, the call of a macro and the value of an expression leave
the chain as it was. What is included on the way may extend as it likes, for it does so in a
chain of its own.

This rests on the check at loading, which looks into every instruction that holds others except
transforms. So it is proved for programs without these, and a language whose tags are the
built-in ones compiles to no others.
-/

namespace Stencil

/-- An instruction that is not from an extension. -/
def Instr.Native (i : Instr) : Prop :=
  ∀ t body, i ≠ .transform t body

/-! ### What the check finds -/

mutual

theorem Instr.ne_extend_of_handsOver :
    ∀ i : Instr, i.handsOver = false → (∀ j ∈ i.parts, j.Native) → ∀ j ∈ i.parts, ∀ x, j ≠ .extend x
  | .branch branches otherwise, h, hnative, j, hj => by
    simp only [Instr.handsOver, Bool.or_eq_false_iff] at h
    simp only [Instr.parts, List.mem_cons, List.mem_append] at hj hnative
    rcases hj with rfl | hj | hj
    · exact fun _ hx => by cases hx
    · exact ne_extend_of_anyBranch branches h.1 (fun k hk => hnative k (.inr (.inl hk))) j hj
    · exact ne_extend_of_any otherwise h.2 (fun k hk => hnative k (.inr (.inr hk))) j hj
  | .loop key value iterable body otherwise, h, hnative, j, hj => by
    simp only [Instr.handsOver, Bool.or_eq_false_iff] at h
    simp only [Instr.parts, List.mem_cons, List.mem_append] at hj hnative
    rcases hj with rfl | hj | hj
    · exact fun _ hx => by cases hx
    · exact ne_extend_of_any body h.1 (fun k hk => hnative k (.inr (.inl hk))) j hj
    · exact ne_extend_of_any otherwise h.2 (fun k hk => hnative k (.inr (.inr hk))) j hj
  | .capture name body, h, hnative, j, hj => by
    simp only [Instr.parts, List.mem_cons] at hj hnative
    rcases hj with rfl | hj
    · exact fun _ hx => by cases hx
    · exact ne_extend_of_any body h (fun k hk => hnative k (.inr hk)) j hj
  -- the one instruction that the check does not look into
  | .transform t body, _, hnative, _, _ => absurd rfl (hnative _ (Instr.mem_parts_self _) t body)
  | .extend parent, h, _, _, _ => by cases h
  | .text s, _, _, j, hj => by simp_all [Instr.parts]
  | .output e, _, _, j, hj => by simp_all [Instr.parts]
  | .set name value, _, _, j, hj => by simp_all [Instr.parts]
  | .callBlock name, _, _, j, hj => by simp_all [Instr.parts]
  | .embed template vars only ignoreMissing, _, _, j, hj => by simp_all [Instr.parts]
  | .importAs template newName, _, _, j, hj => by simp_all [Instr.parts]
  | .importNames template names, _, _, j, hj => by simp_all [Instr.parts]

theorem ne_extend_of_any :
    ∀ is : List Instr, anyHandsOver is = false → (∀ j ∈ Instr.partsOf is, j.Native) →
      ∀ j ∈ Instr.partsOf is, ∀ x, j ≠ .extend x
  | [], _, _, j, hj => by cases hj
  | i :: is, h, hnative, j, hj => by
    simp only [anyHandsOver, Bool.or_eq_false_iff] at h
    simp only [Instr.partsOf, List.mem_append] at hj hnative
    rcases hj with hj | hj
    · exact Instr.ne_extend_of_handsOver i h.1 (fun k hk => hnative k (.inl hk)) j hj
    · exact ne_extend_of_any is h.2 (fun k hk => hnative k (.inr hk)) j hj

theorem ne_extend_of_anyBranch :
    ∀ bs : List (Expr × List Instr), anyBranchHandsOver bs = false →
      (∀ j ∈ Instr.branchParts bs, j.Native) → ∀ j ∈ Instr.branchParts bs, ∀ x, j ≠ .extend x
  | [], _, _, j, hj => by cases hj
  | (_, body) :: bs, h, hnative, j, hj => by
    simp only [anyBranchHandsOver, Bool.or_eq_false_iff] at h
    simp only [Instr.branchParts, List.mem_append] at hj hnative
    rcases hj with hj | hj
    · exact ne_extend_of_any body h.1 (fun k hk => hnative k (.inl hk)) j hj
    · exact ne_extend_of_anyBranch bs h.2 (fun k hk => hnative k (.inr hk)) j hj

end

/-- Blocks and macros do not hand over in a program that nothing is wrong with. -/
theorem Program.obeys_handovers {p : Program} (hfault : p.fault? = none)
    (hnative : p.Every Instr.Native) : p.Obeys .handovers := by
  have hadmits : ∀ {is}, anyHandsOver is = false → (∀ j ∈ Instr.partsOf is, j.Native) →
      ∀ i ∈ Instr.partsOf is, Rules.handovers.Admits p True i :=
    fun hno his i hi => ⟨fun h => h.elim, fun _ _ => ne_extend_of_any _ hno his i hi⟩
  rw [Program.fault?] at hfault
  split at hfault
  next => cases hfault
  next hblocks =>
    rw [List.findSome?_eq_none_iff] at hblocks hfault
    refine ⟨fun i _ => ⟨fun h => h.elim, fun _ hinner => hinner.elim⟩, fun b hb => ?_,
      fun m hm => ?_⟩
    · refine hadmits ?_ (hnative.block b hb)
      simpa [blockFault?] using hblocks b hb
    · refine hadmits ?_ (hnative.body m hm)
      by_contra hyes
      have hbody := hfault m hm
      rw [macroFault?, if_pos (by simpa using hyes)] at hbody
      cases hbody

/-! ### Loaded templates -/

/-- Whether a template was loaded from a program without transforms. -/
def Template.Loaded (t : Template) : Prop :=
  ∃ d : Draft, d.load t.id = .ok t ∧ d.program.Every Instr.Native

theorem Template.Loaded.obeys {t : Template} (h : t.Loaded) : t.program.Obeys .handovers := by
  obtain ⟨d, hload, hnative⟩ := h
  rw [Draft.load] at hload
  split at hload
  next => cases hload
  next hfault =>
    have hprogram : d.program = t.program := congrArg Template.program (Except.ok.inj hload)
    exact hprogram ▸ Program.obeys_handovers hfault hnative

/-- The built-in tags stand for no transforms. -/
theorem brings_native : TagTable.builtins.Brings Instr.Native where
  ordinary h := h.2
  transform h := (Tag.builtin_or_terminator h).elim

/-- An engine with the built-in tags compiles to no program whose blocks or macros hand over. -/
theorem Engine.follows_handovers {e : Engine} (htags : e.language.tags = TagTable.builtins) :
    e.Follows .handovers where
  compiles text name program h := by
    obtain ⟨pieces, hprogram, hfault⟩ := ofPieces_of_programOf h
    rw [htags] at hprogram
    refine Program.obeys_handovers hfault (Program.every_of_ofPieces hprogram brings_native ?_)
    exact fun _ _ _ _ hi => by cases hi
  raised _ hclosed := hclosed.elim
  function _ _ hclosed := hclosed.elim

/-! ### Chains -/

namespace Setting

variable {e : Engine} {σ : Setting}

/-- A block that is called by itself, whether or not a context would provide it. -/
theorem callBlock_self (he : e.Follows .handovers) (n : Nat) {t : Template}
    (ht : t.program.Obeys .handovers) (name : String) :
    (σ.pairing .handovers).rel Eq ((e.below n).callBlock e t name)
      ((e.below n).callBlock e t name) := by
  intro c hc
  refine hc.rebase (fun _ => trivial) ?_
  rw [Below.callBlock]
  cases hbody : t.block? name with
  | none => exact fail fun hclosed => hclosed.elim
  | some body =>
    cases n with
    | zero => exact fail fun hclosed => hclosed.elim
    | succ n =>
      refine deeper (withBlock t name (withOwner ht (run_self he n ?_)))
      exact covers_of_admits rfl (fun _ => trivial) (ht.block _ (Table.mem_of_find? hbody))

/-- What keeps a setting with a fixed chain keeps the chain. -/
theorem chain_eq {α : Type} {a : Action α} {c : Context}
    (hc : c.Knows fun t => t.program.Obeys .handovers)
    (h : ∀ σ : Setting, (σ.pairing .handovers).rel Eq a a) : (a c).2.chain = c.chain := by
  have hends := h (.of c True) c (holds_of hc True)
  generalize a c = r at hends
  cases hends with
  | fail _ hc' => exact hc'.chain trivial trivial
  | give _ hc' => exact hc'.chain trivial trivial

end Setting

/-- **Only a main part adds to the chain**: where all templates were loaded, and the tags are the
built-in ones, the call of any block, the call of any macro and the value of any expression leave
the chain as it was, on every level and with every outcome. -/
theorem Engine.chain_unchanged (e : Engine) (htags : e.language.tags = TagTable.builtins)
    (n : Nat) (c : Context) (hc : c.Knows Template.Loaded) :
    (∀ t name, t.Loaded → ((e.below n).callBlock e t name c).2.chain = c.chain) ∧
    (∀ t name args, t.Loaded → ((e.below n).callMacro e t name args c).2.chain = c.chain) ∧
    (∀ x, ((e.level n).eval x c).2.chain = c.chain) := by
  have he := Engine.follows_handovers htags
  have hknows := hc.mono fun t => Template.Loaded.obeys
  refine ⟨fun t name ht => ?_, fun t name args ht => ?_, fun x => ?_⟩
  · exact Setting.chain_eq hknows fun σ => Setting.callBlock_self he n ht.obeys name
  · exact Setting.chain_eq hknows fun σ =>
      Setting.callMacro (Setting.belows_self he n σ) ht.obeys name args
  · exact Setting.chain_eq hknows fun σ => (Setting.levels_self he n σ).eval x

/-! ### A letter -/

/-- A letter with a block. -/
def plainLetter : Template where
  id := 0
  name := "letter"
  program := { main := [.callBlock "body"], blocks := [("body", [.text "dear you"])] }

/-- A letter that extends it, and adds to the block an included note. -/
def longLetter : Template where
  id := 1
  name := "long"
  program := {
    main := [.extend (.var "letter")]
    blocks := [("body", [.output Expr.parentCall, .embed (.var "note") none false false])]
    macros := [("sign", { body := [.text "me"] })] }

/-- A rendering of the long letter. The note extends a template of its own. -/
def letterContext : Context where
  store := { source := .ofTemplates [("note", "{% extends paper %}"), ("paper", ", see you")] }
  scope := Scope.ofValue (.map [("note", .str "note"), ("paper", .str "paper")])
  chain := [longLetter, plainLetter]
  owners := [longLetter]

theorem loaded_plainLetter : plainLetter.Loaded := by
  refine ⟨⟨"letter", plainLetter.program⟩, rfl, ?_⟩
  constructor <;> simp [plainLetter, Instr.partsOf, Instr.parts, Instr.Native]

theorem loaded_longLetter : longLetter.Loaded := by
  refine ⟨⟨"long", longLetter.program⟩, rfl, ?_⟩
  constructor <;> simp [longLetter, Instr.partsOf, Instr.parts, Instr.Native]

theorem knows_letterContext : letterContext.Knows Template.Loaded where
  store k t ht := by cases k <;> cases ht
  chain := by simp [letterContext, loaded_longLetter, loaded_plainLetter]
  owners := by simp [letterContext, loaded_longLetter]
  imports _ _ ht := by cases ht
  importedMacros _ _ hm := by cases hm

/-- The block of the long letter and its macro leave the chain, and so does a call of the macro
from an expression. -/
theorem chain_unchanged_longLetter :
    let e : Engine := {}
    e.language.tags = TagTable.builtins ∧ letterContext.Knows Template.Loaded ∧
      longLetter.Loaded ∧
      ((e.below 3).callBlock e longLetter "body" letterContext).2.chain =
        [longLetter, plainLetter] ∧
      ((e.below 3).callBlock e longLetter "body" letterContext).2.output =
        "dear you, see you" ∧
      ((e.below 3).callMacro e longLetter "sign" [] letterContext).2.chain =
        [longLetter, plainLetter] ∧
      ((e.level 3).eval (.call (.var "sign") []) letterContext).2.chain =
        [longLetter, plainLetter] := by
  obtain ⟨hblock, hbody, hvalue⟩ :=
    Engine.chain_unchanged {} rfl 3 letterContext knows_letterContext
  exact ⟨rfl, knows_letterContext, loaded_longLetter, hblock longLetter "body" loaded_longLetter,
    by decide +kernel, hbody longLetter "sign" [] loaded_longLetter,
    hvalue (.call (.var "sign") [])⟩

end Stencil
