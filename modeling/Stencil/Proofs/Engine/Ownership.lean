import Stencil.Proofs.Engine.Tracking
import Stencil.Proofs.Language
import Stencil.Proofs.Nesting.Contents
import Stencil.Proofs.Render.Bookkeeping

/-!
# Owners and their blocks

The call of a block is never in vain, and there are two reasons that belong together. A
compiled program is **closed**: the call of a block and its segment come into it at the same
time, so every block that is called in it, at any depth, is one of its own. And while the
instructions of a template run, that template is the innermost owner. So if no template of the
chain has the block that is called, the owner has it, for the call is one of its instructions.

The second reason is told by tracked runs (`Engine.tracked`), in which nothing may begin that is
not a segment of a template which has just become the innermost owner, above the owners of the
instructions around it.
-/

namespace Stencil

/-- Whether every block that is called in a program is one of its own. -/
def Program.Closed (p : Program) : Prop :=
  p.Every fun i => ∀ name, i = .callBlock name → (Table.find? name p.blocks).isSome

/-- A program obeys the rule about calls if it is closed. -/
theorem Program.obeys_calls_iff {p : Program} : p.Obeys .calls ↔ p.Closed := by
  have hadmits : ∀ {inner i}, Rules.calls.Admits p inner i ↔
      ∀ name, i = .callBlock name → (Table.find? name p.blocks).isSome :=
    ⟨fun h name => h.called trivial, fun h => ⟨fun _ name hi => h name hi, fun hs => hs.elim⟩⟩
  constructor
  · intro h
    exact ⟨fun i hi => hadmits.mp (h.main i hi), fun b hb i hi => hadmits.mp (h.block b hb i hi),
      fun m hm i hi => hadmits.mp (h.body m hm i hi)⟩
  · intro h
    exact ⟨fun i hi => hadmits.mpr (h.main i hi), fun b hb i hi => hadmits.mpr (h.block b hb i hi),
      fun m hm i hi => hadmits.mpr (h.body m hm i hi)⟩

/-- **Every compiled program is closed**, whatever tags the language has. -/
theorem Program.closed_of_ofPieces {tags : TagTable} {pieces : List Piece} {p : Program}
    (h : Program.ofPieces tags pieces = .ok p) : p.Closed := by
  refine Program.every_of_ofPieces h ⟨fun hi name heq => ?_, fun _ _ _ heq => ?_⟩ ?_
  · exact absurd heq (hi.1 name)
  · cases heq
  · rintro name hname _ ⟨⟩
    exact hname

/-- The instructions of a template that run at once. -/
def Template.IsSegment (t : Template) (instrs : List Instr) : Prop :=
  instrs = t.main ∨ (∃ name, t.block? name = some instrs) ∨
    ∃ name d, t.findMacro? name = some d ∧ instrs = d.body

namespace Engine

variable {e : Engine}

theorem closed_of_programOf {text name : String} {program : Program}
    (h : e.programOf text name = .ok program) : program.Closed := by
  obtain ⟨pieces, hprogram, -⟩ := ofPieces_of_programOf h
  exact Program.closed_of_ofPieces hprogram

theorem follows_calls (hl : e.language.SparesBlocks) : e.Follows .calls where
  compiles _ _ _ h := Program.obeys_calls_iff.mpr (closed_of_programOf h)
  raised h _ := hl.raises h
  function hf h _ := hl.function hf _ _ h

/-- Whether a segment of a template begins to run that is the innermost owner, while the others
are those of the instructions around it. -/
def Begins (d c : Context) (instrs : List Instr) : Prop :=
  ∃ t, c.owners = t :: d.owners ∧ t.IsSegment instrs

/-- What is entered is a segment of the new owner. -/
theorem tracks_begins (R : Rules) : Setting.Tracks R Begins := by
  intro d fixed σ' instrs c h hc
  cases h with
  | main => exact ⟨_, hc.owners, .inl rfl⟩
  | block hm _ hbody _ =>
    have howners : c.owners = _ :: d.owners := hc.owners
    exact ⟨_, howners, .inr (.inl ⟨_, hbody⟩)⟩
  | body _ hd _ => exact ⟨_, hc.owners, .inr (.inr ⟨_, _, hd, rfl⟩)⟩

/-- **The call of a block is never in vain.** Every compiled program is closed. If all programs
that a store holds are closed, then no call of a host fails since there is no block of a name, and
they are closed in the store afterwards. Every run of instructions begins with a segment of the
innermost owner, above the owners of those that run around it, for no tracked run fails where the
plain one does not; and it leaves the owners as they were. -/
theorem block_calls_resolve (e : Engine) (hl : e.language.SparesBlocks) :
    (∀ text name program, e.programOf text name = .ok program → program.Closed) ∧
    (∀ call s, s.All Program.Closed →
      (∀ fault, (e.answer call s).1 = .error fault → ¬ fault.IsBlockFault) ∧
        (e.answer call s).2.All Program.Closed) ∧
    (∀ fault call s, e.answerOn (e.tracked Begins fault e.config.maxDepth {})
      (e.trackedBelow Begins fault e.config.maxDepth {}) call s = e.answer call s) ∧
    (∀ n instrs c, ((e.level n).run instrs c).2.owners = c.owners) := by
  refine ⟨fun _ _ _ => closed_of_programOf, fun call s hs => ?_,
    fun fault call s => e.answerOn_tracked (tracks_begins .none) fault call s,
    fun n instrs c => ((e.tidy n).2.run instrs c).owners⟩
  have he := follows_calls hl
  have hobeys : s.All (Program.Obeys .calls) :=
    fun k t ht => Program.obeys_calls_iff.mpr (hs k t ht)
  have hanswers := Setting.answerOn he.compiles (Setting.levels_self he e.config.maxDepth _)
    (Setting.belows_self he e.config.maxDepth _) call hobeys
  rw [← answer_eq_answerOn] at hanswers
  exact ⟨fun fault hfault => hanswers.fail fault hfault trivial,
    fun k t ht => Program.obeys_calls_iff.mp (hanswers.store k t ht)⟩

/-! ### A shout -/

/-- The built-in language with the tag `upper`. -/
def shouting : Engine where
  language := .ofExtensions [.upper, .endUpper]

/-- Renders a block inside a transform. -/
def shout : Call :=
  .renderInline "{% upper %}{% block body %}hello{% endblock %}{% endupper %}" .null

/-- The block is there, though the call of it is captured, and its template is the owner. -/
theorem block_calls_resolve_shout :
    shouting.language.SparesBlocks ∧
      (shouting.answer shout {}).1 = .ok "HELLO" ∧
      (shouting.answer shout {}).2.All Program.Closed ∧
      (shouting.answerOn (shouting.tracked Begins (.render .selfOutside) 64 {})
        (shouting.trackedBelow Begins (.render .selfOutside) 64 {}) shout {}).1 = .ok "HELLO" := by
  have hl : shouting.language.SparesBlocks := .ofExtensions [.upper, .endUpper]
  have hanswer : (shouting.answer shout {}).1 = .ok "HELLO" := by decide +kernel
  obtain ⟨-, hresolve, htracked, -⟩ := block_calls_resolve shouting hl
  refine ⟨hl, hanswer, (hresolve shout {} (Store.all_fresh _ _)).2, ?_⟩
  exact (congrArg Prod.fst (htracked (.render .selfOutside) shout {})).trans hanswer

end Engine

end Stencil
