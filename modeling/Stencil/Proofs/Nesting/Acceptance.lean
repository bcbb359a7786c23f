import Stencil.Proofs.Nesting.Playing
import Stencil.Proofs.Nesting.Steps

/-!
# What is accepted

`Program.ofPieces` accepts exactly the pieces that spell a tree, and compiles them to the
program of that tree. The two directions meet in the middle of a template, where some tags
are open. Reading the pieces of a tree does there what its **events** do, and leaves the
open tags alone (`Tag.does_of_spelled`). The other way round, what is left to be read is
read to the end only if it **closes** the open tags one after the other, and what stands
between the ends are trees (`Tag.splits_of_readFrom`).
-/

namespace Stencil

namespace Tag

/-- Reading goes on after a piece on the list. -/
theorem readFrom_cons {p : Piece} {s s' : State} (h : Reads p s s') (rest : List Piece) :
    readFrom TagTable.builtins s (p :: rest) = readFrom TagTable.builtins s' rest := by
  rw [readFrom, readPiece_of_reads h]

/-! ### Trees are read -/

/-- Reading some pieces does what some events do, whatever is open and whatever comes
behind them. -/
def Does (ps : List Piece) (es : List Event) : Prop :=
  ∀ (acc : Accumulator) (o : List OpenTag) (rest : List Piece),
    readFrom TagTable.builtins ⟨acc, o⟩ (ps ++ rest) =
      readFrom TagTable.builtins ⟨acc.play es, o⟩ rest

/-- The same for what follows the head of a branch, behind which some others are `done`. -/
def BranchDoes (cond : Expr) (branches : List (Expr × List Node)) (otherwise : List Node)
    (ps : List Piece) : Prop :=
  ∀ (acc : Accumulator) (o : List OpenTag) (done : List (Expr × List Instr)) (rest : List Piece),
    readFrom TagTable.builtins ⟨acc.enterCapture, .branch done cond :: o⟩ (ps ++ rest) =
      readFrom TagTable.builtins
        ⟨acc.play (aside (branchEvents branches) ++ aside (eventsOf otherwise) ++
          [.write none (.branch (done ++ branchBodies branches) (here (eventsOf otherwise)))]), o⟩
        rest

theorem aside_append (es fs : List Event) : aside (es ++ fs) = aside es ++ aside fs :=
  List.filter_append es fs

namespace Does

open Accumulator (play_append play_capture play_into frameOf)

variable {p q r : Piece} {ps qs : List Piece} {es fs : List Event}
variable {body otherwise : List Node}

theorem nil : Does [] [] :=
  fun _ _ _ => rfl

theorem append (h : Does ps es) (h' : Does qs fs) : Does (ps ++ qs) (es ++ fs) := by
  intro acc o rest
  rw [List.append_assoc, h, h', play_append]

/-- The body of a tag that captures it. -/
theorem captured (h : Does ps es) (acc : Accumulator) (o : List OpenTag) (rest : List Piece) :
    readFrom TagTable.builtins ⟨acc.enterCapture, o⟩ (ps ++ rest) =
      readFrom TagTable.builtins ⟨(acc.play (aside es)).enter (.capture (here es)), o⟩ rest := by
  have hbody := h acc.enterCapture o rest
  rwa [show acc.enterCapture = acc.enter (.capture []) from rfl, play_capture,
    List.nil_append] at hbody

/-- The body of a tag that writes it to a segment. -/
theorem inSegment (h : Does ps es) (s : Segment) (acc : Accumulator) (o : List OpenTag)
    (rest : List Piece) :
    readFrom TagTable.builtins ⟨acc.enter (frameOf s), o⟩ (ps ++ rest) =
      readFrom TagTable.builtins
        ⟨(acc.play (es.map (Event.into s))).enter (frameOf s), o⟩ rest := by
  rw [h, play_into]

theorem leaf {i : Instr} (leaf : Leaf p i) : Does [p] (Node.leaf i).events := by
  intro acc o rest
  exact readFrom_cons (.leaf leaf) rest

theorem branch {args : List Token} {cond : Expr} {branches : List (Expr × List Node)}
    (tag : IsTag "if" args p) (expr : Expr.parse args = .ok cond)
    (h : BranchDoes cond branches otherwise ps) :
    Does (p :: ps) (Node.branch branches otherwise).events := by
  intro acc o rest
  rw [List.cons_append, readFrom_cons (.branch tag expr), h, Node.events]
  rfl

theorem loop {args : List Token} {head : LoopHead} (tag : IsTag "for" args p)
    (reads : LoopArgs args head) (inside : Does ps (eventsOf body))
    (closer : IsTag "endfor" [] q) :
    Does (p :: (ps ++ [q])) (Node.loop head body []).events := by
  intro acc o rest
  rw [List.cons_append, List.append_assoc, readFrom_cons (.loop tag reads), inside.captured,
    List.singleton_append, readFrom_cons (.endFor closer), Node.events, play_append, play_append]
  rfl

theorem loopElse {args : List Token} {head : LoopHead} (tag : IsTag "for" args p)
    (reads : LoopArgs args head) (inside : Does ps (eventsOf body)) (turn : IsTag "else" [] q)
    (other : Does qs (eventsOf otherwise)) (closer : IsTag "endfor" [] r) :
    Does (p :: (ps ++ q :: (qs ++ [r]))) (Node.loop head body otherwise).events := by
  intro acc o rest
  rw [List.cons_append, List.append_assoc, readFrom_cons (.loop tag reads), inside.captured,
    List.cons_append, readFrom_cons (.loopElse turn), List.append_assoc, other.captured,
    List.singleton_append, readFrom_cons (.endLoopElse closer), Node.events, play_append,
    play_append]
  rfl

theorem capture {args : List Token} {name : String} (tag : IsTag "set" args p)
    (head : SetArgs args (name, none)) (inside : Does ps (eventsOf body))
    (closer : IsTag "endset" [] q) :
    Does (p :: (ps ++ [q])) (Node.capture name body).events := by
  intro acc o rest
  rw [List.cons_append, List.append_assoc, readFrom_cons (.capture tag head), inside.captured,
    List.singleton_append, readFrom_cons (.endSet closer), Node.events, play_append]
  rfl

theorem valueBlock {n : Token} {name : String} {args : List Token} {e : Expr}
    (tag : IsTag "block" (n :: args) p) (isName : n.isId name) (more : args ≠ [])
    (expr : Expr.parse args = .ok e) : Does [p] (Node.valueBlock name e).events := by
  intro acc o rest
  rw [List.singleton_append, readFrom_cons (.valueBlock tag isName more expr), Node.events]
  rfl

theorem block {n : Token} {name : String} {last : List Token} (tag : IsTag "block" [n] p)
    (isName : n.isId name) (inside : Does ps (eventsOf body)) (closer : IsTag "endblock" last q)
    (again : ClosingArgs name last) : Does (p :: (ps ++ [q])) (Node.block name body).events := by
  intro acc o rest
  have hbody := inside.inSegment (.block name)
    ((acc.write (.callBlock name)).happen (.openBlock name)) (.block name :: o) ([q] ++ rest)
  rw [List.cons_append, List.append_assoc, readFrom_cons (.block tag isName)]
  refine hbody.trans ?_
  rw [List.singleton_append, readFrom_cons (.endBlock closer again), Node.events]
  rfl

theorem macroDef {args : List Token} {name : String} {params : Params} {last : List Token}
    (tag : IsTag "macro" args p) (head : MacroArgs args (name, params))
    (inside : Does ps (eventsOf body)) (closer : IsTag "endmacro" last q)
    (again : ClosingArgs name last) :
    Does (p :: (ps ++ [q])) (Node.macroDef name params body).events := by
  intro acc o rest
  have hbody := inside.inSegment (.macroBody name) (acc.happen (.openMacro name params))
    (.macroBody name :: o) ([q] ++ rest)
  rw [List.cons_append, List.append_assoc, readFrom_cons (.macroDef tag head)]
  refine hbody.trans ?_
  rw [List.singleton_append, readFrom_cons (.endMacro closer again), Node.events]
  rfl

end Does

namespace BranchDoes

open Accumulator (play_append)

variable {q r : Piece} {ps qs : List Piece} {cond : Expr}
variable {body otherwise : List Node}

theorem last (inside : Does ps (eventsOf body)) (closer : IsTag "endif" [] q) :
    BranchDoes cond [(cond, body)] [] (ps ++ [q]) := by
  intro acc o done rest
  rw [List.append_assoc, inside.captured, List.singleton_append, readFrom_cons (.endIf closer),
    play_append, play_append, branchEvents, branchEvents, List.append_nil]
  rfl

theorem orElse (inside : Does ps (eventsOf body)) (turn : IsTag "else" [] q)
    (other : Does qs (eventsOf otherwise)) (closer : IsTag "endif" [] r) :
    BranchDoes cond [(cond, body)] otherwise (ps ++ q :: (qs ++ [r])) := by
  intro acc o done rest
  rw [List.append_assoc, inside.captured, List.cons_append, readFrom_cons (.ifElse turn),
    List.append_assoc, other.captured, List.singleton_append, readFrom_cons (.endElse closer),
    play_append, play_append, branchEvents, branchEvents, List.append_nil]
  rfl

theorem next {next : Expr} {more : List (Expr × List Node)} {args : List Token}
    (inside : Does ps (eventsOf body)) (turn : IsTag "elseif" args q ∨ IsTag "elif" args q)
    (expr : Expr.parse args = .ok next) (rest : BranchDoes next more otherwise qs) :
    BranchDoes cond ((cond, body) :: more) otherwise (ps ++ q :: qs) := by
  intro acc o done tail
  rw [List.append_assoc, inside.captured, List.cons_append, readFrom_cons (.elseIf turn expr),
    rest, branchEvents, branchBodies, aside_append]
  simp only [play_append, List.append_assoc, List.singleton_append]
  rfl

end BranchDoes

/-- **Reading the pieces of a tree does what its events do.** -/
theorem does_of_spelled {ns : List Node} {ps : List Piece} (h : Spelled ns ps) :
    Does ps (eventsOf ns) :=
  @Spelled.rec (fun ns ps _ => Does ps (eventsOf ns)) (fun n ps _ => Does ps n.events)
    (fun cond branches otherwise ps _ => BranchDoes cond branches otherwise ps)
    Does.nil (fun _ _ => Does.append) Does.leaf (fun tag expr _ => Does.branch tag expr)
    (fun tag reads _ closer inside => Does.loop tag reads inside closer)
    (fun tag reads _ turn _ closer inside other =>
      Does.loopElse tag reads inside turn other closer)
    (fun tag head _ closer inside => Does.capture tag head inside closer) Does.valueBlock
    (fun tag isName _ closer again inside => Does.block tag isName inside closer again)
    (fun tag head _ closer again inside => Does.macroDef tag head inside closer again)
    (fun _ closer inside => BranchDoes.last inside closer)
    (fun _ turn _ closer inside other => BranchDoes.orElse inside turn other closer)
    (fun _ turn expr _ inside rest => BranchDoes.next inside turn expr rest) ns ps h

/-! ### What is read is trees -/

/-- Pieces that end an open tag: what is left of its body, and what follows up to its end. -/
inductive Closes : OpenTag → List Piece → Prop
  | branch {done : List (Expr × List Instr)} {cond : Expr} {branches : List (Expr × List Node)}
    {otherwise : List Node} {ps : List Piece} (h : SpelledBranches cond branches otherwise ps) :
    Closes (.branch done cond) ps
  | otherwise {branches : List (Expr × List Instr)} {ns : List Node} {ps : List Piece} {q : Piece}
    (inside : Spelled ns ps) (closer : IsTag "endif" [] q) :
    Closes (.otherwise branches) (ps ++ [q])
  | loop {key : Option String} {value : String} {iterable : Expr} {ns : List Node}
    {ps : List Piece} {q : Piece} (inside : Spelled ns ps) (closer : IsTag "endfor" [] q) :
    Closes (.loop key value iterable) (ps ++ [q])
  | loopTurn {key : Option String} {value : String} {iterable : Expr} {ns ns' : List Node}
    {ps qs : List Piece} {q r : Piece} (inside : Spelled ns ps) (turn : IsTag "else" [] q)
    (other : Spelled ns' qs) (closer : IsTag "endfor" [] r) :
    Closes (.loop key value iterable) (ps ++ q :: (qs ++ [r]))
  | loopElse {key : Option String} {value : String} {iterable : Expr} {body : List Instr}
    {ns : List Node} {ps : List Piece} {q : Piece} (inside : Spelled ns ps)
    (closer : IsTag "endfor" [] q) : Closes (.loopElse key value iterable body) (ps ++ [q])
  | capture {name : String} {ns : List Node} {ps : List Piece} {q : Piece}
    (inside : Spelled ns ps) (closer : IsTag "endset" [] q) : Closes (.capture name) (ps ++ [q])
  | block {name : String} {ns : List Node} {ps : List Piece} {q : Piece} {last : List Token}
    (inside : Spelled ns ps) (closer : IsTag "endblock" last q) (again : ClosingArgs name last) :
    Closes (.block name) (ps ++ [q])
  | macroBody {name : String} {ns : List Node} {ps : List Piece} {q : Piece} {last : List Token}
    (inside : Spelled ns ps) (closer : IsTag "endmacro" last q) (again : ClosingArgs name last) :
    Closes (.macroBody name) (ps ++ [q])

/-- Pieces that end all open tags, innermost first, and what stands between the ends. -/
inductive Splits : List OpenTag → List Piece → Prop
  | root {ns : List Node} {ps : List Piece} (h : Spelled ns ps) : Splits [] ps
  | step {tag : OpenTag} {o : List OpenTag} {ps rest : List Piece} (closes : Closes tag ps)
    (outer : Splits o rest) : Splits (tag :: o) (ps ++ rest)

section Prepend

variable {n : Node} {ps qs : List Piece}

/-- One more node may stand before what ends a branch. -/
theorem SpelledBranches.prepend {cond : Expr} {branches : List (Expr × List Node)}
    {otherwise : List Node} (h : SpelledBranches cond branches otherwise ps)
    (first : SpelledOne n qs) :
    ∃ branches', SpelledBranches cond branches' otherwise (qs ++ ps) := by
  cases h with
  | last inside closer =>
    rw [← List.append_assoc]
    exact ⟨_, .last (.cons first inside) closer⟩
  | orElse inside turn other closer =>
    rw [← List.append_assoc]
    exact ⟨_, .orElse (.cons first inside) turn other closer⟩
  | next inside turn expr rest =>
    rw [← List.append_assoc]
    exact ⟨_, .next (.cons first inside) turn expr rest⟩

/-- One more node may stand before what ends a tag. -/
theorem Closes.prepend {tag : OpenTag} (h : Closes tag ps) (first : SpelledOne n qs) :
    Closes tag (qs ++ ps) := by
  cases h with
  | branch h =>
    obtain ⟨branches', h'⟩ := h.prepend first
    exact .branch h'
  | otherwise inside closer =>
    rw [← List.append_assoc]
    exact .otherwise (.cons first inside) closer
  | loop inside closer =>
    rw [← List.append_assoc]
    exact .loop (.cons first inside) closer
  | loopTurn inside turn other closer =>
    rw [← List.append_assoc]
    exact .loopTurn (.cons first inside) turn other closer
  | loopElse inside closer =>
    rw [← List.append_assoc]
    exact .loopElse (.cons first inside) closer
  | capture inside closer =>
    rw [← List.append_assoc]
    exact .capture (.cons first inside) closer
  | block inside closer again =>
    rw [← List.append_assoc]
    exact .block (.cons first inside) closer again
  | macroBody inside closer again =>
    rw [← List.append_assoc]
    exact .macroBody (.cons first inside) closer again

/-- One more node may stand before what ends all open tags. -/
theorem Splits.prepend {o : List OpenTag} (h : Splits o ps) (first : SpelledOne n qs) :
    Splits o (qs ++ ps) := by
  cases h with
  | root h => exact .root (.cons first h)
  | step closes outer =>
    rw [← List.append_assoc]
    exact .step (closes.prepend first) outer

end Prepend

/-- If what comes behind a piece ends the tags that are open then, the piece and that end
the tags that were open before: a tag that was opened is one more node in the tag around
it. -/
theorem Splits.read {p : Piece} {s s' : State} {rest : List Piece} (hread : Reads p s s')
    (h : Splits s'.opened rest) : Splits s.opened (p :: rest) := by
  cases hread with
  -- a node that stands alone, and a tag that is opened: its end is the first that was found
  | leaf leaf => exact h.prepend (.leaf leaf)
  | branch tag expr =>
    obtain _ | ⟨closes, outer⟩ := h
    cases closes with
    | branch h' => exact outer.prepend (.branch tag expr h')
  -- a turn within a tag: its body so far is empty, the nodes before it are added later
  | elseIf tag expr =>
    obtain _ | ⟨closes, outer⟩ := h
    cases closes with
    | branch h' => exact .step (.branch (.next .nil tag expr h')) outer
  | ifElse tag =>
    obtain _ | ⟨closes, outer⟩ := h
    cases closes with
    | otherwise other closer => exact .step (.branch (.orElse .nil tag other closer)) outer
  | endIf tag => exact .step (.branch (.last .nil tag)) h
  | endElse tag => exact .step (.otherwise .nil tag) h
  | loop tag reads =>
    obtain _ | ⟨closes, outer⟩ := h
    cases closes with
    | loop inside closer => exact outer.prepend (.loop tag reads inside closer)
    | loopTurn inside turn other closer =>
      exact outer.prepend (.loopElse tag reads inside turn other closer)
  | loopElse tag =>
    obtain _ | ⟨closes, outer⟩ := h
    cases closes with
    | loopElse other closer => exact .step (.loopTurn .nil tag other closer) outer
  | endFor tag => exact .step (.loop .nil tag) h
  | endLoopElse tag => exact .step (.loopElse .nil tag) h
  | capture tag head =>
    obtain _ | ⟨closes, outer⟩ := h
    cases closes with
    | capture inside closer => exact outer.prepend (.capture tag head inside closer)
  | endSet tag => exact .step (.capture .nil tag) h
  | valueBlock tag isName more expr => exact h.prepend (.valueBlock tag isName more expr)
  | block tag isName =>
    obtain _ | ⟨closes, outer⟩ := h
    cases closes with
    | block inside closer again => exact outer.prepend (.block tag isName inside closer again)
  | endBlock tag again => exact .step (.block .nil tag again) h
  | macroDef tag head =>
    obtain _ | ⟨closes, outer⟩ := h
    cases closes with
    | macroBody inside closer again => exact outer.prepend (.macroDef tag head inside closer again)
  | endMacro tag again => exact .step (.macroBody .nil tag again) h

/-- **What is read to the end ends the open tags.** -/
theorem splits_of_readFrom {s : State} (native : s.Native) {ps : List Piece} {o : Outcome}
    (h : (readFrom TagTable.builtins s ps).result = .ok o) (hend : o.terminator = none) :
    Splits s.opened ps := by
  induction ps generalizing s with
  | nil =>
    obtain ⟨acc, _ | ⟨tag, opened⟩⟩ := s
    · exact .root .nil
    · cases h
  | cons p rest ih =>
    rw [readFrom] at h
    rcases hpiece : readPiece TagTable.builtins p s with ⟨fault | _ | term, s'⟩
    · rw [hpiece] at h
      cases h
    · rw [hpiece] at h
      have hread := reads_of_readPiece native hpiece
      exact .read hread (ih (hread.native native) h)
    · rw [hpiece] at h
      cases h
      cases hend

end Tag

/-- **Exactly the well-nested templates are accepted**: pieces compile to a program exactly
if they spell a tree, and then to the program of that tree. -/
theorem Program.ofPieces_eq_ok_iff (pieces : List Piece) (p : Program) :
    Program.ofPieces TagTable.builtins pieces = .ok p ↔
      ∃ nodes, Tag.Spelled nodes pieces ∧ p = Tag.program nodes := by
  have hread {nodes : List Tag.Node} (h : Tag.Spelled nodes pieces) :
      Tag.readSequence TagTable.builtins {} pieces =
        ⟨.ok {}, ({} : Accumulator).play (Tag.eventsOf nodes), []⟩ := by
    have hdoes := Tag.does_of_spelled h {} [] []
    rw [List.append_nil] at hdoes
    exact hdoes
  constructor
  · intro h
    rw [ofPieces] at h
    split at h
    next => cases h
    next o ho =>
      split at h
      next => cases h
      next hend =>
        -- nothing is open at first, so what closes the open tags is one tree
        have hnone : (⟨{}, []⟩ : Tag.State).Native := fun _ hmem => absurd hmem List.not_mem_nil
        obtain ⟨hspelled⟩ := Tag.splits_of_readFrom hnone ho hend
        refine ⟨_, hspelled, ?_⟩
        rw [hread hspelled] at h
        cases h
        exact Accumulator.finish_play _
  · rintro ⟨nodes, h, rfl⟩
    rw [ofPieces, hread h, ← Accumulator.finish_play]

end Stencil
