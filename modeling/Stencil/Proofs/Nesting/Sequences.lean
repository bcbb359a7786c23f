import Stencil.Proofs.Nesting.Plain

/-!
# Sequences one after the other

The reading of a sequence ends at the first terminator that no open tag waits for, or else at the
end of the pieces. It never looks at what comes behind that. So a reading that ends at a terminator
is the same whatever follows, and one that comes to the end of its pieces can go on with more pieces
as if it began anew (`Tag.readSequence_append`).

The same holds inside a tag. What is open further out does not matter to the pieces of a body, up to
the terminator that ends it: the body is read as a sequence by itself, and then the tag goes on with
that terminator and with what is left (`Tag.readFrom_opened`). This is the reading as a descent, one
sequence for each body, and the stack of open tags is no more than its bookkeeping.
-/

namespace Stencil.Tag

open Step (Plain)

variable {tags : TagTable}

/-- The same state with more tags open on the outside. -/
def State.under (s : State) (u : List OpenTag) : State :=
  ⟨s.acc, s.opened ++ u⟩

/-- A plain step does the same whatever is open on the outside. -/
theorem Step.Plain.under {α : Type} {x : Step α} (h : Plain x) (s : State) (u : List OpenTag) :
    x (s.under u) = ((x s).1, (x s).2.under u) := by
  induction h generalizing s with
  | pure | write | openCapture | openBlock | openMacro | setParams => rfl
  | lift x => cases x <;> rfl
  | @bind α β x f _ _ ih ih' =>
    rw [Step.bind_apply, Step.bind_apply, ih]
    obtain ⟨fault | a, s'⟩ := x s
    · rfl
    · exact ih' a s'
  | valueBlock name args =>
    cases Expr.parse args <;> rfl

/-- The end of a tag does the same whatever is open on the outside. -/
theorem closeTag_under (tag : OpenTag) (term : Terminator) (acc : Accumulator)
    (o u : List OpenTag) :
    closeTag tag term ⟨acc, tag :: (o ++ u)⟩ =
      ((closeTag tag term ⟨acc, tag :: o⟩).1, (closeTag tag term ⟨acc, tag :: o⟩).2.under u) := by
  obtain ⟨f, hclose, hplain⟩ := closeTag_eq_leave_bind tag term
  rw [hclose]
  exact (hplain acc.captured).under ⟨acc.leave, o⟩ u

/-- **A piece is read alike** whatever is open on the outside, and the reading goes on behind it or
fails, unless it is a terminator that no open tag waits for. -/
theorem readPiece_under (tags : TagTable) (p : Piece) (s : State) :
    (∃ term, IsTag term.tag term.args p ∧ Table.find? term.tag tags = some .terminator ∧
      s.opened = [] ∧ readPiece tags p = meetTerminator term) ∨
    ((∀ u, readPiece tags p (s.under u) =
        ((readPiece tags p s).1, (readPiece tags p s).2.under u)) ∧
      ∀ term, (readPiece tags p s).1 ≠ .ok (some term)) := by
  obtain ⟨term, isTag, hfind, hread⟩ | ⟨x, hplain, hread⟩ := readPiece_terminator_or_plain tags p
  · obtain ⟨acc, _ | ⟨tag, o⟩⟩ := s
    · exact .inl ⟨term, isTag, hfind, rfl, hread⟩
    · rw [hread]
      refine .inr ⟨fun u => ?_, fun term' => ?_⟩
      · rw [State.under, List.cons_append, meetTerminator_cons, meetTerminator_cons]
        cases acceptTerminator tag.opener tag.expected (some term) with
        | error fault => rfl
        | ok term => simp only [closeTag_under]
      · rw [meetTerminator_cons]
        cases acceptTerminator tag.opener tag.expected (some term) with
        | error fault => simp
        | ok term =>
          dsimp only
          cases (closeTag tag term ⟨acc, tag :: o⟩).1 <;> simp [Except.map]
  · refine .inr ⟨fun u => ?_, fun term => ?_⟩
    · rw [hread]
      exact (Plain.bind hplain fun _ => .pure _).under s u
    · rw [hread, Step.bind_apply]
      obtain ⟨fault | _, s'⟩ := x s
      · simp
      · exact fun h => by cases h

/-! ### More pieces behind -/

/-- A reading that ends at a terminator stops right behind it. What stands before it is read to the
end by itself, and what comes behind does not matter. -/
theorem readFrom_terminated {s : State} {ps : List Piece} {term : Terminator} {remaining : Bool}
    (h : (readFrom tags s ps).result = .ok ⟨some term, remaining⟩) :
    ∃ front p, ps = front ++ p :: (readFrom tags s ps).rest ∧ IsTag term.tag term.args p ∧
      Table.find? term.tag tags = some .terminator ∧
      remaining = !(readFrom tags s ps).rest.isEmpty ∧
      readFrom tags s front = ⟨.ok {}, (readFrom tags s ps).acc, []⟩ ∧
      ∀ qs, readFrom tags s (ps ++ qs) =
        ⟨.ok ⟨some term, !((readFrom tags s ps).rest ++ qs).isEmpty⟩, (readFrom tags s ps).acc,
          (readFrom tags s ps).rest ++ qs⟩ := by
  induction ps generalizing s with
  | nil =>
    obtain ⟨acc, _ | ⟨tag, o⟩⟩ := s
    · cases h
    · cases h
  | cons p ps ih =>
    obtain ⟨term', isTag, hfind, hopened, hread⟩ | ⟨-, hnone⟩ := readPiece_under tags p s
    · obtain ⟨acc, o⟩ := s
      obtain rfl : o = [] := hopened
      have hmeet : readPiece tags p ⟨acc, []⟩ = (.ok (some term'), ⟨acc, []⟩) := by
        rw [hread]
        rfl
      rw [readFrom, hmeet] at h ⊢
      cases h
      refine ⟨[], p, rfl, isTag, hfind, rfl, rfl, fun qs => ?_⟩
      rw [List.cons_append, readFrom, hmeet]
    · rw [readFrom] at h ⊢
      rcases hread : readPiece tags p s with ⟨fault | _ | term', s'⟩
      · rw [hread] at h
        cases h
      · rw [hread] at h
        obtain ⟨front, q, hps, isTag, hfind, hremaining, hfront, hmore⟩ := ih h
        refine ⟨p :: front, q, congrArg _ hps, isTag, hfind, hremaining, ?_, fun qs => ?_⟩
        · rw [readFrom, hread]
          exact hfront
        · rw [List.cons_append, readFrom, hread]
          exact hmore qs
      · exact absurd (congrArg Prod.fst hread) (hnone term')

/-- A reading that comes to the end of its pieces leaves none, and goes on with more pieces as if it
began anew. -/
theorem readFrom_exhausted {s : State} {ps : List Piece} {remaining : Bool}
    (h : (readFrom tags s ps).result = .ok ⟨none, remaining⟩) :
    (readFrom tags s ps).rest = [] ∧ remaining = false ∧
      ∀ qs, readFrom tags s (ps ++ qs) = readSequence tags (readFrom tags s ps).acc qs := by
  induction ps generalizing s with
  | nil =>
    obtain ⟨acc, _ | ⟨tag, o⟩⟩ := s
    · cases h
      exact ⟨rfl, rfl, fun qs => rfl⟩
    · cases h
  | cons p ps ih =>
    rw [readFrom] at h ⊢
    rcases hread : readPiece tags p s with ⟨fault | _ | term, s'⟩
    · rw [hread] at h
      cases h
    · rw [hread] at h
      obtain ⟨hrest, hremaining, hmore⟩ := ih h
      refine ⟨hrest, hremaining, fun qs => ?_⟩
      rw [List.cons_append, readFrom, hread]
      exact hmore qs
    · rw [hread] at h
      cases h

/-! ### Bodies -/

/-- What becomes of a tag whose body has been read up to a terminator: the tag ends with that
terminator, and the reading goes on behind it. -/
def Reading.closes (r : Reading Terminator) (tags : TagTable) (tag : OpenTag) (u : List OpenTag) :
    Reading Outcome :=
  match r.result with
  | .error fault => ⟨.error fault, r.acc.leaveAll (u.length + 1), r.rest⟩
  | .ok term =>
    match closeTag tag term ⟨r.acc, tag :: u⟩ with
    | (.error fault, s) => ⟨.error fault, s.unwind, r.rest⟩
    | (.ok (), s) => readFrom tags s r.rest

/-- Asks the terminator that a sequence ends with to be one of the expected ones. -/
def Reading.expecting (r : Reading Outcome) (opener : String) (expected : List String) :
    Reading Terminator :=
  { r with result := r.result.bind fun o => acceptTerminator opener expected o.terminator }

theorem unwind_nil (acc : Accumulator) : State.unwind ⟨acc, []⟩ = acc := rfl

theorem unwind_under (s : State) (tag : OpenTag) (u : List OpenTag) :
    (s.under (tag :: u)).unwind = s.unwind.leaveAll (u.length + 1) := by
  simp [State.unwind, State.under, Accumulator.leaveAll, List.drop_drop]

/-- What is open around some pieces waits until they end with a terminator for it. -/
theorem readFrom_under (s : State) (tag : OpenTag) (u : List OpenTag) (ps : List Piece) :
    readFrom tags (s.under (tag :: u)) ps =
      ((readFrom tags s ps).expecting tag.opener tag.expected).closes tags tag u := by
  induction ps generalizing s with
  | nil =>
    obtain ⟨acc, _ | ⟨inner, o⟩⟩ := s
    · rfl
    · have hunwind := unwind_under ⟨acc, inner :: o⟩ tag u
      exact congrArg (Reading.mk (.error (.unclosed inner.opener inner.expected)) · []) hunwind
  | cons p ps ih =>
    obtain ⟨term, -, -, hopened, hread⟩ | ⟨hunder, hnone⟩ := readPiece_under tags p s
    · obtain ⟨acc, o⟩ := s
      obtain rfl : o = [] := hopened
      have hmeet : readPiece tags p ⟨acc, []⟩ = (.ok (some term), ⟨acc, []⟩) := by
        rw [hread]
        rfl
      rw [readFrom, readFrom, hmeet, hread, State.under, List.nil_append, meetTerminator_cons,
        Reading.closes, Reading.expecting]
      dsimp only [Except.bind]
      rw [unwind_nil]
      cases acceptTerminator tag.opener tag.expected (some term) with
      | error fault => rfl
      | ok term =>
        dsimp only
        obtain ⟨fault | _, s⟩ := closeTag tag term ⟨acc, tag :: u⟩ <;> rfl
    · rw [readFrom, readFrom, hunder]
      rcases hread : readPiece tags p s with ⟨fault | _ | term, s'⟩
      · exact congrArg (Reading.mk (.error fault) · ps) (unwind_under s' tag u)
      · exact ih s'
      · exact absurd (congrArg Prod.fst hread) (hnone term)

/-- **A body is read as a sequence by itself**: with a tag open, the pieces up to the terminator
that ends it are read on the same accumulator as if no tag were open, and then the tag ends with
that terminator. -/
theorem readFrom_opened (acc : Accumulator) (tag : OpenTag) (u : List OpenTag) (ps : List Piece) :
    readFrom tags ⟨acc, tag :: u⟩ ps =
      (readUntil tags acc ps tag.opener tag.expected).closes tags tag u :=
  readFrom_under ⟨acc, []⟩ tag u ps

/-! ### Sequences -/

/-- **The reading takes its own pieces and no more.** If it ends at a terminator, the pieces that
are left stand right behind the tag of that terminator, and with more pieces behind them it ends
there again, with these pieces left too; what stands before that tag is read to the end by itself.
If it ends without one, no piece is left, and with more pieces it goes on as a new reading of these.
With a tag open it reads the body of that tag as a sequence first. -/
theorem readSequence_append (tags : TagTable) (acc : Accumulator) (ps qs : List Piece) :
    let r := readSequence tags acc ps
    (∀ term remaining, r.result = .ok ⟨some term, remaining⟩ →
      (∃ front p, ps = front ++ p :: r.rest ∧ IsTag term.tag term.args p ∧
        Table.find? term.tag tags = some .terminator ∧
        readSequence tags acc front = ⟨.ok {}, r.acc, []⟩) ∧
      remaining = !r.rest.isEmpty ∧
      readSequence tags acc (ps ++ qs) =
        ⟨.ok ⟨some term, !(r.rest ++ qs).isEmpty⟩, r.acc, r.rest ++ qs⟩) ∧
    (∀ remaining, r.result = .ok ⟨none, remaining⟩ →
      r.rest = [] ∧ remaining = false ∧
      readSequence tags acc (ps ++ qs) = readSequence tags r.acc qs) ∧
    (∀ tag u, readFrom tags ⟨acc, tag :: u⟩ ps =
      (readUntil tags acc ps tag.opener tag.expected).closes tags tag u) := by
  intro r
  refine ⟨fun term remaining h => ?_, fun remaining h => ?_,
    fun tag u => readFrom_opened acc tag u ps⟩
  · obtain ⟨front, p, hps, isTag, hfind, hremaining, hfront, hmore⟩ := readFrom_terminated h
    exact ⟨⟨front, p, hps, isTag, hfind, hfront⟩, hremaining, hmore qs⟩
  · obtain ⟨hrest, hremaining, hmore⟩ := readFrom_exhausted h
    exact ⟨hrest, hremaining, hmore qs⟩

/-- With no tag open, an `endif` ends the reading and leaves the text behind it. -/
example (offset : Nat) :
    readSequence TagTable.builtins {}
        [.text "a", .tag [⟨.identifier, "endif", offset⟩], .text "b"] =
      ⟨.ok ⟨some ⟨"endif", []⟩, true⟩, { main := [.text "a"] }, [.text "b"]⟩ :=
  rfl

end Stencil.Tag
