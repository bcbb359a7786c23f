import Stencil.Proofs.Engine.Fetching
import Stencil.Proofs.Expr.Grammar
import Stencil.Proofs.Nesting.Agreement
import Stencil.Proofs.Token.Placement

/-!
# The two forms of `set`

A name is set to a text either by a capture, which has the text between two tags, or by an
assignment, which has it as a string literal. An `Occurrence` is a place in a source where the first
form stands, and `Occurrence.assigned` is the source with the second form there.

Scanning the two sources gives the same pieces before the place and behind it, though behind it they
lie at other bytes. Reading these pieces comes to the place in one state, and leaves it with a
capture of the text written or with the assignment of the text. Whether these two agree is told by
what is written already in the innermost body: they do unless there is an `extends` among it
(`Occurrence.Free`).
-/

namespace Stencil

open Scanner

/-! ### Spelling -/

/-- A name as it is spelled. -/
structure Word where
  first : Char
  others : List Char
  begins : Lexeme.isWordStart first = true
  goesOn : others.all Lexeme.isWordChar = true

namespace Word

def chars (n : Word) : List Char := n.first :: n.others

/-- The name as tokens have it. -/
def name (n : Word) : String := String.ofList n.chars

def set : Word := ⟨'s', ['e', 't'], by decide, by decide⟩

def endset : Word := ⟨'e', ['n', 'd', 's', 'e', 't'], by decide, by decide⟩

theorem read (n : Word) (rest : List Char) :
    Lexeme.read n.first (n.others ++ ' ' :: rest) = .ok (Lexeme.plain .identifier n.chars) := by
  have htake : (n.others ++ ' ' :: rest).takeWhile Lexeme.isWordChar = n.others := by
    rw [List.takeWhile_append_of_pos (List.all_eq_true.mp n.goesOn),
      List.takeWhile_cons_of_neg (by decide), List.append_nil]
  rw [Lexeme.read, if_pos n.begins, htake]
  rfl

end Word

section Reads

variable {kind : RegionKind} {tail rest : List Char} {offset : Nat} {ts : List Token}

/-- A name before a blank is one token. -/
theorem Scanner.Reads.word (n : Word)
    (h : Reads kind tail (offset + Text.byteSize n.chars) (' ' :: rest) ts) :
    Reads kind tail offset (n.chars ++ ' ' :: rest) (⟨.identifier, n.name, offset⟩ :: ts) := by
  have hdash : n.first ≠ '-' := by
    intro heq
    have hbegins := n.begins
    rw [heq] at hbegins
    exact absurd hbegins (by decide)
  have hmark : n.first ≠ kind.endMark := by
    intro heq
    have hbegins := n.begins
    rw [heq] at hbegins
    cases kind <;> exact absurd hbegins (by decide)
  have hread : Lexeme.read n.first (n.others ++ ' ' :: rest ++ tail) =
      .ok (Lexeme.plain .identifier n.chars) := by
    rw [List.append_assoc]
    exact n.read (rest ++ tail)
  exact .lexeme (not_closes_cons hdash hmark _) hread rfl h

/-- So is an equals sign. -/
theorem Scanner.Reads.equals (h : Reads kind tail (offset + 1) (' ' :: rest) ts) :
    Reads kind tail offset ('=' :: ' ' :: rest) (⟨.operator, "=", offset⟩ :: ts) := by
  have hopen : ¬ Closes kind ('=' :: ' ' :: rest ++ tail) :=
    not_closes_cons (by decide) (by cases kind <;> decide) _
  exact .lexeme (l := Lexeme.plain .operator ['=']) hopen rfl rfl h

end Reads

/-! ### The place -/

/-- A place in a source where a name is set to a text by a capture. Up to there the source is
regions, each with the text before it, and one more text. -/
structure Occurrence where
  front : Front
  text : List Char
  name : Word
  body : List Char
  after : List Char
  stands : Front.Stands 0 front
  textPlain : NoOpener (text ++ ['{'])
  /-- No delimiter opens a region in the captured text. -/
  bodyPlain : NoOpener (body ++ ['{'])

namespace Occurrence

/-- The source with the capture. -/
def captured (o : Occurrence) : String :=
  String.ofList (Front.raw o.front ++ o.text ++ "\x7b% set ".toList ++ o.name.chars ++
    " %\x7d".toList ++ o.body ++ "\x7b% endset %\x7d".toList ++ o.after)

/-- The source with the assignment instead. -/
def assigned (o : Occurrence) : String :=
  String.ofList (Front.raw o.front ++ o.text ++ "\x7b% set ".toList ++ o.name.chars ++
    " = ".toList ++ Lexeme.literal o.body ++ " %\x7d".toList ++ o.after)

/-! ### Scanning -/

/-- The tag that begins a capture at a byte. -/
def opening (n : Word) (offset : Nat) : Delimited where
  kind := .tag
  opensTrim := false
  inside := ' ' :: (Word.set.chars ++ ' ' :: (n.chars ++ [' ']))
  closesTrim := false
  tokens := [⟨.identifier, "set", offset + 3⟩, ⟨.identifier, n.name, offset + 7⟩]

/-- The tag that ends it. -/
def closing (offset : Nat) : Delimited where
  kind := .tag
  opensTrim := false
  inside := ' ' :: (Word.endset.chars ++ [' '])
  closesTrim := false
  tokens := [⟨.identifier, "endset", offset + 3⟩]

/-- The tag that assigns a text. -/
def assigning (n : Word) (cs : List Char) (offset : Nat) : Delimited where
  kind := .tag
  opensTrim := false
  inside := ' ' :: (Word.set.chars ++ ' ' :: (n.chars ++ ' ' :: '=' :: ' ' ::
    (Lexeme.literal cs ++ [' '])))
  closesTrim := false
  tokens := [⟨.identifier, "set", offset + 3⟩, ⟨.identifier, n.name, offset + 7⟩,
    ⟨.operator, "=", offset + 7 + Text.byteSize n.chars + 1⟩,
    ⟨.string, String.ofList cs, offset + 7 + Text.byteSize n.chars + 3⟩]

theorem isAsciiBlank_space : Text.isAsciiBlank ' ' = true := by decide

theorem stands_opening (n : Word) (offset : Nat) (after : List Char) :
    (opening n offset).Stands offset after where
  opensTrim _ := by simp [opening]
  comment h := by cases h
  reads _ :=
    .blank isAsciiBlank_space (.word Word.set (.blank isAsciiBlank_space
      (.word n (.blank isAsciiBlank_space (.nil _)))))

theorem stands_closing (offset : Nat) (after : List Char) :
    (closing offset).Stands offset after where
  opensTrim _ := by simp [closing]
  comment h := by cases h
  reads _ := .blank isAsciiBlank_space (.word Word.endset (.blank isAsciiBlank_space (.nil _)))

theorem stands_assigning (n : Word) (cs : List Char) (offset : Nat) (after : List Char) :
    (assigning n cs offset).Stands offset after where
  opensTrim _ := by simp [assigning]
  comment h := by cases h
  reads _ :=
    .blank isAsciiBlank_space (.word Word.set (.blank isAsciiBlank_space
      (.word n (.blank isAsciiBlank_space (.equals (.blank isAsciiBlank_space
        (.literal cs (.blank isAsciiBlank_space (.nil _)))))))))

/-- The byte where the place begins. -/
def start (o : Occurrence) : Nat :=
  Text.byteSize (Front.raw o.front ++ o.text)

/-- The byte where the captured text ends. -/
def stop (o : Occurrence) : Nat :=
  Text.byteSize (Front.raw o.front ++ o.text ++ (opening o.name o.start).raw ++ o.body)

/-- The source up to behind the capture. -/
def capturedFront (o : Occurrence) : Front :=
  o.front ++ [(o.text, opening o.name o.start), (o.body, closing o.stop)]

/-- The other source up to behind the assignment. -/
def assignedFront (o : Occurrence) : Front :=
  o.front ++ [(o.text, assigning o.name o.body o.start)]

theorem stands_capturedFront (o : Occurrence) : Front.Stands 0 o.capturedFront := by
  rw [capturedFront, Front.stands_append]
  refine ⟨o.stands, o.textPlain, ?_, o.bodyPlain, ?_, trivial⟩
  · rw [Nat.zero_add, ← Text.byteSize_append]
    exact stands_opening ..
  · rw [Nat.zero_add, ← Text.byteSize_append, ← Text.byteSize_append, ← List.append_assoc]
    exact stands_closing ..

theorem stands_assignedFront (o : Occurrence) : Front.Stands 0 o.assignedFront := by
  rw [assignedFront, Front.stands_append]
  refine ⟨o.stands, o.textPlain, ?_, trivial⟩
  rw [Nat.zero_add, ← Text.byteSize_append]
  exact stands_assigning ..

theorem toList_captured (o : Occurrence) :
    o.captured.toList = Front.raw o.capturedFront ++ o.after := by
  simp [captured, capturedFront, Front.raw_append, Front.raw, Delimited.raw, opening, closing,
    dash, RegionKind.opener, RegionKind.closer, RegionKind.mark, RegionKind.endMark, Word.set,
    Word.endset, Word.chars]

theorem toList_assigned (o : Occurrence) :
    o.assigned.toList = Front.raw o.assignedFront ++ o.after := by
  simp [assigned, assignedFront, Front.raw_append, Front.raw, Delimited.raw, assigning,
    dash, RegionKind.opener, RegionKind.closer, RegionKind.mark, RegionKind.endMark, Word.set,
    Word.chars]

/-- The pieces before the place. -/
def before (o : Occurrence) : List Piece :=
  Front.pieces false o.front ++
    Part.piece (.text (trimmed (Front.trims false o.front) false o.text))

theorem pieces_capturedFront (o : Occurrence) :
    Front.pieces false o.capturedFront = o.before ++
      (.tag (opening o.name o.start).tokens ::
        (Part.piece (.text o.body) ++ [.tag (closing o.stop).tokens])) := by
  simp [capturedFront, Front.pieces_append, Front.pieces, before, Delimited.piece,
    RegionKind.piece, opening, closing, trimmed]

theorem pieces_assignedFront (o : Occurrence) :
    Front.pieces false o.assignedFront =
      o.before ++ [.tag (assigning o.name o.body o.start).tokens] := by
  simp [assignedFront, Front.pieces_append, Front.pieces, before, Delimited.piece,
    RegionKind.piece, assigning]

/-- **The two sources are scanned alike**: behind the place they make the same pieces, or the same
fault. -/
theorem scan_alike (o : Occurrence) :
    Error.AlikeOr (fun ps qs => ∃ more more', List.Forall₂ Piece.Same more more' ∧
        ps = Front.pieces false o.capturedFront ++ more ∧
        qs = Front.pieces false o.assignedFront ++ more')
      (Piece.scan o.captured) (Piece.scan o.assigned) := by
  have hcaptured : Front.trims false o.capturedFront = false := Front.trims_append ..
  have hassigned : Front.trims false o.assignedFront = false := Front.trims_append ..
  rw [Piece.scan, Piece.scan, toList_captured, toList_assigned, o.stands_capturedFront.scan,
    o.stands_assignedFront.scan, hcaptured, hassigned]
  have hafter := pieces_alike false o.after (0 + Text.byteSize (Front.raw o.capturedFront))
    (0 + Text.byteSize (Front.raw o.assignedFront))
  generalize Scanner.pieces false o.after (0 + Text.byteSize (Front.raw o.capturedFront)) = r,
    Scanner.pieces false o.after (0 + Text.byteSize (Front.raw o.assignedFront)) = r' at hafter ⊢
  cases hafter with
  | fail fault offset offset' => exact .fail (.scan fault _ _ _ _)
  | give h => exact .give ⟨_, _, h, rfl, rfl⟩

end Occurrence

/-! ### Compiling in the middle -/

namespace Tag

variable {tags : TagTable}

/-- The state after some pieces, if none of them ends the reading. -/
def stateAfter? (tags : TagTable) (s : State) : List Piece → Option State
  | [] => some s
  | p :: ps =>
    match readPiece tags p s with
    | (.ok none, s) => stateAfter? tags s ps
    | _ => none

theorem stateAfter?_append (s : State) (ps qs : List Piece) :
    stateAfter? tags s (ps ++ qs) =
      (stateAfter? tags s ps).bind fun s => stateAfter? tags s qs := by
  induction ps generalizing s with
  | nil => rfl
  | cons p ps ih =>
    rw [List.cons_append, stateAfter?, stateAfter?]
    rcases readPiece tags p s with ⟨fault | _ | term, s₁⟩
    · rfl
    · exact ih s₁
    · rfl

/-- Pieces that go on leave a state to the reading of what comes behind them. -/
theorem readFrom_append_of_stateAfter? {s s' : State} {ps : List Piece}
    (h : stateAfter? tags s ps = some s') (qs : List Piece) :
    readFrom tags s (ps ++ qs) = readFrom tags s' qs := by
  induction ps generalizing s with
  | nil =>
    cases h
    rfl
  | cons p ps ih =>
    rw [stateAfter?] at h
    rw [List.cons_append, readFrom]
    split at h
    next s₁ hread =>
      rw [hread]
      exact ih h
    next => cases h

/-- Pieces that end the reading end it in the same way whatever comes behind them. -/
theorem result_of_stateAfter?_eq_none {s : State} {ps : List Piece}
    (h : stateAfter? tags s ps = none) :
    (∃ fault, ∀ qs, (readFrom tags s (ps ++ qs)).result = .error fault) ∨
      ∃ term, ∀ qs, ∃ remaining,
        (readFrom tags s (ps ++ qs)).result = .ok ⟨some term, remaining⟩ := by
  induction ps generalizing s with
  | nil => cases h
  | cons p ps ih =>
    rw [stateAfter?] at h
    simp only [List.cons_append, readFrom]
    rcases hread : readPiece tags p s with ⟨fault | _ | term, s₁⟩
    · exact .inl ⟨fault, fun _ => rfl⟩
    · rw [hread] at h
      exact ih h
    · exact .inr ⟨term, fun qs => ⟨!(ps ++ qs).isEmpty, rfl⟩⟩

end Tag

namespace Program

variable {tags : TagTable}

/-- So there is no program then, and the reason is the same. -/
theorem ofPieces_of_stateAfter?_eq_none {ps : List Piece}
    (h : Tag.stateAfter? tags ⟨{}, []⟩ ps = none) :
    ∃ fault, ∀ qs, ofPieces tags (ps ++ qs) = .error fault := by
  simp only [ofPieces, Tag.readSequence]
  obtain ⟨fault, hfault⟩ | ⟨term, hterm⟩ := Tag.result_of_stateAfter?_eq_none h
  · exact ⟨fault, fun qs => by rw [hfault]⟩
  · refine ⟨.tagAtRoot term.tag, fun qs => ?_⟩
    obtain ⟨remaining, hresult⟩ := hterm qs
    rw [hresult]

/-- **Programs agree if their beginnings do** and the rest is the same. -/
theorem ofPieces_agree {s s' : Tag.State} {ps ps' : List Piece}
    (h : Tag.stateAfter? tags ⟨{}, []⟩ ps = some s)
    (h' : Tag.stateAfter? tags ⟨{}, []⟩ ps' = some s') (hs : s.Agrees s') (qs : List Piece) :
    Token.Alike Agrees (ofPieces tags (ps ++ qs)) (ofPieces tags (ps' ++ qs)) := by
  obtain ⟨hresult, hacc⟩ := Tag.readFrom_agrees tags hs qs
  rw [ofPieces, ofPieces, Tag.readSequence, Tag.readSequence,
    Tag.readFrom_append_of_stateAfter? h, Tag.readFrom_append_of_stateAfter? h']
  generalize Tag.readFrom tags s qs = r, Tag.readFrom tags s' qs = r' at hresult hacc ⊢
  obtain ⟨result, acc, rest⟩ := r
  obtain ⟨result', acc', rest'⟩ := r'
  obtain rfl : result' = result := hresult
  rcases result' with fault | ⟨_ | term, remaining⟩
  · exact .fail fault
  · exact .give hacc.finish
  · exact .fail _

end Program

/-! ### Compiling the two forms -/

namespace Occurrence

section Forms

variable {tags : TagTable} (hset : Table.find? "set" tags = some (.builtin .set))

include hset

/-- An assignment of a string literal is written to the innermost place. -/
theorem stateAfter?_assigning (n : Word) (cs : List Char) (offset : Nat) (s : Tag.State) :
    Tag.stateAfter? tags s [.tag (assigning n cs offset).tokens] =
      some ⟨s.acc.write (.set n.name (.literal (.str (String.ofList cs)))), s.opened⟩ := by
  have hparse (place : Nat) : Expr.parse [⟨.string, String.ofList cs, place⟩] =
      .ok (.literal (.str (String.ofList cs))) :=
    ((Expr.Spelled.string (t := ⟨.string, String.ofList cs, place⟩) rfl).mono (by decide)).parse
  have hhead : Tag.setHead (assigning n cs offset).tokens.tail =
      .ok (n.name, some (.literal (.str (String.ofList cs)))) := by
    change (do return (n.name, some (← Expr.parse [⟨.string, String.ofList cs, _⟩]))) = _
    rw [hparse]
    rfl
  have hread : Tag.readPiece tags (.tag (assigning n cs offset).tokens) =
      (do Tag.openBuiltin .set (assigning n cs offset).tokens.tail; return none) := by
    simp only [Tag.readPiece, Tag.readTag, assigning, hset]
    rfl
  rw [Tag.stateAfter?, hread, Tag.openBuiltin, hhead]
  rfl

variable (hendset : Table.find? "endset" tags = some .terminator)

include hendset

/-- A capture of a text is written to the innermost place, too. -/
theorem stateAfter?_capturing (n : Word) (cs : List Char) (offset closer : Nat) (s : Tag.State) :
    Tag.stateAfter? tags s (.tag (opening n offset).tokens ::
        (Part.piece (.text cs) ++ [.tag (closing closer).tokens])) =
      some ⟨s.acc.write (.capture n.name (Instr.ofText cs)), s.opened⟩ := by
  have hopens : Tag.readPiece tags (.tag (opening n offset).tokens) s =
      (.ok none, ⟨s.acc.enterCapture, .capture n.name :: s.opened⟩) := by
    simp only [Tag.readPiece, Tag.readTag, opening, hset]
    rfl
  have hcloses (acc : Accumulator) :
      Tag.readPiece tags (.tag (closing closer).tokens) ⟨acc, .capture n.name :: s.opened⟩ =
        (.ok none, ⟨acc.leave.write (.capture n.name acc.captured), s.opened⟩) := by
    simp only [Tag.readPiece, Tag.readTag, closing, hendset]
    rfl
  rw [Tag.stateAfter?, hopens]
  cases cs with
  | nil =>
    change Tag.stateAfter? tags _ [.tag (closing closer).tokens] = _
    rw [Tag.stateAfter?, hcloses]
    rfl
  | cons c cs =>
    change Tag.stateAfter? tags ⟨s.acc.enterCapture.write (.text (String.ofList (c :: cs))), _⟩
      [.tag (closing closer).tokens] = _
    rw [Tag.stateAfter?, hcloses]
    rfl

end Forms

variable {tags : TagTable}

/-- Whether no `extends` stands before the place in the same body. -/
def Free (tags : TagTable) (o : Occurrence) : Prop :=
  ∀ s, Tag.stateAfter? tags ⟨{}, []⟩ o.before = some s → ∀ parent, .extend parent ∉ s.acc.active

/-- **The two sources are compiled to programs that agree**, or not at all for the same reason. -/
theorem ofPieces_alike (hset : Table.find? "set" tags = some (.builtin .set))
    (hendset : Table.find? "endset" tags = some .terminator) {o : Occurrence} (h : o.Free tags)
    {ps qs : List Piece} (hps : List.Forall₂ Piece.Same ps qs) :
    Token.Alike Program.Agrees (Program.ofPieces tags (Front.pieces false o.capturedFront ++ ps))
      (Program.ofPieces tags (Front.pieces false o.assignedFront ++ qs)) := by
  have hqs : Program.ofPieces tags (Front.pieces false o.assignedFront ++ qs) =
      Program.ofPieces tags (Front.pieces false o.assignedFront ++ ps) := by
    refine Program.ofPieces_eq_of_same tags (List.rel_append ?_ hps)
    exact List.forall₂_same.mpr fun p _ => .refl p
  rw [hqs]
  cases hstate : Tag.stateAfter? tags ⟨{}, []⟩ o.before with
  | none =>
    -- the reading ends before the place
    obtain ⟨fault, hfault⟩ := Program.ofPieces_of_stateAfter?_eq_none hstate
    rw [pieces_capturedFront, pieces_assignedFront, List.append_assoc, List.append_assoc, hfault,
      hfault]
    exact .fail fault
  | some s =>
    have hcaptured : Tag.stateAfter? tags ⟨{}, []⟩ (Front.pieces false o.capturedFront) =
        some ⟨s.acc.write (.capture o.name.name (Instr.ofText o.body)), s.opened⟩ := by
      rw [pieces_capturedFront, Tag.stateAfter?_append, hstate]
      exact stateAfter?_capturing hset hendset ..
    have hassigned : Tag.stateAfter? tags ⟨{}, []⟩ (Front.pieces false o.assignedFront) =
        some ⟨s.acc.write (.set o.name.name (.literal (.str (String.ofList o.body)))),
          s.opened⟩ := by
      rw [pieces_assignedFront, Tag.stateAfter?_append, hstate]
      exact stateAfter?_assigning hset ..
    exact Program.ofPieces_agree hcaptured hassigned {
      acc := Accumulator.agrees_write_of_active (.capture_text (h s hstate) _ _)
      opened := List.forall₂_same.mpr fun tag _ => .same tag } ps

end Occurrence

/-! ### Loading -/

/-- Whether a text is another one with one capture respelled as an assignment. -/
inductive Respelled (tags : TagTable) : String → String → Prop
  | same (text : String) : Respelled tags text text
  | place {o : Occurrence} (h : o.Free tags) : Respelled tags o.captured o.assigned

/-- **Respelled texts have programs that agree**, or none for the same cause. -/
theorem Engine.programOf_respelled (e : Engine)
    (hset : Table.find? "set" e.language.tags = some (.builtin .set))
    (hendset : Table.find? "endset" e.language.tags = some .terminator) {text text' : String}
    (h : Respelled e.language.tags text text') (name : String) :
    Error.AlikeOr Program.Agrees (e.programOf text name) (e.programOf text' name) := by
  cases h with
  | same text => exact .refl Program.Agrees.refl _
  | @place o h =>
    have hscan := o.scan_alike
    simp only [programOf, compile, Draft.compile]
    generalize Piece.scan o.captured = r, Piece.scan o.assigned = r' at hscan
    cases hscan with
    | fail hfault => exact .fail hfault
    | give hpieces =>
      obtain ⟨more, more', hmore, rfl, rfl⟩ := hpieces
      have hprograms := Occurrence.ofPieces_alike hset hendset h hmore
      simp only [bind, Except.bind]
      generalize Program.ofPieces e.language.tags (Front.pieces false o.capturedFront ++ more) = r,
        Program.ofPieces e.language.tags (Front.pieces false o.assignedFront ++ more') = r'
        at hprograms ⊢
      cases hprograms with
      | fail fault => exact .fail (.refl _)
      | @give p q hpq =>
        simp only [pure, Except.pure, Draft.load, hpq.fault?]
        cases p.fault? with
        | none => exact .give hpq
        | some fault => exact .fail (.load name fault _ _)

end Stencil
