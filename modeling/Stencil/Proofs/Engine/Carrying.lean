import Stencil.Engine.Render
import Stencil.Proofs.Engine.Slots
import Stencil.Proofs.Expr.Grammar
import Stencil.Proofs.Token.Quoting

/-!
# Texts carried by templates

A template can carry any text to its output. The parts without an opening brace may stand as they
are, and any part may stand as a string literal in an output region. Here the text is followed on
its way: the source is divided into regions and the texts between them (`Segment.divided`), where
texts that stand side by side become one; the pieces are compiled to instructions that each write
one of these texts (`Writes`); and these run in any scope, since nothing in them is looked up.

An engine may take the template of the source from its cache. It need not have compiled it itself,
but some engine has; which one it was, and which tags it knew, is of no account.
-/

namespace Stencil

open Scanner

/-! ### Spelling -/

/-- A part of a text, as it stands in the source that carries it. -/
inductive Segment where
  | plain (cs : List Char) (noBrace : '{' ∉ cs)
  | quoted (cs : List Char)

namespace Segment

/-- The part as it is spelled. -/
def spelled : Segment → List Char
  | .plain cs _ => cs
  | .quoted cs => ['{', '{', ' '] ++ Lexeme.literal cs ++ [' ', '}', '}']

/-- The part as it is meant. -/
def meant : Segment → List Char
  | .plain cs _ => cs
  | .quoted cs => cs

/-- The source that carries a text in these parts. -/
def source (parts : List Segment) : String :=
  String.ofList (parts.flatMap spelled)

/-- The text that is carried. -/
def text (parts : List Segment) : String :=
  String.ofList (parts.flatMap meant)

/-! ### Scanning -/

/-- The region of a quoted part that begins at a byte. -/
def region (offset : Nat) (cs : List Char) : Delimited where
  kind := .output
  opensTrim := false
  inside := ' ' :: (Lexeme.literal cs ++ [' '])
  closesTrim := false
  tokens := [⟨.string, String.ofList cs, offset + 3⟩]

theorem raw_region (offset : Nat) (cs : List Char) :
    (region offset cs).raw = (quoted cs).spelled := by
  simp [region, Delimited.raw, spelled, dash, RegionKind.opener, RegionKind.closer,
    RegionKind.mark, RegionKind.endMark]

theorem stands_region (offset : Nat) (cs after : List Char) :
    (region offset cs).Stands offset after where
  opensTrim _ := by simp [region]
  comment h := by cases h
  reads _ := by
    have hblank : Text.isAsciiBlank ' ' = true := by decide
    exact .blank hblank (.literal cs (.blank hblank (.nil _)))

/-- How the source is divided, from a byte on and with some text before it that no region has
ended yet. -/
def divided (offset : Nat) (before : List Char) : List Segment → Division
  | [] => .last before
  | .plain cs _ :: parts => divided offset (before ++ cs) parts
  | .quoted cs :: parts =>
    .region before (region (offset + Text.byteSize before) cs)
      (divided (offset + Text.byteSize (before ++ (quoted cs).spelled)) [] parts)

theorem raw_divided (offset : Nat) (before : List Char) (parts : List Segment) :
    (divided offset before parts).raw = before ++ parts.flatMap spelled := by
  induction parts generalizing offset before with
  | nil => simp [divided, Division.raw]
  | cons part parts ih =>
    cases part with
    | plain cs _ => simp [divided, ih, spelled]
    | quoted cs => simp [divided, Division.raw, raw_region, ih]

theorem noOpener_of_notMem {cs : List Char} (h : '{' ∉ cs) : NoOpener (cs ++ ['{']) := by
  induction cs with
  | nil => exact noOpener_of_length (by simp)
  | cons c cs ih =>
    obtain ⟨hc, hcs⟩ := not_or.mp (List.mem_cons.not.mp h)
    have htail := ih hcs
    obtain ⟨d, more, hmore⟩ : ∃ d more, cs ++ ['{'] = d :: more := by
      cases cs <;> exact ⟨_, _, rfl⟩
    rw [List.cons_append, hmore, noOpener_cons, if_neg (Ne.symm hc), ← hmore]
    exact ⟨rfl, htail⟩

theorem stands_divided {offset : Nat} {before : List Char} (h : '{' ∉ before)
    (parts : List Segment) : (divided offset before parts).Stands offset := by
  induction parts generalizing offset before with
  | nil =>
    exact fun kind hkind =>
      noOpener_of_notMem h kind (hkind.trans (List.prefix_append _ _).isInfix)
  | cons part parts ih =>
    cases part with
    | plain cs hcs => exact ih fun hmem => (List.mem_append.mp hmem).elim h hcs
    | quoted cs =>
      refine ⟨noOpener_of_notMem h, stands_region _ _ _, ?_⟩
      rw [raw_region]
      exact ih List.not_mem_nil

end Segment

/-! ### Compiling and running -/

/-- Pieces without names and tags are compiled to instructions that write this text. -/
inductive Writes : List Piece → List Instr → String → Prop
  | nil : Writes [] [] ""
  | text {ps : List Piece} {is : List Instr} {out : String} (s : String) (h : Writes ps is out) :
    Writes (.text s :: ps) (.text s :: is) (s ++ out)
  | literal {t : Token} {ps : List Piece} {is : List Instr} {out : String}
    (ht : t.kind = .string) (h : Writes ps is out) :
    Writes (.output [t] :: ps) (.output (.literal (.str t.text)) :: is) (t.text ++ out)

namespace Writes

variable {ps : List Piece} {is : List Instr} {out : String}

/-- Text of no length is no piece. -/
theorem textPart (h : Writes ps is out) (cs : List Char) :
    ∃ is', Writes (Part.piece (.text cs) ++ ps) is' (String.ofList cs ++ out) := by
  cases cs with
  | nil => exact ⟨is, by simpa [Part.piece] using h⟩
  | cons c cs => exact ⟨_, .text _ h⟩

/-- The pieces of a carrier write the text that it carries. -/
theorem divided (offset : Nat) (before : List Char) (parts : List Segment) :
    ∃ is, Writes (((Segment.divided offset before parts).parts false).flatMap Part.piece) is
      (String.ofList (before ++ parts.flatMap Segment.meant)) := by
  induction parts generalizing offset before with
  | nil =>
    obtain ⟨is, h⟩ := Writes.nil.textPart before
    exact ⟨is, by simpa [Segment.divided, Division.parts, trimmed] using h⟩
  | cons part parts ih =>
    cases part with
    | plain cs _ => simpa [Segment.divided, Segment.meant] using ih offset (before ++ cs)
    | quoted cs =>
      obtain ⟨is, h⟩ := ih (offset + Text.byteSize (before ++ (Segment.quoted cs).spelled)) []
      have hregion := Writes.literal
        (t := ⟨.string, String.ofList cs, offset + Text.byteSize before + 3⟩) rfl h
      obtain ⟨is', h'⟩ := hregion.textPart before
      refine ⟨is', ?_⟩
      simpa [Segment.divided, Division.parts, trimmed, Segment.meant, Part.piece, Delimited.piece,
        Segment.region, RegionKind.piece, String.append_assoc] using h'

/-- Such pieces are read into the main segment, one instruction after the other. -/
theorem readFrom (h : Writes ps is out) (tags : TagTable) (acc : Accumulator)
    (hmain : acc.frames = []) :
    Tag.readFrom tags ⟨acc, []⟩ ps = ⟨.ok {}, { acc with main := acc.main ++ is }, []⟩ := by
  have hwrite (acc : Accumulator) (i : Instr) (hmain : acc.frames = []) :
      acc.write i = { acc with main := acc.main ++ [i] } := by
    rw [Accumulator.write, hmain]
  induction h generalizing acc with
  | nil => simp [Tag.readFrom]
  | text s h ih =>
    have hpiece : Tag.readPiece tags (.text s) ⟨acc, []⟩ = (.ok none, ⟨acc.write (.text s), []⟩) :=
      rfl
    rw [Tag.readFrom, hpiece, hwrite acc _ hmain]
    simp [ih { acc with main := acc.main ++ [.text s] } hmain]
  | @literal t ps is out ht h ih =>
    have hspelled : Expr.Spelled .ternary (.literal (.str t.text)) [t] :=
      (Expr.Spelled.string ht).mono (by decide)
    have hpiece : Tag.readPiece tags (.output [t]) ⟨acc, []⟩ =
        (.ok none, ⟨acc.write (.output (.literal (.str t.text))), []⟩) := by
      simp only [Tag.readPiece, hspelled.parse]
      rfl
    rw [Tag.readFrom, hpiece, hwrite acc _ hmain]
    simp [ih { acc with main := acc.main ++ [.output (.literal (.str t.text))] } hmain]

theorem ofPieces (h : Writes ps is out) (tags : TagTable) :
    Program.ofPieces tags ps = .ok { main := is } := by
  rw [Program.ofPieces, Tag.readSequence, h.readFrom tags {} rfl]
  rfl

/-- What such pieces are compiled to writes the text and does nothing else. -/
theorem sequence (h : Writes ps is out) (e : Engine) (below : Below) (c : Context) :
    Instr.sequence e below is c = (.ok .goOn, { c with output := c.output ++ out }) := by
  induction h generalizing c with
  | nil =>
    rw [Instr.sequence, String.append_empty]
    rfl
  | text s h ih =>
    have hrest := ih { c with output := c.output ++ s }
    rw [Instr.sequence]
    refine hrest.trans ?_
    rw [String.append_assoc]
  | @literal t ps is out ht h ih =>
    have hrest := ih { c with output := c.output ++ t.text }
    rw [Instr.sequence]
    refine hrest.trans ?_
    rw [String.append_assoc]

end Writes

namespace Engine

/-! ### The whole way -/

/-- What a text is compiled to by every engine is what an inline template has, if what is held
under the text was compiled from it. -/
theorem fetchInline_of_forall_programOf {text : String} {p : Program}
    (hp : ∀ e : Engine, e.programOf text inlineName = .ok p) (e : Engine) {s : Store}
    (hheld : ∀ t, s.held? (.text text) = some t →
      ∃ e' : Engine, e'.programOf text inlineName = .ok t.program) :
    ∃ t s', e.fetchInline text s = (.ok t, s') ∧ t.program = p := by
  -- the template is new, or it is the one that is held
  have hnew (s : Store) : ∃ t s', e.recompile text s = (.ok t, s') ∧ t.program = p := by
    have hprogram := (e.map_program_compile text inlineName s.cache.nextId).trans (hp e)
    rw [recompile]
    cases hcompile : e.compile text inlineName s.cache.nextId with
    | error fault =>
      rw [hcompile] at hprogram
      cases hprogram
    | ok t =>
      rw [hcompile] at hprogram
      exact ⟨t, _, rfl, Except.ok.inj hprogram⟩
  rw [fetchInline_eq_obtain, obtain]
  split
  · split
    next t ht =>
      obtain ⟨e', he'⟩ := hheld t ht
      exact ⟨t, s, rfl, Except.ok.inj (he'.symm.trans (hp e'))⟩
    next => exact hnew s
  · exact hnew _

/-- A template whose instructions write a text has that text as its output. -/
theorem output_of_writes {ps : List Piece} {out : String} {t : Template}
    (h : Writes ps t.main out) (e : Engine) (scope : Value) (s : Store) :
    (e.output t scope s).1 = .ok out := by
  have hrun (c : Context) :
      (e.levelOf (start scope s)).run t.main c =
        (.ok (), { c with output := c.output ++ out }) := by
    rw [levelOf, level_eq_over, Level.over]
    simp only [discard, Functor.discard, Functor.mapConst, ExceptT.map, ExceptT.mk, bind,
      StateT.bind, Function.comp, h.sequence]
    rfl
  have hempty : (start scope s).output ++ out = out := String.empty_append
  simp only [output, Level.render, Action.withTemplate, Action.withOwner, hrun, hempty]
  rfl

theorem programOf_source (parts : List Segment) :
    ∃ ps is, Writes ps is (Segment.text parts) ∧ ∀ (e : Engine) (name : String),
      e.programOf (Segment.source parts) name = .ok { main := is } := by
  obtain ⟨is, h⟩ := Writes.divided 0 [] parts
  have hscan : Piece.scan (Segment.source parts) =
      .ok (((Segment.divided 0 [] parts).parts false).flatMap Part.piece) := by
    have hstands : (Segment.divided 0 [] parts).Stands 0 :=
      Segment.stands_divided List.not_mem_nil parts
    have hpieces := hstands.pieces false
    rw [Segment.raw_divided, List.nil_append] at hpieces
    rw [Piece.scan, Segment.source, String.toList_ofList, hpieces]
  refine ⟨_, is, h, fun e name => ?_⟩
  rw [programOf, compile, Draft.compile, hscan]
  simp only [bind, Except.bind, h.ofPieces]
  rfl

/-- **Any text can be carried.** If what is held under the source was compiled from it, by
whatever engine, then an inline render of the source gives the text, in every scope. -/
theorem renderInline_source (e : Engine) (parts : List Segment) (scope : Value) (s : Store)
    (hheld : ∀ t, s.held? (.text (Segment.source parts)) = some t →
      ∃ e' : Engine, e'.programOf (Segment.source parts) inlineName = .ok t.program) :
    (e.renderInline (Segment.source parts) scope s).1 = .ok (Segment.text parts) := by
  obtain ⟨ps, is, hwrites, hprogram⟩ := programOf_source parts
  obtain ⟨t, s', hfetch, ht⟩ :=
    fetchInline_of_forall_programOf (fun e => hprogram e inlineName) e hheld
  have hmain : t.main = is := congrArg Program.main ht
  rw [renderInline, hfetch]
  exact output_of_writes (hmain ▸ hwrites) e scope s'

/-- A text with quotes, braces, a backslash and a line feed, in three parts. -/
def oddParts : List Segment :=
  [.plain "1 %\x7d 2 ".toList (by decide), .quoted "\"\x7b\x7b x \x7d\x7d\"\\n\n".toList,
    .plain "- \x7d\x7d".toList (by decide)]

/-- The source was compiled by another engine, whose cache this one has been given. -/
theorem renderInline_source_oddParts :
    let s := (({} : Engine).fetchInline (Segment.source oddParts) {}).2
    Segment.source oddParts =
        "1 %\x7d 2 \x7b\x7b \"\\\"\x7b\x7b x \x7d\x7d\\\"\\\\n\n\" \x7d\x7d- \x7d\x7d" ∧
      (∀ t, s.held? (.text (Segment.source oddParts)) = some t →
        ∃ e' : Engine, e'.programOf (Segment.source oddParts) inlineName = .ok t.program) ∧
      (renderInline { config := { strict := true, maxDepth := 0 } } (Segment.source oddParts) .null
        s).1 = .ok "1 %\x7d 2 \"\x7b\x7b x \x7d\x7d\"\\n\n- \x7d\x7d" := by
  intro s
  have hobtained := (Sound.fresh {} .empty).obtain (.text (Segment.source oddParts))
  have hheld : ∀ t, s.held? (.text (Segment.source oddParts)) = some t →
      ∃ e' : Engine, e'.programOf (Segment.source oddParts) inlineName = .ok t.program :=
    fun t ht => ⟨{}, hobtained.sound.supplied ht⟩
  exact ⟨by decide, hheld, renderInline_source _ oddParts .null s hheld⟩

end Engine

end Stencil
