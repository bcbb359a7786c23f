import Stencil.Proofs.Expr.Literals
import Stencil.Proofs.Expr.Shapes
import Stencil.Proofs.Token.Placement
import Stencil.Proofs.Token.Relexing

/-!
# Expressions between delimiters

An expression that can be read alone is not always read between the delimiters of an output, because
the region ends at the first place between its tokens where a closing delimiter stands. Two braces
that close maps look like one. So a map that ends another map must leave a blank before the outer
brace, and an expression in which it does so everywhere is read as it is read alone
(`Draft.compile_delimited`). If it does not, the template is refused: what stands before the two
braces is no expression, since the maps are still open.

Nothing else is in the way. A blank in front of the closing delimiter stops every lexeme, but for a
radix mark at the end of the text, which would become a part of the number before it; a `-` and a
brace would be a delimiter, too. In an expression neither a word stands behind a number nor a brace
behind a minus (`Expr.Beside`).
-/

namespace Stencil

open Scanner

/-! ### Braces and marks -/

namespace Lexeme

/-- A brace and a minus are lexemes whatever follows them. -/
theorem read_single {c : Char} (hc : c = '}' ∨ c = '-') (cs : List Char) :
    read c cs = .ok (plain .operator [c]) := by
  rcases hc with rfl | rfl <;> exact read_short (by decide) (by decide) cs

/-- Only a brace makes the token of a brace. -/
theorem raw_eq_brace {c : Char} {cs : List Char} {l : Lexeme} (hread : read c cs = .ok l)
    {offset : Nat} (h : Token.isOp "\x7d" ⟨l.kind, String.ofList l.text, offset⟩ = true) :
    l.raw = ['}'] := by
  simp only [Token.isOp, Bool.and_eq_true, decide_eq_true_eq] at h
  have htext := congrArg String.toList h.2
  rw [String.toList_ofList] at htext
  obtain ⟨-, hraw⟩ | ⟨hkind, -⟩ := spelling_of_read hread
  · exact hraw.trans htext
  · cases hkind.symm.trans h.1

end Lexeme

namespace Scanner

variable {tail cs : List Char} {offset : Nat} {ts us : List Token}

theorem Lexes.single {c : Char} (hc : c = '}' ∨ c = '-') (h : Lexes tail offset (c :: cs) ts) :
    ∃ us, ts = ⟨.operator, String.ofList [c], offset⟩ :: us ∧ Lexes tail (offset + 1) cs us := by
  cases h with
  | blank hblank => rcases hc with rfl | rfl <;> exact absurd hblank (by decide)
  | lexeme hread hraw h =>
    cases (Lexeme.read_single hc _).symm.trans hread
    obtain rfl := (List.cons.inj hraw).2
    have hsize : Text.byteSize [c] = 1 := by rcases hc with rfl | rfl <;> rfl
    rw [Lexeme.plain, hsize] at h
    exact ⟨_, rfl, h⟩

theorem Lexes.offset_le (h : Lexes tail offset cs ts) : ∀ t ∈ ts, offset ≤ t.offset := by
  induction h with
  | nil offset => simp
  | blank _ _ ih => exact fun t ht => Nat.le_of_succ_le (ih t ht)
  | lexeme _ _ _ ih =>
    rw [List.forall_mem_cons]
    exact ⟨Nat.le_refl _, fun t ht => Nat.le_trans (Nat.le_add_right _ _) (ih t ht)⟩

/-- A token that lies where the text begins and is a brace is spelled there. -/
theorem Lexes.eq_brace {t : Token} (h : Lexes tail offset cs (t :: ts)) (ht : t.isOp "\x7d" = true)
    (hoffset : t.offset = offset) : ∃ more, cs = '}' :: more := by
  cases h with
  | blank _ h =>
    have hle := h.offset_le t List.mem_cons_self
    omega
  | lexeme hread hraw _ =>
    rw [Lexeme.raw_eq_brace hread ht] at hraw
    exact ⟨_, hraw⟩

/-- Whether two tokens are braces that close maps, with nothing between them. -/
def Touch (t u : Token) : Prop :=
  t.isOp "\x7d" = true ∧ u.isOp "\x7d" = true ∧ u.offset = t.offset + 1

/-- Whether no two braces that close maps touch. -/
def Apart (ts : List Token) : Prop :=
  ts.IsChain fun t u => ¬ Touch t u

/-- Between the delimiters of an output no two of them can, since they would close it. -/
theorem Reads.apart (h : Reads .output tail offset cs ts) : Apart ts := by
  induction h with
  | nil => exact .nil
  | blank _ _ ih => exact ih
  | @lexeme offset c cs rest ts l hopen hread hraw h ih =>
    cases ts with
    | nil => exact .singleton _
    | cons u us =>
      refine List.isChain_cons_cons.mpr ⟨?_, ih⟩
      rintro ⟨ht, hu, hoffset⟩
      have hbrace := Lexeme.raw_eq_brace hread ht
      rw [hbrace] at hraw h
      obtain ⟨more, rfl⟩ := h.lexes.eq_brace hu hoffset
      exact hopen ⟨false, more ++ tail, by rw [hraw]; rfl⟩

/-- Nor can a region be closed between tokens of an expression if they do not touch. -/
theorem Lexes.not_closes {rest : List Char} (h : Lexes (' ' :: rest) offset cs ts)
    (hbeside : ts.IsChain Expr.Beside) (hapart : Apart ts) :
    ¬ Closes .output (cs ++ ' ' :: rest) := by
  rintro ⟨trim, more, hmore⟩
  obtain ⟨c, cs, rfl, hc⟩ : ∃ c cs', cs = c :: '}' :: cs' ∧ (c = '}' ∨ c = '-') := by
    rcases cs with _ | ⟨c, _ | ⟨d, cs⟩⟩ <;> cases trim <;>
      simp [dash, RegionKind.closer, RegionKind.endMark] at hmore
    · exact ⟨c, cs, by rw [hmore.2.1], .inl hmore.1.symm⟩
    · exact ⟨c, cs, by rw [hmore.2.1], .inr hmore.1.symm⟩
  obtain ⟨us, rfl, hbehind⟩ := h.single hc
  obtain ⟨us, rfl, -⟩ := hbehind.single (.inl rfl)
  obtain rfl | rfl := hc
  · exact (List.isChain_cons_cons.mp hapart).1 ⟨rfl, rfl, rfl⟩
  · have hminus := (List.isChain_cons_cons.mp hbeside).1.minus rfl
    exact Bool.false_ne_true hminus.symm

/-- **Tokens of an expression are read between delimiters if their braces do not touch.** -/
theorem Lexes.reads {rest : List Char} (h : Lexes (' ' :: rest) offset cs ts)
    (hbeside : ts.IsChain Expr.Beside) (hapart : Apart ts) :
    Reads .output (' ' :: rest) offset cs ts := by
  induction h with
  | nil offset => exact .nil offset
  | blank hc _ ih => exact .blank hc (ih hbeside hapart)
  | lexeme hread hraw h ih =>
    have hopen := (Lexes.lexeme hread hraw h).not_closes hbeside hapart
    exact .lexeme hopen hread hraw (ih hbeside.tail hapart.tail)

/-! ### Readings of the same text -/

/-- What is read up to some place is the beginning of what is read up to the end. -/
theorem Lexes.split (h : Lexes tail offset cs ts) {all : List Token}
    (hall : Lexes [] offset (cs ++ tail) all) :
    ∃ vs, all = ts ++ vs ∧ Lexes [] (offset + Text.byteSize cs) tail vs := by
  induction h generalizing all with
  | nil offset => exact ⟨all, rfl, hall⟩
  | @blank offset c cs ts hc _ ih =>
    cases hall with
    | blank _ hall =>
      obtain ⟨vs, rfl, hvs⟩ := ih hall
      refine ⟨vs, rfl, ?_⟩
      rwa [Text.byteSize, Text.utf8Size_of_isAsciiBlank hc, ← Nat.add_assoc]
    | lexeme hread => exact absurd hread (Lexeme.read_ne_ok_of_isAsciiBlank hc _ _)
  | @lexeme offset c cs rest ts l hread hraw _ ih =>
    rw [List.cons_append] at hall
    cases hall with
    | blank hc => exact absurd hread (Lexeme.read_ne_ok_of_isAsciiBlank hc _ _)
    | @lexeme _ _ _ rest' vs l' hread' hraw' hall =>
      rw [List.append_nil] at hread'
      cases hread.symm.trans hread'
      obtain rfl : rest' = rest ++ tail := by
        rw [← List.cons_append, hraw, List.append_assoc] at hraw'
        exact (List.append_cancel_left hraw').symm
      obtain ⟨vs, rfl, hvs⟩ := ih hall
      refine ⟨vs, rfl, ?_⟩
      rwa [hraw, Text.byteSize_append, ← Nat.add_assoc]

/-- A radix mark at the end of a text is a word. -/
theorem Lexes.radixMark {x : Char} (hx : Lexeme.isRadixMark x = true)
    (h : Lexes [] offset ['0', x] ts) :
    ∃ t us, ts = t :: ⟨.identifier, String.ofList [x], offset + 1⟩ :: us ∧ t.kind = .number := by
  have hreads : Lexeme.read '0' [x] = .ok (.plain .number ['0']) ∧
      Lexeme.read x [] = .ok (.plain .identifier [x]) := by
    obtain rfl | rfl | rfl | rfl := Lexeme.eq_of_isRadixMark hx <;> exact ⟨rfl, rfl⟩
  cases h with
  | blank hc => exact absurd hc (by decide)
  | lexeme hread hraw h =>
    cases hreads.1.symm.trans hread
    obtain rfl := (List.cons.inj hraw).2
    cases h with
    | blank hc => exact absurd hreads.2 (Lexeme.read_ne_ok_of_isAsciiBlank hc _ _)
    | lexeme hread _ _ =>
      cases hreads.2.symm.trans hread
      exact ⟨_, _, rfl, rfl⟩

/-- **An expression that is read alone is read in front of a blank.** -/
theorem Lexes.extend {m : Char} (hm : Lexeme.Stops m) (h : Lexes [] offset cs ts)
    (hts : ts.IsChain Expr.Beside) (rest : List Char) : Lexes (m :: rest) offset cs ts := by
  induction h with
  | nil offset => exact .nil offset
  | blank hc _ ih => exact .blank hc (ih hts)
  | @lexeme offset c cs rest' ts l hread hraw h ih =>
    have hmore := ih hts.tail
    rw [List.append_nil] at hread
    refine .lexeme (Lexeme.read_end hm hread ?_ rest) hraw hmore
    -- a radix mark behind which nothing stands is a word behind a number
    intro x hx hcs
    have hwhole := Lexes.lexeme (by rwa [List.append_nil]) hraw h
    rw [hcs] at hwhole
    obtain ⟨t, us, hts', ht⟩ := hwhole.radixMark hx
    rw [hts'] at hts
    have hword : String.ofList [x] ∈ Expr.operatorWords :=
      (List.isChain_cons_cons.mp hts).1.number ht rfl
    revert hword
    obtain rfl | rfl | rfl | rfl := Lexeme.eq_of_isRadixMark hx <;> decide

/-- A blank in front of what follows a text may be taken for a part of the text. -/
theorem Reads.append_blank {kind : RegionKind} (h : Reads kind (' ' :: tail) offset cs ts) :
    Reads kind tail offset (cs ++ [' ']) ts := by
  induction h with
  | nil offset => exact .blank (by decide) (.nil _)
  | blank hc _ ih => exact .blank hc ih
  | lexeme hopen hread hraw _ ih =>
    exact .lexeme (by simpa using hopen) (by simpa using hread) (by simp [← List.cons_append, hraw])
      ih

end Scanner

/-! ### Expressions that end too early -/

/-- An expression that stands before a brace is not all of an expression. -/
theorem Expr.parse_brace_ne {us vs : List Token} {u : Token} {e e' : Expr} (hus : parse us = .ok e')
    (hu : u.isOp "\x7d" = true) : parse (us ++ u :: vs) ≠ .ok e := by
  intro h
  obtain ⟨pre, hpre, hstable⟩ := (parse_eq_ok_iff.mp hus).detached
  rw [List.append_nil] at hpre
  subst hpre
  obtain ⟨_, hread⟩ := hstable (u :: vs) (stops_of_isOp hu (by simp) vs)
  obtain ⟨_, hall⟩ := parse_eq_ok_iff.mp h
  cases hread.symm.trans hall

namespace Scanner

variable {cs inside after : List Char} {offset : Nat} {ts us : List Token} {e e' : Expr}

/-- The tokens of an expression and of the delimiter behind it. -/
theorem lexes_delimiter (h : Lexes [] offset cs ts) (hparse : Expr.parse ts = .ok e) :
    ∃ all, Lexes [] offset (cs ++ [' ', '}', '}']) all ∧ all.IsChain Expr.Beside ∧
      ∃ t u : Token, all = ts ++ [t, u] := by
  have hshaped := Expr.shaped_of_parse hparse
  have hblank : Text.isAsciiBlank ' ' = true := by decide
  have hspace := h.extend (Lexeme.stops_of_isAsciiBlank hblank) hshaped.beside ['}', '}']
  have hbrace (rest : List Char) : Lexeme.read '}' rest = .ok (.plain .operator ['}']) :=
    Lexeme.read_single (.inl rfl) rest
  obtain ⟨t, u, ht, hu, hend⟩ : ∃ t u : Token, t.isOp "\x7d" = true ∧ u.isOp "\x7d" = true ∧
      Lexes [] (offset + Text.byteSize cs) [' ', '}', '}'] [t, u] :=
    ⟨_, _, rfl, rfl, .blank hblank (.lexeme (hbrace _) rfl (.lexeme (hbrace _) rfl (.nil _)))⟩
  have hclosed := (hshaped.close ht (by simp)).close hu (by simp)
  exact ⟨_, hspace.append hend, by simpa using hclosed.beside, t, u, rfl⟩

/-- **If braces touch, then what stands before the first closing delimiter is no expression.** -/
theorem apart_of_reads {trim : Bool} (h : Lexes [] offset cs ts) (hparse : Expr.parse ts = .ok e)
    (hcs : cs ++ [' ', '}', '}'] = inside ++ (dash trim ++ RegionKind.output.closer ++ after))
    (hreads : Reads .output (dash trim ++ RegionKind.output.closer ++ after) offset inside us)
    (hus : Expr.parse us = .ok e') : Apart ts := by
  obtain ⟨all, hall, hbeside, t, u, rfl⟩ := lexes_delimiter h hparse
  rw [hcs] at hall
  obtain ⟨vs, hvs, hclose⟩ := hreads.lexes.split hall
  cases trim with
  | true =>
    obtain ⟨vs, rfl, hbrace⟩ := hclose.single (.inr rfl)
    obtain ⟨vs, rfl, -⟩ := hbrace.single (.inl rfl)
    rw [hvs] at hbeside
    have hminus := (List.isChain_cons_cons.mp (List.isChain_append.mp hbeside).2.1).1.minus rfl
    exact absurd hminus.symm Bool.false_ne_true
  | false =>
    obtain ⟨vs, rfl, hbrace⟩ := hclose.single (.inl rfl)
    obtain ⟨vs, rfl, -⟩ := hbrace.single (.inl rfl)
    rcases List.append_eq_append_iff.mp hvs with ⟨more, rfl, hmore⟩ | ⟨more, rfl, hmore⟩
    · have hlength := congrArg List.length hmore
      obtain rfl : more = [] := List.eq_nil_of_length_eq_zero (by simp at hlength; omega)
      rw [List.append_nil] at hreads
      exact hreads.apart
    · cases more with
      | nil =>
        rw [List.append_nil]
        exact hreads.apart
      | cons b more =>
        obtain ⟨rfl, -⟩ := List.cons.inj hmore
        exact absurd hparse (Expr.parse_brace_ne hus rfl)

/-- How a source is read that begins with an output. -/
theorem pieces_output (cs : List Char) :
    pieces false ('{' :: '{' :: ' ' :: cs) 0 =
      (tokens (.closer RegionKind.output.closer ⟨.unterminatedExpression, 0⟩) [] cs 3).bind
        fun r => (pieces r.trims r.rest r.offset).map (.output r.tokens :: ·) := by
  have hopener : splitOpener ('{' :: '{' :: ' ' :: cs) = ([], some (.output, ' ' :: cs)) := rfl
  have htrim : splitTrim (' ' :: cs) = (false, ' ' :: cs) := rfl
  have hregion : region .output 0 (' ' :: cs) 2 =
      (tokens (.closer RegionKind.output.closer ⟨.unterminatedExpression, 0⟩) [] (' ' :: cs)
        2).map fun r => ([.output r.tokens], r.rest, r.offset, r.trims) := rfl
  have hblank : Text.isAsciiBlank ' ' = true := by decide
  rw [pieces_of_opener hopener, htrim]
  change (region .output 0 (' ' :: cs) 2).bind _ = _
  rw [hregion, tokens, if_pos hblank]
  generalize tokens _ _ _ _ = r
  cases r <;> rfl

theorem exists_of_pieces_output {cs : List Char} {ps : List Piece}
    (h : pieces false ('{' :: '{' :: ' ' :: cs) 0 = .ok ps) :
    ∃ r more, tokens (.closer RegionKind.output.closer ⟨.unterminatedExpression, 0⟩) [] cs 3 =
      .ok r ∧ ps = .output r.tokens :: more := by
  rw [pieces_output] at h
  obtain ⟨r, hr, h⟩ := Except.bind_eq_ok.mp h
  cases hmore : pieces r.trims r.rest r.offset with
  | error fault =>
    rw [hmore] at h
    cases h
  | ok more =>
    rw [hmore] at h
    cases h
    exact ⟨r, more, hr, rfl⟩

end Scanner

/-! ### The template of an expression -/

/-- The template that outputs an expression. -/
def delimited (source : String) : String :=
  "\x7b\x7b " ++ source ++ " \x7d\x7d"

theorem toList_delimited (source : String) :
    (delimited source).toList = '{' :: '{' :: ' ' :: (source.toList ++ [' ', '}', '}']) := by
  simp [delimited]

/-- The tokens as they are in the template. -/
theorem Token.same_shift (n : Nat) (ts : List Token) : Token.Same ts (ts.map (Token.shift n)) := by
  simp [Token.Same, Token.shift, Token.symbol, Function.comp_def]

theorem Scanner.touch_shift {n : Nat} {t u : Token} :
    Touch (t.shift n) (u.shift n) ↔ Touch t u := by
  have hop (t : Token) : (t.shift n).isOp "\x7d" = t.isOp "\x7d" := rfl
  have hoffset (t : Token) : (t.shift n).offset = n + t.offset := rfl
  simp only [Touch, hop, hoffset, Nat.add_assoc, Nat.add_left_cancel_iff]

theorem Scanner.apart_shift {n : Nat} {ts : List Token} :
    Apart (ts.map (Token.shift n)) ↔ Apart ts := by
  simp only [Apart, List.isChain_map, touch_shift]

variable {source : String} {ts : List Token} {e : Expr}

/-- The reading of an expression, where it stands in the template. -/
theorem lexes_delimited (hscan : Token.scan source = .ok ts) :
    Lexes [] 3 source.toList (ts.map (Token.shift 3)) :=
  (Token.scan_iff_lexes.mp hscan).shift 3

/-- An expression in which no braces touch is what the template outputs. -/
theorem Draft.compile_of_apart (hscan : Token.scan source = .ok ts) (hparse : Expr.parse ts = .ok e)
    (hapart : Apart ts) (tags : TagTable) (name : String) :
    Draft.compile tags (delimited source) name =
      .ok ⟨name, { main := [.output e], blocks := [], macros := [] }⟩ := by
  have hparse : Expr.parse (ts.map (Token.shift 3)) = .ok e := by
    rw [Expr.parse_eq_of_same (Token.same_shift 3 ts), hparse]
  have hblank : Text.isAsciiBlank ' ' = true := by decide
  have hbeside := (Expr.shaped_of_parse hparse).beside
  have hlexes := (lexes_delimited hscan).extend (Lexeme.stops_of_isAsciiBlank hblank) hbeside
    ['}', '}']
  have hreads : Reads .output (dash false ++ RegionKind.output.closer ++ []) 3
      (source.toList ++ [' ']) (ts.map (Token.shift 3)) :=
    (hlexes.reads hbeside (apart_shift.mpr hapart)).append_blank
  have hpieces : Piece.scan (delimited source) = .ok [.output (ts.map (Token.shift 3))] := by
    have hinside : source.toList ++ [' ', '}', '}'] =
        source.toList ++ [' '] ++ (dash false ++ RegionKind.output.closer ++ []) := by
      simp [dash, RegionKind.closer, RegionKind.endMark]
    have hrest (offset : Nat) : pieces false [] offset = .ok [] :=
      pieces_of_noRegion (show splitOpener [] = ([], none) from rfl) false offset
    rw [Piece.scan, toList_delimited, pieces_output, hinside, tokens_of_reads hreads []]
    simp [Except.bind, Except.map, hrest]
  have hpiece : Tag.readPiece tags (.output (ts.map (Token.shift 3))) ⟨{}, []⟩ =
      (.ok none, ⟨({} : Accumulator).write (.output e), []⟩) := by
    simp only [Tag.readPiece, hparse]
    rfl
  rw [Draft.compile, hpieces]
  simp only [bind, Except.bind, Program.ofPieces, Tag.readSequence, Tag.readFrom, hpiece]
  rfl

/-- A template that begins with an output whose tokens are no expression is refused. -/
theorem Program.ofPieces_output_error {us : List Token} {fault : GrammarFault}
    (h : Expr.parse us = .error fault) (tags : TagTable) (more : List Piece) :
    Program.ofPieces tags (.output us :: more) = .error fault := by
  have hpiece : Tag.readPiece tags (.output us) ⟨{}, []⟩ = (.error fault, ⟨{}, []⟩) := by
    simp only [Tag.readPiece, h]
    rfl
  rw [Program.ofPieces, Tag.readSequence, Tag.readFrom, hpiece]

/-- An expression in which braces touch cannot be compiled so. -/
theorem Draft.compile_of_not_apart (hscan : Token.scan source = .ok ts)
    (hparse : Expr.parse ts = .ok e) (hapart : ¬ Apart ts) (tags : TagTable) (name : String) :
    ∃ fault, Draft.compile tags (delimited source) name = .error fault := by
  rw [Draft.compile, Piece.scan, toList_delimited]
  cases hpieces : pieces false ('{' :: '{' :: ' ' :: (source.toList ++ [' ', '}', '}'])) 0 with
  | error fault => exact ⟨_, rfl⟩
  | ok ps =>
    obtain ⟨r, more, htokens, rfl⟩ := exists_of_pieces_output hpieces
    obtain ⟨inside, us, hinside, hreads, hus, -⟩ := reads_of_tokens htokens
    have hus : r.tokens = us := hus
    cases hresult : Expr.parse r.tokens with
    | error fault =>
      refine ⟨.grammar fault, ?_⟩
      simp only [bind, Except.bind, Program.ofPieces_output_error hresult]
      rfl
    | ok e' =>
      have hshifted : Expr.parse (ts.map (Token.shift 3)) = .ok e := by
        rw [Expr.parse_eq_of_same (Token.same_shift 3 ts), hparse]
      have hresult : Expr.parse us = .ok e' := hus ▸ hresult
      have hapart' := apart_of_reads (lexes_delimited hscan) hshifted hinside hreads hresult
      exact absurd (apart_shift.mp hapart') hapart

/-- **An expression can be written in a template exactly if no two braces touch in it.** -/
theorem Draft.compile_delimited (hscan : Token.scan source = .ok ts)
    (hparse : Expr.parse ts = .ok e) (tags : TagTable) (name : String) :
    (Apart ts → Draft.compile tags (delimited source) name =
      .ok ⟨name, { main := [.output e], blocks := [], macros := [] }⟩) ∧
    (¬ Apart ts → ∃ fault, Draft.compile tags (delimited source) name = .error fault) :=
  ⟨fun hapart => compile_of_apart hscan hparse hapart tags name,
    fun hapart => compile_of_not_apart hscan hparse hapart tags name⟩

/-- A map in a map, the braces of which touch, or do not. -/
def mapInMap (gap : String) : String :=
  "\x7ba: \x7bb: 1\x7d" ++ gap ++ "\x7d"

/-- Its tokens, the last of which lies at a byte. -/
def mapInMapTokens (last : Nat) : List Token :=
  [⟨.operator, "\x7b", 0⟩, ⟨.identifier, "a", 1⟩, ⟨.operator, ":", 2⟩, ⟨.operator, "\x7b", 4⟩,
    ⟨.identifier, "b", 5⟩, ⟨.operator, ":", 6⟩, ⟨.number, "1", 8⟩, ⟨.operator, "\x7d", 9⟩,
    ⟨.operator, "\x7d", last⟩]

def mapInMapExpr : Expr :=
  .map [(.literal (.str "a"), .map [(.literal (.str "b"), .literal (.int 1))])]

theorem parse_mapInMapTokens (last : Nat) :
    Expr.parse (mapInMapTokens last) = .ok mapInMapExpr := by
  have hone : Expr.Spelled .primary (.literal (.int 1)) [⟨.number, "1", 8⟩] :=
    .number rfl (Expr.literal?_digits (n := 1) (by decide))
  have hb : Expr.SpelledKey (.literal (.str "b")) [⟨.identifier, "b", 5⟩] :=
    .string (t := ⟨.identifier, "b", 5⟩) (.inl rfl)
  have ha : Expr.SpelledKey (.literal (.str "a")) [⟨.identifier, "a", 1⟩] :=
    .string (t := ⟨.identifier, "a", 1⟩) (.inl rfl)
  have hcolon (offset : Nat) : Token.isOp ":" ⟨.operator, ":", offset⟩ = true := rfl
  have hopen (offset : Nat) : Token.isOp "\x7b" ⟨.operator, "\x7b", offset⟩ = true := rfl
  have hclose (offset : Nat) : Token.isOp "\x7d" ⟨.operator, "\x7d", offset⟩ = true := rfl
  have hinner := Expr.Spelled.map (hopen 4) (.last hb (hcolon 6) (hone.mono (by decide))) (hclose 9)
  have houter := Expr.Spelled.map (hopen 0) (.last ha (hcolon 2) (hinner.mono (by decide)))
    (hclose last)
  exact (houter.mono (by decide)).parse

instance : DecidableRel Touch :=
  fun _ _ => inferInstanceAs (Decidable (_ ∧ _ ∧ _))

instance (ts : List Token) : Decidable (Apart ts) :=
  inferInstanceAs (Decidable (List.IsChain _ _))

/-- The same map is compiled or not as a blank stands between its braces. -/
theorem Draft.compile_delimited_mapInMap :
    Token.scan (mapInMap " ") = .ok (mapInMapTokens 11) ∧
      Draft.compile [] (delimited (mapInMap " ")) "page" =
        .ok ⟨"page", { main := [.output mapInMapExpr], blocks := [], macros := [] }⟩ ∧
      Token.scan (mapInMap "") = .ok (mapInMapTokens 10) ∧
      ∃ fault, Draft.compile [] (delimited (mapInMap "")) "page" = .error fault := by
  have hgap : Token.scan (mapInMap " ") = .ok (mapInMapTokens 11) := by decide +kernel
  have htouch : Token.scan (mapInMap "") = .ok (mapInMapTokens 10) := by decide +kernel
  refine ⟨hgap, ?_, htouch, ?_⟩
  · exact (compile_delimited hgap (parse_mapInMapTokens 11) [] "page").1 (by decide)
  · exact (compile_delimited htouch (parse_mapInMapTokens 10) [] "page").2 (by decide)

/-- **Not every expression can be written between the delimiters of an output**, although in a tag
it can. -/
theorem Draft.not_compile_delimited :
    (¬ ∀ (source : String) (ts : List Token) (e : Expr), Token.scan source = .ok ts →
      Expr.parse ts = .ok e → ∀ (tags : TagTable) (name : String),
        Draft.compile tags (delimited source) name =
          .ok ⟨name, { main := [.output e], blocks := [], macros := [] }⟩) ∧
      (Draft.compile TagTable.builtins
        ("\x7b% set x = " ++ mapInMap "" ++ " %\x7d") "page").isOk := by
  refine ⟨fun h => ?_, by decide +kernel⟩
  have htouch : Token.scan (mapInMap "") = .ok (mapInMapTokens 10) := by decide +kernel
  have hparse := parse_mapInMapTokens 10
  obtain ⟨fault, hfault⟩ := compile_of_not_apart htouch hparse (by decide) [] "page"
  cases hfault.symm.trans (h _ _ _ htouch hparse [] "page")

end Stencil
