import Mathlib.Logic.Function.Defs
import Stencil.Proofs.Token.Placement
import Stencil.Proofs.Token.Relexing

/-!
# Where a source is defective

A source that has no pieces has a **defect**, which is the first thing that the scanner cannot go
on from: an opener without its closing delimiter, a quote without another one, or a character that
begins no token. `Scanner.Defect` tells it without the scanner, by what stands before it, which
reads well, and by what stands behind it.

**The error of a source is that of its defect** (`Piece.scan_eq_error_iff`). A source has at most
one defect, the wording of the error tells which kind it is of, and the line and the column tell
where it begins. The scanner finds the place as a byte and then counts lines and characters up to
there; here these are counted in the text before the defect (`Scanner.line`, `Scanner.column`).
-/

namespace Stencil

/-! ### Lexemes that are not there -/

namespace Lexeme

variable {c : Char} {cs : List Char} {fault : ScanFault}

/-- What means a text is read up to the quote behind it. -/
theorem Unescapes.quoted? {quote : Char} (hquote : quote ≠ '\\') {inside text : List Char}
    (h : Unescapes quote inside text) (rest : List Char) :
    Lexeme.quoted? quote (inside ++ quote :: rest) = some (inside ++ [quote], text) := by
  induction h with
  | nil => simp [Lexeme.quoted?.eq_def, hquote]
  | char hbackslash hc _ ih =>
    rw [List.cons_append, Lexeme.quoted?.eq_def]
    simp [hbackslash, hc, ih]
  | escape _ ih => simp [Lexeme.quoted?, ih]

/-- Why no lexeme begins with a character: it is a quote, and what follows is not the inside of a
string up to another one, or it is no character that a lexeme begins with. -/
inductive Fails (c : Char) (cs : List Char) : ScanFault → Prop
  | string (hquote : c = '"' ∨ c = '\'')
      (hopen : ∀ inside text rest, Unescapes c inside text → cs ≠ inside ++ c :: rest) :
      Fails c cs .unterminatedString
  | character (hword : isWordStart c = false) (hdigit : c.isDigit = false)
      (hquote : ¬ (c = '"' ∨ c = '\'')) (hshort : c ∉ shortOperators)
      (hlong : ∀ d ∈ cs.head?, (c, d) ∉ longOperators) : Fails c cs (.unexpectedChar c)

theorem operator?_eq_none_iff : operator? c cs = none ↔
    c ∉ shortOperators ∧ ∀ d ∈ cs.head?, (c, d) ∉ longOperators := by
  cases cs with
  | nil => simp [operator?_nil]
  | cons d cs =>
    rw [operator?_cons, operator?_nil]
    by_cases hlong : (c, d) ∈ longOperators <;> simp [hlong]

theorem quoted?_eq_none_iff {quote : Char} (hquote : quote ≠ '\\') : quoted? quote cs = none ↔
    ∀ inside text rest, Unescapes quote inside text → cs ≠ inside ++ quote :: rest := by
  constructor
  · rintro h inside text rest hinside rfl
    rw [hinside.quoted? hquote] at h
    cases h
  · intro h
    rw [Option.eq_none_iff_forall_ne_some]
    rintro ⟨raw, text⟩ hquoted
    obtain ⟨inside, rfl, hinside⟩ := unescapes_of_quoted? hquoted
    obtain ⟨rest, hrest⟩ := quoted?_isPrefix hquoted
    exact h inside text rest hinside (by rw [← hrest, List.append_assoc]; rfl)

/-- **No lexeme is read where none is.** -/
theorem read_eq_error_iff : read c cs = .error fault ↔ Fails c cs fault := by
  have hbackslash (hquote : c = '"' ∨ c = '\'') : c ≠ '\\' := by
    obtain rfl | rfl := hquote <;> decide
  constructor
  · intro h
    unfold read at h
    split at h
    next => cases h
    next hword =>
    split at h
    next => cases h
    next hdigit =>
    split at h
    next hquote =>
      have hquote : c = '"' ∨ c = '\'' := by simpa using hquote
      split at h
      next => cases h
      next hnone =>
        cases h
        exact .string hquote ((quoted?_eq_none_iff (hbackslash hquote)).mp hnone)
    next hquote =>
      split at h
      next => cases h
      next hnone =>
        cases h
        obtain ⟨hshort, hlong⟩ := operator?_eq_none_iff.mp hnone
        exact .character (by simpa using hword) (by simpa using hdigit) (by simpa using hquote)
          hshort hlong
  · intro h
    cases h with
    | string hquote hopen =>
      have hothers : isWordStart c = false ∧ c.isDigit = false := by
        obtain rfl | rfl := hquote <;> decide
      simp [read, hothers, hquote, (quoted?_eq_none_iff (hbackslash hquote)).mpr hopen]
    | character hword hdigit hquote hshort hlong =>
      simp [read, hword, hdigit, hquote, operator?_eq_none_iff.mpr ⟨hshort, hlong⟩]

end Lexeme

/-! ### Wordings -/

/-- The number of characters of the wording, which no two kinds of faults share. -/
def ScanFault.messageLength : ScanFault → Nat
  | .unterminatedComment => 20
  | .unterminatedExpression => 23
  | .unterminatedBlock => 18
  | .unterminatedString => 27
  | .unexpectedChar _ => 24

theorem ScanFault.toList_unexpectedChar (c : Char) :
    (ScanFault.unexpectedChar c).message.toList =
      "Unexpected character '".toList ++ c :: "'".toList := by
  have hmessage : (ScanFault.unexpectedChar c).message =
      "Unexpected character '" ++ c.toString ++ "'" := rfl
  rw [hmessage, String.toList_append, String.toList_append, Char.toString,
    String.toList_singleton, List.append_assoc, List.singleton_append]

theorem ScanFault.length_message (fault : ScanFault) :
    fault.message.length = fault.messageLength := by
  cases fault with
  | unexpectedChar c =>
    rw [← String.length_toList, toList_unexpectedChar, List.length_append, List.length_cons,
      messageLength]
    decide
  | unterminatedComment => decide
  | unterminatedExpression => decide
  | unterminatedBlock => decide
  | unterminatedString => decide

/-- The wording of a fault tells which it is. -/
theorem ScanFault.message_injective : Function.Injective ScanFault.message := by
  intro fault fault' h
  have hlength : fault.messageLength = fault'.messageLength := by
    rw [← length_message, ← length_message, h]
  have hchar (c c' : Char) (h : (ScanFault.unexpectedChar c).message =
      (ScanFault.unexpectedChar c').message) : c = c' := by
    have hlist := congrArg String.toList h
    rw [toList_unexpectedChar, toList_unexpectedChar, List.append_cancel_left_eq] at hlist
    exact (List.cons.inj hlist).1
  cases fault <;> cases fault' <;> first
    | rfl
    | exact congrArg _ (hchar _ _ h)
    | cases hlength

namespace Scanner

/-! ### Lines and columns -/

/-- The line of what follows a text, from one. -/
def line (before : List Char) : Nat :=
  before.count '\n' + 1

/-- The column of what follows a text, in characters and from one. -/
def column (before : List Char) : Nat :=
  (before.reverse.takeWhile (· ≠ '\n')).length + 1

theorem line_append (before more : List Char) :
    line (before ++ more) = line before + more.count '\n' := by
  rw [line, line, List.count_append, Nat.add_right_comm]

theorem column_append {more : List Char} (hmore : '\n' ∉ more) (before : List Char) :
    column (before ++ more) = column before + more.length := by
  have hall : ∀ c ∈ more.reverse, decide (c ≠ '\n') = true := by
    intro c hc
    simpa using fun h : c = '\n' => hmore (h ▸ List.mem_reverse.mp hc)
  rw [column, column, List.reverse_append, List.takeWhile_append_of_pos hall, List.length_append,
    List.length_reverse]
  omega

theorem column_newline (before : List Char) : column (before ++ ['\n']) = 1 := by
  simp [column]

/-- What is counted from where a text has been read is the line and the column of all of it. -/
theorem position_go (before more after : List Char) :
    position.go (Text.byteSize (before ++ more)) (line before) (column before)
        (Text.byteSize before) (more ++ after) =
      (line (before ++ more), column (before ++ more)) := by
  induction more generalizing before with
  | nil => cases after <;> simp [position.go]
  | cons c more ih =>
    have hmove : before ++ c :: more = before ++ [c] ++ more := by simp
    have hsize : Text.byteSize (before ++ [c]) = Text.byteSize before + c.utf8Size := by
      rw [Text.byteSize_append]
      rfl
    have hgoes : ¬ Text.byteSize (before ++ c :: more) ≤ Text.byteSize before := by
      have hpos := Char.utf8Size_pos c
      rw [hmove, Text.byteSize_append, hsize]
      omega
    have ih := ih (before ++ [c])
    rw [hsize] at ih
    rw [List.cons_append, position.go, if_neg hgoes, hmove, ← ih]
    split
    next hc =>
      subst hc
      rw [line_append, column_newline]
      rfl
    next hc =>
      rw [line_append, column_append (by simpa using Ne.symm hc)]
      simp [hc]

/-- **The position of a byte** is the line and the column of what stands there. -/
theorem position_append (before after : List Char) :
    position (before ++ after) (Text.byteSize before) = (line before, column before) :=
  position_go [] before after

theorem eq_nil_of_byteSize {cs : List Char} (h : Text.byteSize cs = 0) : cs = [] := by
  cases cs with
  | nil => rfl
  | cons c cs =>
    have hpos := Char.utf8Size_pos c
    rw [Text.byteSize] at h
    omega

/-- A byte is at most one place of a source. -/
theorem eq_of_byteSize {source before before' : List Char} (h : before <+: source)
    (h' : before' <+: source) (hsize : Text.byteSize before = Text.byteSize before') :
    before = before' := by
  rcases List.prefix_or_prefix_of_prefix h h' with ⟨more, rfl⟩ | ⟨more, rfl⟩
  all_goals
    rw [Text.byteSize_append] at hsize
    have hmore : more = [] := eq_nil_of_byteSize (by omega)
    rw [hmore, List.append_nil]

/-- **So is a line with a column.** -/
theorem eq_of_line_column {source before before' : List Char} (h : before <+: source)
    (h' : before' <+: source) (hline : line before = line before')
    (hcolumn : column before = column before') : before = before' := by
  have hmore {text more : List Char} (hline : line text = line (text ++ more))
      (hcolumn : column text = column (text ++ more)) : more = [] := by
    rw [line_append] at hline
    have hnewline : '\n' ∉ more := List.count_eq_zero.mp (by omega)
    rw [column_append hnewline] at hcolumn
    exact List.length_eq_zero_iff.mp (by omega)
  rcases List.prefix_or_prefix_of_prefix h h' with ⟨more, rfl⟩ | ⟨more, rfl⟩
  · rw [hmore hline hcolumn, List.append_nil]
  · rw [hmore hline.symm hcolumn.symm, List.append_nil]

/-! ### Regions that do not end -/

/-- Whether the inside of a region goes on to the end of the source: a comment has no closing
delimiter, an output or a tag none that is not in a lexeme. -/
inductive Unclosed (kind : RegionKind) (offset : Nat) (cs : List Char) : Prop
  | comment (hkind : kind = .comment) (h : ¬ kind.closer <:+: cs)
  | reads (hkind : kind ≠ .comment) {ts : List Token} (h : Reads kind [] offset cs ts)

/-- Whether the tokens of an output or a tag break off behind a text, where something stands that
is neither a blank nor a lexeme. -/
structure Breaks (kind : RegionKind) (offset : Nat) (inside : List Char) (c : Char)
    (more : List Char) (fault : ScanFault) : Prop where
  notComment : kind ≠ .comment
  reads : ∃ ts, Reads kind (c :: more) offset inside ts
  blank : Text.isAsciiBlank c = false
  fails : Lexeme.Fails c more fault

variable {kind : RegionKind} {missing e : ScanError} {cs inside more : List Char} {c : Char}
  {offset : Nat} {fault : ScanFault}

/-- A region cannot be closed where no lexeme is, since its delimiter begins with an operator. -/
theorem not_closes_of_fails (hkind : kind ≠ .comment) (h : Lexeme.Fails c more fault) :
    ¬ Closes kind (c :: more) := by
  rintro ⟨trim, hcloses⟩
  have hc : c = '-' ∨ c = '\x7d' ∨ c = '%' := by
    cases trim <;> cases kind <;> first
      | exact absurd rfl hkind
      | (obtain ⟨rfl, -⟩ := List.cons_prefix_cons.mp hcloses
         decide)
  cases h with
  | string hquote => revert hquote; obtain rfl | rfl | rfl := hc <;> decide
  | character _ _ _ hshort => revert hshort; obtain rfl | rfl | rfl := hc <;> decide

/-- The tokens of a region that cannot be read to its end. -/
theorem tokens_eq_error (hkind : kind ≠ .comment) {before : List Token}
    (h : tokens (.closer kind.closer missing) before cs offset = .error e) :
    (∃ ts, Reads kind [] offset cs ts ∧ e = missing) ∨
      ∃ inside c more fault, cs = inside ++ c :: more ∧ Breaks kind offset inside c more fault ∧
        e = ⟨fault, offset + Text.byteSize inside⟩ := by
  fun_induction tokens (.closer kind.closer missing) before cs offset with
  | case1 before offset hsource => cases hsource
  | case2 before offset delimiter missing' hending =>
    cases hending
    cases h
    exact .inl ⟨[], .nil offset, rfl⟩
  | case3 before offset c rest hc ih =>
    rcases ih h with ⟨ts, hreads, rfl⟩ | ⟨inside, d, more, fault, rfl, hbreaks, rfl⟩
    · exact .inl ⟨ts, .blank hc hreads, rfl⟩
    · obtain ⟨ts, hreads⟩ := hbreaks.reads
      refine .inr ⟨c :: inside, d, more, fault, rfl,
        { hbreaks with reads := ⟨ts, .blank hc hreads⟩ }, ?_⟩
      rw [Text.byteSize, Text.utf8Size_of_isAsciiBlank hc, Nat.add_assoc]
  | case4 => cases h
  | case5 before offset c rest hc hcloses fault hread =>
    cases h
    exact .inr ⟨[], c, rest, fault, rfl, ⟨hkind, ⟨[], .nil offset⟩, by simpa using hc,
      Lexeme.read_eq_error_iff.mp hread⟩, rfl⟩
  | case6 before offset c rest hc hcloses l hread token ih =>
    obtain ⟨w, more, hraw, rfl⟩ := Lexeme.exists_of_read hread
    have hdrop : (c :: (w ++ more)).drop l.raw.length = more := by
      rw [hraw, ← List.cons_append, List.drop_left]
    rw [hdrop] at h ih
    have hopen : ¬ Closes kind (c :: (w ++ more)) := closes?_eq_none_iff.mp hcloses
    rcases ih h with ⟨ts, hreads, rfl⟩ | ⟨inside, d, rest, fault, rfl, hbreaks, rfl⟩
    · refine .inl ⟨_, .lexeme (by simpa using hopen) (by simpa using hread)
        (by rw [hraw]; rfl) hreads, rfl⟩
    · obtain ⟨ts, hreads⟩ := hbreaks.reads
      refine .inr ⟨c :: (w ++ inside), d, rest, fault, by simp,
        { hbreaks with reads := ⟨_, .lexeme (by simpa using hopen) (by simpa using hread)
          (by rw [hraw]; rfl) hreads⟩ }, ?_⟩
      rw [← List.cons_append, ← hraw, Text.byteSize_append, Nat.add_assoc]

/-- A region whose tokens break off is not read. -/
theorem Breaks.tokens (h : Breaks kind offset inside c more fault) (before : List Token) :
    Scanner.tokens (.closer kind.closer missing) before (inside ++ c :: more) offset =
      .error ⟨fault, offset + Text.byteSize inside⟩ := by
  obtain ⟨ts, hreads⟩ := h.reads
  have hblank : ¬ Text.isAsciiBlank c = true := by simp [h.blank]
  have hcloses : tokens.closes? (.closer kind.closer missing) c more = none :=
    closes?_eq_none_iff.mpr (not_closes_of_fails h.notComment h.fails)
  rw [tokens_append hreads, Scanner.tokens, if_neg hblank, hcloses]
  dsimp only
  split
  next fault' hread =>
    cases hread.symm.trans (Lexeme.read_eq_error_iff.mpr h.fails)
    rfl
  next l hread => cases hread.symm.trans (Lexeme.read_eq_error_iff.mpr h.fails)

/-- Nor is a region whose tokens go on to the end of the source. -/
theorem tokens_of_unclosed {ts : List Token} (h : Reads kind [] offset cs ts)
    (before : List Token) :
    tokens (.closer kind.closer missing) before cs offset = .error missing := by
  have htokens : tokens (.closer kind.closer missing) before (cs ++ []) offset = _ :=
    tokens_append h before
  rwa [List.append_nil, tokens] at htokens

theorem region_comment_eq_error_iff {opener : Nat} :
    region .comment opener cs offset = .error e ↔
      ¬ RegionKind.comment.closer <:+: cs ∧ e = ⟨.unterminatedComment, opener⟩ := by
  rw [← splitComment?_eq_none_iff, region]
  cases splitComment? cs with
  | none => simp [eq_comm]
  | some r => simp

/-- **A region is not read if it does not end or if its tokens break off.** -/
theorem region_eq_error_iff {opener : Nat} : region kind opener cs offset = .error e ↔
    (Unclosed kind offset cs ∧ e = ⟨kind.unterminated, opener⟩) ∨
      ∃ inside c more fault, cs = inside ++ c :: more ∧ Breaks kind offset inside c more fault ∧
        e = ⟨fault, offset + Text.byteSize inside⟩ := by
  by_cases hkind : kind = .comment
  · subst hkind
    rw [region_comment_eq_error_iff]
    constructor
    · rintro ⟨hcloser, rfl⟩
      exact .inl ⟨.comment rfl hcloser, rfl⟩
    · rintro (⟨hunclosed, rfl⟩ | ⟨inside, c, more, fault, -, hbreaks, -⟩)
      · cases hunclosed with
        | comment _ hcloser => exact ⟨hcloser, rfl⟩
        | reads hkind => exact absurd rfl hkind
      · exact absurd rfl hbreaks.notComment
  · rw [region_eq_map_tokens hkind]
    constructor
    · intro h
      cases htokens : tokens (.closer kind.closer ⟨kind.unterminated, opener⟩) [] cs offset with
      | ok r =>
        rw [htokens] at h
        cases h
      | error e' =>
        rw [htokens] at h
        cases h
        rcases tokens_eq_error hkind htokens with ⟨ts, hreads, he⟩ | hbreaks
        · exact .inl ⟨.reads hkind hreads, he⟩
        · exact .inr hbreaks
    · rintro (⟨hunclosed, rfl⟩ | ⟨inside, c, more, fault, rfl, hbreaks, rfl⟩)
      · cases hunclosed with
        | comment h => exact absurd h hkind
        | reads _ hreads =>
          rw [tokens_of_unclosed hreads]
          rfl
      · rw [hbreaks.tokens]
        rfl

/-! ### Defects -/

/-- Whether a source with this front is read up to the text at the end of the front: there are
regions, each with the text before it, and no opener is in the text behind them. -/
def ReadUpTo (offset : Nat) (before : List Char) : Prop :=
  ∃ (front : Front) (text : List Char),
    before = front.raw ++ text ∧ front.Stands offset ∧ NoOpener (text ++ ['\x7b'])

theorem ReadUpTo.prepend {text before : List Char} {d : Delimited}
    (htext : NoOpener (text ++ ['\x7b'])) (hd : d.Stands (offset + Text.byteSize text) [])
    (h : ReadUpTo (offset + Text.byteSize (text ++ d.raw)) before) :
    ReadUpTo offset (text ++ d.raw ++ before) := by
  obtain ⟨front, last, rfl, hfront, hlast⟩ := h
  exact ⟨(text, d) :: front, last, (List.append_assoc ..).symm, ⟨htext, hd, hfront⟩, hlast⟩

theorem byteSize_opener_dash (kind : RegionKind) (trim : Bool) :
    Text.byteSize (kind.opener ++ dash trim) = 2 + if trim then 1 else 0 := by
  cases kind <;> cases trim <;> rfl

/-- A source is not read if one of its regions is not. -/
theorem pieces_eq_error {before inside : List Char} {trim trimStart : Bool}
    (hbefore : ReadUpTo offset before) (htrim : trim = false → inside.head? ≠ some '-')
    (h : region kind (offset + Text.byteSize before) inside
      (offset + Text.byteSize (before ++ (kind.opener ++ dash trim))) = .error e) :
    pieces trimStart (before ++ (kind.opener ++ dash trim) ++ inside) offset = .error e := by
  obtain ⟨front, text, rfl, hfront, htext⟩ := hbefore
  have hopener : splitOpener (text ++ (kind.opener ++ dash trim) ++ inside) =
      (text, some (kind, dash trim ++ inside)) := by
    rw [← splitOpener_append htext]
    simp
  have hsplit : splitTrim (dash trim ++ inside) = (trim, inside) :=
    splitTrim_eq_iff.mpr ⟨rfl, htrim⟩
  have hscan := hfront.scan trimStart (text ++ (kind.opener ++ dash trim) ++ inside)
  rw [pieces_of_opener hopener, hsplit] at hscan
  rw [Text.byteSize_append (_ ++ _), byteSize_opener_dash, ← Nat.add_assoc offset, ← Nat.add_assoc,
    Text.byteSize_append, ← Nat.add_assoc offset] at h
  dsimp only at hscan
  rw [h] at hscan
  simpa [Except.bind, Except.map] using hscan

/-- If a source is not read, then one of its regions is not, and those before it are. -/
theorem exists_region_of_pieces {trimStart : Bool} (h : pieces trimStart cs offset = .error e) :
    ∃ before kind trim inside, cs = before ++ (kind.opener ++ dash trim) ++ inside ∧
      ReadUpTo offset before ∧ (trim = false → inside.head? ≠ some '-') ∧
      region kind (offset + Text.byteSize before) inside
        (offset + Text.byteSize (before ++ (kind.opener ++ dash trim))) = .error e := by
  fun_induction pieces trimStart cs offset with
  | case1 => cases h
  | case2 trimStart cs offset text kind inside hopener opener trim e' hregion =>
    cases h
    obtain ⟨rfl, htext⟩ := (splitOpener_spec cs).2 _ _ _ hopener
    obtain ⟨hinside, htrim⟩ := splitTrim_spec inside
    refine ⟨text, kind, trim.1, trim.2, ?_, ⟨[], text, rfl, trivial, htext⟩, htrim, ?_⟩
    · rw [List.append_assoc, List.append_assoc, List.append_assoc, ← hinside]
    · rw [Text.byteSize_append, byteSize_opener_dash, ← Nat.add_assoc, ← Nat.add_assoc]
      exact hregion
  | case3 trimStart cs offset text kind inside hopener opener trim piece rest stop trims hregion e'
      hmore ih =>
    cases h
    -- the region that is not read comes later, so this one joins the front
    obtain ⟨before, kind', trim', inside', rfl, hbefore, htrim', herror⟩ := ih hmore
    obtain ⟨rfl, htext⟩ := (splitOpener_spec cs).2 _ _ _ hopener
    obtain ⟨hinside, htrim⟩ := splitTrim_spec inside
    obtain ⟨d, hkind, hopens, hcloses, hbody, hd, -, rfl⟩ :=
      Delimited.stands_of_region opener htrim hregion
    have hstop : opener + Text.byteSize d.raw = offset + Text.byteSize (text ++ d.raw) := by
      rw [Text.byteSize_append, ← Nat.add_assoc]
    rw [hstop] at hbefore herror
    refine ⟨text ++ d.raw ++ before, kind', trim', inside', ?_,
      hbefore.prepend htext (hd.congr_after []), htrim', ?_⟩
    · rw [hinside, hbody]
      simp [Delimited.raw, hkind, hopens, hcloses]
    · simpa [Text.byteSize_append, Nat.add_assoc] using herror
  | case4 => cases h

/-- How a source goes wrong behind a front, which reads well: a region begins there and does not
end, or the tokens of a region break off there. -/
inductive Defect (offset : Nat) : List Char → List Char → ScanFault → Prop
  | unclosed {before inside : List Char} {kind : RegionKind} {trim : Bool}
      (hbefore : ReadUpTo offset before) (htrim : trim = false → inside.head? ≠ some '-')
      (h : Unclosed kind (offset + Text.byteSize (before ++ (kind.opener ++ dash trim))) inside) :
      Defect offset before (kind.opener ++ dash trim ++ inside) kind.unterminated
  | breaks {before inside more : List Char} {kind : RegionKind} {trim : Bool} {c : Char}
      {fault : ScanFault} (hbefore : ReadUpTo offset before)
      (htrim : trim = false → (inside ++ c :: more).head? ≠ some '-')
      (h : Breaks kind (offset + Text.byteSize (before ++ (kind.opener ++ dash trim))) inside c
        more fault) :
      Defect offset (before ++ (kind.opener ++ dash trim) ++ inside) (c :: more) fault

/-- **The scanner stops at a defect, and at nothing else.** -/
theorem pieces_eq_error_iff {trimStart : Bool} : pieces trimStart cs offset = .error e ↔
    ∃ before after fault, cs = before ++ after ∧ Defect offset before after fault ∧
      e = ⟨fault, offset + Text.byteSize before⟩ := by
  constructor
  · intro h
    obtain ⟨before, kind, trim, inside, rfl, hbefore, htrim, hregion⟩ := exists_region_of_pieces h
    rcases region_eq_error_iff.mp hregion with
      ⟨hunclosed, rfl⟩ | ⟨inside, c, more, fault, rfl, hbreaks, rfl⟩
    · exact ⟨before, _, _, List.append_assoc .., .unclosed hbefore htrim hunclosed, rfl⟩
    · refine ⟨_, _, _, (List.append_assoc ..).symm, .breaks hbefore htrim hbreaks, ?_⟩
      rw [Text.byteSize_append (before ++ _), Nat.add_assoc]
  · rintro ⟨before, after, fault, rfl, hdefect, rfl⟩
    cases hdefect with
    | unclosed hbefore htrim hunclosed =>
      rw [← List.append_assoc]
      exact pieces_eq_error hbefore htrim (region_eq_error_iff.mpr (.inl ⟨hunclosed, rfl⟩))
    | breaks hbefore htrim hbreaks =>
      rw [Text.byteSize_append (_ ++ _), ← Nat.add_assoc, List.append_assoc]
      exact pieces_eq_error hbefore htrim
        (region_eq_error_iff.mpr (.inr ⟨_, _, _, _, rfl, hbreaks, rfl⟩))

/-- A source has at most one defect, the first place where it goes wrong. -/
theorem Defect.unique {before before' after after' : List Char} {fault' : ScanFault}
    (h : Defect offset before after fault) (h' : Defect offset before' after' fault')
    (hsource : before ++ after = before' ++ after') :
    before = before' ∧ after = after' ∧ fault = fault' := by
  have herror : pieces false (before ++ after) offset = _ :=
    pieces_eq_error_iff.mpr ⟨_, _, _, rfl, h, rfl⟩
  have herror' : pieces false (before ++ after) offset = _ :=
    pieces_eq_error_iff.mpr ⟨_, _, _, hsource, h', rfl⟩
  obtain ⟨rfl, hoffset⟩ := ScanError.mk.inj (Except.error.inj (herror.symm.trans herror'))
  have hprefix' : before' <+: before ++ after := hsource ▸ List.prefix_append ..
  obtain rfl := eq_of_byteSize (List.prefix_append before after) hprefix' (by omega)
  exact ⟨rfl, List.append_cancel_left hsource, rfl⟩

end Scanner

open Scanner

/-- **The error of a source points at its defect.** A source without pieces has a defect, which is
the first one, and only then: the fault is that of the defect, and the line and the column are those
where it begins. The wording tells the fault, and the line with the column tells the place. -/
theorem Piece.scan_eq_error_iff (source : String) :
    (∀ e, Piece.scan source = .error e ↔
      ∃ before after fault, source.toList = before ++ after ∧ Defect 0 before after fault ∧
        e = .scan fault (line before) (column before)) ∧
    (∀ before after fault before' after' fault', source.toList = before ++ after →
      Defect 0 before after fault → source.toList = before' ++ after' →
      Defect 0 before' after' fault' → before = before' ∧ after = after' ∧ fault = fault') ∧
    (∀ fault fault' : ScanFault, fault.message = fault'.message → fault = fault') ∧
    ∀ before before', before <+: source.toList → before' <+: source.toList →
      line before = line before' → column before = column before' → before = before' := by
  refine ⟨fun e => ?_, fun before after fault before' after' fault' hsource h hsource' h' =>
    h.unique h' (hsource.symm.trans hsource'), fun _ _ h => ScanFault.message_injective h,
    fun before before' h h' => eq_of_line_column h h'⟩
  have hscan : Piece.scan source = .error e ↔
      ∃ e', pieces false source.toList 0 = .error e' ∧ e'.toError source.toList = e := by
    rw [Piece.scan]
    cases pieces false source.toList 0 <;> simp
  have hposition {before after : List Char} (hsource : source.toList = before ++ after)
      (fault : ScanFault) : ScanError.toError source.toList ⟨fault, 0 + Text.byteSize before⟩ =
        .scan fault (line before) (column before) := by
    rw [ScanError.toError, Nat.zero_add, hsource, position_append]
  simp only [hscan, pieces_eq_error_iff]
  constructor
  · rintro ⟨_, ⟨before, after, fault, hsource, hdefect, rfl⟩, rfl⟩
    exact ⟨before, after, fault, hsource, hdefect, hposition hsource fault⟩
  · rintro ⟨before, after, fault, hsource, hdefect, rfl⟩
    exact ⟨_, ⟨before, after, fault, hsource, hdefect, rfl⟩, hposition hsource fault⟩

/-- A source with a character that begins no token, behind some lines and a string. -/
def stray : String :=
  "é\n\x7b\x7b- x + 'é\n' @ \x7d\x7d"

/-- The position is counted from the last newline, which is in the string. -/
theorem Piece.scan_eq_error_iff_stray :
    Piece.scan stray = .error (.scan (.unexpectedChar '@') 3 3) ∧
      ∃ after, stray.toList = "é\n\x7b\x7b- x + 'é\n' ".toList ++ after ∧
        Defect 0 "é\n\x7b\x7b- x + 'é\n' ".toList after (.unexpectedChar '@') := by
  have hscan : Piece.scan stray = .error (.scan (.unexpectedChar '@') 3 3) := by decide +kernel
  obtain ⟨herror, -, -, hplace⟩ := Piece.scan_eq_error_iff stray
  obtain ⟨before, after, fault, hsource, hdefect, he⟩ := (herror _).mp hscan
  obtain ⟨rfl, hline, hcolumn⟩ := Error.scan.inj he
  have hthere : "é\n\x7b\x7b- x + 'é\n' ".toList <+: stray.toList := by decide
  obtain rfl := hplace _ before hthere (hsource ▸ List.prefix_append ..)
    (hline ▸ rfl) (hcolumn ▸ rfl)
  exact ⟨hscan, after, hsource, hdefect⟩

end Stencil
