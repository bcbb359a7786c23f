import Stencil.Text.Utf8
import Stencil.Token.Lexeme

/-!
# Cutting a source into pieces

A **region** begins with `{{`, `{%` or `{#`, and the closing delimiter of an output or a
tag is looked for between its tokens only, so one inside a string does not count. A
comment ends at the first `#}`. A `-` beside a delimiter **trims** the text on that side.

Faults are located: an unterminated region at its opener, an unterminated string at its
quote, a character that begins no token at itself.
-/

namespace Stencil

/-- A fault and the byte at which it lies. -/
structure ScanError where
  fault : ScanFault
  offset : Nat
  deriving DecidableEq, Repr

namespace Scanner

/-! ### Inside a region -/

/-- What ends a run of tokens: the end of the source, or a closing delimiter, whose
absence is a fault at the opener. -/
inductive Ending where
  | source
  | closer (delimiter : List Char) (missing : ScanError)

/-- The tokens of a region, what follows it and from which byte on, and whether the text
that follows is trimmed. -/
structure Region where
  tokens : List Token
  rest : List Char
  offset : Nat
  trims : Bool

/-- Reads tokens up to the ending. -/
def tokens (ending : Ending) (before : List Token) (cs : List Char) (offset : Nat) :
    Except ScanError Region :=
  match cs with
  | [] =>
    match ending with
    | .source => .ok ⟨before.reverse, [], offset, false⟩
    | .closer _ missing => .error missing
  | c :: rest =>
    if Text.isAsciiBlank c then tokens ending before rest (offset + 1)
    else match closes? ending c rest with
      | some (after, size, trims) => .ok ⟨before.reverse, after, offset + size, trims⟩
      | none =>
        match _h : Lexeme.read c rest with
        | .error fault => .error ⟨fault, offset⟩
        | .ok l =>
          let token : Token := ⟨l.kind, String.ofList l.text, offset⟩
          tokens ending (token :: before) ((c :: rest).drop l.raw.length)
            (offset + Text.byteSize l.raw)
termination_by cs.length
decreasing_by
  · simp
  · have := Lexeme.length_pos_of_read _h
    simp only [List.length_drop, List.length_cons]
    omega
where
  /-- What follows the closing delimiter at the front of `c :: cs`, its size, and whether
  it has a `-`. -/
  closes? (ending : Ending) (c : Char) (cs : List Char) : Option (List Char × Nat × Bool) :=
    match ending with
    | .source => none
    | .closer delimiter _ =>
      match (if c = '-' then dropDelimiter? delimiter cs else none) with
      | some after => some (after, delimiter.length + 1, true)
      | none => (dropDelimiter? delimiter (c :: cs)).map fun after =>
          (after, delimiter.length, false)
  /-- What follows `delimiter` at the front of a text. -/
  dropDelimiter? : List Char → List Char → Option (List Char)
    | [], cs => some cs
    | _ :: _, [] => none
    | d :: ds, c :: cs => if d = c then dropDelimiter? ds cs else none

/-! ### Regions and the text between them -/

inductive RegionKind where
  | output
  | tag
  | comment
  deriving DecidableEq, Repr

/-- The kind of region that a character after an opening brace announces. -/
def RegionKind.ofChar? : Char → Option RegionKind
  | '{' => some .output
  | '%' => some .tag
  | '#' => some .comment
  | _ => none

/-- The text before the first opener, and the kind of the region and what follows the
opener, if there is one. -/
def splitOpener : List Char → List Char × Option (RegionKind × List Char)
  | [] => ([], none)
  | [c] => ([c], none)
  | c :: d :: cs =>
    match (if c = '{' then RegionKind.ofChar? d else none) with
    | some kind => ([], some (kind, cs))
    | none =>
      let (text, region) := splitOpener (d :: cs)
      (c :: text, region)

/-- The text of a comment, and what follows it. -/
def splitComment? : List Char → Option (List Char × List Char)
  | '#' :: '}' :: cs => some ([], cs)
  | c :: cs => (splitComment? cs).map fun (text, rest) => (c :: text, rest)
  | [] => none

/-- A text as a piece, with its ends trimmed as the regions beside it ask. Empty text is
no piece. -/
def textPiece (trimStart trimEnd : Bool) (cs : List Char) : List Piece :=
  let cs := if trimStart then Text.trimStart cs else cs
  let cs := if trimEnd then Text.trimEnd cs else cs
  if cs.isEmpty then [] else [.text (String.ofList cs)]

/-- Takes the `-` after an opener. -/
def splitTrim : List Char → Bool × List Char
  | '-' :: cs => (true, cs)
  | cs => (false, cs)

/-- The piece of the region whose inside begins at `cs`, what follows the region and from
which byte on, and whether the text that follows is trimmed. A comment is no piece. -/
def region (kind : RegionKind) (opener : Nat) (cs : List Char) (offset : Nat) :
    Except ScanError (List Piece × List Char × Nat × Bool) :=
  match kind with
  | .comment =>
    match splitComment? cs with
    | none => .error ⟨.unterminatedComment, opener⟩
    | some (text, rest) =>
      .ok ([], rest, offset + Text.byteSize text + 2, text.getLast? == some '-')
  | .output => do
    let r ← tokens (.closer ['}', '}'] ⟨.unterminatedExpression, opener⟩) [] cs offset
    return ([.output r.tokens], r.rest, r.offset, r.trims)
  | .tag => do
    let r ← tokens (.closer ['%', '}'] ⟨.unterminatedBlock, opener⟩) [] cs offset
    return ([.tag r.tokens], r.rest, r.offset, r.trims)

/-! ### Regions use up their source -/

theorem length_dropDelimiter? {ds cs after : List Char}
    (h : tokens.dropDelimiter? ds cs = some after) : after.length ≤ cs.length := by
  induction ds generalizing cs with
  | nil => simp only [tokens.dropDelimiter?] at h; grind
  | cons d ds ih =>
    cases cs with
    | nil => simp [tokens.dropDelimiter?] at h
    | cons c cs =>
      simp only [tokens.dropDelimiter?] at h
      split at h
      · have := ih h; simp only [List.length_cons]; omega
      · simp at h

theorem length_closes? {ending : Ending} {c : Char} {cs after : List Char} {n : Nat} {t : Bool}
    (h : tokens.closes? ending c cs = some (after, n, t)) : after.length ≤ cs.length + 1 := by
  cases ending with
  | source => simp [tokens.closes?] at h
  | closer delimiter missing =>
    simp only [tokens.closes?] at h
    split at h
    · next after' heq =>
      split at heq
      · have := length_dropDelimiter? heq
        simp only [Option.some.injEq, Prod.mk.injEq] at h
        obtain ⟨rfl, -, -⟩ := h
        omega
      · simp at heq
    · simp only [Option.map_eq_some_iff, Prod.mk.injEq] at h
      obtain ⟨after', heq, rfl, -, -⟩ := h
      simpa using length_dropDelimiter? heq

theorem length_tokens {ending : Ending} {before : List Token} {cs : List Char} {offset : Nat}
    {r : Region} (h : tokens ending before cs offset = .ok r) : r.rest.length ≤ cs.length := by
  fun_induction tokens ending before cs offset with
  | case1 => injection h with h; subst h; simp
  | case2 => simp at h
  | case3 before offset c rest hb ih =>
    have := ih h; simp only [List.length_cons]; omega
  | case4 before offset c rest hb after size trims hc =>
    injection h with h; subst h; simpa using length_closes? hc
  | case5 => simp at h
  | case6 before offset c rest hb hc l hl token ih =>
    have := ih h
    simp only [List.length_drop] at this
    omega

theorem length_splitComment? {cs text rest : List Char} (h : splitComment? cs = some (text, rest)) :
    rest.length ≤ cs.length := by
  fun_induction splitComment? cs generalizing text rest with
  | case1 cs => grind
  | case2 c cs _ ih =>
    simp only [Option.map_eq_some_iff, Prod.mk.injEq, Prod.exists] at h
    obtain ⟨text', rest', h, -, rfl⟩ := h
    have := ih h
    simp only [List.length_cons]
    omega
  | case3 => simp at h

theorem length_region {kind : RegionKind} {opener offset : Nat} {cs : List Char}
    {result : List Piece × List Char × Nat × Bool}
    (h : region kind opener cs offset = .ok result) : result.2.1.length ≤ cs.length := by
  cases kind with
  | comment =>
    simp only [region] at h
    split at h
    · simp at h
    · next heq => injection h with h; subst h; exact length_splitComment? heq
  | output =>
    simp only [region, bind, Except.bind, pure, Except.pure] at h
    split at h
    · simp at h
    · next r heq => injection h with h; subst h; exact length_tokens heq
  | tag =>
    simp only [region, bind, Except.bind, pure, Except.pure] at h
    split at h
    · simp at h
    · next r heq => injection h with h; subst h; exact length_tokens heq

theorem length_splitOpener {cs text rest : List Char} {kind : RegionKind}
    (h : splitOpener cs = (text, some (kind, rest))) :
    text.length + rest.length + 2 = cs.length := by
  fun_induction splitOpener cs generalizing text with
  | case1 => simp at h
  | case2 => simp at h
  | case3 c d cs kind' hk => grind
  | case4 c d cs hk text' region' heq ih =>
    simp only [Prod.mk.injEq] at h
    obtain ⟨rfl, rfl⟩ := h
    have := ih heq
    simp only [List.length_cons] at *
    omega

theorem length_splitTrim (cs : List Char) : (splitTrim cs).2.length ≤ cs.length := by
  unfold splitTrim; split <;> simp

/-! ### The whole source -/

/-- The pieces of a source from the byte `offset` on, the text at its front trimmed if the
region before it asks so. -/
def pieces (trimStart : Bool) (cs : List Char) (offset : Nat) : Except ScanError (List Piece) :=
  match _h : splitOpener cs with
  | (text, none) => .ok (textPiece trimStart false text)
  | (text, some (kind, inside)) =>
    let opener := offset + Text.byteSize text
    let trim := splitTrim inside
    match _hr : region kind opener trim.2 (opener + 2 + if trim.1 then 1 else 0) with
    | .error e => .error e
    | .ok (piece, rest, offset, trims) =>
      match pieces trims rest offset with
      | .error e => .error e
      | .ok more => .ok (textPiece trimStart trim.1 text ++ piece ++ more)
termination_by cs.length
decreasing_by
  have := length_splitOpener _h
  have := length_region _hr
  have : trim.2.length ≤ inside.length := length_splitTrim inside
  simp only at *
  omega

/-- The line and the column, both from one, of a byte of a source. Columns count
characters. -/
def position (cs : List Char) (offset : Nat) : Nat × Nat :=
  go 1 1 0 cs
where
  go (line column size : Nat) : List Char → Nat × Nat
    | [] => (line, column)
    | c :: cs =>
      if offset ≤ size then (line, column)
      else if c = '\n' then go (line + 1) 1 (size + 1) cs
      else go line (column + 1) (size + c.utf8Size) cs

end Scanner

/-- The error of a located fault in a source. -/
def ScanError.toError (source : List Char) (e : ScanError) : Error :=
  let (line, column) := Scanner.position source e.offset
  .scan e.fault line column

/-- The tokens of an expression that stands alone. -/
def Token.scan (source : String) : Except Error (List Token) :=
  match Scanner.tokens .source [] source.toList 0 with
  | .ok r => .ok r.tokens
  | .error e => .error (e.toError source.toList)

/-- The pieces of a template. -/
def Piece.scan (source : String) : Except Error (List Piece) :=
  match Scanner.pieces false source.toList 0 with
  | .ok pieces => .ok pieces
  | .error e => .error (e.toError source.toList)

end Stencil
