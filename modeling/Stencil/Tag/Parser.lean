import Stencil.Program.Accumulator
import Stencil.Program.Template
import Stencil.Tag.Arguments
import Stencil.Token.Scanner

/-!
# From pieces to programs

The pieces of a template are read one after the other, with a stack of **open** tags. A
tag that has a body opens a place of the accumulator to write it to; the terminator that
ends the tag closes that place again. A terminator that finds no open tag ends the
reading. A fault ends it too, and then all places opened in between are left, so that
what was written stays and the same segment is active as before.
-/

namespace Stencil.Tag

/-- The program in the making and the open tags, innermost first. Each open tag has its
own place in the accumulator. -/
structure State where
  acc : Accumulator
  opened : List OpenTag

/-- A step of the reading. What it changed before a fault stays. -/
abbrev Step := ExceptT GrammarFault (StateM State)

namespace Step

def write (i : Instr) : Step Unit :=
  modify fun s => { s with acc := s.acc.write i }

/-- Opens a tag whose body is captured. -/
def openCapture (tag : OpenTag) : Step Unit :=
  modify fun s => ⟨s.acc.enterCapture, tag :: s.opened⟩

/-- Opens a block. -/
def openBlock (name : String) : Step Unit :=
  modify fun s => ⟨s.acc.enterBlock name, .block name :: s.opened⟩

/-- Opens a macro. -/
def openMacro (name : String) : Step Unit :=
  modify fun s => ⟨s.acc.enterMacro name, .macroBody name :: s.opened⟩

/-- Leaves the place of the innermost open tag, and gives what it has captured. -/
def leave : Step (List Instr) := do
  let s ← get
  set (⟨s.acc.leave, s.opened.tail⟩ : State)
  return s.acc.captured

/-- Does something inside a block that is not left open. -/
def inBlock (name : String) (body : Step Unit) : Step Unit := fun s =>
  let (r, acc) := s.acc.withBlock name fun acc =>
    let (r, s) := body ⟨acc, s.opened⟩
    (r, s.acc)
  (r, { s with acc })

end Step

/-! ### Tags -/

/-- Reads a built-in tag. -/
def openBuiltin (tag : BuiltinTag) (args : List Token) : Step Unit := do
  match tag with
  | .condition =>
    let cond ← Expr.parse args
    Step.openCapture (.branch [] cond)
  | .loop =>
    let head ← loopHead args
    Step.openCapture (.loop head.key head.value head.iterable)
  | .set =>
    match ← setHead args with
    | (name, some value) => Step.write (.set name value)
    | (name, none) => Step.openCapture (.capture name)
  | .block =>
    let ⟨name, args, _⟩ ← Token.needId args
    Step.write (.callBlock name)
    if args.isEmpty then Step.openBlock name
    else Step.inBlock name do Step.write (.output (← Expr.parse args))
  | .extend => Step.write (.extend (← Expr.parse args))
  | .embed => Step.write (← embedHead args)
  | .macroDef =>
    let (name, params) ← macroHead args
    modify fun s => { s with acc := s.acc.setParams name params }
    Step.openMacro name
  | .importAs => Step.write (← importHead args)
  | .importNames => Step.write (← importNamesHead args)

/-- Ends the innermost open tag with a terminator that it expects. -/
def closeTag (tag : OpenTag) (term : Terminator) : Step Unit := do
  let body ← Step.leave
  match tag with
  | .branch done cond =>
    let branches := done ++ [(cond, body)]
    if term.tag = "endif" then
      Token.expectEnd "endif" term.args
      Step.write (.branch branches [])
    else if term.tag = "else" then
      Token.expectEnd "else" term.args
      Step.openCapture (.otherwise branches)
    else
      let next ← Expr.parse term.args
      Step.openCapture (.branch branches next)
  | .otherwise branches =>
    Token.expectEnd "endif" term.args
    Step.write (.branch branches body)
  | .loop key value iterable =>
    Token.expectEnd term.tag term.args
    if term.tag = "else" then Step.openCapture (.loopElse key value iterable body)
    else Step.write (.loop key value iterable body [])
  | .loopElse key value iterable first =>
    Token.expectEnd "endfor" term.args
    Step.write (.loop key value iterable first body)
  | .capture name =>
    Token.expectEnd "endset" term.args
    Step.write (.capture name body)
  | .block name => closingName term name
  | .macroBody name => closingName term name
  | .transform _ t _ => Step.write (.transform t body)

/-- Whether a terminator may end a tag that expects one of `expected`. -/
def acceptTerminator (opener : String) (expected : List String) :
    Option Terminator → Except GrammarFault Terminator
  | none => .error (.unclosed opener expected)
  | some term =>
    if term.tag ∈ expected then .ok term else .error (.tagInside term.tag opener expected)

/-- Meets a terminator. If no tag is open, it ends the reading. -/
def meetTerminator (term : Terminator) : Step (Option Terminator) := do
  match (← get).opened with
  | [] => return some term
  | tag :: _ =>
    let term ← acceptTerminator tag.opener tag.expected (some term)
    closeTag tag term
    return none

/-- Reads a tag. Gives the terminator if that ends the reading. -/
def readTag (tags : TagTable) (tokens : List Token) : Step (Option Terminator) := do
  match tokens with
  | [] => throw .emptyTag
  | t :: args =>
    if t.kind ≠ .identifier then throw (.notATagName t.text)
    match Table.find? t.text tags with
    | none => throw (.unknownTag t.text)
    | some (.builtin tag) =>
      openBuiltin tag args
      return none
    | some .terminator => meetTerminator ⟨t.text, args⟩
    | some (.transform change closer) =>
      Token.expectEnd t.text args
      Step.openCapture (.transform t.text change closer)
      return none
    | some (.constant text) =>
      Step.write (.text text)
      return none

/-- Reads a piece. Gives the terminator if that ends the reading. -/
def readPiece (tags : TagTable) : Piece → Step (Option Terminator)
  | .text s => do
    Step.write (.text s)
    return none
  | .output tokens => do
    Step.write (.output (← Expr.parse tokens))
    return none
  | .tag tokens => readTag tags tokens

/-! ### Sequences -/

/-- How the reading of a sequence ended: by a terminator or at the end of the pieces. -/
structure Outcome where
  terminator : Option Terminator := none
  hasRemaining : Bool := false
  deriving DecidableEq, Repr

/-- What reading some pieces gives: the outcome or a fault, the accumulator, and the
pieces that are left. -/
structure Reading (α : Type) where
  result : Except GrammarFault α
  acc : Accumulator
  rest : List Piece

/-- Leaves the places of all open tags. -/
def State.unwind (s : State) : Accumulator :=
  s.acc.leaveAll s.opened.length

/-- Reads pieces while tags are open or pieces are left. -/
def readFrom (tags : TagTable) (s : State) : List Piece → Reading Outcome
  | [] =>
    match s.opened with
    | [] => ⟨.ok {}, s.acc, []⟩
    | tag :: _ => ⟨.error (.unclosed tag.opener tag.expected), s.unwind, []⟩
  | piece :: rest =>
    match readPiece tags piece s with
    | (.error fault, s) => ⟨.error fault, s.unwind, rest⟩
    | (.ok (some term), s) =>
      ⟨.ok { terminator := some term, hasRemaining := !rest.isEmpty }, s.unwind, rest⟩
    | (.ok none, s) => readFrom tags s rest

/-- Reads pieces up to a terminator that no tag among them waits for. -/
def readSequence (tags : TagTable) (acc : Accumulator) (pieces : List Piece) : Reading Outcome :=
  readFrom tags ⟨acc, []⟩ pieces

/-- Reads pieces up to one of the expected terminators, into the active segment. -/
def readUntil (tags : TagTable) (acc : Accumulator) (pieces : List Piece) (opener : String)
    (expected : List String) : Reading Terminator :=
  let r := readSequence tags acc pieces
  { r with result := r.result.bind fun o => acceptTerminator opener expected o.terminator }

/-- Reads pieces up to one of the expected terminators, and gives what they are compiled
to. -/
def readBody (tags : TagTable) (acc : Accumulator) (pieces : List Piece) (opener : String)
    (expected : List String) : Reading (List Instr × Terminator) :=
  let r := readUntil tags acc.enterCapture pieces opener expected
  { r with
    result := r.result.map fun term => (r.acc.captured, term)
    acc := r.acc.leave }

end Stencil.Tag

namespace Stencil

/-- Compiles pieces to a program. No terminator may be left over. -/
def Program.ofPieces (tags : TagTable) (pieces : List Piece) : Except GrammarFault Program :=
  let r := Tag.readSequence tags {} pieces
  match r.result with
  | .error fault => .error fault
  | .ok o =>
    match o.terminator with
    | some term => .error (.tagAtRoot term.tag)
    | none => .ok r.acc.finish

/-- Compiles the source of a template. -/
def Draft.compile (tags : TagTable) (source name : String) : Except Error Draft := do
  let pieces ← Piece.scan source
  match Program.ofPieces tags pieces with
  | .ok program => return { name, program }
  | .error fault => throw (.grammar fault)

end Stencil
