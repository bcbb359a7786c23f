import Stencil.Json.Basic
import Stencil.Text.Utf8

/-!
# Reading JSON

Reads a JSON text to its end or to its first **fault**, which is found at a place in the
text. Containers nest less than 128 deep. A fault seen ahead lies after the byte that
shows it, one found in what was read lies where reading stopped; the place is told as a
line and a column, the column counting the bytes since the last line feed.
-/

namespace Stencil.Json

/-- Why a text is not JSON. -/
inductive Fault where
  | listEnds
  | objectEnds
  | stringEnds
  | valueEnds
  | colonExpected
  | listCommaExpected
  | objectCommaExpected
  | wordExpected
  | valueExpected
  | badEscape
  | badNumber
  | numberRange
  | controlChar
  | keyExpected
  | loneSurrogate
  | trailingComma
  | trailing
  | escapeEnds
  | tooDeep
  deriving DecidableEq, Repr

def Fault.message : Fault → String
  | .listEnds => "EOF while parsing a list"
  | .objectEnds => "EOF while parsing an object"
  | .stringEnds => "EOF while parsing a string"
  | .valueEnds => "EOF while parsing a value"
  | .colonExpected => "expected `:`"
  | .listCommaExpected => "expected `,` or `]`"
  | .objectCommaExpected => "expected `,` or `\x7d`"
  | .wordExpected => "expected ident"
  | .valueExpected => "expected value"
  | .badEscape => "invalid escape"
  | .badNumber => "invalid number"
  | .numberRange => "number out of range"
  | .controlChar => "control character (\\u0000-\\u001F) found while parsing a string"
  | .keyExpected => "key must be a string"
  | .loneSurrogate => "lone leading surrogate in hex escape"
  | .trailingComma => "trailing comma"
  | .trailing => "trailing characters"
  | .escapeEnds => "unexpected end of hex escape"
  | .tooDeep => "recursion limit exceeded"

/-- The text that is left, and how many bytes were read. -/
structure Cursor where
  rest : List Char
  read : Nat := 0

/-- A fault and the byte offset of its place. -/
structure Located where
  fault : Fault
  offset : Nat

/-- What was read, and where reading goes on. -/
abbrev Read (α : Type) := α × Cursor

namespace Cursor

/-- Reads one character. -/
def step (c : Cursor) : Cursor :=
  match c.rest with
  | [] => c
  | ch :: rest => ⟨rest, c.read + ch.utf8Size⟩

/-- Reads as many characters as there are in `taken`. -/
def skip (taken : List Char) (c : Cursor) : Cursor :=
  ⟨c.rest.drop taken.length, c.read + Text.byteSize taken⟩

/-- A fault in what was read. -/
def failHere {α : Type} (c : Cursor) (fault : Fault) : Except Located α :=
  .error ⟨fault, c.read⟩

/-- A fault in the next byte, which is read. -/
def failAt {α : Type} (c : Cursor) (fault : Fault) : Except Located α :=
  .error ⟨fault, c.read + 1⟩

/-- A fault in what comes next. -/
def failAhead {α : Type} (c : Cursor) (fault : Fault) : Except Located α :=
  .error ⟨fault, if c.rest.isEmpty then c.read else c.read + 1⟩

def isBlank (ch : Char) : Bool :=
  ch == ' ' || ch == '\n' || ch == '\t' || ch == '\r'

/-- Skips blanks. -/
def skipBlanks (c : Cursor) : Cursor :=
  c.skip (c.rest.takeWhile isBlank)

end Cursor

/-! ### Words -/

/-- Reads the rest of a word. -/
def readWord (value : Json) : List Char → Cursor → Except Located (Read Json)
  | [], c => .ok (value, c)
  | w :: ws, c =>
    match c.rest with
    | [] => c.failHere .valueEnds
    | ch :: _ => if ch = w then readWord value ws c.step else c.failAt .wordExpected

/-! ### Numbers -/

/-- The greatest size of an exponent. -/
def maxExponent : Nat := 2147483647

/-- The digits up to the one that, at the end of `size`, makes it too large for an
exponent, if there is such a digit. -/
def overflow? (size : Nat) : List Char → Option (List Char)
  | [] => none
  | c :: cs =>
    let next := size * 10 + (c.toNat - '0'.toNat)
    if maxExponent < next then some [c] else (overflow? next cs).map (c :: ·)

/-- Reads the exponent after its letter. One that is too large is a fault at the digit that
makes it so, unless the number is zero all the same. -/
def readExponent (n : Numeral) (c : Cursor) : Except Located (Read Numeral) :=
  let (negative, c) := match c.rest with
    | '+' :: _ => (false, c.step)
    | '-' :: _ => (true, c.step)
    | _ => (false, c)
  match c.rest with
  | [] => c.failHere .valueEnds
  | ch :: _ =>
    if !ch.isDigit then c.failAt .badNumber
    else
      let digits := c.rest.takeWhile Char.isDigit
      let size := (Nat.ofDigitChars 10 digits 0 : Int)
      let n' := { n with exponent := some (if negative then -size else size) }
      match overflow? 0 digits with
      | none => .ok (n', c.skip digits)
      | some seen =>
        if negative || n.isZero then .ok (n', c.skip digits)
        else (c.skip seen).failHere .numberRange

/-- Reads what follows the whole digits. -/
def readTail (n : Numeral) (c : Cursor) : Except Located (Read Numeral) :=
  match c.rest with
  | 'e' :: _ | 'E' :: _ => readExponent n c.step
  | _ => .ok (n, c)

/-- Reads the fraction, if there is one, and the exponent. -/
def readFraction (n : Numeral) (c : Cursor) : Except Located (Read Numeral) :=
  match c.rest with
  | '.' :: _ =>
    let c := c.step
    let digits := c.rest.takeWhile Char.isDigit
    if digits.isEmpty then
      c.failAhead (if c.rest.isEmpty then .valueEnds else .badNumber)
    else readTail { n with fraction := some digits } (c.skip digits)
  | _ => readTail n c

/-- Reads a number after its sign. -/
def readNumber (negative : Bool) (c : Cursor) : Except Located (Read Json) := do
  match c.rest with
  | [] => c.failHere .valueEnds
  | '0' :: rest =>
    match rest with
    | d :: _ => if d.isDigit then c.step.failAhead .badNumber
    | [] => pure ()
    finish ['0']
  | ch :: _ =>
    if ch.isDigit then finish (c.rest.takeWhile Char.isDigit)
    else c.failAt .badNumber
where
  /-- Completes a number of these whole digits. -/
  finish (whole : List Char) : Except Located (Read Json) := do
    let (n, c) ← readFraction { negative, whole } (c.skip whole)
    if n.toDatum?.isNone then c.failHere .numberRange
    return (.number n, c)

/-! ### Strings -/

/-- The value of four hexadecimal digits. -/
def hexValue? (ds : List Char) : Option Nat :=
  if ds.length = 4 then Number.readNat? 16 ds else none

/-- Reads four hexadecimal digits. -/
def readHex (c : Cursor) : Except Located (Read Nat) :=
  let four := c.rest.take 4
  match hexValue? four with
  | some n => .ok (n, c.skip four)
  | none =>
    let left := Text.byteSize c.rest
    if left < 4 then .error ⟨.stringEnds, c.read + left⟩ else .error ⟨.badEscape, c.read + 4⟩

/-- Reads the second half of a surrogate pair whose first half is `high`. -/
def readLowSurrogate (high : Nat) (c : Cursor) : Except Located (Read Char) := do
  let expect (ch : Char) (c : Cursor) : Except Located Cursor :=
    match c.rest with
    | [] => c.failHere .stringEnds
    | d :: _ => if d = ch then .ok c.step else c.failAt .escapeEnds
  let c ← expect '\\' c
  let c ← expect 'u' c
  let (low, c) ← readHex c
  if low < 0xdc00 || 0xdfff < low then c.failHere .loneSurrogate
  return (Char.ofNat (0x10000 + (high - 0xd800) * 0x400 + (low - 0xdc00)), c)

/-- Reads an escape after its backslash. -/
def readEscape (c : Cursor) : Except Located (Read Char) := do
  match c.rest with
  | [] => c.failHere .stringEnds
  | '"' :: _ => return ('"', c.step)
  | '\\' :: _ => return ('\\', c.step)
  | '/' :: _ => return ('/', c.step)
  | 'b' :: _ => return ('\x08', c.step)
  | 'f' :: _ => return ('\x0c', c.step)
  | 'n' :: _ => return ('\n', c.step)
  | 'r' :: _ => return ('\r', c.step)
  | 't' :: _ => return ('\t', c.step)
  | 'u' :: _ =>
    let (n, c) ← readHex c.step
    if 0xdc00 ≤ n && n ≤ 0xdfff then c.failHere .loneSurrogate
    else if 0xd800 ≤ n && n ≤ 0xdbff then readLowSurrogate n c
    else return (Char.ofNat n, c)
  | _ => c.failAt .badEscape

/-- Reads a string after its opening quote. `fuel` bounds the number of characters. -/
def readString (before : List Char) : (fuel : Nat) → Cursor → Except Located (Read String)
  | 0, c => c.failHere .stringEnds
  | fuel + 1, c =>
    match c.rest with
    | [] => c.failHere .stringEnds
    | '"' :: _ => .ok (String.ofList before.reverse, c.step)
    | '\\' :: _ => do
      let (ch, c) ← readEscape c.step
      readString (ch :: before) fuel c
    | ch :: _ =>
      if ch.toNat < 0x20 then c.failAt .controlChar
      else readString (ch :: before) fuel c.step

/-- Reads a string after its opening quote. -/
def readText (c : Cursor) : Except Located (Read String) :=
  readString [] (c.rest.length + 1) c

/-! ### Values -/

mutual

/-- Reads a value. `room` says how many containers may still be opened inside each other,
`fuel` bounds the number of steps by the length of the text. -/
def readValue (room : Nat) : (fuel : Nat) → Cursor → Except Located (Read Json)
  | 0, c => c.failAhead .valueEnds
  | fuel + 1, c => do
    let c := c.skipBlanks
    match c.rest with
    | [] => c.failAhead .valueEnds
    | 'n' :: _ => readWord .null ['u', 'l', 'l'] c.step
    | 't' :: _ => readWord (.bool true) ['r', 'u', 'e'] c.step
    | 'f' :: _ => readWord (.bool false) ['a', 'l', 's', 'e'] c.step
    | '-' :: _ => readNumber true c.step
    | '"' :: _ =>
      let (s, c) ← readText c.step
      return (.str s, c)
    | '[' :: _ =>
      match room with
      | 0 => c.failAhead .tooDeep
      | room + 1 => readItems room [] fuel c.step
    | '{' :: _ =>
      match room with
      | 0 => c.failAhead .tooDeep
      | room + 1 => readMembers room [] fuel c.step
    | ch :: _ => if ch.isDigit then readNumber false c else c.failAhead .valueExpected

/-- Reads the items of a list that follow those in `before`, last one first. -/
def readItems (room : Nat) (before : List Json) : (fuel : Nat) → Cursor → Except Located (Read Json)
  | 0, c => c.failAhead .listEnds
  | fuel + 1, c => do
    let c := c.skipBlanks
    match c.rest with
    | [] => c.failAhead .listEnds
    | ']' :: _ => return (.array before.reverse, c.step)
    | ch :: _ =>
      let c ←
        if before.isEmpty then pure c
        else if ch ≠ ',' then c.failAhead .listCommaExpected
        else
          let c := c.step.skipBlanks
          match c.rest with
          | [] => c.failAhead .valueEnds
          | ']' :: _ => c.failAhead .trailingComma
          | _ => pure c
      let (item, c) ← readValue room fuel c
      readItems room (item :: before) fuel c

/-- Reads the members of an object that follow those in `before`, last one first. -/
def readMembers (room : Nat) (before : List (String × Json)) :
    (fuel : Nat) → Cursor → Except Located (Read Json)
  | 0, c => c.failAhead .objectEnds
  | fuel + 1, c => do
    let c := c.skipBlanks
    match c.rest with
    | [] => c.failAhead .objectEnds
    | '}' :: _ => return (.object before.reverse, c.step)
    | ch :: _ =>
      let c ←
        if before.isEmpty then pure c
        else if ch ≠ ',' then c.failAhead .objectCommaExpected
        else
          let c := c.step.skipBlanks
          match c.rest with
          | [] => c.failAhead .valueEnds
          | '}' :: _ => c.failAhead .trailingComma
          | _ => pure c
      match c.rest with
      | '"' :: _ =>
        let (key, c) ← readText c.step
        let c := c.skipBlanks
        match c.rest with
        | [] => c.failAhead .objectEnds
        | ':' :: _ =>
          let (value, c) ← readValue room fuel c.step
          readMembers room ((key, value) :: before) fuel c
        | _ => c.failAhead .colonExpected
      | _ => c.failAhead .keyExpected

end

/-- How deep containers may nest. -/
def nesting : Nat := 127

/-- Reads a whole text. -/
def read (text : String) : Except Located Json := do
  let cs := text.toList
  let (value, c) ← readValue nesting (2 * cs.length + 2) ⟨cs, 0⟩
  let c := c.skipBlanks
  if c.rest.isEmpty then return value else c.failAhead .trailing

/-- The line and the column of a byte offset. -/
def position (bytes : List UInt8) (offset : Nat) : Nat × Nat :=
  let before := bytes.take offset
  let lines := before.count 10
  (lines + 1, (before.reverse.takeWhile (· != 10)).length)

/-- The fault with its place, as it is reported. -/
def Located.message (text : String) (e : Located) : String :=
  let (line, column) := position text.toUTF8.toList e.offset
  e.fault.message ++ " at line " ++ toString line ++ " column " ++ toString column

end Stencil.Json
