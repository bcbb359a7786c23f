import Stencil.Text.Blank
import Stencil.Token.Basic

/-!
# Lexemes

A **lexeme** is the stretch of source text that makes one token: a word, a number, a
string between quotes of either kind, or an operator, of which the longer one is taken
where two fit. `Lexeme.read` finds the lexeme at the front of a text.
-/

namespace Stencil

/-- A stretch of text and the token that it makes. -/
structure Lexeme where
  kind : TokenKind
  raw : List Char
  text : List Char
  deriving DecidableEq, Repr

namespace Lexeme

/-- A letter or an underscore, of ASCII alone. -/
def isWordStart (c : Char) : Bool :=
  c.isAlpha || c = '_'

def isWordChar (c : Char) : Bool :=
  c.isAlphanum || c = '_'

def isHexDigit (c : Char) : Bool :=
  c.isDigit || ('a' ≤ c && c ≤ 'f') || ('A' ≤ c && c ≤ 'F')

def isRadixMark (c : Char) : Bool :=
  c = 'x' || c = 'X' || c = 'b' || c = 'B'

/-- The operators of two characters. -/
def longOperators : List (Char × Char) :=
  [('.', '.'), ('/', '/'), ('*', '*'), ('=', '='), ('!', '='), ('<', '='), ('>', '=')]

/-- The operators of one character. -/
def shortOperators : List Char :=
  ['(', ')', '[', ']', '{', '}', ',', '.', ':', '|', '?', '=', '<', '>', '+', '-', '*', '/',
   '%', '~']

/-- A fraction at the front of a text: a point and digits. `1..3` has none after the `1`. -/
def fraction : List Char → List Char
  | '.' :: d :: cs => if d.isDigit then '.' :: d :: cs.takeWhile Char.isDigit else []
  | _ => []

/-- Digits and a fraction. -/
def decimal (cs : List Char) : List Char :=
  cs.takeWhile Char.isDigit ++ fraction (cs.dropWhile Char.isDigit)

/-- The number at the front of a text that begins with a digit. A radix mark counts only
if something follows it. -/
def number : List Char → List Char
  | '0' :: x :: c :: cs =>
    if isRadixMark x then '0' :: x :: (c :: cs).takeWhile isHexDigit
    else decimal ('0' :: x :: c :: cs)
  | cs => decimal cs

/-- The character that a backslash and `c` stand for. -/
def unescape (c : Char) : Char :=
  if c = 'n' then '\n' else if c = 't' then '\t' else if c = 'r' then '\r' else c

/-- What follows the opening quote of a string, up to its closing quote: as it is spelled
and as it is meant. -/
def quoted? (quote : Char) : List Char → Option (List Char × List Char)
  | [] => none
  | c :: cs =>
    if c = '\\' then
      match cs with
      | [] => none
      | e :: cs => (quoted? quote cs).map fun (raw, text) => (c :: e :: raw, unescape e :: text)
    else if c = quote then some ([c], [])
    else (quoted? quote cs).map fun (raw, text) => (c :: raw, c :: text)

/-- The lexeme of a spelling that means itself. -/
def plain (kind : TokenKind) (raw : List Char) : Lexeme :=
  ⟨kind, raw, raw⟩

/-- The operator at the front of a text. -/
def operator? (c : Char) (cs : List Char) : Option Lexeme :=
  let short := if shortOperators.contains c then some (plain .operator [c]) else none
  match cs with
  | d :: _ => if longOperators.contains (c, d) then some (plain .operator [c, d]) else short
  | [] => short

/-- The lexeme at the front of the text `c :: cs`. -/
def read (c : Char) (cs : List Char) : Except ScanFault Lexeme :=
  if isWordStart c then .ok (plain .identifier (c :: cs.takeWhile isWordChar))
  else if c.isDigit then .ok (plain .number (number (c :: cs)))
  else if c = '"' || c = '\'' then
    match quoted? c cs with
    | some (raw, text) => .ok ⟨.string, c :: raw, text⟩
    | none => .error .unterminatedString
  else match operator? c cs with
    | some lexeme => .ok lexeme
    | none => .error (.unexpectedChar c)

/-- A lexeme is not empty. -/
theorem length_pos_of_read {c : Char} {cs : List Char} {l : Lexeme} (h : read c cs = .ok l) :
    0 < l.raw.length := by
  unfold read at h
  split at h
  · injection h with h; subst h; simp [plain]
  · split at h
    · next hd =>
      injection h with h
      subst h
      simp only [plain]
      unfold number
      split
      · split <;> simp [decimal, List.takeWhile_cons]
      · simp [decimal, hd]
    · split at h
      · split at h
        · injection h with h; subst h; simp
        · exact absurd h (by simp)
      · split at h
        · next lexeme ho =>
          injection h with h
          subst h
          unfold operator? at ho
          grind [plain]
        · exact absurd h (by simp)

end Lexeme

end Stencil
