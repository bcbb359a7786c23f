import Stencil.Number.Layout

/-!
# JSON text of leaves

How JSON writes a string and a number. Only the quote, the backslash and the control
characters below the space are escaped. A float always shows that it is one, by a point
or by an exponent; a value that is no number is written `null`.
-/

namespace Stencil.Json

/-- The last four hexadecimal digits of a code point. -/
def fourDigits (n : Nat) : List Char :=
  let ds := Nat.toDigits 16 n
  List.replicate (4 - ds.length) '0' ++ ds

/-- How a JSON string shows one character. -/
def quoteChar (c : Char) : List Char :=
  if c = '"' then ['\\', '"']
  else if c = '\\' then ['\\', '\\']
  else if c = '\n' then ['\\', 'n']
  else if c = '\r' then ['\\', 'r']
  else if c = '\t' then ['\\', 't']
  else if c = '\x08' then ['\\', 'b']
  else if c = '\x0c' then ['\\', 'f']
  else if c.toNat < 0x20 then '\\' :: 'u' :: fourDigits c.toNat
  else [c]

/-- A text as a JSON string. -/
def quote (s : String) : String :=
  "\"" ++ String.ofList (s.toList.flatMap quoteChar) ++ "\""

/-- Floats between 10⁻⁵ and 10¹⁶ are written out in places. -/
def floatLayout : Layout where
  places := some (-5, 15)
  keepsPoint := true
  signsExponent := true
  tie := .even
  nan := "null"
  infinity := "null"
  minusInfinity := "null"

/-- A float as a JSON number. -/
def writeFloat (x : Float) : String :=
  floatLayout.write x

end Stencil.Json
