import Stencil.Text.Hidden

/-!
# Quoted text

Listings and printed expressions show a text **quoted**: between double quotes, with
backslash escapes for the quote, the backslash and the usual controls, and with
`\u{...}` for every other hidden character.
-/

namespace Stencil.Text

/-- The digits of `n` in hexadecimal, small letters, without leading zeros. -/
def hexDigits (n : Nat) : List Char :=
  Nat.toDigits 16 n

/-- How quoted text shows one character. -/
def quoteChar (c : Char) : List Char :=
  if c = '\x00' then ['\\', '0']
  else if c = '\t' then ['\\', 't']
  else if c = '\r' then ['\\', 'r']
  else if c = '\n' then ['\\', 'n']
  else if c = '"' then ['\\', '"']
  else if c = '\\' then ['\\', '\\']
  else if isHidden c then ['\\', 'u', '{'] ++ hexDigits c.toNat ++ ['}']
  else [c]

/-- The text between double quotes. -/
def quote (s : String) : String :=
  "\"" ++ String.ofList (s.toList.flatMap quoteChar) ++ "\""

end Stencil.Text
