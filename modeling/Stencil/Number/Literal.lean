import Stencil.Number.Reading
import Stencil.Text.Blank

/-!
# Number literals

A literal without a radix of its own says its radix by how it begins: `0x` for
sixteen, `0b` for two, a `0` before more characters for eight, anything else for ten.
Blanks around a literal do not count.
-/

namespace Stencil.Number

/-- A base for digits, between two and thirty-six. -/
structure Radix where
  val : Nat
  two_le : 2 ≤ val := by decide
  le_thirtySix : val ≤ 36 := by decide

namespace Radix

def binary : Radix := ⟨2, by decide, by decide⟩
def octal : Radix := ⟨8, by decide, by decide⟩
def decimal : Radix := ⟨10, by decide, by decide⟩
def hexadecimal : Radix := ⟨16, by decide, by decide⟩

/-- The radix of this size, if digits can be written in it. -/
def ofNat? (n : Nat) : Option Radix :=
  if h : 2 ≤ n ∧ n ≤ 36 then some ⟨n, h.1, h.2⟩ else none

end Radix

/-- The radix that a literal's beginning says, and the digits after it. -/
def splitRadix : List Char → Radix × List Char
  | '0' :: 'x' :: cs => (.hexadecimal, cs)
  | '0' :: 'X' :: cs => (.hexadecimal, cs)
  | '0' :: 'b' :: cs => (.binary, cs)
  | '0' :: 'B' :: cs => (.binary, cs)
  | '0' :: c :: cs => (.octal, c :: cs)
  | cs => (.decimal, cs)

/-- The integer that a literal stands for. -/
def interpretInteger? (text : String) (radix : Option Radix) : Option Int64 :=
  let cs := Text.trim text.toList
  match radix with
  | some r => readInteger? r.val cs
  | none =>
    let (r, digits) := splitRadix cs
    readInteger? r.val digits

/-- The number that a literal stands for. Without a given radix a literal with a point
is a decimal. -/
def interpretNumber? (text : String) (radix : Option Radix) : Option Float :=
  let cs := Text.trim text.toList
  if radix.isNone && cs.contains '.' then readFloat? cs
  else (interpretInteger? text radix).map floatOf

end Stencil.Number
