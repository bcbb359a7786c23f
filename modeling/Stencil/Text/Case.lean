import Stencil.Text.CaseMap
import Stencil.Text.Replace

/-!
# Letter case of whole texts

Capitals are taken character by character. Small letters are too, with one
exception: a capital sigma that **ends a word** becomes a final sigma. A capitalized
word has a capital first character and small ones after it, without that exception.
-/

namespace Stencil.Text

/-- The text in capitals. -/
def upper (s : String) : String :=
  String.ofList (s.toList.flatMap upperChar)

/-- Whether a cased character comes next, characters that case ignores aside. -/
def meetsCased (cs : List Char) : Bool :=
  match cs.dropWhile isCaseIgnorable with
  | [] => false
  | c :: _ => isCased c

/-- The small form of the text that follows the characters `before`, nearest first. -/
def lowerAfter (before : List Char) : List Char → List Char
  | [] => []
  | c :: cs =>
    let small :=
      if c = 'Σ' then [if meetsCased before && !meetsCased cs then 'ς' else 'σ']
      else lowerChar c
    small ++ lowerAfter (c :: before) cs

/-- The text in small letters. -/
def lower (s : String) : String :=
  String.ofList (lowerAfter [] s.toList)

/-- The first character in capital form and all others in small form. -/
def capitalizeChars : List Char → List Char
  | [] => []
  | c :: cs => upperChar c ++ cs.flatMap lowerChar

/-- The text with a capital at its front only. -/
def capitalize (s : String) : String :=
  String.ofList (capitalizeChars s.toList)

/-- The text with each word capitalized, words being what stands between spaces. -/
def title (s : String) : String :=
  join " " ((splitAt ' ' s.toList).map fun word => String.ofList (capitalizeChars word))

end Stencil.Text
