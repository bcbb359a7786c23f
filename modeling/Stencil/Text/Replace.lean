/-!
# Searching and replacing

A **pattern** is searched from left to right, and what one match covers no other
match uses. The empty pattern matches before every character and at the end.
-/

namespace Stencil.Text

/-- What follows `pattern` at the front of the text. -/
def dropPattern? : (pattern text : List Char) → Option (List Char)
  | [], text => some text
  | _ :: _, [] => none
  | p :: ps, c :: cs => if p = c then dropPattern? ps cs else none

/-- Whether `pattern` occurs somewhere in the text. -/
def occurs (pattern : List Char) : List Char → Bool
  | [] => pattern.isEmpty
  | c :: cs => pattern.isPrefixOf (c :: cs) || occurs pattern cs

/-- Replaces every match of `p :: ps`; `skip` characters still belong to the
match before. -/
def replaceFrom (p : Char) (ps : List Char) (new : List Char) :
    (skip : Nat) → List Char → List Char
  | _, [] => []
  | skip + 1, _ :: cs => replaceFrom p ps new skip cs
  | 0, c :: cs =>
    if (p :: ps).isPrefixOf (c :: cs) then new ++ replaceFrom p ps new ps.length cs
    else c :: replaceFrom p ps new 0 cs

/-- The text with every match of `pattern` replaced. -/
def replaceAll (pattern new text : List Char) : List Char :=
  match pattern with
  | [] => new ++ text.flatMap fun c => c :: new
  | p :: ps => replaceFrom p ps new 0 text

/-- The pieces between the occurrences of `sep`, one more than there are. -/
def splitAt (sep : Char) : List Char → List (List Char)
  | [] => [[]]
  | c :: cs =>
    if c = sep then [] :: splitAt sep cs
    else match splitAt sep cs with
      | [] => [[c]]
      | piece :: pieces => (c :: piece) :: pieces

/-- The text with pieces behind it, `sep` before each of them. -/
def joinOnto (sep text : String) : List String → String
  | [] => text
  | s :: rest => joinOnto sep (text ++ sep ++ s) rest

/-- Joins pieces of text, `sep` between each two. -/
def join (sep : String) : List String → String
  | [] => ""
  | s :: rest => joinOnto sep s rest

theorem append_joinOnto (sep a b : String) (rest : List String) :
    joinOnto sep (a ++ b) rest = a ++ joinOnto sep b rest := by
  induction rest generalizing b with
  | nil => rfl
  | cons s rest ih => simp only [joinOnto, String.append_assoc, ih]

theorem join_cons_cons (sep s t : String) (rest : List String) :
    join sep (s :: t :: rest) = s ++ sep ++ join sep (t :: rest) := by
  simp only [join, joinOnto, append_joinOnto]

theorem splitAt_ne_nil (sep : Char) (cs : List Char) : splitAt sep cs ≠ [] := by
  cases cs with
  | nil => simp [splitAt]
  | cons c cs =>
    simp only [splitAt]
    split
    · simp
    · split <;> simp

end Stencil.Text
