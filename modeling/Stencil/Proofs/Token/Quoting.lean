import Stencil.Proofs.Token.Division

/-!
# Spelling a text as a string literal

Any text can be written between double quotes: a backslash goes before each quote and before each
backslash, and all other characters stand for themselves. What is written so is one lexeme that
means the text, whatever follows it, since the scanner meets neither the closing quote nor a
closing delimiter before the end of the literal.
-/

namespace Stencil

namespace Lexeme

/-- A text as it is spelled between double quotes. -/
def escaped (cs : List Char) : List Char :=
  cs.flatMap fun c => if c = '\\' ∨ c = '"' then ['\\', c] else [c]

/-- A text as a string literal. -/
def literal (cs : List Char) : List Char :=
  '"' :: (escaped cs ++ ['"'])

/-- What is spelled between quotes ends at the closing quote, and means the text. -/
theorem quoted?_escaped (cs rest : List Char) :
    quoted? '"' (escaped cs ++ '"' :: rest) = some (escaped cs ++ ['"'], cs) := by
  induction cs with
  | nil => simp [escaped, quoted?.eq_def]
  | cons c cs ih =>
    rw [escaped, List.flatMap_cons, ← escaped]
    split
    next hc =>
      have hunescape : unescape c = c := by rcases hc with rfl | rfl <;> rfl
      simp [quoted?, ih, hunescape]
    next hc =>
      obtain ⟨hbackslash, hquote⟩ := not_or.mp hc
      rw [List.append_assoc, List.singleton_append, quoted?.eq_def]
      simp [ih, hbackslash, hquote]

theorem read_literal (cs rest : List Char) :
    read '"' (escaped cs ++ '"' :: rest) = .ok ⟨.string, literal cs, cs⟩ := by
  have hword : isWordStart '"' = false := by decide
  have hdigit : '"'.isDigit = false := by decide
  rw [read, quoted?_escaped]
  simp [hword, hdigit, literal]

end Lexeme

namespace Scanner

variable {kind : RegionKind}

/-- No region closes at a character that is neither a mark nor the first one of the delimiter. -/
theorem not_closes_cons {c : Char} (hdash : c ≠ '-') (hmark : c ≠ kind.endMark) (cs : List Char) :
    ¬ Closes kind (c :: cs) := by
  rintro ⟨trim, more, hmore⟩
  cases trim
  · exact hmark (List.cons.inj hmore).1.symm
  · exact hdash (List.cons.inj hmore).1.symm

/-- A string literal is read as one token. -/
theorem Reads.literal {tail rest : List Char} {offset : Nat} {ts : List Token} (cs : List Char)
    (h : Reads kind tail (offset + Text.byteSize (Lexeme.literal cs)) rest ts) :
    Reads kind tail offset (Lexeme.literal cs ++ rest)
      (⟨.string, String.ofList cs, offset⟩ :: ts) := by
  have hread := Lexeme.read_literal cs (rest ++ tail)
  have hclosed : ¬ Closes kind ('"' :: (Lexeme.escaped cs ++ '"' :: rest) ++ tail) :=
    not_closes_cons (by decide) (by cases kind <;> decide) _
  have hspelled : Lexeme.literal cs ++ rest = '"' :: (Lexeme.escaped cs ++ '"' :: rest) := by
    simp [Lexeme.literal]
  rw [hspelled]
  refine .lexeme (l := ⟨.string, Lexeme.literal cs, cs⟩) hclosed ?_ hspelled.symm h
  rw [← hread]
  simp

end Scanner

end Stencil
