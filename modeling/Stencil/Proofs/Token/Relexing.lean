import Stencil.Proofs.Expr.Levels
import Stencil.Proofs.Token.Quoting
import Stencil.Proofs.Token.Standalone

/-!
# Tokens and their spelling

The tokens of an expression hold all of its text but for the blanks. The text is **laid out** along
them (`Token.Laid`): before each token there are blanks, and where the token begins it is spelled,
by its own text, or by a literal that means it if it is a string.

How a text was split cannot be told from its tokens, since a lexeme is the longest one and two of
them may touch. It need not be told: if each token is spelled and a blank is put behind it, then the
same lexemes are read again (`Token.scan_lossless`). The blank stops any lexeme, and a lexeme that
is taken out of its text is read as it was. A string alone may have been spelled in another way,
with the other quote or with escapes that are not needed.
-/

namespace Stencil

namespace Lexeme

variable {c : Char} {cs : List Char} {l : Lexeme}

/-- Whether the inside of a literal means a text: a backslash goes with the character behind it, and
the quote does not stand alone. -/
inductive Unescapes (quote : Char) : List Char → List Char → Prop
  | nil : Unescapes quote [] []
  | char {c : Char} {cs text : List Char} (hbackslash : c ≠ '\\') (hquote : c ≠ quote)
      (h : Unescapes quote cs text) : Unescapes quote (c :: cs) (c :: text)
  | escape {c : Char} {cs text : List Char} (h : Unescapes quote cs text) :
      Unescapes quote ('\\' :: c :: cs) (unescape c :: text)

/-- What is read behind a quote is a text and the closing quote. -/
theorem unescapes_of_quoted? {quote : Char} {raw text : List Char}
    (h : quoted? quote cs = some (raw, text)) :
    ∃ inside, raw = inside ++ [quote] ∧ Unescapes quote inside text := by
  fun_induction quoted? quote cs generalizing raw text with
  | case1 => cases h
  | case2 => cases h
  | case3 e cs ih =>
    simp only [Option.map_eq_some_iff, Prod.mk.injEq, Prod.exists] at h
    obtain ⟨raw, text, h, rfl, rfl⟩ := h
    obtain ⟨inside, rfl, hinside⟩ := ih h
    exact ⟨_, rfl, .escape hinside⟩
  | case4 cs hbackslash =>
    cases h
    exact ⟨[], rfl, .nil⟩
  | case5 c cs hbackslash hquote ih =>
    simp only [Option.map_eq_some_iff, Prod.mk.injEq, Prod.exists] at h
    obtain ⟨raw, text, h, rfl, rfl⟩ := h
    obtain ⟨inside, rfl, hinside⟩ := ih h
    exact ⟨_, rfl, .char hbackslash hquote hinside⟩

theorem eq_plain_of_operator? (h : operator? c cs = some l) : l = plain .operator l.raw := by
  have hshort (h : operator? c [] = some l) : l = plain .operator l.raw := by
    rw [operator?_nil] at h
    split at h
    · cases h
      rfl
    · cases h
  cases cs with
  | nil => exact hshort h
  | cons d cs =>
    rw [operator?_cons] at h
    split at h
    · cases h
      rfl
    · exact hshort h

/-- A lexeme that is no string is spelled by its own text, and a string by a literal that means
it. -/
theorem spelling_of_read (h : read c cs = .ok l) :
    (l.kind ≠ .string ∧ l.raw = l.text) ∨
      l.kind = .string ∧ (c = '"' ∨ c = '\'') ∧
        ∃ inside, l.raw = c :: (inside ++ [c]) ∧ Unescapes c inside l.text := by
  cases read_eq_ok_iff.mp h with
  | word => exact .inl ⟨by simp [plain], rfl⟩
  | number => exact .inl ⟨by simp [plain], rfl⟩
  | string hquote hquoted =>
    obtain ⟨inside, rfl, hinside⟩ := unescapes_of_quoted? hquoted
    exact .inr ⟨rfl, hquote, inside, rfl, hinside⟩
  | operator _ _ _ hoperator =>
    rw [eq_plain_of_operator? hoperator]
    exact .inl ⟨by simp [plain], rfl⟩

end Lexeme

open Lexeme Scanner

namespace Token

/-! ### Where the tokens lie in a text -/

/-- Whether a text spells the token. -/
def SpelledAs (t : Token) (raw : List Char) : Prop :=
  if t.kind = .string then
    ∃ quote ∈ ['"', '\''], ∃ inside, raw = quote :: (inside ++ [quote]) ∧
      Unescapes quote inside t.text.toList
  else raw = t.text.toList

/-- Whether a text that begins at a byte is made of blanks and of tokens, which lie where their
offsets say. -/
inductive Laid : Nat → List Char → List Token → Prop
  | nil {offset : Nat} {blanks : List Char} (hblanks : ∀ c ∈ blanks, Text.isAsciiBlank c = true) :
      Laid offset blanks []
  | token {offset : Nat} {blanks raw rest : List Char} {t : Token} {ts : List Token}
      (hblanks : ∀ c ∈ blanks, Text.isAsciiBlank c = true) (hspelled : t.SpelledAs raw)
      (hoffset : t.offset = offset + Text.byteSize blanks)
      (h : Laid (t.offset + Text.byteSize raw) rest ts) :
      Laid offset (blanks ++ raw ++ rest) (t :: ts)

variable {offset : Nat} {tail cs : List Char} {ts : List Token} {t : Token}

theorem Laid.blank {c : Char} (hc : Text.isAsciiBlank c = true) (h : Laid (offset + 1) cs ts) :
    Laid offset (c :: cs) ts := by
  cases h with
  | nil hblanks => exact .nil (by simpa using ⟨hc, hblanks⟩)
  | @token _ blanks raw rest t ts hblanks hspelled hoffset h =>
    have hblanks' : ∀ d ∈ c :: blanks, Text.isAsciiBlank d = true := by simpa using ⟨hc, hblanks⟩
    have hoffset' : t.offset = offset + Text.byteSize (c :: blanks) := by
      rw [hoffset, Text.byteSize, Text.utf8Size_of_isAsciiBlank hc, Nat.add_assoc]
    exact .token hblanks' hspelled hoffset' h

theorem spelledAs_of_read {c : Char} {l : Lexeme} (h : Lexeme.read c cs = .ok l) (offset : Nat) :
    SpelledAs ⟨l.kind, String.ofList l.text, offset⟩ l.raw := by
  rw [SpelledAs]
  dsimp only
  rw [String.toList_ofList]
  rcases spelling_of_read h with ⟨hkind, hraw⟩ | ⟨hkind, hquote, inside, hraw, hinside⟩
  · rw [if_neg hkind, hraw]
  · rw [if_pos hkind]
    exact ⟨c, by simpa using hquote, inside, hraw, hinside⟩

/-- A text is laid out as it is read. -/
theorem laid_of_lexes (h : Lexes tail offset cs ts) : Laid offset cs ts := by
  induction h with
  | nil offset => exact .nil (by simp)
  | blank hc _ ih => exact ih.blank hc
  | @lexeme offset c cs rest ts l hread hraw _ ih =>
    rw [hraw, ← List.nil_append l.raw]
    exact .token (by simp) (spelledAs_of_read hread offset) rfl ih

/-! ### Spelling tokens -/

/-- The token as it is printed: a string between double quotes, any other as its text is. -/
def spelling (t : Token) : List Char :=
  if t.kind = .string then literal t.text.toList else t.text.toList

/-- The tokens in print, each with a blank behind it. -/
def printed (ts : List Token) : String :=
  String.ofList (ts.flatMap fun t => t.spelling ++ [' '])

/-- Whether there is a lexeme that makes the token. -/
def IsRead (t : Token) : Prop :=
  ∃ c cs l, Lexeme.read c cs = .ok l ∧ l.kind = t.kind ∧ String.ofList l.text = t.text

theorem isRead_of_lexes (h : Lexes tail offset cs ts) : ∀ t ∈ ts, t.IsRead := by
  induction h with
  | nil offset => simp
  | blank _ _ ih => exact ih
  | @lexeme offset c cs rest ts l hread _ _ ih =>
    rw [List.forall_mem_cons]
    exact ⟨⟨c, cs ++ tail, l, hread, rfl, rfl⟩, ih⟩

/-- A token that is read is read from its spelling, if that is stopped. -/
theorem IsRead.read_spelling {m : Char} (h : t.IsRead) (hm : Stops m) (rest : List Char) :
    ∃ c w, t.spelling = c :: w ∧
      Lexeme.read c (w ++ m :: rest) = .ok ⟨t.kind, t.spelling, t.text.toList⟩ := by
  obtain ⟨c, cs, ⟨kind, raw, text⟩, hread, rfl, htext⟩ := h
  dsimp only at hread htext ⊢
  have hlist : t.text.toList = text := by rw [← htext, String.toList_ofList]
  rw [spelling, hlist]
  rcases spelling_of_read hread with ⟨hkind, hraw⟩ | ⟨hkind, -⟩
  · dsimp only at hkind hraw
    subst hraw
    obtain ⟨w, more, hw, rfl⟩ := exists_of_read hread
    rw [if_neg hkind]
    exact ⟨c, w, hw, read_raw hm hread hw rest⟩
  · dsimp only at hkind
    rw [if_pos hkind, hkind]
    refine ⟨'"', _, rfl, ?_⟩
    simpa using read_literal text (m :: rest)

/-- Tokens that are read are read again from print. -/
theorem lexes_printed (hts : ∀ t ∈ ts, t.IsRead) (offset : Nat) :
    ∃ us, Lexes [] offset (ts.flatMap fun t => t.spelling ++ [' ']) us ∧
      us.map symbol = ts.map symbol := by
  have hblank : Text.isAsciiBlank ' ' = true := by decide
  induction ts generalizing offset with
  | nil => exact ⟨[], .nil offset, rfl⟩
  | cons t ts ih =>
    rw [List.forall_mem_cons] at hts
    obtain ⟨us, hus, hsymbols⟩ := ih hts.2 (offset + Text.byteSize t.spelling + 1)
    obtain ⟨c, w, hspelling, hread⟩ := hts.1.read_spelling (stops_of_isAsciiBlank hblank)
      (ts.flatMap fun t => t.spelling ++ [' '])
    have hraw : c :: (w ++ ' ' :: ts.flatMap fun t => t.spelling ++ [' ']) =
        t.spelling ++ ' ' :: ts.flatMap fun t => t.spelling ++ [' '] := by
      rw [hspelling, List.cons_append]
    have hlexes := Lexes.lexeme (by rwa [List.append_nil]) hraw (.blank hblank hus)
    rw [hraw, ← List.singleton_append, ← List.append_assoc] at hlexes
    exact ⟨_, hlexes, by simp [symbol, hsymbols]⟩

/-- **The tokens of an expression hold its text but for the blanks, and are read again from
print.** -/
theorem scan_lossless {source : String} (h : Token.scan source = .ok ts) :
    Laid 0 source.toList ts ∧
      ∃ us, Token.scan (printed ts) = .ok us ∧ us.map symbol = ts.map symbol := by
  have hlexes := scan_iff_lexes.mp h
  obtain ⟨us, hus, hsymbols⟩ := lexes_printed (isRead_of_lexes hlexes) 0
  refine ⟨laid_of_lexes hlexes, us, scan_iff_lexes.mpr ?_, hsymbols⟩
  rwa [printed, String.toList_ofList]

/-- Some lexemes that touch, and one that is longer than its characters are many. -/
def touching : String :=
  "f('é\\'\"')//0xg..1.5**2 "

/-- A radix mark without digits ends before a word, and a number ends before two points. -/
theorem scan_lossless_touching :
    ∃ ts, Token.scan touching = .ok ts ∧ Laid 0 touching.toList ts ∧
      (∃ us, Token.scan (printed ts) = .ok us ∧ us.map symbol = ts.map symbol) ∧
      ts.map (fun t => (t.text, t.offset)) = [("f", 0), ("(", 1), ("é'\"", 2), (")", 9),
        ("//", 10), ("0x", 12), ("g", 14), ("..", 15), ("1.5", 17), ("**", 20), ("2", 22)] := by
  have hscan : Token.scan touching = .ok [⟨.identifier, "f", 0⟩, ⟨.operator, "(", 1⟩,
      ⟨.string, "é'\"", 2⟩, ⟨.operator, ")", 9⟩, ⟨.operator, "//", 10⟩, ⟨.number, "0x", 12⟩,
      ⟨.identifier, "g", 14⟩, ⟨.operator, "..", 15⟩, ⟨.number, "1.5", 17⟩, ⟨.operator, "**", 20⟩,
      ⟨.number, "2", 22⟩] := by
    decide +kernel
  obtain ⟨hlaid, hprinted⟩ := scan_lossless hscan
  exact ⟨_, hscan, hlaid, hprinted, rfl⟩

end Token

end Stencil
