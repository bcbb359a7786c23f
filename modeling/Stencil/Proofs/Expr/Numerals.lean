import Stencil.Proofs.Expr.Grammar
import Stencil.Proofs.Token.Division
import Stencil.Proofs.Token.Separation

/-!
# Numbers without a point

The numbers without a point that come out of the scanner are the numerals
(`Token.Emitted.exists_numeral`, `Numeral.emitted`), whether their digits are those of the radix or
not. What a numeral means is told by the reader of literals alone, since every level of the grammar
begins with the next tighter one: a numeral that is read stands for its value wherever an expression
may begin (`Token.StandsFor`), and one that is not read is the fault of the whole expression
(`Token.Refused`). Nothing is wrapped around, rounded or made a float
(`Numeral.exact_or_refused`).
-/

namespace Stencil

/-! ### Scanning numerals -/

namespace Numeral

variable (n : Numeral)

/-- A numeral is one number before what separates. A mark without digits needs something behind
it. -/
theorem number_chars_append {tail : List Char} (htail : Scanner.Separates tail)
    (hne : n.digits ++ tail ≠ []) : Lexeme.number (n.chars ++ tail) = n.chars := by
  have hdecimal {cs : List Char} (hcs : cs ≠ []) (hall : ∀ c ∈ cs, c.isDigit = true) :
      Lexeme.number (cs ++ tail) = cs := by
    rw [Lexeme.number_digits_append hcs hall htail.word, htail.fraction, List.append_nil]
  have hmarked {x : Char} (hx : Lexeme.isRadixMark x = true) :
      Lexeme.number ('0' :: x :: (n.digits ++ tail)) = '0' :: x :: n.digits := by
    have htake : tail.takeWhile Lexeme.isHexDigit = [] := by
      cases tail with
      | nil => rfl
      | cons c tail =>
        have hhex : ¬ Lexeme.isHexDigit c = true :=
          mt Lexeme.isWordChar_of_isHexDigit (by simp [htail.word c rfl])
        rw [List.takeWhile_cons, if_neg hhex]
    rw [Lexeme.number_of_isRadixMark hx hne,
      List.takeWhile_append_of_pos fun _ => n.isHexDigit_of_mem_digits, htake, List.append_nil]
  obtain ⟨style, digits, taken⟩ := n
  cases style with
  | decimal => exact hdecimal taken.1 (List.all_eq_true.mp taken.2.1)
  | octal =>
    refine hdecimal (by simp [chars, Style.lead]) ?_
    rw [chars, Style.lead, List.singleton_append, List.forall_mem_cons]
    exact ⟨rfl, List.all_eq_true.mp taken.2⟩
  | hexadecimal capital => exact hmarked (by cases capital <;> decide)
  | binary capital => exact hmarked (by cases capital <;> decide)

theorem isDigit_of_head? : ∀ c ∈ n.chars.head?, c.isDigit = true := by
  obtain ⟨style, digits, taken⟩ := n
  cases style with
  | decimal => exact fun c hc => List.all_eq_true.mp taken.2.1 c (List.mem_of_mem_head? hc)
  | _ => simp [chars, Style.lead]

theorem chars_ne_nil : n.chars ≠ [] := by
  obtain ⟨style, digits, taken⟩ := n
  cases style with
  | decimal => exact taken.1
  | _ => simp [chars, Style.lead]

theorem scans {tail : List Char} (htail : Scanner.Separates tail) (hne : n.digits ++ tail ≠ []) :
    Scanner.Scans tail n.chars (Scanner.One .number n.text) :=
  .number n.chars_ne_nil n.isDigit_of_head? (n.number_chars_append htail hne)

/-- A numeral with blanks behind it is scanned as one token. A mark without digits needs a blank. -/
theorem scan_append {bs : List Char} (hbs : ∀ c ∈ bs, Text.isAsciiBlank c = true)
    (hne : n.digits ++ bs ≠ []) :
    ∃ offset, Token.scan (n.text ++ String.ofList bs) = .ok [⟨.number, n.text, offset⟩] := by
  have hseparates : Scanner.Separates bs := by
    rcases bs with _ | ⟨b, bs⟩
    · exact Scanner.separates_nil
    · have hstops := Lexeme.stops_of_isAsciiBlank (hbs b (by simp))
      exact Scanner.separates_cons ⟨hstops.word, hstops.point⟩ bs
  have hblanks : Scanner.Scans [] bs (· = []) := by
    simpa using Scanner.Scans.blanks hbs Scanner.Scans.nil
  have hscans := Scanner.Scans.append (n.scans (by simpa using hseparates) (by simpa using hne))
    hblanks
  obtain ⟨_, hlexes, _, _, rfl, ⟨⟨_, _, offset⟩, rfl, ht⟩, rfl⟩ := hscans 0
  cases ht
  refine ⟨offset, Token.scan_iff_lexes.mpr ?_⟩
  rwa [String.toList_append, text, String.toList_ofList, String.toList_ofList]

end Numeral

/-- Digits are a numeral. A zero before other digits makes these octal. -/
theorem Numeral.exists_of_digits {d : Char} {ds : List Char}
    (hds : (d :: ds).all Char.isDigit = true) : ∃ n : Numeral, n.chars = d :: ds := by
  by_cases hoctal : d = '0' ∧ ds ≠ []
  · obtain ⟨rfl, hne⟩ := hoctal
    rw [List.all_cons] at hds
    exact ⟨⟨.octal, ds, hne, hds⟩, rfl⟩
  · refine ⟨⟨.decimal, d :: ds, by simp, hds, fun hzero => ?_⟩, rfl⟩
    obtain rfl : d = '0' := by simpa using hzero
    rw [not_and_not_right.mp hoctal rfl]

/-- What is scanned as a number without a point is a numeral. -/
theorem Lexeme.exists_numeral {c : Char} (hc : c.isDigit = true) {cs : List Char}
    (hpoint : '.' ∉ number (c :: cs)) : ∃ n : Numeral, n.chars = number (c :: cs) := by
  rcases number_cases (c :: cs) with hnumber | ⟨x, ds, -, hx, hnumber⟩
  · have hfraction : fraction ((c :: cs).dropWhile Char.isDigit) = [] := by
      by_contra hne
      obtain ⟨d, ds, hfraction⟩ := List.exists_cons_of_ne_nil hne
      obtain rfl : d = '.' := eq_of_head?_fraction (by rw [hfraction]; rfl)
      exact hpoint (by simp [hnumber, decimal, hfraction])
    have hdigits : number (c :: cs) = c :: cs.takeWhile Char.isDigit := by
      rw [hnumber, decimal, hfraction, List.append_nil, List.takeWhile_cons, if_pos hc]
    rw [hdigits]
    exact Numeral.exists_of_digits (by simp [hc, List.all_takeWhile])
  · have hhex : (ds.takeWhile isHexDigit).all isHexDigit = true := List.all_takeWhile
    rw [hnumber]
    obtain rfl | rfl | rfl | rfl := eq_of_isRadixMark hx
    · exact ⟨⟨.hexadecimal false, _, hhex⟩, rfl⟩
    · exact ⟨⟨.hexadecimal true, _, hhex⟩, rfl⟩
    · exact ⟨⟨.binary false, _, hhex⟩, rfl⟩
    · exact ⟨⟨.binary true, _, hhex⟩, rfl⟩

/-! ### What the scanner gives -/

/-- The tokens of a piece. -/
def Piece.tokens : Piece → List Token
  | .text _ => []
  | .output ts | .tag ts => ts

namespace Token

/-- Whether the scanner gives the token for some source, which may be an expression that stands
alone or a template. -/
def Emitted (t : Token) : Prop :=
  (∃ source ts, Token.scan source = .ok ts ∧ t ∈ ts) ∨
    ∃ source pieces, Piece.scan source = .ok pieces ∧ ∃ p ∈ pieces, t ∈ p.tokens

end Token

namespace Scanner

theorem Part.tokens_of_mem_text {cs : List Char} {p : Piece} (hp : p ∈ (Part.text cs).piece) :
    p.tokens = [] := by
  rw [piece] at hp
  split at hp
  · cases hp
  · rw [List.mem_singleton.mp hp, Piece.tokens]

theorem Delimited.Stands.isRead {d : Delimited} {offset : Nat} {after : List Char}
    (h : d.Stands offset after) {p : Piece} (hp : p ∈ d.piece) : ∀ t ∈ p.tokens, t.IsRead := by
  have hkind : d.kind ≠ .comment := by
    intro hkind
    rw [piece, hkind] at hp
    cases hp
  have htokens : p.tokens = d.tokens := by
    rw [piece] at hp
    cases hd : d.kind with
    | comment => exact absurd hd hkind
    | output | tag =>
      rw [hd] at hp
      rw [List.mem_singleton.mp hp, Piece.tokens]
  rw [htokens]
  exact Token.isRead_of_lexes (h.reads hkind).lexes

theorem Division.Stands.isRead {d : Division} {offset : Nat} {trimStart : Bool} {p : Piece}
    (h : d.Stands offset) (hp : p ∈ (d.parts trimStart).flatMap Part.piece) :
    ∀ t ∈ p.tokens, t.IsRead := by
  induction d generalizing offset trimStart with
  | last text =>
    rw [parts, List.flatMap_singleton] at hp
    simp [Part.tokens_of_mem_text hp]
  | region text d rest ih =>
    obtain ⟨-, hd, hrest⟩ := h
    rw [parts, List.flatMap_cons, List.flatMap_cons, List.mem_append, List.mem_append] at hp
    rcases hp with hp | hp | hp
    · simp [Part.tokens_of_mem_text hp]
    · exact hd.isRead hp
    · exact ih hrest hp

end Scanner

namespace Token

theorem Emitted.isRead {t : Token} (h : t.Emitted) : t.IsRead := by
  rcases h with ⟨source, ts, hscan, ht⟩ | ⟨source, pieces, hscan, p, hp, ht⟩
  · exact isRead_of_lexes (scan_iff_lexes.mp hscan) t ht
  · rw [Piece.scan] at hscan
    split at hscan
    next ps hpieces =>
      cases hscan
      obtain ⟨d, -, hstands, rfl⟩ := Scanner.Division.exists_of_pieces hpieces
      exact hstands.isRead hp t ht
    next => cases hscan

/-- **A number without a point that comes out of the scanner is a numeral.** -/
theorem Emitted.exists_numeral {t : Token} (h : t.Emitted) (hkind : t.kind = .number)
    (hpoint : '.' ∉ t.text.toList) : ∃ n : Numeral, n.text = t.text := by
  obtain ⟨c, cs, l, hread, hl, htext⟩ := h.isRead
  rw [← htext, String.toList_ofList] at hpoint
  cases Lexeme.read_eq_ok_iff.mp hread with
  | number _ hdigit =>
    obtain ⟨n, hn⟩ := Lexeme.exists_numeral hdigit hpoint
    exact ⟨n, by rw [Numeral.text, hn, ← htext]; rfl⟩
  | word | string => cases hl.trans hkind
  | operator _ _ _ hoperator =>
    rw [Lexeme.eq_plain_of_operator? hoperator] at hl
    cases hl.trans hkind

end Token

/-- **Every numeral comes out of the scanner.** -/
theorem Numeral.emitted (n : Numeral) :
    ∃ t : Token, t.Emitted ∧ t.kind = .number ∧ t.text = n.text := by
  have hblank : ∀ c ∈ [' '], Text.isAsciiBlank c = true := by simp [Text.isAsciiBlank]
  obtain ⟨offset, hscan⟩ := n.scan_append hblank (by simp)
  exact ⟨_, .inl ⟨_, _, hscan, List.mem_singleton_self _⟩, rfl, rfl⟩

/-! ### Numbers that are not read -/

namespace Expr

open Token

section Refusing

variable {t : Token} {fault : GrammarFault}

/-- A fault of the next tighter level is the fault of a level, for each begins with that one unless a
sign or a `not` comes next. -/
theorem parseAt_of_tighter (hkind : t.kind = .number) {level : Precedence} {rest : List Token}
    (h : parseAt level.tighter (t :: rest) = .error fault) :
    parseAt level (t :: rest) = .error fault := by
  have hop (op : String) : nextIsOp op (t :: rest) = false := by simp [nextIsOp, isOp, hkind]
  have hnot : nextIsId "not" (t :: rest) = false := by simp [nextIsId, isId, hkind]
  by_cases hchain : level.isChain = true
  · rw [parseAt_of_isChain hchain, h]
    rfl
  · cases level with
    | ternary | range | power | suffixed =>
      rw [Precedence.tighter] at h
      rw [parseAt, h]
      rfl
    | negation =>
      rw [parseAt, dropId?_of_nextIsId hnot]
      exact h
    | sign =>
      rw [parseAt, dropOp?_of_nextIsOp (hop "-")]
      simp only [dropOp?_of_nextIsOp (hop "+")]
      exact h
    | primary => exact h
    | _ => exact absurd rfl hchain

/-- **A number that is no literal is refused** wherever an expression may begin. -/
theorem parseAt_of_literal? (hkind : t.kind = .number) (hliteral : literal? t.text = .error fault)
    (level : Precedence) (rest : List Token) : parseAt level (t :: rest) = .error fault := by
  by_cases hprimary : level = .primary
  · subst hprimary
    rw [parseAt]
    simp only [hkind, hliteral]
    rfl
  · -- the fault goes up from the primary, level by level
    exact parseAt_of_tighter hkind (parseAt_of_literal? hkind hliteral level.tighter rest)
termination_by level.rank
decreasing_by exact level.rank_tighter_lt hprimary

/-- So it is as the key of an entry. -/
theorem parseKey_of_literal? (hkind : t.kind = .number) (hliteral : literal? t.text = .error fault)
    (rest : List Token) : parseKey (t :: rest) = .error fault := by
  rw [parseKey]
  simp only [hkind, hliteral]
  rfl

end Refusing

end Expr

namespace Token

/-- Whether the token is an integer wherever an expression or the key of an entry may begin, and as
all that there is. -/
structure StandsFor (t : Token) (k : Int64) : Prop where
  operand : ∀ (level : Expr.Precedence) (rest : List Token), level.Stops rest →
    Expr.ReadsAt level (t :: rest) (.literal (.int k)) rest
  key : ∀ rest, Expr.KeyReads (t :: rest) (.literal (.int k)) rest
  alone : Expr.parse [t] = .ok (.literal (.int k))

/-- Whether nothing is read there, whatever follows, because the token is no number. -/
structure Refused (t : Token) : Prop where
  operand : ∀ level rest, Expr.parseAt level (t :: rest) = .error (.badNumber t.text)
  key : ∀ rest, Expr.parseKey (t :: rest) = .error (.badNumber t.text)
  alone : ∀ rest, Expr.parse (t :: rest) = .error (.badNumber t.text)

variable {t : Token}

theorem standsFor_of_literal? (hkind : t.kind = .number) {k : Int64}
    (hliteral : Expr.literal? t.text = .ok (.int k)) : t.StandsFor k := by
  have hspelled (level : Expr.Precedence) : Expr.Spelled level (.literal (.int k)) [t] :=
    (Expr.Spelled.number hkind hliteral).mono (Nat.zero_le level.rank)
  exact ⟨fun level _ hstop => (hspelled level).reads hstop, fun _ => .number hkind hliteral,
    (hspelled .ternary).parse⟩

theorem refused_of_literal? (hkind : t.kind = .number)
    (hliteral : Expr.literal? t.text = .error (.badNumber t.text)) : t.Refused where
  operand := Expr.parseAt_of_literal? hkind hliteral
  key := Expr.parseKey_of_literal? hkind hliteral
  alone rest := by
    rw [Expr.parse, Expr.parsePrefix, Expr.parseAt_of_literal? hkind hliteral]
    rfl

end Token

/-! ### Integers -/

namespace Numeral

/-- **Integers are read exactly or refused.** A number without a point that comes out of the scanner
is a numeral, and only one. If that is legal and its value fits 64 bits, the number stands for the
value, and else it is refused. Every numeral comes out of the scanner. An integer below `2 ^ 63` that
is written in a style is scanned as one number, which stands for it. -/
theorem exact_or_refused :
    (∀ t : Token, t.Emitted → t.kind = .number → '.' ∉ t.text.toList →
      ∃ n : Numeral, n.text = t.text ∧ (∀ n' : Numeral, n'.text = t.text → n' = n) ∧
        if n.Legal ∧ n.value < 2 ^ 63 then ∃ k : Int64, k.toInt = n.value ∧ t.StandsFor k
        else t.Refused) ∧
      (∀ n : Numeral, ∃ t : Token, t.Emitted ∧ t.kind = .number ∧ t.text = n.text) ∧
      ∀ (style : Style) (m : Nat), m < 2 ^ 63 → ∃ (t : Token) (k : Int64),
        Token.scan (ofNat style m).text = .ok [t] ∧ k.toInt = m ∧ t.StandsFor k := by
  refine ⟨fun t hemitted hkind hpoint => ?_, emitted, fun style m hm => ?_⟩
  · obtain ⟨n, hn⟩ := hemitted.exists_numeral hkind hpoint
    have hliteral := n.literal?_text
    rw [hn] at hliteral
    refine ⟨n, hn, fun n' hn' => text_injective (hn'.trans hn.symm), ?_⟩
    split
    next h =>
      rw [if_pos h] at hliteral
      exact ⟨_, Int64.toInt_ofNat_of_lt h.2, Token.standsFor_of_literal? hkind hliteral⟩
    next h =>
      rw [if_neg h] at hliteral
      exact Token.refused_of_literal? hkind hliteral
  · have hlegal := legal_ofNat style m
    have hliteral := literal?_ofNat style hm
    have hblanks : ∀ c ∈ ([] : List Char), Text.isAsciiBlank c = true := by simp
    obtain ⟨offset, hscan⟩ := (ofNat style m).scan_append hblanks (by simpa using hlegal.1)
    rw [String.ofList_nil, String.append_empty] at hscan
    exact ⟨⟨.number, _, offset⟩, Int64.ofNat m, hscan, Int64.toInt_ofNat_of_lt hm,
      Token.standsFor_of_literal? rfl hliteral⟩

/-- The greatest integer, in small and capital digits. -/
def greatest : Numeral :=
  ⟨.hexadecimal true, ['7', 'f', 'F', 'F', 'f', 'f', 'F', 'F', 'f', 'f', 'F', 'F', 'f', 'f', 'F', 'F'],
    by decide⟩

/-- A binary number with a digit that is none. -/
def misdigited : Numeral :=
  ⟨.binary false, ['1', '2'], by decide⟩

/-- The scanner takes both of them, but only one is read. -/
theorem exact_or_refused_greatest :
    ∃ t u v : Token, Token.scan "0X7fFFffFFffFFffFF" = .ok [t] ∧ Token.scan "0b12" = .ok [u] ∧
      Token.scan "010" = .ok [v] ∧ (∃ k : Int64, k.toInt = 2 ^ 63 - 1 ∧ t.StandsFor k) ∧
        u.Refused ∧ ∃ k : Int64, k.toInt = 8 ∧ v.StandsFor k := by
  obtain ⟨hread, -, hwrite⟩ := exact_or_refused
  have hscan : Token.scan "0X7fFFffFFffFFffFF" = .ok [⟨.number, "0X7fFFffFFffFFffFF", 0⟩] := by
    decide +kernel
  have hscan' : Token.scan "0b12" = .ok [⟨.number, "0b12", 0⟩] := by decide +kernel
  obtain ⟨n, -, honly, hstands⟩ := hread ⟨.number, "0X7fFFffFFffFFffFF", 0⟩
    (.inl ⟨_, _, hscan, List.mem_singleton_self _⟩) rfl (by decide +kernel)
  obtain ⟨n', -, honly', hrefused⟩ := hread ⟨.number, "0b12", 0⟩
    (.inl ⟨_, _, hscan', List.mem_singleton_self _⟩) rfl (by decide +kernel)
  have hvalue : greatest.value = 9223372036854775807 := by decide +kernel
  have hlegal : greatest.Legal := by decide +kernel
  have hillegal : ¬ misdigited.Legal := by decide +kernel
  rw [← honly greatest (by decide +kernel), if_pos ⟨hlegal, by omega⟩] at hstands
  rw [← honly' misdigited (by decide +kernel), if_neg fun h => hillegal h.1] at hrefused
  obtain ⟨k', hk', ht⟩ := hstands
  obtain ⟨v, k, hscan'', hk, hv⟩ := hwrite .octal 8 (by omega)
  have htext : (ofNat .octal 8).text = "010" := by decide +kernel
  rw [htext] at hscan''
  exact ⟨_, _, v, hscan, hscan', hscan'', ⟨k', by omega, ht⟩, hrefused, k, hk, hv⟩

end Numeral

end Stencil
