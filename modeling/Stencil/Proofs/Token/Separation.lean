import Stencil.Proofs.Expr.Literals
import Stencil.Proofs.Token.Relexing

/-!
# Texts that are scanned piece by piece

A text that is put together from pieces is scanned piece by piece, if no lexeme at the end of a
piece goes on with the next one. Words and numbers go on with letters, digits and underscores, and a
number goes on with a point and a digit. What begins with none of these **separates**
(`Scanner.Separates`), and `Scanner.Prints` says what a piece is scanned to before all that does.

The lemmas follow the ways to put a text together: a piece behind another (`Scanner.Scans.follow`),
an operator in front (`Scanner.Scans.op`), brackets around (`Scanner.Scans.enclosed`), and the
literals and words at the bottom.
-/

namespace Stencil

/-! ### Names and texts -/

/-- Whether a text is a name: letters, digits and underscores, but no digit at the front. -/
def IsName (name : String) : Prop :=
  match name.toList with
  | [] => False
  | c :: cs => Lexeme.isWordStart c = true ∧ cs.all Lexeme.isWordChar = true

instance (name : String) : Decidable (IsName name) := by
  unfold IsName
  split <;> infer_instance

theorem IsName.exists_cons {name : String} (h : IsName name) :
    ∃ c cs, name.toList = c :: cs ∧ Lexeme.isWordStart c = true ∧
      ∀ d ∈ cs, Lexeme.isWordChar d = true := by
  unfold IsName at h
  split at h
  next => exact h.elim
  next c cs hlist => exact ⟨c, cs, hlist, h.1, List.all_eq_true.mp h.2⟩

theorem isName_of_toList {name : String} {c : Char} {cs : List Char} (hlist : name.toList = c :: cs)
    (hc : Lexeme.isWordStart c = true) (hcs : ∀ d ∈ cs, Lexeme.isWordChar d = true) :
    IsName name := by
  rw [IsName, hlist]
  exact ⟨hc, List.all_eq_true.mpr hcs⟩

/-- Whether each character of a text is printed in quotes as itself, or as a character behind a
backslash. The other escapes of the printer mean nothing to the scanner. -/
def Text.Quotable (cs : List Char) : Prop :=
  ∀ c ∈ cs, quoteChar c = [c] ∨ c ∈ ['"', '\\', '\n', '\t', '\r']

/-! ### Words, numbers and strings -/

namespace Lexeme

variable {c : Char} {cs : List Char} {l : Lexeme}

/-- No word begins with a digit. -/
theorem isDigit_of_isWordStart (hc : isWordStart c = true) : c.isDigit = false := by
  rw [Bool.eq_false_iff]
  intro hdigit
  obtain ⟨hlow, hhigh⟩ := toNat_of_isDigit hdigit
  have hdigits : ∀ n < 10, isWordStart (Char.ofNat (48 + n)) = false := by decide
  have hword := hdigits (c.toNat - 48) (by omega)
  rw [Nat.add_sub_cancel' hlow, Char.ofNat_toNat, hc] at hword
  cases hword

theorem of_isRadixMark {x : Char} (hx : isRadixMark x = true) :
    isWordChar x = true ∧ x.isDigit = false := by
  obtain rfl | rfl | rfl | rfl := eq_of_isRadixMark hx <;> decide

theorem minus_notMem_number (cs : List Char) : '-' ∉ number cs := by
  have hdecimal (cs : List Char) : '-' ∉ decimal cs := by
    intro hmem
    exact absurd (of_mem_decimal hmem) (by decide)
  unfold number
  split
  next x d ds =>
    split
    next hx =>
      have hmark : x ≠ '-' := by
        rintro rfl
        exact absurd hx (by decide)
      have hhex : '-' ∉ (d :: ds).takeWhile isHexDigit := fun hmem =>
        absurd (List.mem_takeWhile_imp hmem) (by decide)
      simpa [hmark.symm] using hhex
    next => exact hdecimal _
  next => exact hdecimal _

theorem isWordStart_of_isDigit (hc : c.isDigit = true) : isWordStart c = false := by
  rw [Bool.eq_false_iff]
  intro hword
  exact Bool.false_ne_true ((isDigit_of_isWordStart hword).symm.trans hc)

/-- A number begins with its first digit. -/
theorem head?_number (hc : c.isDigit = true) (cs : List Char) :
    (number (c :: cs)).head? = some c := by
  have hdecimal (ds : List Char) : (decimal (c :: ds)).head? = some c := by simp [decimal, hc]
  unfold number
  split
  next heq =>
    split
    · obtain ⟨rfl, -⟩ := List.cons.inj heq
      rfl
    · rw [← heq]
      exact hdecimal cs
  next => exact hdecimal cs

theorem isDigit_of_not_isWordChar (hc : isWordChar c = false) : c.isDigit = false := by
  simp only [isWordChar, Char.isAlphanum, Bool.or_eq_false_iff] at hc
  exact hc.1.2

/-- Digits before what is no part of a word are a number, with the fraction that may stand there. -/
theorem number_digits_append {ds tail : List Char} (hne : ds ≠ [])
    (hds : ∀ c ∈ ds, c.isDigit = true) (htail : ∀ c ∈ tail.head?, isWordChar c = false) :
    number (ds ++ tail) = ds ++ fraction tail := by
  obtain ⟨d, ds, rfl⟩ := List.exists_cons_of_ne_nil hne
  -- what would be a radix mark is a digit or stands behind the number
  have hmark : ∀ x rest, d :: ds ++ tail = '0' :: x :: rest → isRadixMark x = false := by
    intro x rest heq
    rw [Bool.eq_false_iff]
    intro hx
    obtain ⟨hxword, hxdigit⟩ := of_isRadixMark hx
    cases ds with
    | nil =>
      obtain ⟨-, rfl⟩ : d = '0' ∧ tail = x :: rest := by simpa using heq
      exact Bool.false_ne_true ((htail x rfl).symm.trans hxword)
    | cons y ds =>
      obtain rfl : y = x := (List.cons.inj (List.cons.inj heq).2).1
      exact Bool.false_ne_true (hxdigit.symm.trans (hds y (by simp)))
  rw [number_eq_decimal hmark,
    decimal_digits_append hds fun c hc => isDigit_of_not_isWordChar (htail c hc)]

/-- A word is a name, and a number has no sign. -/
theorem text_of_read (h : read c cs = .ok l) :
    (l.kind = .identifier → IsName (String.ofList l.text)) ∧
      (l.kind = .number → '-' ∉ l.text) := by
  cases read_eq_ok_iff.mp h with
  | word hword =>
    refine ⟨fun _ => isName_of_toList String.toList_ofList hword fun d hd => ?_, by simp [plain]⟩
    exact List.mem_takeWhile_imp hd
  | number => exact ⟨by simp [plain], fun _ => minus_notMem_number _⟩
  | string => simp
  | operator _ _ _ hoperator =>
    rw [eq_plain_of_operator? hoperator]
    simp [plain]

/-- What the scanner takes out of quotes, and what it puts in its place. -/
theorem quoted?_quoteChar (hcs : Text.Quotable cs) (rest : List Char) :
    quoted? '"' (cs.flatMap Text.quoteChar ++ '"' :: rest) =
      some (cs.flatMap Text.quoteChar ++ ['"'], cs) := by
  induction cs with
  | nil => simp [quoted?.eq_def]
  | cons c cs ih =>
    rw [Text.Quotable, List.forall_mem_cons] at hcs
    have ih := ih hcs.2
    rw [List.flatMap_cons]
    rcases hcs.1 with hplain | hescaped
    · have hquote : c ≠ '"' := by
        rintro rfl
        exact absurd hplain (by decide)
      have hbackslash : c ≠ '\\' := by
        rintro rfl
        exact absurd hplain (by decide)
      rw [hplain, List.append_assoc, List.singleton_append, quoted?.eq_def]
      simp [ih, hquote, hbackslash]
    · have hescape : ∃ d, Text.quoteChar c = ['\\', d] ∧ unescape d = c := by
        simp only [List.mem_cons, List.not_mem_nil, or_false] at hescaped
        rcases hescaped with rfl | rfl | rfl | rfl | rfl <;> exact ⟨_, rfl, rfl⟩
      obtain ⟨d, hd, hc⟩ := hescape
      rw [hd]
      simp [quoted?, ih, hc]

theorem read_quoted {s : String} (hs : Text.Quotable s.toList) (rest : List Char) :
    read '"' (s.toList.flatMap Text.quoteChar ++ '"' :: rest) =
      .ok ⟨.string, '"' :: (s.toList.flatMap Text.quoteChar ++ ['"']), s.toList⟩ :=
  read_eq_ok_iff.mpr (.string (.inl rfl) (quoted?_quoteChar hs rest))

end Lexeme

theorem Token.IsRead.isName {t : Token} (h : t.IsRead) (hkind : t.kind = .identifier) :
    IsName t.text := by
  obtain ⟨c, cs, l, hread, hl, htext⟩ := h
  exact htext ▸ (Lexeme.text_of_read hread).1 (hl.trans hkind)

theorem Token.IsRead.minus_notMem {t : Token} (h : t.IsRead) (hkind : t.kind = .number) :
    '-' ∉ t.text.toList := by
  obtain ⟨c, cs, l, hread, hl, htext⟩ := h
  rw [← htext, String.toList_ofList]
  exact (Lexeme.text_of_read hread).2 (hl.trans hkind)

namespace Scanner

/-! ### What may follow -/

/-- Whether no word and no number goes on with a text. -/
structure Separates (tail : List Char) : Prop where
  word : ∀ c ∈ tail.head?, Lexeme.isWordChar c = false
  fraction : Lexeme.fraction tail = []

theorem separates_nil : Separates [] :=
  ⟨by simp, rfl⟩

theorem separates_cons {c : Char} (hc : Lexeme.isWordChar c = false ∧ c ≠ '.')
    (tail : List Char) : Separates (c :: tail) where
  word := by simpa using hc.1
  fraction := by
    cases tail with
    | nil => simp [Lexeme.fraction]
    | cons d tail => simp [Lexeme.fraction, hc.2]

/-- Behind a point there is a name. -/
theorem separates_point {c : Char} (hc : Lexeme.isWordStart c = true) (tail : List Char) :
    Separates ('.' :: c :: tail) where
  word := by simp [Lexeme.isWordChar]
  fraction := by simp [Lexeme.fraction, Lexeme.isDigit_of_isWordStart hc]

/-! ### Scanning a text in front of another -/

/-- Whether a text is read, wherever it lies, as tokens with a property. The `tail` follows. -/
def Scans (tail cs : List Char) (P : List Token → Prop) : Prop :=
  ∀ offset, ∃ ts, Lexes tail offset cs ts ∧ P ts

/-- Whether a text is read as tokens with a property before all that separates. -/
def Prints (cs : List Char) (P : List Token → Prop) : Prop :=
  ∀ tail, Separates tail → Scans tail cs P

/-- One token. -/
def One (kind : TokenKind) (text : String) (ts : List Token) : Prop :=
  ∃ t : Token, ts = [t] ∧ t.symbol = (kind, text)

/-- Tokens of two kinds, one after the other. -/
def Both (P Q : List Token → Prop) (ts : List Token) : Prop :=
  ∃ us vs, ts = us ++ vs ∧ P us ∧ Q vs

/-- An operator in front of tokens. -/
def Led (op : String) (P : List Token → Prop) (ts : List Token) : Prop :=
  ∃ t us, ts = t :: us ∧ t.isOp op = true ∧ P us

/-- Tokens between brackets. -/
def Enclosed (opening closing : String) (P : List Token → Prop) (ts : List Token) : Prop :=
  ∃ t us u, ts = t :: (us ++ [u]) ∧ t.isOp opening = true ∧ P us ∧ u.isOp closing = true

namespace Scans

variable {tail cs bs : List Char} {P Q : List Token → Prop}

theorem nil : Scans tail [] (· = []) :=
  fun offset => ⟨[], .nil offset, rfl⟩

theorem mono (h : Scans tail cs P) (hPQ : ∀ ts, P ts → Q ts) : Scans tail cs Q := by
  intro offset
  obtain ⟨ts, hts, hP⟩ := h offset
  exact ⟨ts, hts, hPQ ts hP⟩

theorem append (h : Scans (bs ++ tail) cs P) (h' : Scans tail bs Q) :
    Scans tail (cs ++ bs) (Both P Q) := by
  intro offset
  obtain ⟨ts, hts, hP⟩ := h offset
  obtain ⟨us, hus, hQ⟩ := h' (offset + Text.byteSize cs)
  exact ⟨ts ++ us, hts.append hus, ts, us, rfl, hP, hQ⟩

/-- What is printed, and what separates it. -/
theorem follow (h : Prints cs P) (hbs : Separates (bs ++ tail)) (h' : Scans tail bs Q) :
    Scans tail (cs ++ bs) (Both P Q) :=
  (h _ hbs).append h'

theorem blanks {bs : List Char} (hbs : ∀ c ∈ bs, Text.isAsciiBlank c = true)
    (h : Scans tail cs P) : Scans tail (bs ++ cs) P := by
  induction bs with
  | nil => exact h
  | cons b bs ih =>
    rw [List.forall_mem_cons] at hbs
    intro offset
    obtain ⟨ts, hts, hP⟩ := ih hbs.2 (offset + 1)
    exact ⟨ts, .blank hbs.1 hts, hP⟩

theorem blank (h : Scans tail cs P) : Scans tail (' ' :: cs) P := by
  have hblank : ∀ c ∈ [' '], Text.isAsciiBlank c = true := by simp [Text.isAsciiBlank]
  exact h.blanks hblank

/-- A lexeme alone. -/
theorem lexeme {c : Char} {l : Lexeme} (hread : Lexeme.read c (cs ++ tail) = .ok l)
    (hraw : l.raw = c :: cs) : Scans tail (c :: cs) (One l.kind (String.ofList l.text)) := by
  intro offset
  exact ⟨_, .lexeme hread (by rw [hraw, List.append_nil]) (.nil _), _, rfl, rfl⟩

/-- A word that does not go on. -/
theorem word {name : String} (hname : IsName name)
    (htail : ∀ c ∈ tail.head?, Lexeme.isWordChar c = false) :
    Scans tail name.toList (One .identifier name) := by
  obtain ⟨c, cs, hlist, hc, hcs⟩ := hname.exists_cons
  have htake : tail.takeWhile Lexeme.isWordChar = [] := by
    cases tail with
    | nil => rfl
    | cons d tail => simp [htail d rfl]
  have hform : Lexeme.ReadsAs c (cs ++ tail) _ := .word hc
  rw [List.takeWhile_append_of_pos hcs, htake, List.append_nil] at hform
  have hread := Lexeme.read_eq_ok_iff.mpr hform
  have hscans := Scans.lexeme hread rfl
  rw [Lexeme.plain] at hscans
  rwa [← hlist, String.ofList_toList] at hscans

/-- A number that does not go on. -/
theorem number (hne : cs ≠ []) (hcs : ∀ c ∈ cs.head?, c.isDigit = true)
    (h : Lexeme.number (cs ++ tail) = cs) : Scans tail cs (One .number (String.ofList cs)) := by
  obtain ⟨d, ds, rfl⟩ := List.exists_cons_of_ne_nil hne
  have hdigit : d.isDigit = true := hcs d rfl
  have hform : Lexeme.ReadsAs d (ds ++ tail) _ :=
    .number (Lexeme.isWordStart_of_isDigit hdigit) hdigit
  rw [← List.cons_append, h] at hform
  exact lexeme (Lexeme.read_eq_ok_iff.mpr hform) rfl

/-- An operator of one character that is not the beginning of a longer one, and what is behind
it. -/
theorem led {c : Char} (hc : c ∈ Lexeme.shortOperators)
    (hnext : ∀ d ∈ (bs ++ tail).head?, (c, d) ∉ Lexeme.longOperators) (h : Scans tail bs P) :
    Scans tail (c :: bs) (Led (String.ofList [c]) P) := by
  have hread : Lexeme.read c ([] ++ (bs ++ tail)) = .ok (.plain .operator [c]) :=
    Lexeme.read_operator hc hnext
  refine ((lexeme hread rfl).append h).mono ?_
  rintro _ ⟨_, ts, rfl, ⟨t, rfl, ht⟩, hP⟩
  have hop : t.isOp (String.ofList [c]) = true := by
    simp_all [Token.symbol, Token.isOp, Lexeme.plain]
  exact ⟨t, ts, rfl, hop, hP⟩

/-- Most of them are the beginning of none. -/
theorem op {c : Char} (hc : c ∈ Lexeme.shortOperators)
    (hlong : c ∉ Lexeme.longOperators.map Prod.fst) (h : Scans tail bs P) :
    Scans tail (c :: bs) (Led (String.ofList [c]) P) :=
  led hc (fun _ _ hmem => hlong (List.mem_map_of_mem hmem)) h

/-- A text between brackets. -/
theorem enclosed {c d : Char} (hcd : (c, d) ∈ [('(', ')'), ('[', ']'), ('\x7b', '\x7d')])
    (h : Prints cs P) : Scans tail (c :: (cs ++ [d]))
      (Enclosed (String.ofList [c]) (String.ofList [d]) P) := by
  have hbrackets : ∀ cd ∈ [('(', ')'), ('[', ']'), ('\x7b', '\x7d')],
      (cd.1 ∈ Lexeme.shortOperators ∧ cd.1 ∉ Lexeme.longOperators.map Prod.fst) ∧
        (cd.2 ∈ Lexeme.shortOperators ∧ cd.2 ∉ Lexeme.longOperators.map Prod.fst) ∧
          Lexeme.isWordChar cd.2 = false ∧ cd.2 ≠ '.' := by decide
  obtain ⟨⟨hc, hclong⟩, ⟨hd, hdlong⟩, hseparates⟩ := hbrackets (c, d) hcd
  refine mono (op hc hclong (follow h (separates_cons hseparates _) (op hd hdlong nil))) ?_
  rintro _ ⟨t, _, rfl, ht, ts, _, rfl, hP, u, _, rfl, hu, rfl⟩
  exact ⟨t, ts, u, rfl, ht, hP, hu⟩

end Scans

namespace Prints

variable {cs : List Char} {P Q : List Token → Prop}

theorem mono (h : Prints cs P) (hPQ : ∀ ts, P ts → Q ts) : Prints cs Q :=
  fun tail htail => (h tail htail).mono hPQ

/-- A word. -/
theorem word {name : String} (hname : IsName name) :
    Prints name.toList (One .identifier name) :=
  fun _ htail => .word hname htail.word

/-- Digits. -/
theorem digits {ds : List Char} (hne : ds ≠ []) (hds : ∀ c ∈ ds, c.isDigit = true) :
    Prints ds (One .number (String.ofList ds)) := by
  intro tail htail
  have hnumber := Lexeme.number_digits_append hne hds htail.word
  rw [htail.fraction, List.append_nil] at hnumber
  exact .number hne (fun c hc => hds c (List.mem_of_mem_head? hc)) hnumber

/-- An integer that is not negative. -/
theorem integer {n : Int64} (hn : 0 ≤ n) :
    Prints (toString n.toInt).toList (One .number (toString n.toInt.toNat)) := by
  have hint : (n.toInt.toNat : Int) = n.toInt :=
    Int.toNat_of_nonneg (Int64.le_iff_toInt_le.mp hn)
  have hprint : toString n.toInt = toString n.toInt.toNat := by
    rw [← hint]
    rfl
  rw [hprint, Nat.toString_eq_ofList_toDigits, String.toList_ofList]
  exact digits Nat.toDigits_ne_nil fun _ => isDigit_of_mem_digits

/-- A text in quotes. -/
theorem quoted {s : String} (hs : Text.Quotable s.toList) :
    Prints (Text.quote s).toList (One .string s) := by
  intro tail _
  have hquote : (Text.quote s).toList = '"' :: (s.toList.flatMap Text.quoteChar ++ ['"']) := by
    simp [Text.quote]
  have hread := Lexeme.read_quoted hs tail
  rw [← List.singleton_append, ← List.append_assoc] at hread
  have hscans := Scans.lexeme hread rfl
  rwa [String.ofList_toList, ← hquote] at hscans

end Prints

end Scanner

end Stencil
