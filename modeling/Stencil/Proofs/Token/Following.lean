import Mathlib.Data.List.TakeWhile
import Stencil.Proofs.Token.Regions

/-!
# What follows a lexeme

A lexeme is as long as it can be, so the scanner looks beyond its end: at one character behind a
word or an operator, at two behind a number, which may go on with a point and a digit. A character
**stops** a lexeme if none goes on with it (`Lexeme.Stops`). All blanks do, and so do the first
characters of the closing delimiters.

* It does not matter which of these characters stands behind a lexeme, nor what is behind that
  (`Lexeme.read_append`).
* It hardly matters whether there is such a character or the end of the text (`Lexeme.read_end`).
  The exception is a radix mark that is the last character: `0x` is a number if anything follows it,
  and a `0` before a word if not.
* A lexeme that is taken out of its text and put before such a character is read as it was
  (`Lexeme.read_raw`).

Each goes through the ways to read a lexeme (`Lexeme.ReadsAs`).
-/

namespace Stencil

namespace Lexeme

/-- What no lexeme goes on with. -/
structure Stops (m : Char) : Prop where
  word : isWordChar m = false
  digit : m.isDigit = false
  hex : isHexDigit m = false
  radix : isRadixMark m = false
  point : m ≠ '.'
  operator : m ∉ longOperators.map Prod.snd

theorem stops_of_isAsciiBlank {c : Char} (hc : Text.isAsciiBlank c = true) : Stops c := by
  simp only [Text.isAsciiBlank, Bool.or_eq_true, beq_iff_eq] at hc
  rcases hc with (((rfl | rfl) | rfl) | rfl) | rfl <;> constructor <;> decide

variable {m m' c : Char} {cs rest rest' : List Char}

theorem takeWhile_append_stop {p : Char → Bool} (hm : p m = false) :
    (cs ++ m :: rest).takeWhile p = cs.takeWhile p := by
  induction cs with
  | nil => simp [hm]
  | cons c cs ih => rw [List.cons_append, List.takeWhile_cons, List.takeWhile_cons, ih]

theorem dropWhile_append_stop {p : Char → Bool} (hm : p m = false) :
    (cs ++ m :: rest).dropWhile p = cs.dropWhile p ++ m :: rest := by
  induction cs with
  | nil => simp [hm]
  | cons c cs ih =>
    rw [List.cons_append, List.dropWhile_cons, List.dropWhile_cons, ih]
    split <;> rfl

/-! ### Numbers -/

theorem fraction_append (hm : Stops m) : fraction (cs ++ m :: rest) = fraction cs := by
  rcases cs with _ | ⟨c, _ | ⟨d, cs⟩⟩
  · simp [fraction, hm.point]
  · by_cases hc : c = '.'
    · simp [fraction, hc, hm.digit]
    · simp [fraction, hc]
  · by_cases hc : c = '.'
    · simp [fraction, hc, takeWhile_append_stop hm.digit]
    · simp [fraction, hc]

theorem decimal_append (hm : Stops m) : decimal (cs ++ m :: rest) = decimal cs := by
  rw [decimal, decimal, takeWhile_append_stop hm.digit, dropWhile_append_stop hm.digit,
    fraction_append hm]

theorem eq_of_isRadixMark {x : Char} (hx : isRadixMark x = true) :
    x = 'x' ∨ x = 'X' ∨ x = 'b' ∨ x = 'B' := by
  simpa [isRadixMark, or_assoc] using hx

/-- A radix mark counts if something follows it. -/
theorem number_of_isRadixMark {x : Char} (hx : isRadixMark x = true) (hcs : cs ≠ []) :
    number ('0' :: x :: cs) = '0' :: x :: cs.takeWhile isHexDigit := by
  obtain ⟨d, ds, rfl⟩ := List.exists_cons_of_ne_nil hcs
  simp [number, hx]

/-- Without a radix mark a number is a decimal. -/
theorem number_eq_decimal (h : ∀ x ds, cs = '0' :: x :: ds → isRadixMark x = false) :
    number cs = decimal cs := by
  unfold number
  split
  next x d ds => simp [h x (d :: ds) rfl]
  next => rfl

/-- A number is a decimal, or what follows a radix mark. -/
theorem number_cases (cs : List Char) : number cs = decimal cs ∨
    ∃ x ds, cs = '0' :: x :: ds ∧ isRadixMark x = true ∧
      number cs = '0' :: x :: ds.takeWhile isHexDigit := by
  unfold number
  split
  next x d ds =>
    split
    next hx => exact .inr ⟨x, d :: ds, rfl, hx, rfl⟩
    next => exact .inl rfl
  next => exact .inl rfl

theorem not_isRadixMark_append (hm : Stops m)
    (h : ∀ x ds, c :: cs = '0' :: x :: ds → isRadixMark x = false) (x : Char) (ds : List Char)
    (hcs : c :: cs ++ m :: rest = '0' :: x :: ds) : isRadixMark x = false := by
  cases cs with
  | nil =>
    simp only [List.cons_append, List.nil_append, List.cons.injEq] at hcs
    exact hcs.2.1 ▸ hm.radix
  | cons y cs =>
    simp only [List.cons_append, List.cons.injEq] at hcs
    exact h x cs (by rw [hcs.1, hcs.2.1])

/-- A number with a radix mark looks for one character more, but not which one it is. -/
theorem number_append (hm : Stops m) (hm' : Stops m') (c : Char) :
    number (c :: cs ++ m :: rest) = number (c :: cs ++ m' :: rest') := by
  by_cases h : ∀ x ds, c :: cs = '0' :: x :: ds → isRadixMark x = false
  · rw [number_eq_decimal (not_isRadixMark_append hm h), decimal_append hm,
      number_eq_decimal (not_isRadixMark_append hm' h), decimal_append hm']
  · simp only [not_forall, Bool.not_eq_false] at h
    obtain ⟨x, ds, hcs, hx⟩ := h
    rw [hcs, List.cons_append, List.cons_append, number_of_isRadixMark hx (by simp),
      takeWhile_append_stop hm.hex, List.cons_append, List.cons_append,
      number_of_isRadixMark hx (by simp), takeWhile_append_stop hm'.hex]

/-- At the end of a text it must be there. -/
theorem number_end (hm : Stops m) (hend : ∀ x, isRadixMark x = true → c :: cs ≠ ['0', x]) :
    number (c :: cs ++ m :: rest) = number (c :: cs) := by
  by_cases h : ∀ x ds, c :: cs = '0' :: x :: ds → isRadixMark x = false
  · rw [number_eq_decimal (not_isRadixMark_append hm h), decimal_append hm, number_eq_decimal h]
  · simp only [not_forall, Bool.not_eq_false] at h
    obtain ⟨x, ds, hcs, hx⟩ := h
    have hds : ds ≠ [] := by
      rintro rfl
      exact hend x hx hcs
    rw [hcs, List.cons_append, List.cons_append, number_of_isRadixMark hx (by simp),
      takeWhile_append_stop hm.hex, number_of_isRadixMark hx hds]

/-- Digits are a decimal up to what is not a digit, with the fraction that may stand there. -/
theorem decimal_digits_append {ds tail : List Char} (hds : ∀ c ∈ ds, c.isDigit = true)
    (htail : ∀ c ∈ tail.head?, c.isDigit = false) : decimal (ds ++ tail) = ds ++ fraction tail := by
  have hsplit : tail.takeWhile Char.isDigit = [] ∧ tail.dropWhile Char.isDigit = tail := by
    cases tail with
    | nil => exact ⟨rfl, rfl⟩
    | cons c tail => simp [htail c rfl]
  rw [decimal, List.takeWhile_append_of_pos hds, List.dropWhile_append_of_pos hds, hsplit.1,
    hsplit.2, List.append_nil]

/-- A point and digits are a fraction up to what is not a digit. -/
theorem fraction_digits_append {ds tail : List Char} (hne : ds ≠ [])
    (hds : ∀ c ∈ ds, c.isDigit = true) (htail : ∀ c ∈ tail.head?, c.isDigit = false) :
    fraction ('.' :: (ds ++ tail)) = '.' :: ds := by
  obtain ⟨d, ds, rfl⟩ := List.exists_cons_of_ne_nil hne
  rw [List.forall_mem_cons] at hds
  have htake : tail.takeWhile Char.isDigit = [] := by
    cases tail with
    | nil => rfl
    | cons c tail => simp [htail c rfl]
  simp [fraction, hds.1, List.takeWhile_append_of_pos hds.2, htake]

theorem fraction_fraction (cs : List Char) : fraction (fraction cs) = fraction cs := by
  rcases cs with _ | ⟨c, _ | ⟨d, cs⟩⟩
  · rfl
  · by_cases hc : c = '.' <;> simp [fraction, hc]
  · by_cases hc : c = '.'
    · by_cases hd : d.isDigit = true <;> simp [fraction, hc, hd, List.takeWhile_idem]
    · simp [fraction, hc]

/-- A fraction begins with its point. -/
theorem eq_of_head?_fraction {c : Char} (h : c ∈ (fraction cs).head?) : c = '.' := by
  unfold fraction at h
  split at h
  next =>
    split at h
    · simpa using h.symm
    · simp at h
  next => simp at h

theorem decimal_decimal (cs : List Char) : decimal (decimal cs) = decimal cs := by
  have hdigits : ∀ c ∈ cs.takeWhile Char.isDigit, c.isDigit = true := fun _ =>
    List.mem_takeWhile_imp
  have hfraction : ∀ c ∈ (fraction (cs.dropWhile Char.isDigit)).head?, c.isDigit = false := by
    intro c hc
    rw [eq_of_head?_fraction hc]
    rfl
  have hagain := decimal_digits_append hdigits hfraction
  rwa [fraction_fraction, ← decimal] at hagain

theorem of_mem_decimal {x : Char} (h : x ∈ decimal cs) : x.isDigit = true ∨ x = '.' := by
  rcases List.mem_append.mp h with h | h
  · exact .inl (List.mem_takeWhile_imp h)
  · unfold fraction at h
    split at h
    next =>
      split at h
      next hd =>
        rcases List.mem_cons.mp h with rfl | h
        · exact .inr rfl
        · rcases List.mem_cons.mp h with rfl | h
          · exact .inl hd
          · exact .inl (List.mem_takeWhile_imp h)
      next => cases h
    next => cases h

theorem not_isRadixMark_of_mem_decimal {x : Char} (h : x ∈ decimal cs) : isRadixMark x = false := by
  have hx := of_mem_decimal h
  rw [Bool.eq_false_iff]
  intro hmark
  revert hx
  obtain rfl | rfl | rfl | rfl := eq_of_isRadixMark hmark <;> decide

/-- A number is read again from what it is. -/
theorem number_raw (hm : Stops m) {w : List Char} (h : number cs = c :: w) :
    number (c :: w ++ m :: rest) = c :: w := by
  rcases number_cases cs with hdecimal | ⟨x, ds, -, hx, hnumber⟩
  · rw [h] at hdecimal
    have hplain : ∀ x ds, c :: w = '0' :: x :: ds → isRadixMark x = false := by
      intro x ds hw
      have hmem : x ∈ decimal cs := by rw [← hdecimal, hw]; simp
      exact not_isRadixMark_of_mem_decimal hmem
    rw [number_eq_decimal (not_isRadixMark_append hm hplain), decimal_append hm, hdecimal,
      decimal_decimal]
  · rw [← h, hnumber, List.cons_append, List.cons_append, number_of_isRadixMark hx (by simp),
      takeWhile_append_stop hm.hex, List.takeWhile_idem]

/-! ### Lexemes -/

theorem operator?_nil (c : Char) : operator? c [] =
    if shortOperators.contains c then some (plain .operator [c]) else none := rfl

theorem operator?_cons (c d : Char) (cs : List Char) : operator? c (d :: cs) =
    if longOperators.contains (c, d) then some (plain .operator [c, d]) else operator? c [] := rfl

theorem operator?_end (hm : Stops m) : operator? c (cs ++ m :: rest) = operator? c cs := by
  cases cs with
  | nil =>
    have hlong : (c, m) ∉ longOperators := fun h => hm.operator (List.mem_map_of_mem h)
    rw [List.nil_append, operator?_cons, if_neg (by simpa using hlong)]
  | cons d cs => rfl

/-- An operator is read again from what it is. -/
theorem operator?_raw {l : Lexeme} (hm : Stops m) {w : List Char} (h : operator? c cs = some l)
    (hraw : l.raw = c :: w) : operator? c (w ++ m :: rest) = some l := by
  have hshort (h : operator? c [] = some l) : operator? c w = some l := by
    obtain rfl : w = [] := by
      rw [operator?_nil] at h
      split at h
      · cases h
        exact (List.cons.inj hraw).2.symm
      · cases h
    exact h
  rw [operator?_end hm]
  cases cs with
  | nil => exact hshort h
  | cons d cs =>
    rw [operator?_cons] at h
    split at h
    next hlong =>
      cases h
      obtain rfl : [d] = w := (List.cons.inj hraw).2
      rw [operator?_cons, if_pos hlong]
    next => exact hshort h

/-- What is spelled up to the closing quote of a string is a string before any text. -/
theorem quoted?_raw_append {quote : Char} {raw text : List Char}
    (h : quoted? quote cs = some (raw, text)) (more : List Char) :
    quoted? quote (raw ++ more) = some (raw, text) := by
  fun_induction quoted? quote cs generalizing raw text with
  | case1 => cases h
  | case2 => cases h
  | case3 e cs ih =>
    simp only [Option.map_eq_some_iff, Prod.mk.injEq, Prod.exists] at h
    obtain ⟨raw, text, h, rfl, rfl⟩ := h
    simp [quoted?, ih h]
  | case4 cs hbackslash =>
    cases h
    rw [List.singleton_append, quoted?.eq_def]
    simp [hbackslash]
  | case5 c cs hbackslash hquote ih =>
    simp only [Option.map_eq_some_iff, Prod.mk.injEq, Prod.exists] at h
    obtain ⟨raw, text, h, rfl, rfl⟩ := h
    rw [List.cons_append, quoted?.eq_def]
    simp [hbackslash, hquote, ih h]

variable {l : Lexeme}

/-- The ways to read a lexeme at the front of `c :: cs`: what it is depends on its first
character. -/
inductive ReadsAs (c : Char) (cs : List Char) : Lexeme → Prop
  | word (hword : isWordStart c = true) :
    ReadsAs c cs (plain .identifier (c :: cs.takeWhile isWordChar))
  | number (hword : isWordStart c = false) (hdigit : c.isDigit = true) :
    ReadsAs c cs (plain .number (Lexeme.number (c :: cs)))
  | string {raw text : List Char} (hquote : c = '"' ∨ c = '\'')
    (hquoted : quoted? c cs = some (raw, text)) : ReadsAs c cs ⟨.string, c :: raw, text⟩
  | operator {l : Lexeme} (hword : isWordStart c = false) (hdigit : c.isDigit = false)
    (hquote : ¬ (c = '"' ∨ c = '\'')) (hoperator : operator? c cs = some l) : ReadsAs c cs l

theorem read_eq_ok_iff : read c cs = .ok l ↔ ReadsAs c cs l := by
  constructor
  · intro h
    unfold read at h
    split at h
    next hword =>
      cases h
      exact .word hword
    next hword =>
    split at h
    next hdigit =>
      cases h
      exact .number (by simpa using hword) hdigit
    next hdigit =>
    split at h
    next hquote =>
      split at h
      next raw text hquoted =>
        cases h
        exact .string (by simpa using hquote) hquoted
      next => cases h
    next hquote =>
      split at h
      next hoperator =>
        cases h
        exact .operator (by simpa using hword) (by simpa using hdigit) (by simpa using hquote)
          hoperator
      next => cases h
  · intro h
    cases h with
    | word hword => rw [read, if_pos hword]
    | number hword hdigit => rw [read, if_neg (by simp [hword]), if_pos hdigit]
    | string hquote h =>
      have hothers : isWordStart c = false ∧ c.isDigit = false := by
        obtain rfl | rfl := hquote <;> decide
      simp [read, hothers, hquote, h]
    | operator hword hdigit hquote h => simp [read, hword, hdigit, hquote, h]

/-- **A lexeme that ends before a delimiter does not depend on what is behind that.** -/
theorem read_append (hm : Stops m) (hm' : Stops m') (h : read c (cs ++ m :: rest) = .ok l)
    (hraw : l.raw <+: c :: cs) (rest' : List Char) : read c (cs ++ m' :: rest') = .ok l := by
  rw [read_eq_ok_iff] at h ⊢
  cases h with
  | word hword =>
    have hsame : (cs ++ m :: rest).takeWhile isWordChar =
        (cs ++ m' :: rest').takeWhile isWordChar := by
      rw [takeWhile_append_stop hm.word, takeWhile_append_stop hm'.word]
    rw [hsame]
    exact .word hword
  | number hword hdigit =>
    have hsame : number (c :: (cs ++ m :: rest)) = number (c :: (cs ++ m' :: rest')) :=
      number_append hm hm' c
    rw [hsame]
    exact .number hword hdigit
  | string hquote h =>
    -- a string goes over delimiters, so it is only known to end where the spelled text ends
    obtain ⟨more, hmore⟩ := (List.cons_prefix_cons.mp hraw).2
    have hsame := quoted?_raw_append h (more ++ m' :: rest')
    rw [← List.append_assoc, hmore] at hsame
    exact .string hquote hsame
  | operator hword hdigit hquote h =>
    rw [operator?_end hm] at h
    exact .operator hword hdigit hquote (by rwa [operator?_end hm'])

/-- **A lexeme that is read at the end of a text is read there when more follows**, but for a radix
mark at the very end, which has been a word. -/
theorem read_end (hm : Stops m) (h : read c cs = .ok l)
    (hend : ∀ x, isRadixMark x = true → c :: cs ≠ ['0', x]) (rest : List Char) :
    read c (cs ++ m :: rest) = .ok l := by
  rw [read_eq_ok_iff] at h ⊢
  cases h with
  | word hword =>
    rw [← takeWhile_append_stop hm.word]
    exact .word hword
  | number hword hdigit =>
    rw [← number_end hm hend]
    exact .number hword hdigit
  | string hquote h =>
    obtain ⟨more, rfl⟩ := quoted?_isPrefix h
    rw [List.append_assoc]
    exact .string hquote (quoted?_raw_append h _)
  | operator hword hdigit hquote h =>
    exact .operator hword hdigit hquote (by rwa [operator?_end hm])

/-- A lexeme begins with the first character of the text. -/
theorem exists_of_read (h : read c cs = .ok l) : ∃ w rest, l.raw = c :: w ∧ cs = w ++ rest := by
  obtain ⟨rest, hrest⟩ := isPrefix_of_read h
  have hpos := length_pos_of_read h
  obtain ⟨d, w, hraw⟩ := List.exists_cons_of_length_pos hpos
  rw [hraw] at hrest
  obtain ⟨rfl, hcs⟩ := List.cons.inj hrest
  exact ⟨w, rest, hraw, hcs.symm⟩

/-- **A lexeme is read again from what it is.** -/
theorem read_raw (hm : Stops m) (h : read c cs = .ok l) {w : List Char} (hraw : l.raw = c :: w)
    (rest : List Char) : read c (w ++ m :: rest) = .ok l := by
  rw [read_eq_ok_iff] at h ⊢
  cases h with
  | word hword =>
    obtain rfl : cs.takeWhile isWordChar = w := (List.cons.inj hraw).2
    have hsame : (cs.takeWhile isWordChar ++ m :: rest).takeWhile isWordChar =
        cs.takeWhile isWordChar := by
      rw [takeWhile_append_stop hm.word, List.takeWhile_idem]
    have hform : ReadsAs c (cs.takeWhile isWordChar ++ m :: rest) _ := .word hword
    rwa [hsame] at hform
  | number hword hdigit =>
    have hnumber : number (c :: cs) = c :: w := hraw
    rw [hnumber, ← number_raw hm hnumber]
    exact .number hword hdigit
  | string hquote h =>
    obtain rfl := (List.cons.inj hraw).2
    exact .string hquote (quoted?_raw_append h _)
  | operator hword hdigit hquote h =>
    exact .operator hword hdigit hquote (operator?_raw hm h hraw)

/-! ### Short operators -/

/-- An operator of one character is read if no longer one stands there. -/
theorem read_operator (hc : c ∈ shortOperators)
    (hnext : ∀ d ∈ cs.head?, (c, d) ∉ longOperators) :
    read c cs = .ok (plain .operator [c]) := by
  have hshort : operator? c [] = some (plain .operator [c]) := by
    rw [operator?_nil, if_pos (by simpa using hc)]
  have hoperator : operator? c cs = some (plain .operator [c]) := by
    cases cs with
    | nil => exact hshort
    | cons d cs =>
      have hlong : (c, d) ∉ longOperators := hnext d rfl
      rw [operator?_cons, if_neg (by simpa using hlong), hshort]
  have hothers : shortOperators.all (fun c =>
      !isWordStart c && !c.isDigit && c != '"' && c != '\'') = true := by decide
  have hothers := List.all_eq_true.mp hothers c hc
  simp only [Bool.and_eq_true, Bool.not_eq_eq_eq_not, Bool.not_true, bne_iff_ne] at hothers
  obtain ⟨⟨⟨hword, hdigit⟩, hdouble⟩, hsingle⟩ := hothers
  exact read_eq_ok_iff.mpr (.operator hword hdigit (by simp [hdouble, hsingle]) hoperator)

/-- Most of them are read whatever follows. -/
theorem read_short (hc : c ∈ shortOperators) (hlong : c ∉ longOperators.map Prod.fst)
    (cs : List Char) : read c cs = .ok (plain .operator [c]) :=
  read_operator hc fun _ _ h => hlong (List.mem_map_of_mem h)

end Lexeme

/-- No delimiter begins with what a lexeme goes on with. -/
theorem Scanner.exists_stops (kind : Scanner.RegionKind) (trim : Bool) :
    ∃ m more, Scanner.dash trim ++ kind.closer = m :: more ∧ Lexeme.Stops m := by
  cases trim <;> cases kind <;> refine ⟨_, _, rfl, ?_⟩ <;> constructor <;> decide

end Stencil
