import Stencil.Expr.Parser
import Stencil.Proofs.Number.Positional
import Stencil.Proofs.Value.Arithmetic
import Stencil.Token.Lexeme

/-!
# Integers as they are written

An integer is written in one of four styles, told by its first characters. The scanner and the
reader of literals each look at these for themselves, and they do not ask for the same digits: the
scanner takes `0b12` for one number, `089` too, and also `0x` with nothing behind it.

So a `Numeral` is what the scanner takes, and whether its digits are those of its radix is asked
afterwards (`Numeral.Legal`). A numeral is read as its value if it is legal and if its value fits 64
bits, and it is refused if not (`Numeral.literal?_text`). All numbers below `2 ^ 63` are written and
read back in each style (`Numeral.literal?_ofNat`).
-/

namespace Stencil

/-! ### Digits -/

theorem toNat_of_isDigit {c : Char} (hc : c.isDigit = true) : 48 ≤ c.toNat ∧ c.toNat ≤ 57 := by
  simp only [Char.isDigit, Bool.and_eq_true, decide_eq_true_eq] at hc
  exact hc

theorem isDigit_of_mem_digits {n : Nat} {c : Char} (hc : c ∈ Nat.toDigits 10 n) :
    c.isDigit = true :=
  Nat.isDigit_of_mem_toDigits (by decide) (by decide) hc

/-- Only zero has a zero as its first digit. -/
theorem head?_toDigits_ne {n : Nat} (hn : n ≠ 0) : (Nat.toDigits 10 n).head? ≠ some '0' := by
  induction n using Nat.strongRecOn with
  | ind n ih =>
    by_cases hlt : n < 10
    · rw [Nat.toDigits_of_lt_base hlt]
      have hdigit : ∀ k < 10, k ≠ 0 → k.digitChar ≠ '0' := by decide
      simpa using hdigit n hlt hn
    · have hle : 10 ≤ n := Nat.le_of_not_lt hlt
      have hne : n / 10 ≠ 0 := by omega
      have ih := ih (n / 10) (by omega) hne
      rw [Nat.toDigits_of_base_le (by decide) hle, List.head?_append]
      cases hhead : (Nat.toDigits 10 (n / 10)).head? with
      | none => exact absurd (List.head?_eq_none_iff.mp hhead) Nat.toDigits_ne_nil
      | some d => simpa [hhead] using ih

/-- There is nothing to trim around a text without blanks. -/
theorem Text.trim_of_not_isBlank {cs : List Char} (hcs : ∀ c ∈ cs, isBlank c = false) :
    trim cs = cs := by
  have hdrop {cs : List Char} (hcs : ∀ c ∈ cs, isBlank c = false) : cs.dropWhile isBlank = cs := by
    cases cs with
    | nil => rfl
    | cons c cs => rw [List.dropWhile_cons, if_neg (by simp [hcs c (by simp)])]
  rw [trim, trimStart, trimEnd, hdrop hcs, hdrop (by simpa using hcs), List.reverse_reverse]

/-- From the digits to the small letters there are no blanks. -/
theorem Text.isBlank_of_toNat {c : Char} (hc : 48 ≤ c.toNat ∧ c.toNat ≤ 122) :
    isBlank c = false := by
  simp only [isBlank]
  grind

theorem Number.readSign_of_notMem {cs : List Char} (hminus : '-' ∉ cs) (hplus : '+' ∉ cs) :
    readSign cs = (false, cs) := by
  unfold readSign
  split <;> simp_all

/-! ### Numerals -/

namespace Numeral

/-- How an integer is written: with its digits alone, behind a zero, or behind a zero and a mark,
which may be a capital letter. -/
inductive Style where
  | decimal
  | octal
  | hexadecimal (capital : Bool)
  | binary (capital : Bool)
  deriving DecidableEq

namespace Style

def radix : Style → Number.Radix
  | decimal => .decimal
  | octal => .octal
  | hexadecimal _ => .hexadecimal
  | binary _ => .binary

/-- What stands before the digits. -/
def lead : Style → List Char
  | decimal => []
  | octal => ['0']
  | hexadecimal capital => ['0', if capital then 'X' else 'x']
  | binary capital => ['0', if capital then 'B' else 'b']

/-- Whether these are digits to the scanner. Behind a mark it knows all digits up to radix sixteen
and needs none, otherwise it knows the decimal ones and needs one. A zero before other digits is not
the first of them but makes them octal. -/
def Takes (style : Style) (digits : List Char) : Prop :=
  match style with
  | decimal => digits ≠ [] ∧ digits.all Char.isDigit ∧ (digits.head? = some '0' → digits = ['0'])
  | octal => digits ≠ [] ∧ digits.all Char.isDigit
  | hexadecimal _ | binary _ => digits.all Lexeme.isHexDigit

instance (style : Style) (digits : List Char) : Decidable (style.Takes digits) := by
  unfold Takes
  split <;> infer_instance

end Style

end Numeral

/-- An integer as it is written. -/
structure Numeral where
  style : Numeral.Style
  digits : List Char
  taken : style.Takes digits

namespace Numeral

def chars (n : Numeral) : List Char :=
  n.style.lead ++ n.digits

def text (n : Numeral) : String :=
  String.ofList n.chars

/-- Whether there are digits, and all of them are digits of the radix. -/
def Legal (n : Numeral) : Prop :=
  n.digits ≠ [] ∧ n.digits.all (Number.digitOf · < n.style.radix.val)

instance (n : Numeral) : Decidable n.Legal :=
  inferInstanceAs (Decidable (_ ∧ _))

/-- The value of the digits in their radix. -/
def value (n : Numeral) : Nat :=
  Number.positional n.style.radix.val n.digits

theorem Style.radix_le (style : Style) : style.radix.val ≤ 16 := by
  rcases style with _ | _ | _ | _ <;> decide +revert

end Numeral

/-! ### The characters of a numeral -/

namespace Lexeme

theorem isWordChar_iff {c : Char} : isWordChar c = true ↔
    (65 ≤ c.toNat ∧ c.toNat ≤ 90 ∨ 97 ≤ c.toNat ∧ c.toNat ≤ 122) ∨
      (48 ≤ c.toNat ∧ c.toNat ≤ 57) ∨ c = '_' := by
  unfold isWordChar Char.isAlphanum Char.isAlpha Char.isUpper Char.isLower Char.isDigit
  simp only [Bool.or_eq_true, Bool.and_eq_true, decide_eq_true_eq, UInt32.le_iff_toNat_le, or_assoc]
  exact Iff.rfl

theorem toNat_of_isWordChar {c : Char} (hc : isWordChar c = true) :
    48 ≤ c.toNat ∧ c.toNat ≤ 122 := by
  rcases isWordChar_iff.mp hc with (hc | hc) | hc | rfl
  · omega
  · omega
  · omega
  · decide

theorem isWordChar_of_isHexDigit {c : Char} (hc : isHexDigit c = true) : isWordChar c = true := by
  simp only [isHexDigit, Bool.or_eq_true, Bool.and_eq_true, decide_eq_true_eq] at hc
  rw [isWordChar_iff]
  rcases hc with (hdigit | ⟨hlow, hhigh⟩) | ⟨hlow, hhigh⟩
  · exact .inr (.inl (toNat_of_isDigit hdigit))
  · exact .inl (.inr ⟨hlow, Nat.le_trans hhigh (by decide)⟩)
  · exact .inl (.inl ⟨hlow, Nat.le_trans hhigh (by decide)⟩)

end Lexeme

namespace Numeral

variable (n : Numeral)

theorem isHexDigit_of_mem_digits {c : Char} (hc : c ∈ n.digits) : Lexeme.isHexDigit c = true := by
  have hdecimal (hall : n.digits.all Char.isDigit = true) : Lexeme.isHexDigit c = true := by
    simp [Lexeme.isHexDigit, List.all_eq_true.mp hall c hc]
  obtain ⟨style, digits, taken⟩ := n
  cases style with
  | decimal => exact hdecimal taken.2.1
  | octal => exact hdecimal taken.2
  | hexadecimal | binary => exact List.all_eq_true.mp taken c hc

theorem isWordChar_of_mem_chars {c : Char} (hc : c ∈ n.chars) : Lexeme.isWordChar c = true := by
  have hlead : ∀ style : Style, style.lead.all Lexeme.isWordChar = true := by
    rintro (_ | _ | (_ | _) | (_ | _)) <;> decide
  rcases List.mem_append.mp hc with hc | hc
  · exact List.all_eq_true.mp (hlead n.style) c hc
  · exact Lexeme.isWordChar_of_isHexDigit (n.isHexDigit_of_mem_digits hc)

end Numeral

/-! ### Reading numerals -/

/-- The integers of 64 bits that are not negative are the numbers below `2 ^ 63`. -/
theorem Number.ofInt?_natCast (m : Nat) :
    ofInt? m = if m < 2 ^ 63 then some (Int64.ofNat m) else none := by
  split
  next hm => exact ofInt?_eq_some_iff.mpr (Int64.toInt_ofNat_of_lt hm)
  next hm =>
    refine ofInt?_eq_none_iff.mpr fun k hk => hm ?_
    have hlt := k.toInt_lt
    omega

namespace Numeral

variable (n : Numeral)

/-- The reader of literals finds the style and the digits. -/
theorem splitRadix_chars : Number.splitRadix n.chars = (n.style.radix, n.digits) := by
  obtain ⟨style, digits, taken⟩ := n
  cases style with
  | decimal =>
    -- a zero that comes first is all that there is
    have hzero : ∀ x ds, digits ≠ '0' :: x :: ds := by
      rintro x ds rfl
      cases taken.2.2 rfl
    change Number.splitRadix digits = (.decimal, digits)
    unfold Number.splitRadix
    split <;> first
      | rfl
      | exact absurd rfl (hzero _ _)
  | octal =>
    obtain ⟨d, ds, rfl⟩ := List.exists_cons_of_ne_nil taken.1
    have hd : d.isDigit = true := List.all_eq_true.mp taken.2 d (by simp)
    have hmark : ∀ x ∈ ['x', 'X', 'b', 'B'], d ≠ x := by
      rintro x hx rfl
      simp only [List.mem_cons, List.not_mem_nil, or_false] at hx
      rcases hx with rfl | rfl | rfl | rfl <;> exact absurd hd (by decide)
    change Number.splitRadix ('0' :: d :: ds) = (.octal, d :: ds)
    unfold Number.splitRadix
    split <;> simp_all
  | hexadecimal capital | binary capital => cases capital <;> rfl

theorem Style.lead_injective : Function.Injective Style.lead := by
  rintro (_ | _ | (_ | _) | (_ | _)) (_ | _ | (_ | _) | (_ | _)) h <;> first
    | rfl
    | exact absurd h (by decide)

/-- The text of a numeral tells its style and its digits. -/
theorem text_injective : Function.Injective text := by
  intro n n' h
  have hchars : n.chars = n'.chars := String.ofList_injective h
  have hsplit := n.splitRadix_chars
  rw [hchars, splitRadix_chars] at hsplit
  have hdigits : n'.digits = n.digits := (Prod.mk.inj hsplit).2
  rw [chars, chars, hdigits] at hchars
  have hstyle : n.style = n'.style := Style.lead_injective (List.append_cancel_right hchars)
  obtain ⟨style, digits, taken⟩ := n
  obtain ⟨style', digits', taken'⟩ := n'
  obtain rfl : style = style' := hstyle
  obtain rfl : digits' = digits := hdigits
  rfl

/-- The digits are read if they are legal, and if their value fits 64 bits. -/
theorem readInteger?_digits :
    Number.readInteger? n.style.radix.val n.digits =
      if n.Legal ∧ n.value < 2 ^ 63 then some (Int64.ofNat n.value) else none := by
  have hsign : Number.readSign n.digits = (false, n.digits) := by
    refine Number.readSign_of_notMem (fun hminus => ?_) (fun hplus => ?_)
    · exact absurd (n.isHexDigit_of_mem_digits hminus) (by decide)
    · exact absurd (n.isHexDigit_of_mem_digits hplus) (by decide)
  have hnat : Number.readNat? n.style.radix.val n.digits =
      if n.Legal then some n.value else none := Number.readNat?_eq n.style.radix_le n.digits
  simp only [Number.readInteger?, hsign, hnat]
  rw [ite_and]
  split
  · exact Number.ofInt?_natCast n.value
  · rfl

theorem interpretInteger?_text :
    Number.interpretInteger? n.text none =
      if n.Legal ∧ n.value < 2 ^ 63 then some (Int64.ofNat n.value) else none := by
  have htrim : Text.trim n.text.toList = n.chars := by
    rw [text, String.toList_ofList]
    exact Text.trim_of_not_isBlank fun c hc =>
      Text.isBlank_of_toNat (Lexeme.toNat_of_isWordChar (n.isWordChar_of_mem_chars hc))
  rw [Number.interpretInteger?, htrim, splitRadix_chars, ← readInteger?_digits]

/-- **A numeral is read as its value, or refused.** -/
theorem literal?_text :
    Expr.literal? n.text =
      if n.Legal ∧ n.value < 2 ^ 63 then .ok (.int (Int64.ofNat n.value))
      else .error (.badNumber n.text) := by
  have hpoint : '.' ∉ n.text.toList := by
    rw [text, String.toList_ofList]
    exact fun h => absurd (n.isWordChar_of_mem_chars h) (by decide)
  rw [Expr.literal?, List.contains_eq_mem, decide_eq_false hpoint, if_neg Bool.false_ne_true,
    interpretInteger?_text]
  by_cases h : n.Legal ∧ n.value < 2 ^ 63
  · rw [if_pos h, if_pos h]
    rfl
  · rw [if_neg h, if_neg h]
    rfl

end Numeral

/-! ### Writing numerals -/

namespace Numeral

/-- An integer in digits of a style is a numeral. -/
theorem Style.takes_toDigits (style : Style) (m : Nat) :
    style.Takes (Nat.toDigits style.radix.val m) := by
  have hhex : (Nat.toDigits style.radix.val m).all Lexeme.isHexDigit = true := by
    have hdigits : ∀ d < 16, Lexeme.isHexDigit (Nat.digitChar d) = true := by decide
    rw [List.all_eq_true]
    intro c hc
    obtain ⟨d, hd, rfl⟩ := Number.exists_digitChar style.radix.two_le m hc
    exact hdigits d (Nat.lt_of_lt_of_le hd style.radix_le)
  have hdecimal (hradix : style.radix.val ≤ 10) :
      (Nat.toDigits style.radix.val m).all Char.isDigit = true := by
    rw [List.all_eq_true]
    intro c hc
    exact Nat.isDigit_of_mem_toDigits (Nat.zero_lt_of_lt style.radix.two_le) hradix hc
  cases style with
  | decimal =>
    refine ⟨Nat.toDigits_ne_nil, hdecimal (by decide), fun hzero => ?_⟩
    by_cases hm : m = 0
    · rw [hm]
      rfl
    · exact absurd hzero (head?_toDigits_ne hm)
  | octal => exact ⟨Nat.toDigits_ne_nil, hdecimal (by decide)⟩
  | hexadecimal | binary => exact hhex

/-- The numeral that an integer is written as. -/
def ofNat (style : Style) (m : Nat) : Numeral :=
  ⟨style, Nat.toDigits style.radix.val m, style.takes_toDigits m⟩

theorem legal_ofNat (style : Style) (m : Nat) : (ofNat style m).Legal :=
  ⟨Nat.toDigits_ne_nil, Number.all_toDigits style.radix.two_le m style.radix_le⟩

theorem value_ofNat (style : Style) (m : Nat) : (ofNat style m).value = m :=
  Number.positional_toDigits style.radix.two_le m style.radix_le

/-- **A number below `2 ^ 63` is read back**, in whatever style it is written. -/
theorem literal?_ofNat (style : Style) {m : Nat} (hm : m < 2 ^ 63) :
    Expr.literal? (ofNat style m).text = .ok (.int (.ofNat m)) := by
  have hfits : (ofNat style m).value < 2 ^ 63 := by rwa [value_ofNat]
  rw [literal?_text, if_pos ⟨legal_ofNat style m, hfits⟩, value_ofNat]

end Numeral

/-! ### The sign of what is read -/

theorem Text.mem_of_mem_trim {c : Char} {cs : List Char} (h : c ∈ trim cs) : c ∈ cs := by
  rw [trim, trimEnd, List.mem_reverse] at h
  have hstart : c ∈ trimStart cs := List.mem_reverse.mp ((List.dropWhile_sublist _).mem h)
  exact (List.dropWhile_sublist _).mem hstart

theorem Number.splitRadix_isSuffix (cs : List Char) : (splitRadix cs).2 <:+ cs := by
  unfold splitRadix
  split
  all_goals first
    | exact List.suffix_rfl
    | exact ⟨['0', _], rfl⟩
    | exact ⟨['0'], rfl⟩

/-- Only a sign makes an integer negative. -/
theorem Number.readInteger?_nonneg {radix : Nat} {cs : List Char} {n : Int64} (hcs : '-' ∉ cs)
    (h : readInteger? radix cs = some n) : 0 ≤ n := by
  have hsign : (readSign cs).1 = false := by
    unfold readSign
    split <;> simp_all
  simp only [readInteger?, hsign, Option.bind_eq_bind, Option.bind_eq_some_iff] at h
  obtain ⟨m, -, h⟩ := h
  rw [if_neg Bool.false_ne_true] at h
  rw [Int64.le_iff_toInt_le, ofInt?_eq_some_iff.mp h]
  exact Int.natCast_nonneg m

namespace Expr

/-- **An integer that is not negative is read back.** -/
theorem literal?_digits {n : Int64} (hn : 0 ≤ n) :
    literal? (toString n.toInt.toNat) = .ok (.int n) := by
  have hint : (n.toInt.toNat : Int) = n.toInt :=
    Int.toNat_of_nonneg (Int64.le_iff_toInt_le.mp hn)
  have hfits : n.toInt.toNat < 2 ^ 63 := by
    have hlt := n.toInt_lt
    omega
  have hvalue : Int64.ofNat n.toInt.toNat = n :=
    Int64.toInt_inj.mp ((Int64.toInt_ofNat_of_lt hfits).trans hint)
  have htext : toString n.toInt.toNat = (Numeral.ofNat .decimal n.toInt.toNat).text :=
    Nat.toString_eq_ofList_toDigits
  rw [htext, Numeral.literal?_ofNat .decimal hfits, hvalue]

/-- A number is a float, or an integer that is not negative if there is no sign. -/
theorem of_literal? {text : String} {v : Value} (htext : '-' ∉ text.toList)
    (h : literal? text = .ok v) : (∃ x, v = .float x) ∨ ∃ n, v = .int n ∧ 0 ≤ n := by
  rw [literal?] at h
  split at h
  next hvalue =>
    cases h
    split at hvalue
    · obtain ⟨x, -, rfl⟩ := Option.map_eq_some_iff.mp hvalue
      exact .inl ⟨x, rfl⟩
    · obtain ⟨n, hn, rfl⟩ := Option.map_eq_some_iff.mp hvalue
      refine .inr ⟨n, rfl, Number.readInteger?_nonneg (fun hmem => htext ?_) hn⟩
      exact Text.mem_of_mem_trim ((Number.splitRadix_isSuffix _).subset hmem)
  next => cases h

end Expr

end Stencil
