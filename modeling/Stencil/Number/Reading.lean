import Stencil.Number.Dyadic

/-!
# Reading numbers

An **integer** is an optional sign and at least one digit of a radix, and it must fit
64 bits. A **decimal** is an optional sign and digits around a point, of which at
least one side is there, with an optional exponent; the words for infinity and
not-a-number are decimals too. A decimal reads as the nearest float, or as the nearest
of those in single precision. Either way it is rounded once.
-/

namespace Stencil.Number

/-- Whether 64 bits hold the integer. -/
def fits (z : Int) : Bool :=
  Int64.minValue.toInt ≤ z && z ≤ Int64.maxValue.toInt

/-- The 64-bit integer of value `z`, if there is one. -/
def ofInt? (z : Int) : Option Int64 :=
  if fits z then some (Int64.ofInt z) else none

theorem toInt_of_ofInt? {z : Int} {n : Int64} (h : ofInt? z = some n) : n.toInt = z := by
  rw [ofInt?] at h
  split at h
  next hz =>
    cases h
    rw [fits, Bool.and_eq_true, decide_eq_true_eq, decide_eq_true_eq] at hz
    exact Int64.toInt_ofInt_of_le hz.1 (Int.lt_add_one_of_le hz.2)
  next => cases h

/-- The value of a digit, letters being the digits from ten on. -/
def digitValue? (radix : Nat) (c : Char) : Option Nat :=
  let v :=
    if c.isDigit then some (c.toNat - '0'.toNat)
    else if 'a' ≤ c && c ≤ 'z' then some (c.toNat - 'a'.toNat + 10)
    else if 'A' ≤ c && c ≤ 'Z' then some (c.toNat - 'A'.toNat + 10)
    else none
  v.filter (· < radix)

/-- The value of a digit string that follows digits of value `before`. -/
def readDigits (radix before : Nat) : List Char → Option Nat
  | [] => some before
  | c :: cs => do readDigits radix (before * radix + (← digitValue? radix c)) cs

/-- The value of a digit string that has a digit. -/
def readNat? (radix : Nat) : List Char → Option Nat
  | [] => none
  | c :: cs => readDigits radix 0 (c :: cs)

/-- Whether a sign says minus, and what follows the sign. -/
def readSign : List Char → Bool × List Char
  | '-' :: cs => (true, cs)
  | '+' :: cs => (false, cs)
  | cs => (false, cs)

/-- An integer of a radix that fits 64 bits. -/
def readInteger? (radix : Nat) (cs : List Char) : Option Int64 := do
  let (negative, digits) := readSign cs
  let n ← readNat? radix digits
  ofInt? (if negative then -(n : Int) else n)

/-! ### Decimals -/

/-- The parts of a decimal after its sign. -/
structure DecimalText where
  whole : List Char
  fraction : List Char
  exponent : Int
  deriving DecidableEq, Repr

/-- The float nearest to `m · 10 ^ e`. Far out of range it is zero or infinite. -/
def nearestFloat (m : Nat) (e : Int) : Float :=
  let size := ((Nat.toDigits 10 m).length : Int) + e
  if m = 0 || size < -330 then 0.0
  else if 310 < size then 1.0 / 0.0
  else Float.ofScientific m (e < 0) e.natAbs

/-- The float of single precision nearest to `m · 10 ^ e`. Far out of range it is zero or
infinite. -/
def nearestSingle (m : Nat) (e : Int) : Float :=
  let size := ((Nat.toDigits 10 m).length : Int) + e
  if m = 0 || size < -50 then 0.0
  else if 50 < size then 1.0 / 0.0
  else (Float32.ofScientific m (e < 0) e.natAbs).toFloat

/-- The value of the digits, given what is nearest to a digit string times a power of
ten. -/
def DecimalText.value (d : DecimalText) (nearest : Nat → Int → Float) : Float :=
  let m := Nat.ofDigitChars 10 (d.whole ++ d.fraction) 0
  nearest m (d.exponent - d.fraction.length)

/-- An exponent: a sign and digits, to the end of the text. -/
def readExponent? : List Char → Option Int
  | [] => some 0
  | c :: cs =>
    if c = 'e' || c = 'E' then do
      let (negative, digits) := readSign cs
      let n ← readNat? 10 digits
      some (if negative then -(n : Int) else n)
    else none

/-- The parts of an unsigned decimal. -/
def readDecimalText? (cs : List Char) : Option DecimalText := do
  let whole := cs.takeWhile Char.isDigit
  let rest := cs.dropWhile Char.isDigit
  match rest with
  | '.' :: rest =>
    let fraction := rest.takeWhile Char.isDigit
    if whole.isEmpty && fraction.isEmpty then none
    else some ⟨whole, fraction, ← readExponent? (rest.dropWhile Char.isDigit)⟩
  | rest => if whole.isEmpty then none else some ⟨whole, [], ← readExponent? rest⟩

/-- A decimal, or a word for infinity or not-a-number in any letter case. -/
def readDecimal? (nearest : Nat → Int → Float) (cs : List Char) : Option Float :=
  let (negative, body) := readSign cs
  let word := String.ofList (body.map Char.toLower)
  let size :=
    if word = "inf" || word = "infinity" then some (1.0 / 0.0)
    else if word = "nan" then some (0.0 / 0.0)
    else (readDecimalText? body).map fun d => d.value nearest
  size.map fun x => if negative then -x else x

/-- The float nearest to a decimal. -/
def readFloat? : List Char → Option Float :=
  readDecimal? nearestFloat

/-- The float of single precision nearest to a decimal. -/
def readSingle? : List Char → Option Float :=
  readDecimal? nearestSingle

end Stencil.Number
