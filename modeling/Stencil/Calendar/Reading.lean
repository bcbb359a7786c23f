import Stencil.Calendar.Date
import Stencil.Number.Reading
import Stencil.Text.Blank

/-!
# Reading dates

A date is read along a **form**: numbers with literal characters and blanks between
them. Blanks before a number are skipped. A year without a sign has at most four
digits, every other number at most two. Fractions of a second are not read, and a
second 60 is the leap second of its minute. Reading stops at the first fault, and the
fault says what kind of text stood there.
-/

namespace Stencil.Calendar

/-- Why a text is not a date. -/
inductive DateFault where
  | outOfRange
  | invalid
  | tooShort
  | trailing
  deriving DecidableEq, Repr

def DateFault.message : DateFault → String
  | .outOfRange => "input is out of range"
  | .invalid => "input contains invalid characters"
  | .tooShort => "premature end of input"
  | .trailing => "trailing input"

/-- The numbers that a form can ask for. -/
inductive FormField where
  | year | month | day | hour | minute | second
  deriving DecidableEq, Repr

/-- One piece of a form. -/
inductive FormItem where
  | literal (c : Char)
  | blanks
  | number (field : FormField)
  deriving DecidableEq, Repr

/-- The numbers read so far. -/
structure Reading where
  year : Int := 0
  month : Nat := 0
  day : Nat := 0
  hour : Nat := 0
  minute : Nat := 0
  second : Nat := 0

/-- At most `limit` digits (any number of them without a limit) that make a number of
64 bits, and what follows. -/
def readDigits (limit : Option Nat) (cs : List Char) : Except DateFault (Nat × List Char) :=
  match cs with
  | [] => .error .tooShort
  | c :: _ =>
    if !c.isDigit then .error .invalid
    else
      let run := cs.takeWhile Char.isDigit
      let digits := match limit with
        | some n => run.take n
        | none => run
      let n := Nat.ofDigitChars 10 digits 0
      if Number.fits n then .ok (n, cs.drop digits.length) else .error .outOfRange

/-- Keeps a number that lies between two bounds. -/
def within (low high n : Nat) : Except DateFault Nat :=
  if low ≤ n && n ≤ high then .ok n else .error .outOfRange

/-- Reads one number into its field. -/
def readField (r : Reading) (field : FormField) (cs : List Char) :
    Except DateFault (Reading × List Char) := do
  let cs := Text.trimStart cs
  match field with
  | .year =>
    let (y, rest) ← match cs with
      | '-' :: cs => (readDigits none cs).map fun (n, rest) => (-(n : Int), rest)
      | '+' :: cs => (readDigits none cs).map fun (n, rest) => ((n : Int), rest)
      | cs => (readDigits (some 4) cs).map fun (n, rest) => ((n : Int), rest)
    if y < Int32.minValue.toInt || Int32.maxValue.toInt < y then throw .outOfRange
    return ({ r with year := y }, rest)
  | .month =>
    let (n, rest) ← readDigits (some 2) cs
    return ({ r with month := ← within 1 12 n }, rest)
  | .day =>
    let (n, rest) ← readDigits (some 2) cs
    return ({ r with day := ← within 1 31 n }, rest)
  | .hour =>
    let (n, rest) ← readDigits (some 2) cs
    return ({ r with hour := ← within 0 23 n }, rest)
  | .minute =>
    let (n, rest) ← readDigits (some 2) cs
    return ({ r with minute := ← within 0 59 n }, rest)
  | .second =>
    let (n, rest) ← readDigits (some 2) cs
    return ({ r with second := ← within 0 60 n }, rest)

/-- Reads a text along a form, to its end. -/
def readForm (r : Reading) : List FormItem → List Char → Except DateFault Reading
  | [], [] => .ok r
  | [], _ :: _ => .error .trailing
  | .literal _ :: _, [] => .error .tooShort
  | .literal c :: form, d :: cs => if c = d then readForm r form cs else .error .invalid
  | .blanks :: form, cs => readForm r form (Text.trimStart cs)
  | .number field :: form, cs => do
    let (r, rest) ← readField r field cs
    readForm r form rest

/-- The form `YYYY-MM-DD`. -/
def dateForm : List FormItem :=
  [.number .year, .literal '-', .number .month, .literal '-', .number .day]

/-- The form `HH:MM:SS`. -/
def timeForm : List FormItem :=
  [.number .hour, .literal ':', .number .minute, .literal ':', .number .second]

/-- The date that was read. -/
def Reading.date (r : Reading) : Except DateFault Date :=
  match Date.of? r.year r.month r.day with
  | some d => .ok d
  | none => .error .outOfRange

/-- The time of day that was read. The second 60 belongs to the second before it. -/
def Reading.time? (r : Reading) : Option Time :=
  if r.second = 60 then Time.of? r.hour r.minute 59 nanosPerSecond
  else Time.of? r.hour r.minute r.second 0

/-- The date-time that was read. -/
def Reading.dateTime (r : Reading) : Except DateFault DateTime := do
  let date ← r.date
  match r.time? with
  | some time => return ⟨date, time⟩
  | none => throw .outOfRange

/-- Reads a date. -/
def readDate (cs : List Char) : Except DateFault Date := do
  (← readForm {} dateForm cs).date

/-- Reads a date and a time, with the given items between them. -/
def readDateTime (between : FormItem) (cs : List Char) : Except DateFault DateTime := do
  (← readForm {} (dateForm ++ between :: timeForm) cs).dateTime

/-- Reads a date and a time with blanks or a `T` between them, or else a date alone, which
then stands for its midnight. The fault is the one of reading a date alone. -/
def readMoment (cs : List Char) : Except DateFault DateTime :=
  match readDateTime .blanks cs with
  | .ok d => .ok d
  | .error _ =>
    match readDateTime (.literal 'T') cs with
    | .ok d => .ok d
    | .error _ => (readDate cs).map fun d => ⟨d, .midnight⟩

end Stencil.Calendar
