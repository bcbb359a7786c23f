import Stencil.Calendar.Date

/-!
# Writing dates by a pattern

A **pattern** is text with directives such as `%Y` or `%H`. Reading a pattern gives its
**items**: literal text, numbers with their padding, names, fractions of a second. A
directive may name several items (`%F` is `%Y-%m-%d`), and a numeric one may change its
padding with `-`, `_` or `0`. A pattern with an unknown directive, or one that needs a
time zone, writes nothing at all.
-/

namespace Stencil.Calendar

/-- How a number is filled up to its width. -/
inductive Padding where
  | none
  | zeros
  | blanks
  deriving DecidableEq, Repr

/-- The numbers of a date-time that a directive can ask for. -/
inductive NumberField where
  | year | century | yearOfCentury
  | isoYear | isoYearOfCentury | isoWeek
  | quarter | month | day | ordinal
  | weekFromSunday | weekFromMonday
  | weekdayFromSunday | weekdayFromMonday
  | hour | hour12 | minute | second
  | nanosecond | timestamp
  deriving DecidableEq, Repr

/-- One piece of a pattern. -/
inductive Item where
  | literal (cs : List Char)
  | number (field : NumberField) (padding : Padding)
  | monthName (long : Bool)
  | weekdayName (long : Bool)
  | dayHalf (capital : Bool)
  /-- The fraction of a second with its point, as long as needed. -/
  | fraction
  /-- The fraction of a second with a fixed number of digits. -/
  | fractionDigits (point : Bool) (digits : Nat)
  /-- Something only a time zone could tell. -/
  | zone
  deriving DecidableEq, Repr

/-! ### Reading a pattern -/

def zeroed (f : NumberField) : Item := .number f .zeros
def blanked (f : NumberField) : Item := .number f .blanks
def text (s : String) : Item := .literal s.toList

/-- The items of a directive of one letter. -/
def directive? : Char → Option (List Item)
  | 'A' => some [.weekdayName true]
  | 'B' => some [.monthName true]
  | 'C' => some [zeroed .century]
  | 'D' => some [zeroed .month, text "/", zeroed .day, text "/", zeroed .yearOfCentury]
  | 'F' => some [zeroed .year, text "-", zeroed .month, text "-", zeroed .day]
  | 'G' => some [zeroed .isoYear]
  | 'H' => some [zeroed .hour]
  | 'I' => some [zeroed .hour12]
  | 'M' => some [zeroed .minute]
  | 'P' => some [.dayHalf false]
  | 'R' => some [zeroed .hour, text ":", zeroed .minute]
  | 'S' => some [zeroed .second]
  | 'T' => some [zeroed .hour, text ":", zeroed .minute, text ":", zeroed .second]
  | 'U' => some [zeroed .weekFromSunday]
  | 'V' => some [zeroed .isoWeek]
  | 'W' => some [zeroed .weekFromMonday]
  | 'X' => some [zeroed .hour, text ":", zeroed .minute, text ":", zeroed .second]
  | 'Y' => some [zeroed .year]
  | 'Z' => some [.zone]
  | 'a' => some [.weekdayName false]
  | 'b' => some [.monthName false]
  | 'c' => some [.weekdayName false, text " ", .monthName false, text " ", blanked .day,
      text " ", zeroed .hour, text ":", zeroed .minute, text ":", zeroed .second, text " ",
      zeroed .year]
  | 'd' => some [zeroed .day]
  | 'e' => some [blanked .day]
  | 'f' => some [zeroed .nanosecond]
  | 'g' => some [zeroed .isoYearOfCentury]
  | 'h' => some [.monthName false]
  | 'j' => some [zeroed .ordinal]
  | 'k' => some [blanked .hour]
  | 'l' => some [blanked .hour12]
  | 'm' => some [zeroed .month]
  | 'n' => some [text "\n"]
  | 'p' => some [.dayHalf true]
  | 'q' => some [.number .quarter .none]
  | 'r' => some [zeroed .hour12, text ":", zeroed .minute, text ":", zeroed .second,
      text " ", .dayHalf true]
  | 's' => some [.number .timestamp .none]
  | 't' => some [text "\t"]
  | 'u' => some [.number .weekdayFromMonday .none]
  | 'v' => some [blanked .day, text "-", .monthName false, text "-", zeroed .year]
  | 'w' => some [.number .weekdayFromSunday .none]
  | 'x' => some [zeroed .month, text "/", zeroed .day, text "/", zeroed .yearOfCentury]
  | 'y' => some [zeroed .yearOfCentury]
  | 'z' => some [.zone]
  | '+' => some [.zone]
  | '%' => some [text "%"]
  | _ => none

/-- A count of digits that a fraction of a second can have. -/
def fractionCount? : Char → Option Nat
  | '3' => some 3
  | '6' => some 6
  | '9' => some 9
  | _ => none

/-- The items of the directive after a percent sign, and what follows it. -/
def splitDirective? : List Char → Option (List Item × List Char)
  | ':' :: ':' :: ':' :: 'z' :: cs => some ([.zone], cs)
  | ':' :: ':' :: 'z' :: cs => some ([.zone], cs)
  | ':' :: 'z' :: cs => some ([.zone], cs)
  | '.' :: 'f' :: cs => some ([.fraction], cs)
  | '.' :: d :: 'f' :: cs => (fractionCount? d).map fun n => ([.fractionDigits true n], cs)
  | d :: 'f' :: cs =>
    match fractionCount? d with
    | some n => some ([.fractionDigits false n], cs)
    | none => (directive? d).map fun items => (items, 'f' :: cs)
  | c :: cs => (directive? c).map fun items => (items, cs)
  | [] => none

/-- The padding that a modifier asks for. -/
def paddingOf? : Char → Option Padding
  | '-' => some .none
  | '0' => some .zeros
  | '_' => some .blanks
  | _ => none

/-- The items of a directive with its modifier, if it has one. Only a single number can
change its padding, and `#` goes with the time zone alone. -/
def splitModified? : List Char → Option (List Item × List Char)
  | '#' :: 'z' :: cs => some ([.zone], cs)
  | '#' :: _ => none
  | c :: cs =>
    match paddingOf? c with
    | none => splitDirective? (c :: cs)
    | some padding =>
      match splitDirective? cs with
      | some ([.number field _], rest) => some ([.number field padding], rest)
      | _ => none
  | [] => none

theorem splitDirective?_length {cs rest : List Char} {items : List Item}
    (h : splitDirective? cs = some (items, rest)) : rest.length < cs.length := by
  unfold splitDirective? at h
  split at h <;> (try split at h) <;> simp [Option.map_eq_some_iff] at h <;> grind

theorem splitModified?_length {cs rest : List Char} {items : List Item}
    (h : splitModified? cs = some (items, rest)) : rest.length < cs.length := by
  unfold splitModified? at h
  split at h
  · grind
  · grind
  · split at h
    · exact splitDirective?_length h
    · split at h
      · next heq => have := splitDirective?_length heq; grind
      · grind
  · grind

/-- The items of a pattern, if all its directives are known. -/
def items? (pattern : List Char) : Option (List Item) :=
  match pattern with
  | [] => some []
  | '%' :: cs =>
    match _h : splitModified? cs with
    | none => none
    | some (items, rest) => (items? rest).map (items ++ ·)
  | c :: cs => (items? cs).map (.literal [c] :: ·)
termination_by pattern.length
decreasing_by
  · have := splitModified?_length _h
    simp only [List.length_cons]
    omega
  · simp

/-! ### Writing an item -/

/-- A number filled up to `width` characters. -/
def fill (padding : Padding) (width : Nat) (sign : List Char) (digits : List Char) : List Char :=
  let missing := width - (sign.length + digits.length)
  match padding with
  | .none => sign ++ digits
  | .zeros => sign ++ List.replicate missing '0' ++ digits
  | .blanks => List.replicate missing ' ' ++ sign ++ digits

/-- A number of at least `width` digits; one with a shown sign is one wider. -/
def writeWide (padding : Padding) (width : Nat) (showsSign : Bool) (n : Int) : List Char :=
  let sign := if n < 0 then ['-'] else if showsSign then ['+'] else []
  fill padding (if showsSign then width + 1 else width) sign (Nat.toDigits 10 n.natAbs)

/-- A number of two digits. The tens digit of a larger number is the character that many
places after `0`. -/
def writeTwo (padding : Padding) (n : Nat) : List Char :=
  let ones := Char.ofNat ('0'.toNat + n % 10)
  match n / 10, padding with
  | 0, .none => [ones]
  | 0, .blanks => [' ', ones]
  | tens, _ => [Char.ofNat ('0'.toNat + tens), ones]

/-- A year has four digits, and a sign unless they are enough. -/
def writeYear (padding : Padding) (y : Int) : List Char :=
  writeWide padding 4 (y < 0 || 10000 ≤ y) y

/-- The hour on a clock face. -/
def clockHour (hour : Nat) : Nat :=
  if hour % 12 = 0 then 12 else hour % 12

/-- A number of the date-time as a directive shows it. A century is kept modulo 256. -/
def NumberField.write (d : DateTime) (padding : Padding) : NumberField → List Char
  | .year => writeYear padding d.date.year
  | .century => writeTwo padding (d.date.year / 100 % 256).toNat
  | .yearOfCentury => writeTwo padding (d.date.year % 100).toNat
  | .isoYear => writeYear padding d.date.isoWeek.1
  | .isoYearOfCentury => writeTwo padding (d.date.isoWeek.1 % 100).toNat
  | .isoWeek => writeTwo padding d.date.isoWeek.2
  | .quarter => Nat.toDigits 10 ((d.date.month - 1) / 3 + 1)
  | .month => writeTwo padding d.date.month
  | .day => writeTwo padding d.date.day
  | .ordinal => writeWide padding 3 false d.date.ordinal
  | .weekFromSunday => writeTwo padding (d.date.weeksFrom 6)
  | .weekFromMonday => writeTwo padding (d.date.weeksFrom 0)
  | .weekdayFromSunday => Nat.toDigits 10 ((d.date.weekday + 1) % 7)
  | .weekdayFromMonday => Nat.toDigits 10 (d.date.weekday + 1)
  | .hour => writeTwo padding d.time.hour
  | .hour12 => writeTwo padding (clockHour d.time.hour)
  | .minute => writeTwo padding d.time.minute
  | .second => writeTwo padding d.time.shownSecond
  | .nanosecond => writeWide padding 9 false d.time.fraction
  | .timestamp => writeWide padding 9 false d.timestamp

def monthNames : List String :=
  ["January", "February", "March", "April", "May", "June", "July", "August", "September",
   "October", "November", "December"]

def weekdayNames : List String :=
  ["Monday", "Tuesday", "Wednesday", "Thursday", "Friday", "Saturday", "Sunday"]

/-- The name at a place of a list, cut to three letters unless it is wanted whole. -/
def nameAt (names : List String) (i : Nat) (long : Bool) : List Char :=
  let name := (names.getD i "").toList
  if long then name else name.take 3

/-- The first digits of a fraction of a second, which has nine. -/
def firstDigits (digits nanos : Nat) : List Char :=
  (fill .zeros 9 [] (Nat.toDigits 10 nanos)).take digits

/-- A fraction of a second with its point. It has three digits, or six or nine if it needs
them, and a whole second has none. -/
def writeFraction (nanos : Nat) : List Char :=
  if nanos = 0 then []
  else if nanos % 1000000 = 0 then '.' :: firstDigits 3 nanos
  else if nanos % 1000 = 0 then '.' :: firstDigits 6 nanos
  else '.' :: firstDigits 9 nanos

/-- What an item writes. A fraction of fewer digits is cut off, not rounded. -/
def Item.write? (d : DateTime) : Item → Option (List Char)
  | .literal cs => some cs
  | .number field padding => some (field.write d padding)
  | .monthName long => some (nameAt monthNames (d.date.month - 1) long)
  | .weekdayName long => some (nameAt weekdayNames d.date.weekday long)
  | .dayHalf capital =>
    some <| if d.time.hour < 12 then (if capital then ['A', 'M'] else ['a', 'm'])
      else if capital then ['P', 'M'] else ['p', 'm']
  | .fraction => some (writeFraction d.time.fraction)
  | .fractionDigits point digits =>
    some ((if point then ['.'] else []) ++ firstDigits digits d.time.fraction)
  | .zone => none

/-- What a list of items writes. -/
def writeItems? (d : DateTime) : List Item → Option (List Char)
  | [] => some []
  | item :: items => do
    let front ← item.write? d
    let rest ← writeItems? d items
    some (front ++ rest)

/-- The date-time in the form of a pattern. -/
def format? (pattern : String) (d : DateTime) : Option String := do
  let items ← items? pattern.toList
  let cs ← writeItems? d items
  some (String.ofList cs)

end Stencil.Calendar

namespace Stencil

/-! ### Standard forms -/

/-- The date as `YYYY-MM-DD`. -/
def Date.display (d : Date) : String :=
  String.ofList (Calendar.writeYear .zeros d.year ++ '-' :: Calendar.writeTwo .zeros d.month ++
    '-' :: Calendar.writeTwo .zeros d.day)

/-- The time as `HH:MM:SS`, without its fraction of a second. -/
def Time.display (t : Time) : String :=
  String.ofList (Calendar.writeTwo .zeros t.hour ++ ':' :: Calendar.writeTwo .zeros t.minute ++
    ':' :: Calendar.writeTwo .zeros t.shownSecond)

/-- The date and the time with a space between them. -/
def DateTime.display (d : DateTime) : String :=
  d.date.display ++ " " ++ d.time.display

end Stencil
