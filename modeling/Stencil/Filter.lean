import Stencil.Calendar.Reading
import Stencil.Number.Power
import Stencil.Text.Case
import Stencil.Text.Markup
import Stencil.Value.Access
import Stencil.Value.Sorting

/-!
# Filters

A **filter** takes the value on its left and some arguments to another value:
`name|default("n/a")|upper`. Missing arguments have defaults and surplus ones are
ignored, so no filter fails over the number of its arguments.
-/

namespace Stencil

/-- What a filter does with a value and its arguments. -/
abbrev Filter := Value → List Value → Except Error Value

namespace Filter

/-- A filter on the text of a value. -/
def onText (f : String → String) : Filter := fun v _ =>
  .ok (.str (f v.display))

/-- The value as a float, which the filter of this name needs. -/
def number (name : String) (v : Value) : Except Error Float :=
  match v.toFloat? with
  | some x => .ok x
  | none => .error (.render (.numberExpected name v.typeName))

/-! ### Texts -/

def trim : Filter :=
  onText fun s => String.ofList (Text.trim s.toList)

/-- Replaces a text by another, or each name of a map by the text of its entry, one
after the other. -/
def replace : Filter := fun v args =>
  let replaceIn (s old new : String) :=
    String.ofList (Text.replaceAll old.toList new.toList s.toList)
  match args with
  | [] => .ok (.str v.display)
  | .map entries :: _ =>
    .ok (.str (entries.foldl (fun s e => replaceIn s e.1 e.2.display) v.display))
  | old :: rest =>
    let new := match rest with
      | [] => ""
      | w :: _ => w.display
    .ok (.str (replaceIn v.display old.display new))

/-! ### Lists -/

def length : Filter := fun v _ =>
  .ok (Value.ofNat (v.length?.getD 0))

/-- Joins the texts of the items with the text of the first argument. -/
def join : Filter := fun v args =>
  let separator := match args with
    | [] => ""
    | s :: _ => s.display
  match v with
  | .list items => .ok (.str (Text.join separator (items.map Value.display)))
  | v => .ok (.str v.display)

/-- The first argument in place of an empty value. -/
def default : Filter := fun v args =>
  if v.isEmpty then .ok (args.headD .null) else .ok v

def reverse : Filter := fun v _ =>
  match v with
  | .list items => .ok (.list items.reverse)
  | v => .ok (Value.ofChars v.display.toList.reverse)

def first : Filter := fun v _ =>
  .ok ((v.item? (.int 0)).getD .null)

def last : Filter := fun v _ =>
  .ok ((v.item? (.int (-1))).getD .null)

/-- The names of a map, the positions of a list. -/
def keys : Filter := fun v _ =>
  match v with
  | .map entries => .ok (.list (entries.map fun e => .str e.1))
  | .list items => .ok (.list ((List.range items.length).map Value.ofNat))
  | _ => .ok (.list [])

def sort : Filter := fun v _ =>
  match v with
  | .list items =>
    match Value.sort? items with
    | some sorted => .ok (.list sorted)
    | none => .error .noOrder
  | v => .ok v

/-! ### Numbers -/

/-- The size of a number. That of the least integer is a float. -/
def abs : Filter := fun v _ =>
  match v with
  | .int n => .ok (Number.exactOr n.toInt.natAbs (Number.floatOf n).abs)
  | v => do return .float (← number "abs" v).abs

/-- Rounds half away from zero, to an integer or to as many places as the first argument
says. -/
def round : Filter := fun v args => do
  let x ← number "round" v
  let places := match args with
    | [] => 0
    | p :: _ => (p.toInt?.getD 0).toInt
  if places ≤ 0 then return .int x.round.toInt64
  else
    let factor := Number.powInt 10.0 (Int.bmod places UInt32.size)
    return .float ((x * factor).round / factor)

/-! ### Dates -/

/-- The moment that a value stands for: an integer counts seconds from 1970. -/
def moment : Value → Except Error DateTime
  | .dateTime d => .ok d
  | .date d => .ok ⟨d, .midnight⟩
  | .str s =>
    match Calendar.readMoment s.toList with
    | .ok d => .ok d
    | .error fault => .error (.render (.badDate s fault.message))
  | .int n =>
    match DateTime.ofTimestamp? n.toInt with
    | some d => .ok d
    | none => .error (.render (.badTimestamp n))
  | v => .error (.render (.notADate v.typeName))

/-- Writes a date by the pattern of the first argument. -/
def date : Filter := fun v args => do
  let pattern := match args with
    | [] => "%Y-%m-%d"
    | p :: _ => p.display
  let d ← moment v
  match Calendar.format? pattern d with
  | some s => return .str s
  | none => throw (.datePattern pattern)

/-! ### All of them -/

/-- The filters that every engine has. -/
def builtins : Table Filter := Table.ofEntries [
  ("upper", onText Text.upper),
  ("lower", onText Text.lower),
  ("capitalize", onText Text.capitalize),
  ("title", onText Text.title),
  ("trim", trim),
  ("length", length),
  ("join", join),
  ("default", default),
  ("escape", onText Text.escapeMarkup),
  ("e", onText Text.escapeMarkup),
  ("raw", fun v _ => .ok v),
  ("reverse", reverse),
  ("first", first),
  ("last", last),
  ("keys", keys),
  ("sort", sort),
  ("abs", abs),
  ("round", round),
  ("replace", replace),
  ("date", date),
  ("json_encode", fun v _ => .ok (.str v.json))]

end Filter

end Stencil
