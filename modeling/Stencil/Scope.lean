import Stencil.Value.Access

/-!
# Scopes

A **scope** is what the names of a template stand for: the entries of a root map, and
on top of them **locals**, which loops, macros and includes bring and take away again.
Of several locals of one name the innermost counts. A **mark** is the number of locals
at some moment; cutting back to it takes away all that came since.
-/

namespace Stencil

/-- Names and what they stand for. The innermost local comes first. -/
structure Scope where
  root : Table Value := []
  locals : List (String × Value) := []

namespace Scope

/-- A scope over the entries of a map; any other value has none. -/
def ofValue : Value → Scope
  | .map entries => { root := entries }
  | _ => {}

/-- Adds an innermost local. -/
def push (key : String) (v : Value) (s : Scope) : Scope :=
  { s with locals := (key, v) :: s.locals }

/-- Takes the innermost local away. -/
def pop (s : Scope) : Scope :=
  { s with locals := s.locals.tail }

/-- The number of locals. -/
def mark (s : Scope) : Nat :=
  s.locals.length

/-- Cuts back to a mark. -/
def truncate (mark : Nat) (s : Scope) : Scope :=
  { s with locals := s.locals.drop (s.locals.length - mark) }

/-- Gives the innermost local of a name a new value, if there is such a local. -/
def rebind? (key : String) (v : Value) : List (String × Value) → Option (List (String × Value))
  | [] => none
  | (k, w) :: rest =>
    if k = key then some ((k, v) :: rest)
    else (rebind? key v rest).map ((k, w) :: ·)

/-- Gives a name a value: the innermost local of that name, or else a new one. -/
def set (key : String) (v : Value) (s : Scope) : Scope :=
  match rebind? key v s.locals with
  | some locals => { s with locals }
  | none => s.push key v

/-- What a whole name stands for. -/
def find? (key : String) (s : Scope) : Option Value :=
  match s.locals.lookup key with
  | some v => some v
  | none => Table.find? key s.root

/-- Follows attribute names from a value. -/
def follow? (v : Value) : List (List Char) → Option Value
  | [] => some v
  | part :: parts => (v.attr? (String.ofList part)).bind fun w => follow? w parts

/-- What a name stands for. A name with dots that is not there as a whole is followed
from its first part. -/
def lookup? (key : String) (s : Scope) : Option Value :=
  match s.find? key with
  | some v => some v
  | none =>
    match Text.splitAt '.' key.toList with
    | head :: part :: parts =>
      (s.find? (String.ofList head)).bind fun v => follow? v (part :: parts)
    | _ => none

end Scope

end Stencil
