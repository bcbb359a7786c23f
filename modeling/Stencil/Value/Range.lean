import Stencil.Value.Number

/-!
# Ranges

A **range** lists the values from one end to the other, both included, every `step`-th
of them, upwards or downwards. Its ends are two single characters that are not digits,
or two integers. The sign of the step does not matter.
-/

namespace Stencil.Value

/-- How one walks over integers: upwards or downwards, by steps of one length. -/
structure Stride where
  upwards : Bool
  step : Nat
  step_pos : 0 < step

namespace Stride

/-- Whether a walk that ends at `last` must not come to `x`. -/
def isPast (s : Stride) (last x : Int64) : Bool :=
  if s.upwards then last < x else x < last

/-- The integer one step from `x`, if it has 64 bits. -/
def next? (s : Stride) (x : Int64) : Option Int64 :=
  Number.ofInt? (if s.upwards then x.toInt + s.step else x.toInt - s.step)

/-- How far it is from `x` past `last`. -/
def room (s : Stride) (last x : Int64) : Nat :=
  if s.upwards then (last.toInt + 1 - x.toInt).toNat else (x.toInt + 1 - last.toInt).toNat

theorem room_lt {s : Stride} {last x next : Int64} (hpast : ¬ s.isPast last x)
    (hnext : s.next? x = some next) : s.room last next < s.room last x := by
  have hvalue := Number.toInt_of_ofInt? hnext
  have hpos := s.step_pos
  rw [isPast] at hpast
  rw [room, room]
  split at hpast
  all_goals
    next hup =>
      simp only [hup, if_true, if_false, Bool.false_eq_true, decide_eq_true_eq,
        Int64.lt_iff_toInt_lt] at hpast hvalue ⊢
      omega

/-- The integers of a walk that is at `x` now and ends at `last`, behind those of `passed`, which
come from the last one back. It also ends where a step would leave the integers of 64 bits. -/
def walk (s : Stride) (last : Int64) (passed : List Int64) (x : Int64) : List Int64 :=
  if s.isPast last x then passed.reverse
  else
    match _hnext : s.next? x with
    | some next => s.walk last (x :: passed) next
    | none => (x :: passed).reverse
termination_by s.room last x
decreasing_by exact room_lt ‹_› _hnext

end Stride

/-- The distance between neighbours in a range. -/
abbrev Step := { n : Nat // 0 < n }

/-- The integers from `a` towards `b`, every `step`-th of them. -/
def intsBetween (a b : Int64) (step : Step) : List Int64 :=
  Stride.walk ⟨a ≤ b, step.val, step.property⟩ b [] a

/-- The place of a character among all characters. The surrogate code points are none. -/
def charPlace (c : Char) : Nat :=
  if c.toNat < 0xd800 then c.toNat else c.toNat - 0x800

/-- The character at a place. -/
def charAt (n : Nat) : Char :=
  Char.ofNat (if n < 0xd800 then n else n + 0x800)

/-- The characters from `a` towards `b`, every `step`-th of them. -/
def charsBetween (a b : Char) (step : Step) : List Char :=
  (intsBetween (Int64.ofNat (charPlace a)) (Int64.ofNat (charPlace b)) step).map fun n =>
    charAt n.toInt.toNat

/-- The character of a text that is one character and not a digit. -/
def singleChar? : Value → Option Char
  | .str s =>
    match s.toList with
    | [c] => if c.isDigit then none else some c
    | _ => none
  | _ => none

theorem natAbs_toInt_pos {n : Int64} (h : n ≠ 0) : 0 < n.toInt.natAbs :=
  Int.natAbs_pos.mpr fun hzero => h (Int64.toInt_inj.mp hzero)

/-- The step that a value asks for; one if none is given. Its sign does not matter. -/
def stepOf : Option Value → Except Error Step
  | none => .ok ⟨1, Nat.one_pos⟩
  | some v =>
    match v.toInt? with
    | none => .error (.render .rangeStep)
    | some n =>
      if h : n = 0 then .error (.render .rangeStepZero)
      else .ok ⟨n.toInt.natAbs, natAbs_toInt_pos h⟩

/-- The range between two values. -/
def range (first last : Value) (step : Option Value) : Except Error Value := do
  let step ← stepOf step
  match first.singleChar?, last.singleChar? with
  | some a, some b => return .list ((charsBetween a b step).map fun c => ofChars [c])
  | _, _ =>
    match first.toInt?, last.toInt? with
    | some a, some b =>
      return .list ((intsBetween a b step).map .int)
    | _, _ => throw (.render (.rangeEnds first.typeName last.typeName))

end Stencil.Value
