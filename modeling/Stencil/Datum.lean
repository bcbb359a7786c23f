import Stencil.Error
import Stencil.Number.Reading
import Stencil.Text.Utf8
import Stencil.Value.Display

/-!
# Data from outside

A program hands its data to a template in a general **data model**: numbers of several
widths, characters and bytes, optional values, sequences, maps, records and variants, or
data that refuses to be read. `Datum.toValue` turns it into a template value, and
`Value.toDatum` is the way back.

Options and newtypes are transparent, units are null, a unit variant is its name. An
integer of 128 bits is refused, whatever its value. The keys of a map must come out as
texts, integers or truth values. A key without a value is forgotten; a value without a
key is a fault, unless an earlier key still waits for one.
-/

namespace Stencil

/-- Data as a program describes it. -/
inductive Datum where
  | bool (b : Bool)
  | signed (n : Int64)
  | unsigned (n : UInt64)
  /-- Integers of 128 bits, with a sign and without one. -/
  | wideSigned (n : BitVec 128)
  | wideUnsigned (n : BitVec 128)
  | float (x : Float)
  | char (c : Char)
  | str (s : String)
  | bytes (bs : List UInt8)
  | none
  | some (d : Datum)
  | unit
  | unitRecord (name : String)
  | unitVariant (type variant : String)
  | newtype (name : String) (d : Datum)
  | newtypeVariant (type variant : String) (d : Datum)
  | seq (items : List Datum)
  | tuple (items : List Datum)
  | tupleRecord (name : String) (items : List Datum)
  | tupleVariant (type variant : String) (items : List Datum)
  /-- Keys and values as they come; either may be left out. -/
  | map (entries : List (Option Datum × Option Datum))
  | record (name : String) (fields : List (String × Datum))
  | recordVariant (type variant : String) (fields : List (String × Datum))
  /-- Data that cannot be read, with its reason. -/
  | broken (reason : String)

instance : Inhabited Datum := ⟨.unit⟩

/-- An unsigned integer that does not fit the signed ones is a float. -/
def Value.ofUnsigned (n : UInt64) : Value :=
  match Number.ofInt? n.toNat with
  | some i => .int i
  | none => .float n.toFloat

/-- The name that a map key comes out as. -/
def Value.keyText? : Value → Option String
  | .str s => Option.some s
  | .int n => Option.some (Value.int n).display
  | .bool b => Option.some (Value.bool b).display
  | _ => Option.none

/-- Entries collected so far, and a key that waits for its value. -/
structure MapProgress where
  entries : List (String × Value) := []
  waiting : Option String := Option.none

namespace MapProgress

/-- Takes in a key. -/
def key (p : MapProgress) (k : Value) : Except Error MapProgress :=
  match k.keyText? with
  | .some name => .ok { p with waiting := .some name }
  | .none => .error (.data .badKey)

/-- Takes in the value of the waiting key. -/
def value (p : MapProgress) (v : Value) : Except Error MapProgress :=
  match p.waiting with
  | .some name => .ok { entries := Table.insert name v p.entries }
  | .none => .error (.data .missingKey)

end MapProgress

namespace Datum

mutual

/-- The template value of some data. -/
def toValue : Datum → Except Error Value
  | .bool b => .ok (.bool b)
  | .signed n => .ok (.int n)
  | .unsigned n => .ok (Value.ofUnsigned n)
  | .wideSigned _ => .error (.data (.custom "i128 is not supported"))
  | .wideUnsigned _ => .error (.data (.custom "u128 is not supported"))
  | .float x => .ok (.float x)
  | .char c => .ok (Value.ofChars [c])
  | .str s => .ok (.str s)
  | .bytes bs => .ok (Value.ofChars (Text.decodeLossy bs))
  | .none | .unit | .unitRecord _ => .ok .null
  | .unitVariant _ variant => .ok (.str variant)
  | .some d | .newtype _ d | .newtypeVariant _ _ d => toValue d
  | .seq items | .tuple items | .tupleRecord _ items | .tupleVariant _ _ items => do
    return .list (← toValues items)
  | .map entries => do return .map (← collect {} entries).entries
  | .record _ fields | .recordVariant _ _ fields => do return .map (← collectFields [] fields)
  | .broken reason => .error (.data (.custom reason))

/-- The values of a sequence, up to the first fault. -/
def toValues : List Datum → Except Error (List Value)
  | [] => .ok []
  | d :: ds => do
    let v ← toValue d
    return v :: (← toValues ds)

/-- Takes in the entries of a map. -/
def collect (p : MapProgress) : List (Option Datum × Option Datum) → Except Error MapProgress
  | [] => .ok p
  | (key, value) :: rest => do
    let p ← collectKey p key
    let p ← collectValue p value
    collect p rest

def collectKey (p : MapProgress) : Option Datum → Except Error MapProgress
  | .none => .ok p
  | .some d => do p.key (← toValue d)

def collectValue (p : MapProgress) : Option Datum → Except Error MapProgress
  | .none => .ok p
  | .some d => do p.value (← toValue d)

/-- Takes in the fields of a record. -/
def collectFields (entries : List (String × Value)) :
    List (String × Datum) → Except Error (List (String × Value))
  | [] => .ok entries
  | (name, d) :: rest => do
    let v ← toValue d
    collectFields (Table.insert name v entries) rest

end

end Datum

namespace Value

mutual

/-- A value as data. Dates are handed over as text. -/
def toDatum : Value → Datum
  | .null => .unit
  | .bool b => .bool b
  | .int n => .signed n
  | .float x => .float x
  | .str s => .str s
  | .date d => .str d.display
  | .dateTime d => .str d.display
  | .list items => .seq (toData items)
  | .map entries => .map (toEntries entries)

def toData : List Value → List Datum
  | [] => []
  | v :: vs => toDatum v :: toData vs

def toEntries : List (String × Value) → List (Option Datum × Option Datum)
  | [] => []
  | (k, v) :: es => (.some (.str k), .some (toDatum v)) :: toEntries es

end

end Value

end Stencil
