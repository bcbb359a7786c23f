import Stencil.Datum
import Stencil.Proofs.Table
import Stencil.Proofs.Value.Arithmetic

/-!
# What is wrong with data, and what it is worth

Data is read part by part, and the first fault ends the reading. Here the two halves of that are told
apart, each for any data, whether it has faults or not:

* `Datum.faults` lists **all faults**, in the order in which a walk through the data meets them,
  depth first and from left to right;
* `Datum.shape` is the **value of the same shape**, in which a place with a fault counts for nothing.

`Datum.reads_shape_or_first_fault` puts them together: reading gives the first of the faults if there
is one, and the shape otherwise. What carries the proof is that a reading told so can be continued by
another one (`Datum.settled_bind`): the faults are put behind each other, and the shapes are put
together.

A map is the part with a memory. Its keys and values come in any order, and a key **waits** until a
value comes or another key takes its place. So a value has a fault of its own, that no key waits,
which is met behind the faults inside the value.

Not all faults are mistakes of the data. An integer of 128 bits is one by itself, also where a value
has room for it (`Datum.not_reads_wide_integer`).
-/

namespace Stencil.Datum

/-! ### The two halves -/

/-- The name that some data stands for as the key of a map, options and newtypes looked through. -/
def keyName? : Datum → Option String
  | .bool b => Option.some (if b then "true" else "false")
  | .signed n => Option.some (toString n.toInt)
  | .unsigned n => if n.toNat < 2 ^ 63 then Option.some (toString n.toNat) else Option.none
  | .char c => Option.some (String.ofList [c])
  | .str s => Option.some s
  | .bytes bs => Option.some (String.ofList (Text.decodeLossy bs))
  | .unitVariant _ variant => Option.some variant
  | .some d | .newtype _ d | .newtypeVariant _ _ d => keyName? d
  | _ => Option.none

mutual

/-- The faults of some data in the order of a walk, depth first and from left to right. -/
def faults : Datum → List Error
  | .broken reason => [.data (.custom reason)]
  | .wideSigned _ => [.data (.custom "i128 is not supported")]
  | .wideUnsigned _ => [.data (.custom "u128 is not supported")]
  | .some d | .newtype _ d | .newtypeVariant _ _ d => faults d
  | .seq items | .tuple items | .tupleRecord _ items | .tupleVariant _ _ items =>
    faultsOfItems items
  | .map entries => faultsOfEntries false entries
  | .record _ fields | .recordVariant _ _ fields => faultsOfFields fields
  | _ => []

def faultsOfItems : List Datum → List Error
  | [] => []
  | d :: ds => faults d ++ faultsOfItems ds

def faultsOfFields : List (String × Datum) → List Error
  | [] => []
  | (_, d) :: rest => faults d ++ faultsOfFields rest

/-- The faults of a map; `waits` says whether a key waits for its value. -/
def faultsOfEntries (waits : Bool) : List (Option Datum × Option Datum) → List Error
  | [] => []
  | (key, value) :: rest =>
    faultsOfKey key ++ faultsOfValue (waits || key.isSome) value ++
      faultsOfEntries ((waits || key.isSome) && value.isNone) rest

/-- The faults of a key, and behind them that it stands for no name. -/
def faultsOfKey : Option Datum → List Error
  | .none => []
  | .some d => faults d ++ if d.keyName?.isSome then [] else [.data .badKey]

/-- The faults of a value, and behind them that no key waits for it. -/
def faultsOfValue (keyed : Bool) : Option Datum → List Error
  | .none => []
  | .some d => faults d ++ if keyed then [] else [.data .missingKey]

end

mutual

/-- The value of the same shape. -/
def shape : Datum → Value
  | .bool b => .bool b
  | .signed n => .int n
  | .unsigned n => if n.toNat < 2 ^ 63 then .int (Int64.ofNat n.toNat) else .float n.toFloat
  | .float x => .float x
  | .char c => .str (String.ofList [c])
  | .str s => .str s
  | .bytes bs => .str (String.ofList (Text.decodeLossy bs))
  | .none | .unit | .unitRecord _ | .wideSigned _ | .wideUnsigned _ | .broken _ => .null
  | .unitVariant _ variant => .str variant
  | .some d | .newtype _ d | .newtypeVariant _ _ d => shape d
  | .seq items | .tuple items | .tupleRecord _ items | .tupleVariant _ _ items =>
    .list (shapes items)
  | .map entries => .map (Table.ofEntries (named Option.none entries))
  | .record _ fields | .recordVariant _ _ fields => .map (Table.ofEntries (namedFields fields))

def shapes : List Datum → List Value
  | [] => []
  | d :: ds => shape d :: shapes ds

def namedFields : List (String × Datum) → List (String × Value)
  | [] => []
  | (name, d) :: rest => (name, shape d) :: namedFields rest

/-- The values of a map with their names; `waiting` is the name of the key that waits. A key takes the
place of the one before, and a value uses it up. -/
def named (waiting : Option String) :
    List (Option Datum × Option Datum) → List (String × Value)
  | [] => []
  | (key, .none) :: rest => named (key.elim waiting keyName?) rest
  | (key, .some d) :: rest =>
    ((key.elim waiting keyName?).map fun name => (name, shape d)).toList ++ named Option.none rest

end

/-! ### Readings -/

/-- The reading with these faults that would give `a` without them. -/
def settled {α : Type} (faults : List Error) (a : α) : Except Error α :=
  match faults with
  | [] => .ok a
  | fault :: _ => .error fault

section Settled

variable {α β : Type} {fs gs : List Error} {a : α} {b : β}

theorem settled_eq_error_iff {fault : Error} :
    settled fs a = .error fault ↔ fs.head? = Option.some fault := by
  cases fs <;> simp [settled]

theorem settled_eq_ok_iff {x : α} : settled fs a = .ok x ↔ fs = [] ∧ x = a := by
  cases fs <;> simp [settled, eq_comm]

/-- **A reading goes on behind another one**, with its faults behind those of the other. How it goes on
matters only if there are none. -/
theorem settled_bind {f : α → Except Error β} (hf : fs = [] → f a = settled gs b) :
    (settled fs a >>= f) = settled (fs ++ gs) b := by
  cases fs with
  | nil => exact hf rfl
  | cons fault fs => rfl

/-- What is made of the result changes no fault. -/
theorem settled_map (f : α → β) : f <$> settled fs a = settled fs (f a) := by
  cases fs <;> rfl

end Settled

/-! ### Numbers and keys -/

/-- An unsigned number is an integer if that has room for it. -/
theorem ofUnsigned_eq (n : UInt64) : Value.ofUnsigned n =
    if n.toNat < 2 ^ 63 then .int (Int64.ofNat n.toNat) else .float n.toFloat := by
  rw [Value.ofUnsigned]
  by_cases h : n.toNat < 2 ^ 63
  · have hfits : Number.ofInt? n.toNat = Option.some (Int64.ofNat n.toNat) :=
      Number.ofInt?_eq_some_iff.mpr (Int64.toInt_ofNat_of_lt h)
    rw [hfits, if_pos h]
  · have hnone : Number.ofInt? n.toNat = Option.none := by
      refine Number.ofInt?_eq_none_iff.mpr fun i hi => ?_
      have := i.toInt_lt
      omega
    rw [hnone, if_neg h]

/-- A key has the name of the value that it is read as. -/
theorem keyText?_shape : (d : Datum) → d.shape.keyText? = d.keyName?
  | .some d | .newtype _ d | .newtypeVariant _ _ d => keyText?_shape d
  | .unsigned n => by
    rw [shape, keyName?]
    by_cases h : n.toNat < 2 ^ 63
    · have hint : (Int64.ofNat n.toNat).toInt = n.toNat := Int64.toInt_ofNat_of_lt h
      rw [if_pos h, if_pos h, Value.keyText?, Value.display, hint]
      rfl
    · rw [if_neg h, if_neg h]
      rfl
  | .bool _ | .signed _ | .wideSigned _ | .wideUnsigned _ | .float _ | .char _ | .str _ | .bytes _
  | .none | .unit | .unitRecord _ | .unitVariant _ _ | .broken _ | .seq _ | .tuple _
  | .tupleRecord _ _ | .tupleVariant _ _ _ | .map _ | .record _ _ | .recordVariant _ _ _ => rfl

/-! ### Maps, step by step -/

/-- The entries of a map with some more put in. -/
def putIn (entries named : List (String × Value)) : List (String × Value) :=
  named.foldl (fun t e => Table.insert e.1 e.2 t) entries

theorem putIn_append (entries first second : List (String × Value)) :
    putIn entries (first ++ second) = putIn (putIn entries first) second :=
  List.foldl_append

/-- Taking in a key: its name waits from now on. -/
theorem key_shape (p : MapProgress) (d : Datum) : p.key d.shape =
    settled (if d.keyName?.isSome then [] else [.data .badKey])
      { p with waiting := d.keyName? } := by
  rw [MapProgress.key, keyText?_shape]
  cases d.keyName? <;> rfl

/-- Taking in a value: it comes under the name that waits, which is used up. -/
theorem value_eq (p : MapProgress) (v : Value) : p.value v =
    settled (if p.waiting.isSome then [] else [.data .missingKey])
      { entries := putIn p.entries (p.waiting.map fun name => (name, v)).toList } := by
  rw [MapProgress.value]
  cases p.waiting <;> rfl

/-- Behind a key without faults a key waits, and without a key it is as before. -/
theorem isSome_waiting {key : Option Datum} (waiting : Option String)
    (h : faultsOfKey key = []) :
    (key.elim waiting keyName?).isSome = (waiting.isSome || key.isSome) := by
  cases key with
  | none => exact (Bool.or_false _).symm
  | some d =>
    have hname : d.keyName?.isSome = true := by
      rw [faultsOfKey] at h
      by_contra hnone
      simp [hnone] at h
    rw [Option.elim_some, hname, Option.isSome_some, Bool.or_true]

/-! ### Reading -/

mutual

-- Each reading is told with whatever was read before it: a map with its entries and its waiting key.

/-- Any data is read as its shape, unless it has faults. -/
theorem toValue_eq : (d : Datum) → d.toValue = settled d.faults d.shape
  | .some d | .newtype _ d | .newtypeVariant _ _ d => toValue_eq d
  | .unsigned n => congrArg Except.ok (ofUnsigned_eq n)
  | .seq items | .tuple items | .tupleRecord _ items | .tupleVariant _ _ items =>
    (congrArg (Value.list <$> ·) (toValues_eq items)).trans (settled_map Value.list)
  | .map entries => by
    have hentries : toValue (.map entries) =
        Value.map <$> (MapProgress.entries <$> collect {} entries) := by
      rw [toValue]
      cases collect {} entries <;> rfl
    rw [hentries, collect_eq {} entries]
    exact settled_map Value.map
  | .record _ fields | .recordVariant _ _ fields =>
    (congrArg (Value.map <$> ·) (collectFields_eq [] fields)).trans (settled_map Value.map)
  | .bool _ | .signed _ | .wideSigned _ | .wideUnsigned _ | .float _ | .char _ | .str _ | .bytes _
  | .none | .unit | .unitRecord _ | .unitVariant _ _ | .broken _ => rfl

theorem toValues_eq : (ds : List Datum) → toValues ds = settled (faultsOfItems ds) (shapes ds)
  | [] => rfl
  | d :: ds => by
    rw [toValues, toValue_eq d, faultsOfItems]
    refine settled_bind fun _ => ?_
    rw [toValues_eq ds]
    exact settled_map _

theorem collectFields_eq (entries : List (String × Value)) : (fields : List (String × Datum)) →
    collectFields entries fields =
      settled (faultsOfFields fields) (putIn entries (namedFields fields))
  | [] => rfl
  | (name, d) :: rest => by
    rw [collectFields, toValue_eq d, faultsOfFields]
    exact settled_bind fun _ => collectFields_eq _ rest

theorem collect_eq (p : MapProgress) : (entries : List (Option Datum × Option Datum)) →
    MapProgress.entries <$> collect p entries =
      settled (faultsOfEntries p.waiting.isSome entries)
        (putIn p.entries (named p.waiting entries))
  | [] => rfl
  | (key, value) :: rest => by
    rw [collect, collectKey_eq p key, map_bind, faultsOfEntries, List.append_assoc]
    refine settled_bind fun hkey => ?_
    -- the walk knows only that a key waits, the reading also its name
    rw [← isSome_waiting p.waiting hkey, collectValue_eq _ value, map_bind]
    refine settled_bind fun _ => ?_
    cases value with
    | none =>
      rw [Option.isNone_none, Bool.and_true]
      exact collect_eq { p with waiting := key.elim p.waiting keyName? } rest
    | some d =>
      rw [Option.isNone_some, Bool.and_false, named, putIn_append]
      exact collect_eq { entries := _ } rest

theorem collectKey_eq (p : MapProgress) : (key : Option Datum) →
    collectKey p key =
      settled (faultsOfKey key) { p with waiting := key.elim p.waiting keyName? }
  | .none => rfl
  | .some d => by
    rw [collectKey, toValue_eq d, faultsOfKey]
    exact settled_bind fun _ => key_shape p d

theorem collectValue_eq (p : MapProgress) : (value : Option Datum) →
    collectValue p value =
      settled (faultsOfValue p.waiting.isSome value) (value.elim p fun d =>
        { entries := putIn p.entries (p.waiting.map fun name => (name, d.shape)).toList })
  | .none => rfl
  | .some d => by
    rw [collectValue, toValue_eq d, faultsOfValue]
    exact settled_bind fun _ => value_eq p d.shape

end

/-- **Data is read as its shape, or not at all with the first of its faults.** The tables in the shape
list the last entry of each name, in ascending order of the names. -/
theorem reads_shape_or_first_fault (d : Datum) :
    (∀ fault, d.toValue = .error fault ↔ d.faults.head? = Option.some fault) ∧
    (∀ v, d.toValue = .ok v ↔ d.faults = [] ∧ v = d.shape) ∧
    ∀ entries : List (String × Value), Table.Sorted (Table.ofEntries entries) ∧
      ∀ name, Table.find? name (Table.ofEntries entries) =
        (entries.reverse.find? fun e => e.1 == name).map Prod.snd := by
  rw [toValue_eq]
  exact ⟨fun _ => settled_eq_error_iff, fun _ => settled_eq_ok_iff, fun entries =>
    ⟨Table.sorted_ofEntries entries, fun name => Table.find?_ofEntries name entries⟩⟩

/-- **No integer of 128 bits is read**, not even one that a value has room for. -/
theorem not_reads_wide_integer :
    ¬ ∀ n : BitVec 128, -2 ^ 63 ≤ n.toInt → n.toInt < 2 ^ 63 →
      (wideSigned n).toValue = .ok (.int (Int64.ofInt n.toInt)) := by
  intro h
  have hfive : (wideSigned 5).toValue = .ok (.int 5) := h 5 (by decide) (by decide)
  have hrefused : (wideSigned 5).toValue = .error (.data (.custom "i128 is not supported")) := rfl
  rw [hrefused] at hfive
  cases hfive

/-- The second key takes the place of the first, and the third one gets no value. -/
example : toValue (.map [(Option.some (.str "a"), Option.none),
      (Option.some (.newtype "id" (.signed 1)), Option.some (.bool true)),
      (Option.some (.str "b"), Option.none)]) =
    .ok (.map [("1", .bool true)]) := rfl

end Stencil.Datum
