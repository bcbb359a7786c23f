import Stencil.Proofs.Datum.Faults

/-!
# Values handed out and read again

A value is data like any other, and reading it gives it back but for one thing: data knows no dates,
so they come back as the text they are written as (`Value.writtenOut`). What could get lost besides
are the entries of a map, which come in one by one and under the names that their keys are read as.
The two facts that rule it out:

* a name is read as itself, also one that looks like a number;
* the entries of a map come **in order**, so each of them is put behind all others
  (`Table.Sorted.ofEntries_eq`).

The second one needs that the maps of the value list their names in ascending order
(`Value.Ordered`). Whatever was read does so (`Datum.ordered_shape`), at any depth.
-/

namespace Stencil

namespace Value

/-! ### Ordered values -/

mutual

/-- Whether each map of a value, at any depth, lists its names in ascending order. -/
def Ordered : Value → Prop
  | .list items => OrderedItems items
  | .map entries => Table.Sorted entries ∧ OrderedEntries entries
  | _ => True

def OrderedItems : List Value → Prop
  | [] => True
  | v :: vs => Ordered v ∧ OrderedItems vs

def OrderedEntries : List (String × Value) → Prop
  | [] => True
  | (_, v) :: es => Ordered v ∧ OrderedEntries es

end

theorem orderedEntries_iff {entries : List (String × Value)} :
    OrderedEntries entries ↔ ∀ e ∈ entries, e.2.Ordered := by
  induction entries with
  | nil => simp [OrderedEntries]
  | cons e entries ih => rw [OrderedEntries, ih, List.forall_mem_cons]

theorem ordered_ofEntries {entries : List (String × Value)} (h : OrderedEntries entries) :
    (Value.map (Table.ofEntries entries)).Ordered := by
  refine ⟨Table.sorted_ofEntries entries, orderedEntries_iff.mpr fun e he => ?_⟩
  exact orderedEntries_iff.mp h e (Table.mem_of_mem_ofEntries he)

end Value

namespace Datum

mutual

/-- Whatever is read is ordered. -/
theorem ordered_shape : (d : Datum) → d.shape.Ordered
  | .some d | .newtype _ d | .newtypeVariant _ _ d => ordered_shape d
  | .unsigned n => by
    rw [shape]
    split <;> trivial
  | .seq items | .tuple items | .tupleRecord _ items | .tupleVariant _ _ items =>
    ordered_shapes items
  | .map entries => Value.ordered_ofEntries (ordered_named Option.none entries)
  | .record _ fields | .recordVariant _ _ fields =>
    Value.ordered_ofEntries (ordered_namedFields fields)
  | .bool _ | .signed _ | .wideSigned _ | .wideUnsigned _ | .float _ | .char _ | .str _ | .bytes _
  | .none | .unit | .unitRecord _ | .unitVariant _ _ | .broken _ => trivial

theorem ordered_shapes : (ds : List Datum) → Value.OrderedItems (shapes ds)
  | [] => trivial
  | d :: ds => ⟨ordered_shape d, ordered_shapes ds⟩

theorem ordered_namedFields : (fields : List (String × Datum)) →
    Value.OrderedEntries (namedFields fields)
  | [] => trivial
  | (_, d) :: rest => ⟨ordered_shape d, ordered_namedFields rest⟩

theorem ordered_named (waiting : Option String) :
    (entries : List (Option Datum × Option Datum)) → Value.OrderedEntries (named waiting entries)
  | [] => trivial
  | (key, .none) :: rest => ordered_named (key.elim waiting keyName?) rest
  | (key, .some d) :: rest => by
    rw [named]
    cases key.elim waiting keyName? with
    | none => exact ordered_named Option.none rest
    | some name => exact ⟨ordered_shape d, ordered_named Option.none rest⟩

end

end Datum

namespace Value

/-! ### Dates written out -/

mutual

/-- The value in which the text of each date, at any depth, stands in its place. -/
def writtenOut : Value → Value
  | .date d => .str (Value.date d).display
  | .dateTime d => .str (Value.dateTime d).display
  | .list items => .list (writtenOutItems items)
  | .map entries => .map (writtenOutEntries entries)
  | v => v

def writtenOutItems : List Value → List Value
  | [] => []
  | v :: vs => writtenOut v :: writtenOutItems vs

def writtenOutEntries : List (String × Value) → List (String × Value)
  | [] => []
  | (k, v) :: es => (k, writtenOut v) :: writtenOutEntries es

end

mutual

/-- Whether there is a date in a value, at any depth. -/
def hasDate : Value → Bool
  | .date _ | .dateTime _ => true
  | .list items => hasDateItems items
  | .map entries => hasDateEntries entries
  | _ => false

def hasDateItems : List Value → Bool
  | [] => false
  | v :: vs => hasDate v || hasDateItems vs

def hasDateEntries : List (String × Value) → Bool
  | [] => false
  | (_, v) :: es => hasDate v || hasDateEntries es

end

theorem writtenOutEntries_eq_map (entries : List (String × Value)) :
    writtenOutEntries entries = entries.map fun e => (e.1, e.2.writtenOut) := by
  induction entries with
  | nil => rfl
  | cons e entries ih => rw [writtenOutEntries, ih, List.map_cons]

mutual

/-- No date is left. -/
theorem hasDate_writtenOut : (v : Value) → v.writtenOut.hasDate = false
  | .list items => hasDate_writtenOutItems items
  | .map entries => hasDate_writtenOutEntries entries
  | .null | .bool _ | .int _ | .float _ | .str _ | .date _ | .dateTime _ => rfl

theorem hasDate_writtenOutItems : (vs : List Value) → hasDateItems (writtenOutItems vs) = false
  | [] => rfl
  | v :: vs => by
    rw [writtenOutItems, hasDateItems, hasDate_writtenOut v, hasDate_writtenOutItems vs]
    rfl

theorem hasDate_writtenOutEntries : (es : List (String × Value)) →
    hasDateEntries (writtenOutEntries es) = false
  | [] => rfl
  | (k, v) :: es => by
    rw [writtenOutEntries, hasDateEntries, hasDate_writtenOut v, hasDate_writtenOutEntries es]
    rfl

end

mutual

/-- Nothing else is changed. -/
theorem writtenOut_of_hasDate : (v : Value) → v.hasDate = false → v.writtenOut = v
  | .list items, h => by
    rw [writtenOut, writtenOutItems_of_hasDate items h]
  | .map entries, h => by
    rw [writtenOut, writtenOutEntries_of_hasDate entries h]
  | .null, _ | .bool _, _ | .int _, _ | .float _, _ | .str _, _ => rfl
  | .date _, h | .dateTime _, h => by cases h

theorem writtenOutItems_of_hasDate : (vs : List Value) → hasDateItems vs = false →
    writtenOutItems vs = vs
  | [], _ => rfl
  | v :: vs, h => by
    obtain ⟨hv, hvs⟩ := Bool.or_eq_false_iff.mp h
    rw [writtenOutItems, writtenOut_of_hasDate v hv, writtenOutItems_of_hasDate vs hvs]

theorem writtenOutEntries_of_hasDate : (es : List (String × Value)) →
    hasDateEntries es = false → writtenOutEntries es = es
  | [], _ => rfl
  | (k, v) :: es, h => by
    obtain ⟨hv, hes⟩ := Bool.or_eq_false_iff.mp h
    rw [writtenOutEntries, writtenOut_of_hasDate v hv, writtenOutEntries_of_hasDate es hes]

end

/-- A value is left alone exactly if there is no date in it. -/
theorem writtenOut_eq_self_iff {v : Value} : v.writtenOut = v ↔ v.hasDate = false := by
  refine ⟨fun h => ?_, writtenOut_of_hasDate v⟩
  rw [← h]
  exact hasDate_writtenOut v

/-! ### Handed out and read -/

mutual

/-- There is nothing wrong with a value as data. -/
theorem faults_toDatum : (v : Value) → v.toDatum.faults = []
  | .list items => faultsOfItems_toData items
  | .map entries => faultsOfEntries_toEntries entries
  | .null | .bool _ | .int _ | .float _ | .str _ | .date _ | .dateTime _ => rfl

theorem faultsOfItems_toData : (vs : List Value) → Datum.faultsOfItems (toData vs) = []
  | [] => rfl
  | v :: vs => by
    rw [toData, Datum.faultsOfItems, faults_toDatum v, faultsOfItems_toData vs]
    rfl

theorem faultsOfEntries_toEntries : (es : List (String × Value)) →
    Datum.faultsOfEntries false (toEntries es) = []
  | [] => rfl
  | (k, v) :: es => by
    have hkey : Datum.faultsOfKey (some (.str k)) = [] := rfl
    have hvalue : Datum.faultsOfValue true (some v.toDatum) = [] := by
      rw [Datum.faultsOfValue, faults_toDatum v]
      rfl
    rw [toEntries, Datum.faultsOfEntries, hkey, Option.isSome_some, Bool.or_true, hvalue,
      Option.isNone_some, Bool.and_false, faultsOfEntries_toEntries es]
    rfl

end

mutual

/-- **A value has its own shape,** with the dates written out. -/
theorem shape_toDatum : (v : Value) → v.Ordered → v.toDatum.shape = v.writtenOut
  | .list items, h => congrArg Value.list (shapes_toData items h)
  | .map entries, h => by
    -- the names are what they were, so the entries are still in order
    have hsorted : Table.Sorted (writtenOutEntries entries) := by
      rw [writtenOutEntries_eq_map]
      exact h.1.map fun _ => writtenOut
    rw [toDatum, Datum.shape, named_toEntries entries h.2, hsorted.ofEntries_eq, writtenOut]
  | .null, _ | .bool _, _ | .int _, _ | .float _, _ | .str _, _ | .date _, _ | .dateTime _, _ => rfl

theorem shapes_toData : (vs : List Value) → OrderedItems vs →
    Datum.shapes (toData vs) = writtenOutItems vs
  | [], _ => rfl
  | v :: vs, h => by
    rw [toData, Datum.shapes, shape_toDatum v h.1, shapes_toData vs h.2, writtenOutItems]

theorem named_toEntries : (es : List (String × Value)) → OrderedEntries es →
    Datum.named none (toEntries es) = writtenOutEntries es
  | [], _ => rfl
  | (k, v) :: es, h => by
    rw [toEntries, Datum.named, shape_toDatum v h.1, named_toEntries es h.2, writtenOutEntries]
    rfl

end

theorem toValue_toDatum {v : Value} (h : v.Ordered) : v.toDatum.toValue = .ok v.writtenOut := by
  rw [Datum.toValue_eq, faults_toDatum, shape_toDatum v h]
  rfl

/-- Writing the dates out leaves the maps in order. -/
theorem Ordered.writtenOut {v : Value} (h : v.Ordered) : v.writtenOut.Ordered := by
  rw [← shape_toDatum v h]
  exact Datum.ordered_shape v.toDatum

/-- **A value handed out as data and read again** is the value with its dates written out. So it is
the same value exactly if there is no date in it, and once more changes nothing. -/
theorem read_back_written_out (v : Value) (h : v.Ordered) :
    v.toDatum.toValue = .ok v.writtenOut ∧
    (v.toDatum.toValue = .ok v ↔ v.hasDate = false) ∧
    v.writtenOut.toDatum.toValue = .ok v.writtenOut := by
  have hagain : v.writtenOut.writtenOut = v.writtenOut :=
    writtenOut_of_hasDate _ (hasDate_writtenOut v)
  refine ⟨toValue_toDatum h, ?_, ?_⟩
  · rw [toValue_toDatum h, Except.ok.injEq]
    exact writtenOut_eq_self_iff
  · rw [toValue_toDatum h.writtenOut, hagain]

/-- A map whose names look like numbers, with a date and a leap second further down. -/
def diary : Value :=
  let date : Date := ⟨2024, 3, 9, by decide, by decide, by decide⟩
  .map [("10", .list [.date date, .dateTime ⟨date,
      { hour := 23, minute := 59, second := 59, nanosecond := 1500000000 }⟩]),
    ("9", .int Int64.minValue)]

theorem read_back_written_out_diary :
    diary.Ordered ∧
      diary.toDatum.toValue =
        .ok (.map [("10", .list [.str "2024-03-09", .str "2024-03-09 23:59:60"]),
          ("9", .int Int64.minValue)]) := by
  have hsorted : ("10" : String) < "9" := by decide
  have hordered : diary.Ordered :=
    ⟨List.pairwise_pair.mpr hsorted, ⟨trivial, trivial, trivial⟩, trivial, trivial⟩
  exact ⟨hordered, (read_back_written_out diary hordered).1.trans rfl⟩

end Value

end Stencil
