import Mathlib.Data.List.Basic
import Stencil.Filter
import Stencil.Proofs.Value.Arithmetic

/-!
# Parts by index and parts in a loop

A loop walks over the pairs of a value, and the parts of a list, a text or a map can also be counted,
asked for by index, and asked for by the filters `first` and `last`. All of that is told here by the
pairs (`Value.access_by_pairs`).

For a **sequence**, a list or a text, the two ways agree: the pair at place `k` of `n` is found under
the index `k` and under `k - n`, and under no other index anything is found. The place that a negative
index means is found by an addition that stays within 64 bits, as the length is not negative.

For a **map** the count agrees, but `first` and `last` do not: they ask for the indices 0 and −1, and
an index of a map is a name. So they give the entries named `0` and `-1`, wherever these stand
(`Value.not_first_of_pairs`).
-/

namespace Stencil.Value

/-- What the filter that every engine has under this name makes of a value. -/
def filtered? (name : String) (v : Value) (args : List Value) : Option (Except Error Value) :=
  (Table.find? name Filter.builtins).map fun f => f v args

/-- Whether a value is a list or a text, whose parts have places. -/
def isSequence : Value → Bool
  | .list _ | .str _ => true
  | _ => false

def isMap : Value → Bool
  | .map _ => true
  | _ => false

/-- Where a pair stands among others under a name. -/
def underName (name : String) (pairs : List (Value × Value)) : Option Value :=
  (pairs.find? fun p => p.1.text? == some name).map Prod.snd

/-! ### Places -/

section Places

variable {α : Type} {items : List α}

/-- Each place has two indices. -/
theorem itemAt?_of_place {k : Nat} {a : α} (hk : items[k]? = some a) {i : Int}
    (hi : i = k ∨ i = k - items.length) : itemAt? items i = some a := by
  have hlt : k < items.length := (List.getElem?_eq_some_iff.mp hk).1
  rw [itemAt?]
  rcases hi with rfl | rfl
  · have hnonneg : ¬ (k : Int) < 0 := by omega
    simp only [if_neg hnonneg, Int.toNat_natCast, hk]
  · have hneg : (k : Int) - items.length < 0 := by omega
    have hplace : (items.length : Int) + (k - items.length) = k := by omega
    have hnonneg : ¬ (k : Int) < 0 := by omega
    simp only [if_pos hneg, hplace, if_neg hnonneg, Int.toNat_natCast, hk]

/-- Beyond these nothing is found. -/
theorem itemAt?_eq_none {i : Int} (hi : i < -items.length ∨ items.length ≤ i) :
    itemAt? items i = none := by
  rw [itemAt?]
  rcases hi with hi | hi
  · have hneg : i < 0 := by omega
    have hbefore : (items.length : Int) + i < 0 := by omega
    simp only [if_pos hneg, if_pos hbefore]
  · have hnonneg : ¬ i < 0 := by omega
    have hbehind : items.length ≤ i.toNat := by omega
    simp only [if_neg hnonneg, List.getElem?_eq_none hbehind]

theorem itemAt?_zero : itemAt? items 0 = items.head? := by
  rw [List.head?_eq_getElem?]
  rfl

theorem itemAt?_neg_one : itemAt? items (-1) = items.getLast? := by
  rcases hlast : items.getLast? with _ | a
  · rw [List.getLast?_eq_none_iff.mp hlast]
    rfl
  · have hne : items ≠ [] := by
      rintro rfl
      cases hlast
    have hpos : 0 < items.length := List.length_pos_iff.mpr hne
    rw [List.getLast?_eq_getElem?] at hlast
    exact itemAt?_of_place hlast (.inr (by omega))

theorem itemAt?_map {β : Type} (f : α → β) (items : List α) (i : Int) :
    itemAt? (items.map f) i = (itemAt? items i).map f := by
  simp only [itemAt?, List.length_map, List.getElem?_map, apply_ite (Option.map f),
    Option.map_none]

end Places

/-! ### Pairs -/

theorem map_snd_numbered (start : Nat) (items : List Value) :
    (numbered start items).map Prod.snd = items := by
  induction items generalizing start with
  | nil => rfl
  | cons v items ih => rw [numbered, List.map_cons, ih]

theorem length_numbered (start : Nat) (items : List Value) :
    (numbered start items).length = items.length := by
  rw [← List.length_map Prod.snd, map_snd_numbered]

/-- What an index finds in a sequence, it finds among the values that a loop meets. -/
theorem sequence_items {v : Value} (hv : v.isSequence = true) :
    ∃ items, v.pairs = .ok (numbered 0 items) ∧ v.length? = some items.length ∧
      ∀ i : Int64, v.item? (.int i) = itemAt? items i.toInt := by
  cases v with
  | list items => exact ⟨items, rfl, rfl, fun _ => rfl⟩
  | str s =>
    -- the characters are made into texts before they are numbered, and only when they are found
    refine ⟨s.toList.map fun c => ofChars [c], rfl, ?_, fun i => ?_⟩
    · rw [length?, List.length_map, String.length_toList]
    · exact (itemAt?_map _ s.toList i.toInt).symm
  | _ => cases hv

/-- Under a name a map has the value of the pair that stands there. -/
theorem underName_pairs (name : String) (entries : List (String × Value)) :
    underName name (entries.map fun e => (.str e.1, e.2)) = Table.find? name entries := by
  induction entries with
  | nil => rfl
  | cons e entries ih =>
    obtain ⟨k, v⟩ := e
    rw [underName] at ih ⊢
    rw [List.map_cons, Table.find?]
    by_cases h : k = name
    · rw [if_pos h, List.find?_cons_of_pos (by simpa [text?] using h), Option.map_some]
    · rw [if_neg h, List.find?_cons_of_neg (by simpa [text?] using h), ih]

/-- The place of a negative index is found without leaving the 64 bits. -/
theorem toInt_length_add {n : Nat} (hn : n < 2 ^ 63) {i : Int64} (hi : i.toInt < 0) :
    (Int64.ofNat n + i).toInt = n + i.toInt := by
  have hlength : (Int64.ofNat n).toInt = n := Int64.toInt_ofNat_of_lt hn
  have hmin := i.le_toInt
  rw [Int64.toInt_add, hlength, Int.bmod_eq_of_le (by omega) (by omega)]

/-! ### All ways to the parts -/

/-- How the parts of a sequence with these pairs are found. -/
structure SequenceParts (v : Value) (args : List Value) (ps : List (Value × Value)) : Prop where
  first : v.filtered? "first" args = some (.ok ((ps.head?.map Prod.snd).getD .null))
  last : v.filtered? "last" args = some (.ok ((ps.getLast?.map Prod.snd).getD .null))
  /-- The value of the pair at place `k` of `n` stands under the indices `k` and `k - n`. -/
  found : ∀ (k : Nat) (p : Value × Value), ps[k]? = some p → ∀ i : Int64,
    i.toInt = k ∨ i.toInt = k - ps.length → v.item? (.int i) = some p.2
  /-- Nothing stands under any other index. -/
  missing : ∀ i : Int64, i.toInt < -ps.length ∨ ps.length ≤ i.toInt → v.item? (.int i) = none
  /-- As long as 64 bits hold the length, they hold the place that a negative index means. -/
  exact_place : ps.length < 2 ^ 63 → ∀ i : Int64, i.toInt < 0 →
    (Int64.ofNat ps.length + i).toInt = ps.length + i.toInt

/-- How the ends of a map with these pairs are found: they are entries of certain names. -/
structure MapParts (v : Value) (args : List Value) (ps : List (Value × Value)) : Prop where
  first : v.filtered? "first" args = some (.ok ((underName "0" ps).getD .null))
  last : v.filtered? "last" args = some (.ok ((underName "-1" ps).getD .null))

theorem sequenceParts {v : Value} {items : List Value} (args : List Value)
    (hitem : ∀ i : Int64, v.item? (.int i) = itemAt? items i.toInt) :
    v.SequenceParts args (numbered 0 items) where
  first := by
    have hfirst : v.filtered? "first" args = some (.ok ((v.item? (.int 0)).getD .null)) := rfl
    have hzero : (0 : Int64).toInt = 0 := rfl
    rw [hfirst, hitem, ← List.head?_map, map_snd_numbered, hzero, itemAt?_zero]
  last := by
    have hlast : v.filtered? "last" args = some (.ok ((v.item? (.int (-1))).getD .null)) := rfl
    have hone : (-1 : Int64).toInt = -1 := rfl
    rw [hlast, hitem, ← List.getLast?_map, map_snd_numbered, hone, itemAt?_neg_one]
  found k p hp i hi := by
    have hvalue : items[k]? = some p.2 := by
      rw [← map_snd_numbered 0 items, List.getElem?_map, hp, Option.map_some]
    rw [length_numbered] at hi
    rw [hitem]
    exact itemAt?_of_place hvalue hi
  missing i hi := by
    rw [length_numbered] at hi
    rw [hitem]
    exact itemAt?_eq_none hi
  exact_place hlength i hi := toInt_length_add hlength hi

theorem mapParts (args : List Value) (entries : List (String × Value)) :
    (map entries).MapParts args (entries.map fun e => (.str e.1, e.2)) where
  first := by
    rw [underName_pairs]
    rfl
  last := by
    rw [underName_pairs]
    rfl

/-- The length is the number of pairs, which 64 bits hold if there are not too many. -/
theorem length_by_pairs {v : Value} {ps : List (Value × Value)} (args : List Value)
    (hcount : v.length? = some ps.length) :
    ∃ n : Int64, v.filtered? "length" args = some (.ok (.int n)) ∧
      (ps.length < 2 ^ 63 → n.toInt = ps.length) := by
  have hlength : v.filtered? "length" args = some (.ok (ofNat (v.length?.getD 0))) := rfl
  rw [hlength, hcount]
  exact ⟨Int64.ofNat ps.length, rfl, fun h => Int64.toInt_ofNat_of_lt h⟩

/-- **Loop, length, index and the two ends agree,** but for the ends of a map. The length is the number
of pairs. The parts of a sequence are found by the places of their pairs, from either end. In a map the
two ends are what stands under the names `0` and `-1`. -/
theorem access_by_pairs (v : Value) (args : List Value)
    (hv : v.isSequence = true ∨ v.isMap = true) :
    ∃ ps, v.pairs = .ok ps ∧
      (∃ n : Int64, v.filtered? "length" args = some (.ok (.int n)) ∧
        (ps.length < 2 ^ 63 → n.toInt = ps.length)) ∧
      (v.isSequence = true → v.SequenceParts args ps) ∧
      (v.isMap = true → v.MapParts args ps) := by
  rcases hv with hv | hv
  · obtain ⟨items, hpairs, hcount, hitem⟩ := sequence_items hv
    rw [← length_numbered 0 items] at hcount
    refine ⟨numbered 0 items, hpairs, length_by_pairs args hcount,
      fun _ => sequenceParts args hitem, fun hmap => ?_⟩
    cases v with
    | map entries => cases hv
    | _ => cases hmap
  · cases v with
    | map entries =>
      have hcount : (map entries).length? =
          some (entries.map fun e => (str e.1, e.2)).length := by
        rw [List.length_map]
        rfl
      refine ⟨_, rfl, length_by_pairs args hcount, fun hsequence => ?_,
        fun _ => mapParts args entries⟩
      cases hsequence
    | _ => cases hv

/-- The last of three characters, of which the middle one has several bytes. -/
theorem access_by_pairs_umlaut :
    ((str "aüb").isSequence = true ∨ (str "aüb").isMap = true) ∧
      (str "aüb").filtered? "last" [] = some (.ok (str "b")) ∧
      (str "aüb").item? (.int (-2)) = some (str "ü") := by
  have hv : (str "aüb").isSequence = true ∨ (str "aüb").isMap = true := .inl rfl
  obtain ⟨ps, hpairs, -, hsequence, -⟩ := access_by_pairs (str "aüb") [] hv
  have hps : ps = numbered 0 [str "a", str "ü", str "b"] := (Except.ok.inj hpairs).symm
  have hparts := hsequence rfl
  rw [hps] at hparts
  exact ⟨hv, hparts.last, hparts.found 1 (ofNat 1, str "ü") rfl (-2) (.inr rfl)⟩

/-- The first entry of a map need not be what `first` gives: here that is the last one. -/
theorem not_first_of_pairs :
    ¬ ∀ (v : Value) (ps : List (Value × Value)), v.isMap = true → v.pairs = .ok ps →
      v.filtered? "first" [] = some (.ok ((ps.head?.map Prod.snd).getD .null)) := by
  intro h
  have hfirst := h (map [("-1", .int 1), ("0", .int 2)])
    [(str "-1", .int 1), (str "0", .int 2)] rfl rfl
  have htwo : (map [("-1", .int 1), ("0", .int 2)]).filtered? "first" [] =
      some (.ok (.int 2)) := rfl
  rw [htwo] at hfirst
  exact absurd (Value.int.inj (Except.ok.inj (Option.some.inj hfirst))) (by decide)

end Stencil.Value
