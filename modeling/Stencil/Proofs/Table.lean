import Mathlib.Data.List.Forall2
import Mathlib.Data.List.Induction
import Stencil.Table

/-!
# Tables by their entries

A table that was put together with `Table.insert` alone is **sorted**, and a sorted table
is known by what `Table.find?` finds in it. Two ways to the same entries therefore give the
same table, whatever the order in which the entries came in.
-/

namespace Stencil.Table

variable {α β : Type}

/-! ### What is found -/

/-- What a table finds is in it. -/
theorem mem_of_find? {key : String} {v : α} {t : Table α} (h : find? key t = some v) :
    (key, v) ∈ t := by
  fun_induction find? key t <;> grind

/-- Putting something in changes what is found under its key alone. -/
theorem find?_insert (key other : String) (v : α) (t : Table α) :
    find? other (insert key v t) = if other = key then some v else find? other t := by
  by_cases h : other = key
  · rw [if_pos h, h, find?_insert_self]
  · rw [if_neg h, find?_insert_of_ne h]

/-- Dropping an entry changes what is found under its key alone. -/
theorem find?_erase (key other : String) (t : Table α) :
    find? other (erase key t) = if other = key then none else find? other t := by
  induction t with
  | nil => simp [erase, find?]
  | cons e t ih =>
    obtain ⟨k, v⟩ := e
    rw [erase] at ih ⊢
    by_cases hk : k = key
    · rw [List.filter_cons_of_neg (by simpa using hk), ih, find?]
      grind
    · rw [List.filter_cons_of_pos (by simpa using hk), find?, find?, ih]
      grind

/-- What is found after each entry was changed with regard to its key. -/
theorem find?_map (f : String → α → β) (key : String) (t : Table α) :
    find? key (t.map fun e => (e.1, f e.1 e.2)) = (find? key t).map (f key) := by
  induction t with
  | nil => rfl
  | cons e t ih =>
    obtain ⟨k, v⟩ := e
    by_cases h : k = key
    · simp [find?, h]
    · simp [find?, h, ih]

/-- The last entry comes in last. -/
theorem ofEntries_concat (entries : List (String × α)) (e : String × α) :
    ofEntries (entries ++ [e]) = insert e.1 e.2 (ofEntries entries) := by
  simp [ofEntries]

/-- If each entry has the value that belongs to its key, that is what is found. -/
theorem find?_ofEntries_map (f : String → α) (key : String) (names : List String) :
    find? key (ofEntries (names.map fun name => (name, f name))) =
      if key ∈ names then some (f key) else none := by
  induction names using List.reverseRecOn with
  | nil => rfl
  | append_singleton names name ih =>
    rw [List.map_append, List.map_singleton, ofEntries_concat, find?_insert, ih]
    by_cases h : key = name
    · simp [h]
    · simp [h]

/-- What is found is the last entry of its name. -/
theorem find?_ofEntries (key : String) (entries : List (String × α)) :
    find? key (ofEntries entries) =
      (entries.reverse.find? fun e => e.1 == key).map Prod.snd := by
  induction entries using List.reverseRecOn with
  | nil => rfl
  | append_singleton entries e ih =>
    rw [ofEntries_concat, find?_insert, List.reverse_concat, ih]
    by_cases h : key = e.1
    · rw [if_pos h, List.find?_cons_of_pos (by simpa using h.symm), Option.map_some]
    · rw [if_neg h, List.find?_cons_of_neg (by simpa using Ne.symm h)]

/-- Nothing is found exactly if there is no entry of that name. -/
theorem find?_ofEntries_eq_none_iff {key : String} {entries : List (String × α)} :
    find? key (ofEntries entries) = none ↔ ∀ e ∈ entries, e.1 ≠ key := by
  rw [find?_ofEntries, Option.map_eq_none_iff, List.find?_eq_none]
  simp

/-- What is found came in. -/
theorem mem_of_find?_ofEntries {key : String} {v : α} {entries : List (String × α)}
    (h : find? key (ofEntries entries) = some v) : (key, v) ∈ entries := by
  rw [find?_ofEntries] at h
  obtain ⟨e, he, rfl⟩ := Option.map_eq_some_iff.mp h
  have hkey : e.1 = key := by simpa using List.find?_some he
  rw [← hkey]
  exact List.mem_reverse.mp (List.mem_of_find?_eq_some he)

/-- The last entry of its name is what is found. -/
theorem find?_ofEntries_last {key : String} {v : α} {before after : List (String × α)}
    (h : ∀ e ∈ after, e.1 ≠ key) : find? key (ofEntries (before ++ (key, v) :: after)) = some v := by
  have hafter : (after.reverse.find? fun e => e.1 == key) = none :=
    List.find?_eq_none.mpr fun e he => by simpa using h e (List.mem_reverse.mp he)
  rw [find?_ofEntries, List.reverse_append, List.reverse_cons, List.append_assoc,
    List.find?_append, hafter, Option.none_or, List.singleton_append,
    List.find?_cons_of_pos (by simp), Option.map_some]

theorem insert_map (f : String → α → β) (key : String) (v : α) (t : Table α) :
    insert key (f key v) (t.map fun e => (e.1, f e.1 e.2)) =
      (insert key v t).map fun e => (e.1, f e.1 e.2) := by
  fun_induction insert key v t with
  | case1 => rfl
  | case2 k w t hlt => simp [insert, hlt]
  | case3 w t hlt => simp [insert]
  | case4 k w t hlt hne ih => simp [insert, hlt, hne, ih]

/-- Entries may be changed before or after they come in. -/
theorem ofEntries_map (f : String → α → β) (entries : List (String × α)) :
    ofEntries (entries.map fun e => (e.1, f e.1 e.2)) =
      (ofEntries entries).map fun e => (e.1, f e.1 e.2) := by
  induction entries using List.reverseRecOn with
  | nil => rfl
  | append_singleton entries e ih =>
    rw [List.map_append, List.map_singleton, ofEntries_concat, ofEntries_concat, ih, insert_map]

/-! ### Sorted tables -/

/-- The names ascend. -/
def Sorted (t : Table α) : Prop :=
  t.Pairwise fun e e' => e.1 < e'.1

theorem sorted_nil : Sorted ([] : Table α) :=
  List.Pairwise.nil

/-- What is in a table after something was put in was put in or was there. -/
theorem mem_insert {key : String} {v : α} {e : String × α} {t : Table α}
    (h : e ∈ insert key v t) : e = (key, v) ∨ e ∈ t := by
  fun_induction insert key v t <;> grind

theorem Sorted.insert {t : Table α} (h : Sorted t) (key : String) (v : α) :
    Sorted (Table.insert key v t) := by
  fun_induction Table.insert key v t with
  | case1 => exact List.pairwise_singleton _ _
  | case2 k w t hlt =>
    refine List.pairwise_cons.mpr ⟨?_, h⟩
    intro e he
    rcases List.mem_cons.mp he with rfl | he
    · exact hlt
    · exact String.lt_trans hlt ((List.pairwise_cons.mp h).1 e he)
  | case3 w t hlt =>
    exact List.pairwise_cons.mpr (List.pairwise_cons.mp h)
  | case4 k w t hlt hne ih =>
    refine List.pairwise_cons.mpr ⟨?_, ih (List.pairwise_cons.mp h).2⟩
    intro e he
    rcases mem_insert he with rfl | he
    · exact Std.lt_of_le_of_ne (String.not_lt.mp hlt) (Ne.symm hne)
    · exact (List.pairwise_cons.mp h).1 e he

theorem sorted_ofEntries (entries : List (String × α)) : Sorted (ofEntries entries) := by
  induction entries using List.reverseRecOn with
  | nil => exact sorted_nil
  | append_singleton entries e ih =>
    rw [ofEntries_concat]
    exact ih.insert e.1 e.2

/-- What is in a table came in. -/
theorem mem_of_mem_ofEntries {e : String × α} {entries : List (String × α)}
    (h : e ∈ ofEntries entries) : e ∈ entries := by
  induction entries using List.reverseRecOn with
  | nil => exact h
  | append_singleton entries e' ih =>
    rw [ofEntries_concat] at h
    rcases mem_insert h with rfl | h
    · exact List.mem_append_right _ (List.mem_singleton_self _)
    · exact List.mem_append_left _ (ih h)

theorem Sorted.map {t : Table α} (h : Sorted t) (f : String → α → β) :
    Sorted (t.map fun e => (e.1, f e.1 e.2)) :=
  List.pairwise_map.mpr h

/-- The first name of a sorted table does not come again. -/
theorem Sorted.find?_tail {k : String} {v : α} {t : Table α} (h : Sorted ((k, v) :: t)) :
    find? k t = none := by
  cases hfind : find? k t with
  | none => rfl
  | some w =>
    exact absurd ((List.pairwise_cons.mp h).1 _ (mem_of_find? hfind)) (String.lt_irrefl k)

/-- **A sorted table is known by what is found in it.** -/
theorem Sorted.ext {t u : Table α} (ht : Sorted t) (hu : Sorted u)
    (h : ∀ key, find? key t = find? key u) : t = u := by
  induction t generalizing u with
  | nil =>
    cases u with
    | nil => rfl
    | cons e u => simpa [find?] using h e.1
  | cons e t ih =>
    cases u with
    | nil => simpa [find?] using h e.1
    | cons e' u =>
      obtain ⟨k, v⟩ := e
      obtain ⟨k', v'⟩ := e'
      -- neither of the two first names comes before the other
      have hkey : k = k' := by
        by_cases hne : k = k'
        · exact hne
        have hk : (k, v) ∈ u := mem_of_find? (by simpa [find?, Ne.symm hne] using (h k).symm)
        have hk' : (k', v') ∈ t := mem_of_find? (by simpa [find?, hne] using h k')
        have hlt := (List.pairwise_cons.mp hu).1 _ hk
        have hlt' := (List.pairwise_cons.mp ht).1 _ hk'
        exact absurd hlt (String.lt_asymm hlt')
      subst hkey
      have hvalue : v = v' := by simpa [find?] using h k
      subst hvalue
      rw [ih (List.pairwise_cons.mp ht).2 (List.pairwise_cons.mp hu).2 ?_]
      intro key
      by_cases hk : k = key
      · subst hk
        rw [ht.find?_tail, hu.find?_tail]
      · simpa [find?, hk] using h key

/-- A name that comes behind all others comes in at the end. -/
theorem insert_of_forall_lt {key : String} {v : α} {t : Table α} (h : ∀ e ∈ t, e.1 < key) :
    Table.insert key v t = t ++ [(key, v)] := by
  induction t with
  | nil => rfl
  | cons e t ih =>
    have hlt := h e List.mem_cons_self
    rw [Table.insert, if_neg (String.lt_asymm hlt), if_neg (Ne.symm (String.ne_of_lt hlt)),
      ih fun e he => h e (List.mem_cons_of_mem _ he)]
    rfl

/-- A sorted table is the table of its entries. -/
theorem Sorted.ofEntries_eq {t : Table α} (h : Sorted t) : ofEntries t = t := by
  induction t using List.reverseRecOn with
  | nil => rfl
  | append_singleton t e ih =>
    obtain ⟨ht, -, hlt⟩ := List.pairwise_append.mp h
    rw [ofEntries_concat, ih ht]
    exact insert_of_forall_lt fun e' he' => hlt e' he' e (List.mem_singleton_self e)

/-! ### Tables that are related -/

/-- Whether two tables have the same names, with related entries under them. -/
def Rel (R : α → β → Prop) (t : Table α) (u : Table β) : Prop :=
  List.Forall₂ (fun e f => f.1 = e.1 ∧ R e.2 f.2) t u

section Rel

variable {R : α → β → Prop} {t : Table α} {u : Table β}

theorem Rel.refl {R : α → α → Prop} (hR : ∀ v, R v v) (t : Table α) : Rel R t t :=
  List.forall₂_same.mpr fun e _ => ⟨rfl, hR e.2⟩

/-- Related tables find related entries. -/
theorem Rel.find? (h : Rel R t u) (key : String) :
    Option.Rel R (Table.find? key t) (Table.find? key u) := by
  induction h with
  | nil => exact .none
  | @cons e f t u hef _ ih =>
    obtain ⟨k, v⟩ := e
    obtain ⟨k', w⟩ := f
    obtain ⟨rfl, hvw⟩ := hef
    rw [Table.find?, Table.find?]
    split
    · exact .some hvw
    · exact ih

/-- Related entries may be put into related tables. -/
theorem Rel.insert (h : Rel R t u) (key : String) {v : α} {w : β} (hvw : R v w) :
    Rel R (Table.insert key v t) (Table.insert key w u) := by
  induction h with
  | nil => exact .cons ⟨rfl, hvw⟩ .nil
  | @cons e f t u hef htu ih =>
    obtain ⟨k, v'⟩ := e
    obtain ⟨k', w'⟩ := f
    obtain ⟨rfl, hvw'⟩ := hef
    rw [Table.insert, Table.insert]
    split
    · exact .cons ⟨rfl, hvw⟩ (.cons ⟨rfl, hvw'⟩ htu)
    split
    · exact .cons ⟨rfl, hvw⟩ htu
    · exact .cons ⟨rfl, hvw'⟩ ih

/-- What a search takes from related entries alike it takes from related tables alike. -/
theorem Rel.findSome? {γ : Type} (h : Rel R t u) {f : String × α → Option γ}
    {g : String × β → Option γ} (hfg : ∀ key v w, R v w → g (key, w) = f (key, v)) :
    List.findSome? g u = List.findSome? f t := by
  induction h with
  | nil => rfl
  | @cons e e' t u hee _ ih =>
    obtain ⟨k, v⟩ := e
    obtain ⟨k', w⟩ := e'
    obtain ⟨rfl, hvw⟩ := hee
    rw [List.findSome?_cons, List.findSome?_cons, hfg _ v w hvw, ih]

end Rel

end Stencil.Table
