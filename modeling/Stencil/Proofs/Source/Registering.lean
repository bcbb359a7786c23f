import Stencil.Proofs.Table
import Stencil.Source.Assets

/-!
# Registering assets

Templates are registered one after the other, each under its normal name, and the first name that is
there already is a fault. All of a list come in exactly if a store **admits** it
(`AssetStore.Admits`): the normal names are new and different from each other. So two names that are
written differently may get in each other's way, in one list or across two.

A list that is not admitted has a first template that is too much. Those before it stay in the
store, and it is written down before it is found to be too much: its text stands in place of the
one that was there (`AssetStore.load_admits_or_replaces`). Nothing else that was in the store is
touched.
-/

namespace Stencil.AssetStore

variable {s : AssetStore} {templates : List (String × String)}

/-- Whether the normal names of some templates are new to a store and different from each other. -/
def Admits (s : AssetStore) (templates : List (String × String)) : Prop :=
  (templates.map fun t => Path.normalize t.1).Nodup ∧
    ∀ t ∈ templates, Table.has (Path.normalize t.1) s = false

/-- A store with some templates put in under their normal names. -/
def put (templates : List (String × String)) (s : AssetStore) : AssetStore :=
  templates.foldl (fun s t => Table.insert (Path.normalize t.1) t.2 s) s

/-! ### What is admitted -/

theorem has_insert (key other text : String) (s : AssetStore) :
    Table.has other (Table.insert key text s) = (decide (other = key) || Table.has other s) := by
  rw [Table.has, Table.find?_insert]
  by_cases h : other = key <;> simp [h, Table.has]

/-- The first of some templates is new, and the others are new when it is there. -/
theorem admits_cons_iff {t : String × String} :
    s.Admits (t :: templates) ↔ Table.has (Path.normalize t.1) s = false ∧
      Admits (Table.insert (Path.normalize t.1) t.2 s) templates := by
  simp only [Admits, List.map_cons, List.nodup_cons, List.mem_map, not_exists, not_and,
    List.forall_mem_cons, has_insert, Bool.or_eq_false_iff, decide_eq_false_iff_not]
  grind

/-- What a store holds once it has taken what it admits: what it held, and each template under its
normal name. -/
theorem find?_put (h : s.Admits templates) (key text : String) :
    Table.find? key (put templates s) = some text ↔
      Table.find? key s = some text ∨
        ∃ t ∈ templates, Path.normalize t.1 = key ∧ t.2 = text := by
  induction templates generalizing s with
  | nil => simp [put]
  | cons t templates ih =>
    obtain ⟨hnew, hrest⟩ := admits_cons_iff.mp h
    have hnone : Table.find? (Path.normalize t.1) s = none := by simpa [Table.has] using hnew
    have hstep := ih hrest
    rw [Table.find?_insert] at hstep
    rw [put, List.foldl_cons, ← put, hstep, List.exists_mem_cons_iff]
    by_cases hkey : key = Path.normalize t.1
    · subst hkey
      simp [hnone]
    · simp [hkey, Ne.symm hkey]

/-! ### One after the other -/

/-- **The step:** a template comes in with a fault if its normal name is taken. -/
theorem register_eq (name text source : String) (s : AssetStore) :
    register name text source s =
      (if Table.has (Path.normalize name) s then .error (.duplicate (Path.normalize name) source)
        else .ok (), put [(name, text)] s) := rfl

/-- **The run:** all templates come in, or those up to the first one that is not admitted. -/
theorem load_cases (templates : List (String × String)) (s : AssetStore) :
    (s.Admits templates ∧ load templates s = (.ok (), put templates s)) ∨
      ∃ before name text after, templates = before ++ (name, text) :: after ∧ s.Admits before ∧
        Table.has (Path.normalize name) (put before s) = true ∧
        load templates s = (.error (.duplicate (Path.normalize name) "memory"),
          Table.insert (Path.normalize name) text (put before s)) := by
  induction templates generalizing s with
  | nil => exact .inl ⟨⟨List.nodup_nil, List.forall_mem_nil _⟩, rfl⟩
  | cons t rest ih =>
    obtain ⟨name, text⟩ := t
    rcases hhas : Table.has (Path.normalize name) s with _ | _
    · have hstep : load ((name, text) :: rest) s =
          load rest (Table.insert (Path.normalize name) text s) := by
        rw [load, register_eq, hhas]
        rfl
      rw [hstep]
      rcases ih (Table.insert (Path.normalize name) text s) with
        ⟨hadmits, hload⟩ | ⟨before, name', text', after, rfl, hadmits, htaken, hload⟩
      · exact .inl ⟨admits_cons_iff.mpr ⟨hhas, hadmits⟩, hload⟩
      · exact .inr ⟨(name, text) :: before, name', text', after, rfl,
          admits_cons_iff.mpr ⟨hhas, hadmits⟩, htaken, hload⟩
    · refine .inr ⟨[], name, text, rest, rfl, ⟨List.nodup_nil, List.forall_mem_nil _⟩, hhas, ?_⟩
      rw [load, register_eq, hhas]
      rfl

/-- What is taken when some templates have come in is not admitted behind them. -/
theorem not_admits_concat {before : List (String × String)} {name : String} (text : String)
    (hbefore : s.Admits before) (htaken : Table.has (Path.normalize name) (put before s) = true) :
    ¬ s.Admits (before ++ [(name, text)]) := by
  intro h
  obtain ⟨other, hother⟩ := Option.isSome_iff_exists.mp htaken
  rcases (find?_put hbefore _ other).mp hother with hold | ⟨t, ht, hname, -⟩
  · have hnew := h.2 _ (List.mem_append_right _ (List.mem_singleton_self _))
    rw [Table.has, hold] at hnew
    cases hnew
  · have hdistinct := h.1
    rw [List.map_append, List.nodup_append] at hdistinct
    exact hdistinct.2.2 _ (List.mem_map_of_mem ht) _ (List.mem_singleton_self _) hname

/-- **Templates come in all together or up to the first that is too much.** All come in exactly if
the store admits them, and then it holds what it held and them. Otherwise there is a first one that
is not admitted behind those before it. It is named by the fault, and the store holds its text under
its normal name, and besides what it held and the templates before. -/
theorem load_admits_or_replaces (templates : List (String × String)) (s : AssetStore) :
    ((load templates s).1 = .ok () ↔ s.Admits templates) ∧
    ((load templates s).1 = .ok () → ∀ key text,
      Table.find? key (load templates s).2 = some text ↔
        Table.find? key s = some text ∨
          ∃ t ∈ templates, Path.normalize t.1 = key ∧ t.2 = text) ∧
    ∀ fault, (load templates s).1 = .error fault →
      ∃ before name text after, templates = before ++ (name, text) :: after ∧
        s.Admits before ∧ ¬ s.Admits (before ++ [(name, text)]) ∧
        fault = .duplicate (Path.normalize name) "memory" ∧
        Table.find? (Path.normalize name) (load templates s).2 = some text ∧
        ∀ key, key ≠ Path.normalize name → ∀ other,
          Table.find? key (load templates s).2 = some other ↔
            Table.find? key s = some other ∨
              ∃ t ∈ before, Path.normalize t.1 = key ∧ t.2 = other := by
  rcases load_cases templates s with
    ⟨hadmits, hload⟩ | ⟨before, name, text, after, rfl, hadmits, htaken, hload⟩
  · rw [hload]
    refine ⟨iff_of_true rfl hadmits, fun _ => find?_put hadmits, fun fault hfault => ?_⟩
    cases hfault
  · have hnot := not_admits_concat text hadmits htaken
    have hfault : (load (before ++ (name, text) :: after) s).1 ≠ .ok () := by
      rw [hload]
      intro h
      cases h
    refine ⟨iff_of_false hfault fun hall => hnot ?_, fun h => absurd h hfault, ?_⟩
    · -- what is admitted is so up to every place
      rw [← List.singleton_append, ← List.append_assoc] at hall
      refine ⟨?_, fun t ht => hall.2 t (List.mem_append_left _ ht)⟩
      have hdistinct := hall.1
      rw [List.map_append] at hdistinct
      exact (List.nodup_append.mp hdistinct).1
    · rw [hload]
      rintro fault ⟨⟩
      refine ⟨before, name, text, after, rfl, hadmits, hnot, rfl, Table.find?_insert_self _ _ _, ?_⟩
      intro key hkey other
      rw [Table.find?_insert_of_ne hkey]
      exact find?_put hadmits key other

/-- Two names of one list come to the same, and what was there stays. -/
theorem load_admits_or_replaces_detour :
    (load [("nav", "first"), ("pages/../nav", "second")] [("base", "old")]).1 =
        .error (.duplicate "nav" "memory") ∧
      Table.find? "base" (load [("nav", "first"), ("pages/../nav", "second")] [("base", "old")]).2 =
        some "old" := by
  have hfault : (load [("nav", "first"), ("pages/../nav", "second")] [("base", "old")]).1 =
      .error (.duplicate "nav" "memory") := by decide
  obtain ⟨-, -, hreplaces⟩ :=
    load_admits_or_replaces [("nav", "first"), ("pages/../nav", "second")] [("base", "old")]
  obtain ⟨before, name, text, after, -, -, -, hname, -, hothers⟩ := hreplaces _ hfault
  have hnav : Path.normalize name = "nav" := (AssetFault.duplicate.inj hname).1.symm
  have hbase : "base" ≠ Path.normalize name := by
    rw [hnav]
    decide
  exact ⟨hfault, (hothers "base" hbase "old").mpr (.inl (by decide))⟩

/-- A rejected template takes the place of the one that was there. -/
theorem not_load_error_keeps :
    ¬ ∀ (templates : List (String × String)) (s : AssetStore) (fault : AssetFault)
        (key text : String), (load templates s).1 = .error fault →
      Table.find? key s = some text → Table.find? key (load templates s).2 = some text := by
  intro h
  have hkept := h [("nav", "new")] [("nav", "old")] (.duplicate "nav" "memory") "nav" "old"
    (by decide) (by decide)
  exact absurd hkept (by decide)

end Stencil.AssetStore
