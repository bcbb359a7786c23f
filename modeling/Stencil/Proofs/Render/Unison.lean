import Stencil.Proofs.Render.Lockstep

/-!
# Runs in unison

The simplest correspondence has the same templates and the same store on both sides. What
may differ between two such runs is the engine, as long as it fetches alike, and the imports
that nothing calls. An invariant of the store comes with it, which keeps what is fetched
within the coverage.
-/

namespace Stencil

namespace Correspondence

variable {V : Coverage} {I : Store → Prop} {refused : Error → Prop}

/-- The correspondence of runs that share their store. -/
def unison (V : Coverage) (I : Store → Prop) (refused : Error → Prop) : Correspondence V where
  stores w s s' := s' = s ∧ I s ∧ ∀ t u, w.stands t u → u = t
  refused := refused

theorem clear_unison (c : Context) : (unison V I refused).Clear c :=
  fun _ _ => trivial

/-- What one fetches the other fetches as well. -/
theorem fetches_unison {r : Except Error Template × Store} {w : World V}
    (hw : ∀ t u, w.stands t u → u = t) (hstore : I r.2)
    (hwithin : ∀ t, r.1 = .ok t → t.program.Within V) : (unison V I refused).Fetches w r r := by
  obtain ⟨fault | t, s⟩ := r
  · exact ⟨w, le_rfl, ⟨rfl, hstore, hw⟩, .fail fault⟩
  · refine ⟨w.extend t t rfl rfl (hwithin t rfl), w.le_extend _ _ _ _ _, ⟨rfl, hstore, ?_⟩,
      .give (.inr ⟨rfl, rfl⟩)⟩
    rintro t' u' (h | ⟨rfl, rfl⟩)
    · exact hw t' u' h
    · rfl

/-- **Engines that fetch alike run in unison**, also if only the left one is strict. -/
theorem lawful_unison_of_strict {e₁ e₂ : Engine} (hlanguage : e₁.language = e₂.language)
    (hstrict : e₁.config.strict = e₂.config.strict ∨
      e₁.config.strict = true ∧ ∀ path, refused (.render (.undefinedVariable path)))
    (hfetch : e₁.fetch = e₂.fetch) (hkeep : ∀ path s, I s → I (e₂.fetch path s).2)
    (hwithin : ∀ path s t, I s → (e₂.fetch path s).1 = .ok t → t.program.Within V) :
    (unison V I refused).Lawful e₁ e₂ where
  language := hlanguage
  strict := hstrict
  fetch {w s s'} h path := by
    obtain ⟨rfl, hs, hw⟩ := h
    rw [hfetch]
    exact fetches_unison hw (hkeep path s' hs) fun t ht => hwithin path s' t hs ht
  parents {w c d} h t u htu _ := by
    have hw := h.stores.2.2
    obtain rfl := hw t u htu
    refine forall₂_parentsOf h.chain fun t' u' htu' => ?_
    obtain rfl := hw t' u' htu'
    exact Iff.rfl

/-- Engines that fetch alike and are as strict as each other run in unison. -/
theorem lawful_unison {e₁ e₂ : Engine} (hlanguage : e₁.language = e₂.language)
    (hstrict : e₁.config.strict = e₂.config.strict) (hfetch : e₁.fetch = e₂.fetch)
    (hkeep : ∀ path s, I s → I (e₂.fetch path s).2)
    (hwithin : ∀ path s t, I s → (e₂.fetch path s).1 = .ok t → t.program.Within V) :
    (unison V I refused).Lawful e₁ e₂ :=
  lawful_unison_of_strict hlanguage (.inl hstrict) hfetch hkeep hwithin

/-! ### A context and itself -/

/-- The world in which every template stands for itself. -/
def selfWorld : World {} where
  stands t u := u = t
  name h := congrArg Template.name h
  program h := congrArg Template.program h
  within {t _} _ := t.program.within_all

/-- Every context corresponds to itself. -/
theorem contexts_self {c : Context} (hstore : I c.store) :
    (unison {} I refused).Contexts selfWorld c c where
  stores := ⟨rfl, hstore, fun _ _ h => h⟩
  scope := rfl
  output := rfl
  chain := List.forall₂_same.mpr fun _ _ => rfl
  blocks := List.forall₂_same.mpr fun _ _ => ⟨rfl, rfl⟩
  owners := List.forall₂_same.mpr fun _ _ => rfl
  imports name _ := by
    cases Table.find? name c.imports with
    | none => exact .none
    | some t => exact .some rfl
  importedMacros name _ := by
    cases Table.find? name c.importedMacros with
    | none => exact .none
    | some m => exact .some ⟨rfl, rfl⟩

end Correspondence

end Stencil
