import Stencil.Proofs.Engine.Calls
import Stencil.Proofs.Engine.Slots

/-!
# Engines that load the same texts

Two engines whose slots are supplied with the same programs load templates that look alike,
each in its own store and under identities of its own. So they run in lockstep, if it is
known well enough which identities belong together: `known` is what is known of the templates
that stand for each other, given the two stores, and `Engine.Loads` says that obtaining one
more pair keeps it known.
-/

namespace Stencil

/-- Which programs the slots are supplied with. -/
abbrev Supply := Slot → Except Error Program

/-- Whether a store is sound and its slots are supplied with certain programs. -/
def Engine.Supplied (e : Engine) (supply : Supply) (s : Store) : Prop :=
  e.Sound s ∧ e.supply s = supply

/-- Whether something is known of templates that stand for each other whatever is loaded. -/
structure Engine.Loads (e₁ e₂ : Engine)
    (known : (Template → Template → Prop) → Store → Store → Prop) : Prop where
  fail {R : Template → Template → Prop} {s s' s₁ s₂ : Store} {k : Slot} {fault : Error}
    (h : known R s s') (h₁ : e₁.Obtained k s (.error fault, s₁))
    (h₂ : e₂.Obtained k s' (.error fault, s₂)) : known R s₁ s₂
  give {R : Template → Template → Prop} {s s' s₁ s₂ : Store} {k : Slot} {t u : Template}
    (h : known R s s') (h₁ : e₁.Obtained k s (.ok t, s₁)) (h₂ : e₂.Obtained k s' (.ok u, s₂)) :
    known (fun t' u' => R t' u' ∨ (t' = t ∧ u' = u)) s₁ s₂

namespace Correspondence

/-- The correspondence of engines that load the same texts. -/
def loading (e₁ e₂ : Engine) (supply : Supply)
    (known : (Template → Template → Prop) → Store → Store → Prop)
    (clear : List Template → Template → Prop := fun _ _ => True)
    (refused : Error → Prop := fun _ => False) : Correspondence {} where
  stores w s s' := e₁.Supplied supply s ∧ e₂.Supplied supply s' ∧ known w.stands s s'
  clear := clear
  refused := refused

variable {e₁ e₂ : Engine} {supply : Supply}
  {known : (Template → Template → Prop) → Store → Store → Prop}
  {clear : List Template → Template → Prop} {refused : Error → Prop} {w : World {}}

/-- **A slot gives templates that stand for each other**, or the same failure. -/
theorem fetches_slot (hknown : e₁.Loads e₂ known) {s s' : Store}
    (h : (loading e₁ e₂ supply known clear refused).stores w s s') (k : Slot) :
    (loading e₁ e₂ supply known clear refused).Fetches w (e₁.obtain k s) (e₂.obtain k s') := by
  obtain ⟨⟨hs, hsupply⟩, ⟨hs', hsupply'⟩, hw⟩ := h
  have h₁ := hs.obtain k
  have h₂ := hs'.obtain k
  generalize e₁.obtain k s = r₁, e₂.obtain k s' = r₂ at h₁ h₂ ⊢
  have hsame₁ : e₁.Supplied supply r₁.2 := ⟨h₁.sound, h₁.same.trans hsupply⟩
  have hsame₂ : e₂.Supplied supply r₂.2 := ⟨h₂.sound, h₂.same.trans hsupply'⟩
  have hsupplied : r₂.1.map Template.program = r₁.1.map Template.program := by
    rw [h₁.supplied, h₂.supplied, hsupply, hsupply']
  obtain ⟨fault | t, s₁⟩ := r₁ <;> obtain ⟨fault' | u, s₂⟩ := r₂
  · cases hsupplied
    exact ⟨w, le_rfl, ⟨hsame₁, hsame₂, hknown.fail hw h₁ h₂⟩, .fail fault⟩
  · cases hsupplied
  · cases hsupplied
  · have hname : u.name = t.name :=
      (hsame₂.1.name (h₂.held u rfl)).trans (hsame₁.1.name (h₁.held t rfl)).symm
    have hprogram : u.program = t.program := Except.ok.inj hsupplied
    exact ⟨w.extend t u hname hprogram t.program.within_all, w.le_extend _ _ _ _ _,
      ⟨hsame₁, hsame₂, hknown.give hw h₁ h₂⟩, .give (.inr ⟨rfl, rfl⟩)⟩

/-- So does a path. -/
theorem fetches_path (hknown : e₁.Loads e₂ known) {s s' : Store}
    (h : (loading e₁ e₂ supply known clear refused).stores w s s') (path : String) :
    (loading e₁ e₂ supply known clear refused).Fetches w (e₁.fetch path s) (e₂.fetch path s') := by
  cases hpath : Path.contained? path with
  | some key =>
    rw [Engine.fetch_eq_obtain hpath, Engine.fetch_eq_obtain hpath]
    exact fetches_slot hknown h (.path key)
  | none =>
    rw [Engine.fetch, Engine.fetch, hpath]
    exact ⟨w, le_rfl, h, .fail _⟩

/-- And so does what a call is about. -/
theorem fetches_template (hknown : e₁.Loads e₂ known) {s s' : Store}
    (h : (loading e₁ e₂ supply known clear refused).stores w s s') (call : Call) :
    (loading e₁ e₂ supply known clear refused).Fetches w (e₁.template call s)
      (e₂.template call s') := by
  cases call with
  | renderInline text scope =>
    rw [Engine.template, Engine.template, Engine.fetchInline_eq_obtain,
      Engine.fetchInline_eq_obtain]
    exact fetches_slot hknown h (.text text)
  | _ => exact fetches_path hknown h _

/-- **Engines that load the same texts run in lockstep.** -/
theorem lawful_loading (hlanguage : e₁.language = e₂.language)
    (hstrict : e₁.config.strict = e₂.config.strict) (hknown : e₁.Loads e₂ known)
    (hparents : ∀ {R s s'}, e₁.Sound s → e₂.Sound s' → known R s s' →
      ∀ {ts us t u}, List.Forall₂ R ts us → R t u → clear ts t →
        List.Forall₂ R (Context.parentsOf t ts) (Context.parentsOf u us)) :
    (loading e₁ e₂ supply known clear refused).Lawful e₁ e₂ where
  language := hlanguage
  strict := .inl hstrict
  fetch h path := fetches_path hknown h path
  parents h _ _ htu hclear :=
    hparents h.stores.1.1 h.stores.2.1.1 h.stores.2.2 h.chain htu hclear

end Correspondence

end Stencil
