import Stencil.Proofs.Engine.Loading

/-!
# What came before

An engine may be used again and again: it renders, fails to render, calls macros, loads
templates ahead and forgets some. All of this fills its cache, and the identities that it has
given out already are never given out again. But no answer depends on it.

There are two parts to the proof. Whatever is done to a store keeps it sound and leaves its
slots supplied as they were (`Engine.Operation.kept`). And between two sound stores that are
supplied alike no call tells a difference (`Engine.answer_congr`): the two runs load templates
that stand for each other. An engine that takes templates from its cache holds them in the
same slots of both stores, and one that does not gives every one of them a new identity; in
either case equal identities stand for equal ones.
-/

namespace Stencil

namespace Engine

variable {e : Engine} {R : Template → Template → Prop} {s s' : Store}

/-! ### Which identities belong together -/

/-- Templates that stand for each other are held in the same slots. -/
def Together (R : Template → Template → Prop) (s s' : Store) : Prop :=
  ∀ t u, R t u → ∃ k, s.held? k = some t ∧ s'.held? k = some u

theorem loads_together (hon : e.config.cache = true) : e.Loads e Together where
  fail h h₁ h₂ t u htu := by
    obtain ⟨k, ht, hu⟩ := h t u htu
    exact ⟨k, h₁.kept hon k t ht, h₂.kept hon k u hu⟩
  give {R s s' s₁ s₂ k t u} h h₁ h₂ := by
    rintro t' u' (htu | ⟨rfl, rfl⟩)
    · obtain ⟨k', ht, hu⟩ := h t' u' htu
      exact ⟨k', h₁.kept hon k' t' ht, h₂.kept hon k' u' hu⟩
    · exact ⟨k, h₁.held t' rfl, h₂.held u' rfl⟩

theorem Together.id_iff (h : Together R s s') (hs : e.Sound s) (hs' : e.Sound s')
    {t u t' u' : Template} (htu : R t u) (htu' : R t' u') : u'.id = u.id ↔ t'.id = t.id := by
  obtain ⟨k, ht, hu⟩ := h t u htu
  obtain ⟨k', ht', hu'⟩ := h t' u' htu'
  constructor
  · intro hid
    rw [hs'.apart hu hu' hid, ht] at ht'
    rw [Option.some.inj ht']
  · intro hid
    rw [hs.apart ht ht' hid, hu] at hu'
    rw [Option.some.inj hu']

/-- Templates that stand for each other have identities that were given out already, and equal
ones stand for equal ones. -/
structure Paired (R : Template → Template → Prop) (s s' : Store) : Prop where
  left {t u : Template} (h : R t u) : t.id < s.cache.nextId
  right {t u : Template} (h : R t u) : u.id < s'.cache.nextId
  id_iff {t u t' u' : Template} (h : R t u) (h' : R t' u') : u'.id = u.id ↔ t'.id = t.id

theorem loads_paired (hoff : e.config.cache = false) : e.Loads e Paired where
  fail h h₁ h₂ := {
    left := fun htu => Nat.lt_of_lt_of_le (h.left htu) h₁.next
    right := fun htu => Nat.lt_of_lt_of_le (h.right htu) h₂.next
    id_iff := h.id_iff }
  give {R s s' s₁ s₂ k t u} h h₁ h₂ := by
    have ht : s.cache.nextId ≤ t.id := h₁.fresh hoff t rfl
    have hu : s'.cache.nextId ≤ u.id := h₂.fresh hoff u rfl
    refine ⟨?_, ?_, ?_⟩
    · rintro t' u' (htu | ⟨rfl, rfl⟩)
      · exact Nat.lt_of_lt_of_le (h.left htu) h₁.next
      · exact h₁.sound.id_lt (h₁.held t' rfl)
    · rintro t' u' (htu | ⟨rfl, rfl⟩)
      · exact Nat.lt_of_lt_of_le (h.right htu) h₂.next
      · exact h₂.sound.id_lt (h₂.held u' rfl)
    · -- the identities of the new pair are new on both sides
      rintro t₁ u₁ t₂ u₂ (htu | ⟨rfl, rfl⟩) (htu' | ⟨rfl, rfl⟩)
      · exact h.id_iff htu htu'
      · have hleft := h.left htu
        have hright := h.right htu
        omega
      · have hleft := h.left htu'
        have hright := h.right htu'
        omega
      · exact ⟨fun _ => rfl, fun _ => rfl⟩

/-! ### Stores that are supplied alike -/

/-- Two stores that are supplied alike give the same answer, if it is known which identities
belong together, and the left one is supplied as before. -/
theorem answer_of_loads {known : (Template → Template → Prop) → Store → Store → Prop}
    (hknown : e.Loads e known)
    (hid : ∀ {R s s'}, e.Sound s → e.Sound s' → known R s s' →
      ∀ {t u t' u'}, R t u → R t' u' → (u'.id = u.id ↔ t'.id = t.id))
    {supply : Supply} (hs : e.Supplied supply s) (hs' : e.Supplied supply s')
    (hstart : known (fun _ _ => False) s s') (call : Call) :
    (e.answer call s').1 = (e.answer call s).1 ∧ e.Supplied supply (e.answer call s).2 := by
  let K := Correspondence.loading e e supply known
  have hlawful : K.Lawful e e :=
    Correspondence.lawful_loading rfl rfl hknown fun hs hs' h _ _ _ _ hts htu _ =>
      Correspondence.forall₂_parentsOf hts fun _ _ htu' => hid hs hs' h htu htu'
  have hstores : K.stores World.empty s s' := ⟨hs, hs', hstart⟩
  have hanswers := Correspondence.answer (k := 0) hlawful (fun _ _ _ => trivial) (.bottom rfl) rfl
    call (Correspondence.fetches_template hknown hstores call)
  obtain ⟨heq, _, _, hleft, _⟩ := hanswers fun _ _ h => h
  exact ⟨heq, hleft⟩

/-- What a call answers is told by how the slots are supplied. It leaves them supplied so. -/
theorem answer_supplied {supply : Supply} (hs : e.Supplied supply s) (hs' : e.Supplied supply s')
    (call : Call) :
    (e.answer call s').1 = (e.answer call s).1 ∧ e.Supplied supply (e.answer call s).2 := by
  cases hcache : e.config.cache with
  | true =>
    refine answer_of_loads (loads_together hcache) ?_ hs hs' (fun _ _ h => h.elim) call
    exact fun hs hs' h _ _ _ _ => h.id_iff hs hs'
  | false =>
    refine answer_of_loads (loads_paired hcache) ?_ hs hs' ?_ call
    · exact fun _ _ h _ _ _ _ => h.id_iff
    · exact ⟨fun h => h.elim, fun h => h.elim, fun h => h.elim⟩

/-! ### Histories -/

/-- What may be done with an engine. -/
inductive Operation where
  | ask (call : Call)
  | fetch (path : String)
  | fetchInline (text : String)
  | evict (k : Slot)
  | clear

/-- The store after something was done with an engine. -/
def perform (e : Engine) (s : Store) : Operation → Store
  | .ask call => (e.answer call s).2
  | .fetch path => (e.fetch path s).2
  | .fetchInline text => (e.fetchInline text s).2
  | .evict k => s.evict k
  | .clear => { s with cache := s.cache.clear }

theorem Supplied.fresh (e : Engine) (source : Source) :
    e.Supplied (e.supply { source }) { source } :=
  ⟨.fresh e source, rfl⟩

/-- **Whatever is done** keeps a store sound and its slots supplied as they were. -/
theorem Supplied.perform {supply : Supply} (h : e.Supplied supply s) (op : Operation) :
    e.Supplied supply (e.perform s op) := by
  have hobtain : ∀ k, e.Supplied supply (e.obtain k s).2 := fun k =>
    ⟨(h.1.obtain k).sound, (h.1.obtain k).same.trans h.2⟩
  cases op with
  | ask call => exact (answer_supplied h h call).2
  | fetch path =>
    rw [Engine.perform]
    cases hpath : Path.contained? path with
    | some key => exact fetch_eq_obtain hpath ▸ hobtain (.path key)
    | none =>
      rw [Engine.fetch, hpath]
      exact h
  | fetchInline text =>
    rw [Engine.perform, fetchInline_eq_obtain]
    exact hobtain (.text text)
  | evict k => exact ⟨h.1.evict k, (e.supply_evict s k).trans h.2⟩
  | clear =>
    refine ⟨h.1.of_held rfl rfl fun k t hk => ?_, h.2⟩
    cases k <;> cases hk

theorem Supplied.foldl_perform {supply : Supply} (h : e.Supplied supply s)
    (ops : List Operation) : e.Supplied supply (ops.foldl e.perform s) := by
  induction ops generalizing s with
  | nil => exact h
  | cons op ops ih => exact ih (h.perform op)

/-- **Renders do not depend on history**: whatever was done with an engine before, each call is
answered as by a new engine, be its source the one that the first began with or the one that
it has now. -/
theorem answer_after (e : Engine) (source : Source) (ops : List Operation) (call : Call) :
    let s := ops.foldl e.perform { source }
    (e.answer call s).1 = (e.answer call { source }).1 ∧
      (e.answer call s).1 = (e.answer call { source := s.source }).1 := by
  intro s
  have hs : e.Supplied (e.supply { source }) s := (Supplied.fresh e source).foldl_perform ops
  have hsource : e.Supplied (e.supply { source }) { source := s.source } := by
    refine ⟨.fresh e s.source, ?_⟩
    rw [← hs.2]
    exact supply_congr rfl
  exact ⟨(answer_supplied (.fresh e source) hs call).1, (answer_supplied hsource hs call).1⟩

end Engine

end Stencil
