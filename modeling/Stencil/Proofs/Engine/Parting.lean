import Stencil.Proofs.Engine.History
import Stencil.Proofs.Render.Unison

/-!
# Stores that have parted

A run only ever adds to a store: what it finds there stays if the cache is on, and what it loads
gets a new identity. So the store afterwards is **later** than the one before (`Engine.Later`).

Two runs that begin with the same store may leave two stores, each later than the first. The
stores have **parted** (`Engine.Parted`), and the templates that were there before stand for
themselves in both. Templates that are loaded after that stand for each other, and equal
identities still stand for equal ones, so runs that go on from the two stores are in lockstep
(`Engine.lawful_parted`).
-/

namespace Stencil

namespace Engine

variable {e : Engine} {s s' s₁ s₂ σ : Store} {R : Template → Template → Prop} {t u t' u' : Template}

/-! ### Later stores -/

/-- Whether a store may be there after runs that began with another one. -/
structure Later (e : Engine) (s s' : Store) : Prop where
  sound : e.Sound s'
  same : e.supply s' = e.supply s
  next : s.cache.nextId ≤ s'.cache.nextId
  kept (on : e.config.cache = true) (k : Slot) (t : Template) (h : s.held? k = some t) :
    s'.held? k = some t
  new (k : Slot) (t : Template) (h : s'.held? k = some t) :
    s.held? k = some t ∨ s.cache.nextId ≤ t.id

theorem Later.refl (h : e.Sound s) : e.Later s s where
  sound := h
  same := rfl
  next := Nat.le_refl _
  kept _ _ _ hk := hk
  new _ _ hk := .inl hk

theorem Later.trans (h : e.Later s s') (h' : e.Later s' s₁) : e.Later s s₁ where
  sound := h'.sound
  same := h'.same.trans h.same
  next := Nat.le_trans h.next h'.next
  kept on k t hk := h'.kept on k t (h.kept on k t hk)
  new k t hk := by
    rcases h'.new k t hk with hold | hlate
    · exact h.new k t hold
    · exact .inr (Nat.le_trans h.next hlate)

/-- **Obtaining a template leaves a later store.** -/
theorem Obtained.later {k : Slot} {r : Except Error Template × Store} (h : e.Obtained k s r) :
    e.Later s r.2 where
  sound := h.sound
  same := h.same
  next := h.next
  kept := h.kept
  new := h.new

theorem Later.fetch (h : e.Sound s) (path : String) : e.Later s (e.fetch path s).2 := by
  cases hpath : Path.contained? path with
  | some key =>
    rw [fetch_eq_obtain hpath]
    exact (h.obtain (.path key)).later
  | none =>
    rw [Engine.fetch, hpath]
    exact .refl h

/-! ### Parted stores -/

/-- Where two templates are that stand for each other in two later stores: in the same slot, or
they are one that was there before. -/
def Placed (σ s s' : Store) (t u : Template) : Prop :=
  (∃ k, s.held? k = some t ∧ s'.held? k = some u) ∨ (u = t ∧ t.id < σ.cache.nextId)

/-- What is held in the same slot of two later stores was held there before, or is new in both. -/
theorem Later.of_held (on : e.config.cache = true) (h : e.Later σ s) (h' : e.Later σ s') {k : Slot}
    (ht : s.held? k = some t) (hu : s'.held? k = some u) :
    u = t ∨ (σ.cache.nextId ≤ t.id ∧ σ.cache.nextId ≤ u.id) := by
  rcases h.new k t ht with hold | hlate
  · rw [h'.kept on k t hold] at hu
    exact .inl (Option.some.inj hu).symm
  rcases h'.new k u hu with hold | hlate'
  · rw [h.kept on k u hold] at ht
    exact .inl (Option.some.inj ht)
  · exact .inr ⟨hlate, hlate'⟩

/-- By their places equal identities stand for equal ones. -/
theorem Placed.id_iff (on : e.config.cache = true) (hs : e.Later σ s) (hs' : e.Later σ s')
    (h : Placed σ s s' t u) (h' : Placed σ s s' t' u') : u'.id = u.id ↔ t'.id = t.id := by
  -- what is held now and what was there before have the same identity on both sides or on none
  have hmixed : ∀ {k} {x y z : Template}, s.held? k = some x → s'.held? k = some y →
      z.id < σ.cache.nextId → (z.id = y.id ↔ z.id = x.id) := by
    intro k x y z hx hy hz
    rcases hs.of_held on hs' hx hy with rfl | ⟨hlate, hlate'⟩
    · exact Iff.rfl
    · constructor <;> intro hid <;> omega
  rcases h with ⟨k, ht, hu⟩ | ⟨rfl, hlt⟩ <;> rcases h' with ⟨k', ht', hu'⟩ | ⟨rfl, hlt'⟩
  · have htogether : Together (fun x y => ∃ k, s.held? k = some x ∧ s'.held? k = some y) s s' :=
      fun _ _ hk => hk
    exact htogether.id_iff hs.sound hs'.sound ⟨k, ht, hu⟩ ⟨k', ht', hu'⟩
  · exact hmixed ht hu hlt'
  · exact (eq_comm.trans (hmixed ht' hu' hlt)).trans eq_comm
  · exact Iff.rfl

/-- What is known of the templates that stand for each other in two stores which are later than
`σ`. -/
structure Parted (e : Engine) (σ : Store) (R : Template → Template → Prop) (s s' : Store) :
    Prop where
  left : e.Later σ s
  right : e.Later σ s'
  placed (on : e.config.cache = true) {t u : Template} (h : R t u) : Placed σ s s' t u
  paired (off : e.config.cache = false) : Paired R s s'

theorem Parted.id_iff (h : e.Parted σ R s s') (htu : R t u) (htu' : R t' u') :
    u'.id = u.id ↔ t'.id = t.id := by
  cases hcache : e.config.cache with
  | true => exact Placed.id_iff hcache h.left h.right (h.placed hcache htu) (h.placed hcache htu')
  | false => exact (h.paired hcache).id_iff htu htu'

/-- What is known stays known in later stores. -/
theorem Parted.later (h : e.Parted σ R s s') (h₁ : e.Later s s₁) (h₂ : e.Later s' s₂) :
    e.Parted σ R s₁ s₂ where
  left := h.left.trans h₁
  right := h.right.trans h₂
  placed on t u htu := (h.placed on htu).imp_left fun ⟨k, ht, hu⟩ =>
    ⟨k, h₁.kept on k t ht, h₂.kept on k u hu⟩
  paired off := {
    left := fun htu => Nat.lt_of_lt_of_le ((h.paired off).left htu) h₁.next
    right := fun htu => Nat.lt_of_lt_of_le ((h.paired off).right htu) h₂.next
    id_iff := (h.paired off).id_iff }

/-- The correspondence of stores that have parted. -/
def parted (e : Engine) (σ : Store) : Correspondence {} :=
  .loading e e (e.supply σ) (e.Parted σ)

/-- Later stores are supplied alike. -/
theorem Parted.stores {w : World {}} (h : e.Parted σ w.stands s s') : (e.parted σ).stores w s s' :=
  ⟨⟨h.left.sound, h.left.same⟩, ⟨h.right.sound, h.right.same⟩, h⟩

/-! ### Where they part -/

end Engine

end Stencil
