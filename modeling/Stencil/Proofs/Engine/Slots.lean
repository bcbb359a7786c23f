import Stencil.Proofs.Engine.Fetching

/-!
# Places in a cache

A template is held either under its path or under its text. Both are **slots**, and an engine
treats them alike: it takes what a slot holds, if it may, or else loads a new template with a
new identity and holds that (`Engine.obtain`).

What a new template looks like is told by its slot and by the source, not by the cache
(`Engine.supply`). A store is **sound** if every slot holds what it is supplied with, and no
two slots hold the same identity. Nothing that is done to a store makes it unsound.
-/

namespace Stencil

/-- Where a cache holds a template. -/
inductive Slot where
  | path (key : String)
  | text (text : String)
  deriving DecidableEq

/-- The name of the templates that a slot holds. -/
def Slot.name : Slot → String
  | path key => key
  | text _ => Engine.inlineName

/-- What a slot holds. -/
def Store.held? (s : Store) : Slot → Option Template
  | .path key => s.cache.findPath? key
  | .text text => s.cache.findText? text

/-- Empties a slot. -/
def Store.evict (s : Store) : Slot → Store
  | .path key => { s with cache := s.cache.evictPath key }
  | .text text => { s with cache := s.cache.evictText text }

theorem Store.held?_evict (s : Store) (k k' : Slot) :
    (s.evict k).held? k' = if k' = k then none else s.held? k' := by
  cases k <;> cases k' <;>
    simp [held?, evict, Cache.findPath?, Cache.findText?, Cache.evictPath, Cache.evictText,
      Table.find?_erase]

@[simp] theorem Store.nextId_evict (s : Store) (k : Slot) :
    (s.evict k).cache.nextId = s.cache.nextId := by
  cases k <;> rfl

namespace Engine

variable {e : Engine}

/-- The program that belongs into a slot. -/
def supply (e : Engine) (s : Store) : Slot → Except Error Program
  | .path key => e.contentAt s key
  | .text text => e.programOf text inlineName

@[simp] theorem supply_evict (e : Engine) (s : Store) (k : Slot) :
    e.supply (s.evict k) = e.supply s := by
  funext k'
  cases k <;> cases k' <;> rfl

/-- A new template for a slot. -/
def renew (e : Engine) : Slot → Store → Except Error Template × Store
  | .path key => e.refetch key
  | .text text => e.recompile text

/-- The template of a slot. -/
def obtain (e : Engine) (k : Slot) (s : Store) : Except Error Template × Store :=
  if e.config.cache then
    match s.held? k with
    | some t => (.ok t, s)
    | none => e.renew k s
  else e.renew k (s.evict k)

theorem fetch_eq_obtain {path key : String} (h : Path.contained? path = some key) :
    e.fetch path = e.obtain (.path key) := by
  funext s
  rw [fetch, h]
  rfl

theorem fetchInline_eq_obtain (text : String) : e.fetchInline text = e.obtain (.text text) := rfl

/-! ### New templates -/

/-- A template has the name and the identity that it is compiled with. -/
theorem name_and_id_of_compile {text name : String} {id : Nat} {t : Template}
    (h : e.compile text name id = .ok t) : t.name = name ∧ t.id = id := by
  have hdraft : ∀ d, Draft.compile e.language.tags text name = .ok d → d.name = name := by
    intro d hd
    simp only [Draft.compile, bind, Except.bind] at hd
    split at hd
    · cases hd
    · split at hd <;> cases hd
      rfl
  rw [compile] at h
  cases hd : Draft.compile e.language.tags text name with
  | error fault =>
    rw [hd] at h
    cases h
  | ok d =>
    rw [hd] at h
    simp only [bind, Except.bind, Draft.load] at h
    split at h <;> cases h
    exact ⟨hdraft d hd, rfl⟩

/-- What renewing a slot comes to: a failure, which leaves the cache alone, or a template with
the next identity, which the slot holds afterwards. -/
inductive Renewed (e : Engine) (k : Slot) (s : Store) : Except Error Template × Store → Prop
  | fail {fault : Error} {s' : Store} (supplied : e.supply s k = .error fault)
    (cache : s'.cache = s.cache) (same : e.supply s' = e.supply s) :
    Renewed e k s (.error fault, s')
  | new {t : Template} {s' : Store} (supplied : e.supply s k = .ok t.program)
    (name : t.name = k.name) (id : t.id = s.cache.nextId)
    (held : ∀ k', s'.held? k' = if k' = k then some t else s.held? k')
    (next : s'.cache.nextId = s.cache.nextId + 1) (same : e.supply s' = e.supply s) :
    Renewed e k s (.ok t, s')

/-- The supply is told by what the source reads. -/
theorem supply_congr {s s' : Store} (h : e.contentAt s' = e.contentAt s) :
    e.supply s' = e.supply s := by
  funext k
  cases k with
  | path key => exact congrFun h key
  | text text => rfl

theorem renewed_path (e : Engine) (key : String) (s : Store) :
    Renewed e (.path key) s (e.refetch key s) := by
  have hsupplied := e.refetch_program key s
  have hsame := supply_congr (contentAt_of_source (e.refetch_source key s))
  have hcache : (s.read key e.config.cache).2.cache = s.cache := rfl
  rw [refetch] at hsupplied hsame ⊢
  generalize s.read key e.config.cache = r at hsupplied hsame hcache ⊢
  obtain ⟨fault | text, s'⟩ := r
  · exact .fail hsupplied.symm hcache hsame
  dsimp only at hsupplied hsame hcache ⊢
  cases hcompile : e.compile text key s'.cache.nextId with
  | error fault =>
    rw [hcompile] at hsupplied hsame
    exact .fail hsupplied.symm hcache hsame
  | ok t =>
    rw [hcompile] at hsupplied hsame
    obtain ⟨hname, hid⟩ := name_and_id_of_compile hcompile
    rw [hcache] at hid
    refine .new hsupplied.symm hname hid (fun k' => ?_) (congrArg (·.nextId + 1) hcache) hsame
    cases k' <;>
      simp [Store.held?, Cache.findPath?, Cache.findText?, Cache.insertPath, Table.find?_insert,
        hcache]

theorem renewed_text (e : Engine) (text : String) (s : Store) :
    Renewed e (.text text) s (e.recompile text s) := by
  have hsupplied := e.map_program_compile text inlineName s.cache.nextId
  rw [recompile]
  cases hcompile : e.compile text inlineName s.cache.nextId with
  | error fault =>
    rw [hcompile] at hsupplied
    exact .fail hsupplied.symm rfl rfl
  | ok t =>
    rw [hcompile] at hsupplied
    obtain ⟨hname, hid⟩ := name_and_id_of_compile hcompile
    refine .new hsupplied.symm hname hid (fun k' => ?_) rfl (supply_congr rfl)
    cases k' <;>
      simp [Store.held?, Cache.findPath?, Cache.findText?, Cache.insertText, Table.find?_insert]

theorem renewed (e : Engine) (k : Slot) (s : Store) : Renewed e k s (e.renew k s) := by
  cases k with
  | path key => exact e.renewed_path key s
  | text text => exact e.renewed_text text s

/-! ### Sound stores -/

/-- Whether every slot holds what belongs there, and no identity is held twice or yet to be
given. -/
structure Sound (e : Engine) (s : Store) : Prop where
  supplied {k : Slot} {t : Template} (h : s.held? k = some t) : e.supply s k = .ok t.program
  name {k : Slot} {t : Template} (h : s.held? k = some t) : t.name = k.name
  id_lt {k : Slot} {t : Template} (h : s.held? k = some t) : t.id < s.cache.nextId
  apart {k k' : Slot} {t t' : Template} (h : s.held? k = some t) (h' : s.held? k' = some t')
    (hid : t'.id = t.id) : k' = k

/-- A store that has kept nothing is sound. -/
theorem Sound.fresh (e : Engine) (source : Source) : e.Sound { source } := by
  have hnone : ∀ k, ({ source } : Store).held? k = none := by
    intro k
    cases k <;> rfl
  constructor <;> simp [hnone]

/-- What is held less is held soundly. -/
theorem Sound.of_held {s s' : Store} (h : e.Sound s) (hsame : e.supply s' = e.supply s)
    (hnext : s'.cache.nextId = s.cache.nextId)
    (hheld : ∀ k t, s'.held? k = some t → s.held? k = some t) : e.Sound s' where
  supplied hk := by
    rw [hsame]
    exact h.supplied (hheld _ _ hk)
  name hk := h.name (hheld _ _ hk)
  id_lt hk := by
    rw [hnext]
    exact h.id_lt (hheld _ _ hk)
  apart hk hk' := h.apart (hheld _ _ hk) (hheld _ _ hk')

theorem Sound.evict {s : Store} (h : e.Sound s) (k : Slot) : e.Sound (s.evict k) := by
  refine h.of_held (e.supply_evict s k) (s.nextId_evict k) fun k' t hk' => ?_
  rw [Store.held?_evict] at hk'
  split at hk'
  · cases hk'
  · exact hk'

/-- A new template does not make a store unsound. -/
theorem Sound.renewed {s : Store} (h : e.Sound s) {k : Slot} {r : Except Error Template × Store}
    (hr : Renewed e k s r) : e.Sound r.2 := by
  cases hr with
  | fail _ hcache hsame =>
    refine h.of_held hsame (congrArg _ hcache) fun k' t hk' => ?_
    cases k' <;> simpa [Store.held?, hcache] using hk'
  | @new t s' hsupplied hname hid hheld hnext hsame =>
    -- what a slot holds now is the new template, or it was there before and has a lower identity
    have hcases : ∀ {k' t'}, s'.held? k' = some t' →
        (k' = k ∧ t' = t) ∨ (k' ≠ k ∧ s.held? k' = some t' ∧ t'.id < t.id) := by
      intro k' t' hk'
      rw [hheld] at hk'
      split at hk'
      next hkk => exact .inl ⟨hkk, (Option.some.inj hk').symm⟩
      next hkk => exact .inr ⟨hkk, hk', hid ▸ h.id_lt hk'⟩
    constructor
    · intro k' t' hk'
      rw [hsame]
      obtain ⟨rfl, rfl⟩ | ⟨_, hold, _⟩ := hcases hk'
      · exact hsupplied
      · exact h.supplied hold
    · intro k' t' hk'
      obtain ⟨rfl, rfl⟩ | ⟨_, hold, _⟩ := hcases hk'
      · exact hname
      · exact h.name hold
    · intro k' t' hk'
      dsimp only
      obtain ⟨rfl, rfl⟩ | ⟨_, hold, hlt⟩ := hcases hk' <;> omega
    · intro k₁ k₂ t₁ t₂ h₁ h₂ heq
      obtain ⟨rfl, rfl⟩ | ⟨_, hold₁, hlt₁⟩ := hcases h₁ <;>
        obtain ⟨rfl, rfl⟩ | ⟨_, hold₂, hlt₂⟩ := hcases h₂
      · rfl
      · omega
      · omega
      · exact h.apart hold₁ hold₂ heq

/-! ### Obtaining a template -/

/-- What obtaining the template of a slot comes to: it gives what the slot is supplied with, and
holds that. An engine that takes templates from the cache leaves there what it finds; any other
one gives a template with an identity that no template had before. Whatever was not held before
has such an identity. -/
structure Obtained (e : Engine) (k : Slot) (s : Store) (r : Except Error Template × Store) :
    Prop where
  supplied : r.1.map Template.program = e.supply s k
  sound : e.Sound r.2
  same : e.supply r.2 = e.supply s
  next : s.cache.nextId ≤ r.2.cache.nextId
  held (t : Template) (h : r.1 = .ok t) : r.2.held? k = some t
  kept (on : e.config.cache = true) (k' : Slot) (t : Template) (h : s.held? k' = some t) :
    r.2.held? k' = some t
  fresh (off : e.config.cache = false) (t : Template) (h : r.1 = .ok t) : s.cache.nextId ≤ t.id
  new (k' : Slot) (t : Template) (h : r.2.held? k' = some t) :
    s.held? k' = some t ∨ s.cache.nextId ≤ t.id

theorem Renewed.obtained {s : Store} {k : Slot} {r : Except Error Template × Store}
    (hr : Renewed e k s r) (hs : e.Sound s) (hnone : s.held? k = none) : Obtained e k s r := by
  have hsound := hs.renewed hr
  cases hr with
  | fail hsupplied hcache hsame =>
    refine ⟨hsupplied.symm, hsound, hsame, Nat.le_of_eq (congrArg _ hcache).symm, ?_, ?_, ?_, ?_⟩
    · intro t ht
      cases ht
    · intro _ k' t hk'
      cases k' <;> simpa [Store.held?, hcache] using hk'
    · intro _ t ht
      cases ht
    · intro k' t hk'
      left
      cases k' <;> simpa [Store.held?, hcache] using hk'
  | new hsupplied _ hid hheld hnext hsame =>
    refine ⟨hsupplied.symm, hsound, hsame, hnext.symm ▸ Nat.le_succ _, ?_, ?_, ?_, ?_⟩
    · rintro _ ⟨⟩
      rw [hheld, if_pos rfl]
    · intro _ k' t hk'
      rw [hheld, if_neg, hk']
      rintro rfl
      rw [hnone] at hk'
      cases hk'
    · rintro _ _ ⟨⟩
      exact Nat.le_of_eq hid.symm
    · intro k' t hk'
      rw [hheld] at hk'
      split at hk'
      · cases hk'
        exact .inr (Nat.le_of_eq hid.symm)
      · exact .inl hk'

/-- **Obtaining a template keeps a store sound**, and gives what the slot is supplied with. -/
theorem Sound.obtain {s : Store} (h : e.Sound s) (k : Slot) : Obtained e k s (e.obtain k s) := by
  rw [Engine.obtain]
  cases hcache : e.config.cache with
  | true =>
    rw [if_pos rfl]
    cases hheld : s.held? k with
    | none => exact (e.renewed k s).obtained h hheld
    | some t =>
      refine ⟨(h.supplied hheld).symm, h, rfl, Nat.le_refl _, ?_, fun _ _ _ hk' => hk', ?_,
        fun _ _ hk' => .inl hk'⟩
      · rintro _ ⟨⟩
        exact hheld
      · intro hoff
        rw [hcache] at hoff
        cases hoff
  | false =>
    rw [if_neg Bool.false_ne_true]
    -- the slot is emptied first, which nothing but the slot notices
    have hempty : (s.evict k).held? k = none := by rw [Store.held?_evict, if_pos rfl]
    have hobtained := (e.renewed k (s.evict k)).obtained (h.evict k) hempty
    exact {
      supplied := by rw [hobtained.supplied, supply_evict]
      sound := hobtained.sound
      same := by rw [hobtained.same, supply_evict]
      next := by simpa using hobtained.next
      held := hobtained.held
      kept := fun hon => by simp [hcache] at hon
      fresh := fun hoff t ht => by simpa using hobtained.fresh hoff t ht
      new := fun k' t hk' => by
        refine (hobtained.new k' t hk').imp (fun hold => ?_) fun hnew => by simpa using hnew
        rw [Store.held?_evict] at hold
        split at hold
        · cases hold
        · exact hold }

end Engine

end Stencil
