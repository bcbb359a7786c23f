import Mathlib.Logic.Function.Basic
import Stencil.Proofs.Engine.Slots

/-!
# Engines that share a cache

Several engines may keep their templates in one cache, while each has options, a language and
a source of its own. A **pool** is such a cache together with the sources, and a **member** of it
is an engine with the place of the source that it reads. A request of a member is what it would be
of its engine alone, on the store that the member sees.

There are only three ways in which a request for a slot can go (`Member.Served`): the slot holds a
template that may be taken, and nothing changes; or the text that belongs there now is compiled,
and the slot holds the new template; or that fails, and nothing is held that was not held before.
So a template that is held was compiled when the slot was last written, and everything that was
done since then has spared the slot (`Pool.Stems`).
-/

namespace Stencil

/-! ### Requests of one engine -/

/-- What an engine is asked for: a template by its path or by its text. -/
inductive Request where
  | fetch (path : String)
  | fetchInline (text : String)

/-- The slot that a request is about, which a path has only if it is contained. -/
def Request.slot? : Request → Option Slot
  | .fetch path => (Path.contained? path).map .path
  | .fetchInline text => some (.text text)

namespace Engine

/-- What a request is answered with. -/
def serve (e : Engine) : Request → Store → Except Error Template × Store
  | .fetch path => e.fetch path
  | .fetchInline text => e.fetchInline text

/-- The text that belongs into a slot: what the source gives now, or the text itself. -/
def textAt (e : Engine) (s : Store) : Slot → Except Error String
  | .path key => (s.source.read key e.config.cache).1
  | .text text => .ok text

/-- The template that belongs into a slot, with the identity that is next. -/
def compiledAt (e : Engine) (s : Store) (k : Slot) : Except Error Template := do
  e.compile (← e.textAt s k) k.name s.cache.nextId

variable {e : Engine} {r : Request} {k : Slot}

theorem serve_eq_obtain (h : r.slot? = some k) : e.serve r = e.obtain k := by
  cases r with
  | fetch path =>
    obtain ⟨key, hkey, rfl⟩ := Option.map_eq_some_iff.mp h
    exact fetch_eq_obtain hkey
  | fetchInline text =>
    cases h
    exact fetchInline_eq_obtain text

/-- A path that is not contained is not found, whatever the source has. -/
theorem serve_of_slot?_eq_none (h : r.slot? = none) (s : Store) :
    ∃ path, e.serve r s = (.error (.notFound path), s) := by
  cases r with
  | fetch path =>
    refine ⟨path, ?_⟩
    rw [serve, Engine.fetch, Option.map_eq_none_iff.mp h]
  | fetchInline text => cases h

theorem compiledAt_evict (s : Store) (k k' : Slot) :
    e.compiledAt (s.evict k') k = e.compiledAt s k := by
  cases k <;> cases k' <;> rfl

theorem renew_fst (s : Store) (k : Slot) : (e.renew k s).1 = e.compiledAt s k := by
  cases k with
  | path key =>
    have hread : (s.read key e.config.cache).1 = (s.source.read key e.config.cache).1 := rfl
    have hcache : (s.read key e.config.cache).2.cache = s.cache := rfl
    rw [renew, refetch, compiledAt, textAt, ← hread, ← hcache]
    obtain ⟨fault | text, s'⟩ := s.read key e.config.cache
    · rfl
    · simp only [bind, Except.bind, Slot.name]
      split <;> simp [*]
  | text text =>
    simp only [renew, recompile, compiledAt, textAt, bind, Except.bind, Slot.name]
    split <;> simp [*]

end Engine

/-! ### Pools -/

/-- A cache and the sources of those who share it, each with the number of times that it was
read. -/
structure Pool (π : Type) where
  cache : Cache := {}
  source : π → Source
  reads : π → Nat := fun _ => 0

/-- An engine, and where in a pool its source is. -/
structure Member (π : Type) where
  engine : Engine
  place : π

namespace Pool

variable {π : Type}

/-- What a pool holds in a slot. -/
def held? (σ : Pool π) : Slot → Option Template
  | .path key => σ.cache.findPath? key
  | .text text => σ.cache.findText? text

/-- Empties a slot. -/
def evict (σ : Pool π) : Slot → Pool π
  | .path key => { σ with cache := σ.cache.evictPath key }
  | .text text => { σ with cache := σ.cache.evictText text }

/-- The store that an engine with the source at a place works on. -/
def store (σ : Pool π) (p : π) : Store where
  source := σ.source p
  cache := σ.cache
  reads := σ.reads p

@[simp] theorem held?_store (σ : Pool π) (p : π) (k : Slot) : (σ.store p).held? k = σ.held? k := by
  cases k <;> rfl

theorem cache_evict_store (σ : Pool π) (p : π) (k : Slot) :
    ((σ.store p).evict k).cache = (σ.evict k).cache := by
  cases k <;> rfl

theorem held?_evict (σ : Pool π) (k k' : Slot) :
    (σ.evict k).held? k' = if k' = k then none else σ.held? k' := by
  cases k <;> cases k' <;>
    simp [held?, evict, Cache.findPath?, Cache.findText?, Cache.evictPath, Cache.evictText,
      Table.find?_erase]

theorem held?_congr {σ σ' : Pool π} (h : σ'.cache = σ.cache) : σ'.held? = σ.held? := by
  funext k
  cases k <;> simp [held?, h]

/-- What is held where a slot has been emptied, unless what it held may be taken. -/
theorem held?_of_cache {σ σ' : Pool π} {on : Bool} {k : Slot}
    (h : σ'.cache = if on then σ.cache else (σ.evict k).cache) (k' : Slot) :
    σ'.held? k' = if on = false ∧ k' = k then none else σ.held? k' := by
  cases on with
  | true => rw [held?_congr (show σ'.cache = σ.cache from h), if_neg (by simp)]
  | false =>
    rw [held?_congr (show σ'.cache = (σ.evict k).cache from h), held?_evict]
    simp

variable [DecidableEq π]

/-- Takes back the store of a place. -/
def put (σ : Pool π) (p : π) (s : Store) : Pool π where
  cache := s.cache
  source := Function.update σ.source p s.source
  reads := Function.update σ.reads p s.reads

@[simp] theorem put_store (σ : Pool π) (p : π) : σ.put p (σ.store p) = σ := by
  simp [put, store]

@[simp] theorem held?_put (σ : Pool π) (p : π) (s : Store) (k : Slot) :
    (σ.put p s).held? k = s.held? k := by
  cases k <;> rfl

end Pool

/-! ### Requests of a member -/

namespace Member

variable {π : Type}

/-- The text that belongs into a slot: what the member's source gives now, or the text itself. -/
def textAt (m : Member π) (σ : Pool π) : Slot → Except Error String :=
  m.engine.textAt (σ.store m.place)

/-- A text as the template of a slot, with the identity that is next. -/
def compile (m : Member π) (text : String) (k : Slot) (σ : Pool π) : Except Error Template :=
  m.engine.compile text k.name σ.cache.nextId

/-- The template that belongs into a slot. -/
def compiledAt (m : Member π) (σ : Pool π) (k : Slot) : Except Error Template := do
  m.compile (← m.textAt σ k) k σ

theorem compiledAt_store (m : Member π) (σ : Pool π) (k : Slot) :
    m.engine.compiledAt (σ.store m.place) k = m.compiledAt σ k := rfl

/-- What is compiled for a slot is compiled from the text that belongs there, and has its name. -/
theorem compile_of_compiledAt {m : Member π} {σ : Pool π} {k : Slot} {t : Template}
    (h : m.compiledAt σ k = .ok t) :
    ∃ text, m.textAt σ k = .ok text ∧ m.compile text k σ = .ok t ∧ t.name = k.name := by
  rw [compiledAt] at h
  cases htext : m.textAt σ k with
  | error fault =>
    rw [htext] at h
    cases h
  | ok text =>
    rw [htext] at h
    exact ⟨text, rfl, h, (Engine.name_and_id_of_compile h).1⟩

variable [DecidableEq π]

/-- What a request of a member is answered with, and the pool afterwards. -/
def serve (m : Member π) (r : Request) (σ : Pool π) : Except Error Template × Pool π :=
  let (t, s) := m.engine.serve r (σ.store m.place)
  (t, σ.put m.place s)

variable {m : Member π} {r : Request} {k : Slot} {σ : Pool π}

/-- What a request for a slot comes to. -/
inductive Served (m : Member π) (k : Slot) (σ : Pool π) : Except Error Template × Pool π → Prop
  /-- The slot holds a template that may be taken. -/
  | found {t : Template} (on : m.engine.config.cache = true) (held : σ.held? k = some t) :
    Served m k σ (.ok t, σ)
  /-- The slot is given a new template. -/
  | new {t : Template} {σ' : Pool π} (unheld : m.engine.config.cache = true → σ.held? k = none)
    (compiled : m.compiledAt σ k = .ok t)
    (held : ∀ k', σ'.held? k' = if k' = k then some t else σ.held? k') :
    Served m k σ (.ok t, σ')
  /-- There is no template to be had. -/
  | fail {fault : Error} {σ' : Pool π}
    (unheld : m.engine.config.cache = true → σ.held? k = none)
    (compiled : m.compiledAt σ k = .error fault)
    (cache : σ'.cache = if m.engine.config.cache then σ.cache else (σ.evict k).cache) :
    Served m k σ (.error fault, σ')

/-- A slot is renewed on a store whose cache is that of the pool, the slot apart. -/
theorem Served.of_renew {s : Store}
    (hcompiled : m.engine.compiledAt s k = m.compiledAt σ k)
    (hcache : s.cache = if m.engine.config.cache then σ.cache else (σ.evict k).cache)
    (hunheld : m.engine.config.cache = true → σ.held? k = none)
    (hheld : ∀ k', k' ≠ k → s.held? k' = σ.held? k') :
    Served m k σ ((m.engine.renew k s).1, σ.put m.place (m.engine.renew k s).2) := by
  have hfst := m.engine.renew_fst s k
  have hr := m.engine.renewed k s
  rw [hcompiled] at hfst
  generalize m.engine.renew k s = out at hfst hr ⊢
  cases hr with
  | fail _ hkept _ => exact .fail hunheld hfst.symm (hkept.trans hcache)
  | new _ _ _ hnew _ _ =>
    refine .new hunheld hfst.symm fun k' => ?_
    rw [Pool.held?_put, hnew]
    split
    · rfl
    · exact hheld k' ‹_›

/-- **What a request for a slot comes to**, whoever makes it and whatever the pool is like. -/
theorem served (h : r.slot? = some k) : Served m k σ (m.serve r σ) := by
  rw [serve, Engine.serve_eq_obtain h, Engine.obtain]
  cases hcache : m.engine.config.cache with
  | true =>
    rw [if_pos rfl]
    cases hheld : (σ.store m.place).held? k with
    | some t =>
      dsimp only
      rw [Pool.put_store]
      exact .found hcache (by rwa [Pool.held?_store] at hheld)
    | none =>
      exact .of_renew (m.compiledAt_store σ k) (by simp [hcache, Pool.store])
        (fun _ => by rwa [Pool.held?_store] at hheld) fun k' _ => Pool.held?_store σ m.place k'
  | false =>
    rw [if_neg Bool.false_ne_true]
    refine .of_renew ?_ ?_ (fun hon => by simp [hcache] at hon) fun k' hk' => ?_
    · rw [Engine.compiledAt_evict, compiledAt_store]
    · simp [hcache, Pool.cache_evict_store]
    · rw [Store.held?_evict, if_neg hk', Pool.held?_store]

/-- A request for what is no slot is in vain, and changes nothing. -/
theorem serve_of_slot?_eq_none (h : r.slot? = none) :
    ∃ path, m.serve r σ = (.error (.notFound path), σ) := by
  obtain ⟨path, hpath⟩ := Engine.serve_of_slot?_eq_none (e := m.engine) h (σ.store m.place)
  refine ⟨path, ?_⟩
  rw [serve, hpath]
  simp

/-- What is held may be taken, and then nothing changes, nor is a source read. -/
theorem serve_of_held {t : Template} (h : r.slot? = some k)
    (hon : m.engine.config.cache = true) (hheld : σ.held? k = some t) :
    m.serve r σ = (.ok t, σ) := by
  have hserved := served (m := m) (σ := σ) h
  generalize m.serve r σ = out at hserved ⊢
  cases hserved with
  | found _ hfound =>
    rw [hheld] at hfound
    cases hfound
    rfl
  | new hunheld | fail hunheld =>
    have hnone := hunheld hon
    rw [hheld] at hnone
    cases hnone

/-- A template that was given is held afterwards. -/
theorem held?_of_serve {t : Template} (h : r.slot? = some k) (ht : (m.serve r σ).1 = .ok t) :
    (m.serve r σ).2.held? k = some t := by
  have hserved := served (m := m) (σ := σ) h
  generalize m.serve r σ = out at hserved ht ⊢
  cases hserved with
  | found _ hheld =>
    cases ht
    exact hheld
  | new _ _ hheld =>
    cases ht
    rw [hheld, if_pos rfl]
  | fail => cases ht

/-- Who takes nothing from the cache gets what belongs into the slot now. -/
theorem serve_fst_of_off (h : r.slot? = some k) (hoff : m.engine.config.cache = false) :
    (m.serve r σ).1 = m.compiledAt σ k := by
  have hserved := served (m := m) (σ := σ) h
  generalize m.serve r σ = out at hserved ⊢
  cases hserved with
  | found hon =>
    rw [hoff] at hon
    cases hon
  | new _ hcompiled | fail _ hcompiled => exact hcompiled.symm

/-- A request that fails stores nothing. It has emptied its slot before, unless what is held may
be taken. -/
theorem cache_of_fault {fault : Error} (hfault : (m.serve r σ).1 = .error fault) :
    (m.serve r σ).2.cache =
      if m.engine.config.cache then σ.cache else (r.slot?.elim σ σ.evict).cache := by
  cases hslot : r.slot? with
  | none =>
    obtain ⟨path, hpath⟩ := serve_of_slot?_eq_none (m := m) (σ := σ) hslot
    rw [hpath]
    simp
  | some k =>
    have hserved := served (m := m) (σ := σ) hslot
    generalize m.serve r σ = out at hserved hfault ⊢
    cases hserved with
    | found | new => cases hfault
    | fail _ _ hcache => exact hcache

end Member

/-! ### What is done to a pool -/

/-- What may be done to a pool: a member makes a request, a slot is emptied, or all are, or a
source is replaced. -/
inductive Move (π : Type) where
  | request (m : Member π) (r : Request)
  | evict (k : Slot)
  | clear
  | update (p : π) (source : Source)

/-- Whether a slot that holds a template is left alone: it is not emptied, and no member is asked
to fill it again. -/
def Move.Spares {π : Type} (k : Slot) : Move π → Prop
  | .request m r => m.engine.config.cache = true ∨ r.slot? ≠ some k
  | .evict k' => k' ≠ k
  | .clear => False
  | .update .. => True

namespace Pool

variable {π : Type} [DecidableEq π] {σ : Pool π} {k : Slot} {t : Template}

/-- The pool after something was done to it. -/
def move (σ : Pool π) : Move π → Pool π
  | .request m r => (m.serve r σ).2
  | .evict k => σ.evict k
  | .clear => { σ with cache := σ.cache.clear }
  | .update p source => { σ with source := Function.update σ.source p source }

/-- The pool after many things were done to it, one after the other. -/
def run (σ : Pool π) (moves : List (Move π)) : Pool π := moves.foldl move σ

theorem run_concat (σ : Pool π) (moves : List (Move π)) (x : Move π) :
    σ.run (moves ++ [x]) = (σ.run moves).move x := by
  simp [run]

/-- A slot that is spared keeps its template. -/
theorem held?_move_of_spares {x : Move π} (hx : x.Spares k) (h : σ.held? k = some t) :
    (σ.move x).held? k = some t := by
  cases x with
  | evict k' => rw [move, held?_evict, if_neg (Ne.symm hx), h]
  | clear => exact hx.elim
  | update p source => exact (congrFun (held?_congr rfl) k).trans h
  | request m r =>
    rw [move]
    cases hslot : r.slot? with
    | none =>
      obtain ⟨path, hpath⟩ := Member.serve_of_slot?_eq_none (m := m) (σ := σ) hslot
      rw [hpath]
      exact h
    | some k' =>
      by_cases hk : k' = k
      · -- the request is for this slot, so its template is taken
        subst hk
        have hon : m.engine.config.cache = true := hx.resolve_right (· hslot)
        rw [Member.serve_of_held hslot hon h]
        exact h
      · have hserved := Member.served (m := m) (σ := σ) hslot
        generalize m.serve r σ = out at hserved ⊢
        cases hserved with
        | found => exact h
        | new _ _ hheld => rw [hheld, if_neg (Ne.symm hk), h]
        | fail _ _ hcache => rw [held?_of_cache hcache, if_neg fun hempty => hk hempty.2.symm, h]

theorem held?_run_of_spares {moves : List (Move π)} (hmoves : ∀ x ∈ moves, x.Spares k)
    (h : σ.held? k = some t) : (σ.run moves).held? k = some t := by
  induction moves generalizing σ with
  | nil => exact h
  | cons x moves ih =>
    have hx := held?_move_of_spares (hmoves x List.mem_cons_self) h
    exact ih (fun y hy => hmoves y (List.mem_cons_of_mem x hy)) hx

/-- **A template that is held** was held before, in a slot that has been spared, or it has been
compiled for the slot just now. -/
theorem held?_move {x : Move π} (h : (σ.move x).held? k = some t) :
    (σ.held? k = some t ∧ x.Spares k) ∨
      ∃ m r, x = .request m r ∧ r.slot? = some k ∧ m.compiledAt σ k = .ok t ∧
        (m.serve r σ).1 = .ok t := by
  cases x with
  | evict k' =>
    rw [move, held?_evict] at h
    split at h
    next => cases h
    next hk => exact .inl ⟨h, Ne.symm hk⟩
  | clear => cases k <;> cases h
  | update p source => exact .inl ⟨(congrFun (held?_congr rfl) k).trans h, trivial⟩
  | request m r =>
    rw [move] at h
    cases hslot : r.slot? with
    | none =>
      obtain ⟨path, hpath⟩ := Member.serve_of_slot?_eq_none (m := m) (σ := σ) hslot
      rw [hpath] at h
      exact .inl ⟨h, .inr (by simp [hslot])⟩
    | some k' =>
      have hother : k' ≠ k → (Move.request m r).Spares k := fun hk => .inr (by simpa [hslot])
      have hserved := Member.served (m := m) (σ := σ) hslot
      generalize hout : m.serve r σ = out at hserved h
      cases hserved with
      | found hon _ => exact .inl ⟨h, .inl hon⟩
      | new _ hcompiled hheld =>
        rw [hheld] at h
        split at h
        next hk =>
          cases h
          exact .inr ⟨m, r, rfl, by rw [hslot, hk], hk ▸ hcompiled, by rw [hout]⟩
        next hk => exact .inl ⟨h, hother (Ne.symm hk)⟩
      | fail _ _ hcache =>
        rw [held?_of_cache hcache] at h
        split at h
        next => cases h
        next hempty =>
          refine .inl ⟨h, ?_⟩
          cases hon : m.engine.config.cache with
          | true => exact .inl hon
          | false => exact hother fun hk => hempty ⟨hon, hk.symm⟩

/-! ### Where templates come from -/

/-- How a slot came to hold a template in the course of some moves: a member, asked for the slot,
has compiled the text that belonged there at that time, and the moves since then have spared the
slot. -/
def Stems (start : Pool π) (moves : List (Move π)) (k : Slot) (t : Template) : Prop :=
  ∃ (before : List (Move π)) (m : Member π) (r : Request) (after : List (Move π)) (text : String),
    moves = before ++ .request m r :: after ∧ r.slot? = some k ∧
    m.textAt (start.run before) k = .ok text ∧
    m.compile text k (start.run before) = .ok t ∧ t.name = k.name ∧
    (m.serve r (start.run before)).1 = .ok t ∧ ∀ x ∈ after, x.Spares k

/-- All that a new pool holds after some moves stems from them. -/
theorem stems_of_held {source : π → Source} {moves : List (Move π)}
    (h : (({ source } : Pool π).run moves).held? k = some t) :
    Stems { source } moves k t := by
  induction moves using List.reverseRecOn generalizing t with
  | nil => cases k <;> cases h
  | append_singleton moves x ih =>
    rw [run_concat] at h
    obtain ⟨hold, hspared⟩ | ⟨m, r, rfl, hslot, hcompiled, hserved⟩ := held?_move h
    · obtain ⟨before, m, r, after, text, rfl, hslot, htext, ht, hname, hserved, hafter⟩ := ih hold
      refine ⟨before, m, r, after ++ [x], text, by simp, hslot, htext, ht, hname, hserved, ?_⟩
      intro y hy
      obtain hy | rfl := List.mem_append.mp hy |>.imp_right List.mem_singleton.mp
      · exact hafter y hy
      · exact hspared
    · obtain ⟨text, htext, ht, hname⟩ := Member.compile_of_compiledAt hcompiled
      exact ⟨moves, m, r, [], text, by simp, hslot, htext, ht, hname, hserved, by simp⟩

/-- **A shared cache only remembers.** Whatever has been done to a new pool, each template that it
holds was compiled by a member from the text that belonged into the slot, and the slot has been
spared ever since. What is held is given to each member that may take it, and nothing changes; so
what one request for a slot was answered with is the answer to the next one, if the slot is spared
between them. Who takes nothing from the cache gets what its source gives now. A request that fails
stores nothing, and empties no slot but its own. -/
theorem cache_remembers (source : π → Source) (moves : List (Move π)) :
    (∀ k t, (({ source } : Pool π).run moves).held? k = some t → Stems { source } moves k t) ∧
    (∀ (σ : Pool π) (m : Member π) (r : Request) k t, r.slot? = some k →
      m.engine.config.cache = true → σ.held? k = some t → m.serve r σ = (.ok t, σ)) ∧
    (∀ (σ : Pool π) (m m' : Member π) (r r' : Request) k t (between : List (Move π)),
      r.slot? = some k → r'.slot? = some k → m'.engine.config.cache = true →
      (m.serve r σ).1 = .ok t → (∀ x ∈ between, x.Spares k) →
      m'.serve r' ((m.serve r σ).2.run between) = (.ok t, (m.serve r σ).2.run between)) ∧
    (∀ (σ : Pool π) (m : Member π) (r : Request) k, r.slot? = some k →
      m.engine.config.cache = false →
      (m.serve r σ).1 = do m.compile (← m.textAt σ k) k σ) ∧
    (∀ (σ : Pool π) (m : Member π) r fault, (m.serve r σ).1 = .error fault →
      (m.serve r σ).2.cache =
        if m.engine.config.cache then σ.cache else (r.slot?.elim σ σ.evict).cache) := by
  refine ⟨fun k t => stems_of_held, fun σ m r k t => Member.serve_of_held, ?_,
    fun σ m r k => Member.serve_fst_of_off, fun σ m r fault => Member.cache_of_fault⟩
  intro σ m m' r r' k t between hslot hslot' hon hserved hspared
  have hheld := Member.held?_of_serve hslot hserved
  exact Member.serve_of_held hslot' hon (held?_run_of_spares hspared hheld)

/-! ### Two engines with one cache -/

/-- The sources of two engines, with two texts of one name. -/
def twoSources : Bool → Source
  | true => .ofTemplates [("page", "{{ 1 + 1 }}")]
  | false => .ofTemplates [("page", "other"), ("open", "{% if x %}")]

/-- The engine that has the source at a place, and may or may not take templates from the cache. -/
def sharer (cache place : Bool) : Member Bool where
  engine := { config := { cache } }
  place := place

/-- The first engine fetches the page, and then its source loses it. -/
def fetchedOnce : List (Move Bool) :=
  [.request (sharer true true) (.fetch "page"), .update true .empty]

/-- The page of the first engine is there for the second one, under another path with the same
contained form; only an engine that takes nothing from the cache gets the second text. What cannot
be compiled is not stored. -/
theorem cache_remembers_twoSources :
    ∃ t, let σ := ({ source := twoSources } : Pool Bool).run fetchedOnce
      Stems { source := twoSources } fetchedOnce (.path "page") t ∧
      (sharer true false).serve (.fetch "./page") σ = (.ok t, σ) ∧
      ((sharer false false).serve (.fetch "page") σ).1 =
        (sharer false false).compile "other" (.path "page") σ ∧
      ((sharer true false).serve (.fetch "open") σ).2.cache = σ.cache := by
  obtain ⟨hstems, hfound, -, hoff, hfault⟩ := cache_remembers twoSources fetchedOnce
  have hpage : ((({ source := twoSources } : Pool Bool).run fetchedOnce).held?
      (.path "page")).isSome = true := by decide +kernel
  obtain ⟨t, ht⟩ := Option.isSome_iff_exists.mp hpage
  refine ⟨t, hstems _ t ht, hfound _ _ _ (.path "page") t (by decide +kernel) rfl ht, ?_, ?_⟩
  · have htext : (sharer false false).textAt
        (({ source := twoSources } : Pool Bool).run fetchedOnce) (.path "page") = .ok "other" := by
      decide +kernel
    rw [hoff _ _ _ (.path "page") (by decide +kernel) rfl, htext]
    rfl
  · have hopen : ((sharer true false).serve (.fetch "open")
        (({ source := twoSources } : Pool Bool).run fetchedOnce)).1.toOption.isNone = true := by
      decide +kernel
    cases hserved : ((sharer true false).serve (.fetch "open")
        (({ source := twoSources } : Pool Bool).run fetchedOnce)).1 with
    | ok t' =>
      rw [hserved] at hopen
      cases hopen
    | error fault => exact hfault _ _ _ fault hserved

end Pool

end Stencil
