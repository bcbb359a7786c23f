import Stencil.Proofs.Engine.Slots

/-!
# What is loaded

Every template that an engine comes upon is one that it holds or one that it compiles. So
what holds of all programs that it compiles (`Engine.Compiles`) and of all that its store
holds (`Store.All`) holds of whatever it fetches, and of what the store holds afterwards.
Nor does fetching fail as a render does: it is a matter of sources and of texts.
-/

namespace Stencil

/-- Whether something holds of all programs that a store holds. -/
def Store.All (p : Program → Prop) (s : Store) : Prop :=
  ∀ k t, s.held? k = some t → p t.program

/-- Whether something holds of all programs that an engine compiles. -/
def Engine.Compiles (e : Engine) (p : Program → Prop) : Prop :=
  ∀ text name program, e.programOf text name = .ok program → p program

/-- Whether something went wrong in a render. -/
def Error.IsRender (fault : Error) : Prop :=
  ∃ f, fault = .render f

/-- A store that has kept nothing. -/
theorem Store.all_fresh (p : Program → Prop) (source : Source) : Store.All p { source } := by
  intro k t h
  cases k <;> cases h

/-! ### Failures -/

theorem FileSource.read_fails {s : FileSource} {path : String} {useKept : Bool} {fault : Error}
    (h : (s.read path useKept).1 = .error fault) : ¬ fault.IsRender := by
  have hfile : ∀ place fault, s.readFile place = .error fault → ¬ fault.IsRender := by
    intro place fault h
    rw [readFile] at h
    split at h <;> cases h
    · rintro ⟨_, ⟨⟩⟩
    · rintro ⟨_, ⟨⟩⟩
  rw [read] at h
  split at h
  · cases h
    rintro ⟨_, ⟨⟩⟩
  · split at h
    · cases h
    · split at h
      next hread =>
        cases h
        exact hfile _ _ hread
      next => cases h

/-- Reading a template does not fail as a render does. -/
theorem Source.read_fails {s : Source} {path : String} {useKept : Bool} {fault : Error}
    (h : (s.read path useKept).1 = .error fault) : ¬ fault.IsRender := by
  have hfound : ∀ o, foundAt path o = .error fault → ¬ fault.IsRender := by
    intro o ho
    cases o with
    | some text => cases ho
    | none =>
      cases ho
      rintro ⟨_, ⟨⟩⟩
  cases s with
  | memory templates => exact hfound _ h
  | files s => exact FileSource.read_fails h
  | assets s => exact hfound _ h
  | host lookup => exact hfound _ h

/-- Nor does the scanning of its text. -/
theorem Piece.scan_fails {source : String} {fault : Error}
    (h : Piece.scan source = .error fault) : ¬ fault.IsRender := by
  rw [Piece.scan] at h
  split at h <;> cases h
  rintro ⟨_, ⟨⟩⟩

namespace Engine

variable {e : Engine} {p : Program → Prop}

/-- A program that an engine compiles is read from pieces, and nothing is wrong with it. -/
theorem ofPieces_of_programOf {text name : String} {program : Program}
    (h : e.programOf text name = .ok program) :
    ∃ pieces, Program.ofPieces e.language.tags pieces = .ok program ∧ program.fault? = none := by
  rw [programOf, compile, Draft.compile] at h
  cases hscan : Piece.scan text with
  | error f =>
    rw [hscan] at h
    cases h
  | ok pieces =>
    rw [hscan] at h
    simp only [bind, Except.bind] at h
    cases hprogram : Program.ofPieces e.language.tags pieces with
    | error f =>
      rw [hprogram] at h
      cases h
    | ok program' =>
      rw [hprogram] at h
      simp only [pure, Except.pure, Draft.load] at h
      split at h
      next => cases h
      next hfault =>
        cases h
        exact ⟨pieces, hprogram, hfault⟩

theorem programOf_fails {text name : String} {fault : Error}
    (h : e.programOf text name = .error fault) : ¬ fault.IsRender := by
  rw [programOf, compile, Draft.compile] at h
  cases hscan : Piece.scan text with
  | error f =>
    rw [hscan] at h
    cases h
    exact Piece.scan_fails hscan
  | ok pieces =>
    rw [hscan] at h
    simp only [bind, Except.bind] at h
    cases hprogram : Program.ofPieces e.language.tags pieces with
    | error f =>
      rw [hprogram] at h
      cases h
      rintro ⟨_, ⟨⟩⟩
    | ok program =>
      rw [hprogram] at h
      simp only [pure, Except.pure, Draft.load] at h
      split at h <;> cases h
      rintro ⟨_, ⟨⟩⟩

/-- What does not come into a slot does not fail as a render does. -/
theorem supply_fails {s : Store} {k : Slot} {fault : Error} (h : e.supply s k = .error fault) :
    ¬ fault.IsRender := by
  cases k with
  | text text => exact programOf_fails h
  | path key =>
    rw [supply, contentAt] at h
    cases hread : (s.source.read key e.config.cache).1 with
    | error f =>
      rw [hread] at h
      cases h
      exact Source.read_fails hread
    | ok text =>
      rw [hread] at h
      exact programOf_fails h

/-- What comes into a slot is compiled. -/
theorem Compiles.supply (h : e.Compiles p) {s : Store} {k : Slot} {program : Program}
    (hk : e.supply s k = .ok program) : p program := by
  cases k with
  | text text => exact h text inlineName program hk
  | path key =>
    rw [Engine.supply, contentAt] at hk
    cases hread : (s.source.read key e.config.cache).1 with
    | error f =>
      rw [hread] at hk
      cases hk
    | ok text =>
      rw [hread] at hk
      exact h text key program hk

/-! ### Fetching -/

/-- What fetching comes to where something holds of all programs. -/
structure Fetched (p : Program → Prop) (r : Except Error Template × Store) : Prop where
  store : r.2.All p
  give (t : Template) (h : r.1 = .ok t) : p t.program
  fail (fault : Error) (h : r.1 = .error fault) : ¬ fault.IsRender

theorem Renewed.fetched {s : Store} {k : Slot} {r : Except Error Template × Store}
    (hr : Renewed e k s r) (h : e.Compiles p) (hs : s.All p) : Fetched p r := by
  cases hr with
  | fail supplied cache same =>
    refine ⟨fun k' t hk' => hs k' t ?_, fun t ht => ?_, ?_⟩
    · cases k' <;> simpa [Store.held?, cache] using hk'
    · cases ht
    · rintro _ ⟨⟩
      exact supply_fails supplied
  | new supplied name id held next same =>
    have hnew := h.supply supplied
    refine ⟨fun k' t hk' => ?_, ?_, fun fault hfault => ?_⟩
    · rw [held] at hk'
      split at hk'
      · cases hk'
        exact hnew
      · exact hs k' t hk'
    · rintro _ ⟨⟩
      exact hnew
    · cases hfault

/-- **Whatever is obtained is one of the programs of which something holds**, if all that is
held and all that is compiled are. -/
theorem Compiles.obtain (h : e.Compiles p) {s : Store} (hs : s.All p) (k : Slot) :
    Fetched p (e.obtain k s) := by
  rw [Engine.obtain]
  split
  · split
    next t ht =>
      refine ⟨hs, ?_, fun fault hfault => ?_⟩
      · rintro _ ⟨⟩
        exact hs k t ht
      · cases hfault
    next => exact (e.renewed k s).fetched h hs
  · refine (e.renewed k _).fetched h fun k' t hk' => hs k' t ?_
    rw [Store.held?_evict] at hk'
    split at hk'
    · cases hk'
    · exact hk'

/-- A path gives such a program as well. -/
theorem Compiles.fetch (h : e.Compiles p) {s : Store} (hs : s.All p) (path : String) :
    Fetched p (e.fetch path s) := by
  cases hpath : Path.contained? path with
  | some key =>
    rw [fetch_eq_obtain hpath]
    exact h.obtain hs (.path key)
  | none =>
    rw [Engine.fetch, hpath]
    refine ⟨hs, fun t ht => ?_, ?_⟩
    · cases ht
    · rintro _ ⟨⟩ ⟨_, ⟨⟩⟩

end Engine

end Stencil
