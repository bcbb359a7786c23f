import Stencil.Engine.Basic
import Stencil.Proofs.Table

/-!
# Fetching from a source that does not change

A source answers every read of a path alike, whatever was read before: what it keeps is
what it would read again (`Source.read_after`). So a store has a **content**, the program
that it holds under each path, and it is **honest** if its cache agrees with it. An honest
store gives its content whenever something is fetched, and stays honest with the same
content (`Engine.Honest.fetch`). Which templates are in the cache already, and under which
identities, is then of no account to the programs.
-/

namespace Stencil

/-! ### Sources -/

/-- A text that is kept under one key leaves what is read under the others alone. -/
theorem FileSource.readFile_keep (key text path : String) (s : FileSource) :
    (s.keep key text).readFile path = s.readFile path := rfl

/-- What a file source reads does not depend on what it has read before. -/
theorem FileSource.read_after (path path' : String) (useKept : Bool) (s : FileSource) :
    ((s.read path useKept).2.read path' useKept).1 = (s.read path' useKept).1 := by
  rcases hpath : Path.contained? path with _ | key
  · simp [read, hpath]
  cases useKept with
  | false =>
    simp only [read, hpath]
    cases s.readFile (Path.join s.root key) <;> rfl
  | true =>
    rcases hkept : Table.find? key s.kept with _ | text
    · rcases hfile : s.readFile (Path.join s.root key) with fault | text
      · simp [read, hpath, hkept, hfile]
      -- the text is kept now, and the file would give it again
      rcases hpath' : Path.contained? path' with _ | key'
      · simp [read, hpath, hkept, hfile, hpath', keep]
      by_cases hkey : key' = key
      · subst hkey
        simp [read, hpath, hkept, hfile, hpath', keep, Table.find?_insert]
      · simp only [read, hpath, hkept, hfile, hpath', keep, Table.find?_insert, hkey, if_true,
          if_false]
        cases Table.find? key' s.kept with
        | some text' => rfl
        | none =>
          rw [← keep, readFile_keep]
          cases s.readFile (Path.join s.root key') <;> rfl
    · simp [read, hpath, hkept]

/-- What a source reads does not depend on what it has read before. -/
theorem Source.read_after (path path' : String) (useKept : Bool) (s : Source) :
    ((s.read path useKept).2.read path' useKept).1 = (s.read path' useKept).1 := by
  cases s with
  | memory templates => rfl
  | assets s => rfl
  | host lookup => rfl
  | files s => exact FileSource.read_after path path' useKept s

/-! ### What a store holds -/

namespace Engine

/-- The program of a text. -/
def programOf (e : Engine) (text name : String) : Except Error Program :=
  (e.compile text name 0).map Template.program

/-- The identity of a template is not compiled into it. -/
theorem map_program_compile (e : Engine) (text name : String) (id : Nat) :
    (e.compile text name id).map Template.program = e.programOf text name := by
  rw [programOf, compile, compile]
  cases Draft.compile e.language.tags text name with
  | error fault => rfl
  | ok d =>
    simp only [bind, Except.bind, Draft.load]
    split <;> rfl

/-- The program that stands in the source under a key. -/
def contentAt (e : Engine) (s : Store) (key : String) : Except Error Program := do
  e.programOf (← (s.source.read key e.config.cache).1) key

/-- The program that stands in the source under a path. -/
def content (e : Engine) (s : Store) (path : String) : Except Error Program :=
  match Path.contained? path with
  | none => .error (.notFound path)
  | some key => e.contentAt s key

/-- Whether what may be taken from the cache is what stands in the source. -/
def Honest (e : Engine) (s : Store) : Prop :=
  e.config.cache → ∀ key t, s.cache.findPath? key = some t → e.contentAt s key = .ok t.program

/-- A store that has kept nothing is honest. -/
theorem Honest.fresh (e : Engine) (source : Source) : e.Honest { source } := by
  intro _ key t h
  cases h

/-! ### Fetching -/

/-- The content is told by what the source reads. -/
theorem contentAt_of_source {e : Engine} {s s' : Store} {key : String}
    (h : s'.source = (s.source.read key e.config.cache).2) : e.contentAt s' = e.contentAt s := by
  funext key'
  rw [contentAt, contentAt, h, Source.read_after]

theorem refetch_source (e : Engine) (key : String) (s : Store) :
    (e.refetch key s).2.source = (s.source.read key e.config.cache).2 := by
  rw [refetch]
  rcases hread : s.read key e.config.cache with ⟨fault | text, s'⟩
  · exact (congrArg (fun r => r.2.source) hread).symm
  · have hsource : s'.source = (s.source.read key e.config.cache).2 :=
      (congrArg (fun r => r.2.source) hread).symm
    dsimp only
    split
    · exact hsource
    · exact hsource

theorem refetch_program (e : Engine) (key : String) (s : Store) :
    (e.refetch key s).1.map Template.program = e.contentAt s key := by
  have hread : (s.read key e.config.cache).1 = (s.source.read key e.config.cache).1 := rfl
  rw [refetch, contentAt, ← hread]
  rcases s.read key e.config.cache with ⟨fault | text, s'⟩
  · rfl
  · have hcompile := e.map_program_compile text key s'.cache.nextId
    dsimp only
    split
    next fault hfault =>
      rw [hfault] at hcompile
      exact hcompile
    next t ht =>
      rw [ht] at hcompile
      exact hcompile

/-- A new template is held under its key, next to what was held before. -/
theorem refetch_findPath? (e : Engine) (key key' : String) (s : Store) {t : Template}
    (h : (e.refetch key s).2.cache.findPath? key' = some t) :
    (key' = key ∧ (e.refetch key s).1 = .ok t) ∨ s.cache.findPath? key' = some t := by
  rw [refetch] at h ⊢
  rcases hread : s.read key e.config.cache with ⟨fault | text, s'⟩
  · rw [hread] at h
    have hcache : s'.cache = s.cache := (congrArg (fun r => r.2.cache) hread).symm
    exact .inr (hcache ▸ h)
  · rw [hread] at h
    have hcache : s'.cache = s.cache := (congrArg (fun r => r.2.cache) hread).symm
    dsimp only at h ⊢
    rw [← hcache]
    split at h
    next => exact .inr h
    next t' ht =>
      rw [Cache.findPath?, Cache.insertPath, Table.find?_insert] at h
      by_cases hkey : key' = key
      · rw [if_pos hkey] at h
        cases h
        exact .inl ⟨hkey, rfl⟩
      · rw [if_neg hkey] at h
        exact .inr h

/-- A new template is what stands in the source. The store stays honest with it. -/
theorem Honest.refetch {e : Engine} {s : Store} (h : e.Honest s) (key : String) :
    e.Honest (e.refetch key s).2 := by
  intro hcache key' t hfind
  rw [contentAt_of_source (e.refetch_source key s)]
  rcases e.refetch_findPath? key key' s hfind with ⟨rfl, ht⟩ | hold
  · rw [← e.refetch_program, ht]
    rfl
  · exact h hcache key' t hold

/-- The content by paths is the content by keys. -/
theorem content_congr {e : Engine} {s s' : Store} (h : e.contentAt s' = e.contentAt s) :
    e.content s' = e.content s := by
  funext path
  rw [content, content, h]

/-- **Fetching from an honest store** gives what stands in the source, and leaves the store
honest with the same content. -/
theorem Honest.fetch {e : Engine} {s : Store} (h : e.Honest s) (path : String) :
    (e.fetch path s).1.map Template.program = e.content s path ∧
      e.content (e.fetch path s).2 = e.content s ∧ e.Honest (e.fetch path s).2 := by
  rw [Engine.fetch, content]
  cases Path.contained? path with
  | none => exact ⟨rfl, rfl, h⟩
  | some key =>
    dsimp only
    cases hcache : e.config.cache with
    | true =>
      rw [if_pos rfl]
      cases hfind : s.cache.findPath? key with
      | some t => exact ⟨(h hcache key t hfind).symm, rfl, h⟩
      | none =>
        exact ⟨e.refetch_program key s,
          content_congr (contentAt_of_source (e.refetch_source key s)), h.refetch key⟩
    | false =>
      rw [if_neg Bool.false_ne_true]
      -- without a cache there is nothing to be honest about
      have hevict : e.Honest { s with cache := s.cache.evictPath key } := by
        intro hcache'
        rw [hcache] at hcache'
        cases hcache'
      exact ⟨e.refetch_program key _,
        content_congr (contentAt_of_source (e.refetch_source key _)), hevict.refetch key⟩

end Engine

end Stencil
