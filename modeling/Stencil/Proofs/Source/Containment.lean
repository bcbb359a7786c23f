import Stencil.Proofs.Engine.Fetching
import Stencil.Proofs.Source.Path

/-!
# Sources and contained paths

An engine hands the contained form of a name to its source, and the source brings it into a form of
its own: files are looked up under the contained form again, templates in memory under the normal
one. For a name that is contained all of these are one path (`Path.contained_exactly`). So nothing
but paths of ordinary segments is ever read below the root of a file source
(`FileSource.read_congr`), and what was put into memory is found under every name that comes to the
same normal path (`Source.read_ofTemplates`).
-/

namespace Stencil

/-! ### Files -/

/-- **What is below the root is all that a file source reads:** two trees in which the paths of
ordinary segments hold the same are the same to it. -/
theorem FileSource.read_congr (s : FileSource) {tree : FileTree} (path : String) (useKept : Bool)
    (h : ∀ kept, (∀ g ∈ kept, Path.isOrdinary g) →
      tree.read (Path.join s.root (Path.ofSegments kept)) =
        s.tree.read (Path.join s.root (Path.ofSegments kept))) :
    ({ s with tree }.read path useKept).1 = (s.read path useKept).1 ∧
      ({ s with tree }.read path useKept).2.kept = (s.read path useKept).2.kept := by
  rw [FileSource.read, FileSource.read]
  rcases hpath : Path.contained? path with _ | key
  · exact ⟨rfl, rfl⟩
  obtain ⟨kept, -, hkept, rfl, -⟩ := Path.eq_of_contained?_eq_some hpath
  have hfile : { s with tree }.readFile (Path.join s.root (Path.ofSegments kept)) =
      s.readFile (Path.join s.root (Path.ofSegments kept)) := by
    rw [FileSource.readFile, FileSource.readFile, h kept fun g hg => (hkept g hg).2]
  dsimp only
  rw [hfile]
  split
  · exact ⟨rfl, rfl⟩
  · split
    · exact ⟨rfl, rfl⟩
    · refine ⟨rfl, ?_⟩
      cases useKept <;> rfl

/-! ### Memory -/

namespace Source

/-- Templates come into memory under their normal paths. -/
theorem ofTemplates_eq (templates : List (String × String)) :
    ofTemplates templates =
      memory (Table.ofEntries (templates.map fun t => (Path.normalize t.1, t.2))) := by
  induction templates using List.reverseRecOn with
  | nil => rfl
  | append_singleton templates t ih =>
    rw [List.map_append, List.map_singleton, Table.ofEntries_concat, ofTemplates,
      List.foldl_append, ← ofTemplates, ih]
    rfl

/-- A template is read under every path with its normal form, until another one comes in under
that form. -/
theorem read_ofTemplates {before after : List (String × String)} {name text : String}
    (hafter : ∀ t ∈ after, Path.normalize t.1 ≠ Path.normalize name) {path : String}
    (hpath : Path.normalize path = Path.normalize name) (useKept : Bool) :
    ((ofTemplates (before ++ (name, text) :: after)).read path useKept).1 = .ok text := by
  have hfind : Table.find? (Path.normalize path) (Table.ofEntries
      ((before ++ (name, text) :: after).map fun t => (Path.normalize t.1, t.2))) = some text := by
    rw [hpath, List.map_append, List.map_cons]
    refine Table.find?_ofEntries_last fun e he => ?_
    obtain ⟨t, ht, rfl⟩ := List.mem_map.mp he
    exact hafter t ht
  rw [ofTemplates_eq, read, hfind]
  rfl

end Source

/-! ### Contained paths -/

namespace Path

/-- **Contained paths never leave the root, and both ways to bring a path into form agree on
them.** A path is not contained if it begins at the top, names a drive, or has a beginning with more
`..` than ordinary segments. Otherwise its contained form consists of the segments that are left
when everything is cancelled, all of them ordinary, and is its normal form and that of itself. A
file source reads nothing but such paths below its root; an engine finds the template that came into
memory last under the contained form. -/
theorem contained_exactly (path : String) :
    (contained? path = none ↔ isAbsolute path ∨ namesDrive path ∨
      ∃ start, start <+: segments path ∧ start.countP isOrdinary < start.count ['.', '.']) ∧
    (∀ q, contained? path = some q →
      (∃ kept, (∀ left, Cancels (segments path) left ∧ (∀ s ∈ left, isOrdinary s) ↔ left = kept) ∧
        (q ≠ "" → segments q = kept) ∧ q = ofSegments kept) ∧
      normalize path = q ∧ normalize q = q) ∧
    (∀ (s : FileSource) (tree : FileTree) (useKept : Bool),
      (∀ kept, (∀ g ∈ kept, isOrdinary g) →
        tree.read (join s.root (ofSegments kept)) = s.tree.read (join s.root (ofSegments kept))) →
      ({ s with tree }.read path useKept).1 = (s.read path useKept).1 ∧
        ({ s with tree }.read path useKept).2.kept = (s.read path useKept).2.kept) ∧
    ∀ (e : Engine) (s : Store) (before after : List (String × String)) (name text : String),
      s.source = .ofTemplates (before ++ (name, text) :: after) →
      (∀ t ∈ after, normalize t.1 ≠ normalize name) → e.Honest s →
      contained? path = some (normalize name) →
      (e.fetch path s).1.map Template.program = e.programOf text (normalize name) := by
  refine ⟨?_, fun q hq => ?_, fun s tree useKept h => s.read_congr path useKept h, ?_⟩
  · simpa only [Climbs, Nat.zero_add] using contained?_eq_none_iff
  · obtain ⟨kept, hcancels, hkept, rfl, hnormal⟩ := eq_of_contained?_eq_some hq
    refine ⟨⟨kept, fun left => ⟨fun hleft => ?_, ?_⟩, fun hne => ?_, rfl⟩, hnormal,
      normalize_ofSegments hkept⟩
    · have hsame := (cancel?_eq_some_iff.mpr hleft).symm.trans
        (cancel?_eq_some_iff.mpr ⟨hcancels, fun s hs => (hkept s hs).2⟩)
      exact List.reverse_injective (Option.some_inj.mp hsame)
    · rintro rfl
      exact ⟨hcancels, fun s hs => (hkept s hs).2⟩
    · refine segments_ofSegments (fun hnil => hne ?_) fun s hs => (hkept s hs).1
      rw [hnil]
      rfl
  · intro e s before after name text hsource hafter hhonest hpath
    obtain ⟨kept, -, hkept, hq, -⟩ := eq_of_contained?_eq_some hpath
    have hnormal : normalize (normalize name) = normalize name := by
      rw [hq, normalize_ofSegments hkept]
    rw [(hhonest.fetch path).1, Engine.content, hpath]
    dsimp only
    rw [Engine.contentAt, hsource, Source.read_ofTemplates hafter hnormal]
    rfl

/-- A template is found by way of another directory. -/
theorem contained_exactly_detour :
    contained? "pages/../nav" = some (normalize "./nav") ∧
      normalize "pages/../nav" = normalize "./nav" ∧
      (({} : Engine).fetch "pages/../nav"
          { source := .ofTemplates [("./nav", "here")] }).1.map Template.program =
        ({} : Engine).programOf "here" (normalize "./nav") := by
  have hpath : contained? "pages/../nav" = some (normalize "./nav") := by decide
  obtain ⟨-, hform, -, hmemory⟩ := contained_exactly "pages/../nav"
  exact ⟨hpath, (hform _ hpath).2.1, hmemory {} _ [] [] "./nav" "here" rfl
    (List.forall_mem_nil _) (Engine.Honest.fresh _ _) hpath⟩

end Path

end Stencil
