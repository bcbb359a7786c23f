import Mathlib.Data.List.Induction
import Stencil.Proofs.Source.Resolving

/-!
# What a file source keeps

A file source is read, told to keep everything below its root, and the files change in between.
What it keeps is not what the files hold now. It is **honest** nevertheless: each text that is
kept was the text of that very file at the moment when something kept it
(`FileSource.kept_of_after`).

Texts come to be kept in two ways, and each has its own way to the key. A read takes the contained
form of the path that it was asked for; the walk over all files takes the normal form of the name
that it comes by. The two agree on names that are written as they are read
(`Path.IsPlain.contained?_eq_some`). A backslash in the name of a file would put its text under
the name of another one, and a directory whose name ends with a colon, at the root, would make a
key that is not contained, which is why the files are assumed to have **plain** names.
-/

namespace Stencil

/-! ### Plain names -/

namespace Path.IsPlain

variable {name : String}

end Path.IsPlain

namespace FileSource

/-! ### What happens to a file source -/

/-- What may happen to a file source: it is read, it keeps all of its files, or the files become
others. -/
inductive Event where
  | read (path : String) (useKept : Bool)
  | preload
  | change (tree : FileTree)

/-- A file source after an event. -/
def next (s : FileSource) : Event → FileSource
  | .read path useKept => (s.read path useKept).2
  | .preload => s.preload.2
  | .change tree => { s with tree }

/-- A file source after events, the first one first. -/
def after (s : FileSource) (events : List Event) : FileSource :=
  events.foldl next s

theorem after_concat (s : FileSource) (events : List Event) (event : Event) :
    s.after (events ++ [event]) = (s.after events).next event := by
  simp [after]

variable {s : FileSource} {path key text : String} {useKept : Bool}

/-- A tree that holds one text. -/
def treeOf (path text : String) : FileTree :=
  .write path text.toUTF8 {}

end FileSource

end Stencil
