import Stencil.Language

/-!
# Extensions

An **extension** adds one thing to a language. The ones here show each kind of addition: a
tag that transforms its body and the terminator for it, a tag that stands for a text, a
filter, functions, and replacements of built-in things.
-/

namespace Stencil

/-- An addition to a language. -/
inductive Extension where
  /-- The tag `upper`, whose body ends with `endupper`. -/
  | upper
  /-- The terminator `endupper`. -/
  | endUpper
  /-- The tag `include` replaced by a fixed text. -/
  | stub
  /-- The function `bucket`. -/
  | bucket
  /-- The filter `shout`. -/
  | shout
  /-- A function of the name `parent`, which counts its arguments. -/
  | parent
  /-- The filter `default` replaced by one that names the type of its input. -/
  | default
  deriving DecidableEq, Repr

namespace Extension

/-- The extension of a name. -/
def ofName? : String → Option Extension
  | "upper" => some upper
  | "endupper" => some endUpper
  | "stub" => some stub
  | "bucket" => some bucket
  | "shout" => some shout
  | "parent" => some parent
  | "default" => some default
  | _ => none

/-- Sorts a fixed number into one of as many buckets as the first argument says. The
buckets count from one. -/
def chooseBucket : Function := fun args =>
  match args.head?.bind Value.toInt? with
  | some count =>
    if 0 < count.toInt then .ok (Value.ofNat (15343 % count.toInt.toNat + 1))
    else .error (.render (.custom "bucket expects a positive count"))
  | none => .error (.render (.custom "bucket expects a positive count"))

/-- The text of a value, an exclamation mark and the number of arguments. -/
def shoutText : Filter := fun v args =>
  .ok (.str (v.display ++ "!" ++ toString args.length))

/-- Adds the extension to a language. -/
def addTo (l : Language) : Extension → Language
  | upper => l.withTag "upper" (.transform .upper "endupper")
  | endUpper => l.withTag "endupper" .terminator
  | stub => l.withTag "include" (.constant "[include]")
  | bucket => l.withFunction "bucket" chooseBucket
  | shout => l.withFilter "shout" shoutText
  | parent => l.withFunction "parent" fun args => .ok (Value.ofNat args.length)
  | default => l.withFilter "default" fun v _ => .ok (.str v.typeName)

end Extension

/-- The built-in language with some extensions, added in their order. -/
def Language.ofExtensions (extensions : List Extension) : Language :=
  extensions.foldl Extension.addTo {}

end Stencil
