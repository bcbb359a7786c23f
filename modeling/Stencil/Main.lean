import Stencil.CommandLine

/-!
# The program

Reads the files that the arguments name and runs the command line on them.
-/

namespace Stencil.CommandLine

/-- The leading parts of a path, from the shortest on. -/
def leadingParts (path : String) : List String :=
  let segments := FileTree.segments path
  (List.range segments.length).map fun n => Text.join "/" (segments.take (n + 1))

/-- Adds what is found at a path and below it. What cannot be read is left out. -/
partial def addFound (tree : FileTree) (path : String) : IO FileTree := do
  try
    let bytes ← IO.FS.readBinFile path
    return tree.write path bytes
  catch _ =>
    let here ← IO.currentDir
    let mut tree := tree
    try
      for entry in ← (here / path).readDir do
        tree ← addFound (tree.addDirectory path) (Path.join path entry.fileName)
    catch _ => pure ()
    return tree

/-- Adds the directories that a path leads through. -/
def addLeading (tree : FileTree) (path : String) : IO FileTree := do
  let here ← IO.currentDir
  (leadingParts path).foldlM (fun (tree : FileTree) (part : String) => do
    return if ← (here / part).isDir then tree.addDirectory part else tree) tree

/-- The files that the arguments name. -/
def gather (args : List String) : IO FileTree := do
  let named := args.head?.toList ++ (args.drop 2).take 1
  named.foldlM (fun (tree : FileTree) (path : String) => do
    addFound (← addLeading tree path) path) {}

end Stencil.CommandLine

open Stencil in
def main (args : List String) : IO UInt32 := do
  let tree ← CommandLine.gather args
  let report := CommandLine.run tree args
  (← IO.getStdout).putStr report.stdout
  (← IO.getStderr).putStr report.stderr
  return UInt32.ofNat report.code
