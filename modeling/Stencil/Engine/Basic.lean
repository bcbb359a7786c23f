import Stencil.Cache
import Stencil.Language
import Stencil.Source.Basic
import Stencil.Tag.Parser

/-!
# Engines and their stores

An **engine** is a configuration and a language. What it works on is a **store**: the
source that it reads templates from and the cache that it keeps them in. `Engine.fetch`
gets a template by its path and `Engine.fetchInline` one by its text:

| cache | held          | not held                       |
|-------|---------------|--------------------------------|
| on    | the one held  | a new one, which is held then  |
| off   | a new one, which replaces it | the same        |

A template that cannot be read, compiled or loaded is not stored.
-/

namespace Stencil

/-- The options of an engine. -/
structure Config where
  /-- Whether templates are taken from the cache. -/
  cache : Bool := true
  /-- Whether a name that stands for nothing is a fault. -/
  strict : Bool := false
  /-- How deep templates, blocks and macros may nest. -/
  maxDepth : Nat := 64
  deriving DecidableEq, Repr

structure Engine where
  config : Config := {}
  language : Language := {}

/-- What an engine reads from and keeps templates in. The number of reads counts those
from the source. -/
structure Store where
  source : Source := .empty
  cache : Cache := {}
  reads : Nat := 0

/-- Reads the text of a template from the source. -/
def Store.read (path : String) (useKept : Bool) (s : Store) : Except Error String × Store :=
  let (r, source) := s.source.read path useKept
  (r, { s with source, reads := s.reads + 1 })

namespace Engine

/-- Compiles and loads a template. -/
def compile (e : Engine) (source name : String) (id : Nat) : Except Error Template := do
  (← Draft.compile e.language.tags source name).load id

/-- A new template under a contained path. -/
def refetch (e : Engine) (key : String) (s : Store) : Except Error Template × Store :=
  match s.read key e.config.cache with
  | (.error fault, s) => (.error fault, s)
  | (.ok source, s) =>
    match e.compile source key s.cache.nextId with
    | .error fault => (.error fault, s)
    | .ok t => (.ok t, { s with cache := s.cache.insertPath key t })

/-- The template of a path, which must be contained. -/
def fetch (e : Engine) (path : String) (s : Store) : Except Error Template × Store :=
  match Path.contained? path with
  | none => (.error (.notFound path), s)
  | some key =>
    if e.config.cache then
      match s.cache.findPath? key with
      | some t => (.ok t, s)
      | none => e.refetch key s
    else e.refetch key { s with cache := s.cache.evictPath key }

/-- The name of every inline template. -/
def inlineName : String := "inline"

/-- A new template of a text. -/
def recompile (e : Engine) (text : String) (s : Store) : Except Error Template × Store :=
  match e.compile text inlineName s.cache.nextId with
  | .error fault => (.error fault, s)
  | .ok t => (.ok t, { s with cache := s.cache.insertText text t })

/-- The inline template of a text. -/
def fetchInline (e : Engine) (text : String) (s : Store) : Except Error Template × Store :=
  if e.config.cache then
    match s.cache.findText? text with
    | some t => (.ok t, s)
    | none => e.recompile text s
  else e.recompile text { s with cache := s.cache.evictText text }

end Engine

end Stencil
