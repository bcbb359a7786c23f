/-!
# Tables

A **table** holds at most one entry for each name and lists its entries in
ascending order of the names. Names compare by their characters' code points,
which is also the order of their UTF-8 bytes.

Tables are plain association lists, so that a value may contain tables of
values; the order is kept by `Table.insert`, the only way entries come in.
-/

namespace Stencil

/-- Entries by name, in ascending order of the names. -/
abbrev Table (α : Type) := List (String × α)

namespace Table

variable {α : Type}

/-- The entry under `key`. -/
def find? (key : String) : Table α → Option α
  | [] => none
  | (k, v) :: t => if k = key then some v else find? key t

/-- Whether there is an entry under `key`. -/
def has (key : String) (t : Table α) : Bool :=
  (find? key t).isSome

/-- Puts `v` under `key`, in place of the entry that was there. -/
def insert (key : String) (v : α) : Table α → Table α
  | [] => [(key, v)]
  | (k, w) :: t =>
    if key < k then (key, v) :: (k, w) :: t
    else if key = k then (key, v) :: t
    else (k, w) :: insert key v t

/-- Drops the entry under `key`. -/
def erase (key : String) (t : Table α) : Table α :=
  t.filter fun e => e.1 != key

/-- The names in ascending order. -/
def keys (t : Table α) : List String :=
  t.map Prod.fst

/-- The table of some entries, of which a later one replaces an earlier one of
the same name. -/
def ofEntries (entries : List (String × α)) : Table α :=
  entries.foldl (fun t e => insert e.1 e.2 t) []

/-! ### Looking up what was put in -/

theorem find?_insert_self (key : String) (v : α) (t : Table α) :
    find? key (insert key v t) = some v := by
  fun_induction insert key v t <;> grind [find?]

theorem find?_insert_of_ne {key other : String} (h : other ≠ key) (v : α) (t : Table α) :
    find? other (insert key v t) = find? other t := by
  fun_induction insert key v t <;> grind [find?]

end Table

end Stencil
