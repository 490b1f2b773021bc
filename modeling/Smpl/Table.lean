/-!
# Tables

A table has entries under names, in the order of the names and one for each name.
-/

namespace Smpl

/-- Entries under names. -/
abbrev Table (α : Type) := List (String × α)

namespace Table

variable {α : Type}

/-- The entry of a name. -/
def get? (name : String) : Table α → Option α
  | [] => none
  | (key, value) :: rest => if key = name then some value else get? name rest

/-- The table with the entry of one name set. -/
def set (name : String) (value : α) : Table α → Table α
  | [] => [(name, value)]
  | (key, old) :: rest =>
    if key = name then (name, value) :: rest
    else if name < key then (name, value) :: (key, old) :: rest
    else (key, old) :: set name value rest

/-- The table with another value in the entry of one name, if there is one. -/
def replace (name : String) (value : α) : Table α → Table α
  | [] => []
  | (key, old) :: rest =>
    if key = name then (key, value) :: rest else (key, old) :: replace name value rest

/-- The table without the entry of one name. -/
def erase (name : String) (table : Table α) : Table α := table.filter fun e => e.1 ≠ name

/-- The names of a table. -/
def names (table : Table α) : List String := table.map Prod.fst

/-- A table of some entries; of several under one name the last one counts. -/
def ofEntries (entries : List (String × α)) : Table α :=
  entries.foldl (fun table e => set e.1 e.2 table) []

end Table

end Smpl
