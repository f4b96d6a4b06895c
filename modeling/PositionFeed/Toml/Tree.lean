import PositionFeed.Document.Node

namespace PositionFeed

/-!
# The tables of a TOML document

A TOML document defines its tables piece by piece: by headers, by dotted keys
and by inline tables.  A table under construction remembers how it came about,
because that decides what may still be added to it.

* A table named by its own header takes keys only below that header, and its
  header may not be repeated.
* A table that a longer header implies may still get a header of its own.
* A table made by dotted keys may be extended by dotted keys alone, and tables
  below it may have headers.
* An inline table and an array written in brackets are finished.
-/

namespace Toml

/-- How a table came about. -/
inductive Origin where
  /-- By its own header. -/
  | header
  /-- By a header of a table inside it. -/
  | implied
  /-- By dotted keys. -/
  | dotted
  deriving Repr, DecidableEq

/-- What stands under a key of a table under construction. -/
inductive Item where
  /-- A finished value. -/
  | value (node : Node)
  /-- A table that may still grow. -/
  | table (origin : Origin) (entries : List (String × Item))
  /-- Tables of which the last one may still grow. -/
  | tables (earlier : List (List (String × Item)))
      (last : List (String × Item))

/-- The entries of a table under construction, in order of appearance. -/
abbrev Entries := List (String × Item)

/-- Puts an item under a key that the table has already. -/
def Entries.replace (key : String) (item : Item) (entries : Entries) : Entries :=
  entries.map fun entry => if entry.1 = key then (key, item) else entry

/-- Edits the table at the end of a path of header keys.  Tables on the way
are made as needed, and in an array of tables the last one is meant. -/
def Entries.enter (edit : Entries → Option Entries) :
    List String → Entries → Option Entries
  | [], entries => edit entries
  | key :: path, entries =>
      match entries.lookup key with
      | none =>
          (Entries.enter edit path []).map fun inner =>
            entries ++ [(key, .table .implied inner)]
      | some (.table origin inner) =>
          (Entries.enter edit path inner).map fun inner =>
            entries.replace key (.table origin inner)
      | some (.tables earlier last) =>
          (Entries.enter edit path last).map fun last =>
            entries.replace key (.tables earlier last)
      | some (.value _) => none

/-- Puts a value under a dotted key, unless the key is taken. -/
def Entries.assign (node : Node) : List String → Entries → Option Entries
  | [], _ => none
  | [key], entries =>
      match entries.lookup key with
      | none => some (entries ++ [(key, .value node)])
      | some _ => none
  | key :: path, entries =>
      match entries.lookup key with
      | none =>
          (Entries.assign node path []).map fun inner =>
            entries ++ [(key, .table .dotted inner)]
      | some (.table .header _) => none
      | some (.table origin inner) =>
          (Entries.assign node path inner).map fun inner =>
            entries.replace key (.table origin inner)
      | some _ => none

/-- Opens the table that a header names with its last key. -/
def Entries.openTable (key : String) (entries : Entries) : Option Entries :=
  match entries.lookup key with
  | none => some (entries ++ [(key, .table .header [])])
  | some (.table .implied inner) =>
      some (entries.replace key (.table .header inner))
  | some _ => none

/-- Opens another table of the array that a double header names. -/
def Entries.openElement (key : String) (entries : Entries) : Option Entries :=
  match entries.lookup key with
  | none => some (entries ++ [(key, .tables [] [])])
  | some (.tables earlier last) =>
      some (entries.replace key (.tables (earlier ++ [last]) []))
  | some _ => none

/-- Entries in the order of their keys. -/
def sortEntries (entries : List (String × Node)) : List (String × Node) :=
  entries.mergeSort fun first second => decide (first.1 ≤ second.1)

/-- A finished table. -/
def tableNode (entries : List (String × Node)) : Node :=
  .table ((sortEntries entries).map fun entry => (some entry.1, entry.2)) true

mutual

/-- The finished form of an item. -/
def Item.node : Item → Node
  | .value node => node
  | .table _ entries => tableNode (entryNodes entries)
  | .tables earlier last =>
      .sequence (tableNodes earlier ++ [tableNode (entryNodes last)]) true

/-- The finished form of the entries of a table. -/
def entryNodes : List (String × Item) → List (String × Node)
  | [] => []
  | (key, item) :: rest => (key, item.node) :: entryNodes rest

/-- The finished form of the tables of an array. -/
def tableNodes : List (List (String × Item)) → List Node
  | [] => []
  | entries :: rest => tableNode (entryNodes entries) :: tableNodes rest

end

end Toml

end PositionFeed
