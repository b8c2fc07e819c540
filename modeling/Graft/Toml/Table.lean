import Graft.Json.Basic

/-!
The tables of a TOML document while it is read. A table may be filled from several places only as
long as none of them has claimed it: a header claims the table that it names, and tables that dotted
keys have made can be filled by dotted keys alone.
-/

namespace Graft.Toml

inductive Origin where
  /-- By a header or between braces. -/
  | declared
  /-- On the way to the table of a header. -/
  | implied
  /-- On the way to a dotted key. -/
  | dotted
  deriving Repr, DecidableEq, Inhabited

inductive Node where
  | value (value : Json)
  | table (origin : Origin) (entries : List (String × Node))
  /-- Tables under one name, each with a header of its own. -/
  | row (tables : List (List (String × Node)))
  deriving Inhabited

abbrev Entries := List (String × Node)

namespace Entries

/-- The entries with a node in the place of the one under its key, or behind all others. -/
def put (key : String) (node : Node) : Entries → Entries
  | [] => [(key, node)]
  | (other, found) :: rest =>
      if other = key then (key, node) :: rest else (other, found) :: put key node rest

/-- Changes the table at the end of a path of keys, for a header or for a dotted key. Tables that are
missing on the way are made; a row of tables stands for its last one. -/
def within (dotted : Bool) (change : Origin → Entries → Option Entries) :
    List String → Origin → Entries → Option Entries
  | [], origin, entries => change origin entries
  | key :: path, _, entries =>
      match entries.lookup key with
      | none => do
          let origin := if dotted then .dotted else .implied
          return put key (.table origin (← within dotted change path origin [])) entries
      | some (.value _) => none
      | some (.table origin inner) =>
          if dotted && origin == .declared then none
          else do return put key (.table origin (← within dotted change path origin inner)) entries
      | some (.row tables) => do
          let inner ← within dotted change path .declared (← tables.getLast?)
          return put key (.row (tables.dropLast ++ [inner])) entries

/-- Sets a key, which may be dotted, to a value that it does not have yet. -/
def assign (path : List String) (key : String) (value : Json) (entries : Entries) :
    Option Entries :=
  entries.within true (fun origin inner =>
    if (origin == .dotted) == path.isEmpty || (inner.lookup key).isSome then none
    else some (inner ++ [(key, .value value)])) path .declared

end Entries

structure Key where
  path : List String
  name : String
  deriving Repr, DecidableEq, Inhabited

def Entries.assignAll (pairs : List (Key × Json)) (entries : Entries) : Option Entries :=
  pairs.foldlM (fun entries (key, value) => entries.assign key.path key.name value) entries

mutual

def Node.toJson : Node → Json
  | .value value => value
  | .table _ entries => .object (entriesToMembers entries)
  | .row tables => .array (rowToItems tables)

def entriesToMembers : List (String × Node) → List (String × Json)
  | [] => []
  | (key, node) :: rest => (key, node.toJson) :: entriesToMembers rest

def rowToItems : List (List (String × Node)) → List Json
  | [] => []
  | entries :: rest => .object (entriesToMembers entries) :: rowToItems rest

end

structure Section where
  header : Key
  /-- Whether the header adds a table to a row. -/
  inRow : Bool
  pairs : List (Key × Json)
  deriving Inhabited

/-- Adds a section. A table must not have been declared before, nor made by dotted keys. -/
def Entries.addSection (part : Section) (entries : Entries) : Option Entries :=
  entries.within false (fun _ inner => do
    match part.inRow, inner.lookup part.header.name with
    | false, none =>
        return inner.put part.header.name (.table .declared (← Entries.assignAll part.pairs []))
    | false, some (.table .implied found) =>
        return inner.put part.header.name (.table .declared (← Entries.assignAll part.pairs found))
    | true, none => return inner.put part.header.name (.row [← Entries.assignAll part.pairs []])
    | true, some (.row tables) =>
        return inner.put part.header.name (.row (tables ++ [← Entries.assignAll part.pairs []]))
    | _, _ => none) part.header.path .declared

end Graft.Toml
