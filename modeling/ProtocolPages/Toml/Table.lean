import ProtocolPages.Ordered
import ProtocolPages.Toml.Value

/-!
# Growing tables

A document grows by writing values at paths of keys. A key on the way that is missing becomes a new
table. Once a list of tables is started, a path that runs through it means its last table.
-/

namespace ProtocolPages.Toml

/-- A path of keys. -/
abbrev Key := List String

/-- Change the table at the end of a path. With `throughLists` a list on the way stands for the
last table in it; anything else on the way has to be a table. -/
def Table.update (throughLists : Bool) (change : Table → Except ReadError Table) :
    Key → Table → Except ReadError Table
  | [], table => change table
  | key :: path, table =>
    match table.lookup key with
    | none => do
      return Ordered.put (· == ·) key (.table (← update throughLists change path [])) table
    | some (.table inner) => do
      return Ordered.put (· == ·) key (.table (← update throughLists change path inner)) table
    | some (.array items) =>
      match throughLists, items.getLast? with
      | true, some (.table inner) => do
        let last ← update throughLists change path inner
        return Ordered.put (· == ·) key (.array (items.dropLast ++ [.table last])) table
      | _, _ => .error .malformed
    | some _ => .error .malformed

/-- Write a value at a key that is not yet taken. -/
def Table.add (key : String) (v : Value) (table : Table) : Except ReadError Table :=
  if (table.lookup key).isSome then .error .malformed else .ok (table ++ [(key, v)])

/-- Start the next table in the list of tables at a key. -/
def Table.addToList (key : String) (table : Table) : Except ReadError Table :=
  match table.lookup key with
  | none => .ok (table ++ [(key, .array [.table []])])
  | some (.array items) => .ok (Ordered.put (· == ·) key (.array (items ++ [.table []])) table)
  | some _ => .error .malformed

/-- Write a value at the end of a path of keys. -/
def Table.addAt (throughLists : Bool) (key : Key) (v : Value) (table : Table) :
    Except ReadError Table :=
  match key.getLast? with
  | some last => Table.update throughLists (Table.add last v) key.dropLast table
  | none => .error .malformed

/-- Whether a path runs into one of the closed paths, which nothing may extend. -/
def runsInto (closed : List Key) (key : Key) : Bool :=
  closed.any fun c => !c.isEmpty && c.isPrefixOf key

end ProtocolPages.Toml
