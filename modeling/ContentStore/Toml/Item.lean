/-!
Contract: what a TOML document binds its keys to.

Owns:
- `Item`, the values and tables of a document;
- `Entries`, the bindings of one table in the order of the document;
- `bind` and `descend`, which add to a document and refuse what would bind a
  key twice or reopen a table.

Does not own: the text of a document.
-/

namespace ContentStore.Toml

/-- How a table came to be, which decides how it may be extended. -/
inductive Origin where
  /-- By a header of its own, or as the document itself. -/
  | header
  /-- As a parent that a header names. -/
  | implied
  /-- As a parent that a dotted key names. -/
  | dotted
  /-- Between braces: complete as written. -/
  | closed
deriving DecidableEq, Repr

/-- A value or a table. -/
inductive Item where
  | text (content : String)
  | integer (number : Int)
  | truth (value : Bool)
  | float (spelling : String)
  /-- A date, a time of day or both, as spelled. -/
  | date (spelling : String)
  | array (items : List Item)
  | table (origin : Origin) (entries : List (String × Item))
  /-- An array of tables that headers in double brackets build. -/
  | tables (elements : List (List (String × Item)))

abbrev Entries := List (String × Item)

namespace Entries

/-- Bind a bound key anew. -/
def rebind (entries : Entries) (key : String) (item : Item) : Entries :=
  entries.map fun entry => if entry.1 = key then (key, item) else entry

def without (entries : Entries) (key : String) : Entries :=
  entries.filter fun entry => entry.1 ≠ key

/-- Change the table at the end of a path, creating the tables on the way.  A
dotted path may not pass through a table that has a header of its own, and no
path passes through a value. -/
def descend (isDotted : Bool) (change : Origin → Entries → Option Entries) :
    (path : List String) → Origin → Entries → Option Entries
  | [], origin, entries => change origin entries
  | key :: path, _, entries =>
    match entries.lookup key with
    | none =>
      let origin := if isDotted then Origin.dotted else Origin.implied
      (descend isDotted change path origin []).map fun below =>
        entries ++ [(key, .table origin below)]
    | some (.table .closed _) => none
    | some (.table .header below) =>
      if isDotted then none
      else
        (descend isDotted change path .header below).map fun below =>
          rebind entries key (.table .header below)
    | some (.table origin below) =>
      (descend isDotted change path origin below).map fun below =>
        rebind entries key (.table origin below)
    | some (.tables elements) =>
      match elements.getLast? with
      | some last =>
        (descend isDotted change path .header last).map fun below =>
          rebind entries key (.tables (elements.dropLast ++ [below]))
      | none => none
    | some _ => none

/-- Bind the last key of a dotted key.  A dotted key extends only tables that
dotted keys made. -/
def bind (entries : Entries) (path : List String) (key : String) (item : Item) :
    Option Entries :=
  descend true
    (fun origin below =>
      if (origin = .dotted) = (path = []) then none
      else if (below.lookup key).isSome then none
      else some (below ++ [(key, item)]))
    path .header entries

/-- Change the table at the end of a dotted path between braces, creating the
tables on the way; what was written as a value is never extended. -/
def descendClosed (change : Origin → Entries → Option Entries) :
    (path : List String) → Origin → Entries → Option Entries
  | [], origin, entries => change origin entries
  | key :: path, _, entries =>
    match entries.lookup key with
    | none =>
      (descendClosed change path .dotted []).map fun below =>
        entries ++ [(key, .table .dotted below)]
    | some (.table .dotted below) =>
      (descendClosed change path .dotted below).map fun below =>
        rebind entries key (.table .dotted below)
    | some _ => none

/-- Bind the last key of a dotted key between braces. -/
def bindClosed (entries : Entries) (path : List String) (key : String) (item : Item) :
    Option Entries :=
  descendClosed
    (fun origin below =>
      if (origin = .dotted) = (path = []) then none
      else if (below.lookup key).isSome then none
      else some (below ++ [(key, item)]))
    path .closed entries

end Entries

end ContentStore.Toml
