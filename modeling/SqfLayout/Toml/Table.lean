/-!
# Tables

The data of a TOML document, as far as settings need it: texts, booleans, empty arrays and tables.
Numbers, dates, arrays with elements and arrays of tables are TOML too, but no setting is one of them,
so a document that holds any is refused as a whole.

A table may be written in pieces: under its own header, under headers of its parts, or by dotted keys.
`TableKind` keeps how a table has been written, because that decides what may still be added to it.

* `Value`, `Entries` — the data.
* `Entries.addDotted?` — adds a value under a dotted key.
* `Entries.within?` — changes the table that a header names.
* `Entries.openHeader?` — opens the table of a header.
-/

namespace SqfLayout.Toml

/-- The name of an entry. -/
abbrev Key := List Char

/-- **How a table has been written.**
`inline` tables are complete where they stand.  A `header` table has been opened by its own header, a
`passed` one was only passed through by the header of a part, and a `dotted` one was made by a dotted
key. -/
inductive TableKind
  | inline
  | header
  | passed
  | dotted
  deriving DecidableEq, Repr

/-- **A value of a document.** -/
inductive Value
  | text (chars : List Char)
  | flag (on : Bool)
  | emptyArray
  | table (kind : TableKind) (entries : List (Key × Value))

/-- The entries of a table in the order in which they were written. -/
abbrev Entries := List (Key × Value)

namespace Entries

/-- The entries with a value put under a key, in the place of an earlier one. -/
def put (key : Key) (value : Value) : Entries → Entries
  | [] => [(key, value)]
  | (name, old) :: rest =>
    if name == key then (key, value) :: rest else (name, old) :: put key value rest

/-- **Adds a value under a dotted key.**  A key is never given twice.  The tables on the way are made by
dotted keys, here or before; a table that headers only passed through may be entered but not added to
directly. -/
def addDotted? : List Key → Value → Entries → Option Entries
  | [], _, _ => none
  | [key], value, entries =>
    match entries.lookup key with
    | none => some (put key value entries)
    | some _ => none
  | key :: path, value, entries =>
    match entries.lookup key with
    | none => do
      let inner ← addDotted? path value []
      some (put key (.table .dotted inner) entries)
    | some (.table .dotted inner) => do
      let inner ← addDotted? path value inner
      some (put key (.table .dotted inner) entries)
    | some (.table .passed inner) =>
      if path.length ≤ 1 then none
      else do
        let inner ← addDotted? path value inner
        some (put key (.table .passed inner) entries)
    | some _ => none

/-- **Changes the table at the end of a header's path.**  Tables that are missing on the way are made;
inline tables and other values cannot be entered. -/
def within? (change : Entries → Option Entries) : List Key → Entries → Option Entries
  | [], entries => change entries
  | key :: path, entries =>
    match entries.lookup key with
    | none => do
      let inner ← within? change path []
      some (put key (.table .passed inner) entries)
    | some (.table .inline _) => none
    | some (.table kind inner) => do
      let inner ← within? change path inner
      some (put key (.table kind inner) entries)
    | some _ => none

/-- Opens the table under a key: a new one, or one that headers have only passed through. -/
def openTable? (key : Key) (entries : Entries) : Option Entries :=
  match entries.lookup key with
  | none => some (put key (.table .header []) entries)
  | some (.table .passed inner) => some (put key (.table .header inner) entries)
  | some _ => none

/-- **Opens the table of a header.**  No table is opened twice. -/
def openHeader? (path : List Key) (entries : Entries) : Option Entries :=
  match path.getLast? with
  | none => none
  | some key => within? (openTable? key) path.dropLast entries

end Entries

end SqfLayout.Toml
