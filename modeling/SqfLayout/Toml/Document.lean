import SqfLayout.Toml.Table
import SqfLayout.Toml.Text

/-!
# Documents

A document is a sequence of lines: entries `key = value`, headers `[key]` that say to which table the
entries below belong, comments and blank lines.

* `value?` — a value.
* `Section` — the tables read so far and the path of the table that entries go to.
* `document?` — the entries of a whole document.
-/

namespace SqfLayout.Toml

open SqfLayout.Text

/-! ## Values -/

mutual

/-- **A value.** -/
def value? (cs : List Char) : Option (Value × List Char) :=
  match cs with
  | 't' :: 'r' :: 'u' :: 'e' :: rest => some (.flag true, rest)
  | 'f' :: 'a' :: 'l' :: 's' :: 'e' :: rest => some (.flag false, rest)
  | '[' :: rest =>
    match skipTrivia false rest with
    | ']' :: rest => some (.emptyArray, rest)
    | _ => none
  | '\x7b' :: rest =>
    match rest.dropWhile isBlank with
    | '\x7d' :: rest => some (.table .inline [], rest)
    | _ => do
      let (entries, rest) ← inlineEntries? [] rest
      some (.table .inline entries, rest)
  | cs => do
    let (text, rest) ← readText? cs
    some (.text text, rest)
termination_by cs.length

/-- The entries of an inline table up to its closing brace, added to those before. -/
def inlineEntries? (entries : Entries) (cs : List Char) : Option (Entries × List Char) := do
  let (path, rest) ← dottedKey? cs
  match rest with
  | '=' :: rest =>
    let rest := rest.dropWhile isBlank
    if rest.length < cs.length then
      let (value, rest) ← value? rest
      let entries ← entries.addDotted? path value
      match rest.dropWhile isBlank with
      | '\x7d' :: rest => some (entries, rest)
      | ',' :: rest => if rest.length < cs.length then inlineEntries? entries rest else none
      | _ => none
    else none
  | _ => none
termination_by cs.length

end

/-! ## Lines -/

/-- **The state between two lines**: all entries so far, and the path of the table that the next ones
belong to. -/
structure Section where
  path : List Key := []
  entries : Entries := []

/-- The entry of a line added to its section. -/
def entryLine? (s : Section) (cs : List Char) : Option (Section × List Char) := do
  let (path, rest) ← dottedKey? cs
  match rest with
  | '=' :: rest =>
    let (value, rest) ← value? (rest.dropWhile isBlank)
    let entries ← s.entries.within? (Entries.addDotted? path value) s.path
    some ({ s with entries }, ← endOfLine? rest)
  | _ => none

/-- The section that a header opens.  The characters are those behind its bracket. -/
def headerLine? (s : Section) (cs : List Char) : Option (Section × List Char) := do
  let (path, rest) ← dottedKey? cs
  match rest with
  | ']' :: rest =>
    let entries ← s.entries.openHeader? path
    some (⟨path, entries⟩, ← endOfLine? rest)
  | _ => none

/-- A line that is not blank up to its end. -/
def line? (s : Section) : List Char → Option (Section × List Char)
  | '[' :: rest => headerLine? s rest
  | '#' :: rest => (endOfLine? ('#' :: rest)).map fun rest => (s, rest)
  | cs =>
    match newline? cs with
    | some rest => some (s, rest)
    | none => entryLine? s cs

/-- The entries of a document from a line on. -/
def linesFrom? (s : Section) (cs : List Char) : Option Entries :=
  match cs.dropWhile isBlank with
  | [] => some s.entries
  | line =>
    match line? s line with
    | none => none
    | some (s, rest) => if rest.length < cs.length then linesFrom? s rest else none
termination_by cs.length

/-- **The entries of a document**, or none if it is malformed.  A byte order mark in front does not
count. -/
def document? : List Char → Option Entries
  | '\uFEFF' :: cs => linesFrom? {} cs
  | cs => linesFrom? {} cs

end SqfLayout.Toml
