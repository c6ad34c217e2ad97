import SqfLayout.Text.Offset
import SqfLayout.Text.Space

/-!
# Code, literals and comments

Every character of a script belongs to code, to a string literal or to a comment.  The scanner reads
from left to right and decides with one character of lookahead.

* `Mode` — what the scanner is inside of.
* `Cursor` — where it stands between two characters: `ready` for anything, or `midway` through a
  two-character comment delimiter.
* `step` — one character.
* `label` — a text with the class of every character, as a list of `Cell`s.
* `modeAfter` — the mode at the end of a text.

A literal runs from a quote to the next quote of its kind; a doubled quote is a close and a reopening.
The star that opens a block comment cannot also close it.
-/

namespace SqfLayout.Scan

open SqfLayout.Text

/-- What the scanner is inside of. -/
inductive Mode
  | code
  | single
  | double
  | line
  | block
  deriving DecidableEq, Repr, Inhabited

/-- What a character belongs to. -/
inductive CharClass
  | code
  | literal
  | comment
  deriving DecidableEq, Repr, Inhabited

/-- A character with its class. -/
structure Cell where
  char : Char
  kind : CharClass
  deriving DecidableEq, Repr, Inhabited

/-- A given character of code. -/
def Cell.isCode (cell : Cell) (c : Char) : Bool := cell.kind == .code && cell.char == c

/-- A character that a layout pass writes into code. -/
def Cell.code (c : Char) : Cell := ⟨c, .code⟩

/-- The text of a list of cells. -/
def chars (cells : List Cell) : List Char := cells.map Cell.char

/-- Cells without the white space at either end. -/
def trimCells (cells : List Cell) : List Cell :=
  (dropEndWhile (fun cell => isSpace cell.char) cells).dropWhile fun cell => isSpace cell.char

/-- **The place of the scanner between two characters.** -/
inductive Cursor
  /-- The next character is read in the given mode. -/
  | ready (mode : Mode)
  /-- The next character is the second one of a comment delimiter, and the given mode follows it. -/
  | midway (mode : Mode)
  deriving DecidableEq, Repr, Inhabited

/-- The mode that a cursor is in or has already committed to. -/
def Cursor.mode : Cursor → Mode
  | .ready mode => mode
  | .midway mode => mode

/-- **One character.**  Its class and the cursor behind it depend on the cursor before it and on the
character after it. -/
def step (cursor : Cursor) (c : Char) (next : Option Char) : CharClass × Cursor :=
  match cursor with
  | .midway mode => (.comment, .ready mode)
  | .ready .code =>
    if c == '\'' then (.literal, .ready .single)
    else if c == '"' then (.literal, .ready .double)
    else if c == '/' && next == some '/' then (.comment, .ready .line)
    else if c == '/' && next == some '*' then (.comment, .midway .block)
    else (.code, .ready .code)
  | .ready .single => (.literal, .ready (if c == '\'' then .code else .single))
  | .ready .double => (.literal, .ready (if c == '"' then .code else .double))
  | .ready .line => if c == '\n' then (.code, .ready .code) else (.comment, .ready .line)
  | .ready .block =>
    (.comment, if c == '*' && next == some '/' then .midway .code else .ready .block)

/-- The cells of a text read from a cursor. -/
def labelFrom : Cursor → List Char → List Cell
  | _, [] => []
  | cursor, c :: rest =>
    let read := step cursor c rest.head?
    ⟨c, read.1⟩ :: labelFrom read.2 rest

/-- The cursor behind a text read from a cursor. -/
def cursorAfter : Cursor → List Char → Cursor
  | cursor, [] => cursor
  | cursor, c :: rest => cursorAfter (step cursor c rest.head?).2 rest

/-- **The cells of a script.** -/
def label (text : List Char) : List Cell := labelFrom (.ready .code) text

/-- **The mode at the end of a text** that is entered in the given mode. -/
def modeAfter (mode : Mode) (text : List Char) : Mode := (cursorAfter (.ready mode) text).mode

/-- The class of every byte: each character gives its class to all of its bytes. -/
def byteClasses (cells : List Cell) : List CharClass :=
  cells.flatMap fun cell => List.replicate cell.char.utf8Size cell.kind

/-- One step of a scan: a character at its offset, and the mode that the scanner shows behind it. -/
structure Step where
  offset : Nat
  cell : Cell
  mode : Mode
  deriving DecidableEq, Repr

/-- The steps of a scan from a cursor and an offset. -/
def stepsFrom : Nat → Cursor → List Char → List Step
  | _, _, [] => []
  | offset, cursor, c :: rest =>
    let read := step cursor c rest.head?
    ⟨offset, ⟨c, read.1⟩, read.2.mode⟩ :: stepsFrom (offset + c.utf8Size) read.2 rest

/-- **The steps of a scan** that is entered in the given mode. -/
def steps (mode : Mode) (text : List Char) : List Step := stepsFrom 0 (.ready mode) text

end SqfLayout.Scan
