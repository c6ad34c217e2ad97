import SqfLayout.Pass.PullBack

/-!
# Commas

A comma follows the text before it directly, also over a line break, and is followed by one space
unless its line ends there or another comma comes next.

* `commasFrom` — the pass on cells, with the text so far in reverse order.
* `spaceCommas` — the pass.
-/

namespace SqfLayout.Pass

open SqfLayout.Text SqfLayout.Scan

/-- The text so far with the space that separates a comma from the given cell, where one is due. -/
def separate (out : List Cell) (cell : Cell) : List Cell :=
  if cell.char == '\n' || cell.char == '\r' || cell.char == ',' then out else .code ' ' :: out

/-- The text so far with one more cell; a comma is pulled back. -/
def placeComma (out : List Cell) (cell : Cell) : List Cell :=
  if cell.isCode ',' then cell :: pullBack (fun _ => false) out else cell :: out

/-- **The pass on cells.**  The first argument is the text so far, the last character first; the
second tells whether it ends with a comma whose following blanks are being dropped. -/
def commasFrom : List Cell → Bool → List Cell → List Cell
  | out, _, [] => out.reverse
  | out, false, cell :: rest => commasFrom (placeComma out cell) (cell.isCode ',') rest
  | out, true, cell :: rest =>
    if isBlank cell.char then commasFrom out true rest
    else commasFrom (placeComma (separate out cell) cell) (cell.isCode ',') rest

/-- **One space after a comma and none before it.** -/
def spaceCommas (text : List Char) : List Char := chars (commasFrom [] false (label text))

end SqfLayout.Pass
