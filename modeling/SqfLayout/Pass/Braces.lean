import SqfLayout.Text.Space
import SqfLayout.Scan.Cell

/-!
# Braces

Every opening brace ends its line and every closing brace starts one; an empty block becomes a bare
pair.  A line comment that directly follows an opening brace on its line stays there.

* `closeBrace` — what a closing brace does to the text before it.
* `bracesFrom` — the pass on cells, with the text so far in reverse order.
* `breakBraces` — the pass.
-/

namespace SqfLayout.Pass

open SqfLayout.Text SqfLayout.Scan

/-- A closing brace takes the white space before it away and starts a line, unless it comes first. -/
def closeBrace (out : List Cell) (brace : Cell) : List Cell :=
  match out.dropWhile fun cell => isSpace cell.char with
  | [] => [brace]
  | kept => brace :: .code '\n' :: kept

/-- A cell outside the gap behind an opening brace. -/
def placeCell (out : List Cell) (cell : Cell) : List Cell :=
  if cell.isCode '}' then closeBrace out cell else cell :: out

/-- The gap that a cell opens: an opening brace does, and no line has been crossed yet. -/
def gapAfter (cell : Cell) : Option Bool := if cell.isCode '{' then some false else none

/-- What stands between an opening brace and the cell that ends the gap behind it: a space if that
cell starts a line comment on the same line, else a line break. -/
def gapBreak (crossed : Bool) (cell : Cell) (next : Option Cell) : Cell :=
  if cell.char == '/' && !crossed && next.any (·.char == '/') then .code ' ' else .code '\n'

/-- **The pass on cells.**  The first argument is the text so far, the last character first.  Within
the gap behind an opening brace the second argument tells whether a line has been crossed. -/
def bracesFrom : List Cell → Option Bool → List Cell → List Cell
  | out, _, [] => out.reverse
  | out, none, cell :: rest => bracesFrom (placeCell out cell) (gapAfter cell) rest
  | out, some crossed, cell :: rest =>
    if isSpace cell.char then bracesFrom out (some (crossed || cell.char == '\n')) rest
    else if cell.isCode '}' then bracesFrom (cell :: out) none rest
    else bracesFrom (cell :: gapBreak crossed cell rest.head? :: out) (gapAfter cell) rest

/-- **Braces at the ends and starts of lines.** -/
def breakBraces (text : List Char) : List Char := chars (bracesFrom [] none (label text))

end SqfLayout.Pass
