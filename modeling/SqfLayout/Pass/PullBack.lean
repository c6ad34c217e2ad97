import SqfLayout.Text.Space
import SqfLayout.Scan.Cell

/-!
# Pulling back

A comma or a semicolon is pulled back over the white space of code before it, line breaks included.
It never gets into a line comment: the line feed that ends such a comment stays.

* `endsInLineComment` — whether a text ends with a line comment.
* `pullBack` — a text as a character that is pulled back finds it.

Texts are given in reverse order, the last cell first.
-/

namespace SqfLayout.Pass

open SqfLayout.Text SqfLayout.Scan

/-- Whether the cells at the end of a text belong to a comment that a line feed must end: they start
with two slashes, or they do not end with the mark that closes a block comment. -/
def endsInLineComment (out : List Cell) : Bool :=
  let comment := chars (out.takeWhile (·.kind == .comment))
  !comment.isEmpty && (['/', '/'].isPrefixOf comment.reverse || !(['/', '*'].isPrefixOf comment))

/-- White space of code, or a character of code that is to go with it. -/
def isLoose (also : Char → Bool) (cell : Cell) : Bool :=
  cell.kind == .code && (isSpace cell.char || also cell.char)

/-- **The text that a character is pulled back to.**  Behind a line comment the first cell that would
go is its line feed, and it stays. -/
def pullBack (also : Char → Bool) (out : List Cell) : List Cell :=
  let kept := out.dropWhile (isLoose also)
  if endsInLineComment kept then
    match (out.takeWhile (isLoose also)).getLast? with
    | some feed => feed :: kept
    | none => kept
  else
    kept

end SqfLayout.Pass
