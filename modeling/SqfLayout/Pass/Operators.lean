import SqfLayout.Text.Lines
import SqfLayout.Text.Space
import SqfLayout.Occurrence

/-!
# Operators

Assignment, comparison and logical operators stand between single spaces, except at the ends of a
line.  Lines of the preprocessor, which start with a number sign, are left alone.

* `operators` — the operators, those of two characters first.
* `operator?` — the operator at the start of a text.
* `operatorFinder` — an operator with the blanks around it, and what is to stand in its place.
* `spaceOperators` — the pass.
-/

namespace SqfLayout.Pass

open SqfLayout.Text SqfLayout.Scan

/-- **The operators.**  Those of two characters come first, so none of them is read as two. -/
def operators : List (List Char) :=
  [['=', '='], ['!', '='], ['<', '='], ['>', '='], ['>', '>'], ['&', '&'], ['|', '|'],
    ['='], ['<'], ['>']]

/-- Whether a text starts with the given characters. -/
def startsWith : List Char → List Cell → Bool
  | [], _ => true
  | _ :: _, [] => false
  | c :: word, cell :: rest => cell.char == c && startsWith word rest

/-- The operator that a text starts with. -/
def operator? (cells : List Cell) : Option (List Cell) :=
  (operators.find? (startsWith · cells)).map fun op => cells.take op.length

/-- The space before an operator; at the start of the line there is none. -/
def spaceBefore (before : Option Char) : List Cell :=
  if before.isNone then [] else [.code ' ']

/-- The space behind an operator; at the end of the line there is none. -/
def spaceBehind (next : Option Cell) : List Cell :=
  match next with
  | none => []
  | some cell => if cell.char == '\n' || cell.char == '\r' then [] else [.code ' ']

/-- **An operator of a line with the blanks around it**, and its spaced form.  An operator inside a
literal or a comment stands for itself. -/
def operatorFinder : Finder (List Cell) := fun before cells =>
  (operator? (cells.dropWhile fun cell => isBlank cell.char)).map fun op =>
    let lead := cells.takeWhile fun cell => isBlank cell.char
    let behind := cells.drop (lead.length + op.length)
    let trail := behind.takeWhile fun cell => isBlank cell.char
    let taken := lead.length + op.length + trail.length
    if op.head?.any (·.kind == .code) then
      (taken, spaceBefore before ++ op ++ spaceBehind (cells.drop taken).head?)
    else
      (taken, cells.take taken)

/-- Whether a line belongs to the preprocessor: its first character that is not white space is a
number sign. -/
def isPreprocessor (line : List Cell) : Bool :=
  (trimStart (chars line)).head? == some '#'

/-- One line, with its line feed if it has one. -/
def spaceLine (line : List Cell) : List Cell :=
  if isPreprocessor line then line else replaceFound operatorFinder (fun _ spaced => spaced) line

/-- **Single spaces around the operators of code.**  Blanks and operators never cross a line, so each
line is treated by itself. -/
def spaceOperators (text : List Char) : List Char :=
  chars ((splitAfter (·.char == '\n') (label text)).flatMap spaceLine)

end SqfLayout.Pass
