import SqfLayout.Pass.PullBack
import SqfLayout.Occurrence

/-!
# Statements

* `splitStatements` — a line break after every semicolon that is followed by more code on its line.
* `joinSemicolons` — every semicolon pulled back to its statement, with repeated ones dropped.
-/

namespace SqfLayout.Pass

open SqfLayout.Text SqfLayout.Scan

/-! ## One statement to a line -/

/-- Whether a semicolon keeps its line as it is: the line ends there, another semicolon follows or a
line comment does. -/
def keepsLine : List Cell → Bool
  | [] => true
  | cell :: rest =>
    cell.char == '\n' || cell.char == '\r' || cell.char == ';'
      || (cell.char == '/' && rest.head?.any (·.char == '/'))

/-- **A semicolon of code with the blanks behind it**, and what is to stand in its place. -/
def semicolonFinder : Finder (List Cell) := fun _ cells =>
  match cells with
  | [] => none
  | cell :: rest =>
    if cell.isCode ';' then
      let blanks := rest.takeWhile fun cell => isBlank cell.char
      let put := if keepsLine (rest.drop blanks.length) then blanks else [.code '\n']
      some (1 + blanks.length, cell :: put)
    else
      none

/-- **One statement to a line.** -/
def splitStatements (text : List Char) : List Char :=
  chars (replaceFound semicolonFinder (fun _ put => put) (label text))

/-! ## Semicolons -/

/-- The text so far, the last character first, with one more cell.  A semicolon is pulled back over
white space and over the semicolons before it. -/
def placeSemicolon (out : List Cell) (cell : Cell) : List Cell :=
  if cell.isCode ';' then cell :: pullBack (· == ';') out else cell :: out

/-- **Every semicolon directly behind its statement**, and only one of several. -/
def joinSemicolons (text : List Char) : List Char :=
  chars ((label text).foldl placeSemicolon []).reverse

end SqfLayout.Pass
