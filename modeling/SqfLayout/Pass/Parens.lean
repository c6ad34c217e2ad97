import SqfLayout.Text.Space
import SqfLayout.Occurrence

/-!
# Parentheses

No blanks directly inside parentheses.

* `parenFinder` — a parenthesis of code with the blanks on its inner side.
* `trimParens` — the pass.
-/

namespace SqfLayout.Pass

open SqfLayout.Text SqfLayout.Scan

/-- **A parenthesis of code with the blanks on its inner side**: those behind an opening one, or those
before a closing one. -/
def parenFinder : Finder Cell := fun _ cells =>
  match cells with
  | [] => none
  | cell :: rest =>
    if cell.isCode '(' then
      some (1 + (rest.takeWhile fun cell => isBlank cell.char).length, cell)
    else
      match cells.dropWhile fun cell => isBlank cell.char with
      | [] => none
      | closing :: _ =>
        if closing.isCode ')' then
          some ((cells.takeWhile fun cell => isBlank cell.char).length + 1, closing)
        else
          none

/-- **No blanks directly inside parentheses.** -/
def trimParens (text : List Char) : List Char :=
  chars (replaceFound parenFinder (fun _ paren => [paren]) (label text))

end SqfLayout.Pass
