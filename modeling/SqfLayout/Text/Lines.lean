/-!
# Lines

A text is a sequence of lines divided by line feeds; `n` line feeds make `n + 1` lines.

* `splitWhen`, `joinWith` — division at the elements that satisfy a test, and its inverse.
* `lines`, `unlines` — division of a text into lines, and back.
* `splitAfter` — the same division with every divider kept at the end of its piece.
* `toCrlf` — every line feed preceded by a carriage return.
* `hasCrlf` — whether some line ends in a carriage return and a line feed.
-/

namespace SqfLayout.Text

/-- The pieces of a list between the elements that satisfy the test, which are dropped. -/
def splitWhen {α : Type} (p : α → Bool) : List α → List (List α)
  | [] => [[]]
  | x :: xs =>
    if p x then [] :: splitWhen p xs
    else match splitWhen p xs with
      | [] => [[x]]
      | piece :: pieces => (x :: piece) :: pieces

/-- The pieces in a row with a divider between neighbours. -/
def joinWith {α : Type} (divider : α) : List (List α) → List α
  | [] => []
  | [piece] => piece
  | piece :: pieces => piece ++ divider :: joinWith divider pieces

/-- **The lines of a text**, without their line feeds.  There is always at least one. -/
def lines (cs : List Char) : List (List Char) := splitWhen (· == '\n') cs

/-- **The text of a sequence of lines.** -/
def unlines (ls : List (List Char)) : List Char := joinWith '\n' ls

/-- The pieces of a list cut after every element that satisfies the test. -/
def splitAfter {α : Type} (p : α → Bool) : List α → List (List α)
  | [] => []
  | x :: xs =>
    if p x then [x] :: splitAfter p xs
    else match splitAfter p xs with
      | [] => [[x]]
      | piece :: pieces => (x :: piece) :: pieces

/-- Every line feed becomes a carriage return and a line feed. -/
def toCrlf (cs : List Char) : List Char :=
  cs.flatMap fun c => if c == '\n' then ['\r', '\n'] else [c]

/-- Whether a carriage return is directly followed by a line feed. -/
def hasCrlf : List Char → Bool
  | [] => false
  | c :: rest => (c == '\r' && rest.head? == some '\n') || hasCrlf rest

end SqfLayout.Text
