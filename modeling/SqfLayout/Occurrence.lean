import SqfLayout.Scan.Cell

/-!
# Leftmost occurrences

Several passes look for occurrences of a pattern from left to right.  An occurrence is taken at the
first place where one starts, and the search goes on behind it, so occurrences never overlap.

* `Finder` — decides whether an occurrence starts at a place.  It sees the character before the place
  and the cells from there on.
* `Segment` — a cell that belongs to no occurrence, or a whole occurrence.
* `segments` — the division of a text into segments; nothing is lost, reordered or added.
* `replaceFound` — every occurrence replaced.
* `spans` — the byte ranges of the occurrences.
-/

namespace SqfLayout

open SqfLayout.Text SqfLayout.Scan

/-- **A finder** gives the number of cells of the occurrence that starts at a place, at least one, and
what was found. -/
def Finder (α : Type) := Option Char → List Cell → Option (Nat × α)

/-- A part of a text as a finder divides it. -/
inductive Segment (α : Type)
  | plain (cell : Cell)
  | found (cells : List Cell) (what : α)

/-- The cells of a segment. -/
def Segment.cells {α : Type} : Segment α → List Cell
  | .plain cell => [cell]
  | .found cells _ => cells

/-- The division of a text after a given character.  The number counts the cells ahead that belong to
an occurrence already found. -/
def segmentsFrom {α : Type} (find : Finder α) : Nat → Option Char → List Cell → List (Segment α)
  | _, _, [] => []
  | n + 1, _, cell :: rest => segmentsFrom find n (some cell.char) rest
  | 0, before, cell :: rest =>
    match find before (cell :: rest) with
    | some (n, what) =>
      .found ((cell :: rest).take n) what :: segmentsFrom find (n - 1) (some cell.char) rest
    | none => .plain cell :: segmentsFrom find 0 (some cell.char) rest

/-- **The division of a text** into occurrences and the cells between them. -/
def segments {α : Type} (find : Finder α) (cells : List Cell) : List (Segment α) :=
  segmentsFrom find 0 none cells

/-- **Every occurrence replaced.**  The replacement may look at the cells that it replaces. -/
def replaceFound {α : Type} (find : Finder α) (replace : List Cell → α → List Cell)
    (cells : List Cell) : List Cell :=
  (segments find cells).flatMap fun segment =>
    match segment with
    | .plain cell => [cell]
    | .found taken what => replace taken what

/-- The occurrences among segments that start at an offset, each with its own offset. -/
def foundFrom {α : Type} : Nat → List (Segment α) → List (Nat × List Cell × α)
  | _, [] => []
  | offset, .plain cell :: rest => foundFrom (offset + cell.char.utf8Size) rest
  | offset, .found cells what :: rest =>
    (offset, cells, what) :: foundFrom (offset + byteLength (chars cells)) rest

/-- **The occurrences of a text** with their byte offsets. -/
def occurrences {α : Type} (find : Finder α) (cells : List Cell) : List (Nat × List Cell × α) :=
  foundFrom 0 (segments find cells)

/-- **The byte ranges of the occurrences.** -/
def spans {α : Type} (find : Finder α) (cells : List Cell) : List (Nat × Nat) :=
  (occurrences find cells).map fun found => (found.1, found.1 + byteLength (chars found.2.1))

end SqfLayout
