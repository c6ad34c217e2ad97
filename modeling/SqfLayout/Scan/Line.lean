import SqfLayout.Scan.Cell

/-!
# Scanning line by line

Lines are scanned one at a time, each entered in the mode that the one before it left behind.  A line
comment ends with its line.

* `CommentPosition` — how a line lies to block comments.
* `scanLine` — the cells of a line, its position and the mode for the next line.
-/

namespace SqfLayout.Scan

/-- **How a line lies to block comments**, by where it starts and where it ends. -/
inductive CommentPosition
  | code
  | opens
  | inside
  | closes
  deriving DecidableEq, Repr, Inhabited

/-- The position of a line that starts and ends in the given modes. -/
def CommentPosition.between (start stop : Mode) : CommentPosition :=
  match start == .block, stop == .block with
  | false, false => .code
  | false, true => .opens
  | true, true => .inside
  | true, false => .closes

/-- A scanned line. -/
structure ScannedLine where
  position : CommentPosition
  cells : List Cell
  deriving Repr

/-- Whether a line holds any comment text. -/
def ScannedLine.hasComment (line : ScannedLine) : Bool := line.cells.any (·.kind == .comment)

/-- The mode in which the next line starts. -/
def Mode.afterLine : Mode → Mode
  | .line => .code
  | mode => mode

/-- **One line** without its line feed, entered in the given mode. -/
def scanLine (mode : Mode) (line : List Char) : ScannedLine × Mode :=
  let next := (modeAfter mode line).afterLine
  (⟨.between mode next, labelFrom (.ready mode) line⟩, next)

/-- The lines of a text with their positions. -/
def positions : Mode → List (List Char) → List (List Char × CommentPosition)
  | _, [] => []
  | mode, line :: rest =>
    let scanned := scanLine mode line
    (line, scanned.1.position) :: positions scanned.2 rest

end SqfLayout.Scan
