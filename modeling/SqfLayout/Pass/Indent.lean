import SqfLayout.Style
import SqfLayout.Text.Lines
import SqfLayout.Text.Space
import SqfLayout.Scan.Line

/-!
# Indentation

The last pass puts every line at the depth of the brackets around it and thins out blank lines.  A
line counts by its brackets as a whole: however many it opens or closes, the depth moves by one.

* `DepthChange` — how a line moves the depth.
* `Indenter` — what is carried from line to line.
* `Indenter.line` — one line: its new form, unless it is dropped.
* `indentLines` — the pass.
-/

namespace SqfLayout.Pass

open SqfLayout.Text SqfLayout.Scan

/-! ## Depth -/

/-- **How a line moves the depth.** -/
inductive DepthChange
  /-- More brackets open than close: the lines behind it are one level deeper. -/
  | opening
  /-- More brackets close than open: the line itself is one level up. -/
  | closing
  /-- As many open as close, and a closing one comes first: only this line is one level up. -/
  | hanging
  | level
  deriving DecidableEq, Repr

/-- Whether a closing bracket stands before the first opening one of its kind. -/
def closesFirst (line : List Char) (opening closing : Char) : Bool :=
  (line.takeWhile (· != opening)).contains closing

/-- The change that a line makes, from all of its brackets and braces. -/
def DepthChange.of (line : List Char) : DepthChange :=
  let opens := line.count '[' + line.count '{'
  let closes := line.count ']' + line.count '}'
  if closes < opens then .opening
  else if opens < closes then .closing
  else if closesFirst line '[' ']' || closesFirst line '{' '}' then .hanging
  else .level

/-! ## The body of a line -/

/-- A line with a comment, without the tabs outside its literals. -/
def dropTabs (cells : List Cell) : List Char :=
  chars (cells.filter fun cell => cell.char != '\t' || cell.kind == .literal)

/-- A line with every run of blanks squeezed to a space, if it is longer than one and starts outside
a literal.  The flag tells that the rest of such a run is being dropped. -/
def squeezeFrom : Bool → List Cell → List Char
  | _, [] => []
  | dropping, cell :: rest =>
    if dropping && isBlank cell.char then squeezeFrom true rest
    else if cell.kind != .literal && isBlank cell.char && rest.head?.any (isBlank ·.char) then
      ' ' :: squeezeFrom true rest
    else
      cell.char :: squeezeFrom false rest

/-- **The text of a line behind its indentation.**  A line strictly inside a block comment is kept
whole. -/
def lineBody (scanned : ScannedLine) : List Char :=
  match scanned.position with
  | .inside => chars scanned.cells
  | .opens => chars (trimCells scanned.cells)
  | .closes => chars (trimCells scanned.cells)
  | .code =>
    if scanned.hasComment then dropTabs (trimCells scanned.cells)
    else squeezeFrom false (trimCells scanned.cells)

/-! ## Line by line -/

/-- **What is carried from line to line**: the depth, whether the last line was blank, whether blank
lines are dropped because a bracket was opened, and the scan mode. -/
structure Indenter where
  unit : IndentUnit
  depth : Nat := 0
  afterBlank : Bool := false
  afterOpening : Bool := false
  mode : Mode := .code

/-- A blank line: kept as an empty one unless another or an opening line came before it. -/
def Indenter.blankLine (s : Indenter) : Option (List Char) × Indenter :=
  if s.afterOpening then (none, s)
  else (if s.afterBlank then none else some [], { s with afterBlank := true })

/-- A line that is not blank. -/
def Indenter.fullLine (s : Indenter) (line : List Char) : List Char × Indenter :=
  let (scanned, mode) := scanLine s.mode line
  let s := { s with afterBlank := false, afterOpening := false, mode }
  let (level, s) :=
    match DepthChange.of line with
    | .opening => (s.depth, { s with depth := s.depth + 1, afterOpening := true })
    | .closing => (s.depth - 1, { s with depth := s.depth - 1 })
    | .hanging => (s.depth - 1, s)
    | .level => (s.depth, s)
  let level := if scanned.position == .inside then level + 1 else level
  (s.unit.indentation level ++ lineBody scanned, s)

/-- **One line.**  A blank line may be dropped; it is not scanned. -/
def Indenter.line (s : Indenter) (line : List Char) : Option (List Char) × Indenter :=
  if isBare line then s.blankLine
  else
    let (placed, s) := s.fullLine line
    (some placed, s)

/-- The lines that are kept. -/
def Indenter.lines : Indenter → List (List Char) → List (List Char)
  | _, [] => []
  | s, line :: rest =>
    match s.line line with
    | (some placed, s) => placed :: s.lines rest
    | (none, s) => s.lines rest

/-- **Every line at its depth**, without blank lines at the start and the end. -/
def indentLines (unit : IndentUnit) (text : List Char) : List Char :=
  let joined := unlines (Indenter.lines { unit } (lines text))
  (dropEndWhile (· == '\n') joined).dropWhile (· == '\n')

end SqfLayout.Pass
