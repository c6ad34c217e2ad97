import SqfLayout.Text.Casing
import SqfLayout.Text.Space
import SqfLayout.Text.Word
import SqfLayout.Occurrence

/-!
# Control headers

Three fixed idioms open a block: `if (…) then {` (or `exitWith`), `} else {` and `while { … } do {`.
Their parts may be written with any white space in between, line breaks included, and in any case;
the condition keeps to one line.

* `Conditional`, `Alternative`, `Loop` — the parts of the three idioms.
* `conditional?`, `alternative?`, `loop?` — the idiom at the start of a text.
* `Conditional.canonical`, … — the idiom with canonical white space.
* `spaceHeaders` — the pass: all conditionals, then all alternatives, then all loops.
-/

namespace SqfLayout.Pass

open SqfLayout.Text SqfLayout.Scan

/-! ## Reading -/

/-- A word at the start of a text, without regard to case, and the rest of the text. -/
def keyword? : List Char → List Cell → Option (List Cell × List Cell)
  | [], cells => some ([], cells)
  | _ :: _, [] => none
  | c :: word, cell :: rest =>
    if foldCase cell.char == c then
      (keyword? word rest).map fun read => (cell :: read.1, read.2)
    else
      none

/-- The white space at the start of a text, and the rest of the text. -/
def gap (cells : List Cell) : List Cell × List Cell :=
  cells.span fun cell => isSpace cell.char

/-- The rest of a text that starts with the given character. -/
def afterMark? (c : Char) : List Cell → Option (List Cell)
  | [] => none
  | cell :: rest => if cell.char == c then some rest else none

/-- **The shortest stretch of a line behind which `close` succeeds**, and what it gives there.  The
last character of the stretch is known to `close`; a stretch starts behind the given one. -/
def shortest {α : Type} (close : Option Char → List Cell → Option α) :
    Option Char → List Cell → Option (List Cell × α)
  | last, [] => (close last []).map fun found => ([], found)
  | last, cell :: rest =>
    match close last (cell :: rest) with
    | some found => some ([], found)
    | none =>
      if cell.char == '\n' then none
      else (shortest close (some cell.char) rest).map fun read => (cell :: read.1, read.2)

/-! ## The idioms -/

/-- The parts of `if (condition) branch {`, with the white space between them. -/
structure Conditional where
  keyword : List Cell
  gap₁ : List Cell
  condition : List Cell
  gap₂ : List Cell
  branch : List Cell
  gap₃ : List Cell

/-- The parts of `} keyword {`. -/
structure Alternative where
  gap₁ : List Cell
  keyword : List Cell
  gap₂ : List Cell

/-- The parts of `while { condition } body {`. -/
structure Loop where
  keyword : List Cell
  gap₁ : List Cell
  gap₂ : List Cell
  condition : List Cell
  gap₃ : List Cell
  gap₄ : List Cell
  body : List Cell
  gap₅ : List Cell

/-- What follows the condition of a conditional: the parenthesis, the branch word and the brace. -/
def conditionalTail? (cells : List Cell) : Option (List Cell × List Cell × List Cell) := do
  let (gap₂, rest) := gap (← afterMark? ')' cells)
  let (branch, rest) ←
    (keyword? ['t', 'h', 'e', 'n'] rest).or
      (keyword? ['e', 'x', 'i', 't', 'w', 'i', 't', 'h'] rest)
  let (gap₃, rest) := gap rest
  let _ ← afterMark? '{' rest
  return (gap₂, branch, gap₃)

/-- The conditional at the start of a text; its first word must start there. -/
def conditional? (before : Option Char) (cells : List Cell) : Option Conditional := do
  guard (atBoundary before (cells.head?.map Cell.char))
  let (keyword, rest) ← keyword? ['i', 'f'] cells
  let (gap₁, rest) := gap rest
  let rest ← afterMark? '(' rest
  let (condition, gap₂, branch, gap₃) ← shortest (fun _ => conditionalTail?) none rest
  return { keyword, gap₁, condition, gap₂, branch, gap₃ }

/-- The alternative at the start of a text. -/
def alternative? (cells : List Cell) : Option Alternative := do
  let (gap₁, rest) := gap (← afterMark? '}' cells)
  let (keyword, rest) ← keyword? ['e', 'l', 's', 'e'] rest
  let (gap₂, rest) := gap rest
  let _ ← afterMark? '{' rest
  return { gap₁, keyword, gap₂ }

/-- What follows the condition of a loop.  The white space before the brace is no part of the condition,
so that never ends in white space. -/
def loopTail? (last : Option Char) (cells : List Cell) :
    Option (List Cell × List Cell × List Cell × List Cell) := do
  guard (!last.any isSpace)
  let (gap₃, rest) := gap cells
  let (gap₄, rest) := gap (← afterMark? '}' rest)
  let (body, rest) ← keyword? ['d', 'o'] rest
  let (gap₅, rest) := gap rest
  let _ ← afterMark? '{' rest
  return (gap₃, gap₄, body, gap₅)

/-- The loop at the start of a text; its first word must start there. -/
def loop? (before : Option Char) (cells : List Cell) : Option Loop := do
  guard (atBoundary before (cells.head?.map Cell.char))
  let (keyword, rest) ← keyword? ['w', 'h', 'i', 'l', 'e'] cells
  let (gap₁, rest) := gap rest
  let (gap₂, rest) := gap (← afterMark? '{' rest)
  let (condition, gap₃, gap₄, body, gap₅) ← shortest loopTail? none rest
  return { keyword, gap₁, gap₂, condition, gap₃, gap₄, body, gap₅ }

/-! ## Sizes -/

/-- The cells of a conditional: its parts, two parentheses and a brace. -/
def Conditional.size (h : Conditional) : Nat :=
  h.keyword.length + h.gap₁.length + 1 + h.condition.length + 1 + h.gap₂.length + h.branch.length
    + h.gap₃.length + 1

/-- The cells of an alternative: its parts and two braces. -/
def Alternative.size (h : Alternative) : Nat :=
  1 + h.gap₁.length + h.keyword.length + h.gap₂.length + 1

/-- The cells of a loop: its parts and three braces. -/
def Loop.size (h : Loop) : Nat :=
  h.keyword.length + h.gap₁.length + 1 + h.gap₂.length + h.condition.length + h.gap₃.length + 1
    + h.gap₄.length + h.body.length + h.gap₅.length + 1

/-- The byte range of a part that starts at an offset. -/
def partSpan (start : Nat) (part : List Cell) : Nat × Nat :=
  (start, start + byteLength (chars part))

/-- The byte ranges of the words and the condition of a conditional at an offset. -/
def Conditional.parts (h : Conditional) (start : Nat) : List (Nat × Nat) :=
  let keyword := partSpan start h.keyword
  let condition := partSpan ((partSpan keyword.2 h.gap₁).2 + 1) h.condition
  let branch := partSpan (partSpan (condition.2 + 1) h.gap₂).2 h.branch
  [keyword, condition, branch]

/-- The byte range of the word of an alternative at an offset. -/
def Alternative.parts (h : Alternative) (start : Nat) : List (Nat × Nat) :=
  [partSpan (partSpan (start + 1) h.gap₁).2 h.keyword]

/-- The byte ranges of the words and the condition of a loop at an offset. -/
def Loop.parts (h : Loop) (start : Nat) : List (Nat × Nat) :=
  let keyword := partSpan start h.keyword
  let condition := partSpan (partSpan ((partSpan keyword.2 h.gap₁).2 + 1) h.gap₂).2 h.condition
  let body := partSpan (partSpan ((partSpan condition.2 h.gap₃).2 + 1) h.gap₄).2 h.body
  [keyword, condition, body]

/-! ## Canonical forms -/

/-- Cells of code with the given text. -/
def codeCells (text : List Char) : List Cell := text.map Cell.code

/-- `if (condition) branch {` with single spaces. -/
def Conditional.canonical (h : Conditional) : List Cell :=
  h.keyword ++ codeCells [' ', '('] ++ trimCells h.condition ++ codeCells [')', ' '] ++ h.branch
    ++ codeCells [' ', '{']

/-- `} keyword {` with single spaces. -/
def Alternative.canonical (h : Alternative) : List Cell :=
  codeCells ['}', ' '] ++ h.keyword ++ codeCells [' ', '{']

/-- `while { condition } body {` with single spaces, and a bare pair of braces for a condition that
is empty. -/
def Loop.canonical (h : Loop) : List Cell :=
  match trimCells h.condition with
  | [] => h.keyword ++ codeCells [' ', '{', '}', ' '] ++ h.body ++ codeCells [' ', '{']
  | condition =>
    h.keyword ++ codeCells [' ', '{', ' '] ++ condition ++ codeCells [' ', '}', ' '] ++ h.body
      ++ codeCells [' ', '{']

/-! ## The pass -/

/-- Conditionals, from left to right. -/
def conditionalFinder : Finder Conditional := fun before cells =>
  (conditional? before cells).map fun h => (h.size, h)

/-- Alternatives, from left to right. -/
def alternativeFinder : Finder Alternative := fun _ cells =>
  (alternative? cells).map fun h => (h.size, h)

/-- Loops, from left to right. -/
def loopFinder : Finder Loop := fun before cells =>
  (loop? before cells).map fun h => (h.size, h)

/-- A header that starts in code takes its canonical form; one that starts in a literal or a comment
stays as it is. -/
def inCode (taken canonical : List Cell) : List Cell :=
  if taken.head?.any (·.kind == .code) then canonical else taken

/-- **Canonical white space in the headers of code.**  The text is scanned anew for each idiom. -/
def spaceHeaders (text : List Char) : List Char :=
  let text :=
    chars (replaceFound conditionalFinder (fun taken h => inCode taken h.canonical) (label text))
  let text :=
    chars (replaceFound alternativeFinder (fun taken h => inCode taken h.canonical) (label text))
  chars (replaceFound loopFinder (fun taken h => inCode taken h.canonical) (label text))

/-! ## Occurrences -/

/-- **The idioms that open a block.** -/
inductive Idiom
  | conditional
  | alternative
  | loop
  deriving DecidableEq, Repr

/-- **The occurrences of an idiom in a text**, wherever they stand: the byte range of each, followed by
those of its words and its condition. -/
def Idiom.occurrences (idiom : Idiom) (text : List Char) : List (List (Nat × Nat)) :=
  let cells := label text
  match idiom with
  | .conditional => (SqfLayout.occurrences conditionalFinder cells).map fun (start, taken, h) =>
      partSpan start taken :: h.parts start
  | .alternative => (SqfLayout.occurrences alternativeFinder cells).map fun (start, taken, h) =>
      partSpan start taken :: h.parts start
  | .loop => (SqfLayout.occurrences loopFinder cells).map fun (start, taken, h) =>
      partSpan start taken :: h.parts start

end SqfLayout.Pass
