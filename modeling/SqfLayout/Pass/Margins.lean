import SqfLayout.Text.Lines
import SqfLayout.Text.Offset
import SqfLayout.Text.Space
import SqfLayout.Scan.Line

/-!
# Margins

The first pass takes the white space off both ends of every line.  A line strictly inside a block
comment keeps its place relative to the rest of the comment body: the whole body is moved left by the
smallest indentation found in it.

* `bodyMargin` — the smallest indentation of a comment body, in bytes.
* `stripIndent` — a line without that much of its indentation, cut between characters.
* `stripMargins` — the pass.
-/

namespace SqfLayout.Pass

open SqfLayout.Text SqfLayout.Scan

/-- The number of bytes of white space that a line starts with. -/
def leadingSpace (line : List Char) : Nat := byteLength (line.takeWhile isSpace)

/-- A line without up to the given number of bytes of leading white space.  A character that reaches
over the limit goes as a whole. -/
def stripIndent : Nat → List Char → List Char
  | 0, line => line
  | _ + 1, [] => []
  | n + 1, c :: rest => if isSpace c then stripIndent (n + 1 - c.utf8Size) rest else c :: rest

/-- **The margin of the comment body** that the given lines start with: the least indentation of its
lines that hold anything. -/
def bodyMargin (rows : List (List Char × CommentPosition)) : Nat :=
  let body := (rows.takeWhile (·.2 == .inside)).map fun row => trimEnd row.1
  ((body.filter (!·.isEmpty)).map leadingSpace).min?.getD 0

/-- The lines without their margins.  Within a comment body its margin is carried along. -/
def stripRows : Option Nat → List (List Char × CommentPosition) → List (List Char)
  | _, [] => []
  | body, (line, position) :: rest =>
    if position == .inside then
      let margin := body.getD (bodyMargin ((line, position) :: rest))
      stripIndent margin (trimEnd line) :: stripRows (some margin) rest
    else
      trim line :: stripRows none rest

/-- **Every line without its margins.** -/
def stripMargins (text : List Char) : List Char :=
  unlines (stripRows none (positions .code (lines text)))

end SqfLayout.Pass
