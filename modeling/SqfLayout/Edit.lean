import SqfLayout.Format

/-!
# Edits

Formatting a document or a selection of it gives one edit: the replacement for a range of bytes.

* `Position`, `Selection` — places of a document by line and character, as an editor counts them.
* `TextEdit` — a replacement; `TextEdit.apply` carries it out and `TextEdit.isNoop` tells whether that
  would change anything.
* `snapToLines` — the whole lines that a selection touches.
* `formatRange`, `formatDocument` — the edits.
-/

namespace SqfLayout

open SqfLayout.Text

/-! ## Places -/

/-- A place by line and character, both counted from zero in 64 bits. -/
structure Position where
  line : UInt64
  character : UInt64
  deriving DecidableEq, Repr

/-- A selected part of a document. -/
structure Selection where
  start : Position
  stop : Position
  deriving DecidableEq, Repr

/-- **The selection of whole lines**, the last one included: it stops at the start of the line behind.
That line number is counted in 64 bits. -/
def Selection.lines (first last : UInt64) : Selection :=
  ⟨⟨first, 0⟩, ⟨max last first + 1, 0⟩⟩

/-! ## Replacements -/

/-- **The replacement of a range of bytes.** -/
structure TextEdit where
  start : Nat
  stop : Nat
  newText : List Char
  deriving DecidableEq, Repr

/-- Whether the range holds the new text already. -/
def TextEdit.isNoop (edit : TextEdit) (document : List Char) : Bool :=
  slice? edit.start edit.stop document == some edit.newText

/-- **A document with the edit carried out.**  A range beyond the end is cut off there; one that
divides a character changes nothing. -/
def TextEdit.apply (edit : TextEdit) (document : List Char) : List Char :=
  let stop := min edit.stop (byteLength document)
  let start := min edit.start stop
  match splitAtByte? start document, splitAtByte? stop document with
  | some (before, _), some (_, behind) => before ++ edit.newText ++ behind
  | _, _ => document

/-! ## Selections -/

/-- A line without the carriage return at its end. -/
def lineContent (line : List Char) : List Char :=
  if line.getLast? == some '\r' then line.dropLast else line

/-- The byte ranges of lines that start at an offset, without their line breaks. -/
def lineRangesFrom : Nat → List (List Char) → List (Nat × Nat)
  | _, [] => []
  | start, line :: rest =>
    (start, start + byteLength (lineContent line))
      :: lineRangesFrom (start + byteLength line + 1) rest

/-- **The byte ranges of the lines of a document.** -/
def lineRanges (document : List Char) : List (Nat × Nat) := lineRangesFrom 0 (lines document)

/-- The last line of a selection.  One that stops at the start of a later line does not touch it. -/
def Selection.lastLine (selection : Selection) : UInt64 :=
  if selection.stop.character == 0 && selection.start.line < selection.stop.line then
    selection.stop.line - 1
  else
    selection.stop.line

/-- **The byte range of the lines that a selection touches.**  Lines beyond the end count as the last
one, and a selection that ends before it starts as its first line. -/
def snapToLines (document : List Char) (selection : Selection) : Nat × Nat :=
  let ranges := lineRanges document
  let final := ranges.length - 1
  let first := min selection.start.line.toNat final
  let last := max first (min selection.lastLine.toNat final)
  ((ranges[first]?.getD (0, 0)).1, (ranges[last]?.getD (0, 0)).2)

/-! ## Formatting -/

/-- **The edit that formats the lines of a selection.** -/
def formatRange (style : Style) (vocabulary : Vocabulary) (selection : Selection)
    (document : List Char) : TextEdit :=
  let (start, stop) := snapToLines document selection
  let text := (slice? start stop document).getD []
  ⟨start, stop, withLineEndingsOf document (formatText style vocabulary text)⟩

/-- **The edit that formats a whole document**, its final line break kept. -/
def formatDocument (style : Style) (vocabulary : Vocabulary) (document : List Char) : TextEdit :=
  ⟨0, byteLength document, restoreLineEndings document (formatText style vocabulary document)⟩

end SqfLayout
