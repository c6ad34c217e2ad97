import SqfLayout.Text.Lines
import SqfLayout.Text.Number
import SqfLayout.Text.Space

/-!
# Ranges of lines

The lines to format can be given as `START:END` or as a single number, counted from one.

* `LineRange.read` — the range that a text writes, or why there is none.
* `LineRangeError.message` — the wording of the refusal.
-/

namespace SqfLayout.CommandLine

open SqfLayout.Text

/-- A range of lines counted from one, both ends included. -/
structure LineRange where
  first : Nat
  last : Nat
  deriving DecidableEq, Repr

/-- Why a text is not a range. -/
inductive LineRangeError
  | zero
  | notANumber (part : List Char) (cause : NumberError)
  | reversed (first last : Nat)
  deriving DecidableEq, Repr

/-- The wording of a refusal. -/
def LineRangeError.message : LineRangeError → String
  | .zero => "line numbers start at 1"
  | .notANumber part cause =>
    let written := String.ofList part
    let reason := cause.message
    s!"invalid line number '{written}': {reason}"
  | .reversed first last => s!"range {first}:{last} ends before it starts"

/-- A line number; white space around it does not count. -/
def readLineNumber (part : List Char) : Except LineRangeError Nat :=
  match readNumber (trim part) with
  | .ok 0 => .error .zero
  | .ok n => .ok n
  | .error cause => .error (.notANumber part cause)

/-- The parts of a text before and behind its first colon. -/
def splitColon? (text : List Char) : Option (List Char × List Char) :=
  match text.dropWhile (· != ':') with
  | [] => none
  | _ :: rest => some (text.takeWhile (· != ':'), rest)

/-- **The range that a text writes.** -/
def LineRange.read (text : List Char) : Except LineRangeError LineRange := do
  let (first, last) ←
    match splitColon? text with
    | some (first, last) => do
      let first ← readLineNumber first
      let last ← readLineNumber last
      pure (first, last)
    | none => do
      let line ← readLineNumber text
      pure (line, line)
  if last < first then throw (.reversed first last)
  return ⟨first, last⟩

/-- The range counted from zero. -/
def LineRange.zeroBased (range : LineRange) : Nat × Nat := (range.first - 1, range.last - 1)

end SqfLayout.CommandLine
