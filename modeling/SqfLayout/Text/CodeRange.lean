/-!
# Tables of code points

Character properties are given as tables of ranges in ascending order, and simple case mappings as
tables of rows that share a distance.

* `inRanges` — membership in a table of ranges.
* `CaseRow`, `CaseRow.image?` — one row of a case mapping and what it does to a code point.
* `mapByRows` — the mapping of a whole table.
-/

namespace SqfLayout.Text

/-- Whether a code point lies in one of the ranges.  The table ascends, so the search stops at the
first range that starts beyond the code point. -/
def inRanges : List (Nat × Nat) → Nat → Bool
  | [], _ => false
  | (first, last) :: rest, n =>
    if n < first then false else if n ≤ last then true else inRanges rest n

/-- **A row of a case mapping.**  Every `step`-th code point from `first` to `last` is moved by the
distance from `first` to `target`. -/
structure CaseRow where
  first : Nat
  last : Nat
  step : Nat
  target : Nat

/-- The image of a code point under one row, if the row maps it. -/
def CaseRow.image? (row : CaseRow) (n : Nat) : Option Nat :=
  if row.first ≤ n ∧ n ≤ row.last ∧ (n - row.first) % row.step = 0 then
    some (row.target + (n - row.first))
  else
    none

/-- The image of a code point under a table whose rows ascend by their first code point. -/
def mapByRows : List CaseRow → Nat → Option Nat
  | [], _ => none
  | row :: rest, n =>
    if n < row.first then none
    else match row.image? n with
      | some m => some m
      | none => mapByRows rest n

end SqfLayout.Text
