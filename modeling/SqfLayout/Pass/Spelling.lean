import SqfLayout.Vocabulary.Basic

/-!
# Spelling

Known commands and functions take their canonical spelling, in comments too; string literals are left
alone.

* `respell` — the canonical spelling of an occurrence.
* `spellWords` — the pass.
-/

namespace SqfLayout.Pass

open SqfLayout.Scan

/-- **The canonical spelling of an occurrence.**  One that starts in a literal stays as it is; the
others keep the class of their first character. -/
def respell (v : Vocabulary) (taken : List Cell) : List Cell :=
  match taken.head? with
  | none => []
  | some first =>
    if first.kind == .literal then taken
    else match v.canonical? (chars taken) with
      | none => taken
      | some word => word.map fun c => ⟨c, first.kind⟩

/-- **Known words in their canonical spelling.** -/
def spellWords (v : Vocabulary) (text : List Char) : List Char :=
  if v.isEmpty then text
  else chars (replaceFound v.finder (fun taken _ => respell v taken) (label text))

end SqfLayout.Pass
