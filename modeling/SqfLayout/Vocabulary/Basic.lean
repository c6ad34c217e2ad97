import SqfLayout.Text.Casing
import SqfLayout.Text.Word
import SqfLayout.Occurrence

/-!
# Vocabulary

A vocabulary lists the canonical spellings of commands and functions.  A word of a script that agrees
with an entry up to case is the entry in another spelling.

* `Vocabulary.ofLists` — the vocabulary of two lists.
* `Vocabulary.canonical?` — the entry with the same lower-case form as a word; of several, the last.
* `Vocabulary.finder` — the occurrences of entries in a text, the longest entry first at each place.

An entry without upper or lower case has only one spelling and is never looked for.
-/

namespace SqfLayout

open SqfLayout.Text SqfLayout.Scan

/-- **An entry as it is looked for**: its folded characters, and whether it must start or end at the
edge of a word because it starts or ends like a name. -/
structure SearchForm where
  folded : List Char
  edgeBefore : Bool
  edgeBehind : Bool

/-- The search form of an entry. -/
def SearchForm.ofWord (word : List Char) : SearchForm where
  folded := word.map foldCase
  edgeBefore := word.head?.any isNameChar
  edgeBehind := word.getLast?.any isNameChar

/-- The cells behind some folded characters that a text starts with, up to case; the character before
those cells comes with them. -/
def afterFolded? : Option Char → List Char → List Cell → Option (Option Char × List Cell)
  | before, [], cells => some (before, cells)
  | _, _ :: _, [] => none
  | _, c :: folded, cell :: rest =>
    if foldCase cell.char == c then afterFolded? (some cell.char) folded rest else none

/-- Whether an entry occurs at the start of a text.  The flag tells whether a word starts or ends
there. -/
def SearchForm.occursAt (form : SearchForm) (edge : Bool) (before : Option Char) (cells : List Cell) :
    Bool :=
  (!form.edgeBefore || edge)
    && match afterFolded? before form.folded cells with
      | none => false
      | some (last, rest) => !form.edgeBehind || atBoundary last (rest.head?.map Cell.char)

/-- Search forms under their first character, with one more form in front of those that share it. -/
def addForm (form : SearchForm) : List (Option Char × List SearchForm) →
    List (Option Char × List SearchForm)
  | [] => [(form.folded.head?, [form])]
  | (initial, forms) :: rest =>
    if initial == form.folded.head? then (initial, form :: forms) :: rest
    else (initial, forms) :: addForm form rest

/-- **Search forms under their first character.**  Those that share it keep their order. -/
def groupForms (forms : List SearchForm) : List (Option Char × List SearchForm) :=
  forms.foldr addForm []

/-- **A vocabulary**: its two lists, the entries by their lower-case form, and their search forms under
their first character, in the order in which they are tried. -/
structure Vocabulary where
  commands : List (List Char)
  functions : List (List Char)
  spellings : List (List Char × List Char)
  searchForms : List (Option Char × List SearchForm)

namespace Vocabulary

/-- The entries that have more than one spelling, each under its lower-case form. -/
def casedEntries (words : List (List Char)) : List (List Char × List Char) :=
  (words.filter (·.any hasCase)).map fun word => (lowercase word, word)

/-- The entries without those that a later one replaces. -/
def lastEntries : List (List Char × List Char) → List (List Char × List Char)
  | [] => []
  | entry :: rest =>
    if rest.any (·.1 == entry.1) then lastEntries rest else entry :: lastEntries rest

/-- Whether a text comes no later than another by code points. -/
def notAfter : List Char → List Char → Bool
  | [], _ => true
  | _ :: _, [] => false
  | a :: as, b :: bs => if a == b then notAfter as bs else a.toNat < b.toNat

/-- The order in which entries are tried: the one with more bytes first, and among equals the one that
comes first by code points. -/
def triedBefore (a b : List Char) : Bool :=
  let m := byteLength a
  let n := byteLength b
  if m == n then notAfter a b else n < m

/-- **The vocabulary of a list of commands and a list of functions.**  Entries that agree up to case
replace each other, the functions counting as later than the commands. -/
def ofLists (commands functions : List (List Char)) : Vocabulary :=
  let spellings := lastEntries (casedEntries (commands ++ functions))
  { commands, functions, spellings
    searchForms :=
      groupForms (((spellings.map Prod.snd).mergeSort triedBefore).map SearchForm.ofWord) }

/-- The vocabulary without entries. -/
def empty : Vocabulary := ⟨[], [], [], []⟩

/-- Whether no entry is looked for. -/
def isEmpty (v : Vocabulary) : Bool := v.spellings.isEmpty

/-- **The canonical spelling of a word**, if it is an entry up to case. -/
def canonical? (v : Vocabulary) (word : List Char) : Option (List Char) :=
  let key := lowercase word
  (v.spellings.find? (·.1 == key)).map Prod.snd

/-- The search forms that may occur at the start of a text: those with its first character. -/
def formsFor (v : Vocabulary) (cells : List Cell) : List SearchForm :=
  (v.searchForms.lookup (cells.head?.map fun cell => foldCase cell.char)).getD []

/-- **The occurrences of entries.**  At each place the first entry that occurs is taken. -/
def finder (v : Vocabulary) : Finder Unit := fun before cells =>
  match v.formsFor cells with
  | [] => none
  | forms =>
    let edge := atBoundary before (cells.head?.map Cell.char)
    (forms.find? (·.occursAt edge before cells)).map fun form => (form.folded.length, ())

end Vocabulary

end SqfLayout
