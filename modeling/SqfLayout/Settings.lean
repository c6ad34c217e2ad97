import SqfLayout.Style
import SqfLayout.Toml.Document

/-!
# Settings

A settings file is a TOML document with at most three entries: `indent`, `normalize_case` and
`operator_spacing`.  Any other entry makes it unusable.

* `IndentUnit.ofValue?` — the unit that a value names.
* `readSettings?` — the settings of a file.
-/

namespace SqfLayout

open SqfLayout.Toml

/-- The unit with exactly a name. -/
def IndentUnit.ofName? (name : List Char) : Option IndentUnit :=
  [IndentUnit.spaces4, IndentUnit.tab].find? (·.name.toList == name)

/-- Whether a value holds nothing: an empty array or table. -/
def Toml.Value.isHollow : Value → Bool
  | .emptyArray => true
  | .table _ [] => true
  | _ => false

/-- **The unit that a value names**: a text with its name, or a table whose only entry has that name and
holds nothing. -/
def IndentUnit.ofValue? : Value → Option IndentUnit
  | .text name => ofName? name
  | .table _ [(name, value)] => if value.isHollow then ofName? name else none
  | _ => none

/-- The boolean that a value is. -/
def Toml.Value.flag? : Value → Option Bool
  | .flag on => some on
  | _ => none

/-- One entry of a settings file added to earlier ones. -/
def Overrides.addEntry? (o : Overrides) (entry : Key × Value) : Option Overrides :=
  let name := String.ofList entry.1
  if name = "indent" then do
    some { o with indent := some (← IndentUnit.ofValue? entry.2) }
  else if name = "normalize_case" then do
    some { o with normalizeCase := some (← entry.2.flag?) }
  else if name = "operator_spacing" then do
    some { o with operatorSpacing := some (← entry.2.flag?) }
  else none

/-- **The settings of a file**, or none if it is malformed or holds anything but settings. -/
def readSettings? (text : List Char) : Option Overrides := do
  (← document? text).foldlM Overrides.addEntry? {}

end SqfLayout
