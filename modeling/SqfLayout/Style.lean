import SqfLayout.Text.Space

/-!
# Style

What a user may choose about the layout, and how choices are combined.

* `IndentUnit` — four spaces or a tab for a level.
* `Style` — a value for every setting.
* `Overrides` — values for some settings; `Style.override` lets them win over a style.
-/

namespace SqfLayout

/-- The indentation of one level. -/
inductive IndentUnit
  | spaces4
  | tab
  deriving DecidableEq, Repr, Inhabited

namespace IndentUnit

/-- The text of one level. -/
def text : IndentUnit → List Char
  | .spaces4 => [' ', ' ', ' ', ' ']
  | .tab => ['\t']

/-- The text of a number of levels. -/
def indentation (unit : IndentUnit) (level : Nat) : List Char :=
  (List.replicate level unit.text).flatten

/-- The name of a unit in settings and messages. -/
def name : IndentUnit → String
  | .spaces4 => "spaces4"
  | .tab => "tab"

/-- **The unit that a word names**, in any ASCII case; a word that names none is given back in lower
case. -/
def read (word : String) : Except String IndentUnit :=
  let lower := String.ofList (word.toList.map Char.toLower)
  if lower = "spaces4" ∨ lower = "spaces" ∨ lower = "4" then .ok .spaces4
  else if lower = "tab" ∨ lower = "tabs" then .ok .tab
  else .error lower

/-- The wording for a word that names no unit. -/
def unknownMessage (word : String) : String :=
  s!"unknown indent unit '{word}' (expected 'spaces4' or 'tab')"

end IndentUnit

/-- **A value for every setting.**  The defaults are four spaces, canonical spelling and spaced
operators. -/
structure Style where
  indent : IndentUnit := .spaces4
  normalizeCase : Bool := true
  operatorSpacing : Bool := true
  deriving DecidableEq, Repr

/-- **Values for some of the settings.** -/
structure Overrides where
  indent : Option IndentUnit := none
  normalizeCase : Option Bool := none
  operatorSpacing : Option Bool := none
  deriving DecidableEq, Repr, Inhabited

/-- Whether no setting is given. -/
def Overrides.isEmpty (o : Overrides) : Bool :=
  o.indent.isNone && o.normalizeCase.isNone && o.operatorSpacing.isNone

/-- **A style with the given settings replaced**, the others kept. -/
def Style.override (style : Style) (o : Overrides) : Style where
  indent := o.indent.getD style.indent
  normalizeCase := o.normalizeCase.getD style.normalizeCase
  operatorSpacing := o.operatorSpacing.getD style.operatorSpacing

end SqfLayout
