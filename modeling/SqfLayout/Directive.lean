import SqfLayout.Style
import SqfLayout.Text.Casing
import SqfLayout.Text.Lines
import SqfLayout.Text.Utf8

/-!
# Directives

A script may choose its own settings in a line comment such as
`// sqfprettier: --indent tab --no-case`.  Only the first such line counts.

* `directiveOptions?` — the options of a line, if it is a directive.
* `readOptions` — the settings that options choose; unknown ones are passed over.
* `readDirective?` — the settings of a line.
* `findDirective?` — the settings of a file.
-/

namespace SqfLayout

open SqfLayout.Text

/-- The rest of a text behind folded characters that it starts with, up to case. -/
def stripFolded? : List Char → List Char → Option (List Char)
  | [], text => some text
  | _ :: _, [] => none
  | c :: folded, d :: text => if foldCase d == c then stripFolded? folded text else none

/-- The word that marks a directive. -/
def directiveMark : List Char := "sqfprettier:".toList

/-- **The options of a directive line.**  The line is a comment whose first word is the mark; what
follows must not run over a line break. -/
def directiveOptions? (line : List Char) : Option (List Char) := do
  let comment ← stripFolded? ['/', '/'] (trimStart line)
  let options := trim (← stripFolded? directiveMark (trimStart comment))
  if options.contains '\n' then none else some options

/-- A single option added to earlier ones. -/
def readOption (chosen : Overrides) (word : String) : Overrides :=
  if word = "-i" ∨ word = "--indent" then { chosen with indent := none }
  else if word = "--no-case" then { chosen with normalizeCase := some false }
  else if word = "--case" then { chosen with normalizeCase := some true }
  else if word = "--no-operator-spacing" then { chosen with operatorSpacing := some false }
  else if word = "--operator-spacing" then { chosen with operatorSpacing := some true }
  else chosen

/-- **The settings that a list of options chooses**, added to earlier ones.  The later of two options
for a setting wins; an indentation without a unit takes the earlier one back. -/
def readOptions : Overrides → List String → Overrides
  | chosen, [] => chosen
  | chosen, [word] => readOption chosen word
  | chosen, word :: value :: rest =>
    if word = "-i" ∨ word = "--indent" then
      readOptions { chosen with indent := (IndentUnit.read value).toOption } rest
    else
      readOptions (readOption chosen word) (value :: rest)

/-- Overrides that set something. -/
def Overrides.nonempty? (o : Overrides) : Option Overrides := if o.isEmpty then none else some o

/-- The settings of the options of a directive, if they set anything. -/
def readDirectiveOptions? (options : List Char) : Option Overrides :=
  (readOptions {} ((words options).map String.ofList)).nonempty?

/-- Whether a line is a directive. -/
def isDirective (line : List Char) : Bool := (directiveOptions? line).isSome

/-- **The settings of a line**, if it is a directive that sets anything. -/
def readDirective? (line : List Char) : Option Overrides :=
  (directiveOptions? line).bind readDirectiveOptions?

/-- The settings of the first directive among lines of bytes.  A line that is not text ends the
search. -/
def findDirectiveIn? : List (List UInt8) → Option Overrides
  | [] => none
  | bytes :: rest =>
    match decode bytes with
    | .error _ => none
    | .ok line =>
      if isDirective line then readDirective? line else findDirectiveIn? rest

/-- **The settings that a file chooses for itself.** -/
def findDirective? (bytes : List UInt8) : Option Overrides :=
  findDirectiveIn? (splitAfter (· == 10) bytes)

end SqfLayout
