import SqfLayout.Pass.Braces
import SqfLayout.Pass.Commas
import SqfLayout.Pass.Headers
import SqfLayout.Pass.Indent
import SqfLayout.Pass.Margins
import SqfLayout.Pass.Operators
import SqfLayout.Pass.Parens
import SqfLayout.Pass.Spelling
import SqfLayout.Pass.Statements
import SqfLayout.Text.Utf8
import SqfLayout.Vocabulary.Builtin

/-!
# Formatting

A script is formatted by ten passes in a fixed order, each on the result of the one before.  Two of
them can be switched off.

* `LayoutPass` — the passes; `LayoutPass.all` lists them in order.
* `formatText` — all passes that a style enables.
* `restoreLineEndings` — the formatted text with the line endings of its source.
* `formatBytes` — a whole file.
-/

namespace SqfLayout

open SqfLayout.Text

/-! ## Passes -/

/-- **The passes of the formatter.** -/
inductive LayoutPass
  | margins
  | braces
  | spelling
  | commas
  | operators
  | headers
  | statements
  | semicolons
  | parens
  | indent
  deriving DecidableEq, Repr

namespace LayoutPass

/-- **The passes in the order in which they run.** -/
def all : List LayoutPass :=
  [margins, braces, spelling, commas, operators, headers, statements, semicolons, parens, indent]

/-- The name by which a pass is asked for. -/
def name : LayoutPass → String
  | margins => "strip-whitespace"
  | braces => "normalize-braces"
  | spelling => "normalize-identifiers"
  | commas => "normalize-commas"
  | operators => "space-operators"
  | headers => "normalize-control"
  | statements => "split-statements"
  | semicolons => "clean-semicolons"
  | parens => "trim-parentheses"
  | indent => "indent"

/-- The pass with a name. -/
def ofName? (name : String) : Option LayoutPass := all.find? (·.name == name)

/-- Whether a style lets a pass run. -/
def enabled (style : Style) : LayoutPass → Bool
  | spelling => style.normalizeCase
  | operators => style.operatorSpacing
  | _ => true

/-- **What a pass does to a text.** -/
def apply (style : Style) (vocabulary : Vocabulary) : LayoutPass → List Char → List Char
  | margins => Pass.stripMargins
  | braces => Pass.breakBraces
  | spelling => Pass.spellWords vocabulary
  | commas => Pass.spaceCommas
  | operators => Pass.spaceOperators
  | headers => Pass.spaceHeaders
  | statements => Pass.splitStatements
  | semicolons => Pass.joinSemicolons
  | parens => Pass.trimParens
  | indent => Pass.indentLines style.indent

end LayoutPass

/-- **A formatted text.**  Its lines end in line feeds, and none is blank at its start or end. -/
def formatText (style : Style) (vocabulary : Vocabulary) (text : List Char) : List Char :=
  (LayoutPass.all.filter (·.enabled style)).foldl (fun t pass => pass.apply style vocabulary t) text

/-- The texts after each of the given passes in turn; a pass that is switched off gives none. -/
def formatTrace (style : Style) (vocabulary : Vocabulary) :
    List LayoutPass → List Char → List (LayoutPass × Option (List Char))
  | [], _ => []
  | pass :: rest, text =>
    if pass.enabled style then
      let text := pass.apply style vocabulary text
      (pass, some text) :: formatTrace style vocabulary rest text
    else
      (pass, none) :: formatTrace style vocabulary rest text

/-! ## Line endings -/

/-- Whether a text ends with the given characters. -/
def endsWith (text ending : List Char) : Bool := ending.reverse.isPrefixOf text.reverse

/-- The line endings of a source given to a text without a final line break: carriage returns if the
source has them anywhere. -/
def withLineEndingsOf (source text : List Char) : List Char :=
  if hasCrlf source then toCrlf text else text

/-- **A formatted text with the line endings of its source.**  The final line break of the source is
kept as it was, unless nothing is left. -/
def restoreLineEndings (source formatted : List Char) : List Char :=
  let text := withLineEndingsOf source formatted
  if formatted.isEmpty then text
  else if endsWith source ['\r', '\n'] then text ++ ['\r', '\n']
  else if endsWith source ['\n'] then text ++ ['\n']
  else text

/-! ## Files -/

/-- **A formatted file**, or the fault in its bytes. -/
def formatBytes (style : Style) (bytes : List UInt8) : Except Utf8Error (List UInt8) := do
  let source ← decode bytes
  return encode (restoreLineEndings source (formatText style .builtin source))

/-- The wording for a file that is not text. -/
def notUtf8 (name : String) : String := s!"{name} is not valid UTF-8"

end SqfLayout
