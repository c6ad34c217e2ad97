import SqfLayout.CommandLine.LineRange
import SqfLayout.Path
import SqfLayout.Style

/-!
# Options of the command line

* `Flag` — options without a value.
* `Setting` — options that take a value.
* `Switch` — either of them; `Switch.ofLetter?` and `Switch.ofWord?` find one by its short or long name.
* `Request` — what the arguments of a run ask for.
-/

namespace SqfLayout.CommandLine

/-- **The options without a value.** -/
inductive Flag
  | noCase
  | noOperatorSpacing
  | stdout
  | diff
  | recursive
  | debug
  | silent
  | help
  | version
  deriving DecidableEq, Repr

/-- **The options that take a value.** -/
inductive Setting
  | indent
  | lines
  | config
  | exclude
  | extension
  | maxLines
  | jobs
  deriving DecidableEq, Repr

namespace Flag

/-- All of them. -/
def all : List Flag :=
  [noCase, noOperatorSpacing, stdout, diff, recursive, debug, silent, help, version]

/-- The long name. -/
def word : Flag → String
  | noCase => "no-case"
  | noOperatorSpacing => "no-operator-spacing"
  | stdout => "stdout"
  | diff => "diff"
  | recursive => "recursive"
  | debug => "debug"
  | silent => "silent"
  | help => "help"
  | version => "version"

/-- The short name, if there is one. -/
def letter? : Flag → Option Char
  | noCase => none
  | noOperatorSpacing => none
  | stdout => some 's'
  | diff => some 'd'
  | recursive => some 'r'
  | debug => some 'D'
  | silent => some 'S'
  | help => some 'h'
  | version => some 'V'

/-- How messages name the option. -/
def shown (flag : Flag) : String := "--" ++ flag.word

end Flag

namespace Setting

/-- All of them. -/
def all : List Setting := [indent, lines, config, exclude, extension, maxLines, jobs]

/-- The long name. -/
def word : Setting → String
  | indent => "indent"
  | lines => "lines"
  | config => "config"
  | exclude => "exclude"
  | extension => "extension"
  | maxLines => "exclude-max-lines"
  | jobs => "jobs"

/-- The short name. -/
def letter : Setting → Char
  | indent => 'i'
  | lines => 'L'
  | config => 'c'
  | exclude => 'e'
  | extension => 'x'
  | maxLines => 'm'
  | jobs => 'j'

/-- The name of the value. -/
def valueName : Setting → String
  | indent => "UNIT"
  | lines => "START:END"
  | config => "FILE"
  | exclude => "PATTERN"
  | extension => "EXT"
  | maxLines => "NUM"
  | jobs => "NUM"

/-- Whether the option may be given more than once. -/
def repeatable : Setting → Bool
  | exclude => true
  | extension => true
  | _ => false

/-- How messages name the option. -/
def shown (setting : Setting) : String := "--" ++ setting.word ++ " <" ++ setting.valueName ++ ">"

end Setting

/-- How messages name the arguments that are not options. -/
def filesShown : String := "[FILE]..."

/-- **An option of either kind.** -/
inductive Switch
  | flag (flag : Flag)
  | setting (setting : Setting)
  deriving DecidableEq, Repr

/-- The option with a short name. -/
def Switch.ofLetter? (letter : Char) : Option Switch :=
  match Flag.all.find? (·.letter? == some letter) with
  | some found => some (.flag found)
  | none => (Setting.all.find? (·.letter == letter)).map .setting

/-- The option with a long name. -/
def Switch.ofWord? (word : String) : Option Switch :=
  match Flag.all.find? (·.word == word) with
  | some found => some (.flag found)
  | none => (Setting.all.find? (·.word == word)).map .setting

/-- **What the arguments of a run ask for.** -/
structure Request where
  inputs : List Path := []
  indent : Option IndentUnit := none
  noCase : Bool := false
  noOperatorSpacing : Bool := false
  lines : Option LineRange := none
  stdout : Bool := false
  diff : Bool := false
  config : Option Path := none
  recursive : Bool := false
  silent : Bool := false
  jobs : Option Nat := none
  exclude : List String := []
  extensions : List String := []
  maxLines : Option Nat := none
  debug : Bool := false
  deriving DecidableEq, Repr

/-- A request with a flag raised. -/
def Request.raise (request : Request) : Flag → Request
  | .noCase => { request with noCase := true }
  | .noOperatorSpacing => { request with noOperatorSpacing := true }
  | .stdout => { request with stdout := true }
  | .diff => { request with diff := true }
  | .recursive => { request with recursive := true }
  | .debug => { request with debug := true }
  | .silent => { request with silent := true }
  | .help => request
  | .version => request

end SqfLayout.CommandLine
