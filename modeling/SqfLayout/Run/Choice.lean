import SqfLayout.CommandLine.Option
import SqfLayout.Run.Failure
import SqfLayout.Run.Fault

/-!
# The style of a run

The style comes from a named settings file or from discovered ones, and options of the command line win
over both.

* `requested` — the settings that options choose.
* `Choice` — the style, or why there is none, and what is said about it.
* `choose` — the choice for scripts that start from a path.
-/

namespace SqfLayout.Run

open SqfLayout.CommandLine

/-! ## Notes -/

/-- The word for a boolean. -/
def boolWord (on : Bool) : String := if on then "true" else "false"

/-- The notes on a style. -/
def styleNotes (style : Style) : List String :=
  let commands := Vocabulary.builtin.commands.length
  let functions := Vocabulary.builtin.functions.length
  ["[DEBUG] Configuration:",
    "[DEBUG]   indent: " ++ style.indent.name,
    "[DEBUG]   normalize_case: " ++ boolWord style.normalizeCase,
    "[DEBUG]   operator_spacing: " ++ boolWord style.operatorSpacing]
    ++ if style.normalizeCase then
      [s!"[DEBUG]   vocabulary: {commands} commands, {functions} functions"]
    else []

/-- The notes on discovered settings files. -/
def findingNotes (start : Path) : List Finding → List String
  | [] => ["[DEBUG] No config files discovered for: " ++ start.text]
  | findings =>
    ("[DEBUG] Discovered config files for " ++ start.text ++ ":")
      :: findings.map ("[DEBUG]   - " ++ ·.path.text)

/-! ## Choices -/

/-- **A choice of style**: what is said about it, and the style or why there is none. -/
structure Choice where
  notes : List String
  style : Except Failure Style

/-- The settings that options of the command line choose. -/
def requested (request : Request) : Overrides where
  indent := request.indent
  normalizeCase := if request.noCase then some false else none
  operatorSpacing := if request.noOperatorSpacing then some false else none

/-- The style of a named settings file. -/
def chooseNamed (host : Host) (faults : Faults) (request : Request) (start path : Path) : Choice where
  notes := if request.debug then ["[DEBUG] Using explicit config file: " ++ path.text] else []
  style :=
    match faults.settingsOf host start path with
    | .ok settings => .ok (({} : Style).override settings)
    | .error cause => .error (.badSettings path cause)

/-- The style of discovered settings files, with warnings for those that are passed over. -/
def chooseFound (request : Request) (start : Path) (findings : List Finding) : Choice where
  notes :=
    (if request.debug then findingNotes start findings else []) ++ findings.filterMap Finding.warning?
  style := .ok (joinFindings findings)

/-- A choice with the options of the command line. -/
def Choice.withOptions (choice : Choice) (request : Request) : Choice :=
  match choice.style with
  | .error _ => choice
  | .ok style =>
    let style := style.override (requested request)
    { notes := choice.notes ++ if request.debug then styleNotes style else []
      style := .ok style }

/-- **The choice for scripts that start from a path.** -/
def choose (host : Host) (faults : Faults) (request : Request) (start : Path) : Choice :=
  let choice := match request.config with
    | some path => chooseNamed host faults request start path
    | none => chooseFound request start (faults.findings host start)
  choice.withOptions request

end SqfLayout.Run
