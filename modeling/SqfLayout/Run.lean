import SqfLayout.CommandLine.Help
import SqfLayout.CommandLine.Parse
import SqfLayout.Run.Collect
import SqfLayout.Run.Script

/-!
# Runs

A run takes arguments, standard input, the host and the faults of its accesses, and ends with an exit code, what it
printed, what it said and the tree as it left it.

* `Outcome` — the end of a run.
* `visitAll` — scripts one after the other, each on the tree that the one before left.
* `runInput` — standard input formatted to standard output.
* `runFiles` — files formatted.
* `run` — a whole run.
-/

namespace SqfLayout.Run

open SqfLayout.Text SqfLayout.CommandLine

/-- **The end of a run.** -/
structure Outcome where
  code : Nat := 0
  output : List UInt8 := []
  notes : List String := []
  tree : FileTree

/-- The end of a run that failed. -/
def failedOutcome (host : Host) (notes : List String) (cause : Failure) : Outcome where
  code := 1
  notes := notes ++ cause.report
  tree := host.tree

/-! ## Files -/

/-- The tree after a report: only a file that is written, or emptied for that, changes. -/
def applyReport (host : Host) (path : Path) (report : ScriptReport) : Host :=
  match report.written, host.resolve path with
  | some data, .ok place => { host with tree := host.tree.write place data }
  | _, _ => host

/-- **A script with the style that holds for it.**  A style given for all scripts comes first; without
one, settings are discovered for each. -/
def visit (host : Host) (faults : Faults) (request : Request) (common : Option Style) (path : Path) :
    ScriptReport :=
  match common with
  | some style => visitScript host faults request style path
  | none =>
    let choice := choose host faults request path
    match choice.style with
    | .error cause => failure choice.notes path cause
    | .ok style =>
      let report := visitScript host faults request style path
      { report with notes := choice.notes ++ report.notes }

/-- **Scripts one after the other**, each on the tree that the one before left. -/
def visitAll (faults : Faults) (request : Request) (common : Option Style) :
    Host → List Path → Host × List ScriptReport
  | host, [] => (host, [])
  | host, path :: rest =>
    let report := visit host faults request common path
    let (host, reports) := visitAll faults request common (applyReport host path report) rest
    (host, report :: reports)

/-- Whether the scripts are handled strictly in order; then there is no summary. -/
def inOrder (request : Request) : Bool := request.stdout || request.diff || request.jobs == some 1

/-- The summary of a run over files. -/
def summary (request : Request) (reports : List ScriptReport) : List String :=
  let errors := (reports.filter (·.failed)).length
  let good := reports.length - errors
  if request.silent || inOrder request then []
  else if errors = 0 then [s!"Formatted {good} files successfully."]
  else [s!"Formatted {good} files, {errors} errors."]

/-- The run over the scripts that were collected. -/
def runScripts (host : Host) (faults : Faults) (request : Request) (common : Option Style) (notes : List String)
    (paths : List Path) : Outcome :=
  if paths.isEmpty then
    let closing := if request.silent then [] else ["No SQF files found to format."]
    { notes := notes ++ closing, tree := host.tree }
  else if request.lines.isSome && 1 < paths.length then
    failedOutcome host notes (.severalInputs paths.length)
  else
    let (after, reports) := visitAll faults request common host paths
    { output := reports.flatMap (·.output)
      notes := notes ++ reports.flatMap (·.notes) ++ summary request reports
      tree := after.tree }

/-- **A run over files.**  A named settings file is read once, before anything else. -/
def runFiles (host : Host) (faults : Faults) (request : Request) : Outcome :=
  let paths := collect host request
  let warnings := collectWarnings host request
  match request.config with
  | none => runScripts host faults request none warnings paths
  | some _ =>
    let choice := choose host faults request host.folder.path
    match choice.style with
    | .error cause => failedOutcome host choice.notes cause
    | .ok style => runScripts host faults request (some style) (choice.notes ++ warnings) paths

/-! ## Standard input -/

/-- Whether standard input is formatted: no file is named, or a dash alone. -/
def readsInput (request : Request) : Bool := request.inputs.isEmpty || request.inputs == [⟨['-']⟩]

/-- **Standard input formatted to standard output.** -/
def runInput (host : Host) (faults : Faults) (request : Request) (input : List UInt8) : Outcome :=
  let choice := choose host faults request host.folder.path
  match choice.style with
  | .error cause => failedOutcome host choice.notes cause
  | .ok style =>
    if sizeLimit < input.length then failedOutcome host choice.notes (.inputTooLarge input.length)
    else
      let notes := choice.notes ++ contentNotes request style "stdin" input
      match formatContents request style "stdin" input with
      | .error cause => failedOutcome host notes cause
      | .ok formatted =>
        let closing := if request.silent then [] else ["Formatted stdin successfully."]
        { output := formatted, notes := notes ++ closing, tree := host.tree }

/-! ## Whole runs -/

/-- The end of a run whose arguments ask for nothing to be formatted. -/
def stopped (host : Host) : Stop → Outcome
  | .help => { output := encode helpText.toList, tree := host.tree }
  | .version => { output := encode versionText.toList, tree := host.tree }
  | .usage fault => { code := 2, notes := [fault.message], tree := host.tree }

/-- **A whole run.**  Unless faults are given, no access fails. -/
def run (host : Host) (arguments : List String) (input : List UInt8) (faults : Faults := {}) : Outcome :=
  match parse arguments with
  | .error stop => stopped host stop
  | .ok request => if readsInput request then runInput host faults request input else runFiles host faults request

end SqfLayout.Run
