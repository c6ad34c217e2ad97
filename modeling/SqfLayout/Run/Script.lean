import SqfLayout.CommandLine.Option
import SqfLayout.Directive
import SqfLayout.Edit
import SqfLayout.Run.Choice

/-!
# One script

* `ownStyle` — the style of a script, its own directive included.
* `formatContents` — the formatted bytes of a script, or of some of its lines.
* `ScriptReport` — what becomes of a file: what is said and printed, and the new contents if it is
  written.
* `visitScript` — the report for a file.
-/

namespace SqfLayout.Run

open SqfLayout.Text SqfLayout.CommandLine

/-! ## Contents -/

/-- **The style of a script**: its directive wins over the style of the run. -/
def ownStyle (style : Style) (bytes : List UInt8) : Style :=
  match findDirective? bytes with
  | some chosen => style.override chosen
  | none => style

/-- The edit that formats the lines of a range. -/
def lineEdit (style : Style) (range : LineRange) (source : List Char) : TextEdit :=
  let (first, last) := range.zeroBased
  formatRange style .builtin (.lines (UInt64.ofNat first) (UInt64.ofNat last)) source

/-- **The formatted bytes of a script**, or of the lines that are asked for. -/
def formatContents (request : Request) (style : Style) (name : String) (bytes : List UInt8) :
    Except Failure (List UInt8) :=
  let style := ownStyle style bytes
  match request.lines with
  | none => (formatBytes style bytes).mapError (.notText name)
  | some range =>
    match decode bytes with
    | .ok source => .ok (encode ((lineEdit style range source).apply source))
    | .error cause => .error (.linesNotText name cause)

/-! ## Notes -/

/-- The notes on the directive of a script. -/
def directiveNotes (name : String) (bytes : List UInt8) : List String :=
  match findDirective? bytes with
  | none => []
  | some chosen =>
    ["[DEBUG] Found file directive in " ++ name]
      ++ (chosen.indent.map fun unit => "[DEBUG]   Directive override: indent = " ++ unit.name).toList
      ++ (chosen.normalizeCase.map fun on =>
          "[DEBUG]   Directive override: normalize_case = " ++ boolWord on).toList
      ++ (chosen.operatorSpacing.map fun on =>
          "[DEBUG]   Directive override: operator_spacing = " ++ boolWord on).toList

/-- The note on the lines that are formatted. -/
def lineNotes (request : Request) (style : Style) (name : String) (bytes : List UInt8) : List String :=
  match request.lines, decode bytes with
  | some range, .ok source =>
    let edit := lineEdit (ownStyle style bytes) range source
    [s!"[DEBUG] Formatting lines {range.first}:{range.last} of {name} (bytes {edit.start}..{edit.stop})"]
  | _, _ => []

/-- **What is said while a script is formatted.** -/
def contentNotes (request : Request) (style : Style) (name : String) (bytes : List UInt8) :
    List String :=
  if request.debug then directiveNotes name bytes ++ lineNotes request style name bytes else []

/-! ## Files -/

/-- **What becomes of a file.** -/
structure ScriptReport where
  notes : List String := []
  output : List UInt8 := []
  written : Option (List UInt8) := none
  failed : Bool := false

/-- The number of lines of a file; a line break at the end starts no new one. -/
def lineCount (bytes : List UInt8) : Nat := (splitAfter (· == 10) bytes).length

/-- The number of lines of contents.  Zero bytes make one line, unless there are none. -/
def contentLines : Contents → Nat
  | .bytes data => lineCount data
  | .zeros count => if count = 0 then 0 else 1

/-- Why a file of acceptable size is passed over. -/
def tooManyLines? (request : Request) (contents : Contents) : Option String :=
  match request.maxLines with
  | none => none
  | some limit =>
    let count := contentLines contents
    if limit < count then some s!"{count} lines exceeds limit of {limit}" else none

/-- The report for a file that is passed over. -/
def skipped (request : Request) (path : Path) (reason : String) : ScriptReport where
  notes := if request.silent then [] else ["Skipping " ++ path.text ++ " (" ++ reason ++ ")"]

/-- The report for a file that could not be formatted. -/
def failure (notes : List String) (path : Path) (cause : Failure) : ScriptReport where
  notes := notes ++ ["Error formatting " ++ path.text ++ ": " ++ cause.inOneLine]
  failed := true

/-- The report for a file that is written, or not as a whole. -/
def stored (faults : Faults) (path : Path) (notes : List String) (formatted : List UInt8) : ScriptReport :=
  match faults.write path with
  | none => { notes, written := some formatted }
  | some fault => { failure notes path (.unwritable fault.cause) with written := fault.arrived? formatted }

/-- **The report for a formatted file.**  It is printed or shown if that is asked for, and written only
if it changes. -/
def delivered (faults : Faults) (request : Request) (path : Path) (notes : List String)
    (bytes formatted : List UInt8) : ScriptReport :=
  if request.stdout then { notes, output := formatted }
  else if request.diff then
    let header := if request.silent then [] else encode ("=== " ++ path.text ++ " ===\n").toList
    { notes, output := header ++ formatted }
  else if formatted != bytes then stored faults path notes formatted
  else if request.debug then { notes := notes ++ ["[DEBUG] " ++ path.text ++ " already formatted"] }
  else { notes }

/-- The report for the bytes of a file that is not passed over. -/
def visitBytes (faults : Faults) (request : Request) (style : Style) (path : Path) (bytes : List UInt8) :
    ScriptReport :=
  let opening := if request.silent || request.stdout then [] else ["Formatting: " ++ path.text]
  let notes := opening ++ contentNotes request style path.text bytes
  match formatContents request style path.text bytes with
  | .error cause => failure notes path cause
  | .ok formatted => delivered faults request path notes bytes formatted

/-- A file as it is inspected. -/
def inspected (host : Host) (faults : Faults) (path : Path) : Except FileError Contents :=
  match faults.inspect path with
  | some cause => .error cause
  | none => host.contents path

/-- **The report for a file.**  It is inspected first, and read only if it is not too large. -/
def visitScript (host : Host) (faults : Faults) (request : Request) (style : Style) (path : Path) : ScriptReport :=
  match inspected host faults path with
  | .error cause => failure [] path (.unreadable cause)
  | .ok contents =>
    if sizeLimit < contents.size then skipped request path (sizeMessage contents.size)
    else
      match faults.read path, tooManyLines? request contents with
      | some cause, _ => failure [] path (.unreadable cause)
      | none, some reason => skipped request path reason
      | none, none => visitBytes faults request style path contents.data

end SqfLayout.Run
