import SqfLayout.CommandLine.Option
import SqfLayout.FileTree
import SqfLayout.Glob

/-!
# The scripts of a run

Inputs are files, which are always taken, and folders, of which the scripts are taken.  Patterns may
leave some of them out.

* `hasScriptExtension` — whether a file in a folder counts as a script.
* `isExcluded` — whether a pattern leaves a path out.
* `collect` — the scripts of a request.
-/

namespace SqfLayout.Run

open SqfLayout.CommandLine

/-! ## Tests -/

/-- Whether two texts are the same up to the case of ASCII letters. -/
def sameLetters (a b : List Char) : Bool := a.map Char.toLower == b.map Char.toLower

/-- An extension as it is asked for, without the dot in front of it. -/
def bareExtension (extension : String) : List Char :=
  match extension.toList with
  | '.' :: rest => rest
  | chars => chars

/-- **Whether a file in a folder counts as a script.**  More extensions may be asked for. -/
def hasScriptExtension (more : List String) (path : Path) : Bool :=
  match path.extension? with
  | none => false
  | some extension => (("sqf" :: more).map bareExtension).any (sameLetters extension)

/-- Whether a pattern matches a path as a whole or one of its names. -/
def matchesPath (tokens : List GlobToken) (path : Path) : Bool :=
  globMatches tokens path.chars || path.components.any fun component =>
    match component with
    | .name name => globMatches tokens name
    | _ => false

/-- **Whether a pattern leaves a path out.** -/
def isExcluded (patterns : List (List GlobToken)) (path : Path) : Bool :=
  patterns.any (matchesPath · path)

/-! ## Patterns -/

/-- The patterns that can be read. -/
def readablePatterns (patterns : List String) : List (List GlobToken) :=
  patterns.filterMap fun pattern => (readGlob pattern.toList).toOption

/-- The warnings for the patterns that cannot. -/
def patternWarnings (patterns : List String) : List String :=
  patterns.filterMap fun pattern =>
    match readGlob pattern.toList with
    | .ok _ => none
    | .error fault =>
      let reason := fault.message
      some s!"Warning: ignoring invalid exclude pattern '{pattern}': {reason}"

/-! ## Inputs -/

/-- How many levels below a folder are searched. -/
def searchDepth (recursive : Bool) : Nat := if recursive then 256 else 1

/-- The paths of the files below a folder. -/
def filesOf (host : Host) (recursive : Bool) (folder : Path) : List Path :=
  match host.resolve folder with
  | .error _ => []
  | .ok place =>
    let files := ((host.tree.get? place).map (·.filesWithin (searchDepth recursive))).getD []
    files.map fun names => names.foldl Path.join folder

/-- **The scripts of one input.** -/
def scriptsOf (host : Host) (request : Request) (patterns : List (List GlobToken)) (input : Path) :
    List Path :=
  if host.isFile input then [input].filter (!isExcluded patterns ·)
  else (filesOf host request.recursive input).filter fun path =>
    host.isFile path && hasScriptExtension request.extensions path && !isExcluded patterns path

/-- Whether an input leads nowhere. -/
def isMissing (host : Host) (input : Path) : Bool := !host.isFile input && !host.isFolder input

/-- The warnings for inputs that lead nowhere. -/
def inputWarnings (host : Host) (request : Request) : List String :=
  if request.silent then []
  else (request.inputs.filter (isMissing host)).map fun input =>
    let shown := input.text
    s!"Warning: {shown} does not exist, skipping"

/-- **The scripts of a request**, input by input. -/
def collect (host : Host) (request : Request) : List Path :=
  request.inputs.flatMap (scriptsOf host request (readablePatterns request.exclude))

/-- The warnings that go with the collection. -/
def collectWarnings (host : Host) (request : Request) : List String :=
  patternWarnings request.exclude ++ inputWarnings host request

end SqfLayout.Run
