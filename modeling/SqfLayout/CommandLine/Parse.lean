import SqfLayout.CommandLine.Option

/-!
# Reading the command line

Arguments are read from left to right.  An option that takes a value may find it in the next argument,
so it stays pending until the argument behind is known; the files before an option are kept pending in
the same way.  What is pending is judged when something else settles it.  An option that does not exist,
or a value for an option that takes none, is reported before faults of what is pending.

* `UsageError` — what is wrong with the arguments.
* `Stop` — why there is no request: a fault, or a question that is answered at once.
* `Progress` — the state between two arguments.
* `parse` — the request of a list of arguments.
-/

namespace SqfLayout.CommandLine

open SqfLayout.Text

/-! ## Faults -/

/-- **What is wrong with the arguments.**  `shown` is how an option is named in messages. -/
inductive UsageError
  | unknown (shown : String)
  | unneededValue (shown value : String)
  | missingValue (shown : String)
  | repeated (shown : String)
  | badValue (shown value : String)
  deriving DecidableEq, Repr

/-- The wording of a fault. -/
def UsageError.message : UsageError → String
  | .unknown shown => s!"error: unexpected argument '{shown}' found"
  | .unneededValue shown value => s!"error: unexpected value '{value}' for '{shown}' found"
  | .missingValue shown => s!"error: a value is required for '{shown}' but none was supplied"
  | .repeated shown => s!"error: the argument '{shown}' cannot be used multiple times"
  | .badValue shown value => s!"error: invalid value '{value}' for '{shown}'"

/-- **Why there is no request.** -/
inductive Stop
  | help
  | version
  | usage (fault : UsageError)
  deriving DecidableEq, Repr

/-! ## State -/

/-- **What has been read but not judged.** -/
inductive Pending
  | nothing
  | awaiting (setting : Setting)
  | holding (setting : Setting) (value : String)
  | files (names : List String)
  deriving DecidableEq, Repr

/-- **The state between two arguments.** -/
structure Progress where
  request : Request := {}
  seen : List Switch := []
  pending : Pending := .nothing
  deriving DecidableEq, Repr

/-! ## Values -/

/-- A path among the arguments, which is never empty. -/
def readPath (shown value : String) : Except UsageError Path :=
  if value.isEmpty then .error (.missingValue shown) else .ok (.ofString value)

/-- The value of an option put into a request. -/
def Request.assign (request : Request) (setting : Setting) (value : String) :
    Except UsageError Request :=
  let refused := Except.error (UsageError.badValue setting.shown value)
  match setting with
  | .indent =>
    match IndentUnit.read value with
    | .ok unit => .ok { request with indent := some unit }
    | .error _ => refused
  | .lines =>
    match LineRange.read value.toList with
    | .ok range => .ok { request with lines := some range }
    | .error _ => refused
  | .config => do
    return { request with config := some (← readPath setting.shown value) }
  | .exclude => .ok { request with exclude := request.exclude ++ [value] }
  | .extension => .ok { request with extensions := request.extensions ++ [value] }
  | .maxLines =>
    match readNumber value.toList with
    | .ok n => .ok { request with maxLines := some n }
    | .error _ => refused
  | .jobs =>
    match readNumber value.toList with
    | .ok n => .ok { request with jobs := some n }
    | .error _ => refused

namespace Progress

/-- **The value of an option judged**: it may have to be the only one, and it has to be readable. -/
def settle (p : Progress) (setting : Setting) (value : String) : Except UsageError Progress :=
  if !setting.repeatable && p.seen.contains (.setting setting) then
    .error (.repeated setting.shown)
  else do
    let request ← p.request.assign setting value
    return { p with request, seen := .setting setting :: p.seen }

/-- **What is pending judged.** -/
def resolve (p : Progress) : Except UsageError Progress :=
  let settled := { p with pending := .nothing }
  match p.pending with
  | .nothing => .ok p
  | .awaiting setting => .error (.missingValue setting.shown)
  | .holding setting value => settled.settle setting value
  | .files names => do
    let paths ← names.mapM (readPath filesShown)
    let request := { p.request with inputs := p.request.inputs ++ paths }
    return { settled with request }

/-! ## Arguments -/

/-- An option that takes no value. -/
def flag (p : Progress) (flag : Flag) : Except Stop Progress := do
  let p ← p.resolve.mapError .usage
  match flag with
  | .help => throw .help
  | .version => throw .version
  | flag =>
    if p.seen.contains (.flag flag) then throw (.usage (.repeated flag.shown))
    return { p with request := p.request.raise flag, seen := .flag flag :: p.seen }

/-- An option with a value in the same argument, or one that waits for the next. -/
def setting (p : Progress) (setting : Setting) (value : Option String) : Except Stop Progress := do
  let p ← p.resolve.mapError .usage
  match value with
  | some value => (p.settle setting value).mapError .usage
  | none => return { p with pending := .awaiting setting }

/-- The value that short options carry behind their letter; an equals sign in front of it does not
count. -/
def attached : List Char → Option String
  | [] => none
  | '=' :: value => some (String.ofList value)
  | value => some (String.ofList value)

/-- **Short options behind their dash**, one letter after the other.  An option that takes a value takes
the characters behind it. -/
def letters (p : Progress) : List Char → Except Stop Progress
  | [] => .ok p
  | letter :: rest =>
    match Switch.ofLetter? letter with
    | none => .error (.usage (.unknown (String.ofList ['-', letter])))
    | some (.flag flag) => do (← p.flag flag).letters rest
    | some (.setting setting) => p.setting setting (attached rest)

/-- **A long option behind its dashes**, with its value behind an equals sign if there is one. -/
def word (p : Progress) (chars : List Char) : Except Stop Progress :=
  let name := String.ofList (chars.takeWhile (· != '='))
  let value :=
    match chars.dropWhile (· != '=') with
    | [] => none
    | _ :: value => some (String.ofList value)
  match Switch.ofWord? name, value with
  | none, _ => .error (.usage (.unknown ("--" ++ name)))
  | some (.flag flag), some value => .error (.usage (.unneededValue flag.shown value))
  | some (.flag flag), none => p.flag flag
  | some (.setting setting), value => p.setting setting value

/-- A file to format. -/
def file (p : Progress) (name : String) : Except Stop Progress :=
  match p.pending with
  | .files names => .ok { p with pending := .files (names ++ [name]) }
  | _ => do
    let p ← p.resolve.mapError .usage
    return { p with pending := .files [name] }

/-- An argument that is not an option: the value that an option waits for, or a file. -/
def plain (p : Progress) (argument : String) : Except Stop Progress :=
  match p.pending with
  | .awaiting setting => .ok { p with pending := .holding setting argument }
  | _ => p.file argument

/-- One argument in front of a double dash. -/
def argument (p : Progress) (argument : String) : Except Stop Progress :=
  match argument.toList with
  | '-' :: '-' :: chars => p.word chars
  | ['-'] => p.plain argument
  | '-' :: chars => p.letters chars
  | _ => p.plain argument

/-- **All arguments in turn.**  Behind a double dash there are files only. -/
def arguments (p : Progress) : List String → Except Stop Progress
  | [] => .ok p
  | argument :: rest =>
    if argument = "--" then rest.foldlM file p
    else do (← p.argument argument).arguments rest

end Progress

/-- **The request of a list of arguments**, or why there is none. -/
def parse (arguments : List String) : Except Stop Request := do
  let p ← ({} : Progress).arguments arguments
  return (← p.resolve.mapError .usage).request

end SqfLayout.CommandLine
