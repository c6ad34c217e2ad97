import SqfLayout.Discovery
import SqfLayout.Format

/-!
# Failures

What can go wrong with a script or with a run as a whole, and how it is reported.

* `Failure.message`, `Failure.cause?` — the wording in two parts.
* `Failure.inOneLine` — both parts together, for a script among others.
* `Failure.report` — the lines for a failure that ends the run.
-/

namespace SqfLayout.Run

open SqfLayout.Text

/-- **What can go wrong.** -/
inductive Failure
  | badSettings (path : Path) (cause : SettingsError)
  | severalInputs (count : Nat)
  | inputTooLarge (size : Nat)
  | unreadable (cause : FileError)
  | unwritable (cause : FileError)
  | notText (name : String) (cause : Utf8Error)
  | linesNotText (name : String) (cause : Utf8Error)
  deriving DecidableEq, Repr

/-- The largest number of bytes that is formatted. -/
def sizeLimit : Nat := 100 * 1024 * 1024

/-- A number of bytes in whole units of 1024 times 1024. -/
def megabytes (size : Nat) : Nat := size / (1024 * 1024)

/-- The wording of an excess in size. -/
def sizeMessage (size : Nat) : String :=
  let found := megabytes size
  let limit := megabytes sizeLimit
  s!"{found} MB exceeds limit of {limit} MB"

namespace Failure

/-- **The wording of a failure.** -/
def message : Failure → String
  | badSettings path cause =>
    let shown := path.text
    let reason := cause.message
    s!"Invalid configuration in {shown}: {reason}"
  | severalInputs count => s!"--lines needs exactly one input file, got {count}"
  | inputTooLarge size =>
    let reason := sizeMessage size
    s!"stdin input too large ({reason})"
  | unreadable cause => cause.message
  | unwritable cause => cause.message
  | notText name _ => notUtf8 name
  | linesNotText name cause => notUtf8 name ++ ": " ++ cause.message

/-- The wording of what is behind a failure, where it is kept apart. -/
def cause? : Failure → Option String
  | notText _ cause => some cause.message
  | _ => none

/-- A failure in one line. -/
def inOneLine (failure : Failure) : String :=
  match failure.cause? with
  | none => failure.message
  | some cause => failure.message ++ ": " ++ cause

/-- The lines for a failure that ends the run. -/
def report (failure : Failure) : List String :=
  ("Error: " ++ failure.message) ::
    match failure.cause? with
    | none => []
    | some cause => ["", "Caused by:", "    " ++ cause]

end Failure

end SqfLayout.Run
