import SqfLayout.Discovery

/-!
# Faults

The tree tells which files can be found.  An access to a file that was found may fail all the same: the file cannot
be inspected or read, or it cannot be written.  Standard input and output do not fail.

* `WriteFault` — a write that is refused, or one that breaks off.
* `Faults` — the accesses of a run that fail, each told by the path that it is made for.
* `Faults.findings` — the settings files for a start path with what is read of them.
-/

namespace SqfLayout.Run

/-- **A write that fails.** -/
inductive WriteFault
  /-- The file is not opened, and keeps what it holds. -/
  | refused (cause : FileError)
  /-- The file is emptied, and only the first bytes reach it. -/
  | cutOff (cause : FileError) (count : Nat)
  deriving DecidableEq, Repr

namespace WriteFault

/-- Why the write fails. -/
def cause : WriteFault → FileError
  | refused cause => cause
  | cutOff cause _ => cause

/-- What the file holds instead of the data, if it was opened. -/
def arrived? (data : List UInt8) : WriteFault → Option (List UInt8)
  | refused _ => none
  | cutOff _ count => some (data.take count)

end WriteFault

/-- **The accesses that fail.**  Settings files are read for a script, or once for all with the working folder as
start path; then the script is inspected, read and written. -/
structure Faults where
  settings : (start file : Path) → Option FileError := fun _ _ => none
  inspect : (script : Path) → Option FileError := fun _ => none
  read : (script : Path) → Option FileError := fun _ => none
  write : (script : Path) → Option WriteFault := fun _ => none

namespace Faults

/-- A settings file with what is read of it for a start path. -/
def reading (faults : Faults) (start : Path) (finding : Finding) : Finding :=
  match faults.settings start finding.path with
  | none => finding
  | some cause => { finding with settings := .error (.unreadable cause) }

/-- **The settings files for a start path with what is read of them**, the weakest first. -/
def findings (faults : Faults) (host : Host) (start : Path) : List Finding :=
  (host.findings start).map (faults.reading start)

/-- What is read of a named settings file. -/
def settingsOf (faults : Faults) (host : Host) (start file : Path) : Except SettingsError Overrides :=
  (faults.reading start ⟨file, host.settingsOf file⟩).settings

end Faults

end SqfLayout.Run
