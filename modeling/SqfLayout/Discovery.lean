import SqfLayout.FileTree
import SqfLayout.Settings

/-!
# Discovery of settings

Without a named settings file, settings are looked for in the home folder and in every folder from the
root down to the one that holds the script.  Closer files win, setting by setting.

* `Host.discover` — the settings files for a start path, the weakest first.
* `Host.settingsOf` — the settings of a file, or why it is not used.
* `Finding`, `Host.findings` — the files for a start path with what they hold.
* `Host.discoveredStyle` — the style that the files make together.
-/

namespace SqfLayout

/-! ## Files -/

/-- The names of settings files, the weaker first. -/
def settingsNames : List (List Char) := ["sqfprettier.toml".toList, ".sqfprettier.toml".toList]

/-- The settings files of a folder. -/
def Host.settingsIn (host : Host) (folder : Path) : List Path :=
  (settingsNames.map folder.join).filter host.isFile

/-- The folder where the search starts: that of a file, a folder itself, or else the working folder. -/
def Host.startFolder? (host : Host) (start : Path) : Option Path :=
  if host.isFile start then start.parent?
  else if host.isFolder start then some start
  else some host.folder.path

/-- The folders from the root down to where the search starts. -/
def Host.searched (host : Host) (start : Path) : List Path :=
  match host.startFolder? start with
  | some folder => folder.ancestors.reverse
  | none => []

/-- Paths without those whose components were seen before. -/
def distinctPaths : List (Array PathComponent) → List Path → List Path
  | _, [] => []
  | seen, path :: rest =>
    let components := path.components.toArray
    if seen.contains components then distinctPaths seen rest
    else path :: distinctPaths (components :: seen) rest

/-- **The settings files for a start path**, the weakest first: those of the home folder, then those of
the searched folders that are not among them. -/
def Host.discover (host : Host) (start : Path) : List Path :=
  distinctPaths [] ((host.homeFolder?.toList ++ host.searched start).flatMap host.settingsIn)

/-! ## Settings -/

/-- Why a settings file is not used. -/
inductive SettingsError
  | unreadable (cause : FileError)
  | malformed
  deriving DecidableEq, Repr

/-- The wording of a fault. -/
def SettingsError.message : SettingsError → String
  | .unreadable cause => cause.message
  | .malformed => "TOML parse error"

/-- **The settings of a file.** -/
def Host.settingsOf (host : Host) (path : Path) : Except SettingsError Overrides :=
  match host.readText path with
  | .error cause => .error (.unreadable cause)
  | .ok text =>
    match readSettings? text with
    | some settings => .ok settings
    | none => .error .malformed

/-- **A settings file that was found** and what it holds. -/
structure Finding where
  path : Path
  settings : Except SettingsError Overrides

/-- **The settings files for a start path with what they hold**, the weakest first. -/
def Host.findings (host : Host) (start : Path) : List Finding :=
  (host.discover start).map fun path => ⟨path, host.settingsOf path⟩

/-- A style with the settings of a file; one that cannot be used changes nothing. -/
def Finding.apply (style : Style) (finding : Finding) : Style :=
  match finding.settings with
  | .ok settings => style.override settings
  | .error _ => style

/-- The warning for a settings file that is passed over. -/
def Finding.warning? (finding : Finding) : Option String :=
  let shown := finding.path.text
  match finding.settings with
  | .ok _ => none
  | .error (.unreadable cause) =>
    let reason := cause.message
    some s!"Warning: failed to read {shown}: {reason}"
  | .error .malformed =>
    let reason := SettingsError.malformed.message
    some s!"Warning: failed to parse {shown}: {reason}"

/-- The style that settings files make together, each winning over those before it. -/
def joinFindings (findings : List Finding) : Style := findings.foldl Finding.apply {}

/-- **The style that the settings files for a start path make together.** -/
def Host.discoveredStyle (host : Host) (start : Path) : Style := joinFindings (host.findings start)

end SqfLayout
