import SqfLayout.Text.Lines
import SqfLayout.Text.Space

/-!
# Paths

A path is kept as it was written, because that is how it is shown.  Its meaning is in its components.

* `Path.components` — the components; empty pieces count for nothing, and a dot only at the start of a
  relative path.
* `Path.parent?`, `Path.ancestors` — the path without its last component, and so on up.
* `Path.join` — a path below a directory.
* `Path.fileName?`, `Path.extension?` — the parts of the last component.
-/

namespace SqfLayout

open SqfLayout.Text

/-- **A path as it was written.** -/
structure Path where
  chars : List Char
  deriving DecidableEq, Repr, Inhabited

/-- A component of a path. -/
inductive PathComponent
  | root
  | here
  | up
  | name (chars : List Char)
  deriving DecidableEq, Repr

namespace Path

/-- The path that a string writes. -/
def ofString (s : String) : Path := ⟨s.toList⟩

/-- The text of a path. -/
def text (path : Path) : String := String.ofList path.chars

/-- Whether a path starts at the root. -/
def isAbsolute (path : Path) : Bool := path.chars.head? == some '/'

/-! ## Components -/

/-- The pieces of a text between slashes. -/
def pieces (chars : List Char) : List (List Char) := splitWhen (· == '/') chars

/-- Whether a piece stands for no step: it is empty or a dot. -/
def isIdle (piece : List Char) : Bool := piece.isEmpty || piece == ['.']

/-- Whether a path starts with a dot that is a component of its own. -/
def startsHere (path : Path) : Bool :=
  path.chars.head? == some '.' && (path.chars[1]?).all (· == '/')

/-- The start of a path, which is a slash, a dot or nothing, and the characters behind it. -/
def divide (path : Path) : List Char × List Char :=
  if path.isAbsolute || path.startsHere then (path.chars.take 1, path.chars.drop 1)
  else ([], path.chars)

/-- The component of a piece that is not idle. -/
def componentOf (piece : List Char) : PathComponent :=
  if piece == ['.', '.'] then .up else .name piece

/-- **The components of a path.** -/
def components (path : Path) : List PathComponent :=
  (if path.isAbsolute then [.root] else if path.startsHere then [.here] else [])
    ++ ((pieces path.divide.2).filter (!isIdle ·)).map componentOf

/-! ## Steps -/

/-- **The path without its last component.**  Slashes and dots in front of that are dropped too, but the
start of the path stays.  The root has no parent, nor has the empty path. -/
def parent? (path : Path) : Option Path :=
  let (start, body) := path.divide
  match dropEndWhile isIdle (pieces body) with
  | [] => if path.startsHere then some ⟨[]⟩ else none
  | kept => some ⟨start ++ joinWith '/' (dropEndWhile isIdle kept.dropLast)⟩

/-- **A path and its parents**, the closest first. -/
def ancestors (path : Path) : List Path :=
  match path.parent? with
  | none => [path]
  | some parent =>
    if parent.chars.length < path.chars.length then path :: parent.ancestors else [path]
termination_by path.chars.length

/-- **The path of a name below a directory.** -/
def join (path : Path) (name : List Char) : Path :=
  if path.chars.isEmpty || path.chars.getLast? == some '/' then ⟨path.chars ++ name⟩
  else ⟨path.chars ++ '/' :: name⟩

/-! ## Names -/

/-- The last component, if it is a name. -/
def fileName? (path : Path) : Option (List Char) :=
  match path.components.getLast? with
  | some (.name name) => some name
  | _ => none

/-- **The extension of the last component**: what follows its last dot.  A dot at the start of a name
begins no extension. -/
def extension? (path : Path) : Option (List Char) := do
  let name ← path.fileName?
  let behind := (name.reverse.takeWhile (· != '.')).reverse
  if behind.length + 1 < name.length then some behind else none

end Path

end SqfLayout
