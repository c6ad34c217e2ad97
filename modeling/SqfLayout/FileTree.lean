import SqfLayout.Path
import SqfLayout.Text.Offset
import SqfLayout.Text.Utf8

/-!
# File trees

The files and folders that a run can see.

* `Place` — where something is: the names from the root down.
* `Contents` — what a file holds.
* `FileTree` — a file, or a folder with named entries; `FileTree.get?` looks along a place and
  `FileTree.write` changes one file and nothing else.
* `FileTree.resolve` — the place that a path leads to from a working folder.
* `Host` — a tree together with the working folder and the home folder.
-/

namespace SqfLayout

open SqfLayout.Text

/-! ## Trees -/

/-- **A place in a tree**: the names from the root down to it. -/
abbrev Place := List (List Char)

/-- The absolute path of a place. -/
def Place.path (place : Place) : Path :=
  if place.isEmpty then ⟨['/']⟩ else ⟨place.flatMap ('/' :: ·)⟩

/-- **The contents of a file**: given bytes, or a number of zero bytes. -/
inductive Contents
  | bytes (data : List UInt8)
  | zeros (count : Nat)
  deriving DecidableEq, Repr

/-- The number of bytes. -/
def Contents.size : Contents → Nat
  | .bytes data => data.length
  | .zeros count => count

/-- The bytes themselves. -/
def Contents.data : Contents → List UInt8
  | .bytes data => data
  | .zeros count => List.replicate count 0

/-- **A tree of files and folders.**  A folder has named entries. -/
inductive FileTree
  | file (contents : Contents)
  | folder (entries : List (List Char × FileTree))

namespace FileTree

/-- The tree of an empty folder. -/
def empty : FileTree := .folder []

instance : Inhabited FileTree := ⟨empty⟩

/-- The entries of a folder; a file has none. -/
def entries : FileTree → List (List Char × FileTree)
  | .file _ => []
  | .folder entries => entries

/-- **What is at a place.** -/
def get? (tree : FileTree) : Place → Option FileTree
  | [] => some tree
  | name :: rest =>
    match tree.entries.lookup name with
    | none => none
    | some inner => inner.get? rest

/-- The contents of the file at a place. -/
def file? (tree : FileTree) (place : Place) : Option Contents :=
  match tree.get? place with
  | some (.file contents) => some contents
  | _ => none

/-- Whether a place is a folder. -/
def isFolderAt (tree : FileTree) (place : Place) : Bool :=
  match tree.get? place with
  | some (.folder _) => true
  | _ => false

/-- Entries with a new one, which takes the place of an earlier one of its name. -/
def setEntry (name : List Char) (inner : FileTree) :
    List (List Char × FileTree) → List (List Char × FileTree)
  | [] => [(name, inner)]
  | (other, old) :: rest =>
    if other == name then (name, inner) :: rest else (other, old) :: setEntry name inner rest

/-- **The tree with something put at a place**, and with the folders above it. -/
def put (tree what : FileTree) : Place → FileTree
  | [] => what
  | name :: rest =>
    .folder (setEntry name (((tree.entries.lookup name).getD empty).put what rest) tree.entries)

/-- **The tree with new contents for one file.**  Whether a file can be written is not asked here. -/
def write (tree : FileTree) (place : Place) (data : List UInt8) : FileTree :=
  tree.put (.file (.bytes data)) place

/-- The tree with a folder and the folders above it. -/
def addFolder (tree : FileTree) (place : Place) : FileTree :=
  if tree.isFolderAt place then tree else tree.put empty place

/-- The tree with a file and the folders above it. -/
def addFile (tree : FileTree) (place : Place) (contents : Contents) : FileTree :=
  tree.put (.file contents) place

/-- **The files of a tree** at most a number of levels down, by their names from its root. -/
def filesWithin : Nat → FileTree → List Place
  | 0, _ => []
  | depth + 1, tree =>
    tree.entries.flatMap fun (name, inner) =>
      match inner with
      | .file _ => [[name]]
      | .folder _ => (filesWithin depth inner).map (name :: ·)

end FileTree

/-! ## Resolution -/

/-- Why an access to a file fails. -/
inductive FileError
  | missing
  | notAFolder
  | isAFolder
  | nameTooLong
  | notText
  /-- Anything else, as the system words it. -/
  | other (wording : String)
  deriving DecidableEq, Repr

/-- The wording of a fault. -/
def FileError.message : FileError → String
  | .missing => "No such file or directory (os error 2)"
  | .notAFolder => "Not a directory (os error 20)"
  | .isAFolder => "Is a directory (os error 21)"
  | .nameTooLong => "File name too long (os error 36)"
  | .notText => "stream did not contain valid UTF-8"
  | .other wording => wording

/-- The greatest number of bytes in a name. -/
def nameLimit : Nat := 255

/-- The greatest number of bytes in a path. -/
def pathLimit : Nat := 4095

namespace FileTree

/-- The place that pieces of a path lead to from a place and what is there.  Every step starts from a
folder. -/
def walk (tree : FileTree) : Place → FileTree → List (List Char) → Except FileError Place
  | place, _, [] => .ok place
  | _, .file _, _ :: _ => .error .notAFolder
  | place, .folder entries, piece :: rest =>
    if Path.isIdle piece then tree.walk place (.folder entries) rest
    else if piece == ['.', '.'] then
      tree.walk place.dropLast ((tree.get? place.dropLast).getD tree) rest
    else if nameLimit < byteLength piece then .error .nameTooLong
    else
      match entries.lookup piece with
      | none => .error .missing
      | some inner => tree.walk (place ++ [piece]) inner rest

/-- **The place that a path leads to** from a working folder. -/
def resolve (tree : FileTree) (folder : Place) (path : Path) : Except FileError Place :=
  if path.chars.isEmpty then .error .missing
  else if pathLimit < byteLength path.chars then .error .nameTooLong
  else
    let start := if path.isAbsolute then [] else folder
    match tree.get? start with
    | none => .error .missing
    | some found => tree.walk start found (Path.pieces path.chars)

end FileTree

/-! ## Hosts -/

/-- **What a run can see of the machine**: the tree, the working folder, and the values of the two
variables that may name the home folder. -/
structure Host where
  tree : FileTree
  folder : Place
  home : Option Path
  userProfile : Option Path
  deriving Inhabited

namespace Host

/-- The place of a path. -/
def resolve (host : Host) (path : Path) : Except FileError Place := host.tree.resolve host.folder path

/-- Whether a path leads to a file. -/
def isFile (host : Host) (path : Path) : Bool :=
  match host.resolve path with
  | .ok place => (host.tree.file? place).isSome
  | .error _ => false

/-- Whether a path leads to a folder. -/
def isFolder (host : Host) (path : Path) : Bool :=
  match host.resolve path with
  | .ok place => host.tree.isFolderAt place
  | .error _ => false

/-- The contents of the file that a path leads to. -/
def contents (host : Host) (path : Path) : Except FileError Contents := do
  match host.tree.file? (← host.resolve path) with
  | some contents => .ok contents
  | none => .error .isAFolder

/-- **The text of the file that a path leads to.** -/
def readText (host : Host) (path : Path) : Except FileError (List Char) := do
  match decode (← host.contents path).data with
  | .ok text => .ok text
  | .error _ => .error .notText

/-- **The home folder.** -/
def homeFolder? (host : Host) : Option Path := host.home.orElse fun _ => host.userProfile

end Host

end SqfLayout
