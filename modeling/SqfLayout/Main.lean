import SqfLayout.Run

/-!
# The command

The part of the file system that a request can reach is taken into a tree, the run is worked out on that
tree, and what it decided is carried out.  An access that fails is a fault of its file, and the run goes on with the
others.

* `Taken`, `reachable` — the host as far as a request needs it, and the files that could not be read.
* `store`, `say` — changed files, and then notes and output.
* `main` — the command.
-/

namespace SqfLayout.Command

open SqfLayout.CommandLine SqfLayout.Run

/-- A fault of the file system. -/
def fileError : IO.Error → FileError
  | .noFileOrDirectory .. => .missing
  | .permissionDenied _ code details | .resourceExhausted _ code details => .other s!"{details} (os error {code})"
  | .hardwareFault code details | .otherError code details => .other s!"{details} (os error {code})"
  | fault => .other (toString fault)

/-! ## Taking in -/

/-- **What was taken in**: the host, and the files there that could not be inspected or read. -/
structure Taken where
  host : Host
  inspect : List (Place × FileError) := []
  read : List (Place × FileError) := []

/-- The fault of the file that a path leads to. -/
def faultOf (host : Host) (faults : List (Place × FileError)) (path : Path) : Option FileError :=
  match host.resolve path with
  | .ok place => faults.lookup place
  | .error _ => none

/-- The faults that are known before the run. -/
def Taken.faults (taken : Taken) : Faults where
  settings _ file := (faultOf taken.host taken.inspect file).or (faultOf taken.host taken.read file)
  inspect := faultOf taken.host taken.inspect
  read := faultOf taken.host taken.read

/-- With a file at a place. -/
def Taken.addFile (taken : Taken) (place : Place) (contents : Contents) : Taken :=
  { taken with host := { taken.host with tree := taken.host.tree.addFile place contents } }

/-- With a folder at a place. -/
def Taken.addFolder (taken : Taken) (place : Place) : Taken :=
  { taken with host := { taken.host with tree := taken.host.tree.addFolder place } }

/-- A place with what the file system has there.  Only the size of a file that is too large or cannot be read
counts. -/
def takePlace (taken : Taken) (place : Place) : IO Taken := do
  let path := (← IO.currentDir) / place.path.text
  if ← path.isDir then return taken.addFolder place
  if !(← path.pathExists) then return taken
  match ← path.metadata.toBaseIO with
  | .error fault => return { taken.addFile place (.zeros 0) with inspect := (place, fileError fault) :: taken.inspect }
  | .ok found =>
    let size := found.byteSize.toNat
    if sizeLimit < size then return taken.addFile place (.zeros size)
    match ← (IO.FS.readBinFile path).toBaseIO with
    | .error fault => return { taken.addFile place (.zeros size) with read := (place, fileError fault) :: taken.read }
    | .ok data => return taken.addFile place (.bytes data.toList)

/-- The places on the way of a path. -/
def takeSteps (taken : Taken) : Place → List (List Char) → IO Taken
  | _, [] => return taken
  | place, piece :: rest => do
    if Path.isIdle piece then takeSteps taken place rest
    else if piece == ['.', '.'] then takeSteps taken place.dropLast rest
    else takeSteps (← takePlace taken (place ++ [piece])) (place ++ [piece]) rest

/-- A path with the folders on its way. -/
def takePath (taken : Taken) (path : Path) : IO Taken :=
  takeSteps taken (if path.isAbsolute then [] else taken.host.folder) (Path.pieces path.chars)

/-- What is below a place, a number of levels down.  A folder that cannot be listed is empty. -/
def takeBelow : Nat → Taken → Place → IO Taken
  | 0, taken, _ => return taken
  | depth + 1, taken, place => do
    let path := (← IO.currentDir) / place.path.text
    if !(← path.isDir) then return taken
    match ← path.readDir.toBaseIO with
    | .error _ => return taken
    | .ok entries =>
      entries.foldlM (fun taken entry => do
        let inner := place ++ [entry.fileName.toList]
        takeBelow depth (← takePlace taken inner) inner) taken

/-- An input with all that may be formatted for it. -/
def takeInput (request : Request) (taken : Taken) (input : Path) : IO Taken := do
  let taken ← takePath taken input
  match taken.host.resolve input with
  | .error _ => return taken
  | .ok place => takeBelow (searchDepth request.recursive) taken place

/-- The settings files that may be found in a folder. -/
def takeSettings (taken : Taken) (folder : Path) : IO Taken :=
  (settingsNames.map folder.join).foldlM takePath taken

/-- **The host as far as a request needs it.** -/
def reachable (request : Request) : IO Taken := do
  let folder : Place := (Path.pieces (← IO.currentDir).toString.toList).filter (!Path.isIdle ·)
  let home := (← IO.getEnv "HOME").map Path.ofString
  let userProfile := (← IO.getEnv "USERPROFILE").map Path.ofString
  let taken : Taken := { host := { tree := FileTree.empty.addFolder folder, folder, home, userProfile } }
  let taken ← request.inputs.foldlM (takeInput request) taken
  let taken ← request.config.toList.foldlM takePath taken
  let starts := folder.path :: collect taken.host request
  (taken.host.homeFolder?.toList ++ starts.flatMap taken.host.searched).foldlM takeSettings taken

/-- Standard input up to its end. -/
partial def takeInputBytes (stream : IO.FS.Stream) (taken : ByteArray) : IO ByteArray := do
  let chunk ← stream.read 65536
  if chunk.isEmpty then return taken
  takeInputBytes stream (taken ++ chunk)

/-! ## Carrying out -/

/-- A file with new contents, or why it does not have them.  How much reached it is not asked. -/
def storeFile (place : Place) (contents : Contents) : IO (Option WriteFault) := do
  match ← (IO.FS.Handle.mk place.path.text .write).toBaseIO with
  | .error fault => return some (.refused (fileError fault))
  | .ok handle =>
    match ← (handle.write ⟨contents.data.toArray⟩ *> handle.flush).toBaseIO with
    | .error fault => return some (.cutOff (fileError fault) 0)
    | .ok _ => return none

/-- **Those of the scripts that changed**, and which of them could not be written. -/
def store (host : Host) (scripts : List Path) (tree : FileTree) : IO (List (Path × WriteFault)) :=
  scripts.filterMapM fun path => do
    match host.resolve path with
    | .error _ => return none
    | .ok place =>
      match tree.file? place with
      | none => return none
      | some contents =>
        if host.tree.file? place == some contents then return none
        return (← storeFile place contents).map (path, ·)

/-- Notes and output. -/
def say (outcome : Outcome) : IO Unit := do
  let errors ← IO.getStderr
  outcome.notes.forM errors.putStrLn
  let output ← IO.getStdout
  output.write ⟨outcome.output.toArray⟩
  output.flush

end SqfLayout.Command

open SqfLayout SqfLayout.CommandLine SqfLayout.Run SqfLayout.Command in
/-- **The command.**  Where scripts could not be written, what is said comes from the run with these faults. -/
def main (arguments : List String) : IO UInt32 := do
  let request := (parse arguments).toOption
  let taken ← match request with
    | some request => reachable request
    | none => pure { host := { tree := .empty, folder := [], home := none, userProfile := none } }
  let input ← if request.any readsInput then
      takeInputBytes (← IO.getStdin) .empty
    else pure .empty
  let work (faults : Faults) := run taken.host arguments input.toList faults
  let scripts := (request.map (collect taken.host)).getD []
  let planned := work taken.faults
  let unwritten ← store taken.host scripts planned.tree
  let outcome :=
    if unwritten.isEmpty then planned
    else work { taken.faults with write := fun path => unwritten.lookup path }
  say outcome
  return UInt32.ofNat outcome.code
