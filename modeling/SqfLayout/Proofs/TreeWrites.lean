import SqfLayout.Discovery
import SqfLayout.Proofs.Resolution

/-!
# What a write leaves as it was

A write gives one file new contents.  The lemmas are in two groups.

**The file.**  It has the new contents, and every other file has its own (`file?_write`).  Folders stay folders
(`isFolderAt_write`).

**The outline.**  Two trees are alike if they have files and folders at the same places.  A write leaves a tree
alike (`Alike.write`), and paths lead to the same places in alike trees (`Alike.resolve`).  So the settings files
for a path stay the same as well (`Alike.discover`), and what they hold as long as they are not written
(`Alike.findings`).
-/

namespace SqfLayout

open SqfLayout.Text

namespace FileTree

/-! ## The file -/

lemma lookup_setEntry_self (name : List Char) (inner : FileTree) (entries : List (List Char × FileTree)) :
    (setEntry name inner entries).lookup name = some inner := by
  induction entries with
  | nil => simp [setEntry]
  | cons entry entries ih =>
      obtain ⟨other, old⟩ := entry
      rw [setEntry]
      split
      · simp
      · next hne =>
          have hne : (name == other) = false := beq_eq_false_iff_ne.2 fun heq => hne (beq_iff_eq.2 heq.symm)
          rw [List.lookup_cons, hne, ih]

lemma lookup_setEntry_of_ne {name other : List Char} (h : other ≠ name) (inner : FileTree)
    (entries : List (List Char × FileTree)) : (setEntry name inner entries).lookup other = entries.lookup other := by
  have hne : (other == name) = false := beq_eq_false_iff_ne.2 h
  induction entries with
  | nil => rw [setEntry, List.lookup_cons, hne]
  | cons entry entries ih =>
      obtain ⟨first, old⟩ := entry
      rw [setEntry]
      split
      · next hfirst => rw [List.lookup_cons, List.lookup_cons, beq_iff_eq.1 hfirst, hne]
      · rw [List.lookup_cons, List.lookup_cons, ih]

lemma get?_cons (tree : FileTree) (name : List Char) (rest : Place) :
    tree.get? (name :: rest) = (tree.entries.lookup name).bind (·.get? rest) := by
  rw [get?]
  cases tree.entries.lookup name <;> rfl

lemma file?_cons (tree : FileTree) (name : List Char) (rest : Place) :
    tree.file? (name :: rest) = (tree.entries.lookup name).bind (·.file? rest) := by
  rw [file?, get?_cons]
  cases tree.entries.lookup name <;> rfl

lemma isFolderAt_cons (tree : FileTree) (name : List Char) (rest : Place) :
    tree.isFolderAt (name :: rest) = (tree.entries.lookup name).any (·.isFolderAt rest) := by
  rw [isFolderAt, get?_cons]
  cases tree.entries.lookup name <;> rfl

/-- **A file that is written** has the new contents, and nothing else changes. -/
lemma file?_isFolderAt_write {tree : FileTree} {place : Place} {old : Contents} (h : tree.file? place = some old)
    (data : List UInt8) (other : Place) :
    (tree.write place data).file? other = (if other = place then some (.bytes data) else tree.file? other)
      ∧ (tree.write place data).isFolderAt other = tree.isFolderAt other := by
  induction place generalizing tree other with
  | nil =>
      cases tree with
      | folder entries => cases h
      | file contents =>
          cases other with
          | nil => exact ⟨rfl, rfl⟩
          | cons name rest => exact ⟨rfl, rfl⟩
  | cons name place ih =>
      cases tree with
      | file contents => cases h
      | folder entries =>
          rw [file?_cons] at h
          obtain ⟨inner, hinner, hfile⟩ := Option.bind_eq_some_iff.1 h
          have hwrite : (FileTree.folder entries).write (name :: place) data
              = .folder (setEntry name (inner.write place data) entries) := by
            rw [write, put]
            simp only [FileTree.entries] at hinner ⊢
            rw [hinner]
            rfl
          rw [hwrite]
          cases other with
          | nil => exact ⟨rfl, rfl⟩
          | cons next rest =>
              rw [file?_cons, isFolderAt_cons, file?_cons, isFolderAt_cons]
              simp only [FileTree.entries] at hinner ⊢
              by_cases hnext : next = name
              · subst hnext
                rw [lookup_setEntry_self, hinner]
                simpa using ih hfile rest
              · rw [lookup_setEntry_of_ne hnext]
                simp [hnext]

lemma file?_write {tree : FileTree} {place : Place} {old : Contents} (h : tree.file? place = some old)
    (data : List UInt8) (other : Place) :
    (tree.write place data).file? other = if other = place then some (.bytes data) else tree.file? other :=
  (file?_isFolderAt_write h data other).1

lemma isFolderAt_write {tree : FileTree} {place : Place} {old : Contents} (h : tree.file? place = some old)
    (data : List UInt8) (other : Place) : (tree.write place data).isFolderAt other = tree.isFolderAt other :=
  (file?_isFolderAt_write h data other).2

/-! ## The outline -/

/-- **Trees with files and folders at the same places.** -/
def Alike (a b : FileTree) : Prop :=
  ∀ place, a.isFolderAt place = b.isFolderAt place ∧ (a.file? place).isSome = (b.file? place).isSome

lemma isSome_get? (tree : FileTree) (place : Place) :
    (tree.get? place).isSome = (tree.isFolderAt place || (tree.file? place).isSome) := by
  rw [isFolderAt, file?]
  cases tree.get? place with
  | none => rfl
  | some found => cases found <;> rfl

/-- Alike trees have something at the same places. -/
lemma Alike.get?_cases {a b : FileTree} (h : a.Alike b) (place : Place) :
    a.get? place = none ∧ b.get? place = none
      ∨ ∃ found found', a.get? place = some found ∧ b.get? place = some found' := by
  have hsome : (a.get? place).isSome = (b.get? place).isSome := by
    rw [isSome_get?, isSome_get?, (h place).1, (h place).2]
  cases hfound : a.get? place with
  | none =>
      rw [hfound, Option.isSome_none, eq_comm, Option.isSome_eq_false_iff, Option.isNone_iff_eq_none] at hsome
      exact .inl ⟨rfl, hsome⟩
  | some found =>
      rw [hfound, Option.isSome_some, eq_comm, Option.isSome_iff_exists] at hsome
      obtain ⟨found', hfound'⟩ := hsome
      exact .inr ⟨found, found', rfl, hfound'⟩

lemma Alike.write {a b : FileTree} (h : a.Alike b) {place : Place} {old : Contents} (hfile : b.file? place = some old)
    (data : List UInt8) : a.Alike (b.write place data) := by
  intro other
  refine ⟨by rw [isFolderAt_write hfile, (h other).1], ?_⟩
  rw [(h other).2, file?_write hfile]
  split
  · next heq => rw [heq, hfile]; rfl
  · rfl

/-- **A walk goes the same way in alike trees.** -/
lemma Alike.walk {a b : FileTree} (h : a.Alike b) {place : Place} {found found' : FileTree}
    (hfound : a.get? place = some found) (hfound' : b.get? place = some found') (ps : List (List Char)) :
    a.walk place found ps = b.walk place found' ps := by
  induction ps generalizing place found found' with
  | nil => rw [FileTree.walk, FileTree.walk]
  | cons piece ps ih =>
      have hfolder := (h place).1
      rw [isFolderAt, isFolderAt, hfound, hfound'] at hfolder
      cases found with
      | file contents =>
          cases found' with
          | file contents' => rw [FileTree.walk, FileTree.walk]
          | folder entries' => cases hfolder
      | folder entries =>
          cases found' with
          | file contents' => cases hfolder
          | folder entries' =>
              rw [FileTree.walk, FileTree.walk]
              split
              · exact ih hfound hfound'
              · split
                · obtain ⟨above, habove⟩ := get?_dropLast hfound
                  obtain ⟨above', habove'⟩ := get?_dropLast hfound'
                  exact ih (by rw [habove]; rfl) (by rw [habove']; rfl)
                · split
                  · rfl
                  · have hinner := get?_snoc hfound piece
                    have hinner' := get?_snoc hfound' piece
                    rcases h.get?_cases (place ++ [piece]) with ⟨hnone, hnone'⟩ | ⟨inner, inner', hsome, hsome'⟩
                    · rw [← hinner, ← hinner', hnone, hnone']
                    · rw [← hinner, ← hinner', hsome, hsome']
                      exact ih hsome hsome'

/-- **Paths lead to the same places in alike trees.** -/
lemma Alike.resolve {a b : FileTree} (h : a.Alike b) (folder : Place) (path : Path) :
    a.resolve folder path = b.resolve folder path := by
  rw [FileTree.resolve, FileTree.resolve]
  refine congrArg (ite _ _) (congrArg (ite _ _) ?_)
  rcases h.get?_cases (if path.isAbsolute then [] else folder) with ⟨hnone, hnone'⟩ | ⟨found, found', hfound, hfound'⟩
  · simp only [hnone, hnone']
  · simp only [hfound, hfound']
    exact h.walk hfound hfound' _

end FileTree

/-! ## Hosts -/

namespace Host

/-- **Hosts that differ in the contents of files only.** -/
structure Alike (a b : Host) : Prop where
  tree : a.tree.Alike b.tree
  folder : a.folder = b.folder
  home : a.home = b.home
  userProfile : a.userProfile = b.userProfile

namespace Alike

variable {a b : Host} (h : a.Alike b)

include h

lemma resolve (path : Path) : a.resolve path = b.resolve path := by
  rw [Host.resolve, Host.resolve, h.folder, h.tree.resolve]

lemma isFile (path : Path) : a.isFile path = b.isFile path := by
  rw [Host.isFile, Host.isFile, h.resolve]
  cases b.resolve path with
  | error fault => rfl
  | ok place => exact (h.tree place).2

lemma isFolder (path : Path) : a.isFolder path = b.isFolder path := by
  rw [Host.isFolder, Host.isFolder, h.resolve]
  cases b.resolve path with
  | error fault => rfl
  | ok place => exact (h.tree place).1

/-- **The settings files for a path are the same.** -/
lemma discover (start : Path) : a.discover start = b.discover start := by
  have hfiles : a.isFile = b.isFile := funext h.isFile
  have hsettings : a.settingsIn = b.settingsIn := by
    funext folder
    rw [settingsIn, settingsIn, hfiles]
  rw [Host.discover, Host.discover, hsettings, homeFolder?, homeFolder?, h.home, h.userProfile, searched, searched,
    startFolder?, startFolder?, h.isFile, h.isFolder, h.folder]

lemma contents {path : Path} {place : Place} (hplace : a.resolve path = .ok place)
    (hfile : a.tree.file? place = b.tree.file? place) : a.contents path = b.contents path := by
  rw [Host.contents, Host.contents, ← h.resolve, hplace]
  simp only [bind, Except.bind, hfile]

/-- **What the settings files hold is the same**, as long as they are not written. -/
lemma findings {start : Path} (hfiles : ∀ file ∈ a.discover start, ∀ place, a.resolve file = .ok place →
    a.tree.file? place = b.tree.file? place) : a.findings start = b.findings start := by
  rw [Host.findings, Host.findings, ← h.discover]
  refine List.map_congr_left fun file hfile => ?_
  have hcontents : a.contents file = b.contents file := by
    cases hplace : a.resolve file with
    | ok place => exact h.contents hplace (hfiles file hfile place hplace)
    | error fault =>
        rw [Host.contents, Host.contents, ← h.resolve, hplace]
        rfl
  rw [settingsOf, settingsOf, readText, readText, hcontents]

end Alike

end Host

end SqfLayout
