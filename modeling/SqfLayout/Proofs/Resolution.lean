import SqfLayout.FileTree
import SqfLayout.Proofs.PathComponents
import SqfLayout.Proofs.Selections

/-!
# Where paths lead

A path is resolved piece by piece.  The lemmas are in three groups.

**Walks.**  A walk that succeeds ends at a place of the tree, and more pieces go on from there (`walk_ok`); one
that fails has failed for good (`walk_error`).  Names that exist are followed one after the other
(`walk_names`).  Idle pieces count for nothing as long as a stride follows (`walk_filter`).

**Files in folders.**  The path of a name in a folder is resolved by its strides alone (`resolve_join_name`), so
two paths with the same strides lead to the same file.  Nothing is below a file (`resolve_join_of_isFile`).

**Relative paths.**  A relative path leads where it leads behind the path of the working folder
(`resolve_join_folder`).
-/

namespace SqfLayout

open SqfLayout.Text

lemma Path.byteLength_join (path : Path) (name : List Char) :
    byteLength (path.join name).chars ≤ byteLength path.chars + 1 + byteLength name := by
  rw [join]
  split
  · rw [byteLength_append]
    omega
  · have hslash : Char.utf8Size '/' = 1 := rfl
    rw [byteLength_append, byteLength]
    omega

lemma Path.byteLength_le_join (path : Path) (name : List Char) :
    byteLength name ≤ byteLength (path.join name).chars := by
  rw [join]
  split <;> simp only [byteLength_append, byteLength] <;> omega

/-- The pieces of a name in a folder. -/
lemma Path.pieces_join_name {path : Path} (hne : path.chars ≠ []) {name : List Char} (hname : IsName name) :
    ∃ front, pieces (path.join name).chars = pieces front ++ [name]
      ∧ (path.chars = front ∨ path.chars = front ++ ['/']) := by
  obtain ⟨front, hjoin, hpath⟩ := exists_join hne name
  exact ⟨front, by rw [hjoin, pieces_append_slash, hname.pieces], hpath⟩

namespace FileTree

/-! ## Walks -/

lemma get?_append (tree : FileTree) (a b : Place) : tree.get? (a ++ b) = (tree.get? a).bind (·.get? b) := by
  induction a generalizing tree with
  | nil => rfl
  | cons name a ih =>
      simp only [List.cons_append, get?]
      cases tree.entries.lookup name with
      | none => rfl
      | some inner => exact ih inner

/-- Above everything in a tree there is something. -/
lemma get?_dropLast {tree found : FileTree} {place : Place} (h : tree.get? place = some found) :
    ∃ above, tree.get? place.dropLast = some above := by
  rcases List.eq_nil_or_concat place with rfl | ⟨front, name, rfl⟩
  · exact ⟨tree, rfl⟩
  · rw [List.concat_eq_append, get?_append] at h
    obtain ⟨above, habove, -⟩ := Option.bind_eq_some_iff.1 h
    exact ⟨above, by simpa using habove⟩

lemma get?_snoc {tree : FileTree} {entries : List (List Char × FileTree)} {place : Place}
    (h : tree.get? place = some (.folder entries)) (name : List Char) :
    tree.get? (place ++ [name]) = entries.lookup name := by
  rw [get?_append, h]
  simp only [Option.bind_some, get?, FileTree.entries]
  cases entries.lookup name <;> rfl

lemma get?_of_file? {tree : FileTree} {place : Place} {contents : Contents} (h : tree.file? place = some contents) :
    tree.get? place = some (.file contents) := by
  rw [FileTree.file?] at h
  split at h
  · next found hfound =>
      cases h
      exact hfound
  · cases h

/-- **A walk that succeeds ends at a place of the tree**, and further pieces lead on from there. -/
lemma walk_ok {tree found : FileTree} {place goal : Place} {ps : List (List Char)} (h : tree.get? place = some found)
    (hwalk : tree.walk place found ps = .ok goal) :
    ∃ reached, tree.get? goal = some reached ∧
      ∀ rest, tree.walk place found (ps ++ rest) = tree.walk goal reached rest := by
  fun_induction walk tree place found ps with
  | case1 place found =>
      cases hwalk
      exact ⟨found, h, fun rest => rfl⟩
  | case2 => cases hwalk
  | case3 place entries piece ps hidle ih =>
      obtain ⟨reached, hreached, hrest⟩ := ih h hwalk
      refine ⟨reached, hreached, fun rest => ?_⟩
      rw [List.cons_append, walk, if_pos hidle, hrest]
  | case4 place entries piece ps hidle hup ih =>
      obtain ⟨above, habove⟩ := get?_dropLast h
      obtain ⟨reached, hreached, hrest⟩ := ih (by rw [habove]; rfl) hwalk
      refine ⟨reached, hreached, fun rest => ?_⟩
      rw [List.cons_append, walk, if_neg hidle, if_pos hup, hrest]
  | case5 => cases hwalk
  | case6 => cases hwalk
  | case7 place entries piece ps hidle hup hlimit inner hinner ih =>
      obtain ⟨reached, hreached, hrest⟩ := ih ((get?_snoc h piece).trans hinner) hwalk
      refine ⟨reached, hreached, fun rest => ?_⟩
      rw [List.cons_append, walk, if_neg hidle, if_neg hup, if_neg hlimit, hinner]
      exact hrest rest

/-- **A walk that fails has failed for good.** -/
lemma walk_error {tree found : FileTree} {place : Place} {ps : List (List Char)} {fault : FileError}
    (hwalk : tree.walk place found ps = .error fault) (rest : List (List Char)) :
    tree.walk place found (ps ++ rest) = .error fault := by
  fun_induction walk tree place found ps with
  | case1 => cases hwalk
  | case2 => exact hwalk
  | case3 place entries piece ps hidle ih => rw [List.cons_append, walk, if_pos hidle, ih hwalk]
  | case4 place entries piece ps hidle hup ih => rw [List.cons_append, walk, if_neg hidle, if_pos hup, ih hwalk]
  | case5 place entries piece ps hidle hup hlimit =>
      rw [List.cons_append, walk, if_neg hidle, if_neg hup, if_pos hlimit, ← hwalk]
  | case6 place entries piece ps hidle hup hlimit hnone =>
      rw [List.cons_append, walk, if_neg hidle, if_neg hup, if_neg hlimit, hnone, ← hwalk]
  | case7 place entries piece ps hidle hup hlimit inner hinner ih =>
      rw [List.cons_append, walk, if_neg hidle, if_neg hup, if_neg hlimit, hinner]
      exact ih hwalk

/-- **Names that exist are followed** one after the other. -/
lemma walk_names {tree found reached : FileTree} {names : Place} (place : Place)
    (hnames : ∀ name ∈ names, Path.IsName name ∧ byteLength name ≤ nameLimit) (h : found.get? names = some reached)
    (rest : List (List Char)) :
    tree.walk place found (names ++ rest) = tree.walk (place ++ names) reached rest := by
  induction names generalizing place found with
  | nil =>
      cases h
      rw [List.nil_append, List.append_nil]
  | cons name names ih =>
      obtain ⟨⟨hname, hlimit⟩, hrest⟩ := List.forall_mem_cons.1 hnames
      rw [get?] at h
      split at h
      · cases h
      · next inner hinner =>
          cases found with
          | file contents => cases hinner
          | folder entries =>
              have hidle : ¬Path.isIdle name = true := by simp [hname.idle]
              have hup : ¬(name == ['.', '.']) = true := by simpa using hname.up
              have hinner : entries.lookup name = some inner := hinner
              rw [List.cons_append, walk, if_neg hidle, if_neg hup, if_neg (by omega), hinner]
              have hstep := ih (place ++ [name]) hrest h
              rwa [List.append_assoc, List.singleton_append] at hstep

/-- **Idle pieces count for nothing** as long as a stride follows. -/
lemma walk_filter (tree : FileTree) {ps : List (List Char)} (place : Place) (found : FileTree)
    (h : ∀ piece ∈ ps.getLast?, Path.isIdle piece = false) :
    tree.walk place found ps = tree.walk place found (ps.filter (!Path.isIdle ·)) := by
  -- a file has nothing below it, and the last piece is a stride
  have hfile {ps : List (List Char)} (hne : ps ≠ []) (h : ∀ piece ∈ ps.getLast?, Path.isIdle piece = false)
      (place : Place) (contents : Contents) :
      tree.walk place (.file contents) (ps.filter (!Path.isIdle ·)) = .error .notAFolder := by
    have hmem : ps.getLast hne ∈ ps.filter (!Path.isIdle ·) :=
      List.mem_filter.2 ⟨List.getLast_mem hne, by simp [h _ (List.getLast?_eq_getLast_of_ne_nil hne)]⟩
    obtain ⟨piece, rest, hcons⟩ := List.exists_cons_of_ne_nil (List.ne_nil_of_mem hmem)
    rw [hcons, walk]
  induction ps generalizing place found with
  | nil => rfl
  | cons piece ps ih =>
      have htail : ∀ piece ∈ ps.getLast?, Path.isIdle piece = false := fun last hlast =>
        h last (by rw [List.getLast?_cons, hlast]; rfl)
      cases found with
      | file contents => rw [hfile (List.cons_ne_nil piece ps) h, walk]
      | folder entries =>
          rw [walk]
          split
          · next hidle =>
              rw [List.filter_cons_of_neg (by simp [hidle])]
              exact ih place (.folder entries) htail
          · next hidle =>
              rw [List.filter_cons_of_pos (by simpa using hidle), walk, if_neg hidle]
              split
              · exact ih _ _ htail
              · split
                · rfl
                · cases entries.lookup piece with
                  | none => rfl
                  | some inner => exact ih _ _ htail

end FileTree

/-- **A place whose names can stand in a path.** -/
def Place.IsNamed (place : Place) : Prop := ∀ name ∈ place, Path.IsName name ∧ byteLength name ≤ nameLimit

instance (place : Place) : Decidable place.IsNamed :=
  inferInstanceAs (Decidable (∀ name ∈ place, Path.IsName name ∧ byteLength name ≤ nameLimit))

lemma Place.path_ne_nil (place : Place) : place.path.chars ≠ [] := by
  cases place with
  | nil => simp [path]
  | cons name names => simp [path]

lemma Place.isAbsolute_path (place : Place) : place.path.isAbsolute = true := by
  cases place with
  | nil => rfl
  | cons name names => rfl

/-- The pieces of the path of a place are its names, behind the root. -/
lemma Place.pieces_path {place : Place} (hne : place ≠ []) (hnamed : place.IsNamed) :
    Path.pieces place.path.chars = [] :: place := by
  have htext (first : List Char) (names : Place) :
      (first :: names).flatMap ('/' :: ·) = joinWith '/' ([] :: first :: names) := by
    induction names generalizing first with
    | nil => simp [joinWith]
    | cons next names ih =>
        rw [List.flatMap_cons, ih next]
        simp [joinWith]
  have hslash : ∀ piece ∈ [] :: place, '/' ∉ piece := by
    intro piece hpiece
    rcases List.mem_cons.1 hpiece with rfl | hpiece
    · simp
    · exact (hnamed piece hpiece).1.slash
  obtain ⟨first, names, rfl⟩ := List.exists_cons_of_ne_nil hne
  have hpath : (path (first :: names)).chars = joinWith '/' ([] :: first :: names) := htext first names
  rw [hpath]
  exact splitWhen_joinWith (by simp) hslash

/-- The pieces behind the path of a place. -/
lemma Place.pieces_join {place : Place} (hnamed : place.IsNamed) (rest : List Char) :
    Path.pieces (place.path.join rest).chars = [] :: place ++ Path.pieces rest := by
  cases place with
  | nil => exact Path.pieces_append_slash [] rest
  | cons first names =>
      have hpieces := pieces_path (List.cons_ne_nil first names) hnamed
      obtain ⟨front, hjoin, hfront | hfront⟩ := Path.exists_join (path_ne_nil (first :: names)) rest
      · rw [hjoin, Path.pieces_append_slash, ← hfront, hpieces]
      · -- the path would end in an empty name
        exfalso
        rw [hfront, Path.pieces_append_slash front []] at hpieces
        have hlast := congrArg List.getLast? hpieces
        rw [List.getLast?_append, List.getLast?_cons_cons] at hlast
        have hmem : ([] : List Char) ∈ first :: names := List.mem_of_getLast? hlast.symm
        exact absurd (hnamed [] hmem).1.idle (by decide)

namespace Host

variable {host : Host}

/-! ## Files in folders -/

/-- Where pieces lead from the root, or else from the working folder. -/
def follow (host : Host) (absolute : Bool) (ps : List (List Char)) : Except FileError Place :=
  let start := if absolute then [] else host.folder
  match host.tree.get? start with
  | none => .error .missing
  | some found => host.tree.walk start found ps

lemma resolve_eq_follow {path : Path} (hne : path.chars ≠ []) (hlimit : byteLength path.chars ≤ pathLimit) :
    host.resolve path = host.follow path.isAbsolute (Path.pieces path.chars) := by
  rw [resolve, FileTree.resolve, if_neg (by simpa using hne), if_neg (by omega)]
  rfl

/-- A path that leads somewhere is neither empty nor too long. -/
lemma bounds_of_resolve {path : Path} {place : Place} (h : host.resolve path = .ok place) :
    path.chars ≠ [] ∧ byteLength path.chars ≤ pathLimit := by
  rw [resolve, FileTree.resolve] at h
  split at h
  · cases h
  · next hne =>
      split at h
      · cases h
      · next hlimit => exact ⟨by simpa using hne, by omega⟩

/-- Pieces that lead somewhere lead on from there. -/
lemma follow_ok {absolute : Bool} {ps : List (List Char)} {place : Place} (h : host.follow absolute ps = .ok place) :
    ∃ reached, host.tree.get? place = some reached ∧
      ∀ rest, host.follow absolute (ps ++ rest) = host.tree.walk place reached rest := by
  simp only [follow] at h ⊢
  split at h
  · cases h
  · next found hfound => exact FileTree.walk_ok hfound h

lemma follow_error {absolute : Bool} {ps : List (List Char)} {fault : FileError}
    (h : host.follow absolute ps = .error fault) (rest : List (List Char)) :
    host.follow absolute (ps ++ rest) = .error fault := by
  simp only [follow] at h ⊢
  split at h
  · exact h
  · exact FileTree.walk_error h rest

lemma follow_filter (absolute : Bool) {ps : List (List Char)}
    (h : ∀ piece ∈ ps.getLast?, Path.isIdle piece = false) :
    host.follow absolute ps = host.follow absolute (ps.filter (!Path.isIdle ·)) := by
  simp only [follow]
  split
  · rfl
  · exact FileTree.walk_filter _ _ _ h

lemma isFile_iff {path : Path} :
    host.isFile path = true ↔
      ∃ place contents, host.resolve path = .ok place ∧ host.tree.file? place = some contents := by
  rw [isFile]
  split
  · next place hplace => simp [hplace, Option.isSome_iff_exists]
  · next fault hfault => simp [hfault]

lemma exists_resolve {path : Path} (h : host.isFile path = true ∨ host.isFolder path = true) :
    ∃ place, host.resolve path = .ok place := by
  cases hresolve : host.resolve path with
  | ok place => exact ⟨place, rfl⟩
  | error fault => simp [isFile, isFolder, hresolve] at h

/-- **Nothing is below a file.** -/
lemma resolve_join_of_isFile {path : Path} {name : List Char} (h : host.isFile path = true) (hname : Path.IsName name) :
    ∃ fault, host.resolve (path.join name) = .error fault := by
  obtain ⟨place, contents, hresolve, hfile⟩ := isFile_iff.1 h
  obtain ⟨hne, hlimit⟩ := bounds_of_resolve hresolve
  rw [resolve_eq_follow hne hlimit] at hresolve
  cases hjoined : host.resolve (path.join name) with
  | error fault => exact ⟨fault, rfl⟩
  | ok goal =>
      exfalso
      obtain ⟨hjoinne, hjoinlimit⟩ := bounds_of_resolve hjoined
      rw [resolve_eq_follow hjoinne hjoinlimit, Path.isAbsolute_join_name path hname] at hjoined
      obtain ⟨front, hpieces, hpath⟩ := Path.pieces_join_name hne hname
      rw [hpieces] at hjoined
      cases hfront : host.follow path.isAbsolute (Path.pieces front) with
      | error fault => rw [follow_error hfront] at hjoined; cases hjoined
      | ok reached =>
          obtain ⟨found, hfound, hrest⟩ := follow_ok hfront
          -- the file is what the front of the path leads to
          have hend : found = .file contents := by
            rcases hpath with hpath | hpath
            · rw [hpath, hfront] at hresolve
              cases hresolve
              exact Option.some.inj (hfound.symm.trans (FileTree.get?_of_file? hfile))
            · rw [hpath, Path.pieces_append_slash front [], hrest] at hresolve
              cases found with
              | file other => cases hresolve
              | folder entries =>
                  have hplace : reached = place := Except.ok.inj hresolve
                  rw [← hplace, FileTree.file?, hfound] at hfile
                  cases hfile
          rw [hrest, hend] at hjoined
          cases hjoined

/-- **The path of a name in a folder is resolved by strides.** -/
lemma resolve_join_name {path : Path} {name : List Char} (hname : Path.IsName name)
    (hlimit : byteLength (path.join name).chars ≤ pathLimit) :
    host.resolve (path.join name) = host.follow path.isAbsolute (path.strides ++ [name]) := by
  have hne : (path.join name).chars ≠ [] := fun hnil => by
    have hcomponents := Path.components_join_name path hname
    rw [Path.components_eq, Path.strides, hnil] at hcomponents
    have hroot : (path.join name).stem = [] := by rw [Path.stem, Path.isAbsolute, Path.startsHere, hnil]; rfl
    rw [hroot] at hcomponents
    simp [Path.stridesOf, Path.pieces, splitWhen, Path.isIdle] at hcomponents
  have hlast : ∀ piece ∈ (Path.pieces (path.join name).chars).getLast?, Path.isIdle piece = false := by
    by_cases hpath : path.chars = []
    · have hjoin : (path.join name).chars = name := by simp [Path.join, hpath]
      simp [hjoin, hname.pieces, hname.idle]
    · obtain ⟨front, hpieces, -⟩ := Path.pieces_join_name hpath hname
      simp [hpieces, hname.idle]
  rw [resolve_eq_follow hne hlimit, follow_filter _ hlast, Path.isAbsolute_join_name path hname]
  exact congrArg _ (Path.strides_join_name path hname)

/-! ## Relative paths -/

/-- Where a relative path leads somewhere there is a working folder. -/
lemma exists_folder {path : Path} {place : Place} (hrelative : path.isAbsolute = false)
    (h : host.resolve path = .ok place) : ∃ found, host.tree.get? host.folder = some found := by
  obtain ⟨hne, hlimit⟩ := bounds_of_resolve h
  rw [resolve_eq_follow hne hlimit, hrelative, follow] at h
  cases hfound : host.tree.get? host.folder with
  | none => simp [hfound] at h
  | some found => exact ⟨found, rfl⟩

/-- Pieces behind those of the working folder lead from there. -/
lemma follow_folder (hnamed : host.folder.IsNamed) {found : FileTree} (hfound : host.tree.get? host.folder = some found)
    (ps : List (List Char)) : host.follow true (host.folder ++ ps) = host.follow false ps := by
  have hwalk : host.tree.walk [] host.tree (host.folder ++ ps) = _ := FileTree.walk_names [] hnamed hfound ps
  simpa [follow, FileTree.get?, hfound] using hwalk

/-- An empty piece in front changes nothing. -/
lemma follow_nil_cons (absolute : Bool) {ps : List (List Char)} (hne : ps ≠ []) :
    host.follow absolute ([] :: ps) = host.follow absolute ps := by
  simp only [follow]
  split
  · rfl
  · next found hfound =>
      cases found with
      | file contents =>
          obtain ⟨piece, rest, rfl⟩ := List.exists_cons_of_ne_nil hne
          rw [FileTree.walk, FileTree.walk]
      | folder entries =>
          rw [FileTree.walk]
          exact if_pos rfl

/-- **A relative path leads where it leads behind the path of the working folder.** -/
lemma resolve_join_folder (hnamed : host.folder.IsNamed) {found : FileTree}
    (hfound : host.tree.get? host.folder = some found) {path : Path} (hrelative : path.isAbsolute = false)
    (hne : path.chars ≠ []) (hlimit : byteLength (host.folder.path.join path.chars).chars ≤ pathLimit) :
    host.resolve (host.folder.path.join path.chars) = host.resolve path := by
  have hroot := (Path.isAbsolute_join host.folder.path_ne_nil path.chars).trans host.folder.isAbsolute_path
  have hjoinne : (host.folder.path.join path.chars).chars ≠ [] := fun hnil => by simp [Path.isAbsolute, hnil] at hroot
  have hpathlimit := (host.folder.path.byteLength_le_join path.chars).trans hlimit
  have hpieces : Path.pieces path.chars ≠ [] := splitWhen_ne_nil _ _
  rw [resolve_eq_follow hjoinne hlimit, resolve_eq_follow hne hpathlimit, hroot, hrelative,
    Place.pieces_join hnamed, List.cons_append, follow_nil_cons true (by simp [hpieces]), follow_folder hnamed hfound]

end Host

end SqfLayout
