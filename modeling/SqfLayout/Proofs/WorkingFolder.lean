import SqfLayout.Proofs.NearestSettings

/-!
# Settings for relative paths

A relative path has fewer folders above it than the same path behind the working folder: the search for settings
ends at the working folder.  This file says when that makes a difference (`discoveredStyle_absolute_iff`).

**The folders within the working folder.**  They are searched in both cases, under other names.  The names lead to
the same files (`SameFolder.valueOf?_join`), so the same value is found first (`firstValue?_inner`).

**The folders above it** are searched for the absolute path only, which makes a difference if they give a setting
that nothing within the working folder gives (`discoveredStyle_relative_ne_absolute`).

**The home folder.**  Its files are left out where they are met again, and whether they are is decided by the
components of paths.  So they are left out for one of the two paths at most (`heeds_or_heeds`).
-/

namespace SqfLayout

open SqfLayout.Text

/-- **A path behind which a settings file can be named.** -/
def Path.LeavesRoom (path : Path) : Prop :=
  ∀ name ∈ settingsNames, byteLength path.chars + 1 + byteLength name ≤ pathLimit

instance (path : Path) : Decidable path.LeavesRoom :=
  inferInstanceAs (Decidable (∀ name ∈ settingsNames, byteLength path.chars + 1 + byteLength name ≤ pathLimit))

lemma Path.LeavesRoom.mono {a b : Path} (h : b.LeavesRoom) (hle : byteLength a.chars ≤ byteLength b.chars) :
    a.LeavesRoom := by
  intro name hname
  have hroom := h name hname
  omega

lemma Path.LeavesRoom.of_start {a b : Path} (h : b.LeavesRoom) (hstart : a.chars <+: b.chars) : a.LeavesRoom := by
  obtain ⟨rest, hrest⟩ := hstart
  refine h.mono ?_
  rw [← hrest, byteLength_append]
  omega

namespace Host

variable {host : Host}

/-- The path behind that of the working folder. -/
def absolute (host : Host) (path : Path) : Path := host.folder.path.join path.chars

/-- Whether an absolute path has the working folder at its start. -/
def isWithin (host : Host) (path : Path) : Bool := host.folder.isPrefixOf path.strides

/-- The folders above a path that are within the working folder. -/
def inner (host : Host) (path : Path) : List Path := (host.absolute path).ancestors.filter host.isWithin

/-- The folders above the working folder. -/
def outer (host : Host) (path : Path) : List Path := (host.absolute path).ancestors.filter (!host.isWithin ·)

/-! ## The folders within the working folder -/

lemma isAbsolute_absolute (path : Path) : (host.absolute path).isAbsolute = true :=
  (Path.isAbsolute_join host.folder.path_ne_nil path.chars).trans host.folder.isAbsolute_path

lemma strides_absolute (hnamed : host.folder.IsNamed) (path : Path) :
    (host.absolute path).strides = host.folder ++ path.strides := by
  have hfolder : host.folder.filter (!Path.isIdle ·) = host.folder :=
    List.filter_eq_self.2 fun name hname => by simp [(hnamed name hname).1.idle]
  rw [absolute, Path.strides, Path.stridesOf, Place.pieces_join hnamed, List.filter_append,
    List.filter_cons_of_neg (by simp [Path.isIdle]), hfolder]
  rfl

/-- Paths that lead to the same place give the same values. -/
lemma valueOf?_congr {a b : Path} (h : host.resolve a = host.resolve b) (s : StyleSetting) :
    host.valueOf? s a = host.valueOf? s b := by
  simp only [valueOf?, Finding.value?, settingsOf, readText, contents, h]

/-- **Two names of a folder**, one relative and one absolute. -/
structure SameFolder (host : Host) (near far : Path) : Prop where
  relative : near.isAbsolute = false
  absolute : far.isAbsolute = true
  strides : far.strides = host.folder ++ near.strides
  nearRoom : near.LeavesRoom
  farRoom : far.LeavesRoom

section

variable (hnamed : host.folder.IsNamed) {found : FileTree} (hfound : host.tree.get? host.folder = some found)

include hnamed hfound

/-- **A settings file is the same under both names of its folder.** -/
lemma SameFolder.valueOf?_join {near far : Path} (h : host.SameFolder near far) {name : List Char}
    (hname : name ∈ settingsNames) (s : StyleSetting) :
    host.valueOf? s (near.join name) = host.valueOf? s (far.join name) := by
  have his := isName_settingsNames name hname
  refine valueOf?_congr ?_ s
  rw [resolve_join_name his ((near.byteLength_join name).trans (h.nearRoom name hname)),
    resolve_join_name his ((far.byteLength_join name).trans (h.farRoom name hname)), h.relative, h.absolute, h.strides,
    List.append_assoc, follow_folder hnamed hfound]

lemma SameFolder.firstValue? {near far : Path} (h : host.SameFolder near far) (s : StyleSetting) :
    host.firstValue? s (settingsFiles [near]) = host.firstValue? s (settingsFiles [far]) := by
  have hfiles (folder : Path) : settingsFiles [folder] = settingsNames.reverse.map folder.join := by
    simp [settingsFiles]
  rw [hfiles, hfiles, Host.firstValue?, Host.firstValue?, List.findSome?_map, List.findSome?_map]
  have hnames : ∀ name ∈ settingsNames.reverse, name ∈ settingsNames := fun name => List.mem_reverse.1
  generalize settingsNames.reverse = names at hnames ⊢
  induction names with
  | nil => rfl
  | cons name names ih =>
      obtain ⟨hname, hrest⟩ := List.forall_mem_cons.1 hnames
      rw [List.findSome?_cons, List.findSome?_cons, Function.comp_apply, Function.comp_apply,
        h.valueOf?_join hnamed hfound hname s, ih hrest]

end

lemma firstValue?_settingsFiles_cons (s : StyleSetting) (folder : Path) (folders : List Path) :
    host.firstValue? s (settingsFiles (folder :: folders))
      = (host.firstValue? s (settingsFiles [folder])).or (host.firstValue? s (settingsFiles folders)) := by
  rw [← firstValue?_append, settingsFiles, settingsFiles, settingsFiles, ← List.flatMap_append]
  rfl

lemma isWithin_of_strides {path : Path} {rest : List (List Char)} (h : path.strides = host.folder ++ rest) :
    host.isWithin path = true := by
  rw [isWithin, h, List.isPrefixOf_iff_prefix]
  exact List.prefix_append ..

/-- Above the working folder nothing is within it. -/
lemma filter_isWithin_of_strides {path : Path} (habsolute : path.isAbsolute = true) (h : path.strides = host.folder) :
    path.ancestors.filter host.isWithin = [path] := by
  have hwithin : host.isWithin path = true := isWithin_of_strides (h.trans (List.append_nil _).symm)
  cases hparent : path.parent? with
  | none => rw [Path.ancestors_of_none hparent, List.filter_cons_of_pos hwithin, List.filter_nil]
  | some parent =>
      obtain ⟨last, hlast⟩ := Path.strides_parent_of_isAbsolute habsolute hparent
      have habove : ∀ other ∈ parent.ancestors, ¬host.isWithin other = true := by
        intro other hother hother'
        have hlength := ((List.isPrefixOf_iff_prefix.1 hother').trans (Path.strides_of_mem_ancestors hother)).length_le
        rw [← h, hlast, List.length_append, List.length_singleton] at hlength
        omega
      rw [Path.ancestors_of_parent hparent, List.filter_cons_of_pos hwithin, List.filter_eq_nil_iff.2 habove]

/-- **The same value is found first under both names.** -/
lemma SameFolder.firstValue?_ancestors (hnamed : host.folder.IsNamed) {found : FileTree}
    (hfound : host.tree.get? host.folder = some found) {near far : Path} (h : host.SameFolder near far)
    (s : StyleSetting) :
    host.firstValue? s (settingsFiles near.ancestors)
      = host.firstValue? s (settingsFiles (far.ancestors.filter host.isWithin)) := by
  -- one step up on the relative side is one step up on the other, but for a dot, which is no step
  refine Path.ancestors_induction (motive := fun near as => ∀ far, host.SameFolder near far →
    host.firstValue? s (settingsFiles as) = host.firstValue? s (settingsFiles (far.ancestors.filter host.isWithin)))
    (fun near hnone far h => ?_) (fun near parent hparent ih far h => ?_) near far h
  · have hstrides := h.strides
    rw [(Path.components_of_parent_eq_none hnone).1, List.append_nil] at hstrides
    rw [filter_isWithin_of_strides h.absolute hstrides, h.firstValue? hnamed hfound]
  · rw [firstValue?_settingsFiles_cons, h.firstValue? hnamed hfound]
    rcases Path.strides_parent hparent with ⟨-, hstrides, rfl⟩ | ⟨-, last, hstrides⟩
    · have hfar := h.strides
      rw [hstrides, List.append_nil] at hfar
      have hsame : host.SameFolder ⟨[]⟩ far :=
        ⟨rfl, h.absolute, hfar.trans (List.append_nil _).symm, h.nearRoom.of_start List.nil_prefix, h.farRoom⟩
      rw [ih far hsame, filter_isWithin_of_strides h.absolute hfar, Option.or_self]
    · have hfar := h.strides
      rw [hstrides, ← List.append_assoc] at hfar
      cases habove : far.parent? with
      | none =>
          rw [(Path.components_of_parent_eq_none habove).1] at hfar
          simp at hfar
      | some above =>
          obtain ⟨last', hlast⟩ := Path.strides_parent_of_isAbsolute h.absolute habove
          have hsame : host.SameFolder parent above :=
            ⟨(Path.isAbsolute_parent hparent).trans h.relative, (Path.isAbsolute_parent habove).trans h.absolute,
              List.append_inj_left' (hlast.symm.trans hfar) rfl, h.nearRoom.of_start (Path.chars_parent hparent),
              h.farRoom.of_start (Path.chars_parent habove)⟩
          rw [ih above hsame, Path.ancestors_of_parent habove, List.filter_cons_of_pos (isWithin_of_strides h.strides),
            ← firstValue?_settingsFiles_cons]

/-! ## The two searches -/

lemma settingsFiles_ancestors (path : Path) :
    settingsFiles (host.absolute path).ancestors
      = settingsFiles (host.inner path) ++ settingsFiles (host.outer path) := by
  have hsplit : (host.absolute path).ancestors = host.inner path ++ host.outer path := by
    rw [inner, outer]
    generalize host.absolute path = start
    -- what is above a folder that is not within the working folder is not within it either
    refine Path.ancestors_induction (motive := fun _ as => as = as.filter host.isWithin ++ as.filter (!host.isWithin ·))
      (fun start _ => ?_) (fun start parent hparent ih => ?_) start
    · cases hwithin : host.isWithin start <;> simp [hwithin]
    · cases hwithin : host.isWithin start with
      | true =>
          rw [List.filter_cons_of_pos hwithin, List.filter_cons_of_neg (by simp [hwithin]), List.cons_append, ← ih]
      | false =>
          have habove : ∀ other ∈ start :: parent.ancestors, host.isWithin other = false := by
            rw [← Path.ancestors_of_parent hparent]
            intro other hother
            rw [Bool.eq_false_iff] at hwithin ⊢
            intro hother'
            exact hwithin (List.isPrefixOf_iff_prefix.2
              ((List.isPrefixOf_iff_prefix.1 hother').trans (Path.strides_of_mem_ancestors hother)))
          rw [List.filter_eq_nil_iff.2 (by simpa using habove), List.nil_append,
            List.filter_eq_self.2 (by simpa using habove)]
  rw [hsplit, settingsFiles, List.flatMap_append]
  rfl

/-- **A file that is met in the home folder is named as that is**, from the root or not. -/
lemma isAbsolute_of_isHomeFile {folders : List Path} {file : Path} (hfile : file ∈ settingsFiles folders)
    (hhome : host.isHomeFile file = true) :
    ∃ home ∈ host.homeFolder?, ∃ folder ∈ folders, folder.isAbsolute = home.isAbsolute := by
  have hfolder {folders : List Path} {file : Path} (h : file ∈ settingsFiles folders) :
      ∃ folder ∈ folders, file.isAbsolute = folder.isAbsolute := by
    obtain ⟨folder, hfolder, hmem⟩ := List.mem_flatMap.1 h
    obtain ⟨name, hname, rfl⟩ := List.mem_map.1 hmem
    exact ⟨folder, hfolder, Path.isAbsolute_join_name folder (isName_settingsNames name (List.mem_reverse.1 hname))⟩
  obtain ⟨other, hother, hsame⟩ := List.any_eq_true.1 hhome
  obtain ⟨home, hhome, hotherhome⟩ := hfolder (List.mem_of_mem_filter hother)
  obtain ⟨folder, hmem, hfilefolder⟩ := hfolder hfile
  refine ⟨home, Option.mem_toList.1 hhome, folder, hmem, ?_⟩
  rw [← hfilefolder, ← hotherhome, Path.isAbsolute_congr (beq_iff_eq.1 hsame)]

/-- A home folder that is named otherwise is not met. -/
lemma heeds_of_isAbsolute_ne {folders : List Path} (absolute : Bool)
    (hfolders : ∀ folder ∈ folders, folder.isAbsolute = absolute)
    (hhome : ∀ home ∈ host.homeFolder?, home.isAbsolute ≠ absolute) (s : StyleSetting) (rest : List Path) :
    host.Heeds s (settingsFiles folders) rest := by
  refine heeds_of_not_isHomeFile fun file hfile => Bool.eq_false_iff.2 fun hhomefile => ?_
  obtain ⟨home, hmem, folder, hfolder, hsame⟩ := isAbsolute_of_isHomeFile hfile hhomefile
  exact hhome home hmem (hsame.symm.trans (hfolders folder hfolder))

section

variable {path : Path} (hnamed : host.folder.IsNamed) (hroom : (host.absolute path).LeavesRoom)
  (hrelative : path.isAbsolute = false)

include hrelative in
/-- One of the two searches heeds the files of the home folder, which is named from the root or not. -/
lemma heeds_or_heeds (s : StyleSetting) :
    host.Heeds s (settingsFiles path.ancestors) []
      ∨ host.Heeds s (settingsFiles (host.inner path)) (settingsFiles (host.outer path)) := by
  by_cases hhome : ∃ home ∈ host.homeFolder?, home.isAbsolute = true
  · obtain ⟨home, hmem, habsolute⟩ := hhome
    refine .inl (heeds_of_isAbsolute_ne false (fun folder hfolder => ?_) (fun other hother => ?_) s [])
    · exact (Path.isAbsolute_of_mem_ancestors hfolder).trans hrelative
    · rw [Option.mem_unique hother hmem, habsolute]
      simp
  · refine .inr (heeds_of_isAbsolute_ne true (fun folder hfolder => ?_) (fun home hmem habsolute => ?_) s _)
    · exact (Path.isAbsolute_of_mem_ancestors (List.mem_of_mem_filter hfolder)).trans (isAbsolute_absolute path)
    · exact hhome ⟨home, hmem, habsolute⟩

variable (hstart : host.isFile path = true ∨ host.isFolder path = true)

include hnamed hroom hrelative hstart

/-- **The absolute path leads to the same place.** -/
lemma resolve_absolute : host.resolve (host.absolute path) = host.resolve path := by
  obtain ⟨place, hplace⟩ := exists_resolve hstart
  obtain ⟨hne, -⟩ := bounds_of_resolve hplace
  obtain ⟨found, hfound⟩ := exists_folder hrelative hplace
  refine resolve_join_folder hnamed hfound hrelative hne ?_
  have hname := hroom "sqfprettier.toml".toList List.mem_cons_self
  rw [absolute] at hname
  omega

/-- **The same value is found first in both searches**, as far as the working folder. -/
lemma firstValue?_inner (s : StyleSetting) :
    host.firstValue? s (settingsFiles path.ancestors) = host.firstValue? s (settingsFiles (host.inner path)) := by
  obtain ⟨place, hplace⟩ := exists_resolve hstart
  obtain ⟨found, hfound⟩ := exists_folder hrelative hplace
  have hsame : host.SameFolder path (host.absolute path) :=
    ⟨hrelative, isAbsolute_absolute path, strides_absolute hnamed path,
      hroom.mono (Path.byteLength_le_join _ _), hroom⟩
  exact hsame.firstValue?_ancestors hnamed hfound s

lemma heeds_relative_iff (s : StyleSetting) :
    host.Heeds s (settingsFiles path.ancestors) [] ↔ (host.discoveredStyle path).value s
      = (host.firstValue? s (settingsFiles (host.inner path))).getD (host.valueFrom s []) := by
  rw [heeds_iff, List.append_nil, value_discoveredStyle hstart, firstValue?_inner hnamed hroom hrelative hstart]

lemma heeds_absolute_iff (s : StyleSetting) :
    host.Heeds s (settingsFiles (host.inner path)) (settingsFiles (host.outer path)) ↔
      (host.discoveredStyle (host.absolute path)).value s
        = (host.firstValue? s (settingsFiles (host.inner path))).getD
            (host.valueFrom s (settingsFiles (host.outer path))) := by
  have hstart' : host.isFile (host.absolute path) = true ∨ host.isFolder (host.absolute path) = true := by
    simpa only [isFile, isFolder, resolve_absolute hnamed hroom hrelative hstart] using hstart
  rw [heeds_iff, value_discoveredStyle hstart', settingsFiles_ancestors]

end

/-- **When a relative path has the settings of the absolute one.**  Exactly if files of the home folder are heeded in
both searches and the folders above the working folder leave each setting that is not given within it as the home
folder and the defaults do. -/
theorem discoveredStyle_absolute_iff (host : Host) (path : Path) (hnamed : host.folder.IsNamed)
    (hroom : (host.absolute path).LeavesRoom) (hrelative : path.isAbsolute = false)
    (hstart : host.isFile path = true ∨ host.isFolder path = true) :
    host.discoveredStyle path = host.discoveredStyle (host.absolute path) ↔
      ∀ s, host.Heeds s (settingsFiles path.ancestors) [] ∧
        host.Heeds s (settingsFiles (host.inner path)) (settingsFiles (host.outer path)) ∧
        (host.firstValue? s (settingsFiles (host.inner path)) = none →
          host.valueFrom s (settingsFiles (host.outer path)) = host.valueFrom s []) := by
  have hnear := heeds_relative_iff hnamed hroom hrelative hstart
  have hfar := heeds_absolute_iff hnamed hroom hrelative hstart
  constructor
  · intro hstyle s
    have hvalue : (host.discoveredStyle path).value s = (host.discoveredStyle (host.absolute path)).value s := by
      rw [hstyle]
    cases hfirst : host.firstValue? s (settingsFiles (host.inner path)) with
    | none =>
        have hnone := (firstValue?_inner hnamed hroom hrelative hstart s).trans hfirst
        refine ⟨heeds_of_none hnone [], heeds_of_none hfirst _, fun _ => ?_⟩
        have hnearvalue := (hnear s).1 (heeds_of_none hnone [])
        have hfarvalue := (hfar s).1 (heeds_of_none hfirst _)
        rw [hfirst, Option.getD_none] at hnearvalue hfarvalue
        rw [← hfarvalue, ← hvalue, hnearvalue]
    | some v =>
        -- one of the searches gives the value, and so does the other
        have heither : host.Heeds s _ _ ∨ host.Heeds s _ _ := heeds_or_heeds hrelative s
        rw [hnear, hfar, hfirst, Option.getD_some, Option.getD_some] at heither ⊢
        rcases heither with h | h
        · exact ⟨h, hvalue ▸ h, by simp⟩
        · exact ⟨hvalue ▸ h, h, by simp⟩
  · intro h
    refine Style.eq_of_value fun s => ?_
    obtain ⟨hnearheeds, hfarheeds, houter⟩ := h s
    rw [(hnear s).1 hnearheeds, (hfar s).1 hfarheeds]
    cases hfirst : host.firstValue? s (settingsFiles (host.inner path)) with
    | none => exact (houter hfirst).symm
    | some v => rfl

/-- Settings within the working folder are found under both names. -/
theorem discoveredStyle_absolute_of_inner :
    let host : Host := ⟨nestedFolders, ["work".toList], some (.ofString "/home"), none⟩
    let path := Path.ofString "src/a.sqf"
    host.isFile path = true ∧ host.discoveredStyle path = host.discoveredStyle (host.absolute path) := by
  refine ⟨by decide +kernel, ?_⟩
  refine (discoveredStyle_absolute_iff _ _ (by decide +kernel) (by decide +kernel) (by decide +kernel)
    (.inl (by decide +kernel))).2 fun s => ⟨?_, ?_, ?_⟩
  · exact heeds_of_not_isHomeFile (by decide +kernel)
  · exact heeds_of_not_isHomeFile (by decide +kernel)
  · cases s <;> decide +kernel

/-- Settings above the working folder are missed under a relative name. -/
theorem discoveredStyle_relative_ne_absolute :
    let host : Host := ⟨nestedFolders, ["work".toList, "src".toList], none, none⟩
    let path := Path.ofString "a.sqf"
    host.isFile path = true ∧ host.discoveredStyle path ≠ host.discoveredStyle (host.absolute path) := by
  decide +kernel

end Host

end SqfLayout
