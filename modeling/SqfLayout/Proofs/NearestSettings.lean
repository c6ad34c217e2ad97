import Mathlib.Data.List.Nodup
import SqfLayout.Discovery
import SqfLayout.Proofs.Resolution

/-!
# The nearest settings

The folders above a script are searched from the root down, and each file wins over those before it.  Read from
the other end this is a search for the nearest file that gives a setting a value.

**One setting.**  A style is its values (`Style.eq_of_value`), and a value comes from the last file that gives
one (`value_foldl_apply`).

**The order of the files.**  No two folders above a path have the same components, so only the files of the home
folder can be met again (`reverse_discover`).  They keep the place at which they are met first, which is the
weakest.  Hence a value comes from the nearest file that is not one of the home folder, then from the home
folder, and then from the defaults (`value_discoveredStyle`).

**Who wins.**  The nearest file gives the value unless it is one of the home folder and what is left without it
gives another value (`value_eq_nearest_iff`).  So a folder above the home folder may win over it
(`value_ne_nearest_at_home`).
-/

namespace SqfLayout

open SqfLayout.Text

/-! ## One setting -/

/-- A setting. -/
inductive StyleSetting
  | indent
  | normalizeCase
  | operatorSpacing
  deriving DecidableEq, Repr

/-- The type of the values of a setting. -/
abbrev StyleSetting.Value : StyleSetting → Type
  | .indent => IndentUnit
  | .normalizeCase => Bool
  | .operatorSpacing => Bool

/-- The value of a setting in a style. -/
def Style.value (style : Style) : (s : StyleSetting) → s.Value
  | .indent => style.indent
  | .normalizeCase => style.normalizeCase
  | .operatorSpacing => style.operatorSpacing

/-- The value of a setting among some. -/
def Overrides.value? (o : Overrides) : (s : StyleSetting) → Option s.Value
  | .indent => o.indent
  | .normalizeCase => o.normalizeCase
  | .operatorSpacing => o.operatorSpacing

lemma Style.value_override (style : Style) (o : Overrides) (s : StyleSetting) :
    (style.override o).value s = (o.value? s).getD (style.value s) := by
  cases s <;> rfl

/-- A style is its values. -/
lemma Style.eq_of_value {a b : Style} (h : ∀ s, a.value s = b.value s) : a = b := by
  obtain ⟨indent, normalizeCase, operatorSpacing⟩ := a
  obtain rfl : indent = b.indent := h .indent
  obtain rfl : normalizeCase = b.normalizeCase := h .normalizeCase
  obtain rfl : operatorSpacing = b.operatorSpacing := h .operatorSpacing
  rfl

/-- The value that a finding gives a setting; a file that cannot be used gives none. -/
def Finding.value? (finding : Finding) (s : StyleSetting) : Option s.Value :=
  finding.settings.toOption.bind (·.value? s)

lemma Finding.value_apply (style : Style) (finding : Finding) (s : StyleSetting) :
    (finding.apply style).value s = (finding.value? s).getD (style.value s) := by
  obtain ⟨path, settings⟩ := finding
  cases settings with
  | error fault => rfl
  | ok settings => exact style.value_override settings s

/-- **A value comes from the last file that gives one.** -/
lemma value_foldl_apply (findings : List Finding) (style : Style) (s : StyleSetting) :
    (findings.foldl Finding.apply style).value s
      = (findings.reverse.findSome? (·.value? s)).getD (style.value s) := by
  induction findings generalizing style with
  | nil => rfl
  | cons finding findings ih =>
      rw [List.foldl_cons, ih, Finding.value_apply, List.reverse_cons, List.findSome?_append, Option.getD_or]
      simp

/-! ## Settings files -/

/-- The settings files that folders may hold, in the order of the folders and the stronger name first. -/
def settingsFiles (folders : List Path) : List Path :=
  folders.flatMap fun folder => settingsNames.reverse.map folder.join

lemma isName_settingsNames : ∀ name ∈ settingsNames, Path.IsName name := by decide

/-- **Folders with different components hold different files.** -/
lemma nodup_settingsFiles {folders : List Path} (h : (folders.map Path.components).Nodup) :
    ((settingsFiles folders).map Path.components).Nodup := by
  have hnames (folder : Path) : (settingsNames.reverse.map folder.join).map Path.components
      = settingsNames.reverse.map fun name => folder.components ++ [.name name] := by
    rw [List.map_map]
    exact List.map_congr_left fun name hname =>
      Path.components_join_name folder (isName_settingsNames name (List.mem_reverse.1 hname))
  rw [settingsFiles, List.map_flatMap, List.nodup_flatMap]
  refine ⟨fun folder _ => ?_, (List.pairwise_map.1 h).imp fun {a b} hne => ?_⟩
  · rw [hnames]
    refine List.Nodup.map (fun a b heq => ?_) (by decide)
    simpa using heq
  · intro components ha hb
    simp only [hnames] at ha hb
    obtain ⟨name, -, rfl⟩ := List.mem_map.1 ha
    obtain ⟨other, -, heq⟩ := List.mem_map.1 hb
    exact hne (List.append_inj_left' heq rfl).symm

/-! ## Paths that are met again -/

/-- The components that were seen are left out. -/
lemma distinctPaths_eq_filter (seen : List (Array PathComponent)) {paths : List Path}
    (h : (paths.map Path.components).Nodup) :
    distinctPaths seen paths = paths.filter (!seen.contains ·.components.toArray) := by
  induction paths generalizing seen with
  | nil => rfl
  | cons path paths ih =>
      obtain ⟨hpath, hpaths⟩ := List.nodup_cons.1 h
      rw [distinctPaths]
      split
      · next hseen => rw [ih seen hpaths, List.filter_cons_of_neg (by simpa using hseen)]
      · next hseen =>
          rw [ih _ hpaths, List.filter_cons_of_pos (by simpa using hseen)]
          -- the path itself is not met again
          refine congrArg (path :: ·) (List.filter_congr fun other hother => ?_)
          have hne : other.components ≠ path.components := fun heq => hpath (heq ▸ List.mem_map_of_mem hother)
          simp [hne]

/-- Paths that differ are kept in front of others. -/
lemma distinctPaths_append (seen : List (Array PathComponent)) {a b : List Path}
    (h : (a.map Path.components).Nodup) (hseen : ∀ path ∈ a, path.components.toArray ∉ seen) :
    distinctPaths seen (a ++ b) = a ++ distinctPaths ((a.map (·.components.toArray)).reverse ++ seen) b := by
  induction a generalizing seen with
  | nil => rfl
  | cons path a ih =>
      obtain ⟨hpath, ha⟩ := List.nodup_cons.1 h
      obtain ⟨hfresh, hrest⟩ := List.forall_mem_cons.1 hseen
      have hnext : ∀ other ∈ a, other.components.toArray ∉ path.components.toArray :: seen := by
        intro other hother hmem
        rcases List.mem_cons.1 hmem with heq | hmem
        · exact hpath (List.mem_map.2 ⟨other, hother, by simpa using heq⟩)
        · exact hrest other hother hmem
      rw [List.cons_append, distinctPaths, if_neg (by simpa using hfresh), ih _ ha hnext]
      simp

/-! ## Values of files -/

namespace Host

variable {host : Host}

/-- The value that a file gives a setting. -/
def valueOf? (host : Host) (s : StyleSetting) (file : Path) : Option s.Value :=
  Finding.value? ⟨file, host.settingsOf file⟩ s

/-- **The first value among files.** -/
def firstValue? (host : Host) (s : StyleSetting) (files : List Path) : Option s.Value :=
  files.findSome? (host.valueOf? s)

/-- The settings files that the home folder may hold. -/
def homeFiles (host : Host) : List Path := settingsFiles host.homeFolder?.toList

/-- Whether a file is met in the home folder. -/
def isHomeFile (host : Host) (file : Path) : Bool :=
  (host.homeFiles.filter host.isFile).any fun other => other.components == file.components

/-- **The value of a setting that files leave**: the first one among those that are not met in the home folder,
or else that of the home folder, or else the default. -/
def valueFrom (host : Host) (s : StyleSetting) (files : List Path) : s.Value :=
  ((host.firstValue? s (files.filter (!host.isHomeFile ·))).or (host.firstValue? s host.homeFiles)).getD
    (Style.value {} s)

/-- A path that leads nowhere gives no value. -/
lemma valueOf?_of_error {file : Path} {fault : FileError} (h : host.contents file = .error fault) (s : StyleSetting) :
    host.valueOf? s file = none := by
  simp [valueOf?, settingsOf, readText, h, Finding.value?, bind, Except.bind, Except.toOption]

/-- **What is no file gives no value.** -/
lemma valueOf?_of_not_isFile {file : Path} (h : host.isFile file = false) (s : StyleSetting) :
    host.valueOf? s file = none := by
  cases hresolve : host.resolve file with
  | error fault =>
      have hcontents : host.contents file = .error fault := by simp [contents, hresolve, bind, Except.bind]
      exact valueOf?_of_error hcontents s
  | ok place =>
      have hfile : host.tree.file? place = none := by simpa [isFile, hresolve] using h
      have hcontents : host.contents file = .error .isAFolder := by
        simp [contents, hresolve, hfile, bind, Except.bind]
      exact valueOf?_of_error hcontents s

lemma firstValue?_append (s : StyleSetting) (a b : List Path) :
    host.firstValue? s (a ++ b) = (host.firstValue? s a).or (host.firstValue? s b) := List.findSome?_append

lemma firstValue?_eq_none {s : StyleSetting} {files : List Path} :
    host.firstValue? s files = none ↔ ∀ file ∈ files, host.valueOf? s file = none := List.findSome?_eq_none_iff

lemma firstValue?_cons (s : StyleSetting) (file : Path) (files : List Path) :
    host.firstValue? s (file :: files) = (host.valueOf? s file).or (host.firstValue? s files) := by
  rw [firstValue?, List.findSome?_cons]
  cases host.valueOf? s file <;> rfl

/-- Files without a value may be left out. -/
lemma firstValue?_filter {p : Path → Bool} {s : StyleSetting} {files : List Path}
    (h : ∀ file ∈ files, p file = false → host.valueOf? s file = none) :
    host.firstValue? s (files.filter p) = host.firstValue? s files := by
  induction files with
  | nil => rfl
  | cons file files ih =>
      obtain ⟨hfile, hfiles⟩ := List.forall_mem_cons.1 h
      cases hp : p file with
      | true => rw [List.filter_cons_of_pos hp, firstValue?_cons, firstValue?_cons, ih hfiles]
      | false =>
          rw [List.filter_cons_of_neg (by simp [hp]), firstValue?_cons, hfile hp, ih hfiles]
          rfl

/-! ## The order of the files -/

lemma flatMap_settingsIn (folders : List Path) :
    folders.flatMap host.settingsIn = ((settingsFiles folders.reverse).filter host.isFile).reverse := by
  rw [settingsFiles, List.filter_flatMap, List.reverse_flatMap, List.reverse_reverse]
  refine List.flatMap_congr fun folder _ => ?_
  rw [Function.comp_apply, settingsIn, ← List.filter_reverse, List.map_reverse, List.reverse_reverse]

lemma nodup_flatMap_settingsIn {folders : List Path} (h : (folders.map Path.components).Nodup) :
    ((folders.flatMap host.settingsIn).map Path.components).Nodup := by
  rw [flatMap_settingsIn, List.map_reverse, List.nodup_reverse]
  refine List.Nodup.sublist (List.filter_sublist.map _) (nodup_settingsFiles ?_)
  rwa [List.map_reverse, List.nodup_reverse]

lemma nodup_searched (start : Path) : ((host.searched start).map Path.components).Nodup := by
  rw [searched]
  split
  · next folder _ =>
      rw [List.map_reverse, List.nodup_reverse]
      exact Path.nodup_components_ancestors folder
  · exact List.nodup_nil

/-- **The settings files for a start path**, the strongest first: those of the searched folders that are not met in
the home folder, and then those of the home folder. -/
lemma reverse_discover (start : Path) :
    (host.discover start).reverse
      = ((settingsFiles (host.searched start).reverse).filter host.isFile).filter (!host.isHomeFile ·)
        ++ host.homeFiles.filter host.isFile := by
  have hhome : host.homeFolder?.toList.flatMap host.settingsIn = (host.homeFiles.filter host.isFile).reverse := by
    rw [flatMap_settingsIn, homeFiles]
    cases host.homeFolder? <;> rfl
  have hhomes : (host.homeFolder?.toList.map Path.components).Nodup := by cases host.homeFolder? <;> simp
  rw [discover, List.flatMap_append, distinctPaths_append [] (nodup_flatMap_settingsIn hhomes) (by simp),
    distinctPaths_eq_filter _ (nodup_flatMap_settingsIn (nodup_searched start)), List.reverse_append,
    ← List.filter_reverse, hhome, List.reverse_reverse, flatMap_settingsIn, List.reverse_reverse]
  refine congrArg (· ++ _) (List.filter_congr fun file _ => ?_)
  rw [isHomeFile, Bool.eq_iff_iff]
  simp

/-! ## Who wins -/

/-- The value of a setting from the folders that are searched. -/
lemma value_searched (start : Path) (s : StyleSetting) :
    (host.discoveredStyle start).value s = host.valueFrom s (settingsFiles (host.searched start).reverse) := by
  have hfile (files : List Path) : host.firstValue? s (files.filter host.isFile) = host.firstValue? s files :=
    firstValue?_filter fun file _ hfile => valueOf?_of_not_isFile hfile s
  have hfindings : (host.findings start).reverse.findSome? (·.value? s)
      = host.firstValue? s (host.discover start).reverse := by
    rw [findings, ← List.map_reverse, List.findSome?_map]
    rfl
  rw [discoveredStyle, joinFindings, value_foldl_apply, hfindings, reverse_discover, firstValue?_append, hfile,
    List.filter_comm, hfile, valueFrom]

/-- Files without a value change nothing. -/
lemma valueFrom_append {s : StyleSetting} {a : List Path} (h : host.firstValue? s a = none) (b : List Path) :
    host.valueFrom s (a ++ b) = host.valueFrom s b := by
  have hnone : host.firstValue? s (a.filter (!host.isHomeFile ·)) = none :=
    firstValue?_eq_none.2 fun file hfile => firstValue?_eq_none.1 h file (List.mem_of_mem_filter hfile)
  rw [valueFrom, List.filter_append, firstValue?_append, hnone, Option.none_or]
  rfl

/-- Nothing below a file gives a value. -/
lemma firstValue?_of_isFile {start : Path} (hfile : host.isFile start = true) (s : StyleSetting) :
    host.firstValue? s (settingsFiles [start]) = none := by
  refine firstValue?_eq_none.2 fun file hmem => valueOf?_of_not_isFile ?_ s
  obtain ⟨name, hname, rfl⟩ : ∃ name ∈ settingsNames, start.join name = file := by simpa [settingsFiles] using hmem
  obtain ⟨fault, hfault⟩ := resolve_join_of_isFile hfile (isName_settingsNames name hname)
  rw [isFile, hfault]

/-- **What the files above a start path give a setting.** -/
lemma value_discoveredStyle {start : Path} (hstart : host.isFile start = true ∨ host.isFolder start = true)
    (s : StyleSetting) : (host.discoveredStyle start).value s = host.valueFrom s (settingsFiles start.ancestors) := by
  rw [value_searched]
  cases hfile : host.isFile start with
  | true =>
      -- the file itself is the first of its ancestors, and holds no settings file
      have hancestors : start.ancestors = [start] ++ (host.searched start).reverse := by
        rw [searched, startFolder?, if_pos hfile]
        cases hparent : start.parent? with
        | none => rw [Path.ancestors_of_none hparent]; rfl
        | some parent => rw [Path.ancestors_of_parent hparent, List.reverse_reverse]; rfl
      have hfiles : settingsFiles start.ancestors
          = settingsFiles [start] ++ settingsFiles (host.searched start).reverse := by
        rw [hancestors, settingsFiles, List.flatMap_append]
        rfl
      rw [hfiles, valueFrom_append (firstValue?_of_isFile hfile s)]
  | false =>
      have hfolder := hstart.resolve_left (by simp [hfile])
      rw [searched, startFolder?, if_neg (by simp [hfile]), if_pos hfolder, List.reverse_reverse]

/-- **Files of the home folder that are heeded at their place**: where one of them is the first to give a value, what
would be left without it gives the same. -/
def Heeds (host : Host) (s : StyleSetting) (files rest : List Path) : Prop :=
  ∀ near file far v, files = near ++ file :: far → host.firstValue? s near = none → host.valueOf? s file = some v →
    host.isHomeFile file = true → host.valueFrom s (far ++ rest) = v

/-- **The first value wins exactly if files of the home folder are heeded.** -/
lemma heeds_iff {s : StyleSetting} {files rest : List Path} :
    host.Heeds s files rest ↔
      host.valueFrom s (files ++ rest) = (host.firstValue? s files).getD (host.valueFrom s rest) := by
  -- where the first value is from
  have hsplit {near : List Path} {file : Path} {v : s.Value} (hnear : host.firstValue? s near = none)
      (hv : host.valueOf? s file = some v) (far : List Path) :
      host.firstValue? s (near ++ file :: far) = some v
        ∧ host.valueFrom s (near ++ file :: far ++ rest)
          = if host.isHomeFile file then host.valueFrom s (far ++ rest) else v := by
    constructor
    · rw [firstValue?_append, hnear, firstValue?_cons, hv]
      rfl
    · rw [List.append_assoc, valueFrom_append hnear, List.cons_append, valueFrom]
      split
      · next hhome => rw [List.filter_cons_of_neg (by simp [hhome])]; rfl
      · next hhome => rw [List.filter_cons_of_pos (by simpa using hhome), firstValue?_cons, hv]; rfl
  constructor
  · intro h
    cases hfirst : host.firstValue? s files with
    | none => exact valueFrom_append hfirst rest
    | some v =>
        obtain ⟨near, file, far, rfl, hv, hnear⟩ := List.findSome?_eq_some_iff.1 hfirst
        have hnear := firstValue?_eq_none.2 hnear
        rw [(hsplit hnear hv far).2, Option.getD_some]
        split
        · next hhome => exact h near file far v rfl hnear hv hhome
        · rfl
  · rintro h near file far v rfl hnear hv hhome
    obtain ⟨hfirst, hfrom⟩ := hsplit hnear hv far
    rwa [hfirst, hfrom, if_pos hhome] at h

lemma heeds_of_none {s : StyleSetting} {files : List Path} (h : host.firstValue? s files = none) (rest : List Path) :
    host.Heeds s files rest := heeds_iff.2 (by rw [h, valueFrom_append h]; rfl)

lemma heeds_of_not_isHomeFile {s : StyleSetting} {files rest : List Path}
    (h : ∀ file ∈ files, host.isHomeFile file = false) : host.Heeds s files rest := by
  intro near file far v hfiles _ _ hhome
  rw [h file (by simp [hfiles])] at hhome
  cases hhome

/-- **The nearest file wins, but for the home folder.**  A setting has the value of the nearest file above the start
that gives one and is not met in the home folder, then that of the home folder, then the default.  This is the value
of the nearest file of all exactly if the files of the home folder are heeded. -/
theorem value_eq_nearest_iff (host : Host) (start : Path)
    (hstart : host.isFile start = true ∨ host.isFolder start = true) (s : StyleSetting) :
    (host.discoveredStyle start).value s = host.valueFrom s (settingsFiles start.ancestors) ∧
      ((host.discoveredStyle start).value s
          = ((host.firstValue? s (settingsFiles start.ancestors)).or (host.firstValue? s host.homeFiles)).getD
              (Style.value {} s) ↔
        host.Heeds s (settingsFiles start.ancestors) []) := by
  have hvalue := value_discoveredStyle hstart s
  refine ⟨hvalue, ?_⟩
  rw [heeds_iff, List.append_nil, ← hvalue, Option.getD_or]
  rfl

end Host

/-- A folder with settings in a folder with others, each with an indentation of its own. -/
def nestedFolders : FileTree :=
  .folder [("sqfprettier.toml".toList, .file (.bytes "indent = \"spaces4\"\n".toUTF8.toList)),
    ("work".toList, .folder [("sqfprettier.toml".toList, .file (.bytes "indent = \"tab\"\n".toUTF8.toList)),
      ("src".toList, .folder [("a.sqf".toList, .file (.bytes []))])])]

/-- The settings of the nearer folder win if the home folder is elsewhere. -/
theorem value_eq_nearest_away_from_home :
    let host : Host := ⟨nestedFolders, [], some (.ofString "/home"), none⟩
    let start := Path.ofString "/work/src/a.sqf"
    host.isFile start = true ∧ (host.discoveredStyle start).value .indent = IndentUnit.tab := by
  refine ⟨by decide +kernel, ?_⟩
  refine ((Host.value_eq_nearest_iff _ _ (.inl (by decide +kernel)) .indent).2.2 ?_).trans (by decide +kernel)
  exact Host.heeds_of_not_isHomeFile (by decide +kernel)

/-- The settings of the folder above win if the nearer one is the home folder. -/
theorem value_ne_nearest_at_home :
    let host : Host := ⟨nestedFolders, [], some (.ofString "/work"), none⟩
    let start := Path.ofString "/work/src/a.sqf"
    host.isFile start = true ∧ host.firstValue? .indent (settingsFiles start.ancestors) = some IndentUnit.tab ∧
      (host.discoveredStyle start).value .indent = IndentUnit.spaces4 := by
  decide +kernel

end SqfLayout
