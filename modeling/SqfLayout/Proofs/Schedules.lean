import Mathlib.Data.List.Pairwise
import Mathlib.Data.List.Perm.Basic
import Mathlib.Logic.Relation
import SqfLayout.Proofs.TreeWrites
import SqfLayout.Run

/-!
# What a run writes

A run over files reads scripts and writes them back, in an order that is not fixed, and a script may be read while
others are still to be written.  Any access may fail.  The lemmas are in four groups.

**One script.**  `Finished` says what a file holds after its script was handled, and it holds of every report; a
report with an error leaves the file, unless its write breaks off (`finished_visit`).

**Batches.**  A batch is a run under way: the scripts that wait, and the reports that are still to be written.  A
step reads a script or writes a report, and a schedule is any sequence of steps to the end.  Scripts one after the
other are a schedule (`schedule_visitAll`).

**Scripts that keep apart.**  If no two paths lead to the same file and none leads to a settings file, a script
finds what it would have found at the start, whatever was written before (`Sound.visit_eq`).  Each step keeps this
(`Sound.step`), so every schedule leaves the same files, and a fault counts for its own script only
(`finished_of_schedule`).

**Whole runs.**  A run that fails, prints or reads standard input writes nothing (`tree_run_of_quiet`), and any
other is a schedule (`run_writes`).
-/

namespace SqfLayout.Run

open SqfLayout.Text SqfLayout.CommandLine

/-! ## One script -/

namespace Faults

/-- Whether an access to a script is refused: it cannot be inspected, read or opened for writing. -/
def Refuses (faults : Faults) (path : Path) : Prop :=
  faults.inspect path ≠ none ∨ faults.read path ≠ none ∨ ∃ cause, faults.write path = some (.refused cause)

/-- Whether the write of a script breaks off. -/
def CutsOff (faults : Faults) (path : Path) : Prop :=
  ∃ cause count, faults.write path = some (.cutOff cause count)

/-- **Faults that are the same for a script**, whatever they are for others. -/
structure SameFor (faults others : Faults) (path : Path) : Prop where
  settings : faults.settings path = others.settings path
  inspect : faults.inspect path = others.inspect path
  read : faults.read path = others.read path
  write : faults.write path = others.write path

end Faults

/-- **Contents that are passed over**: they have too many bytes or lines. -/
def IsPassedOver (request : Request) (contents : Contents) : Prop :=
  sizeLimit < contents.data.length ∨ ∃ limit ∈ request.maxLines, limit < lineCount contents.data

/-- **What a file holds after its script was handled.**  Contents that are passed over or not text are kept, and so are
those that an access is refused to.  All others are formatted, but of a write that breaks off only the first bytes are
there. -/
structure Finished (faults : Faults) (request : Request) (style : Style) (path : Path) (old new : Contents) : Prop where
  kept : IsPassedOver request old ∨ (∃ fault, decode old.data = .error fault) ∨ faults.Refuses path → new = old
  formatted : ¬IsPassedOver request old → ¬faults.Refuses path → ¬faults.CutsOff path →
    ∀ text, decode old.data = .ok text → formatContents request style path.text old.data = .ok new.data
  cutOff : ¬IsPassedOver request old → ¬faults.Refuses path →
    ∀ cause count, faults.write path = some (.cutOff cause count) → ∀ text, decode old.data = .ok text →
    ∃ formatted, formatContents request style path.text old.data = .ok formatted ∧
      new = if formatted = old.data then old else .bytes (formatted.take count)

/-- The contents of a file after a report. -/
def ScriptReport.after (report : ScriptReport) (old : Contents) : Contents :=
  match report.written with
  | some data => .bytes data
  | none => old

/-- The style of all scripts, if a settings file is named. -/
def commonStyle (host : Host) (faults : Faults) (request : Request) : Option Style :=
  request.config.map fun file =>
    (({} : Style).override ((faults.settingsOf host host.folder.path file).toOption.getD {})).override
      (requested request)

/-- **The style of a script**: that of the named settings file or that of the discovered ones, with the options of
the command line. -/
def scriptStyle (host : Host) (faults : Faults) (request : Request) (path : Path) : Style :=
  (commonStyle host faults request).getD ((joinFindings (faults.findings host path)).override (requested request))

/-- If every settings file can be read, the style of a script is that of the named or of the discovered ones. -/
lemma scriptStyle_of_readable {faults : Faults} (h : ∀ start file, faults.settings start file = none) (host : Host)
    (request : Request) (path : Path) :
    scriptStyle host faults request path
      = ((request.config.map fun file => ({} : Style).override ((host.settingsOf file).toOption.getD {})).getD
          (host.discoveredStyle path)).override (requested request) := by
  have hreading (start : Path) : faults.reading start = id := by
    funext finding
    rw [Faults.reading, h]
    rfl
  cases hconfig : request.config <;>
    simp [scriptStyle, commonStyle, hconfig, Faults.settingsOf, Faults.findings, hreading, Host.discoveredStyle]

lemma size_eq (contents : Contents) : contents.size = contents.data.length := by
  cases contents with
  | bytes data => rfl
  | zeros count => exact List.length_replicate.symm

lemma contentLines_eq (contents : Contents) : contentLines contents = lineCount contents.data := by
  cases contents with
  | bytes data => rfl
  | zeros count =>
      have hzeros (n : Nat) :
          splitAfter (· == 10) (List.replicate (n + 1) (0 : UInt8)) = [List.replicate (n + 1) 0] := by
        induction n with
        | zero => rfl
        | succ n ih =>
            rw [List.replicate_succ, splitAfter, ih]
            rfl
      cases count with
      | zero => rfl
      | succ n =>
          rw [Contents.data, lineCount, hzeros]
          rfl

/-- The two tests of a file together. -/
lemma isPassedOver_iff (request : Request) (contents : Contents) :
    IsPassedOver request contents ↔ sizeLimit < contents.size ∨ (tooManyLines? request contents).isSome = true := by
  rw [IsPassedOver, size_eq, tooManyLines?, contentLines_eq]
  cases request.maxLines with
  | none => simp
  | some limit => by_cases h : limit < lineCount contents.data <;> simp [h]

instance (request : Request) (contents : Contents) : Decidable (IsPassedOver request contents) :=
  decidable_of_iff _ (isPassedOver_iff request contents).symm

/-- **Contents can be formatted exactly if they are text.** -/
lemma formatContents_ok_iff (request : Request) (style : Style) (name : String) (bytes : List UInt8) :
    (∃ formatted, formatContents request style name bytes = .ok formatted) ↔ ∃ text, decode bytes = .ok text := by
  rw [formatContents]
  cases request.lines with
  | none =>
      simp only [formatBytes]
      cases decode bytes with
      | error fault => simp [bind, Except.bind, Except.mapError]
      | ok text => simp [bind, Except.bind, pure, Except.pure, Except.mapError]
  | some range => cases decode bytes <;> simp

/-- What the report on formatted bytes leaves in the file, which is written only if it changes. -/
lemma after_delivered {faults : Faults} {request : Request} (hstdout : request.stdout = false)
    (hdiff : request.diff = false) (path : Path) (notes : List String) (old : Contents) (formatted : List UInt8) :
    (delivered faults request path notes old.data formatted).after old
      = if formatted = old.data then old else (stored faults path notes formatted).after old := by
  rw [delivered, if_neg (by simp [hstdout]), if_neg (by simp [hdiff])]
  by_cases hsame : formatted = old.data
  · rw [if_neg (by simp [hsame]), if_pos hsame]
    split <;> rfl
  · rw [if_pos (by simpa using hsame), if_neg hsame]

/-- What the report on the bytes of a file says. -/
lemma finished_visitBytes {faults : Faults} {request : Request} (hstdout : request.stdout = false)
    (hdiff : request.diff = false) (style : Style) {path : Path} {old : Contents}
    (hpassed : ¬IsPassedOver request old) (hinspect : faults.inspect path = none) (hread : faults.read path = none) :
    Finished faults request style path old ((visitBytes faults request style path old.data).after old) := by
  have htext := formatContents_ok_iff request style path.text old.data
  rw [visitBytes]
  cases hformat : formatContents request style path.text old.data with
  | error cause =>
      have hnot (text : List Char) : decode old.data ≠ .ok text := fun hdecode => by
        obtain ⟨formatted, hformatted⟩ := htext.2 ⟨text, hdecode⟩
        rw [hformat] at hformatted
        cases hformatted
      exact ⟨fun _ => rfl, fun _ _ _ text h => absurd h (hnot text), fun _ _ _ _ _ text h => absurd h (hnot text)⟩
  | ok formatted =>
      obtain ⟨text, hdecode⟩ := htext.1 ⟨formatted, hformat⟩
      rw [after_delivered hstdout hdiff]
      refine ⟨fun h => ?_, fun _ hrefuses hcuts _ _ => ?_, fun _ _ cause count hwrite _ _ =>
        ⟨formatted, hformat, ?_⟩⟩
      · rcases h with h | ⟨fault, hfault⟩ | h | h | ⟨cause, hwrite⟩
        · exact absurd h hpassed
        · rw [hdecode] at hfault
          cases hfault
        · exact absurd hinspect h
        · exact absurd hread h
        · rw [stored, hwrite]
          exact ite_self old
      · rw [hformat]
        split
        · next hsame => exact congrArg Except.ok hsame
        · cases hwrite : faults.write path with
          | none =>
              rw [stored, hwrite]
              rfl
          | some fault =>
              cases fault with
              | refused cause => exact absurd (.inr (.inr ⟨cause, hwrite⟩)) hrefuses
              | cutOff cause count => exact absurd ⟨cause, count, hwrite⟩ hcuts
      · rw [stored, hwrite]
        rfl

/-- **What the report on a file says.** -/
lemma finished_visitScript {host : Host} {faults : Faults} {request : Request} (hstdout : request.stdout = false)
    (hdiff : request.diff = false) (style : Style) {path : Path} {old : Contents}
    (hold : host.contents path = .ok old) :
    Finished faults request style path old ((visitScript host faults request style path).after old) := by
  have hpassed := isPassedOver_iff request old
  have hkept (h : IsPassedOver request old ∨ faults.Refuses path) : Finished faults request style path old old :=
    ⟨fun _ => rfl, fun hnot hrefuses => (h.elim hnot hrefuses).elim, fun hnot hrefuses => (h.elim hnot hrefuses).elim⟩
  rw [visitScript, inspected]
  cases hinspect : faults.inspect path with
  | some cause => exact hkept (.inr (.inl (by simp [hinspect])))
  | none =>
      simp only [hold]
      split
      · next hsize => exact hkept (.inl (hpassed.2 (.inl hsize)))
      · next hsize =>
          cases hread : faults.read path with
          | some cause => exact hkept (.inr (.inr (.inl (by simp [hread]))))
          | none =>
              cases hlines : tooManyLines? request old with
              | some reason => exact hkept (.inl (hpassed.2 (.inr (by rw [hlines]; rfl))))
              | none =>
                  refine finished_visitBytes hstdout hdiff style (fun h => ?_) hinspect hread
                  simp [hlines, hsize] at hpassed
                  exact hpassed h

/-- **A file with an error is left as it was**, unless its write breaks off. -/
lemma after_of_failed {host : Host} {faults : Faults} {request : Request} {style : Style} {path : Path}
    (hfailed : (visitScript host faults request style path).failed = true) (hcuts : ¬faults.CutsOff path)
    (old : Contents) : (visitScript host faults request style path).after old = old := by
  have hstored (notes : List String) (formatted : List UInt8)
      (h : (stored faults path notes formatted).failed = true) :
      (stored faults path notes formatted).after old = old := by
    cases hwrite : faults.write path with
    | none => simp [stored, hwrite] at h
    | some fault =>
        cases fault with
        | refused cause =>
            rw [stored, hwrite]
            rfl
        | cutOff cause count => exact absurd ⟨cause, count, hwrite⟩ hcuts
  revert hfailed
  rw [visitScript]
  split
  · exact fun _ => rfl
  · split
    · exact fun _ => rfl
    · split
      · exact fun _ => rfl
      · exact fun _ => rfl
      · rw [visitBytes]
        split
        · exact fun _ => rfl
        · rw [delivered]
          split
          · exact fun _ => rfl
          · split
            · exact fun _ => rfl
            · split
              · exact hstored _ _
              · split <;> exact fun _ => rfl

lemma style_choose_of_none {host : Host} {faults : Faults} {request : Request} (hconfig : request.config = none)
    (path : Path) :
    (choose host faults request path).style
      = .ok ((joinFindings (faults.findings host path)).override (requested request)) := by
  simp only [choose, hconfig]
  rfl

/-- A script is handled with its own style. -/
lemma visit_commonStyle (host : Host) (faults : Faults) (request : Request) (path : Path) :
    ∃ notes, visit host faults request (commonStyle host faults request) path
      = { visitScript host faults request (scriptStyle host faults request path) path with
          notes := notes ++ (visitScript host faults request (scriptStyle host faults request path) path).notes } := by
  cases hconfig : request.config with
  | some file =>
      refine ⟨[], ?_⟩
      simp [visit, scriptStyle, commonStyle, hconfig]
  | none =>
      refine ⟨(choose host faults request path).notes, ?_⟩
      simp [visit, scriptStyle, commonStyle, hconfig, style_choose_of_none]

/-- **What the report on a script says.** -/
lemma finished_visit {host : Host} (faults : Faults) {request : Request} (hstdout : request.stdout = false)
    (hdiff : request.diff = false) {path : Path} {old : Contents} (hold : host.contents path = .ok old) :
    let report := visit host faults request (commonStyle host faults request) path
    Finished faults request (scriptStyle host faults request path) path old (report.after old) ∧
      (report.failed = true → ¬faults.CutsOff path → report.after old = old) := by
  obtain ⟨notes, hvisit⟩ := visit_commonStyle host faults request path
  rw [hvisit]
  exact ⟨finished_visitScript hstdout hdiff _ hold, fun hfailed hcuts => after_of_failed hfailed hcuts old⟩

/-! ## Batches -/

/-- **A run under way**: the host as it is now, the scripts that wait, and the reports that are still to be
written. -/
structure Batch where
  host : Host
  waiting : List Path
  pending : List (Path × ScriptReport)

/-- The scripts that are not yet written. -/
def Batch.todo (batch : Batch) : List Path := batch.waiting ++ batch.pending.map Prod.fst

/-- **A step of a batch**: some script is read, or some report is written. -/
inductive Step (faults : Faults) (request : Request) (common : Option Style) : Batch → Batch → Prop
  | read (host : Host) (before : List Path) (path : Path) (after : List Path) (pending : List (Path × ScriptReport)) :
    Step faults request common ⟨host, before ++ path :: after, pending⟩
      ⟨host, before ++ after, (path, visit host faults request common path) :: pending⟩
  | write (host : Host) (waiting : List Path) (before : List (Path × ScriptReport)) (path : Path)
      (report : ScriptReport) (after : List (Path × ScriptReport)) :
    Step faults request common ⟨host, waiting, before ++ (path, report) :: after⟩
      ⟨applyReport host path report, waiting, before ++ after⟩

/-- **A host after all steps of a batch**, in some order. -/
def Schedule (faults : Faults) (request : Request) (common : Option Style) (host : Host) (paths : List Path)
    (after : Host) : Prop :=
  Relation.ReflTransGen (Step faults request common) ⟨host, paths, []⟩ ⟨after, [], []⟩

/-- **Scripts one after the other are a schedule**, in every order. -/
lemma schedule_visitAll (faults : Faults) (request : Request) (common : Option Style) (host : Host)
    {order paths : List Path} (h : order.Perm paths) :
    Schedule faults request common host paths (visitAll faults request common host order).1 := by
  induction order generalizing host paths with
  | nil =>
      obtain rfl := h.nil_eq
      exact .refl
  | cons path order ih =>
      obtain ⟨before, after, rfl⟩ := List.append_of_mem (h.mem_iff.1 List.mem_cons_self)
      have hrest : order.Perm (before ++ after) := (h.trans List.perm_middle).cons_inv
      refine .head (.read host before path after []) (.head ?_ (ih (applyReport host path _) hrest))
      exact .write host (before ++ after) [] path _ []

/-! ## Scripts that keep apart -/

/-- **Scripts that keep apart**: they are files, no two paths lead to the same one, and none leads to a settings file
that is discovered for one of them. -/
structure KeepApart (host : Host) (request : Request) (paths : List Path) : Prop where
  isFile : ∀ path ∈ paths, host.isFile path = true
  distinct : paths.Pairwise (host.resolve · ≠ host.resolve ·)
  settings : request.config = none →
    ∀ path ∈ paths, ∀ file ∈ host.discover path, ∀ other ∈ paths, host.resolve file ≠ host.resolve other

lemma KeepApart.eq_of_resolve {host : Host} {request : Request} {paths : List Path} (h : KeepApart host request paths)
    {a b : Path} (ha : a ∈ paths) (hb : b ∈ paths) (hsame : host.resolve a = host.resolve b) : a = b := by
  have hsymm : Std.Symm fun a b : Path => host.resolve a ≠ host.resolve b := ⟨fun _ _ hne => hne.symm⟩
  by_contra hne
  exact h.distinct.forall ha hb hne hsame

/-- **A report depends on the script, its settings files and its own faults only.** -/
lemma visit_eq {host now : Host} {faults others : Faults} {request : Request} {path : Path}
    (hcontents : host.contents path = now.contents path)
    (hfindings : request.config = none → host.findings path = now.findings path)
    (hfaults : faults.SameFor others path) :
    visit now others request (commonStyle host faults request) path
      = visit host faults request (commonStyle host faults request) path := by
  have hstored : stored others path = stored faults path := by
    funext notes formatted
    rw [stored, stored, hfaults.write]
  have hbytes (style : Style) (bytes : List UInt8) :
      visitBytes others request style path bytes = visitBytes faults request style path bytes := by
    simp only [visitBytes, delivered, hstored]
  have hscript (style : Style) :
      visitScript now others request style path = visitScript host faults request style path := by
    simp only [visitScript, inspected, hcontents, hfaults.inspect, hfaults.read, hbytes]
  have hreading : faults.reading path = others.reading path := by
    funext finding
    rw [Faults.reading, Faults.reading, hfaults.settings]
  cases hconfig : request.config with
  | some file => simp only [visit, commonStyle, hconfig, Option.map_some, hscript]
  | none =>
      simp only [visit, commonStyle, hconfig, Option.map_none, choose, Faults.findings, hfindings hconfig, hreading,
        hscript]

/-- **What holds of a batch under way.**  Scripts that are still to be written and all other files are as they were at
the start, and the others are as their reports say. -/
structure Sound (host : Host) (faults : Faults) (request : Request) (paths : List Path) (batch : Batch) : Prop where
  alike : host.Alike batch.host
  subset : ∀ path ∈ batch.todo, path ∈ paths
  nodup : batch.todo.Nodup
  reports : ∀ entry ∈ batch.pending, entry.2 = visit host faults request (commonStyle host faults request) entry.1
  untouched : ∀ place, (∀ path ∈ paths, path ∉ batch.todo → host.resolve path ≠ .ok place) →
    batch.host.tree.file? place = host.tree.file? place
  written : ∀ path ∈ paths, path ∉ batch.todo → ∀ place old, host.resolve path = .ok place →
    host.tree.file? place = some old →
    batch.host.tree.file? place = some ((visit host faults request (commonStyle host faults request) path).after old)

section

variable {host : Host} {faults : Faults} {request : Request} {paths : List Path}

lemma sound_start (h : KeepApart host request paths) : Sound host faults request paths ⟨host, paths, []⟩ where
  alike := ⟨fun _ => ⟨rfl, rfl⟩, rfl, rfl, rfl⟩
  subset := by simp [Batch.todo]
  nodup := by
    have hnodup : paths.Nodup := h.distinct.imp fun hne heq => hne (congrArg host.resolve heq)
    simpa [Batch.todo] using hnodup
  reports := by simp
  untouched := fun _ _ => rfl
  written := by
    intro path hpath htodo
    simp [Batch.todo, hpath] at htodo

/-- A script that is still to be written is as it was. -/
lemma Sound.file?_todo {batch : Batch} (hsound : Sound host faults request paths batch)
    (h : KeepApart host request paths) {path : Path} (htodo : path ∈ batch.todo) {place : Place}
    (hplace : host.resolve path = .ok place) :
    batch.host.tree.file? place = host.tree.file? place := by
  refine hsound.untouched place fun other hother hdone hsame => hdone ?_
  rwa [h.eq_of_resolve hother (hsound.subset path htodo) (hsame.trans hplace.symm)]

/-- **A script that waits is read as at the start.** -/
lemma Sound.visit_eq {batch : Batch} (hsound : Sound host faults request paths batch) (h : KeepApart host request paths)
    {path : Path} (htodo : path ∈ batch.todo) :
    visit batch.host faults request (commonStyle host faults request) path
      = visit host faults request (commonStyle host faults request) path := by
  have hpath := hsound.subset path htodo
  obtain ⟨place, old, hplace, hold⟩ := Host.isFile_iff.1 (h.isFile path hpath)
  refine Run.visit_eq (hsound.alike.contents hplace (hsound.file?_todo h htodo hplace).symm) (fun hconfig => ?_)
    ⟨rfl, rfl, rfl, rfl⟩
  refine hsound.alike.findings fun file hfile place hplace => ?_
  refine (hsound.untouched place fun other hother _ hsame => ?_).symm
  exact h.settings hconfig path hpath file hfile other hother (hplace.trans hsame.symm)

/-- A batch is sound if the scripts that are still to be written are the same. -/
lemma Sound.of_perm {batch : Batch} (hsound : Sound host faults request paths batch) {next : Batch}
    (hhost : next.host = batch.host) (hperm : next.todo.Perm batch.todo)
    (hreports : ∀ entry ∈ next.pending, entry.2 = visit host faults request (commonStyle host faults request) entry.1) :
    Sound host faults request paths next where
  alike := hhost ▸ hsound.alike
  subset := fun path hpath => hsound.subset path (hperm.mem_iff.1 hpath)
  nodup := hperm.nodup_iff.2 hsound.nodup
  reports := hreports
  untouched := by
    intro place hplace
    rw [hhost]
    exact hsound.untouched place fun path hpath hdone => hplace path hpath fun hmem => hdone (hperm.mem_iff.1 hmem)
  written := by
    intro path hpath hdone
    rw [hhost]
    exact hsound.written path hpath fun hmem => hdone (hperm.mem_iff.2 hmem)

/-- **A report changes the file of its script only.** -/
lemma applyReport_file? {now : Host} {path : Path} {place : Place} {old : Contents}
    (hplace : now.resolve path = .ok place) (hold : now.tree.file? place = some old) (report : ScriptReport) :
    (∀ other, (applyReport now path report).tree.file? other
        = if other = place then some (report.after old) else now.tree.file? other)
      ∧ ∀ host : Host, host.Alike now → host.Alike (applyReport now path report) := by
  rw [applyReport, ScriptReport.after, hplace]
  cases report.written with
  | none =>
      refine ⟨fun other => ?_, fun _ h => h⟩
      by_cases heq : other = place
      · rw [if_pos heq, heq]
        exact hold
      · rw [if_neg heq]
  | some data =>
      exact ⟨FileTree.file?_write hold data,
        fun _ h => ⟨h.tree.write hold data, h.folder, h.home, h.userProfile⟩⟩

/-- **A report that is written** leaves a batch sound. -/
lemma Sound.write {now : Host} {waiting : List Path} {before after : List (Path × ScriptReport)} {path : Path}
    {report : ScriptReport} (hsound : Sound host faults request paths ⟨now, waiting, before ++ (path, report) :: after⟩)
    (h : KeepApart host request paths) :
    Sound host faults request paths ⟨applyReport now path report, waiting, before ++ after⟩ := by
  have hperm : (Batch.todo ⟨now, waiting, before ++ (path, report) :: after⟩).Perm
      (path :: Batch.todo ⟨applyReport now path report, waiting, before ++ after⟩) := by
    simp only [Batch.todo, List.map_append, List.map_cons, ← List.append_assoc]
    exact List.perm_middle
  obtain ⟨hdone, hnodup⟩ := List.nodup_cons.1 (hperm.nodup_iff.1 hsound.nodup)
  have hpath := hsound.subset path (hperm.mem_iff.2 List.mem_cons_self)
  have hreport : report = visit host faults request (commonStyle host faults request) path :=
    hsound.reports (path, report) (by simp)
  obtain ⟨place, old, hplace, hold⟩ := Host.isFile_iff.1 (h.isFile path hpath)
  have hnow := (hsound.file?_todo h (hperm.mem_iff.2 List.mem_cons_self) hplace).trans hold
  obtain ⟨hfile, halike⟩ := applyReport_file? ((hsound.alike.resolve path).symm.trans hplace) hnow report
  refine ⟨halike host hsound.alike, fun other hother => ?_, hnodup, fun entry hentry => ?_, fun other hother => ?_,
    fun other hother htodo otherPlace otherOld hotherPlace hotherOld => ?_⟩
  · exact hsound.subset other (hperm.mem_iff.2 (List.mem_cons_of_mem path hother))
  · refine hsound.reports entry ?_
    rcases List.mem_append.1 hentry with hentry | hentry
    · exact List.mem_append_left _ hentry
    · exact List.mem_append_right _ (List.mem_cons_of_mem _ hentry)
  · have hne : other ≠ place := fun heq => hother path hpath hdone (heq ▸ hplace)
    rw [hfile, if_neg hne]
    exact hsound.untouched other fun path' hpath' hdone' =>
      hother path' hpath' fun hmem => hdone' (hperm.mem_iff.2 (List.mem_cons_of_mem path hmem))
  · rw [hfile]
    by_cases hsame : other = path
    · subst hsame
      obtain rfl : place = otherPlace := Except.ok.inj (hplace.symm.trans hotherPlace)
      obtain rfl : old = otherOld := Option.some.inj (hold.symm.trans hotherOld)
      rw [if_pos rfl, hreport]
    · have hne : otherPlace ≠ place := fun heq =>
        hsame (h.eq_of_resolve hother hpath (hotherPlace.trans (heq ▸ hplace.symm)))
      rw [if_neg hne]
      refine hsound.written other hother (fun hmem => ?_) otherPlace otherOld hotherPlace hotherOld
      rcases List.mem_cons.1 (hperm.mem_iff.1 hmem) with heq | hmem
      · exact hsame heq
      · exact htodo hmem

/-- **Each step leaves a batch sound.** -/
lemma Sound.step {batch next : Batch} (hsound : Sound host faults request paths batch)
    (h : KeepApart host request paths) (hstep : Step faults request (commonStyle host faults request) batch next) :
    Sound host faults request paths next := by
  cases hstep with
  | read now before path after pending =>
      have htodo : path ∈ Batch.todo ⟨now, before ++ path :: after, pending⟩ := by simp [Batch.todo]
      refine hsound.of_perm rfl ?_ fun entry hentry => ?_
      · simp only [Batch.todo, List.map_cons, List.append_assoc]
        exact List.Perm.append_left before (List.perm_middle.trans (by simp))
      · rcases List.mem_cons.1 hentry with rfl | hentry
        · exact hsound.visit_eq h htodo
        · exact hsound.reports entry hentry
  | write now waiting before path report after => exact hsound.write h

/-- **Every schedule leaves the same files**: those of the scripts as their reports at the start say, and all others
as they were. -/
lemma sound_of_schedule {after : Host} (h : KeepApart host request paths)
    (hschedule : Schedule faults request (commonStyle host faults request) host paths after) :
    Sound host faults request paths ⟨after, [], []⟩ := by
  have hrun {batch : Batch} (hsteps : Relation.ReflTransGen (Step faults request (commonStyle host faults request))
      ⟨host, paths, []⟩ batch) : Sound host faults request paths batch := by
    induction hsteps with
    | refl => exact sound_start h
    | tail _ hstep ih => exact ih.step h hstep
  exact hrun hschedule

end

/-! ## Whole runs -/

/-- Where nothing is asked for but a view, a script is not written. -/
lemma written_visit {request : Request} (h : request.stdout = true ∨ request.diff = true) (host : Host)
    (faults : Faults) (common : Option Style) (path : Path) :
    (visit host faults request common path).written = none := by
  have hscript (style : Style) : (visitScript host faults request style path).written = none := by
    rw [visitScript]
    split
    · rfl
    · split
      · rfl
      · split
        · rfl
        · rfl
        · rw [visitBytes]
          split
          · rfl
          · rw [delivered]
            split
            · rfl
            · next hstdout => rw [if_pos (h.resolve_left hstdout)]
  cases common with
  | some style => exact hscript style
  | none =>
      simp only [visit]
      split
      · rfl
      · exact hscript _

/-- **A run that only shows what it would write leaves the tree.** -/
lemma visitAll_of_view {request : Request} (h : request.stdout = true ∨ request.diff = true) (faults : Faults)
    (common : Option Style) (host : Host) (paths : List Path) :
    (visitAll faults request common host paths).1 = host := by
  induction paths with
  | nil => rfl
  | cons path paths ih =>
      have hreport : applyReport host path (visit host faults request common path) = host := by
        rw [applyReport, written_visit h]
      rw [visitAll]
      simp only [hreport, ih]

/-- The tree after a run over scripts. -/
lemma tree_runScripts (host : Host) (faults : Faults) (request : Request) (common : Option Style)
    (notes : List String) (paths : List Path) :
    (runScripts host faults request common notes paths).tree
      = if (runScripts host faults request common notes paths).code = 0
        then (visitAll faults request common host paths).1.tree else host.tree := by
  rw [runScripts]
  split
  · next hempty =>
      rw [List.isEmpty_iff.1 hempty]
      rfl
  · split
    · rfl
    · rfl

/-- **The tree after a run over files**: if the run fails the tree is as it was. -/
lemma tree_runFiles (host : Host) (faults : Faults) (request : Request) :
    (runFiles host faults request).tree
      = if (runFiles host faults request).code = 0
        then (visitAll faults request (commonStyle host faults request) host (collect host request)).1.tree
        else host.tree := by
  rw [runFiles]
  cases hconfig : request.config with
  | none =>
      simp only [commonStyle, hconfig, Option.map_none]
      exact tree_runScripts ..
  | some file =>
      simp only [choose, hconfig, chooseNamed, Choice.withOptions, commonStyle, Option.map_some]
      cases faults.settingsOf host host.folder.path file with
      | error cause => rfl
      | ok settings => exact tree_runScripts ..

lemma tree_runInput (host : Host) (faults : Faults) (request : Request) (input : List UInt8) :
    (runInput host faults request input).tree = host.tree := by
  rw [runInput]
  split
  · rfl
  · split
    · rfl
    · split <;> rfl

lemma isFile_of_mem_collect {host : Host} {request : Request} {path : Path} (h : path ∈ collect host request) :
    host.isFile path = true := by
  obtain ⟨input, -, hpath⟩ := List.mem_flatMap.1 h
  rw [scriptsOf] at hpath
  split at hpath
  · next hfile =>
      obtain ⟨hmem, -⟩ := List.mem_filter.1 hpath
      rwa [List.mem_singleton.1 hmem]
  · have htests := (List.mem_filter.1 hpath).2
    simp only [Bool.and_eq_true] at htests
    exact htests.1.1

lemma run_eq_runFiles {arguments : List String} {request : Request} (hparse : parse arguments = .ok request)
    (hinput : readsInput request = false) (host : Host) (faults : Faults) (input : List UInt8) :
    run host arguments input faults = runFiles host faults request := by
  simp [run, hparse, hinput]

/-- **A run that fails, shows or reads standard input leaves the tree.** -/
lemma tree_run_of_quiet {host : Host} {faults : Faults} {arguments : List String} {input : List UInt8}
    (h : (run host arguments input faults).code ≠ 0 ∨ ∀ request, parse arguments = .ok request →
      request.stdout = true ∨ request.diff = true ∨ readsInput request = true) :
    (run host arguments input faults).tree = host.tree := by
  cases hparse : parse arguments with
  | error stop =>
      rw [run, hparse]
      cases stop <;> rfl
  | ok request =>
      cases hinput : readsInput request with
      | true =>
          have hrun : run host arguments input faults = runInput host faults request input := by
            simp [run, hparse, hinput]
          rw [hrun, tree_runInput]
      | false =>
          rw [run_eq_runFiles hparse hinput] at h ⊢
          rw [tree_runFiles]
          split
          · next hcode =>
              have hview : request.stdout = true ∨ request.diff = true := by
                simpa [hinput] using (h.resolve_left (not_not.2 hcode)) request hparse
              rw [visitAll_of_view hview]
          · rfl

/-- The common style depends on the faults of the named settings file only. -/
lemma commonStyle_congr {host : Host} {faults others : Faults}
    (h : faults.settings host.folder.path = others.settings host.folder.path) (request : Request) :
    commonStyle host others request = commonStyle host faults request := by
  simp only [commonStyle, Faults.settingsOf, Faults.reading, h]

/-- **All schedules leave the same files**: each script is finished with its own style, whatever the order is and
whatever faults there are for others, and no other file changes. -/
lemma finished_of_schedule {host after : Host} {faults : Faults} {request : Request} {paths : List Path}
    (h : KeepApart host request paths) (hstdout : request.stdout = false) (hdiff : request.diff = false)
    (hschedule : Schedule faults request (commonStyle host faults request) host paths after) :
    (∀ path ∈ paths, ∃ place old new, host.resolve path = .ok place ∧ host.tree.file? place = some old ∧
        after.tree.file? place = some new ∧
        Finished faults request (scriptStyle host faults request path) path old new ∧
        ((visit host faults request (commonStyle host faults request) path).failed = true → ¬faults.CutsOff path →
          new = old) ∧
        ∀ others later, faults.SameFor others path →
          faults.settings host.folder.path = others.settings host.folder.path →
          Schedule others request (commonStyle host others request) host paths later →
          later.tree.file? place = some new) ∧
      ∀ place, (∀ path ∈ paths, host.resolve path ≠ .ok place) → after.tree.file? place = host.tree.file? place := by
  have hsound := sound_of_schedule h hschedule
  refine ⟨fun path hpath => ?_, fun place hplace => hsound.untouched place fun path hpath _ => hplace path hpath⟩
  obtain ⟨place, old, hplace, hold⟩ := Host.isFile_iff.1 (h.isFile path hpath)
  have hcontents : host.contents path = .ok old := by simp [Host.contents, hplace, hold, bind, Except.bind]
  obtain ⟨hfinished, hfailed⟩ := finished_visit faults hstdout hdiff hcontents
  refine ⟨place, old, _, hplace, hold, hsound.written path hpath (by simp [Batch.todo]) place old hplace hold,
    hfinished, hfailed, fun others later hsame hnamed hlater => ?_⟩
  rw [(sound_of_schedule h hlater).written path hpath (by simp [Batch.todo]) place old hplace hold,
    commonStyle_congr hnamed, visit_eq rfl (fun _ => rfl) hsame]

/-- A folder with a script, a file that is not text, a script that is not written and a file that is no script. -/
def threeScripts : Host where
  tree := .folder [("a.sqf".toList, .file (.bytes "x=1".toUTF8.toList)), ("b.sqf".toList, .file (.bytes [255])),
    ("c.sqf".toList, .file (.bytes "y=2".toUTF8.toList)), ("d.txt".toList, .file (.bytes []))]
  folder := []
  home := none
  userProfile := none

/-- The last script cannot be opened for writing. -/
def lockedScript : Faults where
  write path := if path = .ofString "c.sqf" then some (.refused (.other "Permission denied (os error 13)")) else none

end SqfLayout.Run
