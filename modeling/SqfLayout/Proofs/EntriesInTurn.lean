import Mathlib.Data.List.Flatten
import Mathlib.Data.List.SplitBy
import SqfLayout.Proofs.Occurrences

/-!
# Entries in turn

The spelling pass looks for all entries at once, the longest first, and looks a word up by its lower-case
form.  The result is the same as going over the whole text once for every entry, in the order of the lists
(`spellWords_eq_spellInTurn`).

**Runs.**  `runs` divides cells into words and what stands between them.  `spellEntry` replaces the words
outside literals that agree with one entry, `spellInTurn` does so for one entry after the other.

**At once.**  What the finder of a vocabulary of words finds is a whole run (`InRuns.replaces`), and it finds
every run that has a canonical spelling (`Vocabulary.isSome_finder`).  So the pass maps runs
(`spellWords_eq_runs`).

**In turn.**  A word in another spelling is recast: its characters change their case and keep their class
(`Recast`).  Recast cells are read back as they are (`label_chars_of_recast`) and have their runs at the same
places (`runs_flatMap`), so entries can be followed run by run, and of several entries for a run the last
one stays (`Vocabulary.canonical?_concat`).
-/

namespace SqfLayout

open SqfLayout.Text SqfLayout.Scan SqfLayout.Pass

/-! ## Runs -/

/-- Whether two cells are both characters of words or both not. -/
def sameSide (a b : Cell) : Bool := isWordChar a.char == isWordChar b.char

/-- **The runs of a text**: its words and the stretches between them, each as long as possible. -/
def runs (cells : List Cell) : List (List Cell) := cells.splitBy sameSide

/-- Whether a run is a word outside literals. -/
def isFreeWord (run : List Cell) : Bool :=
  run.all fun cell => isWordChar cell.char && cell.kind != .literal

/-- A run in the spelling of an entry, if it is a word outside literals that agrees with the entry up to
case. -/
def replaceRun (entry : List Char) (run : List Cell) : List Char :=
  if isFreeWord run && lowercase (chars run) == lowercase entry then entry else chars run

/-- **One entry spelled out** over a whole text. -/
def spellEntry (entry text : List Char) : List Char := (runs (label text)).flatMap (replaceRun entry)

/-- **Entries spelled out one after the other**, each over the whole text that the one before left.  An entry
without case is passed over. -/
def spellInTurn (entries : List (List Char)) (text : List Char) : List Char :=
  (entries.filter (·.any hasCase)).foldl (fun text entry => spellEntry entry text) text

/-- **A division into runs** behind a given character, as a derivation. -/
inductive InRuns : Option Char → List (List Cell) → Prop
  | done (before : Option Char) : InRuns before []
  | word {before : Option Char} {run : List Cell} {rest : List (List Cell)} :
      Vocabulary.Whole before run rest.flatten → InRuns (run.getLast?.map Cell.char) rest →
      InRuns before (run :: rest)
  | between {before : Option Char} {run : List Cell} {rest : List (List Cell)} :
      run ≠ [] → (∀ cell ∈ run, isWordChar cell.char = false) → InRuns (run.getLast?.map Cell.char) rest →
      InRuns before (run :: rest)

/-- The cells of a run are on one side. -/
lemma isWordChar_eq_of_isChain {run : List Cell} (h : run.IsChain fun a b => sameSide a b = true) {cell : Cell}
    (hcell : cell ∈ run) (hne : run ≠ []) : isWordChar cell.char = isWordChar (run.head hne).char := by
  have : IsTrans Cell fun a b => sameSide a b = true :=
    ⟨fun a b c hab hbc => by simp only [sameSide, beq_iff_eq] at hab hbc ⊢; exact hab.trans hbc⟩
  obtain ⟨first, run, rfl⟩ := List.exists_cons_of_ne_nil hne
  rcases List.mem_cons.1 hcell with rfl | hcell
  · rfl
  · have hside := (List.pairwise_cons.1 (List.isChain_iff_pairwise.1 h)).1 cell hcell
    exact (beq_iff_eq.1 hside).symm

lemma inRuns_of_isChain {rs : List (List Cell)} {before : Option Char} (hne : [] ∉ rs)
    (hside : ∀ run ∈ rs, run.IsChain fun a b => sameSide a b = true)
    (hcut : rs.IsChain fun a b => ∃ ha hb, sameSide (a.getLast ha) (b.head hb) = false)
    (hbefore : ∀ run ∈ rs.head?, ∀ cell ∈ run.head?, isWordChar cell.char = true →
      before.any isWordChar = false) : InRuns before rs := by
  induction rs generalizing before with
  | nil => exact .done before
  | cons run rest ih =>
      have hrun : run ≠ [] := (List.ne_of_not_mem_cons hne).symm
      have hrest : [] ∉ rest := List.not_mem_of_not_mem_cons hne
      obtain ⟨hnext, hcut⟩ := List.isChain_cons.1 hcut
      have hsides (cell : Cell) (hcell : cell ∈ run) :=
        isWordChar_eq_of_isChain (hside run List.mem_cons_self) hcell hrun
      -- the run behind is on the other side
      have hother : ∀ next ∈ rest.head?, ∀ cell ∈ next.head?,
          isWordChar cell.char ≠ isWordChar (run.head hrun).char := by
        intro next hmem cell hcell
        obtain ⟨hlast, hhead, hdiffer⟩ := hnext next hmem
        rw [List.head?_eq_some_head hhead] at hcell
        obtain rfl := Option.some.inj hcell
        rw [← hsides _ (List.getLast_mem hlast)]
        exact (beq_eq_false_iff_ne.1 hdiffer).symm
      have hbehind : InRuns (run.getLast?.map Cell.char) rest := by
        refine ih hrest (fun run hmem => hside run (List.mem_cons_of_mem _ hmem)) hcut
          fun next hmem cell hcell hword => ?_
        rw [List.getLast?_eq_some_getLast hrun, Option.map_some, Option.any_some,
          hsides _ (List.getLast_mem hrun)]
        simpa [hword] using (hother next hmem cell hcell).symm
      cases hword : isWordChar (run.head hrun).char with
      | true =>
          refine .word ⟨hrun, fun cell hcell => (hsides cell hcell).trans hword, ?_, fun cell hcell => ?_⟩ hbehind
          · exact hbefore run rfl _ (List.head?_eq_some_head hrun) hword
          · cases rest with
            | nil => simp at hcell
            | cons next rest =>
                obtain ⟨first, next, rfl⟩ := List.exists_cons_of_ne_nil (List.ne_of_not_mem_cons hrest).symm
                obtain rfl := Option.some.inj hcell
                simpa [hword] using hother _ rfl first rfl
      | false => exact .between hrun (fun cell hcell => (hsides cell hcell).trans hword) hbehind

/-- **`runs` derives.** -/
lemma inRuns_runs (cells : List Cell) : InRuns none (runs cells) :=
  inRuns_of_isChain (List.nil_notMem_splitBy _ _) (fun _ => List.isChain_of_mem_splitBy)
    (List.isChain_getLast_head_splitBy _ _) (fun _ _ _ _ _ => rfl)

@[simp] lemma flatten_runs (cells : List Cell) : (runs cells).flatten = cells := List.flatten_splitBy _ _

/-- **A word has one class.**  The scanner does not act on its characters. -/
lemma kind_eq_of_word {start : Mode} {text : List Char} {front word back : List Cell}
    (h : labelFrom (.ready start) text = front ++ word ++ back)
    (hword : ∀ cell ∈ word, isWordChar cell.char = true) : ∃ kind, ∀ cell ∈ word, cell.kind = kind := by
  have hreads := reads_labelFrom (.ready start) text
  rw [h, List.append_assoc] at hreads
  obtain ⟨mid, hfront, hrest⟩ := reads_append.1 hreads
  obtain ⟨stop, hread, -⟩ := reads_append.1 hrest
  cases word with
  | nil => exact ⟨.code, by simp⟩
  | cons first word =>
      have hmeets := (meets_ready start _).behind hfront
      have hheeded : heeded (nextChar (first :: word ++ back) none) = none :=
        heeded_of_plain (isPlain_of_isWordChar (hword first List.mem_cons_self))
      obtain ⟨mode, rfl⟩ := hmeets hheeded
      exact ⟨mode.kind, ((reads_plain (fun cell hcell => isPlain_of_isWordChar (hword cell hcell)) mode).1 hread).2⟩

/-! ## Entries -/

namespace Vocabulary

/-- The entry that is kept for a key is the last one. -/
lemma find?_lastEntries (entries : List (List Char × List Char)) (key : List Char) :
    (lastEntries entries).find? (·.1 == key) = entries.reverse.find? (·.1 == key) := by
  induction entries with
  | nil => rfl
  | cons entry rest ih =>
      rw [List.reverse_cons, List.find?_append, ← ih, lastEntries]
      by_cases hkey : entry.1 = key
      · subst hkey
        split
        · next hlater =>
            have hsome : ((lastEntries rest).find? (·.1 == entry.1)).isSome = true := by
              rw [ih, List.find?_isSome]
              simpa using hlater
            obtain ⟨found, hfound⟩ := Option.isSome_iff_exists.1 hsome
            rw [hfound, Option.some_or]
        · next hlast =>
            have hnone : (lastEntries rest).find? (·.1 == entry.1) = none := by
              rw [ih, List.find?_eq_none]
              intro later hlater hkey
              exact hlast (List.any_eq_true.2 ⟨later, List.mem_reverse.1 hlater, hkey⟩)
            rw [hnone, Option.none_or, List.find?_cons_of_pos (by simp), List.find?_cons_of_pos (by simp)]
      · split
        · simp [hkey]
        · rw [List.find?_cons_of_neg (by simpa using hkey)]
          simp [hkey]

/-- **One more entry at the end**: it wins for the words that agree with it. -/
lemma canonical?_concat (entries : List (List Char)) {entry : List Char} (hcase : entry.any hasCase = true)
    (word : List Char) :
    (ofLists (entries ++ [entry]) []).canonical? word
      = if lowercase word = lowercase entry then some entry else (ofLists entries []).canonical? word := by
  have hcased : casedEntries (entries ++ [entry] ++ [])
      = casedEntries (entries ++ []) ++ [(lowercase entry, entry)] := by
    simp [casedEntries, List.filter_append, hcase]
  simp only [canonical?, ofLists, find?_lastEntries, hcased, List.reverse_append, List.reverse_singleton,
    List.singleton_append]
  by_cases hsame : lowercase word = lowercase entry
  · rw [if_pos hsame, List.find?_cons_of_pos (by simp [hsame])]
    rfl
  · rw [if_neg hsame, List.find?_cons_of_neg (by simpa using Ne.symm hsame)]

/-! ## Finding entries -/

lemma lookup_addForm (form : SearchForm) (groups : List (Option Char × List SearchForm)) (initial : Option Char) :
    ((addForm form groups).lookup initial).getD []
      = if form.folded.head? = initial then form :: (groups.lookup initial).getD []
        else (groups.lookup initial).getD [] := by
  induction groups with
  | nil =>
      by_cases h : form.folded.head? = initial
      · simp [addForm, h]
      · simp [addForm, List.lookup_cons, h, beq_eq_false_iff_ne.2 (Ne.symm h)]
  | cons group groups ih =>
      obtain ⟨other, forms⟩ := group
      rw [addForm]
      by_cases hother : other = form.folded.head?
      · subst hother
        by_cases h : form.folded.head? = initial
        · simp [h]
        · simp [List.lookup_cons, h, beq_eq_false_iff_ne.2 (Ne.symm h)]
      · rw [if_neg (by simpa using hother)]
        by_cases h : initial = other
        · subst h
          simp [Ne.symm hother]
        · simp [List.lookup_cons, beq_eq_false_iff_ne.2 h, ih]

/-- **The forms of a group** are all forms with its first character. -/
lemma lookup_groupForms (forms : List SearchForm) (initial : Option Char) :
    ((groupForms forms).lookup initial).getD [] = forms.filter (·.folded.head? == initial) := by
  induction forms with
  | nil => rfl
  | cons form forms ih =>
      have hgroup : groupForms (form :: forms) = addForm form (groupForms forms) := rfl
      rw [hgroup, lookup_addForm, ih, List.filter_cons]
      simp only [beq_iff_eq]

/-- What is spelled as asked is read. -/
lemma afterFolded?_of_spelled {folded : List Char} {word : List Cell} (h : Spelled folded word)
    (before : Option Char) : afterFolded? before folded word = some ((word.getLast?.map Cell.char).or before, []) := by
  induction word generalizing before folded with
  | nil =>
      obtain rfl : folded = [] := h.symm
      rfl
  | cons cell word ih =>
      obtain rfl : foldCase cell.char :: word.map (fun cell => foldCase cell.char) = folded := h
      rw [afterFolded?, if_pos (by simp), ih rfl, lastChar_cons]

variable {commands functions : List (List Char)}
  (hwords : ∀ word ∈ commands ++ functions, ∀ c ∈ word, c.toNat < 128 ∧ isWordChar c = true)

include hwords

/-- **A word with a canonical spelling is found.** -/
lemma isSome_finder {word : List Cell} (hword : ∀ cell ∈ word, isWordChar cell.char = true) (hne : word ≠ [])
    {entry : List Char} (h : (ofLists commands functions).canonical? (chars word) = some entry) :
    ((ofLists commands functions).finder none word).isSome = true := by
  obtain ⟨hmem, hlower⟩ := of_canonical h
  obtain ⟨found, hfound, rfl⟩ := Option.map_eq_some_iff.1 h
  have hrecased := forall₂_recased (fun c hc => (hwords found.2 hmem c hc).1) hlower
  have hspelled : Spelled (SearchForm.ofWord found.2).folded word := by
    have hfold := map_eq_of_recased Recased.foldCase_eq hrecased
    rwa [chars, List.map_map] at hfold
  have hform : SearchForm.ofWord found.2 ∈ (ofLists commands functions).formsFor word := by
    have hinitial : (SearchForm.ofWord found.2).folded.head? = word.head?.map fun cell => foldCase cell.char := by
      rw [← hspelled, List.head?_map]
    simp only [formsFor, ofLists, lookup_groupForms, List.mem_filter, beq_iff_eq]
    refine ⟨List.mem_map_of_mem (List.mem_mergeSort.2 (List.mem_map_of_mem ?_)), hinitial⟩
    exact List.mem_of_find?_eq_some hfound
  rw [finder_eq, Option.isSome_map, List.find?_isSome]
  refine ⟨_, hform, ?_⟩
  have hedge : atBoundary none (word.head?.map Cell.char) = true := by
    obtain ⟨cell, word, rfl⟩ := List.exists_cons_of_ne_nil hne
    simp [atBoundary, hword cell]
  have hend : atBoundary (word.getLast?.map Cell.char) none = true := by
    rw [List.getLast?_eq_some_getLast hne]
    simp [atBoundary, hword _ (List.getLast_mem hne)]
  rw [SearchForm.occursAt, afterFolded?_of_spelled hspelled, hedge]
  simp [hend]

end Vocabulary

/-! ## All entries at once -/

/-- **A run in its canonical spelling**, if it is a word outside literals. -/
def Vocabulary.spellRun (v : Vocabulary) (run : List Cell) : List Cell :=
  if isFreeWord run then respell v run else run

/-- Whether the words among runs have one class each. -/
def SingleClass (rs : List (List Cell)) : Prop :=
  ∀ run ∈ rs, (∀ cell ∈ run, isWordChar cell.char = true) → ∃ kind, ∀ cell ∈ run, cell.kind = kind

lemma singleClass_labelFrom (mode : Mode) (text : List Char) :
    SingleClass (runs (labelFrom (.ready mode) text)) := by
  intro run hrun hword
  obtain ⟨front, back, hsplit⟩ := List.append_of_mem hrun
  have hlabel : labelFrom (.ready mode) text = front.flatten ++ run ++ back.flatten := by
    rw [← flatten_runs (labelFrom (.ready mode) text), hsplit]
    simp
  exact kind_eq_of_word hlabel hword

lemma singleClass_runs (text : List Char) : SingleClass (runs (label text)) := singleClass_labelFrom .code text

/-- A word that is not outside literals is inside one. -/
lemma respell_eq_self_of_not_free (v : Vocabulary) {run : List Cell}
    (hword : ∀ cell ∈ run, isWordChar cell.char = true) (hkind : ∃ kind, ∀ cell ∈ run, cell.kind = kind)
    (hfree : isFreeWord run = false) : respell v run = run := by
  obtain ⟨kind, hkind⟩ := hkind
  cases run with
  | nil => rfl
  | cons first run =>
      have hliteral : first.kind = .literal := by
        by_contra hne
        rw [hkind first List.mem_cons_self] at hne
        have htrue : isFreeWord (first :: run) = true :=
          List.all_eq_true.2 fun cell hcell => by simp [hword cell hcell, hkind cell hcell, hne]
        rw [htrue] at hfree
        contradiction
      simp [respell, hliteral]

section Words

variable {commands functions : List (List Char)}
  (hwords : ∀ word ∈ commands ++ functions, ∀ c ∈ word, c.toNat < 128 ∧ isWordChar c = true)

include hwords

/-- A word that is not found stays as it is. -/
lemma spellRun_eq_self {run : List Cell} (hword : ∀ cell ∈ run, isWordChar cell.char = true) (hne : run ≠ [])
    (hnone : (Vocabulary.ofLists commands functions).finder none run = none) :
    (Vocabulary.ofLists commands functions).spellRun run = run := by
  have hcanonical : (Vocabulary.ofLists commands functions).canonical? (chars run) = none := by
    refine Option.eq_none_iff_forall_ne_some.2 fun entry hentry => ?_
    have hfound := Vocabulary.isSome_finder hwords hword hne hentry
    rw [hnone] at hfound
    contradiction
  rw [Vocabulary.spellRun, respell, hcanonical]
  obtain ⟨cell, run, rfl⟩ := List.exists_cons_of_ne_nil hne
  simp

/-- **The pass replaces whole runs.** -/
lemma InRuns.replaces {before : Option Char} {rs : List (List Cell)} (h : InRuns before rs)
    (hclass : SingleClass rs) :
    Replaces (Vocabulary.ofLists commands functions).finder
      (fun taken _ => respell (.ofLists commands functions) taken) before rs.flatten
      (rs.map (Vocabulary.ofLists commands functions).spellRun).flatten := by
  induction h with
  | done before => exact .nil
  | @word before run rest hwhole _ ih =>
      have hrest := ih fun run hrun => hclass run (List.mem_cons_of_mem _ hrun)
      refine hwhole.replaces hwords (spellRun_eq_self hwords hwhole.word hwhole.ne_nil) (fun _ => ?_) hrest
      rw [Vocabulary.spellRun]
      split
      · rfl
      · next hfree =>
          exact (respell_eq_self_of_not_free _ hwhole.word (hclass run List.mem_cons_self hwhole.word)
            (by simpa using hfree)).symm
  | @between before run rest hne hnot _ ih =>
      have hrest := ih fun run hrun => hclass run (List.mem_cons_of_mem _ hrun)
      have hlast : (run.getLast?.map Cell.char).or before = run.getLast?.map Cell.char := by
        rw [List.getLast?_eq_some_getLast hne]
        rfl
      have hspell : (Vocabulary.ofLists commands functions).spellRun run = run := by
        obtain ⟨cell, run, rfl⟩ := List.exists_cons_of_ne_nil hne
        rw [Vocabulary.spellRun, if_neg]
        simp [isFreeWord, hnot cell]
      rw [List.map_cons, List.flatten_cons, List.flatten_cons, hspell]
      refine .pass (fun front cell back hsplit => ?_) (by rwa [hlast])
      refine Vocabulary.finder_eq_none hwords (.inr fun cell' hcell => ?_)
      obtain rfl := Option.some.inj hcell
      exact hnot cell (hsplit ▸ by simp)

/-- **The spelling pass, run by run.** -/
lemma spellWords_eq_runs (text : List Char) :
    spellWords (.ofLists commands functions) text
      = (runs (label text)).flatMap fun run => chars ((Vocabulary.ofLists commands functions).spellRun run) := by
  have hreplaces := (inRuns_runs (label text)).replaces hwords (singleClass_runs text)
  rw [flatten_runs] at hreplaces
  have hchars : chars ((runs (label text)).map (Vocabulary.ofLists commands functions).spellRun).flatten
      = (runs (label text)).flatMap fun run => chars ((Vocabulary.ofLists commands functions).spellRun run) := by
    rw [← List.flatMap_def, chars_flatMap]
  rw [← hchars, ← hreplaces.replaceFound_eq, spellWords]
  split
  · next hempty =>
      -- without entries nothing is found
      have hnone : (runs (label text)).map (Vocabulary.ofLists commands functions).spellRun = runs (label text) := by
        refine List.map_id'' (fun run => ?_) _
        rw [Vocabulary.isEmpty, List.isEmpty_iff] at hempty
        rw [Vocabulary.spellRun, respell, Vocabulary.canonical?, hempty]
        split
        · cases run <;> simp
        · rfl
      rw [hreplaces.replaceFound_eq, hnone, flatten_runs, chars_label]
  · rfl

end Words

/-! ## Recast cells -/

/-- **A cell in another case**: the same character up to case, in the same class. -/
structure Recast (a b : Cell) : Prop where
  char : Recased a.char b.char
  kind : a.kind = b.kind

lemma Recast.refl (cell : Cell) : Recast cell cell := ⟨.refl cell.char, rfl⟩

lemma Recast.heeded_eq {a b : Cell} (h : Recast a b) : heeded (some a.char) = heeded (some b.char) := by
  have hsame : isHeeded a.char = isHeeded b.char := h.char.eq_of (by decide +kernel) (by decide +kernel)
  by_cases hheeded : isHeeded b.char = true
  · have hchar : a.char = b.char := by
      simp only [isHeeded, Bool.or_eq_true, beq_iff_eq] at hheeded
      rcases hheeded with hslash | hstar
      · rw [hslash, (h.char.eq_sign_iff (by decide)).2 hslash]
      · rw [hstar, (h.char.eq_sign_iff (by decide)).2 hstar]
    rw [hchar]
  · rw [Bool.not_eq_true] at hheeded
    rw [heeded_some (hsame.trans hheeded), heeded_some hheeded]

/-- The scanner does not tell recast characters apart. -/
lemma step_recased {c d : Char} (h : Recased c d) (cursor : Cursor) (next : Option Char) :
    step cursor c next = step cursor d next := by
  have hsign {s : Char} (hs : s ∈ signs) : (c == s) = (d == s) := by
    rw [Bool.eq_iff_iff, beq_iff_eq, beq_iff_eq]
    exact h.eq_sign_iff hs
  unfold step
  rw [hsign (s := '\'') (by decide), hsign (s := '"') (by decide), hsign (s := '/') (by decide),
    hsign (s := '*') (by decide), hsign (s := '\n') (by decide)]

/-- **Recast cells are read alike.** -/
lemma Scan.Reads.recast {start stop : Cursor} {a b : List Cell} {follow : Option Char}
    (h : Reads start a follow stop) (hab : List.Forall₂ Recast a b) : Reads start b follow stop := by
  induction hab generalizing start with
  | nil => exact h
  | @cons x y xs ys hxy hrest ih =>
      obtain ⟨mid, hstep, hreads⟩ := h
      refine ⟨mid, ?_, ih hreads⟩
      have hnext : heeded (nextChar ys follow) = heeded (nextChar xs follow) := by
        cases hrest with
        | nil => rfl
        | cons hcell _ => exact hcell.heeded_eq.symm
      rw [step_congr hnext, ← step_recased hxy.char, hstep, hxy.kind]

/-- **Recast cells are read back as they are.** -/
lemma label_chars_of_recast {text : List Char} {cells : List Cell} (h : List.Forall₂ Recast (label text) cells) :
    label (chars cells) = cells :=
  ((reads_label text).recast h).labelFrom_eq

/-- Related lists are cut at the same places. -/
lemma forall₂_splitBy {α : Type} {R : α → α → Prop} {r : α → α → Bool}
    (hr : ∀ {a b c d}, R a b → R c d → r a c = r b d) {xs ys : List α} (h : List.Forall₂ R xs ys) :
    List.Forall₂ (List.Forall₂ R) (xs.splitBy r) (ys.splitBy r) := by
  have hloop {xs ys : List α} (h : List.Forall₂ R xs ys) : ∀ {x y : α} {g g' : List α} {gs gs' : List (List α)},
      R x y → List.Forall₂ R g g' → List.Forall₂ (List.Forall₂ R) gs gs' →
      List.Forall₂ (List.Forall₂ R) (List.splitBy.loop r xs x g gs) (List.splitBy.loop r ys y g' gs') := by
    induction h with
    | nil =>
        intro x y g g' gs gs' hxy hg hgs
        exact List.rel_reverse (.cons (List.rel_reverse (.cons hxy hg)) hgs)
    | @cons x' y' xs ys hx _ ih =>
        intro x y g g' gs gs' hxy hg hgs
        rw [List.splitBy.loop, List.splitBy.loop, hr hxy hx]
        split
        · exact ih hx (.cons hxy hg) hgs
        · exact ih hx .nil (.cons (List.rel_reverse (.cons hxy hg)) hgs)
  cases h with
  | nil => exact .nil
  | cons hx hrest => exact hloop hrest hx .nil .nil

section RecastRuns

variable {cells : List Cell} {f : List Cell → List Cell}
  (hf : ∀ run ∈ runs cells, List.Forall₂ Recast run (f run))

include hf

lemma recast_map_runs : List.Forall₂ (List.Forall₂ Recast) (runs cells) ((runs cells).map f) := by
  rw [List.forall₂_map_right_iff]
  exact List.forall₂_same.2 hf

lemma recast_flatMap : List.Forall₂ Recast cells ((runs cells).flatMap f) := by
  have hflat := List.rel_flatten (recast_map_runs hf)
  rwa [flatten_runs, ← List.flatMap_def] at hflat

/-- **The runs of cells whose runs are recast** are the recast runs. -/
lemma runs_flatMap : runs ((runs cells).flatMap f) = (runs cells).map f := by
  have hcut : List.Forall₂ (List.Forall₂ Recast) (runs cells) (runs ((runs cells).flatMap f)) :=
    forall₂_splitBy (fun hab hcd => by rw [sameSide, sameSide, hab.char.isWordChar_eq, hcd.char.isWordChar_eq])
      (recast_flatMap hf)
  -- both divisions are of the same cells into runs of the same lengths
  have hlengths {rs : List (List Cell)} (h : List.Forall₂ (List.Forall₂ Recast) (runs cells) rs) :
      rs.map List.length = (runs cells).map List.length := by
    generalize runs cells = source at h
    induction h with
    | nil => rfl
    | cons hrun _ ih => rw [List.map_cons, List.map_cons, ih, hrun.length_eq]
  rw [List.eq_iff_flatten_eq, flatten_runs, List.flatMap_def]
  exact ⟨rfl, (hlengths hcut).trans (hlengths (recast_map_runs hf)).symm⟩

end RecastRuns

/-- The runs of a text whose runs are recast. -/
lemma runs_label_flatMap {text : List Char} {f : List Cell → List Cell}
    (hf : ∀ run ∈ runs (label text), List.Forall₂ Recast run (f run)) :
    runs (label ((runs (label text)).flatMap fun run => chars (f run))) = (runs (label text)).map f := by
  rw [← chars_flatMap, label_chars_of_recast (recast_flatMap hf), runs_flatMap hf]

/-! ## One entry after the other -/

/-- The spelling of a run that holds anything. -/
lemma chars_spellRun (v : Vocabulary) {run : List Cell} (hne : run ≠ []) :
    chars (v.spellRun run)
      = if isFreeWord run then (v.canonical? (chars run)).getD (chars run) else chars run := by
  rw [Vocabulary.spellRun]
  split
  · next hfree =>
      obtain ⟨first, run, rfl⟩ := List.exists_cons_of_ne_nil hne
      have hkind : first.kind ≠ .literal := by
        have hfirst := List.all_eq_true.1 hfree first List.mem_cons_self
        simp only [Bool.and_eq_true, bne_iff_ne] at hfirst
        exact hfirst.2
      simp only [respell, List.head?_cons, beq_iff_eq, if_neg hkind]
      cases v.canonical? (chars (first :: run)) with
      | none => rfl
      | some word => rw [chars_map_mk, Option.getD_some]
  · rfl

/-- A spelling that is looked up like the word itself stays as it is. -/
lemma respell_respell (v : Vocabulary) {word : List Cell}
    (h : v.canonical? (chars (respell v word)) = v.canonical? (chars word)) :
    respell v (respell v word) = respell v word := by
  cases word with
  | nil => rfl
  | cons first word =>
      by_cases hkind : first.kind = .literal
      · simp [respell, hkind]
      · cases hentry : v.canonical? (chars (first :: word)) with
        | none =>
            have hsame : respell v (first :: word) = first :: word := by
              simp only [respell, List.head?_cons, beq_iff_eq, hkind, if_false, hentry]
            rw [hsame, hsame]
        | some entry =>
            have hspelled : respell v (first :: word) = entry.map (⟨·, first.kind⟩) := by
              simp only [respell, List.head?_cons, beq_iff_eq, hkind, if_false, hentry]
            rw [hspelled, hentry] at h
            rw [hspelled]
            cases entry with
            | nil => rfl
            | cons c entry =>
                rw [List.map_cons] at h ⊢
                simp only [respell, List.head?_cons, beq_iff_eq, hkind, if_false, h, List.map_cons]

section Turns

variable {entries : List (List Char)}
  (hwords : ∀ word ∈ entries, ∀ c ∈ word, c.toNat < 128 ∧ isWordChar c = true)

include hwords

/-- A run in its canonical spelling is recast. -/
lemma recast_spellRun {run : List Cell}
    (hclass : (∀ cell ∈ run, isWordChar cell.char = true) → ∃ kind, ∀ cell ∈ run, cell.kind = kind) :
    List.Forall₂ Recast run ((Vocabulary.ofLists entries []).spellRun run) := by
  have hsame : List.Forall₂ Recast run run := List.forall₂_same.2 fun cell _ => .refl cell
  rw [Vocabulary.spellRun]
  split
  · next hfree =>
      have hword : ∀ cell ∈ run, isWordChar cell.char = true := fun cell hcell => by
        have hcell := List.all_eq_true.1 hfree cell hcell
        simp only [Bool.and_eq_true] at hcell
        exact hcell.1
      obtain ⟨kind, hkind⟩ := hclass hword
      unfold respell
      split
      · next hhead =>
          rw [List.head?_eq_none_iff.1 hhead]
          exact .nil
      · next first hfirst =>
          split
          · exact hsame
          · split
            · exact hsame
            · next entry hentry =>
                obtain ⟨hmem, hlower⟩ := Vocabulary.of_canonical hentry
                rw [List.append_nil] at hmem
                have hrecased := forall₂_recased (fun c hc => (hwords entry hmem c hc).1) hlower
                rw [List.forall₂_map_right_iff]
                rw [chars, List.forall₂_map_left_iff] at hrecased
                refine List.forall₂_iff_get.2 ⟨hrecased.length_eq, fun i hi hi' => ⟨hrecased.get hi hi', ?_⟩⟩
                rw [hkind _ (List.get_mem run ⟨i, hi⟩), hkind first (List.mem_of_head? hfirst)]
  · exact hsame

/-- A word in its canonical spelling is outside literals as before, and has the same lower-case form. -/
lemma spellRun_invariants {run : List Cell}
    (hclass : (∀ cell ∈ run, isWordChar cell.char = true) → ∃ kind, ∀ cell ∈ run, cell.kind = kind) :
    isFreeWord ((Vocabulary.ofLists entries []).spellRun run) = isFreeWord run
      ∧ lowercase (chars ((Vocabulary.ofLists entries []).spellRun run)) = lowercase (chars run) := by
  have hrecast := recast_spellRun hwords hclass
  constructor
  · generalize (Vocabulary.ofLists entries []).spellRun run = spelled at hrecast
    clear hclass
    induction hrecast with
    | nil => rfl
    | cons hcell _ ih =>
        rw [isFreeWord, isFreeWord, List.all_cons, List.all_cons, hcell.char.isWordChar_eq, hcell.kind]
        exact congrArg _ ih
  · rw [Vocabulary.spellRun]
    split
    · unfold respell
      split
      · next hhead => rw [List.head?_eq_none_iff.1 hhead]
      · split
        · rfl
        · split
          · rfl
          · next entry hentry =>
              rw [chars_map_mk]
              exact (Vocabulary.of_canonical hentry).2.symm
    · rfl

/-- **A run in its canonical spelling stays as it is.**  An entry is found by its lower-case form. -/
lemma spellRun_spellRun {run : List Cell}
    (hclass : (∀ cell ∈ run, isWordChar cell.char = true) → ∃ kind, ∀ cell ∈ run, cell.kind = kind) :
    (Vocabulary.ofLists entries []).spellRun ((Vocabulary.ofLists entries []).spellRun run)
      = (Vocabulary.ofLists entries []).spellRun run := by
  obtain ⟨hfree, hlower⟩ := spellRun_invariants hwords hclass
  by_cases hrun : isFreeWord run = true
  · have hspelled : (Vocabulary.ofLists entries []).spellRun run = respell (.ofLists entries []) run := if_pos hrun
    rw [Vocabulary.spellRun, if_pos (hfree.trans hrun), hspelled]
    rw [hspelled] at hlower
    refine respell_respell _ ?_
    rw [Vocabulary.canonical?, hlower, ← Vocabulary.canonical?]
  · have hsame : (Vocabulary.ofLists entries []).spellRun run = run := if_neg hrun
    rw [hsame, hsame]

/-- **One more entry**: what the entries before it made of a run, with the entry in its place if it agrees. -/
lemma replaceRun_spellRun {entry : List Char} (hcase : entry.any hasCase = true) {run : List Cell} (hne : run ≠ [])
    (hclass : (∀ cell ∈ run, isWordChar cell.char = true) → ∃ kind, ∀ cell ∈ run, cell.kind = kind) :
    replaceRun entry ((Vocabulary.ofLists entries []).spellRun run)
      = chars ((Vocabulary.ofLists (entries ++ [entry]) []).spellRun run) := by
  obtain ⟨hfree, hlower⟩ := spellRun_invariants hwords hclass
  rw [replaceRun, hfree, hlower, chars_spellRun _ hne, chars_spellRun _ hne]
  cases isFreeWord run with
  | false => rfl
  | true =>
      rw [Vocabulary.canonical?_concat entries hcase]
      by_cases hsame : lowercase (chars run) = lowercase entry
      · simp [hsame]
      · simp [hsame]

end Turns

/-- **Entries in turn, run by run.** -/
lemma spellInTurn_eq_runs {entries : List (List Char)}
    (hwords : ∀ word ∈ entries, ∀ c ∈ word, c.toNat < 128 ∧ isWordChar c = true)
    (hcase : ∀ word ∈ entries, word.any hasCase = true) (text : List Char) :
    entries.foldl (fun text entry => spellEntry entry text) text
      = (runs (label text)).flatMap fun run => chars ((Vocabulary.ofLists entries []).spellRun run) := by
  induction entries using List.reverseRecOn with
  | nil =>
      have hnone (run : List Cell) : (Vocabulary.ofLists [] []).spellRun run = run := by
        rw [Vocabulary.spellRun]
        split
        · cases run <;> simp [respell, Vocabulary.canonical?, Vocabulary.ofLists, Vocabulary.casedEntries,
            Vocabulary.lastEntries]
        · rfl
      simp only [List.foldl_nil, hnone]
      rw [← chars_flatMap (fun run => run), List.flatMap_id', flatten_runs, chars_label]
  | append_singleton entries entry ih =>
      have hwords' := fun word hword => hwords word (List.mem_append_left _ hword)
      have hclass := singleClass_runs text
      rw [List.foldl_append, List.foldl_cons, List.foldl_nil,
        ih hwords' fun word hword => hcase word (List.mem_append_left _ hword), spellEntry,
        runs_label_flatMap fun run hrun => recast_spellRun hwords' (hclass run hrun), List.flatMap_map]
      refine List.flatMap_congr fun run hrun => ?_
      exact replaceRun_spellRun hwords' (hcase entry (by simp)) (List.ne_nil_of_mem_splitBy hrun) (hclass run hrun)

/-- The spelling of runs depends on the entries alone that have case. -/
lemma spellRun_casedEntries (commands functions : List (List Char)) :
    (Vocabulary.ofLists ((commands ++ functions).filter (·.any hasCase)) []).spellRun
      = (Vocabulary.ofLists commands functions).spellRun := by
  have hentries : (Vocabulary.ofLists ((commands ++ functions).filter (·.any hasCase)) []).spellings
      = (Vocabulary.ofLists commands functions).spellings := by
    simp only [Vocabulary.ofLists, Vocabulary.casedEntries, List.append_nil, List.filter_filter, Bool.and_self]
  funext run
  simp only [Vocabulary.spellRun, respell, Vocabulary.canonical?, hentries]

/-- **Looking for all entries at once is the same as spelling them out in turn**, first the commands and then
the functions, for entries of ASCII letters, digits and underscores. -/
theorem spellWords_eq_spellInTurn {commands functions : List (List Char)}
    (hwords : ∀ word ∈ commands ++ functions, ∀ c ∈ word, isWordCode c.toNat = true) (text : List Char) :
    spellWords (.ofLists commands functions) text = spellInTurn (commands ++ functions) text := by
  have hascii : ∀ word ∈ commands ++ functions, ∀ c ∈ word, c.toNat < 128 ∧ isWordChar c = true :=
    fun word hword c hc => word_of_isWordCode (hwords word hword c hc)
  rw [spellWords_eq_runs hascii, spellInTurn, spellInTurn_eq_runs, spellRun_casedEntries]
  · exact fun word hword => hascii word (List.mem_of_mem_filter hword)
  · exact fun word hword => (List.mem_filter.1 hword).2

/-- Entries that start alike or differ in case only, a Kelvin sign, a long s, a literal and a longer word. -/
theorem spellWords_eq_spellInTurn_alike :
    (∀ word ∈ ["getPos".toList, "getPosATL".toList, "ask".toList] ++ ["GETPOS".toList, "1".toList],
        ∀ c ∈ word, isWordCode c.toNat = true)
      ∧ spellWords
          (.ofLists ["getPos".toList, "getPosATL".toList, "ask".toList] ["GETPOS".toList, "1".toList])
          "getpos getposatl AS\u212A a\u017Fk 'ASK' _ask".toList
        = spellInTurn (["getPos".toList, "getPosATL".toList, "ask".toList] ++ ["GETPOS".toList, "1".toList])
          "getpos getposatl AS\u212A a\u017Fk 'ASK' _ask".toList
      ∧ spellInTurn (["getPos".toList, "getPosATL".toList, "ask".toList] ++ ["GETPOS".toList, "1".toList])
          "getpos getposatl AS\u212A a\u017Fk 'ASK' _ask".toList
        = "GETPOS getPosATL ask a\u017Fk 'ASK' _ask".toList := by
  have hwords : ∀ word ∈ ["getPos".toList, "getPosATL".toList, "ask".toList] ++ ["GETPOS".toList, "1".toList],
      ∀ c ∈ word, isWordCode c.toNat = true := by
    decide +kernel
  exact ⟨hwords, spellWords_eq_spellInTurn hwords _, by decide +kernel⟩

end SqfLayout
