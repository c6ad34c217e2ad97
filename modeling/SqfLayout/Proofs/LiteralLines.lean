import SqfLayout.Proofs.Breaks

/-!
# Literals of indented lines

Apart from the white space at the ends of its lines, indentation squeezes runs of blanks and takes tabs
away, both outside literals.

**Squeezing.**  Runs of blanks may be squeezed wherever they stand (`exists_squeezed`).

**Tabs.**  A tab that goes may bring two characters together that make a comment mark, and what follows is
then no longer read as it was.  `marksWhole` says that no tabs keep a mark apart; such tabs may go
(`reads_tabless`).

**Lines.**  One line: `sameUpToBreaks_lineBody`.  All lines, with the mode that is carried along:
`rowsKept_indenterLines`.
-/

namespace SqfLayout.Pass

open SqfLayout.Text SqfLayout.Scan

section Lines

variable {mode : Mode}

/-! ## Squeezing -/

/-- **Runs of blanks that start outside literals may be squeezed.**  While the rest of a run is being
dropped, the space that stands for the run comes before the cells. -/
lemma exists_squeezed (dropping : Bool) (cells : List Cell) {kind : CharClass} (hkind : kind ≠ .literal) :
    ∃ cells', chars cells' = squeezeFrom dropping cells
      ∧ Reread ((if dropping then [⟨' ', kind⟩] else []) ++ cells)
        ((if dropping then [⟨' ', kind⟩] else []) ++ cells') := by
  fun_induction squeezeFrom dropping cells generalizing kind with
  | case1 dropping => exact ⟨[], rfl, .refl _⟩
  | case2 dropping cell rest hdropping ih =>
      simp only [Bool.and_eq_true] at hdropping
      obtain ⟨rfl, hblank⟩ := hdropping
      obtain ⟨cells', hchars, hreread⟩ := ih hkind
      refine ⟨cells', hchars, Reread.trans ?_ hreread⟩
      have hspace : Reread [⟨' ', kind⟩, cell] [⟨' ', kind⟩] := by
        refine .of_plain (x := ⟨' ', kind⟩) ?_ (by simp) hkind (by simp) (by simp)
        exact List.forall_mem_cons.2
          ⟨(by decide : isPlain ' ' = true), List.forall_mem_singleton.2 (isPlain_of_isBlank hblank)⟩
      exact hspace.append (.refl rest)
  | case3 dropping cell rest hkept hblank ih =>
      simp only [Bool.and_eq_true, bne_iff_ne] at hblank hkept
      obtain ⟨⟨hliteral, hcell⟩, -⟩ := hblank
      obtain rfl : dropping = false := by simpa [hcell] using hkept
      obtain ⟨cells', hchars, hreread⟩ := ih hliteral
      refine ⟨⟨' ', cell.kind⟩ :: cells', by rw [chars_cons, hchars], Reread.trans ?_ hreread⟩
      have hspace : Reread [cell] [⟨' ', cell.kind⟩] := by
        refine .of_plain (x := cell) (List.forall_mem_singleton.2 (isPlain_of_isBlank hcell)) (by simp)
          hliteral ?_ (by simp)
        exact List.forall_mem_singleton.2 (.inr ⟨rfl, .inl (by decide : isPlain ' ' = true)⟩)
      exact hspace.append (.refl rest)
  | case4 dropping cell rest hkept hsingle ih =>
      obtain ⟨cells', hchars, hreread⟩ := ih hkind
      refine ⟨cell :: cells', by rw [chars_cons, hchars], .append (.refl _) ?_⟩
      exact (Reread.refl [cell]).append hreread

/-! ## Tabs -/

/-- Whether a character at a cursor makes a comment mark with the one behind it. -/
def makesMark (cursor : Cursor) (c : Char) (next : Option Char) : Bool :=
  cursor == .ready .code && c == '/' && (next == some '/' || next == some '*')
    || cursor == .ready .block && c == '*' && next == some '/'

/-- **Whether no tabs keep the two characters of a comment mark apart.** -/
def marksWhole : Cursor → List Char → Bool
  | _, [] => true
  | cursor, c :: rest =>
    !(rest.head? == some '\t' && makesMark cursor c (rest.dropWhile (· == '\t')).head?)
      && marksWhole (step cursor c rest.head?).2 rest

/-- Cells without the tabs outside literals. -/
def tabless (cells : List Cell) : List Cell :=
  cells.filter fun cell => cell.char != '\t' || cell.kind == .literal

lemma tabless_cons_of_not {cell : Cell} (h : ¬ (cell.char = '\t' ∧ cell.kind ≠ .literal))
    (rest : List Cell) : tabless (cell :: rest) = cell :: tabless rest := by
  refine List.filter_cons_of_pos ?_
  by_cases htab : cell.char = '\t'
  · simpa [htab] using h
  · simp [htab]

lemma literalCells_tabless (cells : List Cell) : literalCells (tabless cells) = literalCells cells := by
  rw [literalCells, literalCells, tabless, List.filter_filter]
  refine List.filter_congr fun cell _ => ?_
  cases cell.kind == .literal <;> simp

/-- A character that makes no mark is read as if nothing followed it. -/
lemma step_of_not_mark {cursor : Cursor} {c : Char} {next : Option Char}
    (h : makesMark cursor c next = false) : step cursor c next = step cursor c none := by
  cases cursor with
  | midway mode => rfl
  | ready mode =>
      cases mode with
      | code =>
          by_cases hc : c = '/'
          · simp_all [makesMark, step]
          · simp [step, hc]
      | block => simp_all [makesMark, step]
      | _ => rfl

/-- Outside literals the character behind tabs is the next one. -/
lemma nextChar_tabless (hmode : mode.kind ≠ .literal) {cells : List Cell} {stop : Cursor}
    (h : Reads (.ready mode) cells none stop) :
    nextChar (tabless cells) none = ((chars cells).dropWhile (· == '\t')).head? := by
  induction cells with
  | nil => rfl
  | cons cell rest ih =>
      by_cases htab : cell.char = '\t'
      · obtain ⟨mid, hstep, hrest⟩ := h
        rw [htab, step_plain (by decide)] at hstep
        obtain ⟨hkind, rfl⟩ := Prod.mk.inj hstep
        have hdropped : tabless (cell :: rest) = tabless rest :=
          List.filter_cons_of_neg (by simp [htab, ← hkind, hmode])
        rw [hdropped, ih hrest, chars_cons, htab]
        rfl
      · have hkept : tabless (cell :: rest) = cell :: tabless rest :=
          List.filter_cons_of_pos (by simp [htab])
        rw [hkept, chars_cons, List.dropWhile_cons_of_neg (by simpa using htab)]
        rfl

/-- A character is read in the same way before tabs that go, if it makes no mark with what follows them. -/
lemma step_tabless {start mid stop : Cursor} {c : Char} {rest : List Cell}
    (hmeets : Meets mid (nextChar rest none)) (hrest : Reads mid rest none stop)
    (hmark : (nextChar rest none == some '\t'
      && makesMark start c ((chars rest).dropWhile (· == '\t')).head?) = false) :
    step start c (nextChar (tabless rest) none) = step start c (nextChar rest none) := by
  cases rest with
  | nil => rfl
  | cons cell rest =>
      by_cases hgoes : cell.char = '\t' ∧ cell.kind ≠ .literal
      · rw [nextChar_cons, hgoes.1] at hmeets hmark ⊢
        obtain ⟨mode, rfl⟩ := hmeets (by decide)
        have hmode : mode.kind ≠ .literal := by
          obtain ⟨_, hstep, -⟩ := id hrest
          rw [hgoes.1, step_plain (by decide)] at hstep
          rw [(Prod.mk.inj hstep).1]
          exact hgoes.2
        rw [nextChar_tabless hmode hrest]
        exact (step_of_not_mark (by simpa using hmark)).trans (step_congr (by decide) _ _)
      · rw [tabless_cons_of_not hgoes]
        rfl

/-- **Tabs outside literals may go**, if they keep no comment mark apart. -/
lemma reads_tabless {start stop : Cursor} {cells : List Cell}
    (hmeets : Meets start (nextChar cells none)) (h : Reads start cells none stop)
    (hmarks : marksWhole start (chars cells) = true) : Reads start (tabless cells) none stop := by
  induction cells generalizing start with
  | nil => exact h
  | cons cell rest ih =>
      obtain ⟨mid, hstep, hrest⟩ := h
      have hcell : Reads start [cell] (nextChar rest none) mid := ⟨mid, hstep, rfl⟩
      have hmeets' : Meets mid (nextChar rest none) := Meets.behind hmeets hcell
      have hnext : nextChar rest none = (chars rest).head? := by rw [nextChar_eq, Option.or_none]
      simp only [chars_cons, marksWhole, Bool.and_eq_true, Bool.not_eq_true'] at hmarks
      rw [← hnext, hstep] at hmarks
      have hrest' := ih hmeets' hrest hmarks.2
      by_cases hdropped : cell.char = '\t' ∧ cell.kind ≠ .literal
      · -- a tab that goes leaves the cursor where it is
        have hgone : tabless (cell :: rest) = tabless rest :=
          List.filter_cons_of_neg (by simp [hdropped.1, hdropped.2])
        rw [nextChar_cons, hdropped.1] at hmeets
        obtain ⟨mode, rfl⟩ := hmeets (by decide)
        rw [hdropped.1, step_plain (by decide)] at hstep
        obtain ⟨-, rfl⟩ := Prod.mk.inj hstep
        rwa [hgone]
      · rw [tabless_cons_of_not hdropped]
        refine ⟨mid, ?_, hrest'⟩
        rw [step_tabless hmeets' hrest hmarks.1, hstep]

/-! ## One line -/

/-- Cells between white space are read from where the white space is. -/
lemma reads_trimmed (hmode : mode ≠ .line) {front kept back : List Cell} (hfront : AllSpace front)
    (hback : AllSpace back) {stop : Cursor}
    (h : Reads (.ready mode) (front ++ (kept ++ back)) none stop) :
    ∃ stop', Reads (.ready mode) kept none stop' := by
  obtain ⟨mid, hreads, hrest⟩ := reads_append.1 h
  obtain ⟨rfl, -⟩ := (reads_space hfront hmode).1 hreads
  obtain ⟨stop', hkept, -⟩ := reads_append.1 hrest
  refine ⟨stop', (reads_congr ?_).1 hkept⟩
  rw [nextChar_eq, Option.or_none]
  exact heeded_head_of_space hback.chars

/-- Whether a line loses its tabs outside literals: a line of code with a comment. -/
def losesTabs (scanned : ScannedLine) : Bool := scanned.position == .code && scanned.hasComment

/-- **The body of a line keeps its literals up to breaks.** -/
lemma sameUpToBreaks_lineBody (hmode : mode ≠ .line) {line : List Char}
    (hmarks : losesTabs (scanLine mode line).1 = true → marksWhole (.ready mode) line = true) :
    SameUpToBreaks mode line (lineBody (scanLine mode line).1) := by
  have hreads := reads_modeAfter mode line
  have hline := chars_labelFrom (.ready mode) line
  have hcells : (scanLine mode line).1.cells = labelFrom (.ready mode) line := rfl
  generalize (scanLine mode line).1 = scanned at hmarks hcells ⊢
  obtain ⟨position, cells⟩ := scanned
  obtain rfl : cells = labelFrom (.ready mode) line := hcells
  generalize labelFrom (.ready mode) line = cells at hreads hline hmarks ⊢
  subst hline
  obtain ⟨front, back, hsplit, hfront, hback⟩ := exists_trimCells cells
  have htrimmed : SameUpToBreaks mode (chars cells) (chars (trimCells cells)) := by
    conv => arg 2; rw [hsplit, chars_append, chars_append]
    exact .trim hmode hfront.chars hback.chars _
  cases position with
  | inside => exact .refl mode _
  | opens => exact htrimmed
  | closes => exact htrimmed
  | code =>
      simp only [lineBody]
      split
      · next hcomment =>
          have htabs := reads_tabless (meets_ready mode _) hreads (hmarks (by simpa [losesTabs] using hcomment))
          have hdropped : SameUpToBreaks mode (chars cells) (dropTabs cells) :=
            .of_reads hreads htabs (literalCells_tabless cells)
          refine hdropped.trans ?_
          conv => arg 2; rw [hsplit, dropTabs_append, dropTabs_append]
          exact .trim hmode (isSpace_of_mem_dropTabs hfront) (isSpace_of_mem_dropTabs hback) _
      · have hcode : CharClass.code ≠ .literal := by decide
        obtain ⟨cells', hchars, hreread⟩ := exists_squeezed false (trimCells cells) hcode
        rw [← hchars]
        refine htrimmed.trans ?_
        rw [hsplit] at hreads
        obtain ⟨stop, hkept⟩ := reads_trimmed hmode hfront hback hreads
        obtain ⟨hsqueezed, hliterals⟩ := hreread.reads _ _ _ (meets_ready mode _) hkept
        exact .of_reads hkept hsqueezed hliterals

/-! ## All lines -/

/-- **Whether no comment mark is kept apart by tabs that a line loses.** -/
def tabsHarmless : Mode → List (List Char) → Bool
  | _, [] => true
  | mode, line :: rest =>
    let (scanned, next) := scanLine mode line
    (!losesTabs scanned || marksWhole (.ready mode) line) && tabsHarmless next rest

/-- A blank line may go. -/
lemma rowsKept_of_bare (hmode : mode ≠ .line) {line : List Char} (hline : isBare line = true)
    (ls : List (List Char)) : RowsKept mode (line :: ls) ls := by
  have hspace : ∀ c ∈ line, isSpace c = true := List.all_eq_true.1 hline
  have hnext := scanLine_of_bare hmode hline
  constructor
  · rw [rows_cons, (literalsFrom_line mode line _).2, hnext]
  · rw [rowLiterals, hnext, (literalsFrom_space hspace mode).1, feedIn]
    split
    · have hbreak : Respaced Breaking ('\n' :: (line ++ ['\n'])) ['\n'] :=
        .behind (by decide) (List.forall_mem_append.2 ⟨hspace, isSpace_feed⟩)
      simpa using hbreak.append_right (rowLiterals mode ls)
    · exact .refl _

/-- **The lines that are kept have the literals of all lines**, up to breaks. -/
lemma rowsKept_indenterLines (s : Indenter) (hmode : s.mode ≠ .line) {ls : List (List Char)}
    (htabs : tabsHarmless s.mode ls = true) : RowsKept s.mode ls (s.lines ls) := by
  induction ls generalizing s with
  | nil => exact .refl _ _
  | cons line ls ih =>
      simp only [tabsHarmless, Bool.and_eq_true] at htabs
      cases hline : isBare line with
      | true =>
          rw [scanLine_of_bare hmode hline] at htabs
          have hmode' := (blankLine_kept s).2.2
          have hrest := ih s.blankLine.2 (hmode' ▸ hmode) (by rw [hmode']; exact htabs.2)
          rw [hmode'] at hrest
          rcases s.lines_bare hline ls with hlines | hlines
          · rw [hlines]
            exact (rowsKept_of_bare hmode hline ls).trans hrest
          · rw [hlines]
            refine .cons ?_ (by rwa [scanLine_of_bare hmode hline])
            have hspace : ∀ c ∈ line, isSpace c = true := List.all_eq_true.1 hline
            simpa using SameUpToBreaks.trimFront hmode hspace []
      | false =>
          obtain ⟨level, hplaced⟩ := exists_fullLine s line
          have hrest := ih (s.fullLine line).2 (by rw [fullLine_mode]; exact scanLine_ne_line _ _)
            (by rw [fullLine_mode]; exact htabs.2)
          rw [fullLine_mode] at hrest
          rw [s.lines_full hline, hplaced]
          refine .cons ?_ hrest
          have hbody : SameUpToBreaks s.mode line (lineBody (scanLine s.mode line).1) :=
            sameUpToBreaks_lineBody hmode fun hloses => by simpa [hloses] using htabs.1
          exact hbody.trans (SameUpToBreaks.trimFront hmode (isSpace_indentation s.unit level) _).symm

/-- **The indentation pass keeps literals up to breaks**, if no comment mark is kept apart by tabs. -/
lemma sameUpToBreaks_indentLines (unit : IndentUnit) {text : List Char}
    (htabs : tabsHarmless .code (lines text) = true) :
    SameUpToBreaks .code text (indentLines unit text) := by
  have hrows := (rowsKept_indenterLines { unit } Mode.noConfusion htabs).unlines
  obtain ⟨front, back, hjoined, hfront, hback⟩ := exists_indentLines unit text
  rw [unlines_lines, hjoined] at hrows
  exact hrows.trans (.trim Mode.noConfusion (isSpace_of_feeds hfront) (isSpace_of_feeds hback) _)

end Lines

end SqfLayout.Pass
