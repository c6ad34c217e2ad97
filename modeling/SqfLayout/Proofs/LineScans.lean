import SqfLayout.Proofs.Indentation

/-!
# Scanning lines and scanning texts

A text is scanned as a whole by some passes and line by line by others.  Both find the same.

**Cells.**  `scanLines` scans lines in a row, each in the mode that the one before it left.  The cells of
the lines, with the line feeds between them, are those of the whole text, and a line feed has the class
of the mode behind its line (`labelFrom_unlines`).  A line ends before a character that the scanner does
not look ahead for, so nothing is lost by looking at the line alone.

**Modes.**  The modes behind the lines are those that the scanner of the text shows at its line feeds
(`feedModes_unlines`), and those of an indenter, which does not scan blank lines (`Indenter.modes_run`).
-/

namespace SqfLayout.Pass

open SqfLayout.Text SqfLayout.Scan

/-! ## Lines in a row -/

/-- **Lines scanned in a row**, with the mode behind each. -/
def scanLines : Mode → List (List Char) → List (ScannedLine × Mode)
  | _, [] => []
  | mode, line :: rest => scanLine mode line :: scanLines (scanLine mode line).2 rest

/-- The cells of scanned lines with the line feeds between them. -/
def joinScanned : List (ScannedLine × Mode) → List Cell
  | [] => []
  | [(line, _)] => line.cells
  | (line, mode) :: rest => line.cells ++ ⟨'\n', mode.kind⟩ :: joinScanned rest

/-- The lines that an indenter makes of lines, with what it carries on behind each. -/
def Indenter.run : Indenter → List (List Char) → List (Option (List Char) × Indenter)
  | _, [] => []
  | s, line :: rest => s.line line :: Indenter.run (s.line line).2 rest

/-! ## Cells -/

/-- A line feed takes the class of the mode behind its line. -/
lemma step_afterLine (mode : Mode) (next : Option Char) :
    step (.ready mode) '\n' next = (mode.afterLine.kind, .ready mode.afterLine) := by
  cases mode <;> rfl

/-- **The cells of lines are the cells of their text.** -/
lemma labelFrom_unlines (mode : Mode) (ls : List (List Char)) :
    labelFrom (.ready mode) (unlines ls) = joinScanned (scanLines mode ls) := by
  induction ls generalizing mode with
  | nil => rfl
  | cons line rest ih =>
      cases rest with
      | nil => rfl
      | cons next rest =>
          have hcut := (labelFrom_cut mode line (b := '\n' :: unlines (next :: rest)) rfl).1
          rw [labelFrom, step_afterLine, ih] at hcut
          exact hcut

/-! ## Modes -/

/-- The modes that a scanner shows at the line feeds of a text. -/
def feedModes (scan : List Step) : List Mode :=
  (scan.filter (·.cell.char == '\n')).map Step.mode

/-- Nothing is shown within a line, and the scanner goes on behind it. -/
lemma feedModes_append {cells : List Cell} {start stop : Cursor} {rest : List Char}
    (h : Reads start cells rest.head? stop) (hfeed : '\n' ∉ chars cells) (offset : Nat) :
    ∃ offset', feedModes (stepsFrom offset start (chars cells ++ rest))
      = feedModes (stepsFrom offset' stop rest) := by
  induction cells generalizing start offset with
  | nil =>
      obtain rfl := reads_nil.1 h
      exact ⟨offset, rfl⟩
  | cons cell cells ih =>
      obtain ⟨mid, hstep, hcells⟩ := h
      obtain ⟨hchar, hfeed⟩ := List.ne_and_not_mem_of_not_mem_cons hfeed
      obtain ⟨offset', hrest⟩ := ih hcells hfeed (offset + cell.char.utf8Size)
      refine ⟨offset', ?_⟩
      rw [nextChar_eq, ← List.head?_append] at hstep
      simp only [chars_cons, List.cons_append, stepsFrom, hstep]
      rw [← hrest, feedModes, feedModes, List.filter_cons_of_neg (by simpa using Ne.symm hchar)]

/-- **At the line feeds of a text the scanner shows the modes behind its lines.**  The last line has no
line feed. -/
lemma feedModes_unlines {ls : List (List Char)} (hls : ∀ line ∈ ls, '\n' ∉ line) (mode : Mode)
    (offset : Nat) :
    feedModes (stepsFrom offset (.ready mode) (unlines ls))
      = (scanLines mode ls).dropLast.map Prod.snd := by
  -- a line, whatever follows it
  have hline {line rest : List Char} (hfeed : '\n' ∉ line) (hrest : heeded rest.head? = none)
      (mode : Mode) (offset : Nat) :
      ∃ offset', feedModes (stepsFrom offset (.ready mode) (line ++ rest))
        = feedModes (stepsFrom offset' (.ready (modeAfter mode line)) rest) := by
    have hreads : Reads (.ready mode) (labelFrom (.ready mode) line) rest.head?
        (.ready (modeAfter mode line)) :=
      (reads_congr (hrest.trans heeded_none.symm)).2 (reads_modeAfter mode line)
    have happend := feedModes_append hreads (by rwa [chars_labelFrom]) offset
    rwa [chars_labelFrom] at happend
  induction ls generalizing mode offset with
  | nil => rfl
  | cons line rest ih =>
      obtain ⟨hfeed, hrest⟩ := List.forall_mem_cons.1 hls
      cases rest with
      | nil =>
          have hend : heeded ([] : List Char).head? = none := rfl
          obtain ⟨offset', hshown⟩ := hline hfeed hend mode offset
          rw [List.append_nil] at hshown
          exact hshown
      | cons next rest =>
          have hnext : heeded ('\n' :: unlines (next :: rest)).head? = none := rfl
          obtain ⟨offset', hshown⟩ := hline hfeed hnext mode offset
          have htext : unlines (line :: next :: rest) = line ++ '\n' :: unlines (next :: rest) := rfl
          rw [htext, hshown, stepsFrom, step_afterLine, feedModes, List.filter_cons_of_pos (by rfl),
            List.map_cons, ← feedModes, ih hrest]
          rfl

/-- **An indenter carries on the modes behind the lines.** -/
lemma Indenter.modes_run {s : Indenter} (hmode : s.mode ≠ .line) (ls : List (List Char)) :
    (Indenter.run s ls).map (·.2.mode) = (scanLines s.mode ls).map Prod.snd := by
  induction ls generalizing s with
  | nil => rfl
  | cons line rest ih =>
      have hline := line_mode hmode line
      have hrest := ih (hline ▸ scanLine_ne_line s.mode line)
      rw [hline] at hrest
      simp only [Indenter.run, scanLines, List.map_cons, hline, hrest]

/-! ## Texts and lines -/

/-- **Line by line and as a whole a text is scanned alike.**  The cells of its lines, joined by line feeds,
are the cells of the text; the modes behind its lines are those that the scanner of the text shows at
the line feeds, and those that an indenter carries on from line to line. -/
theorem scanLines_lines (unit : IndentUnit) (text : List Char) :
    label text = joinScanned (scanLines .code (lines text))
      ∧ feedModes (steps .code text) = (scanLines .code (lines text)).dropLast.map Prod.snd
      ∧ (Indenter.run { unit } (lines text)).map (·.2.mode)
          = (scanLines .code (lines text)).map Prod.snd := by
  have hlabel := labelFrom_unlines .code (lines text)
  have hfeeds : ∀ line ∈ lines text, '\n' ∉ line := fun _ => feed_notMem_of_mem_lines
  have hshown := feedModes_unlines hfeeds .code 0
  rw [unlines_lines] at hlabel hshown
  exact ⟨hlabel, hshown, Indenter.modes_run Mode.noConfusion (lines text)⟩

end SqfLayout.Pass
