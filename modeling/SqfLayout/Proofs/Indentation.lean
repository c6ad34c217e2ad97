import SqfLayout.Pass.Indent
import SqfLayout.Proofs.Movement

/-!
# What indentation changes

The last pass works line by line.  It squeezes runs of blanks, which `Squeezing` allows in addition to
spacing; on a line of code with a comment it takes the tabs outside literals away.  The latter may
run words together, so it is said apart: `withoutCommentTabs` is the text without those tabs, and the
pass is related to that text (`respaced_indentLines`).

**One line.**  `respaced_lineBody` for the body of a line, in a frame.

**All lines.**  What the indenter does with a line is said once, for a blank line in `Indenter.lines_bare`
and for any other in `Indenter.lines_full`.  `respaced_indenterLines` goes through the lines with the mode
that is carried along.  A blank line is not scanned, which makes no difference (`scanLine_of_bare`).
-/

namespace SqfLayout.Pass

open SqfLayout.Text SqfLayout.Scan

/-! ## Texts without tabs on commented lines -/

/-- A line without its tabs outside literals, if it is a line of code with a comment. -/
def untabbed (scanned : ScannedLine) : List Char :=
  if scanned.position == .code && scanned.hasComment then dropTabs scanned.cells
  else chars scanned.cells

/-- The lines without the tabs outside literals on commented lines of code. -/
def untabbedRows : Mode → List (List Char) → List (List Char)
  | _, [] => []
  | mode, line :: rest =>
    let (scanned, next) := scanLine mode line
    untabbed scanned :: untabbedRows next rest

/-- **A text without the tabs outside literals on its commented lines of code.** -/
def withoutCommentTabs (text : List Char) : List Char := unlines (untabbedRows .code (lines text))

/-! ## Squeezing -/

/-- A space in place of the first of two blanks. -/
lemma respaced_blanks {s t : Char} (hs : isBlank s = true) (ht : isBlank t = true) :
    Respaced Squeezing [s, t] [' ', t] :=
  .trans (.of (.blanks hs ht)) (.symm (.of (.blanks (by decide) ht)))

/-- While the rest of a run is being dropped, the space that stands for the run comes before the
text. -/
lemma respaced_squeezeFrom (dropping : Bool) (cells : List Cell) :
    Respaced Squeezing ((if dropping then [' '] else []) ++ chars cells)
      ((if dropping then [' '] else []) ++ squeezeFrom dropping cells) := by
  fun_induction squeezeFrom dropping cells with
  | case1 dropping => exact .refl _
  | case2 dropping cell rest hdropping ih =>
      simp only [Bool.and_eq_true] at hdropping
      obtain ⟨rfl, hblank⟩ := hdropping
      refine Respaced.trans ?_ ih
      exact (Respaced.of (Squeezing.blanks (by decide) hblank)).append_right (chars rest)
  | case3 dropping cell rest hkept hblank ih =>
      simp only [Bool.and_eq_true] at hblank hkept
      obtain ⟨⟨-, hcell⟩, hnext⟩ := hblank
      obtain rfl : dropping = false := by simpa [hcell] using hkept
      cases rest with
      | nil => simp at hnext
      | cons next rest =>
          refine Respaced.trans ?_ ih
          exact (respaced_blanks hcell (by simpa using hnext)).append_right (chars rest)
  | case4 dropping cell rest hkept hsingle ih =>
      exact Respaced.append_left _ (ih.cons cell.char)

/-! ## One line -/

lemma dropTabs_append (a b : List Cell) : dropTabs (a ++ b) = dropTabs a ++ dropTabs b := by
  rw [dropTabs, dropTabs, dropTabs, List.filter_append, chars_append]

lemma isSpace_of_mem_dropTabs {cells : List Cell} (h : AllSpace cells) :
    ∀ c ∈ dropTabs cells, isSpace c = true :=
  AllSpace.chars fun cell hcell => h cell (List.mem_filter.1 hcell).1

lemma isSpace_indentation (unit : IndentUnit) (level : Nat) :
    ∀ c ∈ unit.indentation level, isSpace c = true := by
  intro c hc
  obtain ⟨text, htext, hc⟩ := List.mem_flatten.1 hc
  obtain rfl := List.eq_of_mem_replicate htext
  have hunit : unit.text.all isSpace = true := by cases unit <;> decide
  exact List.all_eq_true.1 hunit c hc

lemma feed_notMem_indentation (unit : IndentUnit) (level : Nat) : '\n' ∉ unit.indentation level := by
  intro h
  obtain ⟨text, htext, hfeed⟩ := List.mem_flatten.1 h
  obtain rfl := List.eq_of_mem_replicate htext
  revert hfeed
  cases unit <;> decide

/-- **The body of a line is the line without its tabs**, up to squeezing and the white space at its
ends. -/
lemma respaced_lineBody (scanned : ScannedLine) :
    Respaced Squeezing (framed (untabbed scanned)) (framed (lineBody scanned)) := by
  obtain ⟨position, cells⟩ := scanned
  obtain ⟨front, back, hcells, hfront, hback⟩ := exists_trimCells cells
  have htrimmed : Respaced Squeezing (framed (chars cells)) (framed (chars (trimCells cells))) := by
    rw [chars_of_trimCells hcells]
    exact (Respaced.framed_ends hfront.chars hback.chars).squeezing
  cases position with
  | inside => exact .refl _
  | opens => exact htrimmed
  | closes => exact htrimmed
  | code =>
      simp only [untabbed, lineBody, beq_self_eq_true, Bool.true_and]
      split
      · have hdropped : dropTabs cells
            = dropTabs front ++ (dropTabs (trimCells cells) ++ dropTabs back) := by
          conv_lhs => rw [hcells]
          rw [dropTabs_append, dropTabs_append]
        rw [hdropped]
        exact (Respaced.framed_ends (isSpace_of_mem_dropTabs hfront)
          (isSpace_of_mem_dropTabs hback)).squeezing
      · refine htrimmed.trans (Respaced.framed ?_)
        simpa using respaced_squeezeFrom false (trimCells cells)

/-! ## All lines -/

lemma cursorAfter_of_bare {mode : Mode} (hmode : mode ≠ .line) {line : List Char}
    (hline : isBare line = true) : cursorAfter (.ready mode) line = .ready mode := by
  induction line with
  | nil => rfl
  | cons c rest ih =>
      simp only [isBare, List.all_cons, Bool.and_eq_true] at hline
      rw [cursorAfter, step_space hline.1 hmode]
      exact ih hline.2

lemma afterLine_ne_line (mode : Mode) : mode.afterLine ≠ .line := by cases mode <;> decide

lemma scanLine_ne_line (mode : Mode) (line : List Char) : (scanLine mode line).2 ≠ .line :=
  afterLine_ne_line _

/-- Scanning a blank line leaves the mode as it is. -/
lemma scanLine_of_bare {mode : Mode} (hmode : mode ≠ .line) {line : List Char}
    (hline : isBare line = true) : (scanLine mode line).2 = mode := by
  rw [scanLine, modeAfter, cursorAfter_of_bare hmode hline]
  cases mode with
  | line => exact absurd rfl hmode
  | _ => rfl

lemma isSpace_untabbed_of_bare (mode : Mode) {line : List Char} (hline : isBare line = true) :
    ∀ c ∈ untabbed (scanLine mode line).1, isSpace c = true := by
  have hcells : AllSpace (scanLine mode line).1.cells := by
    intro cell hcell
    have hchar : cell.char ∈ chars (labelFrom (.ready mode) line) := List.mem_map_of_mem hcell
    rw [chars_labelFrom] at hchar
    exact List.all_eq_true.1 hline _ hchar
  rw [untabbed]
  split
  · exact isSpace_of_mem_dropTabs hcells
  · exact hcells.chars

/-- A blank line changes neither the unit nor the depth nor the mode. -/
lemma blankLine_kept (s : Indenter) :
    s.blankLine.2.unit = s.unit ∧ s.blankLine.2.depth = s.depth ∧ s.blankLine.2.mode = s.mode := by
  rw [Indenter.blankLine]
  split <;> exact ⟨rfl, rfl, rfl⟩

/-- **A blank line is dropped or kept as an empty one.** -/
lemma Indenter.lines_bare (s : Indenter) {line : List Char} (hline : isBare line = true) (ls : List (List Char)) :
    s.lines (line :: ls) = s.blankLine.2.lines ls ∨ s.lines (line :: ls) = [] :: s.blankLine.2.lines ls := by
  simp only [Indenter.lines, Indenter.line, if_pos hline, Indenter.blankLine]
  cases s.afterOpening with
  | true => exact .inl rfl
  | false =>
      cases s.afterBlank with
      | true => exact .inl rfl
      | false => exact .inr rfl

/-- **Any other line is kept.** -/
lemma Indenter.lines_full (s : Indenter) {line : List Char} (hline : isBare line = false) (ls : List (List Char)) :
    s.lines (line :: ls) = (s.fullLine line).1 :: (s.fullLine line).2.lines ls := by
  simp [Indenter.lines, Indenter.line, hline]

/-- **What an empty line has and full lines keep, all lines that are kept have.** -/
lemma Indenter.forall_lines {P : List Char → Prop} (hempty : P [])
    (hfull : ∀ (s : Indenter) {line : List Char}, isBare line = false → P line → P (s.fullLine line).1)
    (s : Indenter) {ls : List (List Char)} (h : ∀ line ∈ ls, P line) : ∀ placed ∈ s.lines ls, P placed := by
  induction ls generalizing s with
  | nil => simp [Indenter.lines]
  | cons line ls ih =>
      obtain ⟨hline, hls⟩ := List.forall_mem_cons.1 h
      cases hbare : isBare line with
      | true =>
          rcases s.lines_bare hbare ls with hlines | hlines
          · rw [hlines]
            exact ih _ hls
          · rw [hlines]
            exact List.forall_mem_cons.2 ⟨hempty, ih _ hls⟩
      | false =>
          rw [s.lines_full hbare]
          exact List.forall_mem_cons.2 ⟨hfull s hbare hline, ih _ hls⟩

/-- The mode that an indenter carries on is the one behind the line. -/
lemma fullLine_mode (s : Indenter) (line : List Char) :
    (s.fullLine line).2.mode = (scanLine s.mode line).2 := by
  simp only [Indenter.fullLine]
  split <;> rfl

/-- So is the one behind any line: a blank line is not scanned, and would leave the mode as it is. -/
lemma line_mode {s : Indenter} (hmode : s.mode ≠ .line) (line : List Char) :
    (s.line line).2.mode = (scanLine s.mode line).2 := by
  simp only [Indenter.line]
  split
  · next hbare =>
      rw [scanLine_of_bare hmode hbare]
      exact (blankLine_kept s).2.2
  · exact fullLine_mode s line

/-- A line that is not blank is its body behind some indentation. -/
lemma exists_fullLine (s : Indenter) (line : List Char) :
    ∃ level, (s.fullLine line).1 = s.unit.indentation level ++ lineBody (scanLine s.mode line).1 := by
  simp only [Indenter.fullLine]
  split <;> exact ⟨_, rfl⟩

/-- **The lines that are kept make the text without its comment tabs**, up to squeezing: blank lines
that are dropped are white space behind a line feed. -/
lemma respaced_indenterLines (s : Indenter) (hmode : s.mode ≠ .line) (ls : List (List Char)) :
    Respaced Squeezing ('\n' :: rows (untabbedRows s.mode ls)) ('\n' :: rows (s.lines ls)) := by
  induction ls generalizing s with
  | nil => exact .refl _
  | cons line rest ih =>
      simp only [untabbedRows, rows_cons]
      cases hline : isBare line with
      | true =>
          rw [scanLine_of_bare hmode hline]
          have hspace := isSpace_untabbed_of_bare s.mode hline
          generalize untabbed (scanLine s.mode line).1 = bare at hspace ⊢
          have hgone : Respaced Squeezing ('\n' :: (bare ++ '\n' :: rows (untabbedRows s.mode rest)))
              ('\n' :: rows (untabbedRows s.mode rest)) := by
            have hfeed : Respaced Spacing ('\n' :: (bare ++ ['\n'])) ['\n'] :=
              .behind (by decide) (List.forall_mem_append.2 ⟨hspace, isSpace_feed⟩)
            simpa using hfeed.squeezing.append_right (rows (untabbedRows s.mode rest))
          refine hgone.trans ?_
          have hmode' := (blankLine_kept s).2.2
          have hrest := ih s.blankLine.2 (hmode' ▸ hmode)
          rw [hmode'] at hrest
          rcases s.lines_bare hline rest with hlines | hlines
          · rw [hlines]
            exact hrest
          · rw [hlines]
            have hfeed : Respaced Spacing ['\n'] ['\n', '\n'] :=
              .symm (.behind (by decide) isSpace_feed)
            exact hrest.trans (hfeed.squeezing.append_right _)
      | false =>
          obtain ⟨level, hplaced⟩ := exists_fullLine s line
          have hrest := ih (s.fullLine line).2
            (by rw [fullLine_mode]; exact scanLine_ne_line _ _)
          rw [fullLine_mode] at hrest
          rw [s.lines_full hline, hplaced, rows_cons]
          refine Respaced.rows_cons ((respaced_lineBody _).trans ?_) hrest
          have hindent (body : List Char) :
              Respaced Spacing (framed (s.unit.indentation level ++ (body ++ []))) (framed body) :=
            .framed_ends (isSpace_indentation s.unit level) (by simp)
          simpa using (hindent (lineBody (scanLine s.mode line).1)).symm.squeezing

/-- **The lines that are kept are the indented text between line feeds.** -/
lemma exists_indentLines (unit : IndentUnit) (text : List Char) :
    ∃ front back, unlines (Indenter.lines { unit } (lines text)) = front ++ (indentLines unit text ++ back)
      ∧ (∀ c ∈ front, c = '\n') ∧ ∀ c ∈ back, c = '\n' := by
  obtain ⟨front, back, hjoined, hfront, hback⟩ :=
    exists_dropEnds (· == '\n') (unlines (Indenter.lines { unit } (lines text)))
  exact ⟨front, back, hjoined, fun c hc => beq_iff_eq.1 (hfront c hc), fun c hc => beq_iff_eq.1 (hback c hc)⟩

lemma isSpace_of_feeds {w : List Char} (h : ∀ c ∈ w, c = '\n') : ∀ c ∈ w, isSpace c = true := by
  intro c hc
  rw [h c hc]
  decide

/-- **The indentation pass squeezes and moves white space**, on the text without its comment tabs. -/
theorem respaced_indentLines (unit : IndentUnit) (text : List Char) :
    Respaced Squeezing (framed (withoutCommentTabs text)) (framed (indentLines unit text)) := by
  have hrows := (Respaced.framed_unlines (untabbedRows .code (lines text))).squeezing.trans
    ((respaced_indenterLines { unit } Mode.noConfusion (lines text)).trans
      (Respaced.framed_unlines _).symm.squeezing)
  refine hrows.trans ?_
  obtain ⟨front, back, hjoined, hfront, hback⟩ := exists_indentLines unit text
  have hends (kept : List Char) :
      Respaced Spacing (framed (front ++ (kept ++ back))) (framed kept) :=
    .framed_ends (isSpace_of_feeds hfront) (isSpace_of_feeds hback)
  rw [hjoined]
  exact (hends _).squeezing

end SqfLayout.Pass
