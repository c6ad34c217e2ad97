import SqfLayout.Proofs.CommentBodies
import SqfLayout.Proofs.Content
import SqfLayout.Proofs.LineEnds

/-!
# The shape of a formatted text

**One line.**  The indenter keeps the ink of a line, so a line that is not blank stays so and has the
brackets that it had (`ink_fullLine`).  Its body ends in no white space if the line does not
(`getLast?_lineBody`).

**Blank lines.**  `Indenter.Behind s line` says what an indenter knows of the last line that it has kept:
whether that was blank or opened more brackets than it closed.  Every step keeps this up
(`Indenter.Behind.blankLine`, `Indenter.Behind.fullLine`), so a blank line never comes where it may not
(`Indenter.Behind.isChain`).

**Formatted texts.**  The lines of the result are a stretch of the lines that are kept
(`lines_indentLines`).  With `cleanEnds_textBefore` this gives `formatText_shape`.
-/

namespace SqfLayout.Pass

open SqfLayout.Text SqfLayout.Scan

/-! ## One line -/

lemma ink_lineBody (scanned : ScannedLine) : ink (lineBody scanned) = ink (chars scanned.cells) := by
  have hbody := (respaced_lineBody scanned).ink_eq_of fun _ _ => Squeezing.ink_eq
  rwa [ink_framed, ink_framed, ink_untabbed, eq_comm] at hbody

/-- **The indenter keeps the ink of a line.** -/
lemma ink_fullLine (s : Indenter) (line : List Char) : ink (s.fullLine line).1 = ink line := by
  obtain ⟨level, hplaced⟩ := exists_fullLine s line
  rw [hplaced, ink_append, ink_eq_nil (isSpace_indentation s.unit level), ink_lineBody, scanLine,
    chars_labelFrom, List.nil_append]

lemma isBare_fullLine (s : Indenter) (line : List Char) : isBare (s.fullLine line).1 = isBare line := by
  rw [Bool.eq_iff_iff, isBare_iff, isBare_iff, ink_fullLine]

/-- Squeezing leaves a last character that is no blank. -/
lemma getLast?_squeezeFrom {dropping : Bool} {cells : List Cell} {last : Cell}
    (hlast : cells.getLast? = some last) (hblank : isBlank last.char = false) :
    (squeezeFrom dropping cells).getLast? = some last.char := by
  have hcons {cell : Cell} {rest : List Cell} (h : (cell :: rest).getLast? = some last)
      (hcell : isBlank cell.char = true) : rest.getLast? = some last := by
    cases rest with
    | nil =>
        obtain rfl : cell = last := by simpa using h
        rw [hcell] at hblank
        contradiction
    | cons next rest => simpa [List.getLast?_cons_cons] using h
  fun_induction squeezeFrom dropping cells with
  | case1 dropping => simp at hlast
  | case2 dropping cell rest hdropping ih => exact ih (hcons hlast (Bool.and_eq_true_iff.1 hdropping).2)
  | case3 dropping cell rest _ hfirst ih =>
      simp only [Bool.and_eq_true] at hfirst
      rw [List.getLast?_cons, ih (hcons hlast hfirst.1.2)]
      rfl
  | case4 dropping cell rest _ _ ih =>
      cases rest with
      | nil =>
          obtain rfl : cell = last := by simpa using hlast
          rfl
      | cons next rest =>
          rw [List.getLast?_cons, ih (by simpa [List.getLast?_cons_cons] using hlast)]
          rfl

/-- **The body of a line ends in no white space** if the line does not. -/
lemma getLast?_lineBody {scanned : ScannedLine}
    (hclean : ∀ c ∈ (chars scanned.cells).getLast?, isSpace c = false) :
    ∀ c ∈ (lineBody scanned).getLast?, isSpace c = false := by
  have htrim := getLast?_trimCells scanned.cells
  have htrimmed : ∀ c ∈ (chars (trimCells scanned.cells)).getLast?, isSpace c = false := by
    intro c hc
    rw [chars, List.getLast?_map] at hc
    obtain ⟨cell, hcell, rfl⟩ := Option.mem_map.1 hc
    exact htrim cell hcell
  have hcode : ∀ c ∈ (if scanned.hasComment then dropTabs (trimCells scanned.cells)
      else squeezeFrom false (trimCells scanned.cells)).getLast?, isSpace c = false := by
    cases hlast : (trimCells scanned.cells).getLast? with
    | none =>
        rw [List.getLast?_eq_none_iff.1 hlast]
        split <;> simp [dropTabs, squeezeFrom]
    | some last =>
        have hink := htrim last hlast
        split
        · have htab : last.char ≠ '\t' := fun heq => by simp [heq, isSpace] at hink
          obtain ⟨init, hinit⟩ := List.getLast?_eq_some_iff.1 hlast
          simpa [hinit, dropTabs, htab] using hink
        · simpa [getLast?_squeezeFrom hlast (isBlank_of_isSpace_false hink)] using hink
  cases hposition : scanned.position with
  | inside => simpa [lineBody, hposition] using hclean
  | opens => simpa [lineBody, hposition] using htrimmed
  | closes => simpa [lineBody, hposition] using htrimmed
  | code => simpa only [lineBody, hposition] using hcode

/-- So does a line at its depth. -/
lemma getLast?_fullLine (s : Indenter) {line : List Char} (hfull : isBare line = false)
    (hclean : ∀ c ∈ line.getLast?, isSpace c = false) :
    ∀ c ∈ (s.fullLine line).1.getLast?, isSpace c = false := by
  obtain ⟨level, hplaced⟩ := exists_fullLine s line
  have hne : lineBody (scanLine s.mode line).1 ≠ [] := by
    intro hnil
    have hink := ink_fullLine s line
    rw [hplaced, hnil, List.append_nil, ink_eq_nil (isSpace_indentation s.unit level)] at hink
    rw [isBare_iff.2 hink.symm] at hfull
    contradiction
  rw [hplaced, List.getLast?_append_of_ne_nil _ hne]
  refine getLast?_lineBody ?_
  rwa [scanLine, chars_labelFrom]

/-- **No line that is kept ends in white space**, if none does at first. -/
lemma getLast?_indenterLines (s : Indenter) {ls : List (List Char)}
    (h : ∀ line ∈ ls, ∀ c ∈ line.getLast?, isSpace c = false) :
    ∀ placed ∈ s.lines ls, ∀ c ∈ placed.getLast?, isSpace c = false :=
  Indenter.forall_lines (by simp) (fun s _ hfull => getLast?_fullLine s hfull) s h

/-! ## Blank lines -/

/-- Whether a line has more opening than closing brackets and braces, whatever they belong to. -/
def opensMore (line : List Char) : Bool :=
  decide (line.count ']' + line.count '}' < line.count '[' + line.count '{')

/-- **Which lines may follow each other**: a blank one neither follows a blank one nor one that opens
more brackets than it closes. -/
def MayFollow (before line : List Char) : Prop :=
  isBare line = true → isBare before = false ∧ opensMore before = false

lemma opensMore_fullLine (s : Indenter) (line : List Char) :
    opensMore (s.fullLine line).1 = opensMore line := by
  have hcount {c : Char} (hc : isSpace c = false) : (s.fullLine line).1.count c = line.count c := by
    rw [← count_ink hc, ink_fullLine, count_ink hc]
  rw [opensMore, opensMore, hcount (by decide), hcount (by decide), hcount (by decide), hcount (by decide)]

/-- A line that opens more than it closes suppresses blank lines. -/
lemma fullLine_afterOpening (s : Indenter) {line : List Char} (h : opensMore line = true) :
    (s.fullLine line).2.afterOpening = true := by
  have hopening : DepthChange.of line = .opening := by
    rw [opensMore, decide_eq_true_eq] at h
    simp only [DepthChange.of, if_pos h]
  simp only [Indenter.fullLine, hopening]

/-- **What an indenter knows of the line that it has kept last.** -/
structure Indenter.Behind (s : Indenter) (line : List Char) : Prop where
  blank : isBare line = true → s.afterBlank = true
  opening : opensMore line = true → s.afterOpening = true

namespace Indenter.Behind

variable {s : Indenter} {last : List Char}

/-- A blank line is dropped, or may follow and is the last line then. -/
lemma blankLine (h : s.Behind last) :
    (∃ s', s.blankLine = (none, s') ∧ s'.Behind last)
      ∨ ∃ s', s.blankLine = (some [], s') ∧ s'.Behind [] ∧ MayFollow last [] := by
  rw [Indenter.blankLine]
  split
  · exact .inl ⟨s, rfl, h⟩
  · next hopening =>
      split
      · exact .inl ⟨{ s with afterBlank := true }, rfl, fun _ => rfl, h.opening⟩
      · next hblank =>
          refine .inr ⟨{ s with afterBlank := true }, rfl, ⟨fun _ => rfl, by simp [opensMore]⟩, fun _ => ?_⟩
          exact ⟨Bool.eq_false_iff.2 (mt h.blank hblank), Bool.eq_false_iff.2 (mt h.opening hopening)⟩

/-- A line that is not blank may follow any line, and is the last line then. -/
lemma fullLine (s : Indenter) {line : List Char} (hfull : isBare line = false) :
    (s.fullLine line).2.Behind (s.fullLine line).1 where
  blank hbare := by
    rw [isBare_fullLine, hfull] at hbare
    contradiction
  opening h := fullLine_afterOpening s (by rwa [opensMore_fullLine] at h)

/-- **Blank lines come only where they may.** -/
theorem isChain (h : s.Behind last) (ls : List (List Char)) : (last :: s.lines ls).IsChain MayFollow := by
  induction ls generalizing s last with
  | nil => exact .singleton last
  | cons line ls ih =>
      cases hbare : isBare line with
      | true =>
          simp only [Indenter.lines, Indenter.line, if_pos hbare]
          obtain ⟨s', hblank, hbehind⟩ | ⟨s', hblank, hbehind, hfollow⟩ := h.blankLine
          · rw [hblank]
            exact ih hbehind
          · rw [hblank]
            exact List.isChain_cons_cons.2 ⟨hfollow, ih hbehind⟩
      | false =>
          rw [s.lines_full hbare]
          refine List.isChain_cons_cons.2 ⟨fun hplaced => ?_, ih (fullLine s hbare)⟩
          rw [isBare_fullLine, hbare] at hplaced
          contradiction

end Indenter.Behind

/-! ## Formatted texts -/

/-- **The lines of an indented text are a stretch of the lines that are kept.** -/
lemma lines_indentLines (unit : IndentUnit) (text : List Char) :
    lines (indentLines unit text) = [[]]
      ∨ lines (indentLines unit text) <:+: Indenter.lines { unit } (lines text) := by
  obtain ⟨front, back, hkept, hfront, hback⟩ := exists_indentLines unit text
  by_cases hnil : Indenter.lines { unit } (lines text) = []
  · rw [hnil] at hkept
    have hempty : indentLines unit text = [] := by
      simpa using (List.append_eq_nil_iff.1 (List.append_eq_nil_iff.1 hkept.symm).2).1
    rw [hempty]
    exact .inl rfl
  · have hlines := lines_unlines hnil (feed_notMem_indenterLines _ fun _ => feed_notMem_of_mem_lines)
    rw [hkept, lines_feeds hfront, lines_append_feeds hback] at hlines
    exact .inr ⟨_, _, by rw [← hlines, List.append_assoc]⟩

end SqfLayout.Pass

namespace SqfLayout

open SqfLayout.Text SqfLayout.Scan SqfLayout.Pass

/-- **The shape of a formatted text.**  It neither starts nor ends with a line feed, a blank line follows
neither a blank line nor one that opens more brackets than it closes, and no line ends in white space. -/
theorem formatText_shape (style : Style) (text : List Char) :
    (formatText style .builtin text).head? ≠ some '\n'
      ∧ (formatText style .builtin text).getLast? ≠ some '\n'
      ∧ (lines (formatText style .builtin text)).IsChain MayFollow
      ∧ ∀ line ∈ lines (formatText style .builtin text), ∀ c ∈ line.getLast?, isSpace c = false := by
  have hclean : CleanEnds (textBefore style .builtin .indent text) none :=
    cleanEnds_textBefore
      (recased_spellWords fun word hword c hc => (builtin_plain word hword c hc).2) style text
  rw [formatText_eq_indentLines]
  generalize textBefore style .builtin .indent text = before at hclean
  have hends := getLast?_indenterLines { unit := style.indent } ((cleanEnds_iff before).1 hclean)
  -- before its first line an indenter is as behind a line that lets anything follow
  have hstart : Indenter.Behind { unit := style.indent } [';'] :=
    ⟨fun h => absurd h (by decide), fun h => absurd h (by decide)⟩
  have hchain := (hstart.isChain (lines before)).tail
  refine ⟨fun hfirst => ?_, fun hlast => ?_, ?_, ?_⟩
  · have hnot := List.head?_dropWhile_not (· == '\n')
      (dropEndWhile (· == '\n') (unlines (Indenter.lines { unit := style.indent } (lines before))))
    rw [indentLines] at hfirst
    rw [hfirst] at hnot
    simp at hnot
  · exact absurd (getLast?_dropEnds (· == '\n') _ '\n' hlast) (by decide)
  · rcases lines_indentLines style.indent before with hempty | hinside
    · rw [hempty]
      exact .singleton _
    · exact hchain.infix hinside
  · rcases lines_indentLines style.indent before with hempty | hinside
    · simp [hempty]
    · exact fun line hline => hends line (hinside.subset hline)

end SqfLayout
