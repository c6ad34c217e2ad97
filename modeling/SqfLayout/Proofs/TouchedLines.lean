import SqfLayout.Proofs.Replacements

/-!
# The lines that an edit touches

A selection names lines, and the edit that formats it replaces these lines and nothing else.

**Frame.**  The text before the first touched line and the text behind the last one are kept, and so are the
lines before and behind, whatever the touched text is replaced by (`Selected.lines_replaced`).  The line break
of the last touched line is kept as well: the range ends before it.  `formatRange_touches_lines` puts this
together for every selection.

**Numbers.**  `lineStart` and `lineEnd` are the offsets of a line by its number, and later lines end later
(`lineEnd_lt_lineEnd`).  A selection of whole lines stops at the line behind them, whose number is counted in
64 bits.  For the largest number that is line zero, so only the first of the lines is touched
(`snapToLines_lines`); this is the one case in which other lines are touched than were named
(`snapToLines_lines_iff`).
-/

namespace SqfLayout.Text

/-- The lines behind a text are lines of the whole. -/
lemma lines_append_unlines {after : List (List Char)} (hafter : ∀ line ∈ after, '\n' ∉ line)
    (text ending : List Char) :
    lines (text ++ unlines (ending :: after)) = lines (text ++ ending) ++ after := by
  cases after with
  | nil => simp [unlines, joinWith]
  | cons next after =>
      have hbreak : unlines (ending :: next :: after) = ending ++ '\n' :: unlines (next :: after) := rfl
      rw [hbreak, ← List.append_assoc, lines_append_feed, lines_unlines (by simp) hafter]

end SqfLayout.Text

namespace SqfLayout

open SqfLayout.Text

/-! ## Frame -/

section Frame

variable {selection : Selection} {document : List Char} {before mid after : List (List Char)}
  {content ending : List Char}

/-- **The lines before and behind a selection stay the same**, whatever replaces what it touches. -/
lemma Selected.lines_replaced (h : Selected selection document before mid (content ++ ending) after)
    (newText : List Char) :
    lines (rows before ++ (newText ++ unlines (ending :: after)))
      = before ++ (lines (newText ++ ending) ++ after) := by
  have hfeed : ∀ line ∈ before ++ (mid ++ (content ++ ending) :: after), '\n' ∉ line := by
    intro line hline
    rw [← h.division] at hline
    exact feed_notMem_of_mem_lines hline
  have hbefore : ∀ line ∈ before, '\n' ∉ line := fun line hline => hfeed line (by simp [hline])
  have hafter : ∀ line ∈ after, '\n' ∉ line := fun line hline => hfeed line (by simp [hline])
  rw [lines_rows_text hbefore, lines_append_unlines hafter]

end Frame

/-- **Formatting a selection touches the selected lines only.**  The range of the edit goes from the start of
a line to the end of the content of that line or a later one, before its line break; the text before and
behind the range is kept, and with it the lines before and behind the touched ones; and the edit is reported
to change nothing exactly if it changes nothing. -/
theorem formatRange_touches_lines (style : Style) (vocabulary : Vocabulary) (selection : Selection)
    (document : List Char) :
    ∃ start stop before mid content ending after,
      snapToLines document selection = (start, stop)
        ∧ (formatRange style vocabulary selection document).start = start
        ∧ (formatRange style vocabulary selection document).stop = stop
        ∧ start ≤ stop ∧ stop ≤ byteLength document
        ∧ IsBoundary start document ∧ IsBoundary stop document
        ∧ Selected selection document before mid (content ++ ending) after
        ∧ (ending = ['\r'] ∨ ending = [] ∧ content.getLast? ≠ some '\r')
        ∧ slice? 0 start document = some (rows before)
        ∧ slice? start stop document = some (rows mid ++ content)
        ∧ slice? stop (byteLength document) document = some (unlines (ending :: after))
        ∧ (formatRange style vocabulary selection document).apply document
            = rows before
              ++ ((formatRange style vocabulary selection document).newText ++ unlines (ending :: after))
        ∧ lines ((formatRange style vocabulary selection document).apply document)
            = before
              ++ (lines ((formatRange style vocabulary selection document).newText ++ ending) ++ after)
        ∧ ((formatRange style vocabulary selection document).isNoop document = true
            ↔ (formatRange style vocabulary selection document).apply document = document) := by
  obtain ⟨before, mid, line, after, hline⟩ := exists_selected selection document
  obtain ⟨ending, hcontent, hending⟩ := exists_lineContent line
  have hselected : Selected selection document before mid (lineContent line ++ ending) after := by
    rwa [← hcontent]
  have hparts := hselected.document_eq
  have hsnap := hline.snapToLines_eq
  have hstart : byteLength (rows before) = (formatRange style vocabulary selection document).start := by
    simp only [formatRange, hsnap]
  have hstop : byteLength (rows before) + byteLength (rows mid ++ lineContent line)
      = (formatRange style vocabulary selection document).stop := by
    simp only [formatRange, hsnap]
  generalize formatRange style vocabulary selection document = edit at hstart hstop ⊢
  have hfits := TextEdit.fits_of_parts hparts hstart hstop
  have happly := TextEdit.apply_of_parts hparts hstart hstop
  refine ⟨edit.start, edit.stop, before, mid, lineContent line, ending, after, ?_, rfl, rfl, hfits.order,
    hfits.stop.le, hfits.start, hfits.stop, hselected, ?_, ?_, ?_, ?_, happly, ?_, ?_⟩
  · rw [hsnap, hstop, hstart]
  · rcases hending with hreturn | ⟨hnil, hlast⟩
    · exact .inl hreturn
    · rw [lineContent_of_getLast? hlast]
      exact .inr ⟨hnil, hlast⟩
  · exact slice?_eq_some_iff.2 ⟨[], _, hparts, rfl, by simpa [byteLength] using hstart⟩
  · exact slice?_eq_some_iff.2 ⟨rows before, _, hparts, hstart, hstop⟩
  · refine slice?_eq_some_iff.2 ⟨rows before ++ (rows mid ++ lineContent line), [], ?_, ?_, ?_⟩
    · rw [List.append_nil, List.append_assoc, ← hparts]
    · rw [byteLength_append, hstop]
    · rw [← byteLength_append, List.append_assoc, ← hparts]
  · rw [happly, hselected.lines_replaced]
  · rw [TextEdit.isNoop_iff, hfits.apply_eq_self_iff]

/-! ## Numbers -/

/-- The offset at which a line starts, by its number. -/
def lineStart (document : List Char) (number : Nat) : Nat := byteLength (rows ((lines document).take number))

/-- The offset at which the content of a line ends, by its number. -/
def lineEnd (document : List Char) (number : Nat) : Nat :=
  lineStart document number + byteLength (lineContent ((lines document).getD number []))

lemma snapToLines_eq (document : List Char) (selection : Selection) :
    snapToLines document selection
      = (lineStart document (selection.firstOf (lines document).length),
          lineEnd document (selection.lastOf (lines document).length)) := by
  obtain ⟨before, mid, line, after, h⟩ := exists_selected selection document
  have hlast : lines document = (before ++ mid) ++ line :: after := by rw [h.division, List.append_assoc]
  rw [h.snapToLines_eq, ← h.first, ← h.last, lineEnd, lineStart, lineStart, ← List.length_append]
  rw [hlast, List.take_left, List.append_assoc, List.take_left, ← List.append_assoc]
  simp [rows, Nat.add_assoc]

lemma byteLength_lineContent_le (line : List Char) : byteLength (lineContent line) ≤ byteLength line := by
  obtain ⟨ending, hline, -⟩ := exists_lineContent line
  conv_rhs => rw [hline]
  simp

/-- A line ends before a later one starts. -/
lemma lineEnd_lt_lineStart {document : List Char} {i j : Nat} (hij : i < j) (hj : j < (lines document).length) :
    lineEnd document i < lineStart document j := by
  have hi : i < (lines document).length := by omega
  have hsplit : (lines document).take j
      = (lines document).take i ++ (lines document)[i] :: ((lines document).take j).drop (i + 1) := by
    have hlength : i < ((lines document).take j).length := by
      rw [List.length_take]
      omega
    have hdrop := List.drop_eq_getElem_cons hlength
    rw [List.getElem_take] at hdrop
    rw [← hdrop, ← Nat.min_eq_left hij.le, ← List.take_take, Nat.min_eq_left hij.le, List.take_append_drop]
  have hline : (lines document).getD i [] = (lines document)[i] := by
    rw [List.getD_eq_getElem?_getD, List.getElem?_eq_getElem hi, Option.getD_some]
  have hcontent := byteLength_lineContent_le (lines document)[i]
  have hfeed : ('\n').utf8Size = 1 := by decide
  rw [lineEnd, lineStart, lineStart, hsplit, hline]
  simp only [rows, List.flatMap_append, List.flatMap_cons, byteLength_append, byteLength, hfeed]
  omega

/-- **Later lines end later.** -/
lemma lineEnd_lt_lineEnd {document : List Char} {i j : Nat} (hij : i < j) (hj : j < (lines document).length) :
    lineEnd document i < lineEnd document j :=
  calc lineEnd document i < lineStart document j := lineEnd_lt_lineStart hij hj
    _ ≤ lineEnd document j := Nat.le_add_right _ _

lemma lineEnd_inj {document : List Char} {i j : Nat} (hi : i < (lines document).length)
    (hj : j < (lines document).length) : lineEnd document i = lineEnd document j ↔ i = j := by
  constructor
  · intro h
    rcases Nat.lt_trichotomy i j with hij | hij | hij
    · have hlt := lineEnd_lt_lineEnd hij hj
      omega
    · exact hij
    · have hlt := lineEnd_lt_lineEnd hij hi
      omega
  · rintro rfl
    rfl

/-- The last line of a selection of whole lines, unless it has the largest number. -/
lemma lastLine_lines (first last : UInt64) :
    (Selection.lines first last).lastLine.toNat
      = if max first.toNat last.toNat + 1 = UInt64.size then 0 else max first.toNat last.toNat := by
  have hfirst := first.toNat_lt_size
  have hlast := last.toNat_lt_size
  have hmax : (max last first).toNat = max first.toNat last.toNat := by
    show (if last ≤ first then first else last).toNat = _
    split_ifs with hle
    · have hle' := UInt64.le_iff_toNat_le.1 hle
      omega
    · have hlt := mt UInt64.le_iff_toNat_le.2 hle
      omega
  have hstop : (max last first + 1).toNat = (max first.toNat last.toNat + 1) % UInt64.size := by
    rw [UInt64.toNat_add, hmax]
    rfl
  by_cases hwrap : max first.toNat last.toNat + 1 = UInt64.size
  · -- the number of the line behind is zero, so the selection ends before it starts
    have hzero : max last first + 1 = 0 := by
      refine UInt64.toNat_inj.1 ?_
      rw [hstop, hwrap, Nat.mod_self]
      rfl
    have hline : (Selection.lines first last).lastLine = max last first + 1 := by
      refine if_neg ?_
      rw [Bool.and_eq_true, decide_eq_true_eq, not_and]
      intro _
      show ¬ first < max last first + 1
      rw [hzero]
      exact UInt64.not_lt_zero
    rw [if_pos hwrap, hline, hzero]
    rfl
  · have hbehind : first < max last first + 1 := by
      rw [UInt64.lt_iff_toNat_lt, hstop, Nat.mod_eq_of_lt (by omega)]
      omega
    have hline : (Selection.lines first last).lastLine = max last first + 1 - 1 := by
      refine if_pos ?_
      rw [Bool.and_eq_true, decide_eq_true_eq]
      exact ⟨rfl, hbehind⟩
    rw [if_neg hwrap, hline, UInt64.add_sub_cancel, hmax]

/-- A selection of whole lines touches the lines from the first to the last, but only the first one if the
last has the largest number that there is. -/
lemma snapToLines_lines (document : List Char) (first last : UInt64) :
    snapToLines document (.lines first last)
      = (lineStart document (min first.toNat ((lines document).length - 1)),
          lineEnd document
            (min (if last.toNat + 1 = UInt64.size then first.toNat else max first.toNat last.toNat)
              ((lines document).length - 1))) := by
  have hfirst := first.toNat_lt_size
  have hlast := last.toNat_lt_size
  have hstart : (Selection.lines first last).start.line = first := rfl
  rw [snapToLines_eq, Selection.lastOf, Selection.firstOf, lastLine_lines, hstart]
  congr 2
  split_ifs <;> omega

/-- **A selection of whole lines touches the lines that it names**, from the first one through the last one,
if the document has them.  The last line with the largest number is the exception: then only the first line is
touched, and that is wrong unless the document has no line behind it. -/
theorem snapToLines_lines_iff (document : List Char) (first last : UInt64) :
    snapToLines document (.lines first last)
        = (lineStart document (min first.toNat ((lines document).length - 1)),
            lineEnd document
              (min (if last.toNat + 1 = UInt64.size then first.toNat else max first.toNat last.toNat)
                ((lines document).length - 1)))
      ∧ (snapToLines document (.lines first last)
            = (lineStart document (min first.toNat ((lines document).length - 1)),
                lineEnd document (min (max first.toNat last.toNat) ((lines document).length - 1)))
          ↔ ¬ (last.toNat + 1 = UInt64.size ∧ first.toNat < last.toNat
              ∧ first.toNat + 1 < (lines document).length)) := by
  have hpos : 0 < (lines document).length := List.length_pos_iff.2 (splitWhen_ne_nil _ document)
  have hfirst := first.toNat_lt_size
  refine ⟨snapToLines_lines document first last, ?_⟩
  rw [snapToLines_lines, Prod.mk.injEq, lineEnd_inj (by omega) (by omega)]
  split_ifs <;> omega

/-- Of two lines that are selected with the largest number, one is touched. -/
theorem snapToLines_lines_largest :
    snapToLines ['a', '\n', 'b'] (.lines 0 18446744073709551615)
      ≠ (lineStart ['a', '\n', 'b'] (min (0 : UInt64).toNat ((lines ['a', '\n', 'b']).length - 1)),
          lineEnd ['a', '\n', 'b']
            (min (max (0 : UInt64).toNat (18446744073709551615 : UInt64).toNat)
              ((lines ['a', '\n', 'b']).length - 1))) := by
  decide

end SqfLayout
