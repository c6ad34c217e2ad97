import Mathlib.Data.List.Basic
import SqfLayout.Edit
import SqfLayout.Proofs.Pieces

/-!
# Selected lines

An edit is a range of bytes, and a selection is given by the numbers of lines.  Here both are read as a
division of the document.

**Offsets.**  The length of a part of a text is the offset behind it (`splitAtByte?_append`), so an edit
whose range is a part of a document replaces that part (`TextEdit.apply_parts`).

**Lines.**  `Selected` divides the lines of a document at the lines that a selection touches.  Such a
division exists (`exists_selected`) and cuts the document (`Selected.document_eq`), and formatting the
selection replaces the text of the touched lines, up to the line break of the last one
(`Selected.apply_formatRange`).
-/

namespace SqfLayout.Text

/-! ## Offsets -/

@[simp] lemma byteLength_append (a b : List Char) : byteLength (a ++ b) = byteLength a + byteLength b := by
  induction a with
  | nil => simp [byteLength]
  | cons c a ih => simp only [List.cons_append, byteLength, ih, Nat.add_assoc]

/-- **The length of a part is the offset behind it.** -/
lemma splitAtByte?_append (a b : List Char) : splitAtByte? (byteLength a) (a ++ b) = some (a, b) := by
  induction a with
  | nil =>
      rw [byteLength, List.nil_append]
      cases b <;> rfl
  | cons c a ih =>
      have hpos := c.utf8Size_pos
      obtain ⟨n, hn⟩ : ∃ n, c.utf8Size + byteLength a = n + 1 :=
        ⟨c.utf8Size + byteLength a - 1, by omega⟩
      have hle : c.utf8Size ≤ n + 1 := by omega
      have hrest : n + 1 - c.utf8Size = byteLength a := by omega
      rw [byteLength, hn, List.cons_append, splitAtByte?, if_pos hle, hrest, ih, Option.map_some]

lemma slice?_append (front mid back : List Char) :
    slice? (byteLength front) (byteLength front + byteLength mid) (front ++ (mid ++ back)) = some mid := by
  rw [slice?, if_pos (Nat.le_add_right _ _), splitAtByte?_append, Option.bind_some, Nat.add_sub_cancel_left,
    splitAtByte?_append, Option.map_some]

end SqfLayout.Text

namespace SqfLayout

open SqfLayout.Text

/-- **An edit replaces the part that is its range.** -/
lemma TextEdit.apply_parts (front mid back newText : List Char) :
    TextEdit.apply ⟨byteLength front, byteLength front + byteLength mid, newText⟩ (front ++ (mid ++ back))
      = front ++ (newText ++ back) := by
  have hstop := splitAtByte?_append (front ++ mid) back
  rw [byteLength_append, List.append_assoc] at hstop
  simp only [TextEdit.apply, byteLength_append]
  rw [Nat.min_eq_left (by omega : byteLength front + byteLength mid
      ≤ byteLength front + (byteLength mid + byteLength back)), Nat.min_eq_left (Nat.le_add_right _ _),
    splitAtByte?_append, hstop]
  simp

/-! ## Lines -/

/-- The range of a line starts behind the lines before it. -/
lemma getElem?_lineRangesFrom (start : Nat) (before : List (List Char)) (line : List Char)
    (after : List (List Char)) :
    (lineRangesFrom start (before ++ line :: after))[before.length]?
      = some (start + byteLength (rows before),
          start + byteLength (rows before) + byteLength (lineContent line)) := by
  induction before generalizing start with
  | nil => rfl
  | cons first before ih =>
      have hfirst : byteLength (rows (first :: before)) = byteLength first + 1 + byteLength (rows before) := by
        have hfeed : ('\n').utf8Size = 1 := by decide
        rw [rows_cons, byteLength_append, byteLength, hfeed, Nat.add_assoc]
      rw [List.cons_append, lineRangesFrom, List.length_cons, List.getElem?_cons_succ, ih, hfirst]
      simp only [Nat.add_assoc]

lemma length_lineRangesFrom (start : Nat) (ls : List (List Char)) :
    (lineRangesFrom start ls).length = ls.length := by
  induction ls generalizing start with
  | nil => rfl
  | cons line ls ih => rw [lineRangesFrom, List.length_cons, List.length_cons, ih]

/-- A line is its content and at most a carriage return. -/
lemma exists_lineContent (line : List Char) :
    ∃ ending, line = lineContent line ++ ending
      ∧ (ending = ['\r'] ∨ ending = [] ∧ line.getLast? ≠ some '\r') := by
  rw [lineContent]
  split
  · next hlast =>
      obtain ⟨init, rfl⟩ := List.getLast?_eq_some_iff.1 (beq_iff_eq.1 hlast)
      exact ⟨['\r'], by simp, .inl rfl⟩
  · next hlast => exact ⟨[], by simp, .inr ⟨rfl, by simpa using hlast⟩⟩

lemma lineContent_of_getLast? {line : List Char} (h : line.getLast? ≠ some '\r') : lineContent line = line := by
  rw [lineContent, if_neg (by simpa using h)]

lemma lineContent_append_return (line : List Char) : lineContent (line ++ ['\r']) = line := by
  simp [lineContent]

/-- The first line that a selection touches in a document of so many lines. -/
def Selection.firstOf (selection : Selection) (count : Nat) : Nat :=
  min selection.start.line.toNat (count - 1)

/-- The last line that a selection touches in a document of so many lines. -/
def Selection.lastOf (selection : Selection) (count : Nat) : Nat :=
  max (selection.firstOf count) (min selection.lastLine.toNat (count - 1))

/-- **The lines of a document at a selection**: those before it, those that it touches, the last of them
on its own, and those behind it. -/
structure Selected (selection : Selection) (document : List Char) (before mid : List (List Char))
    (line : List Char) (after : List (List Char)) : Prop where
  division : lines document = before ++ (mid ++ line :: after)
  first : before.length = selection.firstOf (lines document).length
  last : before.length + mid.length = selection.lastOf (lines document).length

lemma exists_selected (selection : Selection) (document : List Char) :
    ∃ before mid line after, Selected selection document before mid line after := by
  have hpos : 0 < (lines document).length := List.length_pos_iff.2 (splitWhen_ne_nil _ document)
  have hle : selection.firstOf (lines document).length ≤ selection.lastOf (lines document).length :=
    Nat.le_max_left _ _
  have hlt : selection.lastOf (lines document).length < (lines document).length := by
    simp only [Selection.lastOf, Selection.firstOf]
    omega
  generalize hfirst : selection.firstOf (lines document).length = first at hle
  generalize hlast : selection.lastOf (lines document).length = last at hle hlt
  refine ⟨(lines document).take first, ((lines document).drop first).take (last - first),
    (lines document)[last], (lines document).drop (last + 1), ?_, ?_, ?_⟩
  · have hmid : (lines document).drop first
        = ((lines document).drop first).take (last - first) ++ (lines document).drop last := by
      conv_lhs => rw [← List.take_append_drop (last - first) ((lines document).drop first)]
      rw [List.drop_drop, Nat.add_sub_cancel' hle]
    rw [← List.drop_eq_getElem_cons hlt, ← hmid, List.take_append_drop]
  · rw [hfirst, List.length_take]
    omega
  · rw [hlast, List.length_take, List.length_take, List.length_drop]
    omega

namespace Selected

variable {selection : Selection} {document : List Char} {before mid after : List (List Char)}
  {line : List Char}

/-- **A document is cut at a selection**: the lines before it, the text that it touches, and the rest of the
last line with the lines behind it. -/
lemma document_eq {content ending : List Char}
    (h : Selected selection document before mid (content ++ ending) after) :
    document = rows before ++ ((rows mid ++ content) ++ unlines (ending :: after)) := by
  calc document = unlines (before ++ (mid ++ (content ++ ending) :: after)) := by
        rw [← h.division, unlines_lines]
    _ = rows before ++ (rows mid ++ unlines ((content ++ ending) :: after)) := by
        rw [← List.append_assoc, unlines_append_cons]
        simp [rows]
    _ = rows before ++ ((rows mid ++ content) ++ unlines (ending :: after)) := by
        rw [unlines_append_head, List.append_assoc]

/-- The text that a selection touches is a part of the document. -/
lemma exists_back (h : Selected selection document before mid line after) :
    ∃ back, document = rows before ++ ((rows mid ++ lineContent line) ++ back) := by
  obtain ⟨ending, hline, -⟩ := exists_lineContent line
  have hselected : Selected selection document before mid (lineContent line ++ ending) after := by
    rwa [← hline]
  exact ⟨_, hselected.document_eq⟩

lemma snapToLines_eq (h : Selected selection document before mid line after) :
    snapToLines document selection
      = (byteLength (rows before), byteLength (rows before) + byteLength (rows mid ++ lineContent line)) := by
  have hfinal : (lineRanges document).length = (lines document).length := length_lineRangesFrom _ _
  have hfirst : (lineRanges document)[before.length]?.map Prod.fst = some (byteLength (rows before)) := by
    rw [lineRanges, h.division]
    cases mid with
    | nil => rw [List.nil_append, getElem?_lineRangesFrom, Option.map_some, Nat.zero_add]
    | cons first mid => rw [List.cons_append, getElem?_lineRangesFrom, Option.map_some, Nat.zero_add]
  have hlast : (lineRanges document)[before.length + mid.length]?.map Prod.snd
      = some (byteLength (rows before) + byteLength (rows mid ++ lineContent line)) := by
    rw [lineRanges, h.division, ← List.append_assoc, ← List.length_append, getElem?_lineRangesFrom,
      Option.map_some, Nat.zero_add, byteLength_append, rows, List.flatMap_append, byteLength_append,
      Nat.add_assoc]
    rfl
  simp only [snapToLines]
  rw [hfinal, ← Selection.firstOf, ← Selection.lastOf, ← h.first, ← h.last]
  obtain ⟨range, hrange, hstart⟩ := Option.map_eq_some_iff.1 hfirst
  obtain ⟨range', hrange', hstop⟩ := Option.map_eq_some_iff.1 hlast
  rw [hrange, hrange', Option.getD_some, Option.getD_some, hstart, hstop]

/-- **Formatting a selection replaces the text that it touches** by the formatted text. -/
theorem apply_formatRange (h : Selected selection document before mid line after) {back : List Char}
    (hback : document = rows before ++ ((rows mid ++ lineContent line) ++ back)) (style : Style)
    (vocabulary : Vocabulary) :
    (formatRange style vocabulary selection document).apply document
      = rows before
        ++ (withLineEndingsOf document (formatText style vocabulary (rows mid ++ lineContent line)) ++ back) := by
  have hslice : slice? (byteLength (rows before))
      (byteLength (rows before) + byteLength (rows mid ++ lineContent line)) document
        = some (rows mid ++ lineContent line) := by
    conv_lhs => rw [hback]
    exact slice?_append _ _ _
  simp only [formatRange, h.snapToLines_eq, hslice, Option.getD_some]
  conv_lhs => arg 2; rw [hback]
  exact TextEdit.apply_parts _ _ _ _

end Selected

end SqfLayout
