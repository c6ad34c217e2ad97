import SqfLayout.Proofs.FinalBreaks
import SqfLayout.Proofs.LineEndings

/-!
# Selecting a whole document

A selection of the whole document leaves the final line break alone, and formatting the document restores
it, so both give the same (`formatRange_all`).

**The lines of such a selection.**  Its last line is the last of the document, or the one before an empty
last line (`Selected.after_eq`).  In the second case the text that is formatted lacks the final line
break, of which formatting makes nothing (`formatText_append_break`).

**What is put back.**  The line break that the document ends with, if anything is left of it
(`formatText_ne_nil`, `restoreLineEndings_break`).
-/

namespace SqfLayout

open SqfLayout.Text SqfLayout.Scan SqfLayout.Pass

/-! ## Texts that hold anything -/

/-- What is left of a text that holds anything is not empty. -/
lemma formatText_ne_nil {vocabulary : Vocabulary}
    (hspell : ∀ text, List.Forall₂ Recased text (spellWords vocabulary text)) (style : Style)
    {text : List Char} (h : ink text ≠ []) : formatText style vocabulary text ≠ [] := by
  have hkept : ink text ≠ [] → ink (formatText style vocabulary text) ≠ [] := by
    refine runPasses_rel (R := fun a b => ink a ≠ [] → ink b ≠ []) (fun _ => id)
      (fun _ _ _ hab hbc ha => hbc (hab ha)) (fun pass _ t ht => ?_) text
    by_cases hpass : pass = .spelling
    · subst hpass
      have hink : List.Forall₂ Recased (ink t) (ink (spellWords vocabulary t)) :=
        List.rel_filter (fun a b h => by simp [h.isSpace_eq]) (hspell t)
      intro hnil
      have hlength := hink.length_eq
      rw [LayoutPass.apply] at hnil
      rw [hnil] at hlength
      exact ht (List.length_eq_zero_iff.1 hlength)
    · obtain ⟨kept, hdropped, hsame⟩ := rewritten_apply (R := Eq) (fun _ => rfl) style vocabulary hpass t
      rw [List.forall₂_eq_eq_eq] at hsame
      rw [← hsame]
      intro hnil
      have hhead := hdropped.head
      rw [hnil] at hhead
      exact ht (List.head?_eq_none_iff.1 hhead)
  intro hnil
  exact hkept h (by rw [hnil]; rfl)

/-! ## Selections of everything -/

/-- **A selection of a whole document**: from its start to the end of its last line.  In whatever units the
length of that line is counted, it is zero for an empty line only. -/
structure Selection.Covers (selection : Selection) (document : List Char) : Prop where
  start : selection.start = ⟨0, 0⟩
  line : selection.stop.line.toNat + 1 = (Text.lines document).length
  character : ∀ last ∈ (Text.lines document).getLast?, selection.stop.character = 0 ↔ last = []

/-- Formatting a whole document replaces it. -/
lemma apply_formatDocument (style : Style) (vocabulary : Vocabulary) (document : List Char) :
    (formatDocument style vocabulary document).apply document
      = restoreLineEndings document (formatText style vocabulary document) := by
  have hparts := TextEdit.apply_parts [] document []
    (restoreLineEndings document (formatText style vocabulary document))
  simpa [byteLength, formatDocument] using hparts

section Covers

variable {selection : Selection} {document : List Char} {before mid after : List (List Char)}
  {line : List Char}

/-- Nothing comes before the lines of such a selection. -/
lemma Selected.before_eq_nil (h : Selected selection document before mid line after)
    (hcovers : selection.Covers document) : before = [] := by
  refine List.length_eq_zero_iff.1 ?_
  rw [h.first, Selection.firstOf, hcovers.start]
  exact Nat.zero_min _

/-- Behind them comes an empty last line, and nothing else. -/
lemma Selected.after_eq (h : Selected selection document before mid line after)
    (hcovers : selection.Covers document) (hne : document ≠ []) :
    after = [] ∧ line ≠ [] ∨ after = [[]] := by
  obtain rfl := h.before_eq_nil hcovers
  have hdivision := h.division
  have hlength := congrArg List.length hdivision
  have hlast := h.last
  have hline := hcovers.line
  simp only [List.nil_append, List.length_append, List.length_cons, List.length_nil, Nat.zero_add]
    at hdivision hlength hlast
  obtain ⟨init, last, hconcat⟩ := (List.eq_nil_or_concat' (lines document)).resolve_left (splitWhen_ne_nil _ _)
  have hcharacter := hcovers.character last (by rw [hconcat]; simp)
  have hfirst : selection.firstOf (lines document).length = 0 := by rw [← h.first]; rfl
  rw [Selection.lastOf, hfirst, Selection.lastLine, hcovers.start] at hlast
  by_cases hempty : last = []
  · -- the selection stops at the start of the empty last line
    subst hempty
    have hpos : 0 < selection.stop.line.toNat := by
      rcases Nat.eq_zero_or_pos selection.stop.line.toNat with hzero | hpos
      · rw [hzero, hconcat] at hline
        have hinit : init = [] := by simpa using hline
        rw [hinit] at hconcat
        exact absurd (by rw [← unlines_lines document, hconcat]; rfl) hne
      · exact hpos
    have hlt : (0 : UInt64) < selection.stop.line := UInt64.lt_iff_toNat_lt.2 hpos
    have hone : (selection.stop.line - 1).toNat = selection.stop.line.toNat - 1 :=
      UInt64.toNat_sub_of_le _ _ (UInt64.le_iff_toNat_le.2 hpos)
    rw [hcharacter.2 rfl] at hlast
    simp only [beq_self_eq_true, hlt, decide_true, Bool.and_self, if_true, hone] at hlast
    have hafter : after.length = 1 := by omega
    obtain ⟨next, rfl⟩ := List.length_eq_one_iff.1 hafter
    have hsame : (mid ++ [line]) ++ [next] = init ++ [[]] := by
      rw [← hconcat, hdivision]
      simp
    obtain ⟨-, hnext⟩ := List.append_inj' hsame rfl
    exact .inr hnext
  · have hzero : (selection.stop.character == 0) = false := by
      rw [beq_eq_false_iff_ne]
      exact mt hcharacter.1 hempty
    simp only [hzero, Bool.false_and, Bool.false_eq_true, if_false] at hlast
    have hafter : after.length = 0 := by omega
    obtain rfl := List.length_eq_zero_iff.1 hafter
    obtain ⟨-, hsame⟩ := List.append_inj' (hdivision.symm.trans hconcat) rfl
    obtain rfl : line = last := by simpa using hsame
    exact .inl ⟨rfl, hempty⟩

/-- The line break that formatting restores is the one behind the touched text. -/
lemma restoreLineEndings_break {touched ending formatted : List Char}
    (hending : ending = ['\r'] ∨ ending = [] ∧ touched.getLast? ≠ some '\r') (hne : formatted ≠ []) :
    restoreLineEndings (touched ++ (ending ++ ['\n'])) formatted
      = withLineEndingsOf (touched ++ (ending ++ ['\n'])) formatted ++ (ending ++ ['\n']) := by
  have hempty : formatted.isEmpty = false := by simpa using hne
  rcases hending with rfl | ⟨rfl, hlast⟩
  · have hends : endsWith (touched ++ ['\r', '\n']) ['\r', '\n'] = true :=
      endsWith_iff.2 (List.suffix_append _ _)
    simp [restoreLineEndings, hempty, hends]
  · have hends : endsWith (touched ++ ['\n']) ['\n'] = true := endsWith_iff.2 (List.suffix_append _ _)
    have hnot : endsWith (touched ++ ['\n']) ['\r', '\n'] = false := by
      refine Bool.eq_false_iff.2 fun hsuffix => hlast ?_
      obtain ⟨front, hfront⟩ := endsWith_iff.1 hsuffix
      have hsame : (front ++ ['\r']) ++ ['\n'] = touched ++ ['\n'] := by simpa using hfront
      rw [← (List.append_inj' hsame rfl).1]
      simp
    simp [restoreLineEndings, hempty, hends, hnot]

/-- Where no line break is, none is restored. -/
lemma restoreLineEndings_of_getLast? (hlast : document.getLast? ≠ some '\n') (formatted : List Char) :
    restoreLineEndings document formatted = withLineEndingsOf document formatted := by
  have hnot (ending : List Char) (hending : ending.getLast? = some '\n') : endsWith document ending = false := by
    refine Bool.eq_false_iff.2 fun hsuffix => hlast ?_
    obtain ⟨front, rfl⟩ := endsWith_iff.1 hsuffix
    simp [List.getLast?_append, hending]
  simp [restoreLineEndings, hnot ['\r', '\n'] rfl, hnot ['\n'] rfl]

/-- A carriage return and a line feed behind a line do not change what formatting makes of the text. -/
lemma formatText_append_break {vocabulary : Vocabulary} {ending : List Char}
    (hspell : ∀ text, spellWords vocabulary (text ++ ['\n']) = spellWords vocabulary text ++ ['\n'])
    (hending : ending = ['\r'] ∨ ending = []) (style : Style) (text : List Char) :
    formatText style vocabulary (text ++ (ending ++ ['\n'])) = formatText style vocabulary text := by
  have hbreak (text : List Char) : (lines (text ++ ['\n'])).map trimEnd = (lines text).map trimEnd ++ [[]] := by
    rw [lines_append_feed, List.map_append]
    rfl
  have hlines : (lines (text ++ ending)).map trimEnd = (lines text).map trimEnd := by
    rcases hending with rfl | rfl
    · obtain ⟨init, last, rfl, hinit, hlast⟩ := exists_rows_append text
      have hreturn : '\n' ∉ last ++ ['\r'] := by simpa using hlast
      rw [List.append_assoc, lines_rows_append hinit hreturn, lines_rows_append hinit hlast, List.map_append,
        List.map_append, List.map_singleton, List.map_singleton, trimEnd_append_return]
    · rw [List.append_nil]
  rw [← formatText_append_feed hspell style text]
  refine formatText_congr style vocabulary (stripMargins_congr ?_)
  rw [← List.append_assoc, hbreak, hbreak, hlines]

end Covers

lemma builtin_append_feed (text : List Char) :
    spellWords .builtin (text ++ ['\n']) = spellWords .builtin text ++ ['\n'] := by
  refine spellWords_append_feed (fun word hword c hc => ?_) text
  obtain ⟨hlow, hascii⟩ := builtin_plain word hword c hc
  exact forall_ascii (P := fun c => 48 ≤ c.toNat → foldCase c ≠ '\n') (by decide +kernel) hascii hlow

section All

variable {selection : Selection} {document : List Char} {mid : List (List Char)} {line : List Char} (style : Style)

/-- A document that ends with the last line that is touched. -/
lemma Selected.apply_formatRange_last (h : Selected selection document [] mid line []) (hline : line ≠ [])
    (hend : document.getLast? ≠ some '\r') :
    (formatRange style .builtin selection document).apply document
      = restoreLineEndings document (formatText style .builtin document) := by
  have htext : rows mid ++ line = document := by
    rw [← unlines_lines document, h.division, List.nil_append, unlines_append_cons]
    rfl
  have hlast : document.getLast? = line.getLast? := by
    rw [← htext]
    exact List.getLast?_append_of_ne_nil _ hline
  have hcontent : lineContent line = line := lineContent_of_getLast? (hlast ▸ hend)
  have hback : document = rows [] ++ ((rows mid ++ lineContent line) ++ []) := by
    rw [hcontent, htext]
    simp
  have hfeed : document.getLast? ≠ some '\n' := by
    have hmem : line ∈ lines document := by simp [h.division]
    rw [hlast]
    exact fun hfeed => feed_notMem_of_mem_lines hmem (List.mem_of_getLast? hfeed)
  rw [h.apply_formatRange hback, restoreLineEndings_of_getLast? hfeed, hcontent, htext]
  simp

/-- A document that ends with a line break: the touched text lacks it. -/
lemma Selected.apply_formatRange_break (h : Selected selection document [] mid line [[]]) (hink : ink document ≠ []) :
    (formatRange style .builtin selection document).apply document
      = restoreLineEndings document (formatText style .builtin document) := by
  obtain ⟨ending, hline, hending⟩ := exists_lineContent line
  have hparts : document = (rows mid ++ lineContent line) ++ (ending ++ ['\n']) := by
    have hlast : unlines [line, []] = line ++ ['\n'] := rfl
    conv_lhs => rw [← unlines_lines document, h.division, List.nil_append, unlines_append_cons, hlast, hline]
    simp
  have hback : document = rows [] ++ ((rows mid ++ lineContent line) ++ (ending ++ ['\n'])) := hparts
  have hbreak : ending = ['\r'] ∨ ending = [] ∧ (rows mid ++ lineContent line).getLast? ≠ some '\r' := by
    refine hending.imp_right fun ⟨hnil, hlast⟩ => ⟨hnil, ?_⟩
    rw [lineContent_of_getLast? hlast, List.getLast?_append]
    intro hreturn
    rcases Option.or_eq_some_iff.1 hreturn with hsame | ⟨-, hsame⟩
    · exact hlast hsame
    · exact absurd (eq_feed_of_mem_getLast?_rows hsame) (by decide)
  have hformat : formatText style .builtin document
      = formatText style .builtin (rows mid ++ lineContent line) := by
    conv_lhs => rw [hparts]
    exact formatText_append_break builtin_append_feed (hending.imp_right And.left) style _
  have hkept : formatText style .builtin document ≠ [] :=
    formatText_ne_nil
      (recased_spellWords fun word hword c hc => (builtin_plain word hword c hc).2) style hink
  have hrestored := restoreLineEndings_break hbreak hkept
  rw [← hparts] at hrestored
  rw [h.apply_formatRange hback, hrestored, hformat]
  rfl

end All

/-- **Selecting everything is formatting the document**, for a document that holds anything and does not
end in a carriage return. -/
theorem formatRange_all (style : Style) {selection : Selection} {document : List Char}
    (hcovers : selection.Covers document) (hink : ∃ c ∈ document, isSpace c = false)
    (hend : document.getLast? ≠ some '\r') :
    (formatRange style .builtin selection document).apply document
      = (formatDocument style .builtin document).apply document := by
  have hne : ink document ≠ [] := by
    obtain ⟨c, hc, hspace⟩ := hink
    exact List.ne_nil_of_mem (List.mem_filter.2 ⟨hc, by simp [hspace]⟩)
  have hdocument : document ≠ [] := by
    rintro rfl
    exact hne rfl
  obtain ⟨before, mid, line, after, h⟩ := exists_selected selection document
  obtain rfl := h.before_eq_nil hcovers
  rw [apply_formatDocument]
  rcases h.after_eq hcovers hdocument with ⟨rfl, hline⟩ | rfl
  · exact h.apply_formatRange_last style hline hend
  · exact h.apply_formatRange_break style hne

/-- A document of two lines with different line breaks. -/
theorem formatRange_all_two_lines :
    (formatRange {} .builtin ⟨⟨0, 0⟩, ⟨2, 0⟩⟩ ['a', '\n', 'b', '\r', '\n']).apply ['a', '\n', 'b', '\r', '\n']
      = (formatDocument {} .builtin ['a', '\n', 'b', '\r', '\n']).apply ['a', '\n', 'b', '\r', '\n'] :=
  have hcovers : Selection.Covers ⟨⟨0, 0⟩, ⟨2, 0⟩⟩ ['a', '\n', 'b', '\r', '\n'] :=
    ⟨rfl, rfl, by decide⟩
  formatRange_all {} hcovers ⟨'a', by decide, by decide⟩ (by decide)

end SqfLayout
