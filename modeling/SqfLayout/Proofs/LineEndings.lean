import SqfLayout.Proofs.Pipeline
import SqfLayout.Proofs.Selections
import SqfLayout.Proofs.Trails

/-!
# Line endings

A carriage return before a line feed is white space at the end of a line.  The first pass takes it away,
and what is written gets the line endings of the document again.

**Formatting.**  The margins pass looks at lines without the white space at their ends
(`stripMargins_congr`), so a text is formatted like the same text with carriage returns
(`formatText_toCrlf`).

**Converted documents.**  Line by line, a converted document is the document with a carriage return at the
end of every line but the last (`lines_toCrlf`).  A selection touches the same lines of both
(`Selected.toCrlf`), so formatting commutes with the conversion (`format_toCrlf`).
-/

namespace SqfLayout.Pass

open SqfLayout.Text SqfLayout.Scan

/-! ## White space at the ends of lines -/

/-- White space at its end does not change how a line is read. -/
lemma modeAfter_trimEnd (mode : Mode) {line : List Char} (hfeed : '\n' ∉ line) :
    modeAfter mode (trimEnd line) = modeAfter mode line := by
  obtain ⟨back, hline, hback⟩ := exists_trimEnd line
  have hplain : ∀ c ∈ back, isPlain c = true := by
    intro c hc
    refine isPlain_of_isSpace (hback c hc) ?_
    rintro rfl
    exact hfeed (by rw [hline]; exact List.mem_append_right _ hc)
  have hcut := (labelFrom_cut mode (trimEnd line) (heeded_head_of_space hback)).2
  rw [← hline, modeAfter_plain hplain] at hcut
  exact hcut.symm

lemma positions_trimEnd (mode : Mode) {ls : List (List Char)} (hls : ∀ line ∈ ls, '\n' ∉ line) :
    positions mode (ls.map trimEnd) = (positions mode ls).map fun row => (trimEnd row.1, row.2) := by
  induction ls generalizing mode with
  | nil => rfl
  | cons line ls ih =>
      obtain ⟨hline, hls⟩ := List.forall_mem_cons.1 hls
      simp only [List.map_cons, positions, scanLine, modeAfter_trimEnd mode hline, ih _ hls]

lemma trimEnd_trimEnd (line : List Char) : trimEnd (trimEnd line) = trimEnd line :=
  List.rdropWhile_idempotent isSpace line

/-- The white space at the ends of lines does not matter for their margins. -/
lemma stripRows_trimEnd (body : Option Nat) (rows : List (List Char × CommentPosition)) :
    stripRows body (rows.map fun row => (trimEnd row.1, row.2)) = stripRows body rows := by
  have hmargin (rows : List (List Char × CommentPosition)) :
      bodyMargin (rows.map fun row => (trimEnd row.1, row.2)) = bodyMargin rows := by
    simp only [bodyMargin, List.takeWhile_map, Function.comp_def, List.map_map, trimEnd_trimEnd]
  induction rows generalizing body with
  | nil => rfl
  | cons row rows ih =>
      obtain ⟨line, position⟩ := row
      have hbody := hmargin ((line, position) :: rows)
      rw [List.map_cons] at hbody
      simp only [List.map_cons, stripRows, hbody, trimEnd_trimEnd, trim, ih]

/-- **The margins pass does not see the white space at the ends of lines.** -/
theorem stripMargins_congr {a b : List Char} (h : (lines a).map trimEnd = (lines b).map trimEnd) :
    stripMargins a = stripMargins b := by
  have hstrip (text : List Char) :
      stripMargins text = unlines (stripRows none (positions .code ((lines text).map trimEnd))) := by
    rw [positions_trimEnd .code fun _ => feed_notMem_of_mem_lines, stripRows_trimEnd]
    rfl
  rw [hstrip, hstrip, h]

end SqfLayout.Pass

namespace SqfLayout

open SqfLayout.Text SqfLayout.Scan SqfLayout.Pass

variable (style : Style) (vocabulary : Vocabulary)

/-- **Formatting starts with the margins.** -/
lemma formatText_congr {a b : List Char} (h : stripMargins a = stripMargins b) :
    formatText style vocabulary a = formatText style vocabulary b := by
  have hall : LayoutPass.all.filter (·.enabled style)
      = .margins :: LayoutPass.all.tail.filter (·.enabled style) := rfl
  have hmargins : LayoutPass.margins.apply style vocabulary a = LayoutPass.margins.apply style vocabulary b := h
  rw [formatText, formatText, hall, List.foldl_cons, List.foldl_cons, hmargins]

/-! ## Converted texts -/

lemma toCrlf_append (a b : List Char) : toCrlf (a ++ b) = toCrlf a ++ toCrlf b := List.flatMap_append

lemma toCrlf_feed (text : List Char) : toCrlf ('\n' :: text) = '\r' :: '\n' :: toCrlf text := rfl

lemma toCrlf_of_notMem {text : List Char} (h : '\n' ∉ text) : toCrlf text = text := by
  induction text with
  | nil => rfl
  | cons c text ih =>
      obtain ⟨hc, htext⟩ := List.ne_and_not_mem_of_not_mem_cons h
      simp [toCrlf, Ne.symm hc] at ih ⊢
      exact ih htext

/-- **The lines of a converted text**: a carriage return ends all but the last. -/
def crlfLines : List (List Char) → List (List Char)
  | [] => []
  | [line] => [line]
  | line :: rest => (line ++ ['\r']) :: crlfLines rest

lemma crlfLines_append (ls : List (List Char)) (line : List Char) (rest : List (List Char)) :
    crlfLines (ls ++ line :: rest) = ls.map (· ++ ['\r']) ++ crlfLines (line :: rest) := by
  induction ls with
  | nil => rfl
  | cons first ls ih =>
      have hcons : crlfLines (first :: (ls ++ line :: rest))
          = (first ++ ['\r']) :: crlfLines (ls ++ line :: rest) := by
        cases ls <;> rfl
      rw [List.cons_append, hcons, ih, List.map_cons, List.cons_append]

lemma length_crlfLines (ls : List (List Char)) : (crlfLines ls).length = ls.length := by
  fun_induction crlfLines ls with
  | case1 => rfl
  | case2 line => rfl
  | case3 line rest _ ih => rw [List.length_cons, List.length_cons, ih]

lemma trimEnd_append_return (line : List Char) : trimEnd (line ++ ['\r']) = trimEnd line := by
  rw [trimEnd, trimEnd, dropEndWhile, dropEndWhile, List.reverse_append]
  rfl

lemma map_trimEnd_crlfLines (ls : List (List Char)) :
    (crlfLines ls).map trimEnd = ls.map trimEnd := by
  fun_induction crlfLines ls with
  | case1 => rfl
  | case2 line => rfl
  | case3 line rest _ ih => rw [List.map_cons, List.map_cons, trimEnd_append_return, ih]

lemma toCrlf_rows {ls : List (List Char)} (hls : ∀ line ∈ ls, '\n' ∉ line) :
    toCrlf (rows ls) = rows (ls.map (· ++ ['\r'])) := by
  induction ls with
  | nil => rfl
  | cons line ls ih =>
      obtain ⟨hline, hls⟩ := List.forall_mem_cons.1 hls
      rw [rows_cons, toCrlf_append, toCrlf_feed, toCrlf_of_notMem hline, ih hls, List.map_cons, rows_cons]
      simp

/-- A converted text has the lines of the text, converted. -/
lemma lines_toCrlf (text : List Char) : lines (toCrlf text) = crlfLines (lines text) := by
  obtain ⟨init, last, rfl, hinit, hlast⟩ := exists_rows_append text
  have hconverted : ∀ line ∈ init.map (· ++ ['\r']), '\n' ∉ line := by simpa using hinit
  rw [toCrlf_append, toCrlf_rows hinit, toCrlf_of_notMem hlast, lines_rows_append hconverted hlast,
    lines_rows_append hinit hlast, crlfLines_append]
  rfl

/-- **Carriage returns at the ends of lines do not matter.** -/
theorem formatText_toCrlf (text : List Char) :
    formatText style vocabulary (toCrlf text) = formatText style vocabulary text :=
  formatText_congr style vocabulary
    (stripMargins_congr (by rw [lines_toCrlf, map_trimEnd_crlfLines]))

/-! ## Converted documents -/

section Documents

variable {document : List Char}

lemma hasCrlf_of_notMem (hreturn : '\r' ∉ document) : hasCrlf document = false := by
  induction document with
  | nil => rfl
  | cons c rest ih =>
      obtain ⟨hc, hrest⟩ := List.ne_and_not_mem_of_not_mem_cons hreturn
      simp [hasCrlf, ih hrest, Ne.symm hc]

lemma hasCrlf_toCrlf (hfeed : '\n' ∈ document) : hasCrlf (toCrlf document) = true := by
  obtain ⟨front, back, rfl⟩ := List.append_of_mem hfeed
  have hmiddle (front back : List Char) : hasCrlf (front ++ '\r' :: '\n' :: back) = true := by
    induction front with
    | nil => rfl
    | cons c front ih => simp [hasCrlf, ih]
  rw [toCrlf_append, toCrlf_feed]
  exact hmiddle _ _

lemma endsWith_iff {text ending : List Char} : endsWith text ending = true ↔ ending <:+ text :=
  List.isSuffixOf_iff_suffix

lemma endsWith_return_feed (hreturn : '\r' ∉ document) : endsWith document ['\r', '\n'] = false := by
  refine Bool.eq_false_iff.2 fun hends => hreturn ?_
  exact (endsWith_iff.1 hends).subset (by simp)

/-- The final line break is converted. -/
lemma endsWith_toCrlf (document : List Char) :
    endsWith (toCrlf document) ['\r', '\n'] = endsWith document ['\n']
      ∧ endsWith (toCrlf document) ['\n'] = endsWith document ['\n'] := by
  rcases List.eq_nil_or_concat' document with rfl | ⟨init, c, rfl⟩
  · decide
  · by_cases hc : c = '\n'
    · subst hc
      have hcrlf : toCrlf (init ++ ['\n']) = toCrlf init ++ ['\r', '\n'] := toCrlf_append init _
      simp [hcrlf, endsWith]
    · have hsingle : toCrlf [c] = [c] := toCrlf_of_notMem (by simpa using Ne.symm hc)
      simp [toCrlf_append, hsingle, endsWith, List.isPrefixOf, Ne.symm hc]

/-- What is restored is converted as well. -/
lemma restoreLineEndings_toCrlf (hfeed : '\n' ∈ document) (hreturn : '\r' ∉ document)
    (formatted : List Char) :
    restoreLineEndings (toCrlf document) formatted = toCrlf (restoreLineEndings document formatted) := by
  simp only [restoreLineEndings, withLineEndingsOf, hasCrlf_toCrlf hfeed, hasCrlf_of_notMem hreturn,
    endsWith_toCrlf, endsWith_return_feed hreturn, if_true, Bool.false_eq_true, if_false]
  split_ifs
  · rfl
  · rw [toCrlf_append]
    rfl
  · rfl

/-- **A selection touches the same lines of a converted document.** -/
lemma Selected.toCrlf {selection : Selection} {before mid after : List (List Char)} {line : List Char}
    (hreturn : '\r' ∉ document) (h : Selected selection document before mid line after) :
    ∃ line' after', lineContent line' = line
      ∧ Selected selection (toCrlf document) (before.map (· ++ ['\r'])) (mid.map (· ++ ['\r'])) line' after' := by
  have hline : '\r' ∉ line := fun hmem => hreturn (mem_of_mem_lines (by simp [h.division]) hmem)
  obtain ⟨line', after', hlast, hcontent⟩ : ∃ line' after', crlfLines (line :: after) = line' :: after'
      ∧ lineContent line' = line := by
    cases after with
    | nil => exact ⟨line, [], rfl, lineContent_of_getLast? fun hlast => hline (List.mem_of_getLast? hlast)⟩
    | cons next after => exact ⟨line ++ ['\r'], _, rfl, lineContent_append_return line⟩
  refine ⟨line', after', hcontent, ⟨?_, ?_, ?_⟩⟩
  · rw [lines_toCrlf, h.division, ← List.append_assoc, crlfLines_append, hlast, List.map_append,
      List.append_assoc]
  · rw [List.length_map, lines_toCrlf, length_crlfLines, h.first]
  · rw [List.length_map, List.length_map, lines_toCrlf, length_crlfLines, h.last]

/-- **Formatting commutes with the conversion of line endings**, for documents and for selections. -/
theorem format_toCrlf (hfeed : '\n' ∈ document) (hreturn : '\r' ∉ document) :
    (formatDocument style vocabulary (toCrlf document)).newText
        = toCrlf (formatDocument style vocabulary document).newText
      ∧ ∀ selection, (formatRange style vocabulary selection (toCrlf document)).apply (toCrlf document)
          = toCrlf ((formatRange style vocabulary selection document).apply document) := by
  refine ⟨?_, fun selection => ?_⟩
  · simp only [formatDocument, formatText_toCrlf, restoreLineEndings_toCrlf hfeed hreturn]
  · obtain ⟨before, mid, line, after, h⟩ := exists_selected selection document
    obtain ⟨back, hback⟩ := h.exists_back
    obtain ⟨line', after', hcontent, hcrlf⟩ := h.toCrlf hreturn
    have hfeeds : ∀ other ∈ before ++ (mid ++ line :: after), '\n' ∉ other := by
      intro other hother
      rw [← h.division] at hother
      exact feed_notMem_of_mem_lines hother
    simp only [List.forall_mem_append, List.forall_mem_cons] at hfeeds
    obtain ⟨hbefore, hmid, hline, -⟩ := hfeeds
    have hcontent' : lineContent line = line := by
      refine lineContent_of_getLast? fun hlast => hreturn ?_
      exact mem_of_mem_lines (by simp [h.division]) (List.mem_of_getLast? hlast)
    -- the touched text of the converted document is the converted touched text
    have htouched : rows (mid.map (· ++ ['\r'])) ++ lineContent line' = toCrlf (rows mid ++ line) := by
      rw [toCrlf_append, toCrlf_rows hmid, toCrlf_of_notMem hline, hcontent]
    have hparts : toCrlf document = rows (before.map (· ++ ['\r']))
        ++ ((rows (mid.map (· ++ ['\r'])) ++ lineContent line') ++ toCrlf back) := by
      rw [hcontent'] at hback
      rw [htouched, ← toCrlf_rows hbefore, ← toCrlf_append, ← toCrlf_append, ← hback]
    rw [hcrlf.apply_formatRange hparts, h.apply_formatRange hback, htouched, formatText_toCrlf, hcontent',
      withLineEndingsOf, if_pos (hasCrlf_toCrlf hfeed), withLineEndingsOf,
      if_neg (by simp [hasCrlf_of_notMem hreturn]), toCrlf_append, toCrlf_append, toCrlf_rows hbefore]

/-- A document of two lines, and its first line alone. -/
theorem format_toCrlf_two_lines :
    (formatDocument {} .builtin (toCrlf ['a', '=', '1', '\n', 'b'])).newText
        = toCrlf (formatDocument {} .builtin ['a', '=', '1', '\n', 'b']).newText
      ∧ (formatRange {} .builtin (.lines 0 0) (toCrlf ['a', '=', '1', '\n', 'b'])).apply
            (toCrlf ['a', '=', '1', '\n', 'b'])
          = toCrlf ((formatRange {} .builtin (.lines 0 0) ['a', '=', '1', '\n', 'b']).apply
            ['a', '=', '1', '\n', 'b']) :=
  have hfeed : '\n' ∈ ['a', '=', '1', '\n', 'b'] := by decide
  have hreturn : '\r' ∉ ['a', '=', '1', '\n', 'b'] := by decide
  ⟨(format_toCrlf {} .builtin hfeed hreturn).1, (format_toCrlf {} .builtin hfeed hreturn).2 (.lines 0 0)⟩

end Documents

end SqfLayout
