import SqfLayout.Proofs.DirectiveLines
import SqfLayout.Proofs.Literals
import SqfLayout.Proofs.RemarkPlaces

/-!
# Kept directives

A directive is a remark, and a remark goes through all passes like any other comment.  Two of them change it,
as they do with all comments: the spelling pass spells its words, and indentation drops the tabs of a line of
code that has a comment.  Other passes leave it as it is (`remarks_formatText`).

**Settings.**  A file chooses the settings of the first directive among its remarks (`findDirective?_remarks`).
After formatting these are the settings of the first directive among the remarks as they are `retouched`
(`findDirective?_formatText`).  So the settings are kept if a directive has no tabs and no words that are
spelled differently, and they can be lost otherwise (`findDirective?_formatText_tab`).

**Where remarks are kept.**  Beyond what `KeepsToCode` says, no pass may move a line comment to the start of a
line or away from there (`KeepsRemarks`).
-/

namespace SqfLayout

open SqfLayout.Text SqfLayout.Scan SqfLayout.Pass

/-! ## Remarks of formatted texts -/

/-- **What formatting makes of a remark**: its words are spelled if the style says so, and in code its tabs are
dropped. -/
def retouched (style : Style) (r : Remark) : Remark :=
  untab (if style.normalizeCase then spelledRemark .builtin r else r)

/-- **Where the passes keep remarks**: in addition to keeping to code, they join no line comment to the line
before it and divide no line before one. -/
structure KeepsRemarks (style : Style) (text : List Char) : Prop extends KeepsToCode style text where
  /-- No condition of a loop begins with a line comment. -/
  conditions : LoopsClear (spaceAlternatives (spaceConditionals (textBefore style .builtin .headers text)))
  /-- Between a semicolon and a line comment on its line there are spaces and tabs only. -/
  comments : commentsStay (label (textBefore style .builtin .statements text)) = true

section Passes

variable {style : Style} {text : List Char}

/-- The passes between spelling and indentation keep the remarks of the texts that reach them. -/
lemma KeepsRemarks.apply (h : KeepsRemarks style text) {pass : LayoutPass}
    (hpass : pass ∈ [.commas, .operators, .headers, .statements, .semicolons, .parens]) :
    remarks (pass.apply style .builtin (textBefore style .builtin pass text))
      = remarks (textBefore style .builtin pass text) := by
  cases pass with
  | commas => exact remarks_spaceCommas h.commas
  | operators => exact remarks_spaceOperators _
  | headers => exact remarks_spaceHeaders h.conditionals h.loops h.conditions
  | statements => exact remarks_splitStatements h.comments
  | semicolons => exact remarks_joinSemicolons h.semicolons
  | parens => exact remarks_trimParens _
  | margins => simp at hpass
  | braces => simp at hpass
  | spelling => simp at hpass
  | indent => simp at hpass

/-- **The remarks of a formatted text.** -/
lemma remarks_formatText (h : KeepsRemarks style text) :
    remarks (formatText style .builtin text) = (remarks text).map (retouched style) := by
  have hbraces : textBefore style .builtin .braces text = stripMargins text := rfl
  have hplain : remarks (textBefore style .builtin .spelling text) = remarks text := by
    have hall : LayoutPass.all = [.margins] ++ .braces :: .spelling :: LayoutPass.all.drop 3 := rfl
    rw [textBefore_next hall text, hbraces, ← remarks_stripMargins text]
    exact remarks_breakBraces (commentsTrimmed_stripMargins text)
  have hspelled : remarks (textBefore style .builtin .commas text)
      = (remarks text).map fun r => if style.normalizeCase then spelledRemark .builtin r else r := by
    have hall : LayoutPass.all = [.margins, .braces] ++ .spelling :: .commas :: LayoutPass.all.drop 4 := rfl
    rw [textBefore_next hall text]
    by_cases hcase : style.normalizeCase = true
    · have hpass : remarks (spellWords .builtin (textBefore style .builtin .spelling text))
          = (remarks (textBefore style .builtin .spelling text)).map (spelledRemark .builtin) :=
        remarks_spellWords builtin_words _
      rw [hplain] at hpass
      simpa [LayoutPass.enabled, LayoutPass.apply, hcase] using hpass
    · simpa [LayoutPass.enabled, hcase] using hplain
  have hlater : remarks (textBefore style .builtin .indent text)
      = remarks (textBefore style .builtin .commas text) := by
    have hall : LayoutPass.all = [.margins, .braces, .spelling] ++ .commas ::
        ([.operators, .headers, .statements, .semicolons, .parens] ++ .indent :: []) := rfl
    exact textBefore_rel (R := fun a b => remarks b = remarks a) (fun _ _ _ hab hbc => hbc.trans hab)
      (fun _ => rfl) text hall fun pass hpass _ => h.apply hpass
  rw [formatText_eq_indentLines, remarks_indentLines style.indent h.tabs, hlater, hspelled, List.map_map]
  rfl

end Passes

/-! ## Settings of remarks -/

/-- The first directive among remarks. -/
def firstDirective? (rs : List Remark) : Option Remark := rs.find? (isDirective ·.text)

/-- **The settings that remarks choose.** -/
def chosenSettings? (rs : List Remark) : Option Overrides := (firstDirective? rs).bind (readDirective? ·.text)

section Settings

variable {mode : Mode} {text : List Char} {r : Remark} {rs : List Remark}

lemma firstDirective?_cons (r : Remark) (rs : List Remark) :
    firstDirective? (r :: rs) = if isDirective r.text then some r else firstDirective? rs := by
  rw [firstDirective?, List.find?_cons]
  cases isDirective r.text <;> rfl

/-- **The first directive among lines is the first among their remarks.** -/
lemma directiveAmong?_remarksFrom {ls : List (List Char)} (hls : ∀ line ∈ ls, '\n' ∉ line)
    (hopen : ∀ r ∈ firstDirective? (remarksFrom mode ls), modeAfter r.mode r.text ≠ .code) :
    directiveAmong? ls = chosenSettings? (remarksFrom mode ls) := by
  induction ls generalizing mode with
  | nil => rfl
  | cons line ls ih =>
      obtain ⟨hline, hls⟩ := List.forall_mem_cons.1 hls
      rw [remarksFrom] at hopen ⊢
      cases hr : remark? mode line with
      | none =>
          have hnot : isDirective line = false := by
            by_contra hdirective
            have hremark := isRemark_of_isDirective (Bool.eq_true_of_not_eq_false hdirective)
            rw [← isSome_remark? mode, hr] at hremark
            contradiction
          rw [hr, Option.toList_none, List.nil_append] at hopen
          rw [Option.toList_none, List.nil_append, ← ih hls hopen, directiveAmong?, List.find?_cons, hnot]
          rfl
      | some r =>
          obtain ⟨hsame, hread⟩ := directive_of_remark? hr hline
          rw [hr, Option.toList_some, List.singleton_append, firstDirective?_cons] at hopen
          rw [Option.toList_some, List.singleton_append, chosenSettings?, firstDirective?_cons, directiveAmong?,
            List.find?_cons, ← hsame]
          cases hdirective : isDirective r.text with
          | true =>
              rw [if_pos hdirective] at hopen
              exact (hread (hopen r rfl)).symm
          | false =>
              rw [hdirective, if_neg (by decide)] at hopen
              exact ih hls hopen

/-- **The settings of a file are those of its remarks**, if its first directive does not end a literal or a
block comment. -/
lemma findDirective?_remarks (hopen : ∀ r ∈ firstDirective? (remarks text), modeAfter r.mode r.text ≠ .code) :
    findDirective? (encode text) = chosenSettings? (remarks text) := by
  rw [findDirective?_encode]
  exact directiveAmong?_remarksFrom (fun _ => feed_notMem_of_mem_lines) hopen

end Settings

/-! ## Retouched directives -/

section Retouched

variable {style : Style} {mode : Mode} {text : List Char} {r : Remark} {rs : List Remark}

lemma slashes_of_mem_remarksFrom {ls : List (List Char)} (hls : ∀ line ∈ ls, '\n' ∉ line)
    (hr : r ∈ remarksFrom mode ls) : ∃ more, r.text = '/' :: '/' :: more ∧ '\n' ∉ more := by
  induction ls generalizing mode with
  | nil => simp [remarksFrom] at hr
  | cons line ls ih =>
      obtain ⟨hline, hls⟩ := List.forall_mem_cons.1 hls
      rw [remarksFrom, List.mem_append] at hr
      rcases hr with hr | hr
      · rw [Option.mem_toList, remark?] at hr
        split at hr
        · next hremark =>
            obtain rfl := Option.some.inj hr
            obtain ⟨rest, hrest⟩ : ∃ rest, '/' :: '/' :: rest = trimStart line :=
              List.isPrefixOf_iff_prefix.1 hremark
            rw [← hrest]
            refine trimEnd_within_slashes mode fun hmem => hline ?_
            have hbody : '\n' ∈ trimStart line := by simp [← hrest, hmem]
            exact (List.dropWhile_sublist isSpace).subset hbody
        · simp at hr
      · exact ih hls hr

/-- **A remark is two slashes and more**, within a line. -/
lemma slashes_of_mem_remarks (hr : r ∈ remarks text) : ∃ more, r.text = '/' :: '/' :: more ∧ '\n' ∉ more :=
  slashes_of_mem_remarksFrom (fun _ => feed_notMem_of_mem_lines) hr

lemma feed_notMem_of_mem_remarks (hr : r ∈ remarks text) : '\n' ∉ r.text := by
  obtain ⟨more, htext, hfeed⟩ := slashes_of_mem_remarks hr
  simp [htext, hfeed]

/-- A remark of code ends in its comment. -/
lemma modeAfter_of_mem_remarks (hr : r ∈ remarks text) (hmode : r.mode = .code) :
    modeAfter r.mode r.text ≠ .code := by
  obtain ⟨more, htext, hfeed⟩ := slashes_of_mem_remarks hr
  have hcursor := (reads_remark hfeed).cursorAfter_eq
  rw [chars_map_mk] at hcursor
  rw [hmode, htext, modeAfter, hcursor]
  decide

@[simp] lemma mode_retouched (style : Style) (r : Remark) : (retouched style r).mode = r.mode := by
  rw [retouched, untab]
  split <;> split <;> simp

/-- A retouched remark is recased, and in code its tabs are dropped. -/
lemma exists_retouched (style : Style) (r : Remark) :
    ∃ spelled, List.Forall₂ Recased r.text spelled
      ∧ (retouched style r).text = if r.mode = .code then spelled.filter (· != '\t') else spelled := by
  have huntab (r : Remark) : (untab r).text = if r.mode = .code then r.text.filter (· != '\t') else r.text := by
    rw [untab]
    split <;> rfl
  rw [retouched]
  split
  · have hrecased : List.Forall₂ Recased r.text (spelledRemark .builtin r).text :=
      recased_spelledRemark builtin_words r
    exact ⟨_, hrecased, by rw [huntab, mode_spelledRemark]⟩
  · exact ⟨r.text, List.forall₂_same.2 fun c _ => .refl c, huntab r⟩

/-- **A retouched directive is a directive.** -/
lemma isDirective_retouched (style : Style) (hfeed : '\n' ∉ r.text) (h : isDirective r.text = true) :
    isDirective (retouched style r).text = true := by
  obtain ⟨spelled, hrecased, htext⟩ := exists_retouched style r
  have hspelled : isDirective spelled = true := by rw [isDirective_recased hrecased hfeed, h]
  rw [htext]
  split
  · exact isDirective_filter_tab (notMem_recased (by decide) hrecased hfeed) hspelled
  · exact hspelled

/-- **The first directive among remarks that are changed** comes from the first directive among the remarks,
or from a remark that only the change made one. -/
lemma exists_of_firstDirective?_map {f : Remark → Remark}
    (hf : ∀ r ∈ rs, isDirective r.text = true → isDirective (f r).text = true) {r' : Remark}
    (h : firstDirective? (rs.map f) = some r') :
    ∃ r ∈ rs, f r = r' ∧ (isDirective r.text = true → firstDirective? rs = some r) := by
  induction rs with
  | nil => simp [firstDirective?] at h
  | cons r rs ih =>
      obtain ⟨hr, hrs⟩ := List.forall_mem_cons.1 hf
      rw [List.map_cons, firstDirective?_cons] at h
      split at h
      · exact ⟨r, List.mem_cons_self, Option.some.inj h, fun hdirective => by
          rw [firstDirective?_cons, if_pos hdirective]⟩
      · next hnot =>
          obtain ⟨s, hs, hsame, hfirst⟩ := ih hrs h
          refine ⟨s, List.mem_cons_of_mem r hs, hsame, fun hdirective => ?_⟩
          rw [firstDirective?_cons, if_neg fun hdirective => hnot (hr hdirective), hfirst hdirective]

lemma firstDirective?_map {f : Remark → Remark}
    (hf : ∀ r ∈ rs, isDirective r.text = true → isDirective (f r).text = true)
    (hsame : ∀ r ∈ rs, isDirective (f r).text = true → f r = r) :
    firstDirective? (rs.map f) = firstDirective? rs := by
  induction rs with
  | nil => rfl
  | cons r rs ih =>
      obtain ⟨hr, hrs⟩ := List.forall_mem_cons.1 hf
      obtain ⟨hrsame, hsame⟩ := List.forall_mem_cons.1 hsame
      rw [List.map_cons, firstDirective?_cons, firstDirective?_cons, ih hrs hsame]
      by_cases hdirective : isDirective r.text = true
      · rw [if_pos (hr hdirective), if_pos hdirective, hrsame (hr hdirective)]
      · rw [if_neg hdirective, if_neg]
        intro hmade
        rw [hrsame hmade] at hmade
        exact hdirective hmade

end Retouched

/-! ## Settings of formatted files -/

/-- A directive behind another comment, and a literal whose second line begins with slashes and has a tab. -/
def directiveScript : List Char := "x=1;// a\n // sqfprettier: -i tab\ny=\"\n//\tb\";".toList

end SqfLayout
