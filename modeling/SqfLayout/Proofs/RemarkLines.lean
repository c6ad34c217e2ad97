import SqfLayout.Proofs.CommentBodies
import SqfLayout.Proofs.Remarks

/-!
# Remarks of lines

The margins pass and the indentation pass treat a text line by line, and what they do to a line they do to
the remark that it is.

**Ends of lines.**  White space at the ends of a line is no part of its remark (`remark?_trim`), so the margins
pass keeps all remarks.

**Tabs.**  A line of code with a comment loses its tabs outside literals, so a remark of code loses its tabs
(`untab`).  A remark inside a literal or a block comment stays as it is, whatever becomes of the code
behind it.  No line becomes a remark, if no tabs keep a comment mark apart.
-/

namespace SqfLayout.Pass

open SqfLayout.Text SqfLayout.Scan

/-! ## Ends of lines -/

lemma isPrefixOf_append_of_notMem {mark b : List Char} (h : ∀ c ∈ mark, c ∉ b) (a : List Char) :
    mark.isPrefixOf (a ++ b) = mark.isPrefixOf a := by
  rw [Bool.eq_iff_iff, List.isPrefixOf_iff_prefix, List.isPrefixOf_iff_prefix]
  refine ⟨fun hmark => ?_, fun hmark => hmark.trans (List.prefix_append a b)⟩
  rcases List.prefix_or_prefix_of_prefix hmark (List.prefix_append a b) with hshort | ⟨rest, rfl⟩
  · exact hshort
  · have hrest := (List.prefix_append_right_inj a).1 hmark
    cases rest with
    | nil => simp
    | cons c rest =>
        obtain ⟨tail, rfl⟩ := hrest
        exact absurd (by simp) (h c (by simp))

/-- A mark is not completed by characters that it does not have. -/
lemma through_append {mark b : List Char} (hne : mark ≠ []) (h : ∀ c ∈ mark, c ∉ b) (a : List Char) :
    through mark (a ++ b) = through mark a
      ∨ through mark a = a ∧ through mark (a ++ b) = a ++ b := by
  induction a with
  | nil =>
      refine .inr ⟨rfl, ?_⟩
      rw [List.nil_append]
      induction b with
      | nil => rfl
      | cons c b ih =>
          have hmark : mark.isPrefixOf (c :: b) = false := by
            have hnone := isPrefixOf_append_of_notMem h []
            obtain ⟨first, mark, rfl⟩ := List.exists_cons_of_ne_nil hne
            simpa [List.isPrefixOf] using hnone
          rw [through, if_neg (by simp [hmark]), ih fun c hc hmem => h c hc (List.mem_cons_of_mem _ hmem)]
  | cons c a ih =>
      rw [List.cons_append, through, through, ← List.cons_append, isPrefixOf_append_of_notMem h]
      split
      · exact .inl rfl
      · rcases ih with hsame | ⟨hall, hall'⟩
        · exact .inl (by rw [hsame])
        · exact .inr ⟨by rw [hall], by rw [hall', List.cons_append]⟩

lemma trimEnd_within {w : List Char} (hw : ∀ c ∈ w, isSpace c = true) (mode : Mode) (text : List Char) :
    trimEnd (within mode (text ++ w)) = trimEnd (within mode text) := by
  have hthrough {mark : List Char} (hne : mark ≠ []) (hmark : ∀ c ∈ mark, isSpace c = false) :
      trimEnd (through mark (text ++ w)) = trimEnd (through mark text) := by
    have hnot : ∀ c ∈ mark, c ∉ w := by
      intro c hc hmem
      have hspace := hw c hmem
      rw [hmark c hc] at hspace
      contradiction
    rcases through_append hne hnot text with hsame | ⟨hall, hall'⟩
    · rw [hsame]
    · rw [hall, hall', trimEnd_append_space _ hw]
  cases mode with
  | code => exact trimEnd_append_space text hw
  | single => exact hthrough (by simp) (by decide)
  | double => exact hthrough (by simp) (by decide)
  | line => exact trimEnd_append_space text hw
  | block => exact hthrough (by simp) (by decide)

/-- **White space at the ends of a line is no part of its remark.** -/
lemma remark?_trim {front back : List Char} (hfront : ∀ c ∈ front, isSpace c = true)
    (hback : ∀ c ∈ back, isSpace c = true) (mode : Mode) (body : List Char) :
    remark? mode (front ++ (body ++ back)) = remark? mode body := by
  have hstart : trimStart (front ++ (body ++ back))
      = if trimStart body = [] then [] else trimStart body ++ back := by
    have hnone : back.dropWhile isSpace = [] := List.dropWhile_eq_nil_iff.2 hback
    rw [trimStart, List.dropWhile_append_of_pos hfront, List.dropWhile_append, hnone, ← trimStart]
    simp only [List.isEmpty_iff]
  have hslash : ∀ c ∈ ['/', '/'], c ∉ back := by simpa using slash_notMem_of_space hback
  rw [remark?, remark?, isRemark, isRemark, hstart]
  split
  · next hnil => rw [hnil]
  · rw [isPrefixOf_append_of_notMem hslash, trimEnd_within hback]

/-- Lines that are stripped have the same remarks. -/
lemma remarksFrom_stripped {mode : Mode} (hmode : mode ≠ .line) {ls ls' : List (List Char)}
    (h : List.Forall₂ Stripped ls ls') : remarksFrom mode ls' = remarksFrom mode ls := by
  induction h generalizing mode with
  | nil => rfl
  | cons hline _ ih =>
      obtain ⟨⟨front, back, rfl, hfront, hback⟩, -⟩ := hline
      rw [remarksFrom, remarksFrom, remark?_trim hfront hback, ← (SameUpToBreaks.trim hmode hfront hback _).next,
        ih (scanLine_ne_line mode _)]

/-- **The margins pass keeps the remarks.** -/
lemma remarks_stripMargins (text : List Char) : remarks (stripMargins text) = remarks text := by
  rw [remarks, lines_stripMargins]
  exact remarksFrom_stripped Mode.noConfusion (forall₂_stripRows none .code (lines text))

/-! ## Tabs -/

/-- **A remark as it is indented**: in code its tabs are dropped. -/
def untab (r : Remark) : Remark :=
  if r.mode = .code then { r with text := r.text.filter (· != '\t') } else r

lemma remark?_eq_none {line : List Char} (h : isRemark line = false) (mode : Mode) :
    remark? mode line = none := if_neg (by simp [h])

/-- Outside code remarks keep their tabs. -/
lemma map_untab {mode : Mode} (hmode : mode ≠ .code) (line : List Char) :
    (remark? mode line).map untab = remark? mode line := by
  rw [remark?]
  split
  · simp [untab, hmode]
  · rfl

lemma trimStart_of_head {text : List Char} (h : ∀ c ∈ text.head?, isSpace c = false) :
    trimStart text = text := by
  cases text with
  | nil => rfl
  | cons c text => exact List.dropWhile_cons_of_neg (by simp [h c rfl])

lemma trimEnd_of_getLast {text : List Char} (h : ∀ c ∈ text.getLast?, isSpace c = false) :
    trimEnd text = text := by
  refine List.rdropWhile_eq_self_iff.2 fun hne => ?_
  simp [h _ (List.getLast?_eq_some_getLast hne)]

/-- The tabs of a text do not matter for its end. -/
lemma trimEnd_filter_tab (text : List Char) :
    trimEnd (text.filter (· != '\t')) = (trimEnd text).filter (· != '\t') := by
  obtain ⟨back, htext, hback⟩ := exists_trimEnd text
  have hlast := getLast?_trimEnd text
  conv_lhs => rw [htext, List.filter_append]
  rw [trimEnd_append_space _ fun c hc => hback c (List.mem_filter.1 hc).1]
  generalize trimEnd text = kept at hlast
  refine trimEnd_of_getLast ?_
  cases hend : kept.getLast? with
  | none =>
      rw [List.getLast?_eq_none_iff] at hend
      simp [hend]
  | some c =>
      obtain ⟨init, rfl⟩ := List.getLast?_eq_some_iff.1 hend
      have hink := hlast c hend
      have hkept : (c != '\t') = true := by
        rw [bne_iff_ne]
        rintro rfl
        exact absurd hink (by decide)
      rw [List.filter_append, List.filter_cons_of_pos (p := (· != '\t')) hkept]
      simpa using hink

/-- **A remark of code is a comment up to the end of the line.** -/
lemma reads_remark {rest : List Char} (hfeed : '\n' ∉ rest) :
    Reads (.ready .code) (('/' :: '/' :: rest).map (⟨·, .comment⟩)) none (.ready .line) := by
  have hsteady : ∀ cell ∈ ('/' :: rest).map (Cell.mk · .comment),
      ∀ next, step (.ready .line) cell.char next = (Mode.line.kind, .ready .line) := by
    intro cell hcell next
    obtain ⟨c, hc, rfl⟩ := List.mem_map.1 hcell
    have hne : c ≠ '\n' := by
      rintro rfl
      rcases List.mem_cons.1 hc with h | h
      · exact absurd h (by decide)
      · exact hfeed h
    simp [step, hne, Mode.kind]
  refine ⟨.ready .line, rfl, (reads_steady hsteady).2 ⟨rfl, fun cell hcell => ?_⟩⟩
  obtain ⟨c, -, rfl⟩ := List.mem_map.1 hcell
  rfl

/-- Behind white space no tabs keep a mark apart if they do nowhere. -/
lemma marksWhole_space {w : List Char} (hw : ∀ c ∈ w, isSpace c = true) {mode : Mode} (hmode : mode ≠ .line)
    {text : List Char} (h : marksWhole (.ready mode) (w ++ text) = true) :
    marksWhole (.ready mode) text = true := by
  induction w with
  | nil => exact h
  | cons c w ih =>
      obtain ⟨hc, hw⟩ := List.forall_mem_cons.1 hw
      rw [List.cons_append, marksWhole, step_space hc hmode, Bool.and_eq_true] at h
      exact ih hw h.2

/-- **Two slashes that come together when tabs go** have been together before, if no tabs keep a mark
apart. -/
lemma slashes_of_tabless {cells : List Cell} {stop : Cursor} (hreads : Reads (.ready .code) cells none stop)
    (hmarks : marksWhole (.ready .code) (chars cells) = true)
    (hhead : ∀ cell ∈ cells.head?, isSpace cell.char = false)
    (h : ['/', '/'] <+: chars (tabless cells)) : ['/', '/'] <+: chars cells := by
  cases cells with
  | nil => exact h
  | cons cell rest =>
      have htab : cell.char ≠ '\t' := by
        intro htab
        have hink := hhead cell rfl
        rw [htab] at hink
        exact absurd hink (by decide)
      rw [tabless_cons_of_not fun h => htab h.1, chars_cons, List.cons_prefix_cons] at h
      obtain ⟨hslash, hrest⟩ := h
      rw [chars_cons, List.cons_prefix_cons]
      refine ⟨hslash, ?_⟩
      cases rest with
      | nil => exact hrest
      | cons next rest =>
          by_cases hgoes : next.char = '\t' ∧ next.kind ≠ .literal
          · -- the tab keeps the slashes apart
            obtain ⟨mid, hstep, htail⟩ := hreads
            rw [← hslash, nextChar_cons, hgoes.1] at hstep
            obtain rfl : Cursor.ready .code = mid := (Prod.mk.inj hstep).2
            have hnext := nextChar_tabless (show Mode.code.kind ≠ .literal by decide) htail
            obtain ⟨tail, htail⟩ := hrest
            rw [nextChar_eq, ← htail] at hnext
            rw [chars_cons, marksWhole, ← hslash, ← hnext, chars_cons, hgoes.1] at hmarks
            simp [makesMark] at hmarks
          · rw [tabless_cons_of_not hgoes, chars_cons, List.cons_prefix_cons] at hrest
            rw [chars_cons, List.cons_prefix_cons]
            exact ⟨hrest.1, List.nil_prefix⟩

/-- Two slashes that are together when blanks have been squeezed have been together before. -/
lemma slashes_of_squeeze {cells : List Cell} (hhead : ∀ cell ∈ cells.head?, isSpace cell.char = false)
    (h : ['/', '/'] <+: squeezeFrom false cells) : ['/', '/'] <+: chars cells := by
  have hfirst (cell : Cell) (rest : List Cell) (hslash : ['/'] <+: squeezeFrom false (cell :: rest)) :
      cell.char = '/' := by
    rw [squeezeFrom, Bool.false_and, if_neg (by simp)] at hslash
    split at hslash
    · exact absurd (List.cons_prefix_cons.1 hslash).1 (by decide)
    · exact (List.cons_prefix_cons.1 hslash).1.symm
  cases cells with
  | nil => exact h
  | cons cell rest =>
      have hblank : isBlank cell.char = false := isBlank_of_isSpace_false (hhead cell rfl)
      rw [squeezeFrom, hblank] at h
      simp only [Bool.and_false, Bool.false_and, Bool.false_eq_true, if_false, List.cons_prefix_cons] at h
      rw [chars_cons, List.cons_prefix_cons]
      refine ⟨h.1, ?_⟩
      cases rest with
      | nil => exact h.2
      | cons next rest =>
          rw [chars_cons, List.cons_prefix_cons]
          exact ⟨(hfirst next rest h.2).symm, List.nil_prefix⟩

/-! ## One line -/

section Lines

variable {mode : Mode} {line : List Char}

/-- The cells of a line without the white space at its ends are those of its text without it. -/
lemma trimCells_labelFrom (hmode : mode ≠ .line) (line : List Char) :
    trimCells (labelFrom (.ready mode) line)
        = labelFrom (.ready mode) (chars (trimCells (labelFrom (.ready mode) line)))
      ∧ remark? mode line = remark? mode (chars (trimCells (labelFrom (.ready mode) line))) := by
  obtain ⟨front, back, hcells, hfront, hback⟩ := exists_trimCells (labelFrom (.ready mode) line)
  constructor
  · have hreads := reads_modeAfter mode line
    rw [hcells] at hreads
    obtain ⟨stop, hkept⟩ := reads_trimmed hmode hfront hback hreads
    exact hkept.labelFrom_eq.symm
  · have hline := congrArg chars hcells
    rw [chars_labelFrom, chars_append, chars_append] at hline
    conv_lhs => rw [hline]
    exact remark?_trim hfront.chars hback.chars mode _

lemma isRemark_iff {text : List Char} (h : ∀ c ∈ text.head?, isSpace c = false) :
    isRemark text = true ↔ ['/', '/'] <+: text := by
  rw [isRemark, trimStart_of_head h, List.isPrefixOf_iff_prefix]

lemma isSome_remark? (mode : Mode) (line : List Char) : (remark? mode line).isSome = isRemark line := by
  rw [remark?]
  split
  · next h => exact h.symm
  · next h => simpa using h

/-- **A line of code that is no remark becomes none**, if no tabs keep a comment mark apart. -/
lemma isRemark_lineBody (hremark : isRemark line = false)
    (hmarks : losesTabs (scanLine .code line).1 = true → marksWhole (.ready .code) line = true) :
    isRemark (lineBody (scanLine .code line).1) = false := by
  have hreads := reads_modeAfter .code line
  have hline := chars_labelFrom (.ready .code) line
  obtain ⟨front, back, hsplit, hfront, hback⟩ := exists_trimCells (labelFrom (.ready .code) line)
  have hhead := head?_trimCells (labelFrom (.ready .code) line)
  have hbody : isRemark (chars (trimCells (labelFrom (.ready .code) line))) = false := by
    have hsame := congrArg Option.isSome (trimCells_labelFrom (show Mode.code ≠ .line by decide) line).2
    rwa [isSome_remark?, isSome_remark?, hremark, eq_comm] at hsame
  have hcells : (scanLine .code line).1.cells = labelFrom (.ready .code) line := rfl
  generalize (scanLine .code line).1 = scanned at hmarks hcells ⊢
  obtain ⟨position, cells⟩ := scanned
  obtain rfl : cells = labelFrom (.ready .code) line := hcells
  generalize labelFrom (.ready .code) line = cells at *
  subst hline
  cases position with
  | inside => exact hremark
  | opens => exact hbody
  | closes => exact hbody
  | code =>
      simp only [lineBody]
      cases htrim : trimCells cells with
      | nil => split <;> rfl
      | cons first rest =>
          rw [htrim] at hsplit hhead hbody
          have hink : isSpace first.char = false := hhead first rfl
          have hnot : ¬ ['/', '/'] <+: chars (first :: rest) := by
            rw [← isRemark_iff (by simpa using hink), hbody]
            exact Bool.false_ne_true
          have hslash : ∀ c ∈ ['/', '/'], c ∉ chars back := by
            simpa using slash_notMem_of_space hback.chars
          have htab : ¬ (first.char = '\t' ∧ first.kind ≠ .literal) := by
            rintro ⟨htab, -⟩
            rw [htab] at hink
            exact absurd hink (by decide)
          split
          · next hcomment =>
              have hwhole := hmarks (by simpa [losesTabs] using hcomment)
              rw [hsplit, chars_append] at hwhole
              rw [hsplit] at hreads
              obtain ⟨mid, hgap, hkept⟩ := reads_append.1 hreads
              obtain ⟨rfl, -⟩ := (reads_space hfront (by decide)).1 hgap
              refine Bool.eq_false_iff.2 fun h => hnot ?_
              have hdropped : dropTabs (first :: rest) = first.char :: chars (tabless rest) :=
                congrArg chars (tabless_cons_of_not htab rest)
              rw [isRemark_iff (by rw [hdropped]; simpa using hink)] at h
              have happend : chars (tabless (first :: rest ++ back))
                  = dropTabs (first :: rest) ++ chars (tabless back) := by
                rw [tabless, List.filter_append, chars_append]
                rfl
              have hprefix := slashes_of_tabless hkept
                (marksWhole_space hfront.chars (by decide) hwhole) (by simpa using hink)
                (happend ▸ h.trans (List.prefix_append _ _))
              rwa [chars_append, ← List.isPrefixOf_iff_prefix, isPrefixOf_append_of_notMem hslash,
                List.isPrefixOf_iff_prefix] at hprefix
          · refine Bool.eq_false_iff.2 fun h => hnot ?_
            have hblank : isBlank first.char = false := isBlank_of_isSpace_false hink
            have hsqueezed : squeezeFrom false (first :: rest) = first.char :: squeezeFrom false rest := by
              simp [squeezeFrom, hblank]
            rw [isRemark_iff (by rw [hsqueezed]; simpa using hink)] at h
            exact slashes_of_squeeze hhead h

/-- **A line of code that is a remark loses its tabs.** -/
lemma lineBody_of_isRemark (hfeed : '\n' ∉ line) (hremark : isRemark line = true) :
    ∃ rest, remark? .code line = remark? .code ('/' :: '/' :: rest)
      ∧ lineBody (scanLine .code line).1 = ('/' :: '/' :: rest).filter (· != '\t') := by
  obtain ⟨hlabel, hsame⟩ := trimCells_labelFrom (show Mode.code ≠ .line by decide) line
  obtain ⟨front, back, hsplit, hfront, hback⟩ := exists_trimCells (labelFrom (.ready .code) line)
  have hline := congrArg chars hsplit
  rw [chars_labelFrom, chars_append, chars_append] at hline
  have hbody : isRemark (chars (trimCells (labelFrom (.ready .code) line))) = true := by
    have hsome := congrArg Option.isSome hsame
    rwa [isSome_remark?, isSome_remark?, hremark, eq_comm] at hsome
  have hhead := head?_trimCells (labelFrom (.ready .code) line)
  rw [isRemark_iff (by simpa [chars] using hhead)] at hbody
  obtain ⟨rest, hrest⟩ := hbody
  rw [← hrest] at hlabel hsame hline
  have hrest : '\n' ∉ rest := fun hmem => hfeed (by rw [hline]; simp [hmem])
  have hreads := reads_remark hrest
  have hcells := hreads.labelFrom_eq
  have hmode := hreads.cursorAfter_eq
  rw [chars_map_mk] at hcells hmode
  -- the line ends in the comment, and so it is a line of code with a comment
  have hnext : (scanLine .code line).2 = .code := by
    have htrimmed := (SameUpToBreaks.trim (show Mode.code ≠ .line by decide) hfront.chars hback.chars
      ('/' :: '/' :: rest)).next
    have hend : (scanLine .code ('/' :: '/' :: rest)).2 = .code := by
      rw [scanLine, modeAfter, hmode]
      rfl
    rw [hline]
    exact htrimmed.symm.trans hend
  have hscanned : (scanLine .code line).1 = ⟨.code, labelFrom (.ready .code) line⟩ := by
    have hposition : (scanLine .code line).1
        = ⟨.between .code (scanLine .code line).2, labelFrom (.ready .code) line⟩ := rfl
    rw [hposition, hnext]
    rfl
  have hcomment : (ScannedLine.mk .code (labelFrom (.ready .code) line)).hasComment = true := by
    refine List.any_eq_true.2 ⟨⟨'/', .comment⟩, ?_, rfl⟩
    rw [hsplit, hlabel]
    simp [hcells]
  refine ⟨rest, hsame, ?_⟩
  rw [hscanned, lineBody, if_pos hcomment, hlabel]
  have hkind : (CharClass.comment == .literal) = false := by decide
  simp only [List.cons_append, List.nil_append, hcells]
  simp [dropTabs, chars, List.filter_map, Function.comp_def, hkind]

/-- **The remark of a line of code that is indented.** -/
lemma remark?_lineBody_code (hfeed : '\n' ∉ line)
    (hmarks : losesTabs (scanLine .code line).1 = true → marksWhole (.ready .code) line = true) :
    remark? .code (lineBody (scanLine .code line).1) = (remark? .code line).map untab := by
  cases hremark : isRemark line with
  | false => rw [remark?_eq_none hremark, remark?_eq_none (isRemark_lineBody hremark hmarks), Option.map_none]
  | true =>
      obtain ⟨rest, hsame, hbody⟩ := lineBody_of_isRemark hfeed hremark
      have hfilter : ('/' :: '/' :: rest).filter (· != '\t') = '/' :: '/' :: rest.filter (· != '\t') := rfl
      have hremark (rest : List Char) :
          remark? .code ('/' :: '/' :: rest) = some ⟨.code, trimEnd ('/' :: '/' :: rest)⟩ := by
        have hstart : trimStart ('/' :: '/' :: rest) = '/' :: '/' :: rest :=
          trimStart_of_head (by simp [isSpace])
        rw [remark?, isRemark, hstart]
        rfl
      rw [hbody, hsame, hfilter, hremark, hremark, ← hfilter, trimEnd_filter_tab]
      rfl

/-! ## Literals -/

/-- A literal keeps its first character, and behind another one than the quote it goes on. -/
lemma through_quoted_cons (quote c : Char) (rest : List Char) :
    through [quote] (c :: rest) = c :: if c = quote then [] else through [quote] rest := by
  by_cases hc : c = quote
  · simp [through, hc]
  · simp [through, hc, Ne.symm hc]

lemma through_quoted_append {quote : Char} {text : List Char} (h : through [quote] text ≠ text)
    (behind : List Char) : through [quote] (through [quote] text ++ behind) = through [quote] text := by
  induction text with
  | nil => exact absurd rfl h
  | cons c rest ih =>
      rw [through_quoted_cons] at h
      rw [through_quoted_cons, List.cons_append, through_quoted_cons]
      split
      · rfl
      · next hc =>
          rw [if_neg hc] at h
          rw [ih fun hall => h (by rw [hall])]

/-- **A remark that starts in a literal** does not depend on what follows the literal. -/
lemma remark?_quoted {quote : Char} (hmode : within mode = through [quote]) (hquote : quote ≠ '/')
    {body : List Char} (hhead : ∀ c ∈ body.head?, isSpace c = false) {behind : List Char}
    (hbehind : through [quote] body = body → behind = []) :
    remark? mode (through [quote] body ++ behind) = remark? mode body := by
  by_cases hall : through [quote] body = body
  · rw [hall, hbehind hall, List.append_nil]
  · have hthrough := through_quoted_append hall behind
    have hhead' : ∀ c ∈ (through [quote] body ++ behind).head?, isSpace c = false := by
      cases body with
      | nil => exact absurd rfl hall
      | cons c rest =>
          rw [through_quoted_cons]
          exact hhead
    have hremark : isRemark (through [quote] body ++ behind) = isRemark body := by
      rw [Bool.eq_iff_iff, isRemark_iff hhead', isRemark_iff hhead]
      cases body with
      | nil => exact absurd rfl hall
      | cons c rest =>
          rw [through_quoted_cons, List.cons_append, List.cons_prefix_cons, List.cons_prefix_cons]
          refine and_congr_right fun hslash => ?_
          rw [if_neg (hslash ▸ hquote.symm)]
          -- the second character is in the literal as well
          cases rest with
          | nil => exact absurd (by rw [through_quoted_cons]; simp [through]) hall
          | cons d rest =>
              rw [through_quoted_cons, List.cons_append, List.cons_prefix_cons, List.cons_prefix_cons]
              simp
    rw [remark?, remark?, hremark, trimStart_of_head hhead', trimStart_of_head hhead, hmode, hthrough]

lemma squeezeFrom_literal (text : List Char) (rest : List Cell) :
    squeezeFrom false (text.map (⟨·, .literal⟩) ++ rest) = text ++ squeezeFrom false rest := by
  induction text with
  | nil => rfl
  | cons c text ih => simp [squeezeFrom, ih]

lemma dropTabs_literal (text : List Char) : dropTabs (text.map (⟨·, .literal⟩)) = text := by
  rw [dropTabs, List.filter_eq_self.2 (by simp), chars_map_mk]

/-- **The remark of a line that starts in a literal or a block comment** stays as it is. -/
lemma remark?_lineBody_of_ne (hline : mode ≠ .line) (hcode : mode ≠ .code) :
    remark? mode (lineBody (scanLine mode line).1) = remark? mode line := by
  obtain ⟨hlabel, hsame⟩ := trimCells_labelFrom hline line
  have hhead : ∀ c ∈ (chars (trimCells (labelFrom (.ready mode) line))).head?, isSpace c = false := by
    simpa [chars] using head?_trimCells (labelFrom (.ready mode) line)
  rw [hsame]
  generalize hbody : chars (trimCells (labelFrom (.ready mode) line)) = body at hlabel hhead
  -- the two kinds of literals
  have hquoted (quote : Char) (hwithin : within mode = through [quote]) (hquote : quote ≠ '/')
      (hcells : labelFrom (.ready mode) body = (through [quote] body).map (⟨·, .literal⟩)
        ++ labelFrom (.ready .code) (body.drop (through [quote] body).length)) :
      remark? mode (dropTabs (labelFrom (.ready mode) body)) = remark? mode body
        ∧ remark? mode (squeezeFrom false (labelFrom (.ready mode) body)) = remark? mode body := by
    have hbehind (hall : through [quote] body = body) :
        labelFrom (.ready .code) (body.drop (through [quote] body).length) = [] := by
      rw [hall, List.drop_length]
      rfl
    rw [hcells, dropTabs_append, dropTabs_literal, squeezeFrom_literal]
    exact ⟨remark?_quoted hwithin hquote hhead fun hall => by rw [hbehind hall]; rfl,
      remark?_quoted hwithin hquote hhead fun hall => by rw [hbehind hall]; rfl⟩
  have hscanned : (scanLine mode line).1
      = ⟨.between mode (scanLine mode line).2, labelFrom (.ready mode) line⟩ := rfl
  rw [hscanned]
  generalize (scanLine mode line).2 = next
  cases hposition : CommentPosition.between mode next with
  | inside =>
      simp only [lineBody]
      rw [chars_labelFrom, hsame, hbody]
  | opens => exact congrArg (remark? mode) hbody
  | closes => exact congrArg (remark? mode) hbody
  | code =>
      simp only [lineBody, hlabel]
      cases mode with
      | code => exact absurd rfl hcode
      | line => exact absurd rfl hline
      | block => cases next <;> exact absurd hposition (by decide)
      | single =>
          obtain ⟨htabs, hsqueezed⟩ := hquoted '\'' rfl (by decide)
            (labelFrom_quoted .single '\'' (by simp [step]) body)
          split
          · exact htabs
          · exact hsqueezed
      | double =>
          obtain ⟨htabs, hsqueezed⟩ := hquoted '"' rfl (by decide)
            (labelFrom_quoted .double '"' (by simp [step]) body)
          split
          · exact htabs
          · exact hsqueezed

/-- **The remark of a line that is indented.** -/
lemma remark?_lineBody (hmode : mode ≠ .line) (hfeed : '\n' ∉ line)
    (hmarks : losesTabs (scanLine mode line).1 = true → marksWhole (.ready mode) line = true) :
    remark? mode (lineBody (scanLine mode line).1) = (remark? mode line).map untab := by
  by_cases hcode : mode = .code
  · subst hcode
    exact remark?_lineBody_code hfeed hmarks
  · rw [remark?_lineBody_of_ne hmode hcode, map_untab hcode]

end Lines

/-! ## All lines -/

/-- A blank line is no remark. -/
lemma remark?_of_bare {line : List Char} (h : isBare line = true) (mode : Mode) : remark? mode line = none := by
  have hnil : trimStart line = [] := List.dropWhile_eq_nil_iff.2 (List.all_eq_true.1 h)
  refine remark?_eq_none ?_ mode
  rw [isRemark, hnil]
  rfl

/-- **The lines that an indenter keeps** have the remarks of all lines, without the tabs of code. -/
lemma remarksFrom_indenterLines (s : Indenter) (hmode : s.mode ≠ .line) {ls : List (List Char)}
    (hls : ∀ line ∈ ls, '\n' ∉ line) (htabs : tabsHarmless s.mode ls = true) :
    remarksFrom s.mode (s.lines ls) = (remarksFrom s.mode ls).map untab := by
  induction ls generalizing s with
  | nil => rfl
  | cons line ls ih =>
      obtain ⟨hfeed, hls⟩ := List.forall_mem_cons.1 hls
      simp only [tabsHarmless, Bool.and_eq_true] at htabs
      cases hline : isBare line with
      | true =>
          rw [remarksFrom, remark?_of_bare hline]
          rw [scanLine_of_bare hmode hline] at htabs ⊢
          have hmode' := (blankLine_kept s).2.2
          have hrest := ih s.blankLine.2 (hmode' ▸ hmode) hls (by rw [hmode']; exact htabs.2)
          rw [hmode'] at hrest
          rcases s.lines_bare hline ls with hlines | hlines
          · rw [hlines]
            exact hrest
          · have hempty : (scanLine s.mode []).2 = s.mode := scanLine_of_bare hmode rfl
            rw [hlines, remarksFrom, remark?_of_bare rfl, hempty]
            exact hrest
      | false =>
          obtain ⟨level, hplaced⟩ := exists_fullLine s line
          have hmarks (hloses : losesTabs (scanLine s.mode line).1 = true) :
              marksWhole (.ready s.mode) line = true := by simpa [hloses] using htabs.1
          have hrest := ih (s.fullLine line).2 (by rw [fullLine_mode]; exact scanLine_ne_line _ _) hls
            (by rw [fullLine_mode]; exact htabs.2)
          rw [fullLine_mode] at hrest
          have hspace := isSpace_indentation s.unit level
          have hnext : (scanLine s.mode (s.unit.indentation level ++ lineBody (scanLine s.mode line).1)).2
              = (scanLine s.mode line).2 :=
            ((SameUpToBreaks.trimFront hmode hspace _).next.symm.trans (sameUpToBreaks_lineBody hmode hmarks).next)
          have hremark := remark?_trim hspace (List.forall_mem_nil _) s.mode (lineBody (scanLine s.mode line).1)
          rw [List.append_nil, remark?_lineBody hmode hfeed hmarks] at hremark
          simp only [s.lines_full hline, hplaced, remarksFrom, hnext, hremark, hrest, List.map_append]
          cases remark? s.mode line <;> rfl

/-- Empty lines at the ends of a text are no remarks. -/
lemma remarksFrom_empty {mode : Mode} (hmode : mode ≠ .line) (n : Nat) (ls : List (List Char)) :
    remarksFrom mode (List.replicate n [] ++ ls) = remarksFrom mode ls := by
  induction n with
  | zero => rfl
  | succ n ih =>
      have hempty : (scanLine mode []).2 = mode := scanLine_of_bare hmode rfl
      rw [List.replicate_succ, List.cons_append, remarksFrom, hempty, remark?_of_bare rfl, ih]
      rfl

lemma remarksFrom_append_empty {mode : Mode} (hmode : mode ≠ .line) (ls : List (List Char)) (n : Nat) :
    remarksFrom mode (ls ++ List.replicate n []) = remarksFrom mode ls := by
  induction ls generalizing mode with
  | nil => simpa using remarksFrom_empty hmode n []
  | cons line ls ih => rw [List.cons_append, remarksFrom, remarksFrom, ih (scanLine_ne_line mode line)]

/-- **The indentation pass drops the tabs of remarks in code**, if no tabs keep a comment mark apart. -/
lemma remarks_indentLines (unit : IndentUnit) {text : List Char}
    (htabs : tabsHarmless .code (lines text) = true) :
    remarks (indentLines unit text) = (remarks text).map untab := by
  have hfeeds : ∀ line ∈ lines text, '\n' ∉ line := fun _ => feed_notMem_of_mem_lines
  have hkept := remarksFrom_indenterLines { unit } Mode.noConfusion hfeeds htabs
  -- the lines that are kept are those of their text
  have hjoined : remarks (unlines (Indenter.lines { unit } (lines text))) = (remarks text).map untab := by
    by_cases hnil : Indenter.lines { unit } (lines text) = []
    · rw [hnil] at hkept ⊢
      exact hkept
    · rw [remarks, lines_unlines hnil (feed_notMem_indenterLines { unit } hfeeds)]
      exact hkept
  obtain ⟨front, back, hsplit, hfront, hback⟩ := exists_indentLines unit text
  rw [hsplit, remarks, lines_feeds hfront, lines_append_feeds hback, remarksFrom_empty Mode.noConfusion,
    remarksFrom_append_empty Mode.noConfusion] at hjoined
  exact hjoined

end SqfLayout.Pass
