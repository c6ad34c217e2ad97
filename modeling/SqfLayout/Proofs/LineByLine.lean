import SqfLayout.Proofs.Indentation
import SqfLayout.Proofs.Settled

/-!
# Layouts line by line

**Lines.**  The text of a layout is cut at the line breaks of its gaps: the line that it starts in
(`Layout.firstLine`) and the lines behind it (`Layout.lowerLines`).

**One line.**  A line of tokens is read as code up to a remark, and its body is the line with its gaps
squeezed, or the line itself if a remark ends it (`Fitting.lineBody_eq`).  It moves the depth as the squeezed
line does (`depthChange_eq`).  From a line with a remark indentation drops the tabs, so there must not be
any (`Layout.Untabbed`).
-/

namespace SqfLayout

open SqfLayout.Text SqfLayout.Scan SqfLayout.Pass

/-! ## Lines -/

namespace Layout

@[simp] lemma text_last (gap : List Char) : (last gap).text = gap := by
  simp [text, cells, chars, Function.comp_def]

@[simp] lemma text_cons (gap : List Char) (token : Token) (rest : Layout) :
    (cons gap token rest).text = gap ++ (token.text ++ rest.text) := by
  simp [text, cells, chars, Token.text, Function.comp_def]

/-- The rest of the line that a layout starts in. -/
def firstLine : Layout → Layout
  | last _ => last []
  | cons gap token rest => if '\n' ∈ gap then last [] else cons gap token rest.firstLine

/-- The lines behind that. -/
def lowerLines : Layout → List (List Char)
  | last gap => List.replicate gap.length []
  | cons gap token rest =>
    if '\n' ∈ gap then List.replicate (gap.length - 1) [] ++ (token.text ++ rest.firstLine.text) :: rest.lowerLines
    else rest.lowerLines

end Layout

lemma Token.feed_notMem {t : Token} (ht : t.Valid) : '\n' ∉ t.text := by
  intro hmem
  obtain ⟨cell, hcell, hchar⟩ := List.mem_map.1 hmem
  exact char_ne_feed ht cell hcell hchar

section Fitting

variable {prev : Option Token} {t : Token} {s : Layout}

/-- The white space at the end of a layout is line feeds. -/
lemma Fits.feeds_of_last {gap : List Char} (h : Fits prev gap none) : ∀ c ∈ gap, c = '\n' := h.edge (.inr rfl)

lemma Fits.feeds_of_feed {next : Option Token} {gap : List Char} (h : Fits prev gap next) (hfeed : '\n' ∈ gap) :
    ∀ c ∈ gap, c = '\n' := by
  rcases h.tidy with hblank | hfeeds
  · exact absurd hfeed (feed_notMem_of_blanks hblank)
  · exact hfeeds

/-- **The lines of a layout.** -/
lemma Fitting.lines_text (h : Fitting prev s) : lines s.text = s.firstLine.text :: s.lowerLines := by
  induction s generalizing prev with
  | last gap =>
      have hlines := lines_feeds h.feeds_of_last []
      rw [List.append_nil] at hlines
      simp only [Layout.text_last, hlines, Layout.firstLine, Layout.lowerLines,
        lines_eq_singleton (by simp : '\n' ∉ [])]
      rw [← List.replicate_succ', List.replicate_succ]
  | cons gap token rest ih =>
      obtain ⟨hfits, hvalid, hrest⟩ := h
      have htoken := lines_append_of_notMem (Token.feed_notMem hvalid) (ih hrest)
      rw [Layout.text_cons, Layout.firstLine, Layout.lowerLines]
      by_cases hfeed : '\n' ∈ gap
      · rw [if_pos hfeed, if_pos hfeed, lines_feeds (hfits.feeds_of_feed hfeed), htoken]
        obtain ⟨n, hn⟩ : ∃ n, gap.length = n + 1 := Nat.exists_eq_succ_of_ne_zero (by
          rintro hzero
          simp [List.length_eq_zero_iff.1 hzero] at hfeed)
        simp [hn, List.replicate_succ]
      · rw [if_neg hfeed, if_neg hfeed, lines_append_of_notMem hfeed htoken, Layout.text_cons]

lemma fits_nil_none (prev : Option Token) : Fits prev [] none := ⟨by simp, by simp, by simp, by simp, by simp⟩

lemma Fitting.firstLine (h : Fitting prev s) : Fitting prev s.firstLine := by
  induction s generalizing prev with
  | last gap => exact fits_nil_none prev
  | cons gap token rest ih =>
      obtain ⟨hfits, hvalid, hrest⟩ := h
      rw [Layout.firstLine]
      split
      · exact fits_nil_none prev
      · exact ⟨hfits, hvalid, ih hrest⟩

/-! ## The body of a line -/

/-- **A line of tokens is read as code**, up to a remark. -/
lemma Fitting.scanLine_eq (ht : t.Valid) (h : Fitting (some t) s) :
    scanLine .code (t.text ++ s.firstLine.text) = (⟨.code, t.cells ++ s.firstLine.cells⟩, .code) := by
  obtain ⟨mode, hmode, hline⟩ := h.firstLine.reads
  have hreads : Reads (.ready .code) (t.cells ++ s.firstLine.cells) none (.ready mode) :=
    reads_append.2 ⟨_, t.reads ht h.firstLine.joins, hline⟩
  have hchars : t.text ++ s.firstLine.text = chars (t.cells ++ s.firstLine.cells) := by
    rw [chars_append]
    rfl
  rw [scanLine, modeAfter, hchars, hreads.cursorAfter_eq, hreads.labelFrom_eq]
  rcases hmode with rfl | rfl <;> rfl

lemma Token.any_comment (ht : t.Valid) : t.cells.any (·.kind == .comment) = t.isRemark := by
  cases hremark : t.isRemark with
  | true =>
      obtain ⟨body, rfl⟩ := isRemark_iff.1 hremark
      simp [cells]
  | false =>
      rw [List.any_eq_false]
      intro cell hcell
      simpa using kind_ne_comment ht hremark hcell

/-- **The line that a layout starts in has a comment if a remark ends it.** -/
lemma Fitting.any_comment (h : Fitting prev s) :
    s.firstLine.cells.any (·.kind == .comment) = s.commented := by
  induction s generalizing prev with
  | last gap => rfl
  | cons gap token rest ih =>
      obtain ⟨-, hvalid, hrest⟩ := h
      rw [Layout.firstLine, Layout.commented]
      by_cases hfeed : '\n' ∈ gap
      · simp [hfeed, Layout.cells]
      · have hgap : (gap.map Cell.code).any (·.kind == .comment) = false := by simp
        rw [if_neg hfeed, Layout.cells, List.any_append, List.any_append, hgap, Token.any_comment hvalid, ih hrest]
        simp [hfeed]

/-- A line of tokens ends with one of them. -/
lemma Fitting.isSpace_last (ht : t.Valid) (h : Fitting (some t) s) :
    ∀ cell ∈ (t.cells ++ s.firstLine.cells).getLast?, isSpace cell.char = false := by
  have hend {t : Token} (ht : t.Valid) : ∀ cell ∈ (t.cells ++ (Layout.last []).cells).getLast?,
      isSpace cell.char = false := by
    intro cell hcell
    exact Token.isSpace_ends ht (.inr (by simpa [Layout.cells] using hcell))
  induction s generalizing t with
  | last gap => exact hend ht
  | cons gap token rest ih =>
      obtain ⟨-, hvalid, hrest⟩ := h
      rw [Layout.firstLine]
      split
      · exact hend ht
      · have hne : token.cells ++ rest.firstLine.cells ≠ [] := by simp [Token.cells_ne_nil hvalid]
        rw [Layout.cells, ← List.append_assoc, List.getLast?_append_of_ne_nil _ hne]
        exact ih hvalid hrest

lemma Fitting.trimCells_eq (ht : t.Valid) (h : Fitting (some t) s) :
    trimCells (t.cells ++ s.firstLine.cells) = t.cells ++ s.firstLine.cells := by
  have hbetween : trimCells ([] ++ ((t.cells ++ s.firstLine.cells) ++ [])) = t.cells ++ s.firstLine.cells := by
    refine dropEnds_between (by simp) (by simp) ?_ (h.isSpace_last ht)
    exact Token.isSpace_head ht _
  simpa using hbetween

/-- A token is not squeezed. -/
lemma squeezeFrom_token (ht : t.Valid) (hremark : t.isRemark = false) (rest : List Cell) :
    squeezeFrom false (t.cells ++ rest) = t.text ++ squeezeFrom false rest := by
  have hpass {block : List Cell} (hblock : ∀ cell ∈ block, cell.kind = .literal ∨ isBlank cell.char = false) :
      squeezeFrom false (block ++ rest) = chars block ++ squeezeFrom false rest := by
    induction block with
    | nil => rfl
    | cons cell block ih =>
        obtain ⟨hcell, hblock⟩ := List.forall_mem_cons.1 hblock
        rw [List.cons_append, squeezeFrom, ih hblock]
        rcases hcell with hliteral | hblank
        · simp [hliteral]
        · simp [hblank]
  refine hpass fun cell hcell => ?_
  rcases Token.code_or_quoted ht with hcode | ⟨quote, body, rfl⟩ | ⟨body, rfl⟩
  · exact .inr (isBlank_of_isSpace_false (hcode cell hcell).2)
  · obtain ⟨c, -, rfl⟩ := List.mem_map.1 hcell
    exact .inl rfl
  · simp [Token.isRemark] at hremark

/-- The rest of a run of blanks is dropped. -/
lemma squeezeFrom_dropping {gap : List Char} (hgap : ∀ c ∈ gap, isBlank c = true) {rest : List Cell}
    (hrest : ∀ cell ∈ rest.head?, isBlank cell.char = false) :
    squeezeFrom true (gap.map Cell.code ++ rest) = squeezeFrom false rest := by
  induction gap with
  | nil =>
      cases rest with
      | nil => rfl
      | cons cell rest => simp [squeezeFrom, hrest cell rfl]
  | cons c gap ih =>
      obtain ⟨hc, hgap⟩ := List.forall_mem_cons.1 hgap
      rw [List.map_cons, List.cons_append, squeezeFrom]
      simp [hc, ih hgap]

/-- **A gap within a line is squeezed by the rule.** -/
lemma squeezeFrom_gap {gap : List Char} (hgap : ∀ c ∈ gap, isBlank c = true) {rest : List Cell}
    (hrest : ∀ cell ∈ rest.head?, isBlank cell.char = false) :
    squeezeFrom false (gap.map Cell.code ++ rest) = squeezeGap false gap ++ squeezeFrom false rest := by
  have hfeed := feed_notMem_of_blanks hgap
  match gap with
  | [] => rfl
  | [c] =>
      have hnext : rest.head?.any (isBlank ·.char) = false := by
        cases rest with
        | nil => rfl
        | cons cell rest => simpa using hrest cell rfl
      simp [squeezeFrom, squeezeGap, hnext]
  | c :: d :: gap =>
      obtain ⟨hc, hdgap⟩ := List.forall_mem_cons.1 hgap
      have hd := hdgap d List.mem_cons_self
      have hdropping := squeezeFrom_dropping hdgap hrest
      rw [List.map_cons, List.cons_append, squeezeFrom, hdropping]
      simp [hc, hd, squeezeGap, hfeed]

lemma Fits.blank_of_feed_notMem {next : Option Token} {gap : List Char} (h : Fits prev gap next)
    (hfeed : '\n' ∉ gap) : ∀ c ∈ gap, isBlank c = true := by
  rcases h.tidy with hblank | hfeeds
  · exact hblank
  · intro c hc
    exact absurd (hfeeds c hc ▸ hc) hfeed

lemma Layout.squeezed_cons (gap : List Char) (token : Token) (rest : Layout) :
    (cons gap token rest).squeezed
      = cons (squeezeGap (token.isRemark || rest.commented) gap) token rest.squeezed := rfl

/-- **A line of tokens is squeezed by the rule**, if no remark ends it. -/
lemma Fitting.squeezeFrom_eq (h : Fitting prev s) (hcommented : s.commented = false) :
    squeezeFrom false s.firstLine.cells = s.squeezed.firstLine.text := by
  induction s generalizing prev with
  | last gap => rfl
  | cons gap token rest ih =>
      obtain ⟨hfits, hvalid, hrest⟩ := h
      rw [Layout.squeezed_cons, Layout.firstLine, Layout.firstLine]
      by_cases hfeed : '\n' ∈ gap
      · rw [if_pos hfeed, if_pos (feed_mem_squeezeGap.2 hfeed)]
        rfl
      · obtain ⟨hremark, hline⟩ : token.isRemark = false ∧ rest.commented = false := by
          simpa [Layout.commented, hfeed] using hcommented
        rw [if_neg hfeed, if_neg (feed_mem_squeezeGap.not.2 hfeed), Layout.cells, Layout.text_cons,
          squeezeFrom_gap (hfits.blank_of_feed_notMem hfeed) (Token.isBlank_head hvalid _),
          squeezeFrom_token hvalid hremark, ih hrest hline, hremark, hline, Bool.or_false]

/-- A remark ends the line that it is in. -/
lemma Fitting.firstLine_of_remark (h : Fitting (some t) s) (hremark : t.isRemark = true) :
    s.firstLine = .last [] := by
  cases s with
  | last gap => rfl
  | cons gap token rest => rw [Layout.firstLine, if_pos (h.1.ends (by simp) t rfl hremark)]

/-- No blanks are squeezed in a line that a remark ends. -/
lemma Fitting.firstLine_commented (h : Fitting prev s) (hcommented : s.commented = true) :
    s.squeezed.firstLine = s.firstLine := by
  induction s generalizing prev with
  | last gap => rfl
  | cons gap token rest ih =>
      obtain ⟨hfits, hvalid, hrest⟩ := h
      obtain ⟨hfeed, hline⟩ : '\n' ∉ gap ∧ (token.isRemark || rest.commented) = true := by
        simpa [Layout.commented] using hcommented
      have hgap : squeezeGap true gap = gap := by simp [squeezeGap]
      rw [Layout.squeezed_cons, hline, hgap, Layout.firstLine, Layout.firstLine, if_neg hfeed, if_neg hfeed]
      cases hrestCommented : rest.commented with
      | true => rw [ih hrest hrestCommented]
      | false =>
          have hremark : token.isRemark = true := by simpa [hrestCommented] using hline
          cases rest with
          | last gap' => rfl
          | cons gap' next behind =>
              have hend := hrest.1.ends (by simp) token rfl hremark
              rw [Layout.squeezed_cons, Layout.firstLine, Layout.firstLine, if_pos hend,
                if_pos (feed_mem_squeezeGap.2 hend)]

/-- **A layout without tabs in the lines that remarks end.** -/
def Layout.Untabbed : Layout → Prop
  | last _ => True
  | cons gap token rest => ((token.isRemark || rest.commented) = true → '\t' ∉ gap) ∧ rest.Untabbed

/-- What is no tab is kept. -/
lemma dropTabs_eq {cells : List Cell} (h : ∀ cell ∈ cells, cell.char = '\t' → cell.kind = .literal) :
    dropTabs cells = chars cells := by
  rw [dropTabs, List.filter_eq_self.2 fun cell hcell => ?_]
  by_cases htab : cell.char = '\t'
  · simp [h cell hcell htab]
  · simp [htab]

lemma Token.tab_literal (ht : t.Valid) : ∀ cell ∈ t.cells, cell.char = '\t' → cell.kind = .literal := by
  intro cell hcell htab
  rcases code_or_quoted ht with hcode | ⟨quote, body, rfl⟩ | ⟨body, rfl⟩
  · have hspace := (hcode cell hcell).2
    rw [htab] at hspace
    exact absurd hspace (by decide)
  · obtain ⟨c, -, rfl⟩ := List.mem_map.1 hcell
    rfl
  · obtain ⟨c, hc, rfl⟩ := List.mem_map.1 hcell
    obtain rfl : c = '\t' := htab
    simp [ht.2.1] at hc

lemma Fitting.tab_literal (h : Fitting prev s) (hcommented : s.commented = true) (htabs : s.Untabbed) :
    ∀ cell ∈ s.firstLine.cells, cell.char = '\t' → cell.kind = .literal := by
  induction s generalizing prev with
  | last gap => simp [Layout.firstLine, Layout.cells]
  | cons gap token rest ih =>
      obtain ⟨-, hvalid, hrest⟩ := h
      obtain ⟨hfeed, hline⟩ : '\n' ∉ gap ∧ (token.isRemark || rest.commented) = true := by
        simpa [Layout.commented] using hcommented
      have hgap : ∀ cell ∈ gap.map Cell.code, cell.char = '\t' → cell.kind = .literal := by
        intro cell hcell htab
        obtain ⟨c, hc, rfl⟩ := List.mem_map.1 hcell
        obtain rfl : c = '\t' := htab
        exact absurd hc (htabs.1 hline)
      rw [Layout.firstLine, if_neg hfeed, Layout.cells]
      refine List.forall_mem_append.2 ⟨hgap, List.forall_mem_append.2 ⟨Token.tab_literal hvalid, ?_⟩⟩
      cases hrestCommented : rest.commented with
      | true => exact ih hrest hrestCommented htabs.2
      | false =>
          rw [hrest.firstLine_of_remark (by simpa [hrestCommented] using hline)]
          simp [Layout.cells]

/-- **The body of a line of tokens.** -/
lemma Fitting.lineBody_eq (ht : t.Valid) (h : Fitting (some t) s) (htabs : s.Untabbed) :
    lineBody (scanLine .code (t.text ++ s.firstLine.text)).1 = t.text ++ s.squeezed.firstLine.text := by
  have hcomment : (⟨.code, t.cells ++ s.firstLine.cells⟩ : ScannedLine).hasComment
      = (t.isRemark || s.commented) := by
    rw [ScannedLine.hasComment, List.any_append, Token.any_comment ht, h.any_comment]
  rw [h.scanLine_eq ht]
  simp only [lineBody, hcomment, h.trimCells_eq ht]
  cases hcommented : s.commented with
  | true =>
      rw [Bool.or_true, if_pos rfl, h.firstLine_commented hcommented,
        dropTabs_eq (List.forall_mem_append.2 ⟨Token.tab_literal ht, h.tab_literal hcommented htabs⟩), chars_append]
      rfl
  | false =>
      cases hremark : t.isRemark with
      | true =>
          have hline := h.squeezeFrom_eq hcommented
          rw [h.firstLine_of_remark hremark] at hline ⊢
          have hnil : (Layout.last []).cells = [] := rfl
          rw [Bool.or_false, if_pos rfl, ← hline, hnil, List.append_nil, dropTabs_eq (Token.tab_literal ht)]
          exact (List.append_nil _).symm
      | false =>
          rw [Bool.or_false, if_neg (by simp), squeezeFrom_token ht hremark, h.squeezeFrom_eq hcommented]

/-! ## The depth of a line -/

lemma takeWhile_ink {c : Char} (hc : isSpace c = false) (line : List Char) :
    (ink line).takeWhile (· != c) = ink (line.takeWhile (· != c)) := by
  induction line with
  | nil => rfl
  | cons d line ih =>
      by_cases hspace : isSpace d = true
      · have hne : d ≠ c := by
          rintro rfl
          rw [hc] at hspace
          contradiction
        have hink (rest : List Char) : ink (d :: rest) = ink rest := by simp [ink, hspace]
        rw [hink, ih, List.takeWhile_cons_of_pos (by simpa using hne), hink]
      · have hink (rest : List Char) : ink (d :: rest) = d :: ink rest := by simp [ink, hspace]
        by_cases hd : d = c
        · rw [hink, List.takeWhile_cons_of_neg (by simp [hd]), List.takeWhile_cons_of_neg (by simp [hd])]
          rfl
        · rw [hink, List.takeWhile_cons_of_pos (by simpa using hd), ih,
            List.takeWhile_cons_of_pos (by simpa using hd), hink]

/-- **White space does not count for the depth.** -/
lemma depthChange_ink (line : List Char) : DepthChange.of (ink line) = DepthChange.of line := by
  have hcloses {opening closing : Char} (hopening : isSpace opening = false) (hclosing : isSpace closing = false) :
      closesFirst (ink line) opening closing = closesFirst line opening closing := by
    rw [closesFirst, closesFirst, takeWhile_ink hopening, Bool.eq_iff_iff, List.contains_iff_mem,
      List.contains_iff_mem, ink, List.mem_filter]
    simp [hclosing]
  simp only [DepthChange.of, count_ink (by decide : isSpace '[' = false),
    count_ink (by decide : isSpace '{' = false), count_ink (by decide : isSpace ']' = false),
    count_ink (by decide : isSpace '}' = false),
    hcloses (by decide : isSpace '[' = false) (by decide : isSpace ']' = false),
    hcloses (by decide : isSpace '{' = false) (by decide : isSpace '}' = false)]

lemma Fitting.ink_text (h : Fitting prev s) : ink s.text = s.tokens.flatMap fun t => ink t.text := by
  induction s generalizing prev with
  | last gap =>
      rw [Layout.text_last, ink_eq_nil h.isSpace]
      rfl
  | cons gap token rest ih =>
      obtain ⟨hfits, -, hrest⟩ := h
      rw [Layout.text_cons, ink_append, ink_append, ink_eq_nil hfits.isSpace, ih hrest]
      rfl

namespace Layout

variable (lines : List Bool) (s : Layout)

lemma firstLine_squeezeWith : (s.squeezeWith lines).firstLine = s.firstLine.squeezeWith lines := by
  induction s generalizing lines with
  | last gap => rfl
  | cons gap token rest ih =>
      rw [squeezeWith, Layout.firstLine, Layout.firstLine]
      by_cases hfeed : '\n' ∈ gap
      · rw [if_pos hfeed, if_pos (feed_mem_squeezeGap.2 hfeed)]
        rfl
      · rw [if_neg hfeed, if_neg (feed_mem_squeezeGap.not.2 hfeed), ih]
        rfl

lemma tokens_squeezeWith : (s.squeezeWith lines).tokens = s.tokens := by
  induction s generalizing lines with
  | last gap => rfl
  | cons gap token rest ih => exact congrArg (token :: ·) (ih lines.tail)

lemma commented_squeezeWith : (s.squeezeWith lines).commented = s.commented := by
  induction s generalizing lines with
  | last gap => rfl
  | cons gap token rest ih =>
      have hfeed : (squeezeGap (lines.headD true) gap).contains '\n' = gap.contains '\n' := by
        rw [Bool.eq_iff_iff, List.contains_iff_mem, List.contains_iff_mem, feed_mem_squeezeGap]
      rw [squeezeWith, commented, commented, hfeed, ih]

lemma commentedLines_squeezeWith : (s.squeezeWith lines).commentedLines = s.commentedLines := by
  induction s generalizing lines with
  | last gap => rfl
  | cons gap token rest ih => rw [squeezeWith, commentedLines, commentedLines, commented_squeezeWith, ih]

/-- **Squeezing again changes nothing.** -/
lemma squeezed_squeezed : s.squeezed.squeezed = s.squeezed := by
  have htwice (lines : List Bool) : (s.squeezeWith lines).squeezeWith lines = s.squeezeWith lines := by
    induction s generalizing lines with
    | last gap => rfl
    | cons gap token rest ih => simp only [squeezeWith, squeezeGap_squeezeGap, ih]
  rw [squeezed, squeezed, commentedLines_squeezeWith, htwice]

variable {s}

lemma Untabbed.squeezeWith (h : s.Untabbed) : (s.squeezeWith lines).Untabbed := by
  induction s generalizing lines with
  | last gap => trivial
  | cons gap token rest ih =>
      refine ⟨fun hline => ?_, ih _ h.2⟩
      rw [commented_squeezeWith] at hline
      unfold squeezeGap
      split_ifs
      · decide
      · exact h.1 hline

end Layout

/-- Line feeds at the ends of a text are not squeezed. -/
lemma Fits.squeezeGap_ends {gap : List Char} {next : Option Token} (h : Fits prev gap next)
    (hends : prev = none ∨ next = none) (commented : Bool) : squeezeGap commented gap = gap := by
  cases gap with
  | nil => simp [squeezeGap]
  | cons c gap =>
      obtain rfl := h.edge hends c List.mem_cons_self
      exact squeezeGap_of_feed (by simp)

lemma Fits.squeezeGap {gap : List Char} {next : Option Token} (h : Fits prev gap next) (commented : Bool) :
    Fits prev (squeezeGap commented gap) next := by
  by_cases hends : prev = none ∨ next = none
  · rwa [h.squeezeGap_ends hends]
  · obtain ⟨hprev, hnext⟩ := not_or.1 hends
    unfold SqfLayout.squeezeGap
    split_ifs with hlong
    · exact h.space hprev (h.no_remark hlong.2.1 hnext) hnext
    · exact h

lemma Fitting.squeezeWith (h : Fitting prev s) (lines : List Bool) : Fitting prev (s.squeezeWith lines) := by
  induction s generalizing prev lines with
  | last gap => exact h
  | cons gap token rest ih =>
      obtain ⟨hfits, hvalid, hrest⟩ := h
      exact ⟨hfits.squeezeGap _, hvalid, ih hrest _⟩

lemma Fitting.squeezed (h : Fitting prev s) : Fitting prev s.squeezed := h.squeezeWith _

/-- **A line of tokens moves the depth as the squeezed line does.** -/
lemma Fitting.depthChange_eq (h : Fitting (some t) s) :
    DepthChange.of (t.text ++ s.squeezed.firstLine.text) = DepthChange.of (t.text ++ s.firstLine.text) := by
  rw [← depthChange_ink, ← depthChange_ink (t.text ++ s.firstLine.text), ink_append, ink_append,
    Layout.squeezed, Layout.firstLine_squeezeWith, h.firstLine.ink_text, (h.firstLine.squeezeWith _).ink_text,
    Layout.tokens_squeezeWith]

end Fitting

end SqfLayout
