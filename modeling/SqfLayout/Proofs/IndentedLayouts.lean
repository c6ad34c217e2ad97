import SqfLayout.Proofs.LineByLine

/-!
# Indenting a layout

**Blank lines.**  Before a full line at most one blank line is kept (`lines_blanks_full`), and which lines
are kept is what `Layout.thin` says.

**The same indentation.**  A layout is indented as the layout with its gaps squeezed and its blank lines
thinned out (`indentLines_squeezed`, `indentLines_thin`).

**Back again.**  The indentation of such a layout is white space at the starts of its lines, which the
margins pass takes away (`stripMargins_indentLines`).
-/

namespace SqfLayout

open SqfLayout.Text SqfLayout.Scan SqfLayout.Pass

/-! ## Full lines and blank lines -/

lemma isBare_token {t : Token} (ht : t.Valid) (rest : List Char) : isBare (t.text ++ rest) = false := by
  obtain ⟨cell, cells, hcells⟩ := List.exists_cons_of_ne_nil (Token.cells_ne_nil ht)
  have hspace := Token.isSpace_ends ht (.inl (by rw [hcells]; rfl))
  simp [isBare, Token.text, hcells, hspace]

lemma Indenter.lines_blank (st : Indenter) (rows : List (List Char)) :
    st.lines ([] :: rows) = if st.afterOpening then st.lines rows
      else (if st.afterBlank then [] else [[]]) ++ ({ st with afterBlank := true } : Indenter).lines rows := by
  rw [Indenter.lines, Indenter.line, if_pos (by rfl : isBare [] = true), Indenter.blankLine]
  cases hopening : st.afterOpening with
  | true => simp
  | false => cases hblank : st.afterBlank <;> simp

/-- A full line takes no notice of a blank line before it. -/
lemma Indenter.lines_afterBlank (st : Indenter) {row : List Char} (hrow : isBare row = false)
    (rows : List (List Char)) (blank : Bool) :
    ({ st with afterBlank := blank } : Indenter).lines (row :: rows) = st.lines (row :: rows) := by
  rw [Indenter.lines_full _ hrow, Indenter.lines_full _ hrow]
  rfl

/-- Behind a blank line, or a line that opens a bracket, blank lines are dropped. -/
lemma Indenter.lines_dropped {st : Indenter} (hst : st.afterOpening = true ∨ st.afterBlank = true) (n : Nat)
    (rows : List (List Char)) : st.lines (List.replicate n [] ++ rows) = st.lines rows := by
  induction n with
  | zero => rfl
  | succ n ih =>
      rw [List.replicate_succ, List.cons_append, Indenter.lines_blank]
      split
      · exact ih
      · next hopening =>
          have hblank : st.afterBlank = true := hst.resolve_left hopening
          have hsame : ({ st with afterBlank := true } : Indenter) = st := by rw [← hblank]
          rw [hsame, hblank, ih]
          rfl

/-- **Of several blank lines one is kept**, and none behind a line that opens a bracket. -/
lemma Indenter.lines_blanks {st : Indenter} (hst : st.afterBlank = false) (n : Nat) (rows : List (List Char)) :
    st.lines (List.replicate n [] ++ rows) = if st.afterOpening ∨ n = 0 then st.lines rows
      else [] :: ({ st with afterBlank := true } : Indenter).lines rows := by
  cases hopening : st.afterOpening with
  | true => simpa using Indenter.lines_dropped (.inl hopening) n rows
  | false =>
      cases n with
      | zero => simp
      | succ n =>
          have hdropped : ({ st with afterBlank := true } : Indenter).lines (List.replicate n [] ++ rows)
              = ({ st with afterBlank := true } : Indenter).lines rows := Indenter.lines_dropped (.inr rfl) n rows
          rw [List.replicate_succ, List.cons_append, Indenter.lines_blank, hdropped]
          simp [hopening, hst]

/-- Blank lines leave the mode as it is. -/
lemma Indenter.lines_blanks_congr (n : Nat) {a b : List (List Char)}
    (hab : ∀ {st : Indenter}, st.mode = .code → st.lines a = st.lines b) {st : Indenter} (hmode : st.mode = .code) :
    st.lines (List.replicate n [] ++ a) = st.lines (List.replicate n [] ++ b) := by
  induction n generalizing st with
  | zero => exact hab hmode
  | succ n ih =>
      have hrest : ({ st with afterBlank := true } : Indenter).lines (List.replicate n [] ++ a)
          = ({ st with afterBlank := true } : Indenter).lines (List.replicate n [] ++ b) := ih hmode
      rw [List.replicate_succ, List.cons_append, List.cons_append, Indenter.lines_blank, Indenter.lines_blank,
        ih hmode, hrest]

/-- Blank lines before a full line. -/
lemma Indenter.lines_blanks_full {st : Indenter} (hst : st.afterBlank = false) (n : Nat) {row : List Char}
    (hrow : isBare row = false) (rows : List (List Char)) :
    st.lines (List.replicate n [] ++ row :: rows)
      = List.replicate (if st.afterOpening ∨ n = 0 then 0 else 1) [] ++ st.lines (row :: rows) := by
  rw [Indenter.lines_blanks hst]
  split_ifs
  · rfl
  · exact congrArg ([] :: ·) (Indenter.lines_afterBlank st hrow rows true)

/-- Blank lines at the end. -/
lemma Indenter.lines_blanks_end {st : Indenter} (hst : st.afterBlank = false) (n : Nat) :
    ∃ k, st.lines (List.replicate n []) = List.replicate k [] := by
  have hblanks := Indenter.lines_blanks hst n []
  rw [List.append_nil] at hblanks
  rw [hblanks]
  split_ifs
  · exact ⟨0, rfl⟩
  · exact ⟨1, rfl⟩

/-- **An indenter behind a full line of code.** -/
structure BehindLine (st : Indenter) (line : List Char) : Prop where
  mode : st.mode = .code
  afterBlank : st.afterBlank = false
  afterOpening : st.afterOpening = true ↔ DepthChange.of line = .opening

lemma behindLine_fullLine {st : Indenter} {line : List Char} {cells : List Cell} (hmode : st.mode = .code)
    (hscan : scanLine .code line = (⟨.code, cells⟩, .code)) : BehindLine (st.fullLine line).2 line := by
  simp only [Indenter.fullLine, hmode, hscan]
  cases hdepth : DepthChange.of line <;> exact ⟨rfl, rfl, by simp [hdepth]⟩

/-- **What is made of a line depends on its body and its depth.** -/
lemma fullLine_congr {st : Indenter} {line line' : List Char} {cells cells' : List Cell} (hmode : st.mode = .code)
    (hscan : scanLine .code line = (⟨.code, cells⟩, .code))
    (hscan' : scanLine .code line' = (⟨.code, cells'⟩, .code))
    (hbody : lineBody (scanLine .code line).1 = lineBody (scanLine .code line').1)
    (hdepth : DepthChange.of line = DepthChange.of line') : st.fullLine line = st.fullLine line' := by
  rw [hscan, hscan'] at hbody
  simp only [Indenter.fullLine, hmode, hscan, hscan', hbody, hdepth]

/-! ## Squeezed layouts -/

section Squeezed

variable {t : Token} {s : Layout} {prev : Option Token}

/-- A line is placed as the squeezed line. -/
lemma Fitting.fullLine_squeezed (ht : t.Valid) (h : Fitting (some t) s) (htabs : s.Untabbed) {st : Indenter}
    (hmode : st.mode = .code) :
    st.fullLine (t.text ++ s.squeezed.firstLine.text) = st.fullLine (t.text ++ s.firstLine.text) := by
  have hsqueezed := h.squeezed
  refine fullLine_congr hmode (hsqueezed.scanLine_eq ht) (h.scanLine_eq ht) ?_ h.depthChange_eq
  rw [hsqueezed.lineBody_eq ht (htabs.squeezeWith _), h.lineBody_eq ht htabs, Layout.squeezed_squeezed]

/-- **The lower lines of a squeezed layout are placed as those of the layout.** -/
lemma Fitting.lines_squeezed (h : Fitting prev s) (htabs : s.Untabbed) {st : Indenter} (hmode : st.mode = .code) :
    st.lines s.squeezed.lowerLines = st.lines s.lowerLines := by
  induction s generalizing prev st with
  | last gap => rfl
  | cons gap token rest ih =>
      obtain ⟨-, hvalid, hrest⟩ := h
      rw [Layout.squeezed_cons, Layout.lowerLines, Layout.lowerLines]
      by_cases hfeed : '\n' ∈ gap
      · rw [squeezeGap_of_feed hfeed, if_pos hfeed, if_pos hfeed]
        refine Indenter.lines_blanks_congr _ (fun {st} hmode => ?_) hmode
        rw [Indenter.lines_full _ (isBare_token hvalid _), Indenter.lines_full _ (isBare_token hvalid _),
          hrest.fullLine_squeezed hvalid htabs.2 hmode,
          ih hrest htabs.2 (behindLine_fullLine hmode (hrest.scanLine_eq hvalid)).mode]
      · rw [if_neg hfeed, if_neg (feed_mem_squeezeGap.not.2 hfeed)]
        exact ih hrest htabs.2 hmode

/-- The lines of a layout with a first token. -/
lemma Fitting.lines_start {gap : List Char} (h : Fitting none (.cons gap t s)) :
    lines (Layout.cons gap t s).text
      = List.replicate gap.length [] ++ (t.text ++ s.firstLine.text) :: s.lowerLines := by
  obtain ⟨hfits, hvalid, hrest⟩ := h
  rw [Layout.text_cons, lines_feeds (hfits.edge (.inl rfl)),
    lines_append_of_notMem (Token.feed_notMem hvalid) hrest.lines_text]

/-- **A layout is indented as the squeezed layout.** -/
lemma indentLines_squeezed (h : Fitting none s) (htabs : s.Untabbed) (unit : IndentUnit) :
    indentLines unit s.squeezed.text = indentLines unit s.text := by
  cases s with
  | last gap => rfl
  | cons gap token rest =>
      have hsqueezed := h.squeezed
      obtain ⟨hfits, hvalid, hrest⟩ := h
      rw [Layout.squeezed_cons, hfits.squeezeGap_ends (.inl rfl)] at hsqueezed ⊢
      have hlines : Indenter.lines { unit } (lines (Layout.cons gap token rest.squeezed).text)
          = Indenter.lines { unit } (lines (Layout.cons gap token rest).text) := by
        rw [hsqueezed.lines_start, Fitting.lines_start ⟨hfits, hvalid, hrest⟩]
        refine Indenter.lines_blanks_congr _ (fun {st} hmode => ?_) rfl
        rw [Indenter.lines_full _ (isBare_token hvalid _), Indenter.lines_full _ (isBare_token hvalid _),
          hrest.fullLine_squeezed hvalid htabs.2 hmode,
          hrest.lines_squeezed htabs.2 (behindLine_fullLine hmode (hrest.scanLine_eq hvalid)).mode]
      rw [indentLines, indentLines, hlines]

end Squeezed

/-! ## Thinned layouts -/

section Thin

variable {t : Token} {s : Layout} {line : List Char}

lemma firstLine_thin (line : List Char) (s : Layout) : (s.thin (some line)).firstLine = s.firstLine := by
  induction s generalizing line with
  | last gap => rfl
  | cons gap token rest ih =>
      by_cases hfeed : '\n' ∈ gap
      · simp [Layout.thin, Layout.firstLine, feed_mem_thinGap, hfeed]
      · simp [Layout.thin, Layout.firstLine, hfeed, ih, thinGap]

/-- The lower lines of a thinned layout, where a line ends. -/
lemma lowerLines_thin {gap : List Char} (hfeed : '\n' ∈ gap) (line : List Char) (t : Token) (s : Layout) :
    ((Layout.cons gap t s).thin (some line)).lowerLines
      = List.replicate (if gap.length = 1 ∨ DepthChange.of line = .opening then 0 else 1) []
        ++ (t.text ++ s.firstLine.text) :: (s.thin (some t.text)).lowerLines := by
  rw [Layout.thin, Layout.lowerLines, if_pos ((feed_mem_thinGap line).2 hfeed), if_pos hfeed, firstLine_thin,
    thinGap, if_neg (not_not.2 hfeed)]
  split_ifs <;> rfl

/-- Of the blank lines behind a line as many are kept as thinning out leaves. -/
lemma BehindLine.kept_eq {st : Indenter} (hst : BehindLine st line) {gap : List Char} (hfeed : '\n' ∈ gap) :
    (if st.afterOpening ∨ gap.length - 1 = 0 then 0 else 1)
      = if gap.length = 1 ∨ DepthChange.of line = .opening then 0 else 1 := by
  have hpos : 0 < gap.length := List.length_pos_of_mem hfeed
  have hlength : gap.length - 1 = 0 ↔ gap.length = 1 := by omega
  simp only [hst.afterOpening, hlength, or_comm]

/-- The lower lines of a thinned layout are all kept. -/
lemma BehindLine.lines_thin {st : Indenter} (hst : BehindLine st line) {gap : List Char} (hfeed : '\n' ∈ gap)
    (ht : t.Valid) (s : Layout) :
    st.lines ((Layout.cons gap t s).thin (some line)).lowerLines
      = List.replicate (if gap.length = 1 ∨ DepthChange.of line = .opening then 0 else 1) []
        ++ st.lines ((t.text ++ s.firstLine.text) :: (s.thin (some t.text)).lowerLines) := by
  rw [lowerLines_thin hfeed, Indenter.lines_blanks_full hst.afterBlank _ (isBare_token ht _)]
  congr 2
  by_cases hkept : gap.length = 1 ∨ DepthChange.of line = .opening
  · simp [hkept]
  · have hopening : ¬ st.afterOpening = true := fun h => hkept (.inr (hst.afterOpening.1 h))
    simp [hkept, hopening]

/-- **The lines that are kept are those of the thinned layout**, blank lines at the end apart. -/
lemma Fitting.lines_thin (h : Fitting (some t) s) {st : Indenter} (hst : BehindLine st (line ++ s.firstLine.text)) :
    ∃ n, st.lines s.lowerLines = st.lines (s.thin (some line)).lowerLines ++ List.replicate n [] := by
  induction s generalizing t line st with
  | last gap =>
      obtain ⟨n, hn⟩ := Indenter.lines_blanks_end hst.afterBlank gap.length
      exact ⟨n, hn⟩
  | cons gap token rest ih =>
      obtain ⟨-, hvalid, hrest⟩ := h
      by_cases hfeed : '\n' ∈ gap
      · have hend : BehindLine st line := by simpa [Layout.firstLine, hfeed] using hst
        have hbare := isBare_token hvalid rest.firstLine.text
        obtain ⟨n, hn⟩ := ih hrest (behindLine_fullLine hend.mode (hrest.scanLine_eq hvalid))
        refine ⟨n, ?_⟩
        rw [hend.lines_thin hfeed hvalid, Layout.lowerLines, if_pos hfeed,
          Indenter.lines_blanks_full hend.afterBlank _ hbare, hend.kept_eq hfeed, Indenter.lines_full _ hbare,
          Indenter.lines_full _ hbare, hn]
        simp
      · rw [Layout.lowerLines, if_neg hfeed, Layout.thin, Layout.lowerLines,
          if_neg ((feed_mem_thinGap line).not.2 hfeed), if_neg hfeed]
        refine ih hrest ?_
        simpa [Layout.firstLine, hfeed] using hst

lemma Fits.thinGap {prev next : Option Token} {gap : List Char} (h : Fits prev gap next) (line : List Char) :
    Fits prev (thinGap line gap) next := by
  unfold SqfLayout.thinGap
  split_ifs with hfeed hone
  · exact Fits.feed fun hsign => (h.sign hsign).1 hfeed
  · exact Fits.feeds (by simp) (by simp) fun hsign => (h.sign hsign).1 hfeed
  · exact h

lemma Fitting.thin {prev : Option Token} {line : Option (List Char)} (h : Fitting prev s)
    (hline : line = none → prev = none) : Fitting prev (s.thin line) := by
  induction s generalizing prev line with
  | last gap => exact fits_nil_none prev
  | cons gap token rest ih =>
      obtain ⟨hfits, hvalid, hrest⟩ := h
      cases line with
      | none => exact ⟨hfits.nil_of_none (.inl (hline rfl)), hvalid, ih hrest nofun⟩
      | some line => exact ⟨hfits.thinGap line, hvalid, ih hrest nofun⟩

/-- Blank lines at the ends of a text are dropped. -/
lemma dropEnds_unlines {rows : List (List Char)} (hrows : rows ≠ []) (n k : Nat) :
    (dropEndWhile (· == '\n') (unlines (List.replicate n [] ++ (rows ++ List.replicate k [])))).dropWhile (· == '\n')
      = (dropEndWhile (· == '\n') (unlines rows)).dropWhile (· == '\n') := by
  have hback : unlines (rows ++ List.replicate k []) = unlines rows ++ List.replicate k '\n' := by
    induction k with
    | zero => simp
    | succ k ih =>
        rw [List.replicate_succ', ← List.append_assoc, unlines_append (by simp [hrows]) (by simp), ih,
          List.replicate_succ', List.append_assoc]
        rfl
  have hfront : unlines (List.replicate n [] ++ (rows ++ List.replicate k []))
      = List.replicate n '\n' ++ (unlines rows ++ List.replicate k '\n') := by
    induction n with
    | zero => exact hback
    | succ n ih =>
        rw [List.replicate_succ, List.cons_append, ← List.singleton_append,
          unlines_append (by simp) (by simp [hrows]), ih]
        rfl
  rw [hfront]
  exact dropEnds_append (by simp +contextual) (by simp +contextual)

lemma indentLines_feeds {text : List Char} (h : ∀ c ∈ text, c = '\n') (unit : IndentUnit) :
    indentLines unit text = [] := by
  have hlines := lines_feeds h []
  rw [List.append_nil, lines_eq_singleton (by simp : '\n' ∉ []), ← List.replicate_succ'] at hlines
  obtain ⟨n, hn⟩ : ∃ n, Indenter.lines { unit } (List.replicate (text.length + 1) []) = List.replicate n [] :=
    Indenter.lines_blanks_end rfl _
  rw [indentLines, hlines, hn]
  cases n with
  | zero => rfl
  | succ n =>
      have hends := dropEnds_unlines (List.cons_ne_nil [] []) n 0
      rw [List.replicate_zero, List.append_nil, ← List.replicate_succ'] at hends
      exact hends

/-- **A layout is indented as the thinned layout.** -/
lemma indentLines_thin (h : Fitting none s) (unit : IndentUnit) :
    indentLines unit (s.thin none).text = indentLines unit s.text := by
  cases s with
  | last gap =>
      rw [Layout.thin, Layout.text_last, Layout.text_last, indentLines_feeds (Fits.feeds_of_last h),
        indentLines_feeds (by simp)]
  | cons gap token rest =>
      have hlines := h.lines_start
      have hfit : Fitting none ((Layout.cons gap token rest).thin none) := h.thin fun _ => rfl
      rw [Layout.thin] at hfit ⊢
      have hthin := hfit.lines_start
      obtain ⟨-, hvalid, hrest⟩ := h
      have hbare := isBare_token hvalid rest.firstLine.text
      let st : Indenter := { unit }
      have hbehind : BehindLine (st.fullLine (token.text ++ rest.firstLine.text)).2
          (token.text ++ rest.firstLine.text) := behindLine_fullLine rfl (hrest.scanLine_eq hvalid)
      obtain ⟨n, hn⟩ := hrest.lines_thin hbehind
      have hkept := Indenter.lines_blanks_full (rfl : st.afterBlank = false) gap.length hbare rest.lowerLines
      rw [Indenter.lines_full _ hbare, hn, ← List.cons_append, ← Indenter.lines_full _ hbare] at hkept
      rw [List.length_nil, List.replicate_zero, List.nil_append, firstLine_thin] at hthin
      rw [indentLines, indentLines, hlines, hkept, hthin]
      exact (dropEnds_unlines (by simp [Indenter.lines_full _ hbare]) _ _).symm

end Thin

/-! ## Back to the layout -/

/-- **A line in its place**: what is put before it is white space, and it is read as code. -/
structure Placed (row placed : List Char) : Prop where
  trim : trim placed = row
  feed : '\n' ∉ placed
  mode : (scanLine .code placed).2 = .code

lemma placed_nil : Placed [] [] := ⟨rfl, by simp, rfl⟩

/-- **The margins pass takes the indentation away.** -/
lemma stripRows_placed {rows placed : List (List Char)} (h : List.Forall₂ Placed rows placed) :
    stripRows none (positions .code placed) = rows := by
  induction h with
  | nil => rfl
  | @cons row line _ _ hline _ ih =>
      have hposition : (scanLine .code line).1.position = .between .code (scanLine .code line).2 := rfl
      rw [hline.mode] at hposition
      rw [positions, stripRows, hposition, hline.mode, ih, hline.trim]
      rfl

section Placed

variable {t : Token} {s : Layout} {line : List Char}

/-- **A line of tokens between white space.** -/
lemma Fitting.placed (ht : t.Valid) (h : Fitting (some t) s) {front back : List Char}
    (hfront : ∀ c ∈ front, isSpace c = true) (hback : ∀ c ∈ back, isSpace c = true) (hfeedFront : '\n' ∉ front)
    (hfeedBack : '\n' ∉ back) :
    Placed (t.text ++ s.firstLine.text) (front ++ ((t.text ++ s.firstLine.text) ++ back)) := by
  have hchars : t.text ++ s.firstLine.text = chars (t.cells ++ s.firstLine.cells) := (chars_append _ _).symm
  refine ⟨?_, ?_, ?_⟩
  · have hhead : ∀ c ∈ (t.text ++ s.firstLine.text).head?, isSpace c = false := by
      rw [hchars, chars, List.head?_map]
      simpa using Token.isSpace_head ht s.firstLine.cells
    have hlast : ∀ c ∈ (t.text ++ s.firstLine.text).getLast?, isSpace c = false := by
      rw [hchars, chars, List.getLast?_map]
      simpa using h.isSpace_last ht
    exact dropEnds_between hfront hback hhead hlast
  · have hmem : s.firstLine.text ∈ lines s.text := by
      rw [h.lines_text]
      exact List.mem_cons_self
    have hline := feed_notMem_of_mem_lines hmem
    simp [hfeedFront, hfeedBack, Token.feed_notMem ht, hline]
  · have hmode := h.scanLine_eq ht
    rw [scanLine, Prod.mk.injEq] at hmode
    have hplain : ∀ c ∈ back, isPlain c = true := fun c hc =>
      isPlain_of_isSpace (hback c hc) fun heq => hfeedBack (heq ▸ hc)
    rw [scanLine, modeAfter_between hfront hplain]
    exact hmode.2

/-- A squeezed line in its place. -/
lemma Fitting.placed_fullLine (ht : t.Valid) (h : Fitting (some t) s) (htabs : s.Untabbed)
    (hsqueezed : s.squeezed = s) {st : Indenter} (hmode : st.mode = .code) :
    Placed (t.text ++ s.firstLine.text) (st.fullLine (t.text ++ s.firstLine.text)).1 := by
  obtain ⟨level, hplaced⟩ := exists_fullLine st (t.text ++ s.firstLine.text)
  rw [hmode, h.lineBody_eq ht htabs, hsqueezed] at hplaced
  have hline := h.placed ht (isSpace_indentation st.unit level) (by simp : ∀ c ∈ [], isSpace c = true)
    (feed_notMem_indentation st.unit level) (by simp)
  rw [List.append_nil] at hline
  rwa [hplaced]

lemma getLast?_ne_nil {row : List Char} {rows : List (List Char)} (hrow : isBare row = false)
    (hlast : ∀ last ∈ rows.getLast?, last ≠ []) : ∀ last ∈ (row :: rows).getLast?, last ≠ [] := by
  intro last hmem
  rw [List.getLast?_cons] at hmem
  cases hrows : rows.getLast? with
  | some found =>
      rw [hrows] at hmem
      exact hlast last (hrows.trans hmem)
  | none =>
      rw [hrows] at hmem
      obtain rfl : row = last := Option.some.inj hmem
      rintro rfl
      simp [isBare] at hrow

/-- **Every lower line of a squeezed and thinned layout is put in its place**, and the last is not blank. -/
lemma Fitting.forall₂_placed (h : Fitting (some t) s) (htabs : s.Untabbed) (hsqueezed : s.squeezed = s)
    {st : Indenter} (hst : BehindLine st (line ++ s.firstLine.text)) :
    List.Forall₂ Placed (s.thin (some line)).lowerLines (st.lines (s.thin (some line)).lowerLines)
      ∧ ∀ row ∈ (s.thin (some line)).lowerLines.getLast?, row ≠ [] := by
  induction s generalizing t line st with
  | last gap => exact ⟨.nil, by simp [Layout.thin, Layout.lowerLines]⟩
  | cons gap token rest ih =>
      obtain ⟨-, hvalid, hrest⟩ := h
      have hsqueezedRest : rest.squeezed = rest := by
        rw [Layout.squeezed_cons, Layout.cons.injEq] at hsqueezed
        exact hsqueezed.2.2
      by_cases hfeed : '\n' ∈ gap
      · have hend : BehindLine st line := by simpa [Layout.firstLine, hfeed] using hst
        have hbare := isBare_token hvalid rest.firstLine.text
        obtain ⟨hrows, hlast⟩ :=
          ih hrest htabs.2 hsqueezedRest (behindLine_fullLine hend.mode (hrest.scanLine_eq hvalid))
        rw [hend.lines_thin hfeed hvalid, lowerLines_thin hfeed, Indenter.lines_full _ hbare]
        refine ⟨?_, ?_⟩
        · refine List.rel_append ?_ (.cons (hrest.placed_fullLine hvalid htabs.2 hsqueezedRest hend.mode) hrows)
          split_ifs
          · exact .nil
          · exact .cons placed_nil .nil
        · rw [List.getLast?_append_of_ne_nil _ (List.cons_ne_nil _ _)]
          exact getLast?_ne_nil hbare hlast
      · rw [Layout.thin, Layout.lowerLines, if_neg ((feed_mem_thinGap line).not.2 hfeed), if_neg hfeed]
        refine ih hrest htabs.2 hsqueezedRest ?_
        simpa [Layout.firstLine, hfeed] using hst

lemma feed_notMem_placed {rows placed : List (List Char)} (h : List.Forall₂ Placed rows placed) :
    ∀ line ∈ placed, '\n' ∉ line := by
  induction h with
  | nil => simp
  | cons hline _ ih => exact List.forall_mem_cons.2 ⟨hline.feed, ih⟩

lemma getLast?_of_forall₂ {R : List Char → List Char → Prop} {a b : List (List Char)} (h : List.Forall₂ R a b)
    {y : List Char} (hy : b.getLast? = some y) : ∃ x, a.getLast? = some x ∧ R x y := by
  have hreverse : List.Forall₂ R a.reverse b.reverse := List.rel_reverse h
  rw [← List.head?_reverse] at hy ⊢
  generalize a.reverse = a at hreverse ⊢
  generalize b.reverse = b at hreverse hy
  cases hreverse with
  | nil => simp at hy
  | cons hxy _ =>
      obtain rfl := Option.some.inj hy
      exact ⟨_, rfl, hxy⟩

/-- **Lines in their places make a text from which they are taken back**, if no blank line is at its ends. -/
lemma stripMargins_placed {row line : List Char} {rows placed : List (List Char)}
    (h : List.Forall₂ Placed (row :: rows) (line :: placed)) (hrow : row ≠ [])
    (hlast : ∀ last ∈ (row :: rows).getLast?, last ≠ []) :
    stripMargins ((dropEndWhile (· == '\n') (unlines (line :: placed))).dropWhile (· == '\n'))
      = unlines (row :: rows) := by
  have hne {row line : List Char} (hplaced : Placed row line) (hrow : row ≠ []) : line ≠ [] := by
    rintro rfl
    exact hrow hplaced.trim.symm
  have hfeed := feed_notMem_placed h
  have hline := hne (List.forall₂_cons.1 h).1 hrow
  have hhead : ∀ c ∈ (unlines (line :: placed)).head?, (c == '\n') = false := by
    intro c hc
    have hmem : c ∈ line := by
      obtain ⟨d, more, rfl⟩ := List.exists_cons_of_ne_nil hline
      obtain rfl : d = c := by cases placed <;> exact Option.some.inj hc
      exact List.mem_cons_self
    rw [beq_eq_false_iff_ne]
    rintro rfl
    exact hfeed line List.mem_cons_self hmem
  have hend : ∀ c ∈ (unlines (line :: placed)).getLast?, (c == '\n') = false := by
    intro c hc
    obtain ⟨found, hfound⟩ : ∃ found, (line :: placed).getLast? = some found :=
      ⟨_, List.getLast?_eq_some_getLast (List.cons_ne_nil _ _)⟩
    obtain ⟨source, hsource, hplaced⟩ := getLast?_of_forall₂ h hfound
    rw [getLast?_unlines hfound (hne hplaced (hlast source hsource))] at hc
    rw [beq_eq_false_iff_ne]
    rintro rfl
    exact hfeed found (List.mem_of_getLast? hfound) (List.mem_of_getLast? hc)
  have hkept := dropEnds_between (by simp : ∀ c ∈ [], (c == '\n') = true)
    (by simp : ∀ c ∈ [], (c == '\n') = true) hhead hend
  rw [List.nil_append, List.append_nil] at hkept
  rw [hkept, stripMargins, lines_unlines (List.cons_ne_nil _ _) hfeed, stripRows_placed h]

/-- **The margins pass takes a squeezed and thinned layout back** from its indented text. -/
lemma stripMargins_indentLines (h : Fitting none s) (htabs : s.Untabbed) (unit : IndentUnit) :
    stripMargins (indentLines unit (s.squeezed.thin none).text) = (s.squeezed.thin none).text := by
  have hfit : Fitting none (s.squeezed.thin none) := h.squeezed.thin fun _ => rfl
  cases s with
  | last gap =>
      have hnil : (Layout.last gap).squeezed.thin none = .last [] := rfl
      rw [hnil, Layout.text_last, indentLines_feeds (by simp)]
      rfl
  | cons gap token rest =>
      obtain ⟨-, hvalid, hrest⟩ := h.squeezed
      have hrest : Fitting (some token) rest.squeezed := hrest
      have htabs : rest.squeezed.Untabbed := htabs.2.squeezeWith _
      have hsqueezed := rest.squeezed_squeezed
      rw [Layout.squeezed_cons, Layout.thin] at hfit ⊢
      generalize rest.squeezed = rest at *
      have hlines := hfit.lines_start
      rw [List.length_nil, List.replicate_zero, List.nil_append, firstLine_thin] at hlines
      let st : Indenter := { unit }
      have hbare := isBare_token hvalid rest.firstLine.text
      have hfirst : Placed _ (st.fullLine (token.text ++ rest.firstLine.text)).1 :=
        hrest.placed_fullLine hvalid htabs hsqueezed rfl
      have hbehind : BehindLine (st.fullLine (token.text ++ rest.firstLine.text)).2
          (token.text ++ rest.firstLine.text) := behindLine_fullLine rfl (hrest.scanLine_eq hvalid)
      obtain ⟨hrows, hlast⟩ := hrest.forall₂_placed htabs hsqueezed hbehind
      have hrow : token.text ++ rest.firstLine.text ≠ [] := by
        intro hnil
        simp [hnil, isBare] at hbare
      have hback := stripMargins_placed (.cons hfirst hrows) hrow (getLast?_ne_nil hbare hlast)
      rw [← Indenter.lines_full _ hbare, ← hlines, unlines_lines] at hback
      exact hback

end Placed

end SqfLayout
