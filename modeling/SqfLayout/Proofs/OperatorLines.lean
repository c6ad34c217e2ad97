import SqfLayout.Proofs.FinalBreaks
import SqfLayout.Proofs.OperatorRows
import SqfLayout.Proofs.ReadBack

/-!
# Where operators stand

**Lines.**  The operators pass puts the gaps of a line in order, and a line whose gaps are in order stays as it is
(`spaceLine_spaceLine`).  In such a line the operators of code stand between single spaces
(`Row.Settled.spaced`).

**Texts.**  Lines are spaced each by itself (`splitWhen_spaceLines`), and no operator crosses a line
(`codeOperators_feed`).
-/

namespace SqfLayout.Pass

open SqfLayout.Text SqfLayout.Scan

/-! ## Lines in order -/

/-- **A line whose gaps are in order.** -/
structure Row.Settled (gap : List Cell) (row : Row) : Prop where
  blank : AllBlank gap
  fits : row.Fits
  start : markGap none gap row.first = gap
  behind : row.respace = row

lemma Row.Fits.settled {row : Row} (h : row.Fits) {gap : List Cell} (hgap : AllBlank gap) :
    Row.Settled (markGap none gap row.first) row.respace :=
  ⟨allBlank_markGap hgap _ _, h.respace, by rw [Row.first_respace, markGap_markGap], row.respace_respace⟩

/-- **What the pass makes of a line.** -/
lemma Row.Fits.replaceFound_eq {row : Row} (h : row.Fits) {gap : List Cell} (hgap : AllBlank gap) :
    replaceFound operatorFinder (fun _ spaced => spaced) (gap ++ row.cells)
      = markGap none gap row.first ++ row.respace.cells := by
  rw [(h.replaces hgap none).replaceFound_eq]
  rfl

lemma Row.filter_segments (gap : List Cell) (row : Row) :
    (gap.map Segment.plain ++ row.segments).filter isCodeOperator = (row.map Prod.fst).filter isCodeOperator := by
  have hgap (gap : List Cell) : (gap.map Segment.plain).filter isCodeOperator = [] := by
    simp [List.filter_eq_nil_iff, isCodeOperator]
  rw [List.filter_append, hgap, List.nil_append]
  induction row with
  | nil => rfl
  | cons part row ih =>
      rw [Row.segments, List.flatMap_cons, List.cons_append, List.map_cons, List.filter_cons, List.filter_cons,
        List.filter_append, hgap, List.nil_append, ← Row.segments, ih]

lemma Row.Fits.codeOperators_eq {row : Row} (h : row.Fits) {gap : List Cell} (hgap : AllBlank gap) :
    codeOperators (gap ++ row.cells)
      = ((row.map Prod.fst).filter isCodeOperator).map fun mark => chars mark.cells := by
  rw [codeOperators, SqfLayout.segments, (h.division hgap none).segmentsFrom_eq, Row.filter_segments]

lemma Row.map_fst_respace (row : Row) : row.respace.map Prod.fst = row.map Prod.fst := by
  induction row with
  | nil => rfl
  | cons part row ih => rw [Row.respace, List.map_cons, List.map_cons, ih]

/-- The pass keeps the operators of a line. -/
lemma codeOperators_spaceLine {line : List Cell} (h : KindsAgree line) :
    codeOperators (spaceLine line) = codeOperators line := by
  rw [spaceLine]
  split
  · rfl
  · obtain ⟨gap, row, hgap, hrow, rfl⟩ := exists_row h
    rw [hrow.replaceFound_eq hgap, hrow.respace.codeOperators_eq (allBlank_markGap hgap _ _),
      hrow.codeOperators_eq hgap, Row.map_fst_respace]

/-- A second run of the pass leaves a line as it is. -/
lemma spaceLine_spaceLine {line : List Cell} (h : KindsAgree line) :
    spaceLine (spaceLine line) = spaceLine line := by
  by_cases hline : isPreprocessor line = true
  · have hspaced : spaceLine line = line := if_pos hline
    rw [hspaced, hspaced]
  · obtain ⟨gap, row, hgap, hrow, rfl⟩ := exists_row h
    have hsettled := hrow.settled hgap
    have hspaced : spaceLine (gap ++ row.cells) = markGap none gap row.first ++ row.respace.cells := by
      rw [spaceLine, if_neg hline, hrow.replaceFound_eq hgap]
    rw [hspaced, spaceLine]
    split
    · rfl
    · rw [hsettled.fits.replaceFound_eq hsettled.blank, hsettled.start, hsettled.behind]

/-! ## Where operators stand -/

/-- **The blanks before an operator of code**: none at the start of the line, two behind another operator, and
else one. -/
def blanksBefore : Option (Segment Unit) → List Cell
  | none => []
  | some (.plain _) => [.code ' ']
  | some (.found _ _) => [.code ' ', .code ' ']

/-- **The blanks behind an operator of code**: none at the end of the line, two before another operator, and
else one. -/
def blanksBehind : Option (Segment Unit) → List Cell
  | none => []
  | some (.plain cell) => if cell.char = '\n' ∨ cell.char = '\r' then [] else [.code ' ']
  | some (.found _ _) => [.code ' ', .code ' ']

/-- Whether a segment is a blank. -/
def isGap : Segment Unit → Bool
  | .plain cell => isBlank cell.char
  | .found _ _ => false

/-- **A line in which the operators of code stand between single spaces.** -/
def Spaced (line : List Cell) : Prop :=
  ∀ front op back, segments operatorAt line = front ++ .found op () :: back →
    isCodeOperator (.found op ()) = true →
      (∃ init, front = init ++ (blanksBefore init.getLast?).map .plain
          ∧ ∀ mark ∈ init.getLast?, isGap mark = false)
        ∧ ∃ rest, back = (blanksBehind rest.head?).map .plain ++ rest
          ∧ ∀ mark ∈ rest.head?, isGap mark = false

/-- An operator in the division of a row is a mark of the row. -/
lemma Row.split_segments {gap : List Cell} {row : Row} {front back : List (Segment Unit)} {op : List Cell}
    (h : gap.map .plain ++ row.segments = front ++ .found op () :: back) :
    ∃ (before : Row) (trail : List Cell) (after : Row), row = before ++ (.found op (), trail) :: after
      ∧ front = gap.map .plain ++ Row.segments before ∧ back = trail.map .plain ++ Row.segments after := by
  -- an operator is no part of a gap
  have hgap {gap : List Cell} {front back : List (Segment Unit)} :
      gap.map .plain ≠ front ++ .found op () :: back := by
    intro heq
    have hmem : Segment.found op () ∈ gap.map .plain := by simp [heq]
    simp at hmem
  induction row generalizing gap front with
  | nil => exact absurd ((List.append_nil _).symm.trans h) hgap
  | cons part row ih =>
      obtain ⟨mark, trail⟩ := part
      rw [Row.segments_cons] at h
      obtain ⟨extra, hfront, hback⟩ | ⟨extra, hfront, hback⟩ := List.append_eq_append_iff.1 h
      · cases extra with
        | nil =>
            obtain ⟨rfl, rfl⟩ := List.cons.inj hback
            exact ⟨[], trail, row, rfl, by simpa [Row.segments] using hfront, rfl⟩
        | cons seg extra =>
            obtain ⟨rfl, hrest⟩ := List.cons.inj hback
            obtain ⟨before, trail', after, rfl, rfl, rfl⟩ := ih hrest
            refine ⟨(mark, trail) :: before, trail', after, rfl, ?_, rfl⟩
            rw [hfront, Row.segments_cons]
      · cases extra with
        | nil =>
            obtain ⟨rfl, rfl⟩ := List.cons.inj hback
            exact ⟨[], trail, row, rfl, by simpa [Row.segments] using hfront.symm, rfl⟩
        | cons seg extra =>
            obtain ⟨rfl, -⟩ := List.cons.inj hback
            exact absurd hfront hgap

lemma Row.Fits.of_append {before row : Row} (h : Row.Fits (before ++ row)) : row.Fits := by
  induction before with
  | nil => exact h
  | cons part before ih =>
      cases h with
      | cons _ _ _ _ hrest => exact ih hrest

/-- In a row in order every gap is what its neighbours make of it. -/
lemma Row.gap_eq_of_respace {before after : Row} {mark : Segment Unit} {gap : List Cell}
    (h : Row.respace (before ++ (mark, gap) :: after) = before ++ (mark, gap) :: after) :
    gap = markGap (some mark) gap after.first := by
  induction before with
  | nil =>
      obtain ⟨hpart, -⟩ := List.cons.inj h
      exact (Prod.mk.inj hpart).2.symm
  | cons part before ih => exact ih (List.cons.inj h).2

lemma Row.head?_segments (row : Row) : row.segments.head? = row.first := by
  cases row <;> rfl

lemma IsMark.isGap_eq {mark : Segment Unit} (h : IsMark mark) : isGap mark = false := by
  cases mark with
  | plain cell => exact h.1
  | found op what => rfl

lemma Row.Fits.isGap_first {row : Row} (h : row.Fits) : ∀ mark ∈ row.first, isGap mark = false := by
  cases h with
  | nil => simp [Row.first]
  | cons hmark _ _ _ _ => simpa [Row.first] using hmark.isGap_eq

/-- Before an operator of code its neighbour alone decides. -/
lemma markGap_before {prev : Option (Segment Unit)} {op : List Cell}
    (hcode : isCodeOperator (.found op ()) = true) (hside : ∀ mark ∈ prev, SameSide mark (.found op ()))
    (gap : List Cell) : markGap prev gap (some (.found op ())) = blanksBefore prev := by
  cases prev with
  | none => simp [markGap, hcode, blanksBefore]
  | some mark =>
      cases mark with
      | plain cell => simp [markGap, hcode, blanksBefore]
      | found op' what =>
          have hsame : isCodeOperator (.found op' what) = isCodeOperator (.found op ()) := hside _ rfl
          simp [markGap, hsame, hcode, blanksBefore]

/-- So it does behind one. -/
lemma markGap_behind {next : Option (Segment Unit)} {op : List Cell}
    (hcode : isCodeOperator (.found op ()) = true) (hside : ∀ mark ∈ next, SameSide (.found op ()) mark)
    (gap : List Cell) : markGap (some (.found op ())) gap next = blanksBehind next := by
  cases next with
  | none => simp [markGap, hcode, blanksBehind, spaceBehind]
  | some mark =>
      cases mark with
      | plain cell => simp [markGap, hcode, Segment.cells, blanksBehind, spaceBehind]
      | found op' what =>
          have hsame : isCodeOperator (.found op ()) = isCodeOperator (.found op' what) := hside _ rfl
          simp [markGap, ← hsame, hcode, blanksBehind]

/-- **In a line whose gaps are in order operators stand between single spaces.** -/
lemma Row.Settled.spaced {gap : List Cell} {row : Row} (h : Row.Settled gap row) : Spaced (gap ++ row.cells) := by
  intro front op back hsegments hcode
  rw [SqfLayout.segments, (h.fits.division h.blank none).segmentsFrom_eq] at hsegments
  obtain ⟨before, trail, after, rfl, rfl, rfl⟩ := Row.split_segments hsegments
  constructor
  · rcases List.eq_nil_or_concat' before with rfl | ⟨before, ⟨mark, lead⟩, rfl⟩
    · have hlead : gap = [] := by
        rw [← h.start]
        exact markGap_before hcode (by simp) gap
      exact ⟨[], by simp [hlead, Row.segments, blanksBefore], by simp⟩
    · rw [List.append_assoc, List.singleton_append] at h
      have hlead := Row.gap_eq_of_respace h.behind
      cases h.fits.of_append with
      | cons hmark _ _ hside _ =>
          have hbefore : lead = blanksBefore (some mark) :=
            hlead.trans (markGap_before hcode (fun _ hmem => Option.some.inj hmem ▸ hside _ rfl) lead)
          refine ⟨gap.map .plain ++ Row.segments before ++ [mark], ?_, by simpa using hmark.isGap_eq⟩
          rw [List.getLast?_concat, ← hbefore]
          simp [Row.segments]
  · have htrail := Row.gap_eq_of_respace h.behind
    cases h.fits.of_append with
    | cons _ _ _ hside hafter =>
        rw [markGap_behind hcode hside] at htrail
        refine ⟨after.segments, ?_, ?_⟩
        · rw [Row.head?_segments, ← htrail]
        · rw [Row.head?_segments]
          exact hafter.isGap_first

/-! ## Line by line -/

/-- **What holds of the lines of a text holds of the text.** -/
lemma forall_lines {P : List Cell → Prop} (last : ∀ line, (∀ cell ∈ line, cell.char ≠ '\n') → P line)
    (next : ∀ line feed rest, (∀ cell ∈ line, cell.char ≠ '\n') → feed.char = '\n' → P rest →
      P (line ++ feed :: rest)) (cells : List Cell) : P cells := by
  -- the line is collected up to its line feed
  suffices h : ∀ line, (∀ cell ∈ line, cell.char ≠ '\n') → P (line ++ cells) from
    h [] (List.forall_mem_nil _)
  induction cells with
  | nil =>
      intro line hline
      rw [List.append_nil]
      exact last line hline
  | cons cell rest ih =>
      intro line hline
      by_cases hfeed : cell.char = '\n'
      · exact next line cell rest hline hfeed (ih [] (List.forall_mem_nil _))
      · have hlonger := ih (line ++ [cell])
          (List.forall_mem_append.2 ⟨hline, List.forall_mem_singleton.2 hfeed⟩)
        rwa [List.append_assoc, List.singleton_append] at hlonger

/-- The operators pass writes no line feed. -/
lemma feed_notMem_spaceLine {line : List Cell} (h : ∀ cell ∈ line, cell.char ≠ '\n') :
    ∀ cell ∈ spaceLine line, cell.char ≠ '\n' := by
  rw [spaceLine]
  split
  · exact h
  · refine replaceFound_rel (R := fun a b => (∀ cell ∈ a, cell.char ≠ '\n') → ∀ cell ∈ b, cell.char ≠ '\n')
      operatorFinder_fits (fun _ ha => ha) (fun a b c d hab hcd hac => ?_) ?_ line h
    · obtain ⟨ha, hc⟩ := List.forall_mem_append.1 hac
      exact List.forall_mem_append.2 ⟨hab ha, hcd hc⟩
    · intro before taken rest put hfound htaken
      obtain ⟨lead, op, trail, rfl, -, -, -, ⟨-, rfl⟩ | rfl⟩ := operatorFinder_taken hfound
      · intro cell hcell
        rcases List.mem_append.1 hcell with hcell | hcell
        · rcases List.mem_append.1 hcell with hcell | hcell
          · rw [eq_space_of_mem_spaceBefore hcell]
            decide
          · exact htaken cell (by simp [hcell])
        · rw [eq_space_of_mem_spaceBehind hcell]
          decide
      · exact htaken

lemma spaceLines_line {line : List Cell} (h : ∀ cell ∈ line, cell.char ≠ '\n') :
    spaceLines line = spaceLine line := by
  have hcut := cutLine_append h []
  rw [List.append_nil] at hcut
  rw [spaceLines_eq, hcut]
  simp [cutLine, spaceLines, splitAfter]

lemma spaceLines_feed {line rest : List Cell} {feed : Cell} (h : ∀ cell ∈ line, cell.char ≠ '\n')
    (hfeed : feed.char = '\n') :
    spaceLines (line ++ feed :: rest) = spaceLine line ++ feed :: spaceLines rest := by
  rw [spaceLines_eq, cutLine_append h, cutLine, if_pos (by simp [hfeed]), spaceLine_append_feed hfeed,
    List.append_assoc, List.singleton_append]

lemma splitWhen_line {line : List Cell} (h : ∀ cell ∈ line, cell.char ≠ '\n') :
    splitWhen (·.char == '\n') line = [line] :=
  splitWhen_eq_singleton fun cell hcell => by simpa using h cell hcell

lemma splitWhen_feed {line rest : List Cell} {feed : Cell} (h : ∀ cell ∈ line, cell.char ≠ '\n')
    (hfeed : feed.char = '\n') :
    splitWhen (·.char == '\n') (line ++ feed :: rest) = line :: splitWhen (·.char == '\n') rest := by
  have hcut := splitWhen_append_cons (p := fun cell : Cell => cell.char == '\n') line rest (by simpa using hfeed)
  rwa [splitWhen_line h] at hcut

/-- **The lines of the result are the lines of the text, each by itself.** -/
lemma splitWhen_spaceLines (cells : List Cell) :
    splitWhen (·.char == '\n') (spaceLines cells) = (splitWhen (·.char == '\n') cells).map spaceLine := by
  induction cells using forall_lines with
  | last line hline =>
      rw [spaceLines_line hline, splitWhen_line hline, splitWhen_line (feed_notMem_spaceLine hline),
        List.map_singleton]
  | next line feed rest hline hfeed ih =>
      rw [spaceLines_feed hline hfeed, splitWhen_feed hline hfeed,
        splitWhen_feed (feed_notMem_spaceLine hline) hfeed, ih, List.map_cons]

/-- **White space divides the operators** before it from those behind it. -/
lemma division_append_space {before : Option Char} {cells follow : List Cell} {segs segs' : List (Segment Unit)}
    (h : Division operatorAt before cells segs) (hspace : ∀ cell ∈ follow.head?, isSpace cell.char = true)
    (hfollow : ∀ before, Division operatorAt before follow segs') :
    Division operatorAt before (cells ++ follow) (segs ++ segs') := by
  have hends {op : List Char} {rest : List Cell} (h : ∀ d ∈ nextChar rest none, op ++ [d] ∉ operators) :
      ∀ d ∈ nextChar (rest ++ follow) none, op ++ [d] ∉ operators := by
    intro d hd hmem
    cases rest with
    | cons cell rest => exact h d hd hmem
    | nil =>
        cases follow with
        | nil => simp at hd
        | cons cell follow =>
            obtain rfl : cell.char = d := by simpa using hd
            have hink := isSpace_of_mem_operators hmem cell.char (by simp)
            simp [hspace cell rfl] at hink
  induction h with
  | done before => exact hfollow before
  | @plain before cell rest segs hnone _ ih =>
      obtain ⟨hone, htwo⟩ := operator?_eq_none_iff.1 (Option.map_eq_none_iff.1 hnone)
      have htwo : ∀ d ∈ nextChar rest none, [cell.char] ++ [d] ∉ operators := htwo
      exact .plain (congrArg (Option.map _) (operator?_eq_none_iff.2 ⟨hone, hends htwo⟩)) ih
  | found hfound hne _ ih =>
      obtain ⟨hop, hnext⟩ := operator?_eq_some_iff.1 (operatorAt_eq_some hfound)
      rw [List.append_assoc]
      exact .found (congrArg (Option.map _) (operator?_eq_some_iff.2 ⟨hop, hends hnext⟩)) hne ih

/-- The operators of a text are those of its lines. -/
lemma codeOperators_feed (line rest : List Cell) {feed : Cell} (hfeed : feed.char = '\n') :
    codeOperators (line ++ feed :: rest) = codeOperators line ++ codeOperators rest := by
  have hspace : isSpace feed.char = true := by
    rw [hfeed]
    decide
  have hrest (before : Option Char) : Division operatorAt before rest (segments operatorAt rest) := by
    have hdivision := division_segments operatorAt_fits rest
    generalize segments operatorAt rest = segs at hdivision ⊢
    cases hdivision with
    | done => exact .done before
    | plain hnone hrest => exact .plain hnone hrest
    | found hfound hne hrest => exact .found hfound hne hrest
  have hbehind (before : Option Char) :
      Division operatorAt before (feed :: rest) (.plain feed :: segments operatorAt rest) :=
    .plain (congrArg (Option.map _) (operator?_space hspace rest)) (hrest _)
  have hall := division_append_space (division_segments operatorAt_fits line) (by simpa using hspace) hbehind
  rw [codeOperators, segments, hall.segmentsFrom_eq, List.filter_append, List.filter_cons_of_neg (by simp),
    List.map_append]
  rfl

lemma codeOperators_spaceLines {cells : List Cell} (h : KindsAgree cells) :
    codeOperators (spaceLines cells) = codeOperators cells := by
  induction cells using forall_lines with
  | last line hline => rw [spaceLines_line hline, codeOperators_spaceLine h]
  | next line feed rest hline hfeed ih =>
      rw [spaceLines_feed hline hfeed, codeOperators_feed _ _ hfeed, codeOperators_feed _ _ hfeed,
        codeOperators_spaceLine (h.part (List.prefix_append _ _).isInfix),
        ih (h.part ⟨line ++ [feed], [], by simp⟩)]

lemma spaceLines_spaceLines {cells : List Cell} (h : KindsAgree cells) :
    spaceLines (spaceLines cells) = spaceLines cells := by
  induction cells using forall_lines with
  | last line hline =>
      rw [spaceLines_line hline, spaceLines_line (feed_notMem_spaceLine hline), spaceLine_spaceLine h]
  | next line feed rest hline hfeed ih =>
      rw [spaceLines_feed hline hfeed, spaceLines_feed (feed_notMem_spaceLine hline) hfeed,
        spaceLine_spaceLine (h.part (List.prefix_append _ _).isInfix),
        ih (h.part ⟨line ++ [feed], [], by simp⟩)]

/-- **A second run of the operators pass changes nothing.** -/
lemma spaceOperators_spaceOperators (text : List Char) :
    spaceOperators (spaceOperators text) = spaceOperators text := by
  have hlabel : label (spaceOperators text) = spaceLines (label text) := label_spaceOperators text
  have htwice : spaceLines (label (spaceOperators text)) = label (spaceOperators text) := by
    rw [hlabel, spaceLines_spaceLines (kindsAgree_label text)]
  exact (congrArg chars htwice).trans (chars_label _)

lemma infix_of_mem_splitWhen {cells line : List Cell} (h : line ∈ splitWhen (·.char == '\n') cells) :
    line <:+: cells := by
  induction cells using forall_lines with
  | last last hlast =>
      rw [splitWhen_line hlast, List.mem_singleton] at h
      exact h ▸ List.infix_rfl
  | next first feed rest hfirst hfeed ih =>
      rw [splitWhen_feed hfirst hfeed, List.mem_cons] at h
      rcases h with rfl | hrest
      · exact (List.prefix_append _ _).isInfix
      · exact (ih hrest).trans ⟨first ++ [feed], [], by simp⟩

/-- The lines of a text with the kinds of their characters. -/
def cellLines (text : List Char) : List (List Cell) := splitWhen (·.char == '\n') (label text)

lemma cellLines_spaceOperators (text : List Char) :
    cellLines (spaceOperators text) = (cellLines text).map spaceLine := by
  rw [cellLines, label_spaceOperators]
  exact splitWhen_spaceLines (label text)

lemma map_chars_cellLines (text : List Char) : (cellLines text).map chars = lines text := by
  have hmap := map_splitWhen (· == '\n') Cell.char (label text)
  exact hmap.trans (congrArg lines (chars_label text))

/-- What the pass makes of a line. -/
lemma spaceLine_cases {line : List Cell} (h : KindsAgree line) :
    if (trimStart (chars line)).head? = some '#' then spaceLine line = line else Spaced (spaceLine line) := by
  split
  · next hsign => rw [spaceLine, if_pos (by simp [isPreprocessor, hsign])]
  · next hsign =>
      obtain ⟨gap, row, hgap, hrow, rfl⟩ := exists_row h
      rw [spaceLine, if_neg (by simpa [isPreprocessor] using hsign), hrow.replaceFound_eq hgap]
      exact (hrow.settled hgap).spaced

/-- **Where operators stand.**  The operators pass keeps the number of lines, the characters that are no white
space, and the operators of code.  A line whose first character is a number sign stays, and in all other lines
the operators of code stand between single spaces. -/
theorem spaceOperators_layout (text : List Char) :
    (lines (spaceOperators text)).length = (lines text).length
      ∧ ink (spaceOperators text) = ink text
      ∧ codeOperators (label (spaceOperators text)) = codeOperators (label text)
      ∧ List.Forall₂
        (fun line spaced => if (trimStart (chars line)).head? = some '#' then spaced = line else Spaced spaced)
        (cellLines text) (cellLines (spaceOperators text)) := by
  refine ⟨?_, (respaced_spaceOperators text).ink_eq.symm, ?_, ?_⟩
  · rw [← map_chars_cellLines, cellLines_spaceOperators, ← map_chars_cellLines]
    simp only [List.length_map]
  · rw [label_spaceOperators]
    exact codeOperators_spaceLines (kindsAgree_label text)
  · rw [cellLines_spaceOperators, List.forall₂_map_right_iff, List.forall₂_same]
    intro line hline
    exact spaceLine_cases ((kindsAgree_label text).part (infix_of_mem_splitWhen hline))

/-- Operators side by side, at both ends of a line, in a literal and in a line of the preprocessor. -/
theorem spaceOperators_layout_mixed :
    spaceOperators "a==b\n # c=d\n  >=<'='=  \r".toList = "a == b\n # c=d\n>=  < '=' =\r".toList
      ∧ codeOperators (label "a == b\n # c=d\n>=  < '=' =\r".toList)
        = codeOperators (label "a==b\n # c=d\n  >=<'='=  \r".toList)
      ∧ Spaced (label ">=  < '=' =\r".toList) := by
  have h := spaceOperators_layout "a==b\n # c=d\n  >=<'='=  \r".toList
  have htext : spaceOperators "a==b\n # c=d\n  >=<'='=  \r".toList
      = "a == b\n # c=d\n>=  < '=' =\r".toList := by
    decide +kernel
  rw [htext] at h
  have hlines : cellLines "a == b\n # c=d\n>=  < '=' =\r".toList
      = [label "a == b".toList, label " # c=d".toList, label ">=  < '=' =\r".toList] := by
    decide +kernel
  have hlines' : cellLines "a==b\n # c=d\n  >=<'='=  \r".toList
      = [label "a==b".toList, label " # c=d".toList, label "  >=<'='=  \r".toList] := by
    decide +kernel
  rw [hlines, hlines'] at h
  obtain ⟨-, -, hoperators, hrows⟩ := h
  have hlast := (List.forall₂_cons.1 (List.forall₂_cons.1 (List.forall₂_cons.1 hrows).2).2).1
  rw [if_neg (by decide +kernel)] at hlast
  exact ⟨htext, hoperators, hlast⟩

end SqfLayout.Pass
