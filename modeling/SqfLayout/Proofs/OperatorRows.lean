import SqfLayout.Proofs.OperatorGaps
import SqfLayout.Proofs.Trails

/-!
# Lines as rows of marks

A line is a row of marks with gaps of blanks between them.  A mark is an operator, of code or not, or any other
character.

**Rows.**  Every line is a row (`exists_row`), and the row is the division of the line into operators and other
characters (`Row.Fits.division`).  Operators with only blanks between them are of one kind, for the scanner does
not act on such characters (`KindsAgree`).

**Gaps.**  `markGap` says what becomes of a gap, by the marks on its two sides alone.  The operators pass puts all
gaps of a row in order (`Row.Fits.replaces`), and the marks are read as before (`Row.Fits.respace`).
-/

namespace SqfLayout.Pass

open SqfLayout.Text SqfLayout.Scan

/-! ## Operators and other characters -/

/-- **The operators of a text**, without the blanks around them. -/
def operatorAt : Finder Unit := fun _ cells => (operator? cells).map fun op => (op.length, ())

/-- Whether a segment is an operator of code. -/
def isCodeOperator : Segment Unit → Bool
  | .plain _ => false
  | .found op _ => op.head?.any (·.kind == .code)

@[simp] lemma isCodeOperator_plain (cell : Cell) : isCodeOperator (.plain cell) = false := rfl

/-- **The operators of code in a text**, from left to right. -/
def codeOperators (cells : List Cell) : List (List Char) :=
  ((segments operatorAt cells).filter isCodeOperator).map fun mark => chars mark.cells

lemma operatorAt_eq_some {before : Option Char} {taken rest : List Cell} {what : Unit}
    (h : operatorAt before (taken ++ rest) = some (taken.length, what)) :
    operator? (taken ++ rest) = some taken := by
  obtain ⟨op, hop, hlength⟩ := Option.map_eq_some_iff.1 h
  obtain ⟨-, behind, hbehind⟩ := operator?_eq_some hop
  obtain ⟨rfl, -⟩ := List.append_inj hbehind (Prod.mk.inj hlength).1.symm
  exact hop

lemma operatorAt_fits : operatorAt.Fits := by
  intro before cells n what hfound
  obtain ⟨op, hop, heq⟩ := Option.map_eq_some_iff.1 hfound
  obtain ⟨hmem, rest, rfl⟩ := operator?_eq_some hop
  obtain ⟨rfl, -⟩ := Prod.mk.inj heq
  exact ⟨List.length_pos_iff.2 (ne_nil_of_mem_operators hmem), by simp⟩

/-! ## Rows -/

/-- **What is no gap**: an operator, or a character that is no blank and starts no operator. -/
def IsMark : Segment Unit → Prop
  | .plain cell => isBlank cell.char = false ∧ [cell.char] ∉ operators
  | .found op _ => chars op ∈ operators

/-- Neighbouring operators are both of code, or neither is. -/
def SameSide : Segment Unit → Segment Unit → Prop
  | .found op what, .found op' what' => isCodeOperator (.found op what) = isCodeOperator (.found op' what')
  | _, _ => True

lemma SameSide.any_eq_false {op : List Cell} {what : Unit} {next : Option (Segment Unit)}
    (h : ∀ mark ∈ next, SameSide (.found op what) mark) (hcode : isCodeOperator (.found op what) = false) :
    next.any isCodeOperator = false := by
  rw [Option.any_eq_false]
  intro mark hmark
  cases mark with
  | plain cell => rfl
  | found op' what' => exact (h _ hmark : isCodeOperator _ = _).symm.trans hcode

/-- **A line in parts**: each mark with the gap behind it. -/
abbrev Row := List (Segment Unit × List Cell)

def Row.cells (row : Row) : List Cell := row.flatMap fun part => part.1.cells ++ part.2

def Row.segments (row : Row) : List (Segment Unit) := row.flatMap fun part => part.1 :: part.2.map .plain

@[simp] lemma Row.cells_cons (mark : Segment Unit) (gap : List Cell) (rest : Row) :
    Row.cells ((mark, gap) :: rest) = mark.cells ++ (gap ++ rest.cells) := by
  simp [Row.cells]

@[simp] lemma Row.segments_cons (mark : Segment Unit) (gap : List Cell) (rest : Row) :
    Row.segments ((mark, gap) :: rest) = mark :: (gap.map .plain ++ rest.segments) := by
  simp [Row.segments]

/-- The first mark of a row. -/
def Row.first (row : Row) : Option (Segment Unit) := row.head?.map Prod.fst

/-- **A row as the text is read**: no mark makes an operator with the next character. -/
inductive Row.Fits : Row → Prop
  | nil : Row.Fits []
  | cons {mark : Segment Unit} {gap : List Cell} {rest : Row} : IsMark mark → AllBlank gap →
      (∀ d ∈ nextChar (gap ++ rest.cells) none, chars mark.cells ++ [d] ∉ operators) →
      (∀ next ∈ rest.first, SameSide mark next) → Row.Fits rest → Row.Fits ((mark, gap) :: rest)

lemma IsMark.exists_head {mark : Segment Unit} (h : IsMark mark) :
    ∃ cell tail, mark.cells = cell :: tail ∧ isBlank cell.char = false := by
  cases mark with
  | plain cell => exact ⟨cell, [], rfl, h.1⟩
  | found op what =>
      obtain ⟨cell, op, rfl⟩ := List.exists_cons_of_ne_nil (ne_nil_of_mem_operators h)
      exact ⟨cell, op, rfl, isBlank_of_isSpace_false (isSpace_of_mem_operators h _ List.mem_cons_self)⟩

/-- **A row is the division of its cells into operators and other characters.** -/
lemma Row.Fits.division {row : Row} (h : row.Fits) {gap : List Cell} (hgap : AllBlank gap)
    (before : Option Char) :
    Division operatorAt before (gap ++ row.cells) (gap.map .plain ++ row.segments) := by
  -- a gap is passed, whatever follows it
  have hpass {gap rest : List Cell} {segs : List (Segment Unit)} (hgap : AllBlank gap)
      (hrest : ∀ before, Division operatorAt before rest segs) (before : Option Char) :
      Division operatorAt before (gap ++ rest) (gap.map .plain ++ segs) := by
    induction gap generalizing before with
    | nil => exact hrest before
    | cons cell gap ih =>
        obtain ⟨hcell, hgap⟩ := List.forall_mem_cons.1 hgap
        have hnone := operator?_space (isSpace_of_isBlank hcell) (gap ++ rest)
        exact .plain (congrArg (Option.map _) hnone) (ih hgap _)
  induction h generalizing gap before with
  | nil => exact hpass hgap (fun before => .done before) before
  | @cons mark trail rest hmark htrail hnext _ _ ih =>
      refine hpass hgap (fun before => ?_) before
      rw [Row.cells_cons]
      cases mark with
      | plain cell =>
          have hnone := operator?_eq_none_iff.2 ⟨hmark.2, hnext⟩
          exact .plain (congrArg (Option.map _) hnone) (ih htrail _)
      | found op what =>
          have hfound := operator?_eq_some_iff.2 ⟨hmark, hnext⟩
          exact .found (congrArg (Option.map _) hfound) (ne_nil_of_mem_operators hmark) (ih htrail _)

/-- **Cells without a change of kind** between plain characters side by side. -/
def KindsAgree (cells : List Cell) : Prop :=
  ∀ block, block <:+: cells → (∀ cell ∈ block, isPlain cell.char = true) →
    ∀ a ∈ block, ∀ b ∈ block, a.kind = b.kind

lemma KindsAgree.part {a b : List Cell} (h : KindsAgree b) (hab : a <:+: b) : KindsAgree a :=
  fun block hblock => h block (hblock.trans hab)

/-- The cells of a text change their kind only at quotes, slashes, stars and line feeds. -/
lemma kindsAgree_label (text : List Char) : KindsAgree (label text) := by
  rintro block ⟨front, back, hcells⟩ hplain a ha b hb
  have hreads := reads_label text
  rw [← hcells, List.append_assoc] at hreads
  obtain ⟨mid, hfront, hrest⟩ := reads_append.1 hreads
  obtain ⟨_, hblock, -⟩ := reads_append.1 hrest
  have hmeets := (meets_ready .code _).behind hfront
  rw [nextChar_append] at hmeets
  obtain ⟨mode, rfl⟩ : ∃ mode, mid = .ready mode := by
    cases block with
    | nil => simp at ha
    | cons cell block => exact hmeets (heeded_of_plain (hplain cell List.mem_cons_self))
  have hkinds := ((reads_plain hplain mode).1 hblock).2
  rw [hkinds a ha, hkinds b hb]

/-- Operators with only blanks between them lie in the same stretch of the text. -/
lemma KindsAgree.sameSide {cells op gap op' : List Cell} (h : KindsAgree cells)
    (hcells : op ++ (gap ++ op') <:+: cells) (hop : chars op ∈ operators) (hop' : chars op' ∈ operators)
    (hgap : AllBlank gap) : SameSide (.found op ()) (.found op' ()) := by
  have hplain {op : List Cell} (hop : chars op ∈ operators) : ∀ cell ∈ op, isPlain cell.char = true :=
    fun cell hcell => isPlain_of_mem_operators hop cell.char (List.mem_map_of_mem hcell)
  obtain ⟨a, as, rfl⟩ := List.exists_cons_of_ne_nil (ne_nil_of_mem_operators hop)
  obtain ⟨b, bs, rfl⟩ := List.exists_cons_of_ne_nil (ne_nil_of_mem_operators hop')
  have hkind : a.kind = b.kind := by
    refine h _ hcells (fun cell hcell => ?_) a (by simp) b (by simp)
    rcases List.mem_append.1 hcell with hmem | hmem
    · exact hplain hop cell hmem
    · rcases List.mem_append.1 hmem with hmem | hmem
      · exact hgap.plain cell hmem
      · exact hplain hop' cell hmem
  simp [SameSide, isCodeOperator, hkind]

/-- **Every line is a gap and a row.** -/
lemma exists_row {cells : List Cell} (hkinds : KindsAgree cells) :
    ∃ (gap : List Cell) (row : Row), AllBlank gap ∧ row.Fits ∧ cells = gap ++ row.cells := by
  have hdivision := division_segments operatorAt_fits cells
  generalize (none : Option Char) = before, segments operatorAt cells = segs at hdivision
  induction hdivision with
  | done => exact ⟨[], [], List.forall_mem_nil _, .nil, rfl⟩
  | @plain before cell rest segs hnone _ ih =>
      obtain ⟨gap, row, hgap, hrow, rfl⟩ := ih (hkinds.part (List.suffix_cons cell rest).isInfix)
      cases hblank : isBlank cell.char with
      | true => exact ⟨cell :: gap, row, List.forall_mem_cons.2 ⟨hblank, hgap⟩, hrow, rfl⟩
      | false =>
          obtain ⟨hone, htwo⟩ := operator?_eq_none_iff.1 (Option.map_eq_none_iff.1 hnone)
          refine ⟨[], (.plain cell, gap) :: row, List.forall_mem_nil _,
            .cons ⟨hblank, hone⟩ hgap htwo (fun _ _ => trivial) hrow, ?_⟩
          simp [Row.cells, Segment.cells]
  | @found before taken rest what segs hfound hne _ ih =>
      obtain ⟨gap, row, hgap, hrow, rfl⟩ := ih (hkinds.part (List.suffix_append taken rest).isInfix)
      obtain ⟨hop, hnext⟩ := operator?_eq_some_iff.1 (operatorAt_eq_some hfound)
      refine ⟨[], (.found taken (), gap) :: row, List.forall_mem_nil _, .cons hop hgap hnext ?_ hrow, ?_⟩
      · cases hrow with
        | nil => simp [Row.first]
        | @cons mark trail rest hmark _ _ _ _ =>
            intro next hnext
            obtain rfl : mark = next := by simpa [Row.first] using hnext
            cases mark with
            | plain cell => trivial
            | found op what =>
                -- the two operators and the gap between them are plain characters
                refine hkinds.sameSide ?_ hop hmark hgap
                exact ⟨[], trail ++ rest.cells, by simp [Segment.cells]⟩
      · simp [Row.cells, Segment.cells]

/-! ## Gaps -/

/-- **The blanks between two marks of a line**, either of which may be missing. -/
def markGap (prev : Option (Segment Unit)) (gap : List Cell) (next : Option (Segment Unit)) : List Cell :=
  if prev.any isCodeOperator then
    if next.any isCodeOperator then [.code ' ', .code ' '] else spaceBehind (next.bind (·.cells.head?))
  else if next.any isCodeOperator then if prev.isNone then [] else [.code ' ']
  else gap

/-- **A row with its gaps put in order.** -/
def Row.respace : Row → Row
  | [] => []
  | (mark, gap) :: rest => (mark, markGap (some mark) gap (Row.first rest)) :: Row.respace rest

@[simp] lemma Row.first_respace (row : Row) : row.respace.first = row.first := by
  cases row <;> rfl

lemma markGap_markGap (prev next : Option (Segment Unit)) (gap : List Cell) :
    markGap prev (markGap prev gap next) next = markGap prev gap next := by
  unfold markGap
  split_ifs <;> rfl

lemma Row.respace_respace (row : Row) : row.respace.respace = row.respace := by
  induction row with
  | nil => rfl
  | cons part rest ih =>
      rw [Row.respace, Row.respace, ih, Row.first_respace, markGap_markGap]

lemma allBlank_markGap {gap : List Cell} (hgap : AllBlank gap) (prev next : Option (Segment Unit)) :
    AllBlank (markGap prev gap next) := by
  have hspace : AllBlank [.code ' '] := List.forall_mem_singleton.2 (by decide)
  unfold markGap
  split_ifs
  · exact List.forall_mem_cons.2 ⟨by decide, hspace⟩
  · intro cell hcell
    rw [eq_space_of_mem_spaceBehind hcell]
    decide
  · exact List.forall_mem_nil _
  · exact hspace
  · exact hgap

/-- Behind a mark that is no operator of code a gap is left alone, unless such an operator ends it. -/
lemma markGap_apart {mark : Segment Unit} (h : isCodeOperator mark = false) (gap : List Cell)
    (next : Option (Segment Unit)) :
    markGap (some mark) gap next = if next.any isCodeOperator then [.code ' '] else gap := by
  simp [markGap, h]

/-- The next character behind a mark stays, or it is white space. -/
lemma nextChar_markGap {mark : Segment Unit} {gap : List Cell} (hgap : AllBlank gap) {rest : Row}
    (hrest : rest.Fits) {d : Char}
    (hd : d ∈ nextChar (markGap (some mark) gap rest.first ++ rest.respace.cells) none) :
    isSpace d = true ∨ d ∈ nextChar (gap ++ rest.cells) none := by
  have hblank := allBlank_markGap hgap (some mark) rest.first
  generalize hnew : markGap (some mark) gap rest.first = new at hd hblank
  cases new with
  | cons cell new =>
      obtain rfl : cell.char = d := by simpa using hd
      exact .inl (isSpace_of_isBlank (hblank cell List.mem_cons_self))
  | nil =>
      cases hrest with
      | nil => simp [Row.respace, Row.cells] at hd
      | @cons next trail rest hnext _ _ _ _ =>
          obtain ⟨cell, tail, htail, -⟩ := hnext.exists_head
          obtain rfl : cell.char = d := by simpa [Row.respace, htail] using hd
          have hfirst : Row.first ((next, trail) :: rest) = some next := rfl
          rw [hfirst] at hnew
          -- the gap is gone at the end of a line only, unless there was none
          cases hmark : isCodeOperator mark with
          | true =>
              simp only [markGap, Option.any_some, hmark, if_true, Option.bind_some, htail, List.head?_cons,
                spaceBehind] at hnew
              split_ifs at hnew with _ hend
              left
              simp only [Bool.or_eq_true, beq_iff_eq] at hend
              rcases hend with hend | hend <;> (rw [hend]; decide)
          | false =>
              rw [markGap_apart hmark] at hnew
              split_ifs at hnew
              subst hnew
              exact .inr (by simp [htail])

/-- **A row with its gaps in order is read as before.** -/
lemma Row.Fits.respace {row : Row} (h : row.Fits) : row.respace.Fits := by
  induction h with
  | nil => exact .nil
  | @cons mark gap rest hmark hgap hnext hside hrest ih =>
      refine .cons hmark (allBlank_markGap hgap _ _) (fun d hd hmem => ?_) ?_ ih
      · rcases nextChar_markGap hgap hrest hd with hspace | hold
        · have hink := isSpace_of_mem_operators hmem d (by simp)
          simp [hspace] at hink
        · exact hnext d hold hmem
      · rwa [Row.first_respace]

/-- The cells behind a gap start no gap. -/
lemma Row.Fits.isBlank_head {row : Row} (h : row.Fits) : ∀ cell ∈ row.cells.head?, isBlank cell.char = false := by
  cases h with
  | nil => simp [Row.cells]
  | @cons mark gap rest hmark _ _ _ _ =>
      obtain ⟨cell, tail, hcells, hcell⟩ := hmark.exists_head
      simpa [hcells] using hcell

lemma Row.Fits.head?_cells {row : Row} (h : row.Fits) : row.cells.head? = row.first.bind (·.cells.head?) := by
  cases h with
  | nil => rfl
  | @cons mark gap rest hmark _ _ _ _ =>
      obtain ⟨cell, tail, hcells, -⟩ := hmark.exists_head
      simp [Row.first, hcells]

/-- What stands behind an operator of code is put there by it and by the next one. -/
lemma Row.Fits.markGap_operator {rest : Row} (h : rest.Fits) {mark : Segment Unit}
    (hmark : isCodeOperator mark = true) (gap : List Cell) :
    markGap (some mark) gap rest.first
      = spaceBehind rest.cells.head? ++ if rest.first.any isCodeOperator then [.code ' '] else [] := by
  rw [h.head?_cells]
  cases hnext : rest.first.any isCodeOperator with
  | false => simp [markGap, hmark, hnext]
  | true =>
      cases h with
      | nil => simp [Row.first] at hnext
      | @cons next trail rest hop _ _ _ _ =>
          obtain ⟨cell, tail, hcells, -⟩ := hop.exists_head
          cases next with
          | plain cell => simp [Row.first, isCodeOperator] at hnext
          | found op what =>
              have hmem : cell.char ∈ chars op := by
                rw [show op = cell :: tail from hcells]
                exact List.mem_cons_self
              have hink := isSpace_of_mem_operators hop _ hmem
              have hne {c : Char} (hc : isSpace c = true) : cell.char ≠ c := by
                rintro rfl
                simp [hink] at hc
              simp only [markGap, Option.any_some, hmark, hnext]
              simp [Row.first, hcells, spaceBehind, hne (c := '\n') (by decide), hne (c := '\r') (by decide)]

/-- **The pass on a line**, behind a character that is no operator. -/
lemma Row.Fits.replaces {row : Row} (h : row.Fits) {gap : List Cell} (hgap : AllBlank gap)
    (before : Option Char) :
    Replaces operatorFinder (fun _ spaced => spaced) before (gap ++ row.cells)
      ((if row.first.any isCodeOperator then spaceBefore before else gap) ++ row.respace.cells) := by
  induction h generalizing gap before with
  | nil => exact replaces_operators_blanks hgap (by simp [Row.cells]) rfl fun before => .nil
  | @cons mark trail rest hmark htrail hnext hside hrest ih =>
      rw [Row.cells_cons, Row.respace, Row.cells_cons]
      cases mark with
      | plain cell =>
          have hnone := operator?_eq_none_iff.2 ⟨hmark.2, hnext⟩
          have hblank : ∀ next ∈ (cell :: (trail ++ rest.cells)).head?, isBlank next.char = false := by
            simpa using hmark.1
          refine replaces_operators_blanks hgap hblank hnone fun before => .plain (operatorFinder_none ?_) ?_
          · rwa [List.dropWhile_cons_of_neg (by simp [hmark.1])]
          · have hbehind := ih htrail (some cell.char)
            rwa [markGap_apart rfl]
      | found op what =>
          have hop := operator?_eq_some_iff.2 ⟨hmark, hnext⟩
          have hne : gap ++ (op ++ trail) ≠ [] := by simp [ne_nil_of_mem_operators hmark]
          obtain ⟨c, hlast⟩ := exists_lastChar hne none
          rw [Option.or_none] at hlast
          have hbehind := ih (List.forall_mem_nil _ : AllBlank []) (some c)
          rw [List.nil_append] at hbehind
          have hreplaced : Replaces operatorFinder (fun _ spaced => spaced) before (_ ++ rest.cells)
              (_ ++ ((if rest.first.any isCodeOperator then [.code ' '] else []) ++ rest.respace.cells)) :=
            .found (operatorFinder_found hgap htrail hrest.isBlank_head hop before) hne (by rwa [hlast])
          cases hcode : isCodeOperator (.found op what) with
          | true =>
              have hany : op.head?.any (·.kind == .code) = true := hcode
              rw [if_pos hany] at hreplaced
              rw [hrest.markGap_operator hcode]
              simpa [Row.first, Segment.cells, hcode] using hreplaced
          | false =>
              have hany : op.head?.any (·.kind == .code) = false := hcode
              -- no operator of code follows, so the blanks stay
              have hfirst : rest.first.any isCodeOperator = false := SameSide.any_eq_false hside hcode
              rw [hany, hfirst] at hreplaced
              rw [markGap_apart hcode, hfirst]
              simpa [Row.first, Segment.cells, hcode] using hreplaced

end SqfLayout.Pass
