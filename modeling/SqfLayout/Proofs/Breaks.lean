import SqfLayout.Proofs.Indentation
import SqfLayout.Proofs.Rereading

/-!
# Literals up to their line breaks

Margins and indentation work on lines.  A literal may go over several of them, and then white space of the
literal is lost or added at its line breaks, and nowhere else.

**Breaks.**  `Breaking` lets white space come and go next to a line feed.  `joinBreaks` makes every stretch
of white space with a line feed in it one line feed, which has the same value on related texts
(`joinBreaks_eq`); a text without line feeds stays as it is.

**Rows.**  `rowLiterals` are the literals of lines, with the line feeds that lie in literals.  Two lines whose
literals agree up to breaks (`SameUpToBreaks`) may be exchanged before other lines (`RowsKept.cons`), and
lines that agree make texts that agree (`RowsKept.unlines`).

**Ends of lines.**  White space at the ends of a line may go (`SameUpToBreaks.trim`).  This is all that the
margins pass does.
-/

namespace SqfLayout.Pass

open SqfLayout.Text SqfLayout.Scan

/-! ## Breaks -/

/-- White space next to a line feed. -/
abbrev Breaking : List Char → List Char → Prop := SpacingAt (· == '\n')

/-- A stretch of white space: one line feed if it has any. -/
def settle (space : List Char) : List Char := if space.contains '\n' then ['\n'] else space

/-- A text behind a stretch of white space, with the stretches that hold a line feed joined. -/
def joinBreaksAfter : List Char → List Char → List Char
  | space, [] => settle space
  | space, c :: rest =>
    if isSpace c then joinBreaksAfter (space ++ [c]) rest else settle space ++ c :: joinBreaksAfter [] rest

/-- **A text with every stretch of white space that holds a line feed made one line feed.** -/
def joinBreaks (text : List Char) : List Char := joinBreaksAfter [] text

/-- Only whether a line feed has been seen counts. -/
lemma joinBreaksAfter_congr {a b : List Char} (ha : '\n' ∈ a) (hb : '\n' ∈ b) (text : List Char) :
    joinBreaksAfter a text = joinBreaksAfter b text := by
  induction text generalizing a b with
  | nil => simp [joinBreaksAfter, settle, ha, hb]
  | cons c text ih =>
      simp only [joinBreaksAfter]
      split
      · exact ih (by simp [ha]) (by simp [hb])
      · simp [settle, ha, hb]

/-- What comes in front of two texts does not matter. -/
lemma joinBreaksAfter_append {a b : List Char}
    (h : ∀ space, joinBreaksAfter space a = joinBreaksAfter space b) (left space : List Char) :
    joinBreaksAfter space (left ++ a) = joinBreaksAfter space (left ++ b) := by
  induction left generalizing space with
  | nil => exact h space
  | cons c left ih => simp only [List.cons_append, joinBreaksAfter, ih]

/-- **Texts that agree up to breaks are the same with their breaks joined.** -/
lemma joinBreaks_eq {a b : List Char} (h : Respaced Breaking a b) : joinBreaks a = joinBreaks b := by
  have hfeed : isSpace '\n' = true := by decide
  refine h.eq_of_rule fun a b hrule left right => ?_
  rw [List.append_assoc, List.append_assoc]
  refine joinBreaksAfter_append (fun space => ?_) left []
  rcases hrule with ⟨hs, hm⟩ | ⟨hm, hs⟩
  · obtain rfl := eq_of_beq hm
    simp only [List.cons_append, List.nil_append, joinBreaksAfter, hs, hfeed, if_true]
    exact joinBreaksAfter_congr (by simp) (by simp) right
  · obtain rfl := eq_of_beq hm
    simp only [List.cons_append, List.nil_append, joinBreaksAfter, hs, hfeed, if_true]
    exact joinBreaksAfter_congr (by simp) (by simp) right

lemma feed_mem_joinBreaksAfter (space text : List Char) :
    '\n' ∈ joinBreaksAfter space text ↔ '\n' ∈ space ++ text := by
  have hsettle (space : List Char) : '\n' ∈ settle space ↔ '\n' ∈ space := by
    rw [settle]
    split
    · next h => simpa using h
    · exact Iff.rfl
  induction text generalizing space with
  | nil => simp [joinBreaksAfter, hsettle]
  | cons c text ih =>
      simp only [joinBreaksAfter]
      split
      · simp [ih]
      · simp [ih, hsettle]

lemma joinBreaksAfter_of_not_mem {space text : List Char} (h : '\n' ∉ space ++ text) :
    joinBreaksAfter space text = space ++ text := by
  have hsettle {space : List Char} (h : '\n' ∉ space) : settle space = space := by simp [settle, h]
  induction text generalizing space with
  | nil =>
      rw [joinBreaksAfter, hsettle (by simpa using h), List.append_nil]
  | cons c text ih =>
      simp only [List.mem_append, List.mem_cons, not_or] at h
      simp only [joinBreaksAfter]
      split
      · rw [ih (by simp [h])]
        simp
      · rw [hsettle h.1, ih (by simp [h])]
        simp

/-- A text without line feeds that agrees with another up to breaks is that text. -/
lemma eq_of_joinBreaks {a b : List Char} (h : joinBreaks a = joinBreaks b) (hb : '\n' ∉ b) : a = b := by
  have hbreaks : joinBreaks b = b := joinBreaksAfter_of_not_mem (by simpa using hb)
  have ha : '\n' ∉ a := by
    rw [hbreaks] at h
    intro hmem
    exact hb (h ▸ (feed_mem_joinBreaksAfter [] a).2 (by simpa using hmem))
  have hbreaks' : joinBreaks a = a := joinBreaksAfter_of_not_mem (by simpa using ha)
  rwa [hbreaks, hbreaks'] at h

/-! ## Rows -/

/-- The literals of a text that is entered in the given mode. -/
def literalsFrom (mode : Mode) (text : List Char) : List Char :=
  chars (literalCells (labelFrom (.ready mode) text))

/-- **The text of all literals of a text.** -/
def literalText (text : List Char) : List Char := chars (literalCells (label text))

/-- The line feed between two lines, if it lies in a literal. -/
def feedIn (mode : Mode) : List Char := if mode.kind = .literal then ['\n'] else []

/-- The literals of lines, with the line feeds that lie in literals. -/
def rowLiterals : Mode → List (List Char) → List Char
  | _, [] => []
  | mode, line :: rest =>
    let next := (scanLine mode line).2
    literalsFrom mode line ++ (feedIn next ++ rowLiterals next rest)

lemma feedIn_afterLine (mode : Mode) : feedIn mode.afterLine = feedIn mode := by cases mode <;> rfl

/-- **A text is read line by line.** -/
lemma literalsFrom_line (mode : Mode) (line rest : List Char) :
    literalsFrom mode (line ++ '\n' :: rest)
        = literalsFrom mode line
          ++ (feedIn (scanLine mode line).2 ++ literalsFrom (scanLine mode line).2 rest)
      ∧ modeAfter mode (line ++ '\n' :: rest) = modeAfter (scanLine mode line).2 rest := by
  have hfeed : heeded ('\n' :: rest).head? = none :=
    heeded_of_space (by decide : isSpace '\n' = true)
  obtain ⟨hlabel, hmode⟩ := labelFrom_cut mode line hfeed
  rw [literalsFrom, hlabel, literalCells_append, chars_append, hmode, scanLine, ← literalsFrom,
    List.append_cancel_left_eq]
  cases modeAfter mode line <;> exact ⟨rfl, rfl⟩

lemma literalsFrom_rows (mode : Mode) (ls : List (List Char)) :
    literalsFrom mode (rows ls) = rowLiterals mode ls := by
  induction ls generalizing mode with
  | nil => rfl
  | cons line ls ih => rw [rows_cons, (literalsFrom_line mode line _).1, ih, rowLiterals]

/-! ## Texts that agree up to breaks -/

/-- **Two texts whose literals agree up to breaks**, entered in a mode.  What follows them starts in the
same mode, and their literals are related between the line feeds before and behind them, as far as those
lie in literals. -/
structure SameUpToBreaks (mode : Mode) (a b : List Char) : Prop where
  next : (scanLine mode b).2 = (scanLine mode a).2
  literals : Respaced Breaking (feedIn mode ++ (literalsFrom mode a ++ feedIn (scanLine mode a).2))
    (feedIn mode ++ (literalsFrom mode b ++ feedIn (scanLine mode a).2))

/-- **Two lists of lines whose literals agree up to breaks**, entered in a mode. -/
structure RowsKept (mode : Mode) (ls ls' : List (List Char)) : Prop where
  mode_eq : modeAfter mode (rows ls') = modeAfter mode (rows ls)
  literals : Respaced Breaking (feedIn mode ++ rowLiterals mode ls) (feedIn mode ++ rowLiterals mode ls')

section Rows

variable {mode : Mode} {a b c : List Char} {ls ls' ls'' : List (List Char)}

namespace SameUpToBreaks

lemma refl (mode : Mode) (a : List Char) : SameUpToBreaks mode a a := ⟨rfl, .refl _⟩

lemma symm (h : SameUpToBreaks mode a b) : SameUpToBreaks mode b a :=
  ⟨h.next.symm, by rw [h.next]; exact h.literals.symm⟩

lemma trans (hab : SameUpToBreaks mode a b) (hbc : SameUpToBreaks mode b c) :
    SameUpToBreaks mode a c := by
  refine ⟨hbc.next.trans hab.next, hab.literals.trans ?_⟩
  rw [← hab.next]
  exact hbc.literals

/-- Cells that are read to the same end and have the same literals. -/
lemma of_reads {cells cells' : List Cell} {stop : Cursor} (h : Reads (.ready mode) cells none stop)
    (h' : Reads (.ready mode) cells' none stop) (hliterals : literalCells cells' = literalCells cells) :
    SameUpToBreaks mode (chars cells) (chars cells') := by
  constructor
  · rw [scanLine, scanLine, modeAfter, modeAfter, h.cursorAfter_eq, h'.cursorAfter_eq]
  · rw [literalsFrom, literalsFrom, h.labelFrom_eq, h'.labelFrom_eq, hliterals]
    exact .refl _

end SameUpToBreaks

lemma RowsKept.refl (mode : Mode) (ls : List (List Char)) : RowsKept mode ls ls := ⟨rfl, .refl _⟩

lemma RowsKept.trans (h : RowsKept mode ls ls') (h' : RowsKept mode ls' ls'') :
    RowsKept mode ls ls'' := ⟨h'.mode_eq.trans h.mode_eq, h.literals.trans h'.literals⟩

/-- **Lines that agree may be exchanged before lines that agree.** -/
lemma RowsKept.cons (hline : SameUpToBreaks mode a b) (hrest : RowsKept (scanLine mode a).2 ls ls') :
    RowsKept mode (a :: ls) (b :: ls') := by
  constructor
  · rw [rows_cons, rows_cons, (literalsFrom_line mode b _).2, (literalsFrom_line mode a _).2,
      hline.next, hrest.mode_eq]
  · simp only [rowLiterals, hline.next]
    have h₁ := hrest.literals.append_left (feedIn mode ++ literalsFrom mode a)
    have h₂ := hline.literals.append_right (rowLiterals (scanLine mode a).2 ls')
    simp only [List.append_assoc] at h₁ h₂
    exact h₁.trans h₂

/-- The literals of lines are those of their text. -/
lemma rowLiterals_eq (ls : List (List Char)) :
    rowLiterals .code ls
        = literalsFrom .code (unlines ls) ++ feedIn (scanLine .code (unlines ls)).2
      ∧ modeAfter .code (rows ls) = (scanLine .code (unlines ls)).2 := by
  cases ls with
  | nil => exact ⟨rfl, rfl⟩
  | cons line ls =>
      rw [← literalsFrom_rows, ← unlines_append_feed (by simp)]
      obtain ⟨hliterals, hmode⟩ := literalsFrom_line .code (unlines (line :: ls)) []
      refine ⟨?_, hmode⟩
      rw [hliterals]
      simp [literalsFrom, labelFrom]

/-- **Lines that agree make texts that agree.** -/
lemma RowsKept.unlines (h : RowsKept .code ls ls') :
    SameUpToBreaks .code (Text.unlines ls) (Text.unlines ls') := by
  obtain ⟨hliterals, hmode⟩ := rowLiterals_eq ls
  obtain ⟨hliterals', hmode'⟩ := rowLiterals_eq ls'
  have hnext : (scanLine .code (Text.unlines ls')).2 = (scanLine .code (Text.unlines ls)).2 := by
    rw [← hmode', ← hmode, h.mode_eq]
  have hrows := h.literals
  rw [hliterals, hliterals', hnext] at hrows
  exact ⟨hnext, hrows⟩

/-! ## White space at the ends of lines -/

/-- The cells of white space in a mode, as far as they are literals. -/
lemma literalCells_map (w : List Char) (kind : CharClass) :
    chars (literalCells (w.map (⟨·, kind⟩))) = if kind = .literal then w else [] := by
  split
  · next hkind =>
      have hall : literalCells (w.map (⟨·, kind⟩)) = w.map (⟨·, kind⟩) :=
        List.filter_eq_self.2 (by simp [hkind])
      rw [hall, chars_map_mk]
  · next hkind =>
      rw [literalCells_of_kind (by simp) hkind]
      rfl

/-- The literals of white space, and the mode behind it. -/
lemma literalsFrom_space {w : List Char} (hw : ∀ c ∈ w, isSpace c = true) (mode : Mode) :
    literalsFrom mode w = (if mode.kind = .literal then w else [])
      ∧ (modeAfter mode w).afterLine = mode.afterLine := by
  by_cases hmode : mode = .line
  · subst hmode
    have hcells : AllSpace (labelFrom (.ready .line) w) := by
      intro cell hcell
      refine hw _ ?_
      rw [← chars_labelFrom (.ready .line) w]
      exact List.mem_map_of_mem hcell
    obtain ⟨hstop, hliterals⟩ := reads_space_line hcells (reads_modeAfter .line w)
    rw [literalsFrom, literalCells_eq_nil hliterals]
    refine ⟨rfl, ?_⟩
    rcases hstop with hstop | hstop
    · rw [Cursor.ready.inj hstop]
    · rw [Cursor.ready.inj hstop]
      rfl
  · obtain ⟨hlabel, hstop⟩ := labelFrom_space hw hmode []
    rw [List.append_nil] at hlabel hstop
    rw [literalsFrom, hlabel, hstop, labelFrom, List.append_nil, literalCells_map]
    exact ⟨rfl, rfl⟩

/-- White space in front of a text stands behind a break, if it lies in a literal. -/
lemma SameUpToBreaks.trimFront (hmode : mode ≠ .line) {front : List Char}
    (hfront : ∀ c ∈ front, isSpace c = true) (body : List Char) :
    SameUpToBreaks mode (front ++ body) body := by
  obtain ⟨hlabel, hstop⟩ := labelFrom_space hfront hmode body
  have hscan : (scanLine mode (front ++ body)).2 = (scanLine mode body).2 := by
    rw [scanLine, hstop, scanLine]
  refine ⟨hscan.symm, ?_⟩
  rw [literalsFrom, hlabel, literalCells_append, chars_append, literalCells_map, hscan,
    List.append_assoc, ← List.append_assoc, ← literalsFrom]
  refine .append_right _ ?_
  rw [feedIn]
  split
  · exact .behind (by decide) hfront
  · exact .refl _

/-- White space behind a text stands before a break, if it lies in a literal. -/
lemma SameUpToBreaks.trimBack {back : List Char} (hback : ∀ c ∈ back, isSpace c = true)
    (body : List Char) : SameUpToBreaks mode (body ++ back) body := by
  obtain ⟨hlabel, hstop⟩ := labelFrom_cut mode body (heeded_head_of_space hback)
  obtain ⟨hspace, hnext⟩ := literalsFrom_space hback (modeAfter mode body)
  have hscan : (scanLine mode (body ++ back)).2 = (scanLine mode body).2 := by
    rw [scanLine, hstop, hnext, scanLine]
  refine ⟨hscan.symm, .append_left _ ?_⟩
  rw [literalsFrom, hlabel, literalCells_append, chars_append, ← literalsFrom, ← literalsFrom, hspace,
    hscan, List.append_assoc]
  refine .append_left _ ?_
  rw [scanLine, feedIn_afterLine, feedIn]
  split
  · exact .before (by decide) hback
  · exact .refl _

/-- **White space at the ends of a text is next to breaks**, as far as it lies in literals. -/
lemma SameUpToBreaks.trim (hmode : mode ≠ .line) {front back : List Char}
    (hfront : ∀ c ∈ front, isSpace c = true) (hback : ∀ c ∈ back, isSpace c = true) (body : List Char) :
    SameUpToBreaks mode (front ++ (body ++ back)) body :=
  (trimFront hmode hfront _).trans (trimBack hback body)

/-! ## Margins -/

/-- **Lines that are stripped keep literals up to breaks.** -/
lemma rowsKept_stripped (hmode : mode ≠ .line) (h : List.Forall₂ Stripped ls ls') :
    RowsKept mode ls ls' := by
  induction h generalizing mode with
  | nil => exact .refl mode []
  | cons hline _ ih =>
      obtain ⟨⟨front, back, rfl, hfront, hback⟩, -⟩ := hline
      exact .cons (.trim hmode hfront hback _) (ih (scanLine_ne_line mode _))

lemma sameUpToBreaks_stripMargins (text : List Char) : SameUpToBreaks .code text (stripMargins text) := by
  have hrows := (rowsKept_stripped Mode.noConfusion (forall₂_stripRows none .code (lines text))).unlines
  rwa [unlines_lines] at hrows

end Rows

end SqfLayout.Pass
