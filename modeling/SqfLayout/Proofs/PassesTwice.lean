import SqfLayout.Proofs.BraceLines
import SqfLayout.Proofs.EntriesInTurn
import SqfLayout.Proofs.OperatorLines
import SqfLayout.Proofs.Reindentation
import SqfLayout.Proofs.RemarkLines
import SqfLayout.Proofs.StatementLines

/-!
# Passes run twice

A pass leaves alone what it has written.  Braces, operators and statements stand at their places then, and stay
(`breakBraces_breakBraces` and so on).  Here are the others.

**Margins.**  Stripped lines lie to block comments as before (`positions_stripped`).  In a comment body the line
with the least indentation has none left, so the body has no margin (`bodyMargin_strippedRows`), also where white
space takes several bytes.

**Parentheses.**  No blank is left inside of one (`isChain_trimmed`).

**Words.**  An entry is found by its lower-case form, and a word has the same one in every spelling
(`chars_spellRun_spellRun`).
-/

namespace SqfLayout.Pass

open SqfLayout.Text SqfLayout.Scan

/-! ## Margins -/

/-- The scanner does not see that a line is stripped. -/
lemma Stripped.scanLine_eq {line kept : List Char} (h : Stripped line kept) {mode : Mode} (hmode : mode ≠ .line) :
    (scanLine mode kept).2 = (scanLine mode line).2 := by
  obtain ⟨front, back, rfl, hfront, hback⟩ := h.space
  exact (SameUpToBreaks.trim hmode hfront hback kept).next

/-- **Stripped lines lie to block comments as before.** -/
lemma positions_stripped {mode : Mode} (hmode : mode ≠ .line) {ls kept : List (List Char)}
    (h : List.Forall₂ Stripped ls kept) :
    positions mode kept = kept.zip ((positions mode ls).map Prod.snd) := by
  induction h generalizing mode with
  | nil => rfl
  | @cons line short ls kept hline _ ih =>
      have hscan := hline.scanLine_eq hmode
      have hposition : (scanLine mode short).1.position = (scanLine mode line).1.position :=
        congrArg (CommentPosition.between mode) hscan
      rw [positions, positions, List.map_cons, List.zip_cons_cons, hposition, hscan, ih (scanLine_ne_line mode _)]

/-- The lines that hold anything of the comment body at the start of some rows. -/
def heldLines (rows : List (List Char × CommentPosition)) : List (List Char) :=
  ((rows.takeWhile (·.2 == .inside)).map fun row => trimEnd row.1).filter (!·.isEmpty)

/-- Stripped rows with their positions. -/
def strippedRows (margin : Nat) (rows : List (List Char × CommentPosition)) : List (List Char × CommentPosition) :=
  (stripRows (some margin) rows).zip (rows.map Prod.snd)

/-- The first row settles the margin of a body. -/
lemma stripRows_none (rows : List (List Char × CommentPosition)) :
    stripRows none rows = stripRows (some (bodyMargin rows)) rows := by
  cases rows with
  | nil => rfl
  | cons row rest =>
      rw [stripRows, stripRows]
      split <;> rfl

/-- A margin of just the white space at the start of a line takes all of it. -/
lemma stripIndent_append {front : List Char} (h : ∀ c ∈ front, isSpace c = true) (rest : List Char) :
    stripIndent (byteLength front) (front ++ rest) = rest := by
  induction front with
  | nil => rw [byteLength, stripIndent, List.nil_append]
  | cons c front ih =>
      obtain ⟨hc, hfront⟩ := List.forall_mem_cons.1 h
      obtain ⟨size, hsize⟩ : ∃ size, c.utf8Size = size + 1 := ⟨c.utf8Size - 1, by have := c.utf8Size_pos; omega⟩
      have hlength : byteLength (c :: front) = (size + byteLength front) + 1 := by
        rw [byteLength, hsize]
        omega
      have hleft : size + byteLength front + 1 - c.utf8Size = byteLength front := by omega
      rw [hlength, List.cons_append, stripIndent, if_pos hc, hleft, ih hfront]

lemma leadingSpace_stripIndent (line : List Char) : leadingSpace (stripIndent (leadingSpace line) line) = 0 := by
  have hfront : ∀ c ∈ line.takeWhile isSpace, isSpace c = true := fun c hc => List.mem_takeWhile_imp hc
  have hstrip := stripIndent_append hfront (line.dropWhile isSpace)
  have hhead := head?_dropWhile isSpace line
  rw [List.takeWhile_append_dropWhile] at hstrip
  rw [leadingSpace, leadingSpace, hstrip]
  cases hrest : line.dropWhile isSpace with
  | nil => rfl
  | cons c rest => rw [List.takeWhile_cons_of_neg (by simp [hhead c (by simp [hrest])]), byteLength]

section Rows

variable {line : List Char} {rest : List (List Char × CommentPosition)}

lemma stripRows_inside (margin : Nat) :
    stripRows (some margin) ((line, .inside) :: rest)
      = stripIndent margin (trimEnd line) :: stripRows (some margin) rest := rfl

lemma stripRows_outside (body : Option Nat) {position : CommentPosition} (h : position ≠ .inside) :
    stripRows body ((line, position) :: rest) = trim line :: stripRows none rest := by
  rw [stripRows, if_neg (by simpa using h)]

lemma strippedRows_inside (margin : Nat) :
    strippedRows margin ((line, .inside) :: rest)
      = (stripIndent margin (trimEnd line), .inside) :: strippedRows margin rest := rfl

lemma strippedRows_outside (margin : Nat) {position : CommentPosition} (h : position ≠ .inside) :
    strippedRows margin ((line, position) :: rest)
      = (trim line, position) :: strippedRows (bodyMargin rest) rest := by
  rw [strippedRows, List.map_cons, stripRows_outside _ h, List.zip_cons_cons, stripRows_none, strippedRows]

lemma heldLines_inside :
    heldLines ((line, .inside) :: rest)
      = if trimEnd line = [] then heldLines rest else trimEnd line :: heldLines rest := by
  rw [heldLines, List.takeWhile_cons_of_pos (by simp), List.map_cons, List.filter_cons]
  by_cases hempty : trimEnd line = []
  · rw [if_pos hempty, if_neg (by simp [hempty]), heldLines]
  · rw [if_neg hempty, if_pos (by simpa using hempty), heldLines]

end Rows

lemma stripIndent_nil (margin : Nat) : stripIndent margin [] = [] := by
  cases margin <;> rfl

lemma trimEnd_stripIndent (margin : Nat) (line : List Char) :
    trimEnd (stripIndent margin (trimEnd line)) = stripIndent margin (trimEnd line) :=
  trimEnd_of_getLast (stripped_stripIndent margin line).last

/-- What a line holds is no part of its margin. -/
lemma stripIndent_ne_nil {line : List Char} (margin : Nat) (h : trimEnd line ≠ []) :
    stripIndent margin (trimEnd line) ≠ [] := by
  intro hnil
  have hbare := (stripped_stripIndent margin line).isBare_eq
  rw [hnil] at hbare
  exact h (trimEnd_of_bare hbare.symm)

/-- A stripped body holds the same lines without their margin. -/
lemma heldLines_strippedRows (margin : Nat) (rows : List (List Char × CommentPosition)) :
    heldLines (strippedRows margin rows) = (heldLines rows).map (stripIndent margin) := by
  induction rows with
  | nil => rfl
  | cons row rest ih =>
      obtain ⟨line, position⟩ := row
      by_cases hinside : position = .inside
      · subst hinside
        rw [strippedRows_inside, heldLines_inside, heldLines_inside, trimEnd_stripIndent, ih]
        by_cases hempty : trimEnd line = []
        · rw [hempty, stripIndent_nil]
          rfl
        · rw [if_neg hempty, if_neg (stripIndent_ne_nil margin hempty), List.map_cons]
      · rw [strippedRows_outside margin hinside]
        simp [heldLines, hinside]

/-- **A stripped body has no margin.** -/
lemma bodyMargin_strippedRows (rows : List (List Char × CommentPosition)) :
    bodyMargin (strippedRows (bodyMargin rows) rows) = 0 := by
  have hmargin (rows : List (List Char × CommentPosition)) :
      bodyMargin rows = ((heldLines rows).map leadingSpace).min?.getD 0 := rfl
  rw [hmargin (strippedRows _ _), heldLines_strippedRows, List.map_map]
  cases hmin : ((heldLines rows).map leadingSpace).min? with
  | none =>
      rw [List.min?_eq_none_iff, List.map_eq_nil_iff] at hmin
      rw [hmin]
      rfl
  | some margin =>
      -- the line with the least indentation has none left
      obtain ⟨line, hline, hleast⟩ := List.mem_map.1 (List.min?_mem hmin)
      have hzero : leadingSpace (stripIndent (bodyMargin rows) line) = 0 := by
        rw [hmargin rows, hmin, Option.getD_some, ← hleast, leadingSpace_stripIndent]
      exact Nat.le_zero.1 (List.min?_getD_le_of_mem (List.mem_map.2 ⟨line, hline, hzero⟩))

/-- **Without a margin, stripped rows stay as they are.** -/
lemma stripRows_strippedRows (margin : Nat) (rows : List (List Char × CommentPosition)) :
    stripRows (some 0) (strippedRows margin rows) = stripRows (some margin) rows := by
  induction rows generalizing margin with
  | nil => rfl
  | cons row rest ih =>
      obtain ⟨line, position⟩ := row
      by_cases hinside : position = .inside
      · subst hinside
        rw [strippedRows_inside, stripRows_inside, stripRows_inside, trimEnd_stripIndent, stripIndent, ih]
      · have hkept : trim (trim line) = trim line := by
          rw [trim, trimEnd_of_getLast (getLast?_trim line)]
          exact trimStart_of_head (head?_trimStart _)
        rw [strippedRows_outside margin hinside, stripRows_outside _ hinside, stripRows_outside _ hinside, hkept,
          stripRows_none (strippedRows _ _), bodyMargin_strippedRows, ih, stripRows_none rest]

/-- **A second run of the margins pass changes nothing.** -/
lemma stripMargins_stripMargins (text : List Char) : stripMargins (stripMargins text) = stripMargins text := by
  have hstripped := forall₂_stripRows none .code (lines text)
  have htwice : stripRows none (positions .code (lines (stripMargins text)))
      = stripRows none (positions .code (lines text)) := by
    rw [lines_stripMargins, positions_stripped Mode.noConfusion hstripped, stripRows_none (positions _ _),
      ← strippedRows, stripRows_none (strippedRows _ _), bodyMargin_strippedRows, stripRows_strippedRows]
  exact congrArg unlines htwice

/-! ## Parentheses -/

/-- Two cells that are no parenthesis with a blank on its inner side. -/
def Tight (a b : Cell) : Prop :=
  (a = .code '(' → isBlank b.char = false) ∧ (b = .code ')' → isBlank a.char = false)

/-- No parenthesis is found. -/
lemma parenFinder_eq_none {before : Option Char} {cell : Cell} {rest : List Cell}
    (h : parenFinder before (cell :: rest) = none) :
    cell ≠ .code '(' ∧ .code ')' ∉ ((cell :: rest).dropWhile fun cell => isBlank cell.char).head? := by
  simp only [parenFinder] at h
  split_ifs at h with hopening
  refine ⟨fun heq => hopening (isCode_iff.2 heq), fun hclosing => ?_⟩
  obtain ⟨rest', hrest⟩ := List.head?_eq_some_iff.1 hclosing
  rw [hrest] at h
  simp [isCode_iff] at h

/-- The blanks behind an opening parenthesis are all taken. -/
lemma isBlank_behind_opening {before : Option Char} {taken rest : List Cell}
    (h : parenFinder before (taken ++ rest) = some (taken.length, .code '(')) :
    ∀ cell ∈ rest.head?, isBlank cell.char = false := by
  obtain ⟨blanks, hblanks, ⟨-, rfl⟩ | ⟨hparen, -⟩⟩ := parenFinder_taken h
  · have hopening : Cell.isCode (.code '(') '(' = true := rfl
    simp only [List.cons_append, parenFinder, hopening, if_true, List.takeWhile_append_of_pos hblanks] at h
    have hlength := (Prod.mk.inj (Option.some.inj h)).1
    simp only [List.length_append, List.length_cons] at hlength
    cases rest with
    | nil => simp
    | cons cell rest =>
        intro next hnext
        obtain rfl : cell = next := Option.some.inj hnext
        by_contra hblank
        rw [List.takeWhile_cons_of_pos (by simpa using hblank), List.length_cons] at hlength
        omega
  · exact absurd hparen (by decide)

/-- The pass starts with what the text starts with, or with a closing parenthesis behind blanks. -/
lemma head?_trimmed {before : Option Char} {cells : List Cell} {segs : List (Segment Cell)}
    (h : Division parenFinder before cells segs) :
    ∀ cell ∈ (segs.flatMap (Segment.replaced fun _ paren => [paren])).head?,
      cell ∈ cells.head? ∨ cell = .code ')' ∧ cell ∈ (cells.dropWhile fun cell => isBlank cell.char).head? := by
  intro cell hcell
  cases h with
  | done => simp at hcell
  | plain hnone _ => exact .inl (by simpa [Segment.replaced] using hcell)
  | @found before taken rest paren segs hfound _ _ =>
      obtain rfl : paren = cell := by simpa [Segment.replaced] using hcell
      obtain ⟨blanks, hblanks, ⟨rfl, rfl⟩ | ⟨rfl, rfl⟩⟩ := parenFinder_taken hfound
      · exact .inl rfl
      · refine .inr ⟨rfl, ?_⟩
        rw [List.append_assoc, (hblanks.takeWhile_append (by simp [isBlank])).2]
        rfl

/-- **The pass leaves no blanks inside parentheses.** -/
lemma isChain_trimmed {before : Option Char} {cells : List Cell} {segs : List (Segment Cell)}
    (h : Division parenFinder before cells segs) :
    List.IsChain Tight (segs.flatMap (Segment.replaced fun _ paren => [paren])) := by
  induction h with
  | done => exact .nil
  | @plain before cell rest segs hnone hrest ih =>
      obtain ⟨hopening, hclosing⟩ := parenFinder_eq_none hnone
      refine List.isChain_cons.2 ⟨fun next hnext => ⟨fun heq => absurd heq hopening, ?_⟩, ih⟩
      rintro rfl
      by_contra hblank
      refine hclosing ?_
      rw [List.dropWhile_cons_of_pos (by simpa using hblank)]
      rcases head?_trimmed hrest _ hnext with hhead | ⟨-, hhead⟩
      · obtain ⟨back, rfl⟩ := List.head?_eq_some_iff.1 hhead
        rfl
      · exact hhead
  | @found before taken rest paren segs hfound hne hrest ih =>
      refine List.isChain_cons.2 ⟨fun next hnext => ⟨?_, ?_⟩, ih⟩
      · rintro rfl
        rcases head?_trimmed hrest next hnext with hhead | ⟨rfl, -⟩
        · exact isBlank_behind_opening hfound next hhead
        · decide
      · obtain ⟨blanks, -, ⟨rfl, -⟩ | ⟨rfl, -⟩⟩ := parenFinder_taken hfound <;> exact fun _ => by decide

/-- **A second run of the parentheses pass changes nothing.** -/
lemma trimParens_trimParens (text : List Char) : trimParens (trimParens text) = trimParens text := by
  have hchain : List.IsChain Tight (label (trimParens text)) := by
    rw [label_trimParens, replaceFound_eq]
    exact isChain_trimmed (division_segments parenFinder_fits (label text))
  have hstays : replaceFound parenFinder (fun _ paren => [paren]) (label (trimParens text))
      = label (trimParens text) := by
    refine replaceFound_eq_self parenFinder_fits fun before taken rest paren hsuffix hfound => ?_
    have htight := List.isChain_iff_forall_rel_of_append_cons_cons.1 (hchain.suffix hsuffix)
    obtain ⟨blanks, hblanks, ⟨rfl, rfl⟩ | ⟨rfl, rfl⟩⟩ := parenFinder_taken hfound
    · cases blanks with
      | nil => rfl
      | cons blank blanks =>
          have hblank := (htight (List.nil_append _).symm).1 rfl
          rw [hblanks blank List.mem_cons_self] at hblank
          contradiction
    · rcases List.eq_nil_or_concat' blanks with rfl | ⟨front, blank, rfl⟩
      · rfl
      · have hsplit : front ++ [blank] ++ [.code ')'] ++ rest = front ++ blank :: .code ')' :: rest := by simp
        have hblank := (htight hsplit).2 rfl
        rw [hblanks blank (by simp)] at hblank
        contradiction
  rw [trimParens, hstays, chars_label]

/-! ## Words -/

/-- **A second run of the spelling pass changes nothing.** -/
lemma spellWords_spellWords {commands functions : List (List Char)}
    (hwords : ∀ word ∈ commands ++ functions, ∀ c ∈ word, c.toNat < 128 ∧ isWordChar c = true) (text : List Char) :
    spellWords (.ofLists commands functions) (spellWords (.ofLists commands functions) text)
      = spellWords (.ofLists commands functions) text := by
  have hclass := singleClass_runs text
  have hcased : ∀ word ∈ (commands ++ functions).filter (·.any hasCase), ∀ c ∈ word,
      c.toNat < 128 ∧ isWordChar c = true := fun word hword => hwords word (List.mem_of_mem_filter hword)
  rw [spellWords_eq_runs hwords (spellWords _ text), spellWords_eq_runs hwords text, ← spellRun_casedEntries,
    runs_label_flatMap fun run hrun => recast_spellRun hcased (hclass run hrun), List.flatMap_map]
  exact List.flatMap_congr fun run hrun => congrArg chars (spellRun_spellRun hcased (hclass run hrun))

/-! ## All passes -/

/-- **A second run of a pass changes nothing.**  This holds of every text, and of spelling for every vocabulary of
ASCII letters, digits and underscores. -/
theorem passes_idempotent (text : List Char) :
    stripMargins (stripMargins text) = stripMargins text
      ∧ breakBraces (breakBraces text) = breakBraces text
      ∧ spaceOperators (spaceOperators text) = spaceOperators text
      ∧ splitStatements (splitStatements text) = splitStatements text
      ∧ trimParens (trimParens text) = trimParens text
      ∧ ∀ commands functions : List (List Char),
        (∀ word ∈ commands ++ functions, ∀ c ∈ word, isWordCode c.toNat = true) →
          spellWords (.ofLists commands functions) (spellWords (.ofLists commands functions) text)
            = spellWords (.ofLists commands functions) text :=
  ⟨stripMargins_stripMargins text, breakBraces_breakBraces text, spaceOperators_spaceOperators text,
    splitStatements_splitStatements text, trimParens_trimParens text, fun _ _ hwords =>
      spellWords_spellWords (fun word hword c hc => word_of_isWordCode (hwords word hword c hc)) text⟩

/-- Entries that differ in case only, in code, in a comment and in a literal. -/
theorem passes_idempotent_alike :
    (∀ word ∈ ["hint".toList, "getPos".toList] ++ ["GETPOS".toList], ∀ c ∈ word, isWordCode c.toNat = true)
      ∧ spellWords (.ofLists ["hint".toList, "getPos".toList] ["GETPOS".toList])
          "HINT getpos /* Hint */ 'Hint'".toList = "hint GETPOS /* hint */ 'Hint'".toList
      ∧ spellWords (.ofLists ["hint".toList, "getPos".toList] ["GETPOS".toList])
          "hint GETPOS /* hint */ 'Hint'".toList = "hint GETPOS /* hint */ 'Hint'".toList := by
  have hwords : ∀ word ∈ ["hint".toList, "getPos".toList] ++ ["GETPOS".toList],
      ∀ c ∈ word, isWordCode c.toNat = true := by
    decide +kernel
  have htext : spellWords (.ofLists ["hint".toList, "getPos".toList] ["GETPOS".toList])
      "HINT getpos /* Hint */ 'Hint'".toList = "hint GETPOS /* hint */ 'Hint'".toList := by
    rw [spellWords_eq_runs fun word hword c hc => word_of_isWordCode (hwords word hword c hc)]
    decide +kernel
  have htwice := (passes_idempotent "HINT getpos /* Hint */ 'Hint'".toList).2.2.2.2.2 _ _ hwords
  rw [htext] at htwice
  exact ⟨hwords, htext, htwice⟩

end SqfLayout.Pass
