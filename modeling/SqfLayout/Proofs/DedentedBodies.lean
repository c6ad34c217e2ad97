import Mathlib.Order.Bounds.Defs
import SqfLayout.Proofs.PassesTwice
import SqfLayout.Proofs.Replacements

/-!
# Dedented comment bodies

The margins pass moves a comment body left as a whole.  How far is counted in bytes, but lines are cut between
characters, so a line with wide white space may lose more than the margin.

**Bodies.**  `CommentBody`: the lines strictly inside a block comment that follow each other, none left out at
either end.  A body is stripped by its own margin, whatever stands around it (`CommentBody.exists_lines`).

**Widths.**  The margin is the least of the `indentWidths` (`CommentBody.isLeast_bodyMargin`).

**Cuts.**  `ShortestIndent`: the shortest start of a line that has the width of the margin.  This is what a line
loses that is at least so far indented (`exists_shortestIndent`), and the line that gave the margin loses all of
its indentation (`exists_head_stripIndent`).
-/

namespace SqfLayout.Pass

open SqfLayout.Text SqfLayout.Scan

/-! ## Bodies -/

/-- **A comment body among the lines of a text**: the lines strictly inside a block comment that follow each
other, with no such line right before or behind them. -/
structure CommentBody (text : List Char) (before body after : List (List Char × CommentPosition)) : Prop where
  rows_eq : positions .code (lines text) = before ++ (body ++ after)
  nonempty : body ≠ []
  inside : ∀ row ∈ body, row.2 = .inside
  front : (before.map Prod.snd).getLast? ≠ some .inside
  back : (after.map Prod.snd).head? ≠ some .inside

/-- Behind a line that is not inside a comment no margin is carried along. -/
lemma exists_stripRows_outside {before : List (List Char × CommentPosition)}
    (hlast : (before.map Prod.snd).getLast? ≠ some .inside) (rest : List (List Char × CommentPosition))
    (body : Option Nat) (hbody : before = [] → body = none) :
    ∃ front, front.length = before.length ∧ stripRows body (before ++ rest) = front ++ stripRows none rest := by
  induction before generalizing body with
  | nil => exact ⟨[], rfl, by rw [hbody rfl, List.nil_append, List.nil_append]⟩
  | cons row before ih =>
      obtain ⟨line, position⟩ := row
      have hlast' : (before.map Prod.snd).getLast? ≠ some .inside := by
        cases before with
        | nil => simp
        | cons next before => simpa using hlast
      by_cases hinside : position = .inside
      · subst hinside
        -- the last line is another one, and the margin of this body ends before it
        have hne : before ≠ [] := by
          rintro rfl
          simp at hlast
        obtain ⟨margin, hrow⟩ : ∃ margin, stripRows body ((line, .inside) :: (before ++ rest))
            = stripIndent margin (trimEnd line) :: stripRows (some margin) (before ++ rest) := ⟨_, rfl⟩
        obtain ⟨front, hlength, hrest⟩ := ih hlast' (some margin) (absurd · hne)
        exact ⟨_ :: front, congrArg Nat.succ hlength, by rw [List.cons_append, hrow, hrest, List.cons_append]⟩
      · obtain ⟨front, hlength, hrest⟩ := ih hlast' none fun _ => rfl
        refine ⟨trim line :: front, congrArg Nat.succ hlength, ?_⟩
        rw [List.cons_append, stripRows_outside body hinside, hrest, List.cons_append]

/-- The margin of a body ends with it. -/
lemma stripRows_some {after : List (List Char × CommentPosition)}
    (h : (after.map Prod.snd).head? ≠ some .inside) (margin : Nat) :
    stripRows (some margin) after = stripRows none after := by
  cases after with
  | nil => rfl
  | cons row after =>
      have hrow : row.2 ≠ .inside := by simpa using h
      rw [stripRows_outside _ hrow, stripRows_outside _ hrow]

/-! ## Widths -/

/-- **The widths of the indentations in a comment body**, in bytes; blank lines have none. -/
def indentWidths (body : List (List Char × CommentPosition)) : Set Nat :=
  {width | ∃ row ∈ body, isBare row.1 = false ∧ leadingSpace row.1 = width}

/-- White space at its end does not belong to the indentation of a line that is not blank. -/
lemma leadingSpace_trimEnd {line : List Char} (h : isBare line = false) :
    leadingSpace (trimEnd line) = leadingSpace line := by
  obtain ⟨back, hline, hback⟩ := exists_trimEnd line
  have hfull : ¬ ((trimEnd line).takeWhile isSpace).length = (trimEnd line).length := by
    intro hlength
    have hbare : ∀ c ∈ trimEnd line, isSpace c = true := by
      rw [← (List.takeWhile_sublist isSpace).eq_of_length hlength]
      exact fun c => List.mem_takeWhile_imp
    have hall : isBare line = true := by
      rw [isBare, List.all_eq_true, hline]
      exact fun c hc => (List.mem_append.1 hc).elim (hbare c) (hback c)
    simp [h] at hall
  have hindent : line.takeWhile isSpace = (trimEnd line).takeWhile isSpace := by
    conv_lhs => rw [hline, List.takeWhile_append, if_neg hfull]
  rw [leadingSpace, leadingSpace, hindent]

/-- The widths are the indentations that the margin is taken from. -/
lemma mem_indents_iff {body after : List (List Char × CommentPosition)} (hbody : ∀ row ∈ body, row.2 = .inside)
    (hafter : (after.map Prod.snd).head? ≠ some .inside) {width : Nat} :
    width ∈ indents (body ++ after) ↔ width ∈ indentWidths body := by
  induction body with
  | nil =>
      have hnone : indents after = [] := by
        cases after with
        | nil => rfl
        | cons row after => exact indents_outside (by simpa using hafter)
      simp [hnone, indentWidths]
  | cons row body ih =>
      obtain ⟨line, position⟩ := row
      obtain ⟨hrow, hrest⟩ := List.forall_mem_cons.1 hbody
      obtain rfl : position = .inside := hrow
      have hwidths : width ∈ indentWidths ((line, .inside) :: body)
          ↔ (isBare line = false ∧ leadingSpace line = width) ∨ width ∈ indentWidths body := by
        simp [indentWidths]
      rw [hwidths, List.cons_append, ← ih hrest]
      cases hbare : isBare line with
      | true => simp [indents_blank (trimEnd_of_bare hbare)]
      | false => simp [indents_full (trimEnd_ne_nil hbare), leadingSpace_trimEnd hbare, eq_comm]

/-! ## Cuts -/

/-- **The shortest start of a line that is white space** of at least the given number of bytes. -/
structure ShortestIndent (width : Nat) (line indent : List Char) : Prop where
  start : indent <+: line
  space : ∀ c ∈ indent, isSpace c = true
  wide : width ≤ byteLength indent
  shortest : ∀ other, other <+: line → (∀ c ∈ other, isSpace c = true) → width ≤ byteLength other →
    indent <+: other

lemma leadingSpace_cons {c : Char} (h : isSpace c = true) (rest : List Char) :
    leadingSpace (c :: rest) = c.utf8Size + leadingSpace rest := by
  rw [leadingSpace, List.takeWhile_cons_of_pos h, byteLength, leadingSpace]

/-- A line whose indentation has no bytes starts with something else than white space. -/
lemma isSpace_head_of_leadingSpace {line : List Char} (h : leadingSpace line = 0) :
    ∀ c ∈ line.head?, isSpace c = false := by
  intro c hc
  obtain ⟨rest, rfl⟩ := List.head?_eq_some_iff.1 hc
  by_contra hspace
  rw [leadingSpace_cons (by simpa using hspace)] at h
  have := c.utf8Size_pos
  omega

/-- One more character of white space in front. -/
lemma ShortestIndent.cons {width : Nat} {line indent : List Char} {c : Char} (hc : isSpace c = true)
    (hwidth : 0 < width) (h : ShortestIndent (width - c.utf8Size) line indent) :
    ShortestIndent width (c :: line) (c :: indent) where
  start := List.cons_prefix_cons.2 ⟨rfl, h.start⟩
  space := List.forall_mem_cons.2 ⟨hc, h.space⟩
  wide := by
    have := h.wide
    rw [byteLength]
    omega
  shortest := by
    intro other hstart hspace hwide
    cases other with
    | nil =>
        rw [byteLength] at hwide
        omega
    | cons d other =>
        obtain ⟨rfl, hrest⟩ := List.cons_prefix_cons.1 hstart
        rw [byteLength] at hwide
        have hshort := h.shortest other hrest (List.forall_mem_cons.1 hspace).2 (by omega)
        exact List.cons_prefix_cons.2 ⟨rfl, hshort⟩

/-- **A line that is far enough indented loses the shortest indentation of the given width.** -/
lemma exists_shortestIndent {width : Nat} {line : List Char} (h : width ≤ leadingSpace line) :
    ∃ indent, line = indent ++ stripIndent width line ∧ ShortestIndent width line indent := by
  fun_induction stripIndent width line with
  | case1 line => exact ⟨[], rfl, List.nil_prefix, by simp, Nat.zero_le _, fun _ _ _ _ => List.nil_prefix⟩
  | case2 n =>
      have hzero : leadingSpace [] = 0 := rfl
      omega
  | case3 n c rest hspace ih =>
      rw [leadingSpace_cons hspace] at h
      obtain ⟨indent, hline, hindent⟩ := ih (by omega)
      exact ⟨c :: indent, by rw [List.cons_append, ← hline], hindent.cons hspace (Nat.succ_pos n)⟩
  | case4 n c rest hspace =>
      have hzero : leadingSpace (c :: rest) = 0 := by
        rw [leadingSpace, List.takeWhile_cons_of_neg hspace, byteLength]
      omega

/-- **A line that is indented by just the margin has no indentation left.** -/
lemma exists_head_stripIndent {line : List Char} (h : isBare line = false) :
    ∃ c ∈ (stripIndent (leadingSpace line) (trimEnd line)).head?, isSpace c = false := by
  have hne := stripIndent_ne_nil (leadingSpace line) (trimEnd_ne_nil h)
  have hzero : leadingSpace (stripIndent (leadingSpace line) (trimEnd line)) = 0 := by
    rw [← leadingSpace_trimEnd h]
    exact leadingSpace_stripIndent (trimEnd line)
  obtain ⟨c, rest, hkept⟩ := List.exists_cons_of_ne_nil hne
  have hhead : c ∈ (stripIndent (leadingSpace line) (trimEnd line)).head? := by rw [hkept]; rfl
  exact ⟨c, hhead, isSpace_head_of_leadingSpace hzero c hhead⟩

/-! ## Dedented bodies -/

lemma length_lines_stripMargins (text : List Char) : (lines (stripMargins text)).length = (lines text).length := by
  rw [lines_stripMargins]
  exact (forall₂_stripRows none .code (lines text)).length_eq.symm

lemma positions_stripMargins (text : List Char) :
    positions .code (lines (stripMargins text))
      = (lines (stripMargins text)).zip ((positions .code (lines text)).map Prod.snd) := by
  rw [lines_stripMargins]
  exact positions_stripped Mode.noConfusion (forall₂_stripRows none .code (lines text))

/-- **A line of a comment body and what is left of it.**  A blank line is emptied.  Any other one lacks the
white space at its end and the shortest indentation that is as wide as the least one in the body. -/
structure Dedented (body : List (List Char × CommentPosition)) (line kept : List Char) : Prop where
  blank : isBare line = true → kept = []
  full : isBare line = false → ∃ width indent, IsLeast (indentWidths body) width
    ∧ ShortestIndent width (trimEnd line) indent
    ∧ splitAtByte? (byteLength indent) (trimEnd line) = some (indent, kept)

namespace CommentBody

variable {text : List Char} {before body after : List (List Char × CommentPosition)}

/-- A body is stripped by its own margin. -/
lemma exists_lines (h : CommentBody text before body after) :
    ∃ front back, front.length = before.length ∧ lines (Pass.stripMargins text)
      = front ++ (body.map (fun row => stripIndent (bodyMargin (body ++ after)) (trimEnd row.1)) ++ back) := by
  obtain ⟨front, hlength, hfront⟩ := exists_stripRows_outside h.front (body ++ after) none fun _ => rfl
  refine ⟨front, stripRows none after, hlength, ?_⟩
  rw [lines_stripMargins, h.rows_eq, hfront, stripRows_none, stripRows_append_inside _ h.inside, stripRows_some h.back]

/-- **A body is a body of the stripped text too**, with the same lines around it as far as positions go. -/
lemma stripMargins (h : CommentBody text before body after) :
    ∃ before' after', CommentBody (Pass.stripMargins text) before'
        (body.map fun row => (stripIndent (bodyMargin (body ++ after)) (trimEnd row.1), row.2)) after'
      ∧ before'.map Prod.snd = before.map Prod.snd ∧ after'.map Prod.snd = after.map Prod.snd := by
  obtain ⟨front, back, hfront, hlines⟩ := h.exists_lines
  have hback : back.length = after.length := by
    have htotal := length_lines_stripMargins text
    have hrows := congrArg List.length h.rows_eq
    rw [hlines] at htotal
    simp only [length_positions, List.length_append, List.length_map] at htotal hrows
    omega
  have hbefore : (front.zip (before.map Prod.snd)).map Prod.snd = before.map Prod.snd :=
    List.map_snd_zip (by simp [hfront])
  have hafter : (back.zip (after.map Prod.snd)).map Prod.snd = after.map Prod.snd :=
    List.map_snd_zip (by simp [hback])
  refine ⟨front.zip (before.map Prod.snd), back.zip (after.map Prod.snd), ?_, hbefore, hafter⟩
  constructor
  · rw [positions_stripMargins, hlines, h.rows_eq, List.map_append, List.map_append,
      List.zip_append (by simp [hfront]), List.zip_append (by simp), List.zip_map']
  · simpa using h.nonempty
  · intro row hrow
    obtain ⟨source, hsource, rfl⟩ := List.mem_map.1 hrow
    exact h.inside source hsource
  · rw [hbefore]
    exact h.front
  · rw [hafter]
    exact h.back

/-- **The margin of a body is its least width.** -/
lemma isLeast_bodyMargin (h : CommentBody text before body after) (hfull : ∃ row ∈ body, isBare row.1 = false) :
    IsLeast (indentWidths body) (bodyMargin (body ++ after)) := by
  have hwidths {width : Nat} : width ∈ indents (body ++ after) ↔ width ∈ indentWidths body :=
    mem_indents_iff h.inside h.back
  obtain ⟨row, hrow, hbare⟩ := hfull
  have hmem : leadingSpace row.1 ∈ indents (body ++ after) := hwidths.2 ⟨row, hrow, hbare, rfl⟩
  obtain ⟨least, hleast⟩ := Option.ne_none_iff_exists'.1 (List.min?_eq_none_iff.not.2 (List.ne_nil_of_mem hmem))
  rw [bodyMargin_eq]
  constructor
  · rw [hleast, Option.getD_some]
    exact hwidths.1 (List.min?_mem hleast)
  · exact fun width hwidth => List.min?_getD_le_of_mem (hwidths.2 hwidth)

/-- Every line of a body is dedented. -/
lemma dedented (h : CommentBody text before body after) {row : List Char × CommentPosition} (hrow : row ∈ body) :
    Dedented body row.1 (stripIndent (bodyMargin (body ++ after)) (trimEnd row.1)) := by
  constructor
  · intro hbare
    rw [trimEnd_of_bare hbare, stripIndent_nil]
  · intro hfull
    have hleast := h.isLeast_bodyMargin ⟨row, hrow, hfull⟩
    have hwide : bodyMargin (body ++ after) ≤ leadingSpace (trimEnd row.1) := by
      rw [leadingSpace_trimEnd hfull]
      exact hleast.2 ⟨row, hrow, hfull, rfl⟩
    obtain ⟨indent, hline, hindent⟩ := exists_shortestIndent hwide
    exact ⟨_, indent, hleast, hindent, splitAtByte?_eq_some_iff.2 ⟨hline, rfl⟩⟩

end CommentBody

/-- **The margins pass dedents every comment body.**  Lines keep their number and the way they lie to block
comments.  In each body blank lines are emptied, the others lose white space at their end and the shortest
indentation that is as wide as the least one, and some line has no indentation left. -/
theorem stripMargins_dedents (text : List Char) :
    (lines (stripMargins text)).length = (lines text).length
      ∧ (positions .code (lines (stripMargins text))).map Prod.snd
        = (positions .code (lines text)).map Prod.snd
      ∧ ∀ before body after, CommentBody text before body after →
        ∃ before' body' after', CommentBody (stripMargins text) before' body' after'
          ∧ before'.map Prod.snd = before.map Prod.snd ∧ after'.map Prod.snd = after.map Prod.snd
          ∧ List.Forall₂ (fun row row' => Dedented body row.1 row'.1) body body'
          ∧ ((∃ row ∈ body, isBare row.1 = false) → ∃ row ∈ body', ∃ c ∈ row.1.head?, isSpace c = false) := by
  refine ⟨length_lines_stripMargins text, ?_, fun before body after h => ?_⟩
  · rw [positions_stripMargins]
    exact List.map_snd_zip (by simp [length_positions, length_lines_stripMargins])
  · obtain ⟨before', after', hbody, hbefore, hafter⟩ := h.stripMargins
    refine ⟨before', _, after', hbody, hbefore, hafter, ?_, fun hfull => ?_⟩
    · rw [List.forall₂_map_right_iff, List.forall₂_same]
      exact fun row hrow => h.dedented hrow
    · obtain ⟨row, hrow, hbare, hwidth⟩ := (h.isLeast_bodyMargin hfull).1
      obtain ⟨c, hc, hspace⟩ := exists_head_stripIndent hbare
      rw [hwidth] at hc
      exact ⟨_, List.mem_map_of_mem hrow, c, hc, hspace⟩

/-- A body whose margin is an ideographic space, three bytes: of four spaces three go, and where the third byte
falls inside an em space behind a no-break space, both go. -/
theorem stripMargins_dedents_wide :
    ∃ before body after before' body' after',
      CommentBody "\t/*\n\u3000a\n    b\n\t \n\u00a0\u2003 c \n*/ d".toList before body after
      ∧ body = ["\u3000a", "    b", "\t ", "\u00a0\u2003 c "].map (fun line => (line.toList, .inside))
      ∧ stripMargins "\t/*\n\u3000a\n    b\n\t \n\u00a0\u2003 c \n*/ d".toList
        = "/*\na\n b\n\n c\n*/ d".toList
      ∧ CommentBody "/*\na\n b\n\n c\n*/ d".toList before' body' after'
      ∧ List.Forall₂ (fun row row' => Dedented body row.1 row'.1) body body'
      ∧ ∃ row ∈ body', ∃ c ∈ row.1.head?, isSpace c = false := by
  have hbody : CommentBody "\t/*\n\u3000a\n    b\n\t \n\u00a0\u2003 c \n*/ d".toList [("\t/*".toList, .opens)]
      (["\u3000a", "    b", "\t ", "\u00a0\u2003 c "].map fun line => (line.toList, .inside))
      [("*/ d".toList, .closes)] :=
    ⟨by decide +kernel, by decide, by decide +kernel, by decide, by decide⟩
  have hstrip : stripMargins "\t/*\n\u3000a\n    b\n\t \n\u00a0\u2003 c \n*/ d".toList
      = "/*\na\n b\n\n c\n*/ d".toList := by decide +kernel
  obtain ⟨before', body', after', hkept, -, -, hlines, hhead⟩ := (stripMargins_dedents _).2.2 _ _ _ hbody
  rw [hstrip] at hkept
  exact ⟨_, _, _, before', body', after', hbody, rfl, hstrip, hkept, hlines, hhead (by decide +kernel)⟩

end SqfLayout.Pass
