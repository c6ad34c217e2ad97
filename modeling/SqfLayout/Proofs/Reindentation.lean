import SqfLayout.Proofs.CommentBodies
import SqfLayout.Proofs.Selections

/-!
# Margins make no difference

A script may be indented in any way: the formatter gives the same.

**Moved lines.**  `Reindented` relates the lines of a text to the lines of another one.  A line that lies
in a comment body keeps its place in the body: all lines of the body are moved right by one number of
spaces, blank lines apart (`Shifted`).  Any other line may have other white space at both ends.

**Scanning.**  Neither kind of change is seen by the scanner, so the lines of both texts lie alike to block
comments (`Reindented.positions_eq`).

**Margins.**  The margin of a comment body is moved with its lines (`Reindented.indents_eq`), and a margin
that is moved with a line takes the same off it (`Shifted.strip_eq`).  Hence both texts are the same
without their margins.
-/

namespace SqfLayout.Pass

open SqfLayout.Text SqfLayout.Scan

/-! ## Moved lines -/

/-- A line with spaces put in front, unless it is blank, and white space put behind. -/
def Shifted (shift : Nat) (line line' : List Char) : Prop :=
  ∃ back, (∀ c ∈ back, isSpace c = true)
    ∧ line' = (if isBare line then line else List.replicate shift ' ' ++ line) ++ back

/-- **Lines and the same lines with other margins**, the second ones with their positions.  Within a
comment body the number of spaces by which its lines are moved is carried along. -/
inductive Reindented : Option Nat → List (List Char) → List (List Char × CommentPosition) → Prop
  | nil {shift : Option Nat} : Reindented shift [] []
  | outside {shift : Option Nat} {line line' : List Char} {position : CommentPosition}
      {ls : List (List Char)} {rows : List (List Char × CommentPosition)} (hposition : position ≠ .inside)
      (hline : trim line' = trim line) (hrest : Reindented none ls rows) :
      Reindented shift (line :: ls) ((line', position) :: rows)
  | enters {shift : Nat} {line line' : List Char} {ls : List (List Char)}
      {rows : List (List Char × CommentPosition)} (hline : Shifted shift line line')
      (hrest : Reindented (some shift) ls rows) : Reindented none (line :: ls) ((line', .inside) :: rows)
  | stays {shift : Nat} {line line' : List Char} {ls : List (List Char)}
      {rows : List (List Char × CommentPosition)} (hline : Shifted shift line line')
      (hrest : Reindented (some shift) ls rows) :
      Reindented (some shift) (line :: ls) ((line', .inside) :: rows)

section Lines

variable {shift : Nat} {line line' : List Char}

lemma trimEnd_of_bare (h : isBare line = true) : trimEnd line = [] :=
  List.rdropWhile_eq_nil_iff.2 (List.all_eq_true.1 h)

lemma trimEnd_ne_nil (h : isBare line = false) : trimEnd line ≠ [] := by
  intro hnil
  have hbare : isBare line = true := List.all_eq_true.2 (List.rdropWhile_eq_nil_iff.1 hnil)
  simp [h] at hbare

/-- White space in front of a line that is not blank stays when the line is trimmed at its end. -/
lemma trimEnd_space_append {front : List Char} (h : isBare line = false) :
    trimEnd (front ++ line) = front ++ trimEnd line := by
  obtain ⟨back, hline, hback⟩ := exists_trimEnd line
  have hkept : trimEnd (front ++ trimEnd line) = front ++ trimEnd line := by
    refine List.rdropWhile_eq_self_iff.2 fun hne => ?_
    rw [List.getLast_append_of_ne_nil _ (trimEnd_ne_nil h)]
    simpa using getLast?_trimEnd line _ (List.getLast?_eq_some_getLast (trimEnd_ne_nil h))
  conv_lhs => rw [hline, ← List.append_assoc, trimEnd_append_space _ hback]
  exact hkept

namespace Shifted

lemma trimEnd_of_bare (h : Shifted shift line line') (hbare : isBare line = true) : trimEnd line' = [] := by
  obtain ⟨back, hback, rfl⟩ := h
  rw [if_pos hbare, trimEnd_append_space _ hback, Pass.trimEnd_of_bare hbare]

lemma trimEnd_eq (h : Shifted shift line line') (hfull : isBare line = false) :
    trimEnd line' = List.replicate shift ' ' ++ trimEnd line := by
  obtain ⟨back, hback, rfl⟩ := h
  rw [if_neg (by simp [hfull]), trimEnd_append_space _ hback, trimEnd_space_append hfull]

lemma trimEnd_ne_nil (h : Shifted shift line line') (hfull : isBare line = false) : trimEnd line' ≠ [] := by
  rw [h.trimEnd_eq hfull]
  exact List.append_ne_nil_of_right_ne_nil _ (Pass.trimEnd_ne_nil hfull)

/-- **A margin that is moved with a line takes the same off it.** -/
lemma strip_eq (h : Shifted shift line line') {m m' : Nat} (hm : isBare line = false → m' = m + shift) :
    stripIndent m' (trimEnd line') = stripIndent m (trimEnd line) := by
  cases hbare : isBare line with
  | true =>
      rw [h.trimEnd_of_bare hbare, Pass.trimEnd_of_bare hbare]
      cases m <;> cases m' <;> rfl
  | false =>
      rw [hm hbare, h.trimEnd_eq hbare]
      clear hm h
      induction shift with
      | zero => rfl
      | succ shift ih =>
          rw [List.replicate_succ, List.cons_append, ← Nat.add_assoc, stripIndent, if_pos (by decide)]
          exact ih

/-- The scanner does not see that a line is moved. -/
lemma scanLine_eq (h : Shifted shift line line') {mode : Mode} (hmode : mode ≠ .line) :
    (scanLine mode line').2 = (scanLine mode line).2 := by
  obtain ⟨back, hback, rfl⟩ := h
  split
  · exact (SameUpToBreaks.trimBack hback line).next.symm
  · have hspaces : ∀ c ∈ List.replicate shift ' ', isSpace c = true := by
      intro c hc
      rw [List.eq_of_mem_replicate hc]
      rfl
    rw [List.append_assoc]
    exact (SameUpToBreaks.trim hmode hspaces hback line).next.symm

end Shifted

/-- Nor does it see white space at the ends of a line. -/
lemma scanLine_of_trim_eq (h : trim line' = trim line) {mode : Mode} (hmode : mode ≠ .line) :
    (scanLine mode line').2 = (scanLine mode line).2 := by
  have htrim (line : List Char) : (scanLine mode (trim line)).2 = (scanLine mode line).2 := by
    obtain ⟨front, back, hline, hfront, hback⟩ := exists_trim line
    conv_rhs => rw [hline]
    exact (SameUpToBreaks.trim hmode hfront hback _).next
  rw [← htrim line', h, htrim line]

end Lines

/-! ## Moved texts -/

namespace Reindented

/-- **Lines that are moved lie alike to block comments.** -/
lemma positions_eq {mode : Mode} (hmode : mode ≠ .line) {shift : Option Nat} {ls ls' : List (List Char)}
    (h : Reindented shift ls (positions mode ls')) :
    positions mode ls = ls.zip ((positions mode ls').map Prod.snd) := by
  induction ls' generalizing mode shift ls with
  | nil =>
      cases h
      rfl
  | cons line' ls' ih =>
      -- a line with the same mode behind it has the same position
      have hcons {line : List Char} {ls : List (List Char)} {shift : Option Nat}
          (hline : (scanLine mode line').2 = (scanLine mode line).2)
          (hrest : Reindented shift ls (positions (scanLine mode line').2 ls')) :
          positions mode (line :: ls)
            = (line :: ls).zip ((positions mode (line' :: ls')).map Prod.snd) := by
        have hposition : (scanLine mode line').1.position = (scanLine mode line).1.position :=
          congrArg (CommentPosition.between mode) hline
        have htail := ih (scanLine_ne_line mode line') hrest
        rw [hline] at htail
        simp only [positions, List.map_cons, List.zip_cons_cons, hposition, hline, htail]
      rw [positions] at h
      generalize (scanLine mode line').1.position = position at h
      cases h with
      | outside _ hline hrest => exact hcons (scanLine_of_trim_eq hline hmode) hrest
      | enters hline hrest => exact hcons (hline.scanLine_eq hmode) hrest
      | stays hline hrest => exact hcons (hline.scanLine_eq hmode) hrest

end Reindented

/-! ## Moved margins -/

/-- The indentations of the lines that hold anything in the comment body at the start of some rows. -/
def indents (rows : List (List Char × CommentPosition)) : List Nat :=
  (((rows.takeWhile (·.2 == .inside)).map fun row => trimEnd row.1).filter (!·.isEmpty)).map leadingSpace

lemma bodyMargin_eq (rows : List (List Char × CommentPosition)) :
    bodyMargin rows = (indents rows).min?.getD 0 := rfl

section Indents

variable {line : List Char} {rows : List (List Char × CommentPosition)}

lemma indents_outside {position : CommentPosition} (h : position ≠ .inside) :
    indents ((line, position) :: rows) = [] := by
  simp [indents, h]

lemma indents_blank (h : trimEnd line = []) : indents ((line, .inside) :: rows) = indents rows := by
  simp [indents, h]

lemma indents_full (h : trimEnd line ≠ []) :
    indents ((line, .inside) :: rows) = leadingSpace (trimEnd line) :: indents rows := by
  simp [indents, h]

end Indents

/-- The least of some numbers moves with them. -/
lemma min?_map_add {xs : List Nat} (hne : xs ≠ []) (k : Nat) :
    (xs.map (· + k)).min?.getD 0 = xs.min?.getD 0 + k := by
  obtain ⟨x, xs, rfl⟩ := List.exists_cons_of_ne_nil hne
  rw [List.map_cons, List.min?_cons', List.min?_cons', Option.getD_some, Option.getD_some]
  induction xs generalizing x with
  | nil => rfl
  | cons y xs ih =>
      rw [List.map_cons, List.foldl_cons, List.foldl_cons, Nat.add_min_add_right]
      exact ih (min x y) (by simp)

lemma Shifted.leadingSpace_eq {shift : Nat} {line line' : List Char} (h : Shifted shift line line')
    (hfull : isBare line = false) :
    leadingSpace (trimEnd line') = leadingSpace (trimEnd line) + shift := by
  have hspaces : ∀ c ∈ List.replicate shift ' ', c = ' ' := fun c => List.eq_of_mem_replicate
  have hblank : ∀ c ∈ List.replicate shift ' ', isSpace c = true := by
    intro c hc
    rw [hspaces c hc]
    rfl
  rw [leadingSpace, h.trimEnd_eq hfull, List.takeWhile_append_of_pos hblank, byteLength_append,
    byteLength_spaces hspaces, List.length_replicate, Nat.add_comm, leadingSpace]

namespace Reindented

/-- **The indentations in a comment body are moved with its lines.** -/
lemma indents_eq {shift : Nat} {ls : List (List Char)} {rows : List (List Char × CommentPosition)}
    (h : Reindented (some shift) ls rows) :
    indents rows = (indents (ls.zip (rows.map Prod.snd))).map (· + shift) := by
  generalize hbody : some shift = body at h
  induction h with
  | nil => rfl
  | outside hposition =>
      rw [List.map_cons, List.zip_cons_cons, indents_outside hposition, indents_outside hposition,
        List.map_nil]
  | enters => cases hbody
  | @stays k line line' ls rows hline hrest ih =>
      cases hbody
      rw [List.map_cons, List.zip_cons_cons]
      cases hbare : isBare line with
      | true =>
          rw [indents_blank (hline.trimEnd_of_bare hbare), indents_blank (trimEnd_of_bare hbare), ih rfl]
      | false =>
          rw [indents_full (hline.trimEnd_ne_nil hbare), indents_full (trimEnd_ne_nil hbare),
            hline.leadingSpace_eq hbare, ih rfl, List.map_cons]

end Reindented

/-- The margins that are carried along in a comment body and in one that is moved.  It makes no
difference what they are once the lines that are left of the body are blank. -/
inductive Carried (rows : List (List Char × CommentPosition)) : Option Nat → Option Nat → Option Nat → Prop
  | none : Carried rows none none none
  | some {shift m m' : Nat} (h : indents rows ≠ [] → m' = m + shift) :
      Carried rows (some shift) (some m) (some m')

/-- Behind a line of a comment body the margins are carried on, and they take the same off the line. -/
lemma Shifted.carried {shift : Nat} {line line' : List Char} (hline : Shifted shift line line')
    {m m' : Nat} {rows : List (List Char × CommentPosition)}
    (hm : indents ((line', .inside) :: rows) ≠ [] → m' = m + shift) :
    stripIndent m' (trimEnd line') = stripIndent m (trimEnd line)
      ∧ Carried rows (some shift) (some m) (some m') := by
  cases hbare : isBare line with
  | true =>
      rw [indents_blank (hline.trimEnd_of_bare hbare)] at hm
      exact ⟨hline.strip_eq (by simp [hbare]), .some hm⟩
  | false =>
      rw [indents_full (hline.trimEnd_ne_nil hbare)] at hm
      have hmargin := hm (by simp)
      exact ⟨hline.strip_eq fun _ => hmargin, .some fun _ => hmargin⟩

/-- **Moved lines are the same without their margins.** -/
lemma Reindented.stripRows_eq {shift : Option Nat} {ls : List (List Char)}
    {rows : List (List Char × CommentPosition)} (h : Reindented shift ls rows) {body body' : Option Nat}
    (hbody : Carried rows shift body body') :
    stripRows body' rows = stripRows body (ls.zip (rows.map Prod.snd)) := by
  induction h generalizing body body' with
  | nil => rfl
  | outside hposition hline hrest ih =>
      simp only [List.map_cons, List.zip_cons_cons, stripRows, beq_iff_eq, if_neg hposition, hline,
        ih .none]
  | @enters k line line' ls rows hline hrest ih =>
      cases hbody
      have hindents := Reindented.indents_eq (.stays hline hrest)
      -- the margin of the body is moved with it, unless nothing in it has an indentation
      have hmargin : indents ((line', .inside) :: rows) ≠ [] →
          bodyMargin ((line', .inside) :: rows)
            = bodyMargin ((line, .inside) :: ls.zip (rows.map Prod.snd)) + k := by
        intro hne
        rw [hindents] at hne
        rw [bodyMargin_eq, hindents, min?_map_add (by simpa using hne)]
        rfl
      obtain ⟨hstrip, hcarried⟩ := hline.carried hmargin
      have hrows := ih hcarried
      simp only [List.map_cons, List.zip_cons_cons, stripRows, beq_self_eq_true, if_true, Option.getD_none,
        hstrip, hrows]
  | stays hline hrest ih =>
      cases hbody with
      | some hm =>
          obtain ⟨hstrip, hcarried⟩ := hline.carried hm
          have hrows := ih hcarried
          simp only [List.map_cons, List.zip_cons_cons, stripRows, beq_self_eq_true, if_true,
            Option.getD_some, hstrip, hrows]

/-- **Texts that differ in their margins are the same without them.** -/
lemma stripMargins_of_reindented {text text' : List Char}
    (h : Reindented none (lines text) (positions .code (lines text'))) :
    stripMargins text' = stripMargins text := by
  rw [stripMargins, stripMargins, h.positions_eq Mode.noConfusion, h.stripRows_eq .none]

end SqfLayout.Pass

namespace SqfLayout

open SqfLayout.Text SqfLayout.Scan SqfLayout.Pass

/-- **The layout of a script does not depend on its indentation.**  White space at the ends of lines makes
no difference, and within a comment body none that moves the body as a whole. -/
theorem formatText_of_reindented {text text' : List Char}
    (h : Reindented none (lines text) (positions .code (lines text'))) (style : Style)
    (vocabulary : Vocabulary) : formatText style vocabulary text' = formatText style vocabulary text := by
  have hall : LayoutPass.all.filter (·.enabled style)
      = .margins :: LayoutPass.all.tail.filter (·.enabled style) := rfl
  rw [formatText, formatText, hall, List.foldl_cons, List.foldl_cons, LayoutPass.apply,
    stripMargins_of_reindented h]

/-- A comment body that is moved by three spaces, with a blank line in it, between lines of code that have
tabs in front of them. -/
theorem formatText_of_reindented_body :
    formatText {} .builtin "\tif (a) /*\n     one\n \t\n       two \n\t */ b".toList
      = formatText {} .builtin "if (a) /*\n  one\n\n    two\n*/ b".toList := by
  refine formatText_of_reindented (.outside (by decide) (by decide) ?_) {} .builtin
  refine .enters (show Shifted 3 _ _ from ⟨[], by decide, by decide⟩) ?_
  refine .stays ⟨[' ', '\t'], by decide, by decide⟩ ?_
  refine .stays ⟨[' '], by decide, by decide⟩ ?_
  exact .outside (by decide) (by decide) .nil

end SqfLayout
