import SqfLayout.Proofs.Letters
import SqfLayout.Proofs.Movement
import SqfLayout.Proofs.Shapes
import SqfLayout.Proofs.Trails

/-!
# When the headers pass keeps literals and comments

A condition may open a literal or a comment and leave it open.  The words and the brace that follow it
are then no code, and the pass changes the white space between them all the same
(`solid_spaceHeaders_quote`).

**Idioms.**  Each of the three idioms has a regular shape (`conditional_shaped`, `alternative_shaped`,
`loop_shaped`).  It is harmless if its condition leaves nothing open or if there is nothing to replace
behind the condition; an alternative always is.

**The pass.**  The gaps at which a conditional can differ lie between other characters than those of a
loop (`conditionalLink_disjoint`), so the three rounds together keep the view exactly if each of them
does (`solid_spaceHeaders_iff`).
-/

namespace SqfLayout.Pass

open SqfLayout.Text SqfLayout.Scan

/-! ## Words of idioms -/

/-- A character that folds to a small letter is one on which the scanner does not act, and no white
space. -/
lemma inert_of_foldCase {cell : Cell} (h : (foldCase cell.char).isLower = true) : Inert cell := by
  constructor
  · rw [isPlain, Bool.not_eq_true']
    by_contra hsign
    rw [Bool.not_eq_false, List.contains_iff_mem] at hsign
    have hsigns : ['\'', '"', '/', '*', '\n'].all (fun c => !(foldCase c).isLower) = true := by
      decide +kernel
    simpa [h] using List.all_eq_true.1 hsigns _ hsign
  · by_contra hspace
    rw [Bool.not_eq_false] at hspace
    have hfold : (foldCase cell.char).isLower = false :=
      forall_space (P := fun c => (foldCase c).isLower = false) (by decide +kernel) hspace
    rw [h] at hfold
    contradiction

/-- The cells of a word of small letters are inert. -/
lemma Spelled.inert {word : List Char} {cells : List Cell} (h : Spelled word cells)
    (hword : word.all Char.isLower = true) : ∀ cell ∈ cells, Inert cell := by
  intro cell hcell
  refine inert_of_foldCase (List.all_eq_true.1 hword _ ?_)
  rw [← h]
  exact List.mem_map_of_mem (f := fun cell : Cell => foldCase cell.char) hcell

/-- The first and the last cell of a word. -/
lemma Spelled.ends {word : List Char} {cells : List Cell} (h : Spelled word cells) {a b : Char}
    (ha : word.head? = some a) (hb : word.getLast? = some b) :
    ∃ y z, cells.head? = some y ∧ cells.getLast? = some z ∧ foldCase y.char = a
      ∧ foldCase z.char = b := by
  rw [← h, List.head?_map, Option.map_eq_some_iff] at ha
  rw [← h, List.getLast?_map, Option.map_eq_some_iff] at hb
  obtain ⟨y, hy, hya⟩ := ha
  obtain ⟨z, hz, hzb⟩ := hb
  exact ⟨y, z, hy, hz, hya, hzb⟩

lemma Spelled.ne_nil {word : List Char} {cells : List Cell} (h : Spelled word cells)
    (hword : word ≠ []) : cells ≠ [] := by
  rintro rfl
  exact hword h.symm

lemma inert_of_char {cell : Cell} {c : Char} (h : cell.char = c)
    (hc : isPlain c = true ∧ isSpace c = false) : Inert cell := by
  subst h
  exact hc

lemma Inert.ne_feed {cell : Cell} (h : Inert cell) : cell.char ≠ '\n' := by
  intro hchar
  have hink := h.2
  rw [hchar] at hink
  exact absurd hink (by decide)

/-- A word that some text starts with is not empty and starts with no line feed. -/
lemma head_of_inert {word : List Cell} (hne : word ≠ []) (hinert : ∀ cell ∈ word, Inert cell)
    (rest : List Cell) (text : List Char) :
    (word ++ rest ≠ [] ∧ (chars word ++ text).head? = (chars (word ++ rest)).head?)
      ∧ ∀ cell ∈ (word ++ rest).head?, cell.char ≠ '\n' := by
  obtain ⟨cell, word, rfl⟩ := List.exists_cons_of_ne_nil hne
  refine ⟨⟨by simp, by simp⟩, ?_⟩
  rintro _ ⟨⟩
  exact (hinert cell (by simp)).ne_feed

/-! ## Conditions -/

/-- White space around a part of a line does not change the mode behind it. -/
lemma modeAfter_between {front core back : List Char} (hfront : ∀ c ∈ front, isSpace c = true)
    (hback : ∀ c ∈ back, isPlain c = true) :
    modeAfter .code (front ++ (core ++ back)) = modeAfter .code core := by
  have hheeded : heeded back.head? = none := by
    cases back with
    | nil => rfl
    | cons c back => exact heeded_of_plain (hback c (by simp))
  rw [(labelFrom_space hfront (by decide) _).2, (labelFrom_cut .code core hheeded).2,
    modeAfter_plain hback]

/-- A condition keeps to its line, and so the mode behind it is the mode behind its trimmed form. -/
lemma modeAfter_trimCells {condition front back : List Cell}
    (hcondition : condition = front ++ (trimCells condition ++ back)) (hfront : AllSpace front)
    (hback : AllSpace back) (hline : ∀ cell ∈ condition, cell.char ≠ '\n') :
    modeAfter .code (chars condition) = modeAfter .code (chars (trimCells condition)) := by
  rw [chars_of_trimCells hcondition]
  refine modeAfter_between hfront.chars fun c hc => ?_
  obtain ⟨cell, hcell, rfl⟩ := List.mem_map.1 hc
  refine isPlain_of_isSpace (hback cell hcell) (hline cell ?_)
  rw [hcondition]
  simp [hcell]

/-- A condition ends in no white space if its trimmed form has the same end. -/
lemma back_eq_nil_iff {condition front back : List Cell}
    (hcondition : condition = front ++ (trimCells condition ++ back)) (hback : AllSpace back)
    (hcore : trimCells condition ≠ []) :
    (∀ cell ∈ condition.getLast?, isSpace cell.char = false) ↔ back = [] := by
  constructor
  · intro hends
    by_contra hne
    have hlast : condition.getLast? = some (back.getLast hne) := by
      rw [hcondition, List.getLast?_append, List.getLast?_append, List.getLast?_eq_some_getLast hne]
      rfl
    have hink := hends _ hlast
    rw [hback _ (List.getLast_mem hne)] at hink
    contradiction
  · rintro rfl cell hcell
    refine getLast?_trimCells condition cell ?_
    rw [hcondition, List.append_nil, List.getLast?_append, List.getLast?_eq_some_getLast hcore] at hcell
    rwa [List.getLast?_eq_some_getLast hcore]

/-! ## Conditionals -/

/-- **A harmless conditional**: its condition leaves no literal and no comment open, or there is nothing
to replace behind it. -/
def Conditional.Harmless (h : Conditional) : Prop :=
  modeAfter .code (chars h.condition) = .code ∨
    ((∀ cell ∈ h.condition.getLast?, isSpace cell.char = false) ∧ chars h.gap₂ = [' ']
      ∧ chars h.gap₃ = [' '])

instance : DecidablePred Conditional.Harmless := fun _ => inferInstanceAs (Decidable (_ ∨ _))

/-- The characters around the gaps behind the condition of a conditional. -/
def conditionalLink (x y : Char) : Prop :=
  y = ')' ∨ (x = ')' ∧ foldCase y ∈ ['t', 'e']) ∨ (y = '{' ∧ foldCase x ∈ ['n', 'h'])

/-- The shape of a conditional whose condition has the given white space at its ends. -/
def Conditional.shape (h : Conditional) (opening closing brace : Cell) (front back : List Cell) : Shape where
  lead := h.keyword ++ (h.gap₁ ++ opening :: front)
  spaced := chars h.keyword ++ [' ', '(']
  core := trimCells h.condition
  tail := [⟨back, [], [closing]⟩, ⟨h.gap₂, [' '], h.branch⟩, ⟨h.gap₃, [' '], [brace]⟩]

section Conditional

variable {h : Conditional} {opening closing brace : Cell} {front back : List Cell}

/-- The ends of the branch word. -/
lemma Conditional.Spells.branch_ends (hs : h.Spells opening closing brace) :
    ∃ y z, h.branch.head? = some y ∧ h.branch.getLast? = some z
      ∧ foldCase y.char ∈ ['t', 'e'] ∧ foldCase z.char ∈ ['n', 'h'] := by
  rcases hs.branch with hbranch | hbranch
  · obtain ⟨y, z, hy, hz, hya, hzb⟩ := hbranch.ends rfl rfl
    exact ⟨y, z, hy, hz, by simp [hya], by simp [hzb]⟩
  · obtain ⟨y, z, hy, hz, hya, hzb⟩ := hbranch.ends rfl rfl
    exact ⟨y, z, hy, hz, by simp [hya], by simp [hzb]⟩

lemma Conditional.Spells.branch_inert (hs : h.Spells opening closing brace) :
    h.branch ≠ [] ∧ ∀ cell ∈ h.branch, Inert cell := by
  rcases hs.branch with hbranch | hbranch
  · exact ⟨hbranch.ne_nil (by simp), hbranch.inert (by decide)⟩
  · exact ⟨hbranch.ne_nil (by simp), hbranch.inert (by decide)⟩

lemma Conditional.Spells.regular (hs : h.Spells opening closing brace) (hfront : AllSpace front)
    (hback : AllSpace back) : (h.shape opening closing brace front back).Regular conditionalLink := by
  have hkeyword := hs.keyword.inert (by decide)
  have hopening := inert_of_char hs.opening (by decide)
  have hclosing := inert_of_char hs.closing (by decide)
  have hbrace := inert_of_char hs.brace (by decide)
  obtain ⟨hbranch_ne, hbranch⟩ := hs.branch_inert
  obtain ⟨y, z, hy, hz, hya, hzb⟩ := hs.branch_ends
  refine ⟨?_, ?_, ?_, ?_, ?_, .inr (by simp [shape]), ?_⟩
  · simp only [shape, List.forall_mem_append, List.forall_mem_cons]
    exact ⟨fun cell hcell => .inr (hkeyword cell hcell).1, fun cell hcell => .inl (hs.gap₁ cell hcell),
      .inr hopening.1, fun cell hcell => .inl (hfront cell hcell)⟩
  · simp only [shape, List.forall_mem_append, List.forall_mem_cons]
    refine ⟨fun c hc => ?_, by decide, by decide, by simp⟩
    obtain ⟨cell, hcell, rfl⟩ := List.mem_map.1 hc
    exact (hkeyword cell hcell).1
  · have hspaces : Respaced Spacing (chars h.gap₁ ++ '(' :: chars front) ([' '] ++ ['(']) :=
      respaced_around (by decide) hs.gap₁.chars hfront.chars isSpace_space (by simp)
    have hink := (hspaces.append_left (chars h.keyword)).ink_eq
    simpa [shape, hs.opening] using hink.symm
  · exact (head_of_inert (hs.keyword.ne_nil (by simp)) hkeyword _ _).1
  · simp only [shape, List.forall_mem_cons]
    exact ⟨⟨hback, by simp, by simp, by simpa using hclosing⟩,
      ⟨hs.gap₂, by simp, hbranch_ne, hbranch⟩, ⟨hs.gap₃, by simp, by simp, by simpa using hbrace⟩,
      by simp⟩
  · intro x hx
    refine ⟨getLast?_trimCells h.condition x hx, closing, closing, rfl, rfl, .inl hs.closing, y, z, hy, hz,
      .inr (.inl ⟨hs.closing, hya⟩), brace, brace, rfl, rfl, .inr (.inr ⟨hs.brace, hzb⟩), trivial⟩

lemma Conditional.Spells.harmless_iff (hs : h.Spells opening closing brace)
    (hcondition : h.condition = front ++ (trimCells h.condition ++ back)) (hfront : AllSpace front)
    (hback : AllSpace back) : h.Harmless ↔ (h.shape opening closing brace front back).Harmless := by
  rw [Harmless, Shape.Harmless, modeAfter_trimCells hcondition hfront hback hs.condition]
  refine or_congr_right' fun hopen => ?_
  have hcore : trimCells h.condition ≠ [] := by
    intro hnil
    rw [hnil] at hopen
    exact hopen rfl
  have hends : (∀ cell ∈ h.condition.getLast?, isSpace cell.char = false) ↔ chars back = [] := by
    rw [back_eq_nil_iff hcondition hback hcore, chars, List.map_eq_nil_iff]
  rw [hends]
  simp [shape, Part.Canonical]

/-- **Conditionals have a regular shape.** -/
lemma conditional_shaped :
    Shaped conditionalFinder Conditional.canonical Conditional.Harmless conditionalLink := by
  intro before taken rest h hfound
  obtain ⟨opening, closing, brace, rfl, hs⟩ := conditionalFinder_eq_some hfound
  obtain ⟨front, back, hcondition, hfront, hback⟩ := exists_trimCells h.condition
  refine ⟨h.shape opening closing brace front back, hs.regular hfront hback, ?_, ?_, ?_,
    hs.harmless_iff hcondition hfront hback⟩
  · rw [Conditional.cells]
    conv_lhs => rw [hcondition]
    simp [Shape.cells, Conditional.shape, tailCells_cons]
  · simp [Shape.text, Conditional.shape, Conditional.canonical, tailText_cons, hs.closing, hs.brace]
  · exact (head_of_inert (hs.keyword.ne_nil (by simp)) (hs.keyword.inert (by decide)) _
      (chars h.keyword)).2

end Conditional

/-! ## Shapes without a core -/

/-- A header whose condition is empty, or that has none, is all lead. -/
lemma regular_of_lead {R : Char → Char → Prop} {lead : List Cell} {spaced : List Char}
    (hlead : ∀ cell ∈ lead, isSpace cell.char = true ∨ isPlain cell.char = true)
    (hspaced : ∀ c ∈ spaced, isPlain c = true) (hrespaced : Respaced Spacing (chars lead) spaced)
    (hhead : lead ≠ [] ∧ spaced.head? = (chars lead).head?) : Shape.Regular R ⟨lead, spaced, [], []⟩ :=
  ⟨hlead, hspaced, hrespaced.ink_eq.symm, hhead, by simp, .inl rfl, by simp⟩

lemma harmless_of_lead (lead : List Cell) (spaced : List Char) :
    Shape.Harmless ⟨lead, spaced, [], []⟩ := .inl rfl

/-! ## Alternatives -/

/-- **Alternatives have a regular shape**, and they are all harmless. -/
lemma alternative_shaped (R : Char → Char → Prop) :
    Shaped alternativeFinder Alternative.canonical (fun _ => True) R := by
  intro before taken rest h hfound
  obtain ⟨closing, brace, rfl, hs⟩ := alternativeFinder_eq_some hfound
  have hclosing := inert_of_char hs.closing (by decide)
  have hkeyword := hs.keyword.inert (by decide)
  have hbrace := inert_of_char hs.brace (by decide)
  refine ⟨⟨h.cells closing brace, chars h.canonical, [], []⟩, regular_of_lead ?_ ?_ hs.respaced ?_,
    by simp [Shape.cells], by simp [Shape.text], ?_, iff_of_true trivial (harmless_of_lead _ _)⟩
  · simp only [Alternative.cells, List.forall_mem_append, List.forall_mem_cons]
    exact ⟨.inr hclosing.1, fun cell hcell => .inl (hs.gap₁ cell hcell),
      fun cell hcell => .inr (hkeyword cell hcell).1, fun cell hcell => .inl (hs.gap₂ cell hcell),
      .inr hbrace.1, by simp⟩
  · simp only [Alternative.canonical, chars_append, chars_codeCells, List.forall_mem_append,
      List.forall_mem_cons]
    refine ⟨⟨⟨by decide, by decide, by simp⟩, fun c hc => ?_⟩, by decide, by decide, by simp⟩
    obtain ⟨cell, hcell, rfl⟩ := List.mem_map.1 hc
    exact (hkeyword cell hcell).1
  · exact ⟨by simp [Alternative.cells], by simp [Alternative.cells, Alternative.canonical, hs.closing]⟩
  · rintro _ ⟨⟩
    exact hclosing.ne_feed

/-! ## Loops -/

/-- **A harmless loop**: its condition leaves no literal and no comment open, or there is nothing to
replace behind it. -/
def Loop.Harmless (h : Loop) : Prop :=
  modeAfter .code (chars h.condition) = .code ∨
    (chars h.gap₃ = [' '] ∧ chars h.gap₄ = [' '] ∧ chars h.gap₅ = [' '])

instance : DecidablePred Loop.Harmless := fun _ => inferInstanceAs (Decidable (_ ∨ _))

/-- The characters around the gaps behind the condition of a loop. -/
def loopLink (x y : Char) : Prop :=
  y = '}' ∨ (x = '}' ∧ foldCase y = 'd') ∨ (y = '{' ∧ foldCase x = 'o')

/-- The shape of a loop whose condition is not empty and has the given white space in front. -/
def Loop.shape (h : Loop) (opening closing brace : Cell) (front : List Cell) : Shape where
  lead := h.keyword ++ (h.gap₁ ++ opening :: (h.gap₂ ++ front))
  spaced := chars h.keyword ++ [' ', '{', ' ']
  core := trimCells h.condition
  tail := [⟨h.gap₃, [' '], [closing]⟩, ⟨h.gap₄, [' '], h.body⟩, ⟨h.gap₅, [' '], [brace]⟩]

section Loop

variable {h : Loop} {opening closing brace : Cell} {front : List Cell}

lemma Loop.Spells.regular (hs : h.Spells opening closing brace) (hfront : AllSpace front) :
    (h.shape opening closing brace front).Regular loopLink := by
  have hkeyword := hs.keyword.inert (by decide)
  have hopening := inert_of_char hs.opening (by decide)
  have hclosing := inert_of_char hs.closing (by decide)
  have hbrace := inert_of_char hs.brace (by decide)
  obtain ⟨y, z, hy, hz, hya, hzb⟩ := hs.body.ends rfl rfl
  refine ⟨?_, ?_, ?_, ?_, ?_, .inr (by simp [shape]), ?_⟩
  · simp only [shape, List.forall_mem_append, List.forall_mem_cons]
    exact ⟨fun cell hcell => .inr (hkeyword cell hcell).1, fun cell hcell => .inl (hs.gap₁ cell hcell),
      .inr hopening.1, fun cell hcell => .inl (hs.gap₂ cell hcell),
      fun cell hcell => .inl (hfront cell hcell)⟩
  · simp only [shape, List.forall_mem_append, List.forall_mem_cons]
    refine ⟨fun c hc => ?_, by decide, by decide, by decide, by simp⟩
    obtain ⟨cell, hcell, rfl⟩ := List.mem_map.1 hc
    exact (hkeyword cell hcell).1
  · have hleft : ∀ c ∈ chars (h.gap₂ ++ front), isSpace c = true := by
      rw [chars_append]
      exact List.forall_mem_append.2 ⟨hs.gap₂.chars, hfront.chars⟩
    have hspaces : Respaced Spacing (chars h.gap₁ ++ '{' :: chars (h.gap₂ ++ front))
        ([' '] ++ '{' :: [' ']) :=
      respaced_around (by decide) hs.gap₁.chars hleft isSpace_space isSpace_space
    have hink := (hspaces.append_left (chars h.keyword)).ink_eq
    simpa [shape, hs.opening] using hink.symm
  · exact (head_of_inert (hs.keyword.ne_nil (by simp)) hkeyword _ _).1
  · simp only [shape, List.forall_mem_cons]
    exact ⟨⟨hs.gap₃, by simp, by simp, by simpa using hclosing⟩,
      ⟨hs.gap₄, by simp, hs.body.ne_nil (by simp), hs.body.inert (by decide)⟩,
      ⟨hs.gap₅, by simp, by simp, by simpa using hbrace⟩, by simp⟩
  · intro x hx
    refine ⟨getLast?_trimCells h.condition x hx, closing, closing, rfl, rfl, .inl hs.closing, y, z, hy, hz,
      .inr (.inl ⟨hs.closing, hya⟩), brace, brace, rfl, rfl, .inr (.inr ⟨hs.brace, hzb⟩), trivial⟩

/-- The cells of a loop with an empty condition are inert or white space. -/
lemma Loop.Spells.plain_cells (hs : h.Spells opening closing brace) (hempty : AllSpace h.condition) :
    ∀ cell ∈ h.cells opening closing brace, isSpace cell.char = true ∨ isPlain cell.char = true := by
  simp only [cells, List.forall_mem_append, List.forall_mem_cons]
  exact ⟨fun cell hcell => .inr (hs.keyword.inert (by decide) cell hcell).1,
    fun cell hcell => .inl (hs.gap₁ cell hcell), .inr (inert_of_char hs.opening (by decide)).1,
    fun cell hcell => .inl (hs.gap₂ cell hcell), fun cell hcell => .inl (hempty cell hcell),
    fun cell hcell => .inl (hs.gap₃ cell hcell), .inr (inert_of_char hs.closing (by decide)).1,
    fun cell hcell => .inl (hs.gap₄ cell hcell),
    fun cell hcell => .inr (hs.body.inert (by decide) cell hcell).1,
    fun cell hcell => .inl (hs.gap₅ cell hcell), .inr (inert_of_char hs.brace (by decide)).1, by simp⟩

lemma Loop.canonical_of_empty (h : Loop) (hcore : trimCells h.condition = []) :
    h.canonical = h.keyword ++ (codeCells [' ', '{', '}', ' '] ++ h.body ++ codeCells [' ', '{']) := by
  simp [canonical, hcore]

lemma Loop.canonical_of_ne (h : Loop) (hcore : trimCells h.condition ≠ []) :
    h.canonical = h.keyword ++ codeCells [' ', '{', ' '] ++ trimCells h.condition
      ++ codeCells [' ', '}', ' '] ++ h.body ++ codeCells [' ', '{'] := by
  unfold canonical
  split
  · contradiction
  · rfl

/-- **Loops have a regular shape.** -/
lemma loop_shaped : Shaped loopFinder Loop.canonical Loop.Harmless loopLink := by
  intro before taken rest h hfound
  obtain ⟨opening, closing, brace, rfl, hs⟩ := loopFinder_eq_some hfound
  obtain ⟨front, back, hcondition, hfront, hback⟩ := exists_trimCells h.condition
  have hmode := modeAfter_trimCells hcondition hfront hback hs.condition
  have hkeyword := hs.keyword.inert (by decide)
  have hword := head_of_inert (hs.keyword.ne_nil (by simp)) hkeyword
  by_cases hcore : trimCells h.condition = []
  · -- the condition is white space: nothing is left open, and the whole loop is lead
    rw [hcore] at hcondition hmode
    have hcanonical := h.canonical_of_empty hcore
    have hempty : AllSpace h.condition := by
      rw [hcondition, List.nil_append]
      exact List.forall_mem_append.2 ⟨hfront, hback⟩
    refine ⟨⟨h.cells opening closing brace, chars h.canonical, [], []⟩,
      regular_of_lead (hs.plain_cells hempty) ?_ hs.respaced ?_, by simp [Shape.cells],
      by simp [Shape.text], (hword _ []).2, iff_of_true (.inl hmode) (harmless_of_lead _ _)⟩
    · rw [hcanonical]
      simp only [chars_append, chars_codeCells, List.forall_mem_append, List.forall_mem_cons]
      refine ⟨fun c hc => ?_, ⟨⟨by decide, by decide, by decide, by decide, by simp⟩, fun c hc => ?_⟩,
        by decide, by decide, by simp⟩
      · obtain ⟨cell, hcell, rfl⟩ := List.mem_map.1 hc
        exact (hkeyword cell hcell).1
      · obtain ⟨cell, hcell, rfl⟩ := List.mem_map.1 hc
        exact (hs.body.inert (by decide) cell hcell).1
    · rw [hcanonical, chars_append]
      exact (hword _ _).1
  · obtain rfl := (back_eq_nil_iff hcondition hback hcore).1 hs.trimmed
    refine ⟨h.shape opening closing brace front, hs.regular hfront, ?_, ?_, (hword _ []).2, ?_⟩
    · rw [Loop.cells]
      conv_lhs => rw [hcondition]
      simp [Shape.cells, Loop.shape, tailCells_cons]
    · rw [h.canonical_of_ne hcore]
      simp [Shape.text, Loop.shape, tailText_cons, hs.closing, hs.brace]
    · rw [Loop.Harmless, Shape.Harmless, hmode]
      simp [Loop.shape, Part.Canonical]

end Loop

/-! ## The pass -/

/-- The gaps behind the condition of a conditional lie between other characters than those of a loop. -/
lemma conditionalLink_disjoint (x y : Char) (h : conditionalLink x y) : ¬ loopLink x y := by
  have hmarks : foldCase ')' ≠ 'd' ∧ foldCase '}' ∉ ['t', 'e'] ∧ foldCase '{' ∉ ['t', 'e']
      ∧ foldCase '}' ∉ ['n', 'h'] := by decide +kernel
  rintro (rfl | ⟨rfl, hy'⟩ | ⟨rfl, hx'⟩)
  · rcases h with h | ⟨-, h⟩ | ⟨h, -⟩
    · exact absurd h (by decide)
    · exact hmarks.2.1 h
    · exact absurd h (by decide)
  · rcases h with rfl | ⟨h, -⟩ | ⟨-, h⟩
    · exact hmarks.1 hy'
    · exact absurd h (by decide)
    · exact hmarks.2.2.2 h
  · rcases h with h | ⟨-, h⟩ | ⟨-, h⟩
    · exact absurd h (by decide)
    · exact hmarks.2.2.1 h
    · rw [hx'] at h
      exact absurd h (by decide)

/-- **One round over a text**: the view and the mode at the end are kept if every occurrence is harmless,
and otherwise the views differ. -/
lemma round_label {α : Type} {find : Finder α} {canonical : α → List Cell} {Harmless : α → Prop}
    {R : Char → Char → Prop} (hfits : find.Fits) (hshaped : Shaped find canonical Harmless R)
    (text : List Char) :
    (AllHarmless Harmless (segments find (label text)) →
      solid (chars (replaceFound find (fun taken h => inCode taken (canonical h)) (label text)))
          = solid text
        ∧ modeAfter .code
            (chars (replaceFound find (fun taken h => inCode taken (canonical h)) (label text)))
          = modeAfter .code text)
    ∧ (¬ AllHarmless Harmless (segments find (label text)) → DiffersAt R (solid text)
        (solid (chars (replaceFound find (fun taken h => inCode taken (canonical h)) (label text))))) := by
  have hround := round_of_division hshaped (division_segments hfits (label text)) (reads_label text)
  rw [replaceFound_eq]
  constructor
  · intro hall
    obtain ⟨cells, hchars, hreads, hsolid⟩ := hround.keeps hall
    rw [roundText] at hchars
    rw [← hchars, solid, label, hreads.labelFrom_eq, modeAfter, hreads.cursorAfter_eq]
    exact ⟨hsolid, rfl⟩
  · intro hharmful
    exact hround.changes hharmful _ _ (chars_label _) (reads_label _)

/-- Every conditional of a text that starts in code is harmless. -/
def HarmlessConditionals (text : List Char) : Prop :=
  AllHarmless Conditional.Harmless (segments conditionalFinder (label text))

/-- Every loop of a text that starts in code is harmless. -/
def HarmlessLoops (text : List Char) : Prop :=
  AllHarmless Loop.Harmless (segments loopFinder (label text))

instance (text : List Char) : Decidable (HarmlessConditionals text) :=
  inferInstanceAs (Decidable (AllHarmless ..))

instance (text : List Char) : Decidable (HarmlessLoops text) :=
  inferInstanceAs (Decidable (AllHarmless ..))

/-- Alternatives keep the view. -/
lemma solid_spaceAlternatives (text : List Char) :
    solid (spaceAlternatives text) = solid text
      ∧ modeAfter .code (spaceAlternatives text) = modeAfter .code text :=
  (round_label alternativeFinder_fits (alternative_shaped conditionalLink) text).1 fun _ _ _ _ => trivial

/-- **Harmless headers keep the view**, and the mode at the end of the text. -/
lemma solid_spaceHeaders_of_harmless {text : List Char} (hconditionals : HarmlessConditionals text)
    (hloops : HarmlessLoops (spaceAlternatives (spaceConditionals text))) :
    solid (spaceHeaders text) = solid text
      ∧ modeAfter .code (spaceHeaders text) = modeAfter .code text := by
  obtain ⟨h₁, hmode₁⟩ := (round_label conditionalFinder_fits conditional_shaped text).1 hconditionals
  obtain ⟨h₂, hmode₂⟩ := solid_spaceAlternatives (spaceConditionals text)
  obtain ⟨h₃, hmode₃⟩ := (round_label loopFinder_fits loop_shaped _).1 hloops
  exact ⟨h₃.trans (h₂.trans h₁), hmode₃.trans (hmode₂.trans hmode₁)⟩

/-- **The headers pass keeps a text, apart from the white space of its code, exactly if every header is
harmless**: every conditional of the text, and every loop of the text in which the conditionals and
alternatives have their canonical form. -/
theorem solid_spaceHeaders_iff (text : List Char) :
    solid (spaceHeaders text) = solid text ↔
      HarmlessConditionals text ∧ HarmlessLoops (spaceAlternatives (spaceConditionals text)) := by
  refine ⟨fun hsolid => ?_, fun hharmless => (solid_spaceHeaders_of_harmless hharmless.1 hharmless.2).1⟩
  have hconditionals := round_label conditionalFinder_fits conditional_shaped text
  have hloops := round_label loopFinder_fits loop_shaped (spaceAlternatives (spaceConditionals text))
  have halternatives := (solid_spaceAlternatives (spaceConditionals text)).1
  by_cases hc : HarmlessConditionals text
  · by_cases hl : HarmlessLoops (spaceAlternatives (spaceConditionals text))
    · exact ⟨hc, hl⟩
    · -- only the loops change the view
      have hdiffers := hloops.2 hl
      rw [halternatives, spaceConditionals, (hconditionals.1 hc).1] at hdiffers
      exact absurd hsolid.symm hdiffers.ne_self
  · have hdiffers := hconditionals.2 hc
    by_cases hl : HarmlessLoops (spaceAlternatives (spaceConditionals text))
    · -- only the conditionals change the view
      have hkept := (hloops.1 hl).1.trans halternatives
      rw [spaceHeaders_eq, spaceLoops, hkept] at hsolid
      exact absurd hsolid.symm hdiffers.ne_self
    · -- both do, and the two changes do not cancel out
      have hdiffers' := hloops.2 hl
      rw [halternatives] at hdiffers'
      exact absurd hsolid.symm (hdiffers.ne conditionalLink_disjoint hdiffers')

/-- **White space of a literal is lost** behind a condition that opens the literal. -/
theorem solid_spaceHeaders_quote :
    spaceHeaders "if (\")  then \x7b\")".toList = "if (\") then \x7b\")".toList
      ∧ solid (spaceHeaders "if (\")  then \x7b\")".toList) ≠ solid "if (\")  then \x7b\")".toList := by
  decide +kernel

/-! ## Trails -/

namespace Shape

variable {R : Char → Char → Prop} {s : Shape}

/-- The tail of a harmless header keeps its trail. -/
lemma Regular.tail_trail (hs : s.Regular R) {mode : Mode} {follow : Option Char} {stop : Cursor}
    (htail : Reads (.ready mode) (tailCells s.tail) follow stop)
    (hharmless : mode = .code ∨ ∀ p ∈ s.tail, p.Canonical) :
    stop = .ready mode ∧ trail isSolid (.ready mode) ((tailText s.tail).map (⟨·, mode.kind⟩)) follow
      = trail isSolid (.ready mode) (tailCells s.tail) follow := by
  rcases hharmless with rfl | hcanonical
  · obtain ⟨rfl, hkinds⟩ := (tail_code hs.tail).1 htail
    refine ⟨rfl, ?_⟩
    rw [trail_code, trail_code, solidCells_code hkinds, ← ink_tailText hs.tail]
    · exact congrArg _ (solidCells_map_code (tailText s.tail))
    · intro cell hcell
      obtain ⟨p, hp, hcell⟩ := List.mem_flatMap.1 hcell
      rcases List.mem_append.1 hcell with hcell | hcell
      · exact .inl ((hs.tail p hp).gap cell hcell)
      · exact .inr ((hs.tail p hp).block cell hcell).1
    · intro cell hcell
      obtain ⟨c, hc, rfl⟩ := List.mem_map.1 hcell
      exact .inr (isPlain_tailText hs.tail c hc)
  · obtain ⟨rfl, htext⟩ := hs.tail_canonical hcanonical htail
    exact ⟨rfl, by rw [htext]⟩

/-- **A harmless header in code may stand in its canonical form.** -/
lemma Regular.relaid (hs : s.Regular R) (hcode : s.cells.head?.any (·.kind == .code) = true)
    (hfeed : ∀ cell ∈ s.lead.head?, cell.char ≠ '\n') (hharmless : s.Harmless) :
    Relaid isSolid s.cells (s.result (modeAfter .code (chars s.core))) := by
  constructor
  · intro follow
    rw [nextChar_eq, nextChar_eq, hs.head_result]
  · intro start follow stop _ h
    obtain rfl := ready_of_lead h hcode (hs.head_cells ▸ hfeed)
    obtain ⟨mode, hmode, hcore, hlead, htail⟩ := hs.reads h
    rw [Shape.Harmless, hmode] at hharmless
    rw [hmode]
    obtain ⟨rfl, htrail⟩ := hs.tail_trail htail hharmless
    refine ⟨hs.reads_result hcore follow, ?_⟩
    -- the core is read alike before either tail
    have hbefore {behind : List Cell} (h : s.core = [] ∨ heeded (nextChar behind follow) = none) :
        Reads (.ready .code) s.core (nextChar behind follow) (.ready mode)
          ∧ trail isSolid (.ready .code) s.core (nextChar behind follow)
            = trail isSolid (.ready .code) s.core none := by
      rcases h with hnil | hheeded
      · rw [hnil] at hcore ⊢
        exact ⟨hcore, rfl⟩
      · exact ⟨(reads_congr hheeded).2 hcore, trail_congr hheeded _ _⟩
    have hcells := hbefore (hs.closed.imp_right fun hne => (heeded_tail hs.tail hne follow).1)
    have htext : s.core = [] ∨ heeded (nextChar ((tailText s.tail).map (Cell.mk · mode.kind)) follow)
        = none := by
      refine hs.closed.imp_right fun hne => ?_
      rw [nextChar_eq, chars_map_mk]
      exact (heeded_tail hs.tail hne follow).2
    have hresult := hbefore htext
    have hspaced : ∀ cell ∈ s.spaced.map Cell.code, isSpace cell.char = true ∨ isPlain cell.char = true := by
      intro cell hcell
      obtain ⟨c, hc, rfl⟩ := List.mem_map.1 hcell
      exact .inr (hs.spaced c hc)
    have hfront : Reads (.ready .code) (s.spaced.map Cell.code)
        (nextChar (s.core ++ (tailText s.tail).map (Cell.mk · mode.kind)) follow) (.ready .code) :=
      (reads_code hspaced).2 ⟨rfl, by simp⟩
    have hfront' : Reads (.ready .code) s.lead (nextChar (s.core ++ tailCells s.tail) follow)
        (.ready .code) := (reads_code hs.lead).2 ⟨rfl, hlead⟩
    rw [result, cells, trail_append _ hfront, trail_append _ hfront', trail_append _ hresult.1,
      trail_append _ hcells.1, trail_code hspaced, trail_code hs.lead, hs.solid_lead hlead, hresult.2,
      hcells.2, htrail]

end Shape

/-- **One round over a text keeps the trail** if every occurrence is harmless. -/
lemma sameTrail_round {α : Type} {find : Finder α} {canonical : α → List Cell} {Harmless : α → Prop}
    {R : Char → Char → Prop} (hfits : find.Fits) (hshaped : Shaped find canonical Harmless R)
    {text : List Char} (hall : AllHarmless Harmless (segments find (label text))) :
    SameTrail isSolid text
      (chars (replaceFound find (fun taken h => inCode taken (canonical h)) (label text))) := by
  obtain ⟨cells, hcells, hrelaid⟩ : ∃ cells, chars cells = chars (replaceFound find
      (fun taken h => inCode taken (canonical h)) (label text)) ∧ Relaid isSolid (label text) cells := by
    refine replaceFound_rel_of_mem hfits
      (R := fun a b => ∃ b', chars b' = chars b ∧ Relaid isSolid a b')
      (fun cells => ⟨cells, rfl, .refl cells⟩) ?_ (label text) ?_
    · rintro a b c d ⟨b', hb, hab⟩ ⟨d', hd, hcd⟩
      exact ⟨b' ++ d', by rw [chars_append, chars_append, hb, hd], hab.append hcd⟩
    · intro before taken rest what hfound hmem
      rw [inCode]
      split
      · next hcode =>
          obtain ⟨s, hs, rfl, htext, hfeed, hiff⟩ := hshaped _ _ _ _ hfound
          refine ⟨_, ?_, hs.relaid hcode hfeed (hiff.1 (hall _ _ hmem hcode))⟩
          rw [s.chars_result, htext]
      · exact ⟨taken, rfl, .refl taken⟩
  rw [← hcells]
  exact hrelaid.sameTrail

/-- **The headers pass keeps the trail** if every header is harmless. -/
lemma sameTrail_spaceHeaders {text : List Char} (hconditionals : HarmlessConditionals text)
    (hloops : HarmlessLoops (spaceAlternatives (spaceConditionals text))) :
    SameTrail isSolid text (spaceHeaders text) := by
  have h₁ : SameTrail isSolid text (spaceConditionals text) :=
    sameTrail_round conditionalFinder_fits conditional_shaped hconditionals
  have h₂ : SameTrail isSolid (spaceConditionals text) (spaceAlternatives (spaceConditionals text)) :=
    sameTrail_round alternativeFinder_fits (alternative_shaped conditionalLink) fun _ _ _ _ => trivial
  have h₃ : SameTrail isSolid (spaceAlternatives (spaceConditionals text)) (spaceHeaders text) :=
    sameTrail_round loopFinder_fits loop_shaped hloops
  exact (h₁.trans h₂).trans h₃

end SqfLayout.Pass
