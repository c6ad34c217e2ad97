import Mathlib.Data.List.TakeDrop
import Mathlib.Data.Option.Basic
import SqfLayout.Pass.Headers
import SqfLayout.Proofs.Division
import SqfLayout.Proofs.Pieces
import SqfLayout.Proofs.Reading

/-!
# The shape of a header

What the readers of the three idioms accept, part by part.  Each reader of a part gives back the text
that it was given (`keyword?_eq_some`, `gap_append`, `afterMark?_eq_some`, `shortest_eq_some`), and the
parts put together are the header: `Conditional.Spells`, `Alternative.Spells` and `Loop.Spells` say
which cells a header is made of, and `conditional?_spells`, `alternative?_spells` and `loop?_spells`
that every header found is made of the cells at its place.  The finders therefore fit.
-/

namespace SqfLayout.Pass

open SqfLayout.Text SqfLayout.Scan

/-! ## Parts -/

/-- Cells that spell a word up to case. -/
def Spelled (word : List Char) (cells : List Cell) : Prop :=
  cells.map (fun cell => foldCase cell.char) = word

/-- Cells of white space. -/
def AllSpace (cells : List Cell) : Prop := ∀ cell ∈ cells, isSpace cell.char = true

lemma AllSpace.chars {cells : List Cell} (h : AllSpace cells) :
    ∀ c ∈ chars cells, isSpace c = true := by
  intro c hc
  obtain ⟨cell, hcell, rfl⟩ := List.mem_map.1 hc
  exact h cell hcell

lemma keyword?_eq_some {word : List Char} {cells keyword rest : List Cell}
    (h : keyword? word cells = some (keyword, rest)) :
    cells = keyword ++ rest ∧ Spelled word keyword := by
  induction word generalizing cells keyword rest with
  | nil =>
      simp only [keyword?, Option.some.injEq, Prod.mk.injEq] at h
      obtain ⟨rfl, rfl⟩ := h
      simp [Spelled]
  | cons c word ih =>
      cases cells with
      | nil => simp [keyword?] at h
      | cons cell cells =>
          simp only [keyword?] at h
          split at h
          · next hc =>
              obtain ⟨⟨read, rest'⟩, hread, heq⟩ := Option.map_eq_some_iff.1 h
              simp only [Prod.mk.injEq] at heq
              obtain ⟨rfl, rfl⟩ := heq
              obtain ⟨rfl, hspelled⟩ := ih hread
              refine ⟨rfl, ?_⟩
              simp only [Spelled] at hspelled ⊢
              simp [hspelled, eq_of_beq hc]
          · simp at h

lemma gap_append (cells : List Cell) : cells = (gap cells).1 ++ (gap cells).2 := by
  simp [gap, List.span_eq_takeWhile_dropWhile]

lemma allSpace_gap (cells : List Cell) : AllSpace (gap cells).1 := by
  intro cell hcell
  simp only [gap, List.span_eq_takeWhile_dropWhile] at hcell
  simpa using List.mem_takeWhile_imp hcell

lemma afterMark?_eq_some {c : Char} {cells rest : List Cell} (h : afterMark? c cells = some rest) :
    ∃ mark, cells = mark :: rest ∧ mark.char = c := by
  cases cells with
  | nil => simp [afterMark?] at h
  | cons mark cells =>
      simp only [afterMark?] at h
      split at h
      · next hc =>
          simp only [Option.some.injEq] at h
          exact ⟨mark, by rw [h], eq_of_beq hc⟩
      · simp at h

/-- A shortest stretch holds no line feed, and `close` succeeds behind it. -/
lemma shortest_eq_some {α : Type} {close : Option Char → List Cell → Option α} {last : Option Char}
    {cells stretch : List Cell} {found : α} (h : shortest close last cells = some (stretch, found)) :
    ∃ rest, cells = stretch ++ rest ∧ (∀ cell ∈ stretch, cell.char ≠ '\n')
      ∧ close ((stretch.getLast?.map Cell.char).or last) rest = some found := by
  induction cells generalizing last stretch with
  | nil =>
      simp only [shortest, Option.map_eq_some_iff, Prod.mk.injEq] at h
      obtain ⟨_, hclose, rfl, rfl⟩ := h
      exact ⟨[], by simp, by simp, by simpa using hclose⟩
  | cons cell cells ih =>
      simp only [shortest] at h
      split at h
      · next hclose =>
          simp only [Option.some.injEq, Prod.mk.injEq] at h
          obtain ⟨rfl, rfl⟩ := h
          exact ⟨cell :: cells, by simp, by simp, by simpa using hclose⟩
      · split at h
        · simp at h
        · next hfeed =>
            obtain ⟨⟨stretch', found'⟩, hread, heq⟩ := Option.map_eq_some_iff.1 h
            simp only [Prod.mk.injEq] at heq
            obtain ⟨rfl, rfl⟩ := heq
            obtain ⟨rest, rfl, hline, hclose⟩ := ih hread
            refine ⟨rest, rfl, ?_, ?_⟩
            · intro x hx
              rcases List.mem_cons.1 hx with rfl | hx
              · simpa using hfeed
              · exact hline x hx
            · rw [List.getLast?_cons]
              cases hlast : stretch'.getLast? <;> simpa [hlast] using hclose

/-- Cells are their trimmed form between white space. -/
lemma exists_trimCells (cells : List Cell) :
    ∃ front back, cells = front ++ (trimCells cells ++ back) ∧ AllSpace front ∧ AllSpace back := by
  obtain ⟨front, back, hcells, hfront, hback⟩ := exists_dropEnds (fun cell => isSpace cell.char) cells
  exact ⟨front, back, hcells, hfront, hback⟩

lemma chars_of_trimCells {cells front back : List Cell} (h : cells = front ++ (trimCells cells ++ back)) :
    chars cells = chars front ++ (chars (trimCells cells) ++ chars back) := by
  conv_lhs => rw [h]
  simp

lemma head?_trimCells (cells : List Cell) : ∀ cell ∈ (trimCells cells).head?, isSpace cell.char = false := by
  intro cell hcell
  have hnot := List.head?_dropWhile_not (fun cell : Cell => isSpace cell.char)
    (dropEndWhile (fun cell => isSpace cell.char) cells)
  rw [← trimCells, Option.mem_def.1 hcell] at hnot
  simpa using hnot

lemma getLast?_trimCells (cells : List Cell) :
    ∀ cell ∈ (trimCells cells).getLast?, isSpace cell.char = false :=
  getLast?_dropEnds (fun cell : Cell => isSpace cell.char) cells

/-! ## Headers -/

/-- **The cells of a conditional.** -/
structure Conditional.Spells (h : Conditional) (opening closing brace : Cell) : Prop where
  keyword : Spelled ['i', 'f'] h.keyword
  gap₁ : AllSpace h.gap₁
  opening : opening.char = '('
  condition : ∀ cell ∈ h.condition, cell.char ≠ '\n'
  closing : closing.char = ')'
  gap₂ : AllSpace h.gap₂
  branch : Spelled ['t', 'h', 'e', 'n'] h.branch
    ∨ Spelled ['e', 'x', 'i', 't', 'w', 'i', 't', 'h'] h.branch
  gap₃ : AllSpace h.gap₃
  brace : brace.char = '{'

/-- The cells of a conditional in a row. -/
def Conditional.cells (h : Conditional) (opening closing brace : Cell) : List Cell :=
  h.keyword ++ (h.gap₁ ++ opening :: (h.condition ++ closing :: (h.gap₂ ++ (h.branch ++ (h.gap₃
    ++ [brace])))))

/-- **The cells of an alternative.** -/
structure Alternative.Spells (h : Alternative) (closing brace : Cell) : Prop where
  closing : closing.char = '}'
  gap₁ : AllSpace h.gap₁
  keyword : Spelled ['e', 'l', 's', 'e'] h.keyword
  gap₂ : AllSpace h.gap₂
  brace : brace.char = '{'

/-- The cells of an alternative in a row. -/
def Alternative.cells (h : Alternative) (closing brace : Cell) : List Cell :=
  closing :: (h.gap₁ ++ (h.keyword ++ (h.gap₂ ++ [brace])))

/-- **The cells of a loop.**  Its condition does not end in white space. -/
structure Loop.Spells (h : Loop) (opening closing brace : Cell) : Prop where
  keyword : Spelled ['w', 'h', 'i', 'l', 'e'] h.keyword
  gap₁ : AllSpace h.gap₁
  opening : opening.char = '{'
  gap₂ : AllSpace h.gap₂
  condition : ∀ cell ∈ h.condition, cell.char ≠ '\n'
  trimmed : ∀ cell ∈ h.condition.getLast?, isSpace cell.char = false
  gap₃ : AllSpace h.gap₃
  closing : closing.char = '}'
  gap₄ : AllSpace h.gap₄
  body : Spelled ['d', 'o'] h.body
  gap₅ : AllSpace h.gap₅
  brace : brace.char = '{'

/-- The cells of a loop in a row. -/
def Loop.cells (h : Loop) (opening closing brace : Cell) : List Cell :=
  h.keyword ++ (h.gap₁ ++ opening :: (h.gap₂ ++ (h.condition ++ (h.gap₃ ++ closing :: (h.gap₄
    ++ (h.body ++ (h.gap₅ ++ [brace])))))))

lemma Conditional.length_cells (h : Conditional) (opening closing brace : Cell) :
    (h.cells opening closing brace).length = h.size := by
  simp only [cells, size, List.length_append, List.length_cons, List.length_nil]
  omega

lemma Alternative.length_cells (h : Alternative) (closing brace : Cell) :
    (h.cells closing brace).length = h.size := by
  simp only [cells, size, List.length_append, List.length_cons, List.length_nil]
  omega

lemma Loop.length_cells (h : Loop) (opening closing brace : Cell) :
    (h.cells opening closing brace).length = h.size := by
  simp only [cells, size, List.length_append, List.length_cons, List.length_nil]
  omega

/-! ## Readers of headers -/

/-- What is read behind the condition of a conditional. -/
lemma conditionalTail?_eq_some {cells gap₂ branch gap₃ : List Cell}
    (h : conditionalTail? cells = some (gap₂, branch, gap₃)) :
    ∃ closing brace rest, cells = closing :: (gap₂ ++ (branch ++ (gap₃ ++ brace :: rest)))
      ∧ closing.char = ')' ∧ AllSpace gap₂
      ∧ (Spelled ['t', 'h', 'e', 'n'] branch
        ∨ Spelled ['e', 'x', 'i', 't', 'w', 'i', 't', 'h'] branch)
      ∧ AllSpace gap₃ ∧ brace.char = '{' := by
  simp only [conditionalTail?, Option.bind_eq_bind, Option.bind_eq_some_iff, Option.pure_def,
    Option.some.injEq, Prod.mk.injEq, Option.or_eq_some_iff] at h
  obtain ⟨behind, hmark, ⟨word, rest₁⟩, hword, after, hlast, rfl, rfl, rfl⟩ := h
  obtain ⟨closing, rfl, hclosing⟩ := afterMark?_eq_some hmark
  obtain ⟨brace, hafter, hbrace⟩ := afterMark?_eq_some hlast
  have hspelled : (gap behind).2 = word ++ rest₁ ∧ (Spelled ['t', 'h', 'e', 'n'] word
      ∨ Spelled ['e', 'x', 'i', 't', 'w', 'i', 't', 'h'] word) := by
    rcases hword with hword | ⟨-, hword⟩
    · exact ⟨(keyword?_eq_some hword).1, .inl (keyword?_eq_some hword).2⟩
    · exact ⟨(keyword?_eq_some hword).1, .inr (keyword?_eq_some hword).2⟩
  refine ⟨closing, brace, after, ?_, hclosing, allSpace_gap _, hspelled.2, allSpace_gap _, hbrace⟩
  rw [← hafter, ← gap_append, ← hspelled.1, ← gap_append]

/-- What is read behind the condition of a loop. -/
lemma loopTail?_eq_some {last : Option Char} {cells gap₃ gap₄ body gap₅ : List Cell}
    (h : loopTail? last cells = some (gap₃, gap₄, body, gap₅)) :
    ∃ closing brace rest,
      cells = gap₃ ++ closing :: (gap₄ ++ (body ++ (gap₅ ++ brace :: rest)))
      ∧ (∀ c ∈ last, isSpace c = false) ∧ AllSpace gap₃ ∧ closing.char = '}' ∧ AllSpace gap₄
      ∧ Spelled ['d', 'o'] body ∧ AllSpace gap₅ ∧ brace.char = '{' := by
  simp only [loopTail?, Option.bind_eq_bind, Option.bind_eq_some_iff, Option.pure_def,
    Option.some.injEq, Prod.mk.injEq, Option.guard_eq_some'] at h
  obtain ⟨-, hlast, behind, hmark, ⟨word, rest₁⟩, hword, after, hend, rfl, rfl, rfl, rfl⟩ := h
  obtain ⟨closing, hcells, hclosing⟩ := afterMark?_eq_some hmark
  obtain ⟨brace, hafter, hbrace⟩ := afterMark?_eq_some hend
  obtain ⟨hword, hspelled⟩ := keyword?_eq_some hword
  refine ⟨closing, brace, after, ?_, ?_, allSpace_gap _, hclosing, allSpace_gap _, hspelled,
    allSpace_gap _, hbrace⟩
  · rw [← hafter, ← gap_append, ← hword, ← gap_append, ← hcells, ← gap_append]
  · intro c hc
    cases last with
    | none => simp at hc
    | some l => simp_all

/-- **A conditional that is found is made of the cells at its place.** -/
theorem conditional?_spells {before : Option Char} {cells : List Cell} {h : Conditional}
    (hfound : conditional? before cells = some h) :
    ∃ opening closing brace rest, cells = h.cells opening closing brace ++ rest
      ∧ h.Spells opening closing brace := by
  simp only [conditional?, Option.bind_eq_bind, Option.bind_eq_some_iff, Option.pure_def,
    Option.some.injEq] at hfound
  obtain ⟨-, -, ⟨word, rest₁⟩, hword, behind, hmark, ⟨condition, gap₂, branch, gap₃⟩, hshortest,
    rfl⟩ := hfound
  obtain ⟨rfl, hspelled⟩ := keyword?_eq_some hword
  obtain ⟨opening, hbehind, hopening⟩ := afterMark?_eq_some hmark
  obtain ⟨tail, rfl, hline, htail⟩ := shortest_eq_some hshortest
  obtain ⟨closing, brace, rest, rfl, hclosing, hgap₂, hbranch, hgap₃, hbrace⟩ :=
    conditionalTail?_eq_some htail
  refine ⟨opening, closing, brace, rest, ?_, hspelled, allSpace_gap _, hopening, hline, hclosing,
    hgap₂, hbranch, hgap₃, hbrace⟩
  conv_lhs => rw [gap_append rest₁, hbehind]
  simp [Conditional.cells]

/-- **An alternative that is found is made of the cells at its place.** -/
theorem alternative?_spells {cells : List Cell} {h : Alternative}
    (hfound : alternative? cells = some h) :
    ∃ closing brace rest, cells = h.cells closing brace ++ rest ∧ h.Spells closing brace := by
  simp only [alternative?, Option.bind_eq_bind, Option.bind_eq_some_iff, Option.pure_def,
    Option.some.injEq] at hfound
  obtain ⟨behind, hmark, ⟨word, rest₁⟩, hread, after, hend, rfl⟩ := hfound
  obtain ⟨closing, rfl, hclosing⟩ := afterMark?_eq_some hmark
  obtain ⟨hword, hspelled⟩ := keyword?_eq_some hread
  obtain ⟨brace, hafter, hbrace⟩ := afterMark?_eq_some hend
  refine ⟨closing, brace, after, ?_, hclosing, allSpace_gap _, hspelled, allSpace_gap _, hbrace⟩
  conv_lhs => rw [gap_append behind, hword, gap_append rest₁, hafter]
  simp [Alternative.cells]

/-- **A loop that is found is made of the cells at its place.** -/
theorem loop?_spells {before : Option Char} {cells : List Cell} {h : Loop}
    (hfound : loop? before cells = some h) :
    ∃ opening closing brace rest, cells = h.cells opening closing brace ++ rest
      ∧ h.Spells opening closing brace := by
  simp only [loop?, Option.bind_eq_bind, Option.bind_eq_some_iff, Option.pure_def,
    Option.some.injEq] at hfound
  obtain ⟨-, -, ⟨word, rest₁⟩, hword, behind, hmark, ⟨condition, gap₃, gap₄, body, gap₅⟩,
    hshortest, rfl⟩ := hfound
  obtain ⟨rfl, hspelled⟩ := keyword?_eq_some hword
  obtain ⟨opening, hbehind, hopening⟩ := afterMark?_eq_some hmark
  obtain ⟨tail, hcells, hline, htail⟩ := shortest_eq_some hshortest
  obtain ⟨closing, brace, rest, rfl, hlast, hgap₃, hclosing, hgap₄, hbody, hgap₅, hbrace⟩ :=
    loopTail?_eq_some htail
  refine ⟨opening, closing, brace, rest, ?_, hspelled, allSpace_gap _, hopening, allSpace_gap _,
    hline, ?_, hgap₃, hclosing, hgap₄, hbody, hgap₅, hbrace⟩
  · conv_lhs => rw [gap_append rest₁, hbehind, gap_append behind, hcells]
    simp [Loop.cells]
  · intro cell hcell
    exact hlast cell.char (by simp [Option.mem_def.1 hcell])

/-! ## The three rounds of the pass -/

/-- Canonical white space in the conditionals of code. -/
def spaceConditionals (text : List Char) : List Char :=
  chars (replaceFound conditionalFinder (fun taken h => inCode taken h.canonical) (label text))

/-- Canonical white space in the alternatives of code. -/
def spaceAlternatives (text : List Char) : List Char :=
  chars (replaceFound alternativeFinder (fun taken h => inCode taken h.canonical) (label text))

/-- Canonical white space in the loops of code. -/
def spaceLoops (text : List Char) : List Char :=
  chars (replaceFound loopFinder (fun taken h => inCode taken h.canonical) (label text))

lemma spaceHeaders_eq (text : List Char) :
    spaceHeaders text = spaceLoops (spaceAlternatives (spaceConditionals text)) := rfl

/-! ## Finders -/

/-- What a finder takes when it takes the header at its place. -/
private lemma taken_eq {taken rest cells after : List Cell} (happend : taken ++ rest = cells ++ after)
    (hlength : taken.length = cells.length) : taken = cells :=
  (List.append_inj happend hlength).1

lemma conditionalFinder_eq_some {before : Option Char} {taken rest : List Cell} {h : Conditional}
    (hfound : conditionalFinder before (taken ++ rest) = some (taken.length, h)) :
    ∃ opening closing brace, taken = h.cells opening closing brace
      ∧ h.Spells opening closing brace := by
  obtain ⟨_, hread, heq⟩ := Option.map_eq_some_iff.1 hfound
  obtain ⟨hsize, rfl⟩ := Prod.mk.inj heq
  obtain ⟨opening, closing, brace, after, hcells, hspells⟩ := conditional?_spells hread
  exact ⟨opening, closing, brace, taken_eq hcells (by rw [Conditional.length_cells, hsize]), hspells⟩

lemma alternativeFinder_eq_some {before : Option Char} {taken rest : List Cell} {h : Alternative}
    (hfound : alternativeFinder before (taken ++ rest) = some (taken.length, h)) :
    ∃ closing brace, taken = h.cells closing brace ∧ h.Spells closing brace := by
  obtain ⟨_, hread, heq⟩ := Option.map_eq_some_iff.1 hfound
  obtain ⟨hsize, rfl⟩ := Prod.mk.inj heq
  obtain ⟨closing, brace, after, hcells, hspells⟩ := alternative?_spells hread
  exact ⟨closing, brace, taken_eq hcells (by rw [Alternative.length_cells, hsize]), hspells⟩

lemma loopFinder_eq_some {before : Option Char} {taken rest : List Cell} {h : Loop}
    (hfound : loopFinder before (taken ++ rest) = some (taken.length, h)) :
    ∃ opening closing brace, taken = h.cells opening closing brace
      ∧ h.Spells opening closing brace := by
  obtain ⟨_, hread, heq⟩ := Option.map_eq_some_iff.1 hfound
  obtain ⟨hsize, rfl⟩ := Prod.mk.inj heq
  obtain ⟨opening, closing, brace, after, hcells, hspells⟩ := loop?_spells hread
  exact ⟨opening, closing, brace, taken_eq hcells (by rw [Loop.length_cells, hsize]), hspells⟩

lemma conditionalFinder_fits : conditionalFinder.Fits := by
  intro before cells n h hfound
  obtain ⟨_, hread, heq⟩ := Option.map_eq_some_iff.1 hfound
  obtain ⟨rfl, rfl⟩ := Prod.mk.inj heq
  obtain ⟨opening, closing, brace, after, rfl, -⟩ := conditional?_spells hread
  exact ⟨by rw [Conditional.size]; omega, by simp [Conditional.length_cells]⟩

lemma alternativeFinder_fits : alternativeFinder.Fits := by
  intro before cells n h hfound
  obtain ⟨_, hread, heq⟩ := Option.map_eq_some_iff.1 hfound
  obtain ⟨rfl, rfl⟩ := Prod.mk.inj heq
  obtain ⟨closing, brace, after, rfl, -⟩ := alternative?_spells hread
  exact ⟨by rw [Alternative.size]; omega, by simp [Alternative.length_cells]⟩

lemma loopFinder_fits : loopFinder.Fits := by
  intro before cells n h hfound
  obtain ⟨_, hread, heq⟩ := Option.map_eq_some_iff.1 hfound
  obtain ⟨rfl, rfl⟩ := Prod.mk.inj heq
  obtain ⟨opening, closing, brace, after, rfl, -⟩ := loop?_spells hread
  exact ⟨by rw [Loop.size]; omega, by simp [Loop.length_cells]⟩

end SqfLayout.Pass
