import SqfLayout.Proofs.Idioms
import SqfLayout.Proofs.Reading
import SqfLayout.Proofs.Respacing

/-!
# What a text says apart from the white space of its code

**The view.**  `solid` are the cells of a text without the white space of code: every literal and every
comment as it stands, and the code without its layout.

**First differences.**  A pass that takes something for code that is none changes the view, and a later
pass could change it back.  To rule this out, `DiffersAt` says where two views differ first: between two
characters that are no white space and that stand in a given relation.  Two changes whose first
differences lie between different characters do not cancel out (`DiffersAt.ne`).
-/

namespace SqfLayout.Pass

open SqfLayout.Text SqfLayout.Scan

/-! ## The view -/

/-- A cell that is not white space of code. -/
def isSolid (cell : Cell) : Bool := !(cell.kind == .code && isSpace cell.char)

/-- The cells that are not white space of code. -/
def solidCells (cells : List Cell) : List Cell := cells.filter isSolid

/-- **A text without the white space of its code**, each character with its class. -/
def solid (text : List Char) : List Cell := solidCells (label text)

@[simp] lemma solidCells_append (a b : List Cell) :
    solidCells (a ++ b) = solidCells a ++ solidCells b := List.filter_append ..

@[simp] lemma solidCells_nil : solidCells [] = [] := rfl

lemma isSolid_of_ink {cell : Cell} (h : isSpace cell.char = false) : isSolid cell = true := by
  simp [isSolid, h]

lemma solidCells_cons_ink {cell : Cell} (h : isSpace cell.char = false) (rest : List Cell) :
    solidCells (cell :: rest) = cell :: solidCells rest :=
  List.filter_cons_of_pos (isSolid_of_ink h)

/-- Cells outside code are all seen. -/
lemma solidCells_eq_self {cells : List Cell} (h : ∀ cell ∈ cells, cell.kind ≠ .code) :
    solidCells cells = cells := by
  refine List.filter_eq_self.2 fun cell hcell => ?_
  simp [isSolid, h cell hcell]

/-- Of code only the ink is seen. -/
lemma solidCells_code {cells : List Cell} (h : ∀ cell ∈ cells, cell.kind = .code) :
    solidCells cells = (ink (chars cells)).map .code := by
  induction cells with
  | nil => rfl
  | cons cell cells ih =>
      obtain ⟨hcell, hcells⟩ := List.forall_mem_cons.1 h
      obtain ⟨c, kind⟩ := cell
      obtain rfl : kind = .code := hcell
      have hrest := ih hcells
      rw [solidCells] at hrest ⊢
      cases hc : isSpace c <;> simp_all [isSolid, ink, Cell.code]

/-! ## First differences -/

/-- **Two views differ first between two related characters.**  They have the same cells up to the first
of the two; behind it the white space differs, or the class of the second one does. -/
def DiffersAt (R : Char → Char → Prop) (a b : List Cell) : Prop :=
  ∃ (front : List Cell) (x : Cell) (gapA : List Cell) (yA : Cell) (restA gapB : List Cell) (yB : Cell)
    (restB : List Cell),
    a = front ++ x :: (gapA ++ yA :: restA) ∧ b = front ++ x :: (gapB ++ yB :: restB)
      ∧ isSpace x.char = false ∧ AllSpace gapA ∧ AllSpace gapB ∧ isSpace yA.char = false
      ∧ yB.char = yA.char ∧ R x.char yA.char ∧ gapA ++ [yA] ≠ gapB ++ [yB]

lemma DiffersAt.append_left {R : Char → Char → Prop} {a b : List Cell} (h : DiffersAt R a b)
    (front : List Cell) : DiffersAt R (front ++ a) (front ++ b) := by
  obtain ⟨f, x, gapA, yA, restA, gapB, yB, restB, rfl, rfl, hrest⟩ := h
  exact ⟨front ++ f, x, gapA, yA, restA, gapB, yB, restB, by simp, by simp, hrest⟩

/-- White space and the character behind it are determined by what they start. -/
lemma gap_unique {g g' : List Cell} {y y' : Cell} {r r' : List Cell} (hg : AllSpace g)
    (hg' : AllSpace g') (hy : isSpace y.char = false) (hy' : isSpace y'.char = false)
    (h : g ++ y :: r = g' ++ y' :: r') : g = g' ∧ y = y' := by
  induction g generalizing g' with
  | nil =>
      cases g' with
      | nil =>
          obtain ⟨rfl, -⟩ := List.cons.inj h
          exact ⟨rfl, rfl⟩
      | cons s g' =>
          obtain ⟨rfl, -⟩ := List.cons.inj h
          rw [hg' y List.mem_cons_self] at hy
          contradiction
  | cons s g ih =>
      cases g' with
      | nil =>
          obtain ⟨rfl, -⟩ := List.cons.inj h
          rw [hg s List.mem_cons_self] at hy'
          contradiction
      | cons s' g' =>
          obtain ⟨rfl, hrest⟩ := List.cons.inj h
          obtain ⟨rfl, rfl⟩ := ih (fun c hc => hg c (List.mem_cons_of_mem _ hc))
            (fun c hc => hg' c (List.mem_cons_of_mem _ hc)) hrest
          exact ⟨rfl, rfl⟩

lemma DiffersAt.ne_self {R : Char → Char → Prop} {a b : List Cell} (h : DiffersAt R a b) : a ≠ b := by
  rintro rfl
  obtain ⟨f, x, gapA, yA, restA, gapB, yB, restB, ha, hb, -, hgapA, hgapB, hyA, hyB, -, hne⟩ := h
  rw [ha, List.append_cancel_left_eq, List.cons.injEq] at hb
  obtain ⟨rfl, rfl⟩ := gap_unique hgapA hgapB hyA (by rw [hyB, hyA]) hb.2
  exact hne rfl

/-- A list that starts with white space and a character `y`, up to a later character `x`, starts so
whatever comes behind `x`. -/
lemma exists_opening {g q : List Cell} {y x : Cell} {r s : List Cell} (hg : AllSpace g)
    (hx : isSpace x.char = false) (h : g ++ y :: r = q ++ x :: s) (s' : List Cell) :
    ∃ t, q ++ x :: s' = g ++ y :: t := by
  induction g generalizing q with
  | nil =>
      cases q with
      | nil =>
          obtain ⟨rfl, -⟩ := List.cons.inj h
          exact ⟨s', rfl⟩
      | cons z q =>
          obtain ⟨rfl, -⟩ := List.cons.inj h
          exact ⟨q ++ x :: s', rfl⟩
  | cons z g ih =>
      cases q with
      | nil =>
          obtain ⟨rfl, -⟩ := List.cons.inj h
          rw [hg z List.mem_cons_self] at hx
          contradiction
      | cons z' q =>
          obtain ⟨rfl, hrest⟩ := List.cons.inj h
          obtain ⟨t, ht⟩ := ih (fun c hc => hg c (List.mem_cons_of_mem _ hc)) hrest
          exact ⟨t, by rw [List.cons_append, ht, List.cons_append]⟩

/-- **Changes whose first differences lie between different characters do not cancel out.** -/
lemma DiffersAt.ne {R R' : Char → Char → Prop} (hdisjoint : ∀ x y, R x y → ¬ R' x y)
    {a b c : List Cell} (hab : DiffersAt R a b) (hbc : DiffersAt R' b c) : a ≠ c := by
  rintro rfl
  obtain ⟨f, x, gapA, yA, restA, gapB, yB, restB, ha, hb, hx, hgapA, hgapB, hyA, hyB, hR, hne⟩ := hab
  obtain ⟨f', x', gapB', yB', restB', gapC, yC, restC, hb', hc, hx', hgapB', hgapC, hyB', hyC, hR',
    hne'⟩ := hbc
  have hyB_ink : isSpace yB.char = false := by rw [hyB, hyA]
  have hyC_ink : isSpace yC.char = false := by rw [hyC, hyB']
  rw [hb] at hb'
  rcases List.append_eq_append_iff.1 hb' with ⟨q, rfl, hq⟩ | ⟨q, rfl, hq⟩
  · cases q with
    | nil =>
        obtain ⟨rfl, hrest⟩ := List.cons.inj hq
        obtain ⟨-, rfl⟩ := gap_unique hgapB hgapB' hyB_ink hyB' hrest
        rw [hyB] at hR'
        exact hdisjoint _ _ hR hR'
    | cons z q =>
        -- the first change lies before the second one and is still seen behind it
        obtain ⟨rfl, hrest⟩ := List.cons.inj hq
        obtain ⟨t, ht⟩ := exists_opening hgapB hx' hrest (gapC ++ yC :: restC)
        rw [ha, List.append_assoc, List.append_cancel_left_eq, List.cons_append, ht] at hc
        obtain ⟨rfl, rfl⟩ := gap_unique hgapA hgapB hyA hyB_ink (List.cons.inj hc).2
        exact hne rfl
  · cases q with
    | nil =>
        obtain ⟨rfl, hrest⟩ := List.cons.inj hq
        obtain ⟨-, rfl⟩ := gap_unique hgapB' hgapB hyB' hyB_ink hrest
        rw [hyB] at hR'
        exact hdisjoint _ _ hR hR'
    | cons z q =>
        obtain ⟨rfl, hrest⟩ := List.cons.inj hq
        obtain ⟨t, ht⟩ := exists_opening hgapB' hx hrest (gapA ++ yA :: restA)
        rw [ha, List.append_assoc, List.append_cancel_left_eq, List.cons_append, ht] at hc
        obtain ⟨rfl, rfl⟩ := gap_unique hgapB' hgapC hyB' hyC_ink (List.cons.inj hc).2
        exact hne' rfl

end SqfLayout.Pass
