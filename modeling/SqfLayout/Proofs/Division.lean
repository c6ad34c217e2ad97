import Mathlib.Data.List.Basic
import SqfLayout.Occurrence

/-!
# Divisions into occurrences

A finder divides a text from left to right.  `Division` is that process as a derivation: at every place
the finder finds nothing and one cell is passed, or it finds an occurrence and the text goes on behind
it.  `division_segments` says that `segments` derives, for every finder whose occurrences lie within
the text and are not empty (`Finder.Fits`).

Facts about all passes that replace occurrences follow by induction on the derivation.  The one used
most is `replaceFound_rel`: a relation of lists of cells that holds between every occurrence and its
replacement, and that concatenation respects, holds between a text and the text with its occurrences
replaced.
-/

namespace SqfLayout

open SqfLayout.Scan

variable {α : Type}

/-- A finder whose occurrences are not empty and do not reach beyond the end of the text. -/
def Finder.Fits (find : Finder α) : Prop :=
  ∀ before cells n what, find before cells = some (n, what) → 0 < n ∧ n ≤ cells.length

/-- **The division of a text as a derivation.**  The first argument is the character before the text. -/
inductive Division (find : Finder α) : Option Char → List Cell → List (Segment α) → Prop
  | done (before : Option Char) : Division find before [] []
  | plain {before : Option Char} {cell : Cell} {rest : List Cell} {segments : List (Segment α)} :
      find before (cell :: rest) = none → Division find (some cell.char) rest segments →
      Division find before (cell :: rest) (.plain cell :: segments)
  | found {before : Option Char} {taken rest : List Cell} {what : α} {segments : List (Segment α)} :
      find before (taken ++ rest) = some (taken.length, what) → taken ≠ [] →
      Division find (taken.getLast?.map Cell.char) rest segments →
      Division find before (taken ++ rest) (.found taken what :: segments)

/-- The character in front of what is left when some cells have been passed. -/
lemma lastChar_cons (cell : Cell) (cells : List Cell) (before : Option Char) :
    (((cell :: cells).getLast?.map Cell.char).or before)
      = ((cells.getLast?.map Cell.char).or (some cell.char)) := by
  rw [List.getLast?_cons]
  cases cells.getLast? <;> simp

private lemma division_segmentsFrom {find : Finder α} (hfind : find.Fits) (n : Nat)
    (before : Option Char) (cells : List Cell) :
    Division find ((((cells.take n).getLast?).map Cell.char).or before) (cells.drop n)
      (segmentsFrom find n before cells) := by
  induction cells generalizing n before with
  | nil => simpa [segmentsFrom] using Division.done _
  | cons cell rest ih =>
      cases n with
      | succ n =>
          have h := ih n (some cell.char)
          rw [List.take_succ_cons, lastChar_cons]
          exact h
      | zero =>
          simp only [List.take_zero, List.getLast?_nil, Option.map_none, Option.none_or,
            List.drop_zero, segmentsFrom]
          split
          · next n what hfound =>
              obtain ⟨hpos, hle⟩ := hfind _ _ _ _ hfound
              obtain ⟨m, rfl⟩ : ∃ m, n = m + 1 := ⟨n - 1, by omega⟩
              have hlength : ((cell :: rest).take (m + 1)).length = m + 1 := by
                rw [List.length_take]; omega
              have hrest := ih m (some cell.char)
              rw [← lastChar_cons cell (rest.take m) none, Option.or_none] at hrest
              have hcells := List.take_append_drop (m + 1) (cell :: rest)
              have hderived : Division find before
                  ((cell :: rest).take (m + 1) ++ (cell :: rest).drop (m + 1))
                  (.found ((cell :: rest).take (m + 1)) what
                    :: segmentsFrom find m (some cell.char) rest) :=
                .found (by rw [hcells, hlength]; exact hfound) (by simp) hrest
              rw [hcells] at hderived
              exact hderived
          · next hnone => exact .plain hnone (by simpa using ih 0 (some cell.char))

/-- **`segments` derives.** -/
theorem division_segments {find : Finder α} (hfind : find.Fits) (cells : List Cell) :
    Division find none cells (segments find cells) := by
  simpa [segments] using division_segmentsFrom hfind 0 none cells

/-- **A text divides in one way.** -/
lemma Division.segmentsFrom_eq {find : Finder α} {before : Option Char} {cells : List Cell}
    {segs : List (Segment α)} (h : Division find before cells segs) :
    segmentsFrom find 0 before cells = segs := by
  -- the cells of an occurrence behind its first one are passed
  have hskip (taken rest : List Cell) (before : Option Char) :
      segmentsFrom find taken.length before (taken ++ rest)
        = segmentsFrom find 0 ((taken.getLast?.map Cell.char).or before) rest := by
    induction taken generalizing before with
    | nil => rfl
    | cons cell taken ih => rw [lastChar_cons, ← ih]; rfl
  induction h with
  | done before => rfl
  | plain hnone _ ih => rw [segmentsFrom, hnone]; exact congrArg (_ :: ·) ih
  | @found before taken rest what segs hfound hne _ ih =>
      obtain ⟨cell, tail, rfl⟩ := List.exists_cons_of_ne_nil hne
      have htail := hskip tail rest (some cell.char)
      rw [← lastChar_cons cell tail none, Option.or_none, ih] at htail
      rw [List.cons_append] at hfound ⊢
      simp only [segmentsFrom, hfound, List.length_cons, List.take_succ_cons, List.take_left,
        Nat.add_sub_cancel, htail]

/-- A segment with its occurrence replaced. -/
def Segment.replaced (replace : List Cell → α → List Cell) : Segment α → List Cell
  | .plain cell => [cell]
  | .found taken what => replace taken what

lemma replaceFound_eq (find : Finder α) (replace : List Cell → α → List Cell) (cells : List Cell) :
    replaceFound find replace cells = (segments find cells).flatMap (Segment.replaced replace) := by
  rw [replaceFound]
  congr 1

/-- **What holds of every occurrence and its replacement holds of the whole text**, if concatenation
respects it. -/
theorem replaceFound_rel_of_mem {find : Finder α} (hfind : find.Fits)
    {replace : List Cell → α → List Cell} {R : List Cell → List Cell → Prop}
    (refl : ∀ cells, R cells cells)
    (append : ∀ a b c d, R a b → R c d → R (a ++ c) (b ++ d)) (cells : List Cell)
    (found : ∀ before taken rest what, find before (taken ++ rest) = some (taken.length, what) →
      .found taken what ∈ segments find cells → R taken (replace taken what)) :
    R cells (replaceFound find replace cells) := by
  rw [replaceFound_eq]
  have hdivision := division_segments hfind cells
  generalize (none : Option Char) = before, segments find cells = segs at hdivision found ⊢
  induction hdivision with
  | done => exact refl []
  | plain _ _ ih =>
      refine append _ _ _ _ (refl [_]) (ih ?_)
      intro before taken rest what hfound hmem
      exact found before taken rest what hfound (List.mem_cons_of_mem _ hmem)
  | found hfound _ _ ih =>
      refine append _ _ _ _ (found _ _ _ _ hfound List.mem_cons_self) (ih ?_)
      intro before taken rest what hfound' hmem
      exact found before taken rest what hfound' (List.mem_cons_of_mem _ hmem)

/-! ## Replacing step by step -/

/-- **A text and the same text with its occurrences replaced**, behind a given character. -/
def Replaces (find : Finder α) (replace : List Cell → α → List Cell) (before : Option Char)
    (cells out : List Cell) : Prop :=
  ∃ segs, Division find before cells segs ∧ out = segs.flatMap (Segment.replaced replace)

section Replaces

variable {find : Finder α} {replace : List Cell → α → List Cell} {before : Option Char}

lemma Replaces.replaceFound_eq {cells out : List Cell} (h : Replaces find replace none cells out) :
    replaceFound find replace cells = out := by
  obtain ⟨segs, hdivision, rfl⟩ := h
  rw [SqfLayout.replaceFound_eq, segments, hdivision.segmentsFrom_eq]

lemma Replaces.nil : Replaces find replace before [] [] := ⟨[], .done before, rfl⟩

lemma Replaces.found {taken rest out : List Cell} {what : α}
    (hfound : find before (taken ++ rest) = some (taken.length, what)) (hne : taken ≠ [])
    (hrest : Replaces find replace (taken.getLast?.map Cell.char) rest out) :
    Replaces find replace before (taken ++ rest) (replace taken what ++ out) := by
  obtain ⟨segs, hdivision, rfl⟩ := hrest
  exact ⟨.found taken what :: segs, .found hfound hne hdivision, rfl⟩

lemma Replaces.plain {cell : Cell} {rest out : List Cell} (hnone : find before (cell :: rest) = none)
    (hrest : Replaces find replace (some cell.char) rest out) :
    Replaces find replace before (cell :: rest) (cell :: out) := by
  obtain ⟨segs, hdivision, rfl⟩ := hrest
  exact ⟨.plain cell :: segs, .plain hnone hdivision, rfl⟩

/-- **Cells at which nothing is found are passed.** -/
lemma Replaces.pass {block rest out : List Cell}
    (hnone : ∀ front cell back, block = front ++ cell :: back →
      find ((front.getLast?.map Cell.char).or before) (cell :: (back ++ rest)) = none)
    (hrest : Replaces find replace ((block.getLast?.map Cell.char).or before) rest out) :
    Replaces find replace before (block ++ rest) (block ++ out) := by
  induction block generalizing before with
  | nil => exact hrest
  | cons cell block ih =>
      refine .plain (hnone [] cell block rfl) (ih (fun front next back heq => ?_) ?_)
      · have h := hnone (cell :: front) next back (by rw [heq, List.cons_append])
        rwa [lastChar_cons] at h
      · rwa [lastChar_cons] at hrest

end Replaces

theorem replaceFound_rel {find : Finder α} (hfind : find.Fits)
    {replace : List Cell → α → List Cell} {R : List Cell → List Cell → Prop}
    (refl : ∀ cells, R cells cells)
    (append : ∀ a b c d, R a b → R c d → R (a ++ c) (b ++ d))
    (found : ∀ before taken rest what, find before (taken ++ rest) = some (taken.length, what) →
      R taken (replace taken what)) (cells : List Cell) :
    R cells (replaceFound find replace cells) :=
  replaceFound_rel_of_mem hfind refl append cells
    fun before taken rest what hfound _ => found before taken rest what hfound

end SqfLayout
