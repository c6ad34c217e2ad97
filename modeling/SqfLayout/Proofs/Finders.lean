import Mathlib.Data.List.TakeWhile
import SqfLayout.Pass.Operators
import SqfLayout.Pass.Parens
import SqfLayout.Pass.Statements
import SqfLayout.Proofs.Division
import SqfLayout.Proofs.Idioms
import SqfLayout.Proofs.Reading

/-!
# What the finders find

One statement for each finder of parentheses, semicolons and operators: which cells it takes and what it
puts in their place.  The passes are then known without their code.

* `parenFinder_eq_some` — a parenthesis of code and the blanks on its inner side.
* `semicolonFinder_eq_some` — a semicolon of code and the blanks behind it, which stay or become a line
  feed.
* `operatorFinder_eq_some` — an operator between blanks; its surroundings become single spaces or
  nothing, unless it is no operator of code and all stays.
-/

namespace SqfLayout.Pass

open SqfLayout.Text SqfLayout.Scan

/-- Cells of spaces and tabs. -/
def AllBlank (cells : List Cell) : Prop := ∀ cell ∈ cells, isBlank cell.char = true

lemma isSpace_of_isBlank {c : Char} (h : isBlank c = true) : isSpace c = true := by
  simp only [isBlank, Bool.or_eq_true, beq_iff_eq] at h
  rcases h with rfl | rfl <;> decide

lemma isBlank_of_isSpace_false {c : Char} (h : isSpace c = false) : isBlank c = false := by
  by_contra hblank
  simp [isSpace_of_isBlank (by simpa using hblank)] at h

lemma AllBlank.allSpace {cells : List Cell} (h : AllBlank cells) : AllSpace cells :=
  fun cell hcell => isSpace_of_isBlank (h cell hcell)

lemma allBlank_takeWhile (cells : List Cell) :
    AllBlank (cells.takeWhile fun cell => isBlank cell.char) := by
  intro cell hcell
  simpa using List.mem_takeWhile_imp hcell

/-- A stretch of blanks ends before what is none. -/
lemma AllBlank.takeWhile_append {blanks rest : List Cell} (hblanks : AllBlank blanks)
    (hrest : ∀ cell ∈ rest.head?, isBlank cell.char = false) :
    (blanks ++ rest).takeWhile (fun cell => isBlank cell.char) = blanks
      ∧ (blanks ++ rest).dropWhile (fun cell => isBlank cell.char) = rest := by
  rw [List.takeWhile_append_of_pos hblanks, List.dropWhile_append_of_pos hblanks]
  cases rest with
  | nil => simp
  | cons cell rest => simp [hrest cell rfl]

lemma isCode_iff {cell : Cell} {c : Char} : cell.isCode c = true ↔ cell = .code c := by
  cases cell with
  | mk char kind => simp [Cell.isCode, Cell.code, and_comm]

/-! ## Parentheses -/

/-- **A parenthesis that is found.** -/
lemma parenFinder_eq_some {before : Option Char} {cells : List Cell} {n : Nat} {paren : Cell}
    (hfound : parenFinder before cells = some (n, paren)) :
    ∃ taken rest blanks, cells = taken ++ rest ∧ taken.length = n ∧ AllBlank blanks
      ∧ (paren = .code '(' ∧ taken = paren :: blanks ∨ paren = .code ')' ∧ taken = blanks ++ [paren]) := by
  unfold parenFinder at hfound
  split at hfound
  · simp at hfound
  · next cell rest =>
      split at hfound
      · next hopening =>
          obtain ⟨rfl, rfl⟩ := Prod.mk.inj (Option.some.inj hfound)
          refine ⟨cell :: rest.takeWhile fun cell => isBlank cell.char,
            rest.dropWhile fun cell => isBlank cell.char, _, ?_, by simp [Nat.add_comm],
            allBlank_takeWhile rest, .inl ⟨isCode_iff.1 hopening, rfl⟩⟩
          rw [List.cons_append, List.takeWhile_append_dropWhile]
      · split at hfound
        · simp at hfound
        · next closing after hdrop =>
            split at hfound
            · next hclosing =>
                obtain ⟨rfl, rfl⟩ := Prod.mk.inj (Option.some.inj hfound)
                refine ⟨((cell :: rest).takeWhile fun cell => isBlank cell.char) ++ [closing], after,
                  _, ?_, by simp, allBlank_takeWhile _, .inr ⟨isCode_iff.1 hclosing, rfl⟩⟩
                rw [List.append_assoc, List.singleton_append, ← hdrop,
                  List.takeWhile_append_dropWhile]
            · simp at hfound

/-! ## Semicolons -/

/-- **A semicolon that is found.** -/
lemma semicolonFinder_eq_some {before : Option Char} {cells : List Cell} {n : Nat} {put : List Cell}
    (hfound : semicolonFinder before cells = some (n, put)) :
    ∃ blanks rest, cells = .code ';' :: (blanks ++ rest) ∧ n = 1 + blanks.length ∧ AllBlank blanks
      ∧ (put = .code ';' :: blanks ∨ put = [.code ';', .code '\n']) := by
  unfold semicolonFinder at hfound
  split at hfound
  · simp at hfound
  · next cell rest =>
      split at hfound
      · next hcell =>
          obtain ⟨rfl, rfl⟩ := Prod.mk.inj (Option.some.inj hfound)
          refine ⟨rest.takeWhile fun cell => isBlank cell.char,
            rest.dropWhile fun cell => isBlank cell.char, ?_, rfl, allBlank_takeWhile rest, ?_⟩
          · rw [List.takeWhile_append_dropWhile, isCode_iff.1 hcell]
          · rw [isCode_iff.1 hcell]
            split
            · exact .inl rfl
            · exact .inr rfl
      · simp at hfound

/-! ## Operators -/

lemma startsWith_iff {word : List Char} {cells : List Cell} (h : startsWith word cells = true) :
    chars (cells.take word.length) = word := by
  induction word generalizing cells with
  | nil => rfl
  | cons c word ih =>
      cases cells with
      | nil => simp [startsWith] at h
      | cons cell cells =>
          simp only [startsWith, Bool.and_eq_true, beq_iff_eq] at h
          simp [h.1, ih h.2]

/-- An operator holds no white space. -/
lemma isSpace_of_mem_operators {word : List Char} (hword : word ∈ operators) :
    ∀ c ∈ word, isSpace c = false := by
  have hall : operators.all (fun word => word.all (!isSpace ·)) = true := by decide
  simpa using List.all_eq_true.1 (List.all_eq_true.1 hall word hword)

/-- An operator is one of the list, and stands at the start of the text. -/
lemma operator?_eq_some {cells op : List Cell} (h : operator? cells = some op) :
    chars op ∈ operators ∧ ∃ rest, cells = op ++ rest := by
  obtain ⟨word, hword, rfl⟩ := Option.map_eq_some_iff.1 h
  have hstarts := List.find?_some hword
  refine ⟨?_, cells.drop word.length, (List.take_append_drop ..).symm⟩
  rw [startsWith_iff (by simpa using hstarts)]
  exact List.mem_of_find?_eq_some hword

/-- **An operator that is found.** -/
lemma operatorFinder_eq_some {before : Option Char} {cells : List Cell} {n : Nat} {put : List Cell}
    (hfound : operatorFinder before cells = some (n, put)) :
    ∃ lead op trail rest, cells = lead ++ (op ++ (trail ++ rest))
      ∧ n = (lead ++ (op ++ trail)).length ∧ AllBlank lead ∧ AllBlank trail ∧ chars op ∈ operators
      ∧ (op.head?.any (·.kind == .code) = true
          ∧ put = spaceBefore before ++ op ++ spaceBehind rest.head?
        ∨ put = lead ++ (op ++ trail)) := by
  unfold operatorFinder at hfound
  obtain ⟨op, hop, heq⟩ := Option.map_eq_some_iff.1 hfound
  obtain ⟨hmem, behind, hbehind⟩ := operator?_eq_some hop
  -- the blanks in front, the operator, the blanks behind it and the rest
  have hcells : cells = (cells.takeWhile fun cell => isBlank cell.char) ++ (op ++
      ((behind.takeWhile fun cell => isBlank cell.char)
        ++ behind.dropWhile fun cell => isBlank cell.char)) := by
    rw [List.takeWhile_append_dropWhile, ← hbehind, List.takeWhile_append_dropWhile]
  generalize hlead : (cells.takeWhile fun cell => isBlank cell.char) = lead at hcells heq
  have hdrop : cells.drop (lead.length + op.length) = behind := by
    rw [hcells, List.takeWhile_append_dropWhile, ← List.append_assoc, ← List.length_append,
      List.drop_left]
  simp only [hdrop] at heq
  generalize htrail : (behind.takeWhile fun cell => isBlank cell.char) = trail at hcells heq
  generalize behind.dropWhile (fun cell => isBlank cell.char) = rest at hcells
  have hrest : cells.drop (lead.length + op.length + trail.length) = rest := by
    rw [hcells, ← List.append_assoc, ← List.append_assoc, ← List.length_append, ← List.length_append,
      List.drop_left]
  have htake : cells.take (lead.length + op.length + trail.length) = lead ++ (op ++ trail) := by
    rw [hcells, ← List.append_assoc, ← List.append_assoc, ← List.length_append, ← List.length_append,
      List.take_left, List.append_assoc]
  have hleadBlank : AllBlank lead := hlead ▸ allBlank_takeWhile cells
  have htrailBlank : AllBlank trail := htrail ▸ allBlank_takeWhile behind
  refine ⟨lead, op, trail, rest, hcells, ?_, hleadBlank, htrailBlank, hmem, ?_⟩
  · split at heq <;> simp [← (Prod.mk.inj heq).1, Nat.add_assoc]
  · split at heq
    · next hcode => exact .inl ⟨hcode, by rw [← (Prod.mk.inj heq).2, hrest]⟩
    · exact .inr (by rw [← (Prod.mk.inj heq).2, htake])

/-! ## Bounds -/

lemma parenFinder_fits : parenFinder.Fits := by
  intro before cells n paren hfound
  obtain ⟨taken, rest, blanks, rfl, rfl, -, ⟨-, rfl⟩ | ⟨-, rfl⟩⟩ := parenFinder_eq_some hfound
  · simp
  · simp

lemma semicolonFinder_fits : semicolonFinder.Fits := by
  intro before cells n put hfound
  obtain ⟨blanks, rest, rfl, rfl, -, -⟩ := semicolonFinder_eq_some hfound
  simp only [List.length_cons, List.length_append]
  omega

lemma ne_nil_of_mem_operators {op : List Cell} (h : chars op ∈ operators) : op ≠ [] := by
  rintro rfl
  simp [operators] at h

lemma operatorFinder_fits : operatorFinder.Fits := by
  intro before cells n put hfound
  obtain ⟨lead, op, trail, rest, rfl, rfl, -, -, hop, -⟩ := operatorFinder_eq_some hfound
  have hpos : 0 < op.length := List.length_pos_iff.2 (ne_nil_of_mem_operators hop)
  simp only [List.length_append]
  omega

/-! ## What an occurrence is made of -/

/-- A parenthesis with the blanks on its inner side. -/
lemma parenFinder_taken {before : Option Char} {taken rest : List Cell} {paren : Cell}
    (hfound : parenFinder before (taken ++ rest) = some (taken.length, paren)) :
    ∃ blanks, AllBlank blanks
      ∧ (paren = .code '(' ∧ taken = paren :: blanks ∨ paren = .code ')' ∧ taken = blanks ++ [paren]) := by
  obtain ⟨taken', rest', blanks, hcells, hlength, hblanks, hshape⟩ := parenFinder_eq_some hfound
  obtain rfl := (List.append_inj hcells hlength.symm).1
  exact ⟨blanks, hblanks, hshape⟩

/-- A semicolon with the blanks behind it. -/
lemma semicolonFinder_taken {before : Option Char} {taken rest put : List Cell}
    (hfound : semicolonFinder before (taken ++ rest) = some (taken.length, put)) :
    ∃ blanks, taken = .code ';' :: blanks ∧ AllBlank blanks
      ∧ (put = taken ∨ put = [.code ';', .code '\n']) := by
  obtain ⟨blanks, rest', hcells, hlength, hblanks, hput⟩ := semicolonFinder_eq_some hfound
  have hsplit : taken ++ rest = (.code ';' :: blanks) ++ rest' := hcells
  obtain rfl : taken = .code ';' :: blanks := by
    refine (List.append_inj hsplit ?_).1
    rw [hlength, List.length_cons, Nat.add_comm]
  exact ⟨blanks, rfl, hblanks, hput⟩

/-- An operator with the blanks around it. -/
lemma operatorFinder_taken {before : Option Char} {taken rest put : List Cell}
    (hfound : operatorFinder before (taken ++ rest) = some (taken.length, put)) :
    ∃ lead op trail, taken = lead ++ (op ++ trail) ∧ AllBlank lead ∧ AllBlank trail
      ∧ chars op ∈ operators
      ∧ (op.head?.any (·.kind == .code) = true
          ∧ put = spaceBefore before ++ op ++ spaceBehind rest.head? ∨ put = taken) := by
  obtain ⟨lead, op, trail, rest', hcells, hlength, hlead, htrail, hop, hput⟩ :=
    operatorFinder_eq_some hfound
  have hsplit : taken ++ rest = (lead ++ (op ++ trail)) ++ rest' := by simpa using hcells
  obtain ⟨rfl, rfl⟩ := List.append_inj hsplit hlength
  exact ⟨lead, op, trail, rfl, hlead, htrail, hop, hput⟩

end SqfLayout.Pass
