import Mathlib.Data.List.Find
import SqfLayout.Proofs.Keywords
import SqfLayout.Proofs.Spelling

/-!
# Occurrences of words

An entry occurs where its folded characters are read and words start and end as the entry asks
(`Vocabulary.finder_eq`).

**What follows an occurrence.**  Characters in front of which a word ends, and which are in no entry, change
nothing about what occurs before them (`SearchForm.occursAt_append`).

**Vocabularies of words.**  If the entries are ASCII words, what is found is a whole word of the text
(`Vocabulary.finder_eq_some`), and whether a whole word is found does not depend on what stands around it
(`Vocabulary.finder_whole`).  So whole words are spelled as a whole (`Vocabulary.Whole.replaces`).
-/

namespace SqfLayout

open SqfLayout.Text SqfLayout.Scan SqfLayout.Pass

/-! ## Reading folded characters -/

/-- What is read is spelled as asked. -/
lemma afterFolded?_eq_some {before last : Option Char} {folded : List Char} {cells rest : List Cell}
    (h : afterFolded? before folded cells = some (last, rest)) :
    ∃ taken, cells = taken ++ rest ∧ Spelled folded taken ∧ last = (taken.getLast?.map Cell.char).or before := by
  fun_induction afterFolded? before folded cells with
  | case1 before cells =>
      obtain ⟨rfl, rfl⟩ := Prod.mk.inj (Option.some.inj h)
      exact ⟨[], rfl, rfl, rfl⟩
  | case2 before c folded => simp at h
  | case3 before c folded cell cells hfold ih =>
      obtain ⟨taken, rfl, hspelled, rfl⟩ := ih h
      refine ⟨cell :: taken, rfl, ?_, (lastChar_cons cell taken before).symm⟩
      rw [Spelled, List.map_cons, eq_of_beq hfold, hspelled]
  | case4 before c folded cell cells hfold => simp at h

/-- The character before matters only if nothing is read. -/
lemma afterFolded?_congr {folded : List Char} (h : folded ≠ []) (before before' : Option Char)
    (cells : List Cell) : afterFolded? before folded cells = afterFolded? before' folded cells := by
  cases folded with
  | nil => contradiction
  | cons c folded =>
      cases cells with
      | nil => rfl
      | cons cell cells => rfl

section Append

variable {behind : List Cell} {folded : List Char}
  (hfolded : ∀ cell ∈ behind.head?, foldCase cell.char ∉ folded)

include hfolded

/-- Folded characters are read in front of what does not go on with them or not at all. -/
lemma afterFolded?_append (before : Option Char) (cells : List Cell) :
    afterFolded? before folded (cells ++ behind)
      = (afterFolded? before folded cells).map fun read => (read.1, read.2 ++ behind) := by
  induction folded generalizing before cells with
  | nil => cases cells <;> cases behind <;> rfl
  | cons c folded ih =>
      cases cells with
      | nil =>
          cases behind with
          | nil => rfl
          | cons cell behind =>
              have hne : foldCase cell.char ≠ c := List.ne_of_not_mem_cons (hfolded cell rfl)
              simp [afterFolded?, hne]
      | cons cell cells =>
          have hrest : ∀ cell ∈ behind.head?, foldCase cell.char ∉ folded :=
            fun cell hcell => List.not_mem_of_not_mem_cons (hfolded cell hcell)
          simp only [List.cons_append, afterFolded?, ih hrest]
          split <;> rfl

end Append

/-- **An entry occurs before characters that end a word as it does at the end of the text.** -/
lemma SearchForm.occursAt_append {form : SearchForm} {behind : List Cell}
    (hfolded : ∀ cell ∈ behind.head?, foldCase cell.char ∉ form.folded)
    (hword : ∀ cell ∈ behind.head?, isWordChar cell.char = false)
    (edge : Bool) (before : Option Char) (cells : List Cell) :
    form.occursAt edge before (cells ++ behind) = form.occursAt edge before cells := by
  rw [SearchForm.occursAt, SearchForm.occursAt, afterFolded?_append hfolded]
  rcases afterFolded? before form.folded cells with - | ⟨last, rest⟩
  · rfl
  · cases rest with
    | nil =>
        have hnone : (behind.head?.map Cell.char).any isWordChar = false := by
          cases behind with
          | nil => rfl
          | cons cell behind => exact hword cell rfl
        simp [atBoundary, hnone]
    | cons cell rest => rfl

namespace Vocabulary

/-- **What is found** is the first form that occurs. -/
lemma finder_eq (v : Vocabulary) (before : Option Char) (cells : List Cell) :
    v.finder before cells = ((v.formsFor cells).find?
        (·.occursAt (atBoundary before (cells.head?.map Cell.char)) before cells)).map
      fun form => (form.folded.length, ()) := by
  rw [finder]
  split
  · next hnil => rw [hnil]; rfl
  · rfl

/-! ## Vocabularies of words -/

/-- **A whole word of a text**: no character of a word stands on either side. -/
structure Whole (before : Option Char) (word rest : List Cell) : Prop where
  ne_nil : word ≠ []
  word : ∀ cell ∈ word, isWordChar cell.char = true
  before : before.any isWordChar = false
  behind : ∀ cell ∈ rest.head?, isWordChar cell.char = false

lemma Whole.alone {before : Option Char} {word rest : List Cell} (h : Whole before word rest) :
    Whole none word [] := ⟨h.ne_nil, h.word, rfl, by simp⟩

/-- A word starts where a whole word does. -/
lemma Whole.atBoundary {before : Option Char} {word rest : List Cell} (h : Whole before word rest) :
    atBoundary before ((word ++ rest).head?.map Cell.char) = true := by
  obtain ⟨cell, word, rfl⟩ := List.exists_cons_of_ne_nil h.ne_nil
  simp [Text.atBoundary, h.before, h.word cell]

variable {commands functions : List (List Char)}
  (hwords : ∀ word ∈ commands ++ functions, ∀ c ∈ word, c.toNat < 128 ∧ isWordChar c = true)

include hwords

/-- The forms of words have characters of words only, and both their ends are edges. -/
lemma form_of_words {cells : List Cell} {form : SearchForm} (h : form ∈ (ofLists commands functions).formsFor cells) :
    IsKeyword form.folded ∧ form.edgeBefore = true ∧ form.edgeBehind = true := by
  have hne := folded_ne_nil h
  obtain ⟨word, hword, -, rfl⟩ := exists_word_of_mem_formsFor h
  have hall := hwords word hword
  have hname {c : Char} (hc : c ∈ word) : isNameChar c = true :=
    forall_ascii (P := fun c => isWordChar c = true → isNameChar c = true) (by decide +kernel)
      (hall c hc).1 (hall c hc).2
  have hfold {c : Char} (hc : c ∈ word) : (foldCase c).toNat < 128 ∧ isWordChar (foldCase c) = true :=
    forall_ascii (P := fun c => isWordChar c = true → (foldCase c).toNat < 128 ∧ isWordChar (foldCase c) = true)
      (by decide +kernel) (hall c hc).1 (hall c hc).2
  have hne' : word ≠ [] := by
    rintro rfl
    exact hne rfl
  refine ⟨⟨hne, fun c hc => ?_⟩, ?_, ?_⟩
  · obtain ⟨d, hd, rfl⟩ := List.mem_map.1 hc
    exact hfold hd
  · simp [SearchForm.ofWord, List.head?_eq_some_head hne', hname]
  · simp [SearchForm.ofWord, List.getLast?_eq_some_getLast hne', hname]

/-- **What is found is a whole word.** -/
lemma finder_eq_some {before : Option Char} {cells : List Cell} {n : Nat} {what : Unit}
    (h : (ofLists commands functions).finder before cells = some (n, what)) :
    ∃ word rest, cells = word ++ rest ∧ n = word.length ∧ Whole before word rest := by
  rw [finder_eq] at h
  obtain ⟨form, hform, heq⟩ := Option.map_eq_some_iff.1 h
  obtain ⟨rfl, -⟩ := Prod.mk.inj heq
  obtain ⟨⟨hne, hfolded⟩, hbefore, hbehind⟩ := form_of_words hwords (List.mem_of_find?_eq_some hform)
  have hoccurs := List.find?_some hform
  rw [SearchForm.occursAt, hbefore, hbehind, Bool.not_true, Bool.false_or, Bool.and_eq_true] at hoccurs
  obtain ⟨hedge, hoccurs⟩ := hoccurs
  split at hoccurs
  · simp at hoccurs
  · next last rest hafter =>
      obtain ⟨word, rfl, hspelled, rfl⟩ := afterFolded?_eq_some hafter
      have hword : ∀ cell ∈ word, isWordChar cell.char = true := by
        intro cell hcell
        have hmem : foldCase cell.char ∈ form.folded := hspelled ▸ List.mem_map_of_mem hcell
        exact isWordChar_of_foldCase (hfolded _ hmem).1 (hfolded _ hmem).2
      have hne' : word ≠ [] := by
        rintro rfl
        exact hne hspelled.symm
      refine ⟨word, rest, rfl, by rw [← hspelled, List.length_map], hne', hword, ?_, fun cell hcell => ?_⟩
      · obtain ⟨cell, word, rfl⟩ := List.exists_cons_of_ne_nil hne'
        simpa [Text.atBoundary, hword cell] using hedge
      · rw [List.getLast?_eq_some_getLast hne', hcell] at hoccurs
        simpa [Text.atBoundary, hword _ (List.getLast_mem hne')] using hoccurs

/-- Nothing is found inside a word or where no word starts. -/
lemma finder_eq_none {before : Option Char} {cells : List Cell}
    (h : before.any isWordChar = true ∨ ∀ cell ∈ cells.head?, isWordChar cell.char = false) :
    (ofLists commands functions).finder before cells = none := by
  refine Option.eq_none_iff_forall_ne_some.2 fun ⟨n, what⟩ hfound => ?_
  obtain ⟨word, rest, rfl, -, hwhole⟩ := finder_eq_some hwords hfound
  rcases h with hbefore | hhead
  · simp [hwhole.before] at hbefore
  · obtain ⟨cell, word, rfl⟩ := List.exists_cons_of_ne_nil hwhole.ne_nil
    simpa [hwhole.word cell List.mem_cons_self] using hhead cell rfl

/-- What is found of a whole word is all of it. -/
lemma eq_length_of_finder {word : List Cell} (h : ∀ cell ∈ word, isWordChar cell.char = true) {n : Nat} {what : Unit}
    (hfound : (ofLists commands functions).finder none word = some (n, what)) : n = word.length := by
  obtain ⟨taken, rest, rfl, rfl, hwhole⟩ := finder_eq_some hwords hfound
  cases rest with
  | nil => simp
  | cons cell rest =>
      have hnot := hwhole.behind cell rfl
      simp [h cell] at hnot

/-- **Whether a whole word is found does not depend on what stands around it.** -/
lemma finder_whole {before : Option Char} {word rest : List Cell} (h : Whole before word rest) :
    (ofLists commands functions).finder before (word ++ rest) = (ofLists commands functions).finder none word := by
  have hforms : (ofLists commands functions).formsFor (word ++ rest) = (ofLists commands functions).formsFor word := by
    obtain ⟨cell, word, rfl⟩ := List.exists_cons_of_ne_nil h.ne_nil
    rfl
  have hedge := h.alone.atBoundary
  rw [List.append_nil] at hedge
  rw [finder_eq, finder_eq, hforms, h.atBoundary, hedge]
  congr 1
  refine List.find?_congr fun form hform => ?_
  obtain ⟨⟨hne, hfolded⟩, -⟩ := form_of_words hwords hform
  have hrest : ∀ cell ∈ rest.head?, foldCase cell.char ∉ form.folded := by
    intro cell hcell hmem
    have hword := isWordChar_of_foldCase (hfolded _ hmem).1 (hfolded _ hmem).2
    rw [h.behind cell hcell] at hword
    contradiction
  rw [SearchForm.occursAt_append hrest h.behind, SearchForm.occursAt, SearchForm.occursAt,
    afterFolded?_congr hne before none]

/-- **A whole word is spelled as a whole** if it is found, and stays otherwise. -/
lemma Whole.replaces {before : Option Char} {word rest spelled out : List Cell} (h : Whole before word rest)
    (hnone : (ofLists commands functions).finder none word = none → spelled = word)
    (hsome : ((ofLists commands functions).finder none word).isSome = true →
      spelled = respell (.ofLists commands functions) word)
    (hrest : Replaces (ofLists commands functions).finder (fun taken _ => respell (.ofLists commands functions) taken)
      (word.getLast?.map Cell.char) rest out) :
    Replaces (ofLists commands functions).finder (fun taken _ => respell (.ofLists commands functions) taken)
      before (word ++ rest) (spelled ++ out) := by
  have hfinder := finder_whole hwords h
  cases hfound : (ofLists commands functions).finder none word with
  | none =>
      have hlast : (word.getLast?.map Cell.char).or before = word.getLast?.map Cell.char := by
        rw [List.getLast?_eq_some_getLast h.ne_nil]
        rfl
      rw [hnone hfound]
      refine .pass (fun front cell back hsplit => ?_) (by rwa [hlast])
      cases hfront : front.getLast? with
      | none =>
          obtain rfl := List.getLast?_eq_none_iff.1 hfront
          rw [← List.cons_append, ← List.nil_append (cell :: back), ← hsplit]
          exact hfinder.trans hfound
      | some last =>
          -- inside a word nothing is found
          have hmem : last ∈ word := hsplit ▸ List.mem_append_left _ (List.mem_of_getLast? hfront)
          exact finder_eq_none hwords (.inl (by simpa using h.word last hmem))
  | some found =>
      obtain ⟨n, what⟩ := found
      obtain rfl := eq_length_of_finder hwords h.word hfound
      rw [hsome (by rw [hfound]; rfl)]
      exact .found (hfinder.trans hfound) h.ne_nil hrest

end Vocabulary

end SqfLayout
