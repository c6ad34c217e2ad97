import Mathlib.Data.List.Forall2
import SqfLayout.Text.Casing
import SqfLayout.Text.Space
import SqfLayout.Text.Word

/-!
# Letters in two cases

A word that agrees with an entry up to case may be written with other characters than the entry.  For
an entry of ASCII characters this file says which.

**Lower case.**  The only characters with an ASCII lower-case form are the ASCII characters and the
Kelvin sign (`ascii_of_lowerChar`).  The tables decide this: all other rows lead beyond ASCII.

**Recasing.**  `Recased` relates two characters that are the same or share an ASCII lower-case form.
What lower case keeps for those characters is the same on both sides (`Recased.eq_of`): white space,
characters of words and every character that has no case.

**Words.**  Texts with the lower-case form of an ASCII word differ from it by recasing, character for
character (`forall₂_recased`).  The two characters whose lower-case form depends on their surrounding
or has two characters cannot occur in them.
-/

namespace SqfLayout.Text

/-! ## Tables -/

/-- The code points of white space. -/
def spaceCodes : List Nat :=
  [9, 10, 11, 12, 13, 32, 0x85, 0xA0, 0x1680, 0x2000, 0x2001, 0x2002, 0x2003, 0x2004, 0x2005, 0x2006,
    0x2007, 0x2008, 0x2009, 0x200A, 0x2028, 0x2029, 0x202F, 0x205F, 0x3000]

/-- A property of white space, one code point at a time. -/
lemma forall_space {P : Char → Prop} (h : ∀ n ∈ spaceCodes, P (Char.ofNat n)) {c : Char}
    (hc : isSpace c = true) : P c := by
  have hcode : c.toNat ∈ spaceCodes := by
    simp only [isSpace, Bool.or_eq_true, Bool.and_eq_true, decide_eq_true_eq, beq_iff_eq] at hc
    simp only [spaceCodes, List.mem_cons, List.not_mem_nil, or_false]
    omega
  have hofNat := h c.toNat hcode
  rwa [Char.ofNat_toNat] at hofNat

/-- A property of the ASCII characters, one by one. -/
lemma forall_ascii {P : Char → Prop} (h : ∀ n < 128, P (Char.ofNat n)) {c : Char}
    (hc : c.toNat < 128) : P c := by
  have hofNat := h c.toNat hc
  rwa [Char.ofNat_toNat] at hofNat

/-! ## Lower case -/

/-- Whether all code points that a row leads to are characters. -/
def CaseRow.Lands (row : CaseRow) : Prop :=
  row.target + (row.last - row.first) < 0xD800
    ∨ (0xDFFF < row.target ∧ row.target + (row.last - row.first) < 0x110000)

instance (row : CaseRow) : Decidable row.Lands := inferInstanceAs (Decidable (_ ∨ _))

/-- What a table maps, one of its rows maps. -/
lemma exists_row_of_mapByRows {rows : List CaseRow} {n m : Nat} (h : mapByRows rows n = some m) :
    ∃ row ∈ rows, row.first ≤ n ∧ n ≤ row.last ∧ m = row.target + (n - row.first) := by
  induction rows with
  | nil => simp [mapByRows] at h
  | cons row rows ih =>
      simp only [mapByRows] at h
      split at h
      · simp at h
      · split at h
        · next image himage =>
            rw [CaseRow.image?] at himage
            split at himage
            · next hrow =>
                obtain rfl := Option.some.inj himage
                obtain rfl := Option.some.inj h
                exact ⟨row, by simp, hrow.1, hrow.2.1, rfl⟩
            · simp at himage
        · obtain ⟨row', hmem, hrow'⟩ := ih h
          exact ⟨row', by simp [hmem], hrow'⟩

/-- A character with an ASCII image stays as it is or lies in a row that leads to ASCII. -/
lemma mapChar_ascii {rows : List CaseRow} (hlands : ∀ row ∈ rows, row.Lands) {c : Char}
    (h : (mapChar rows c).toNat < 128) :
    mapChar rows c = c ∨ ∃ row ∈ rows, row.target < 128 ∧ row.first ≤ c.toNat ∧ c.toNat ≤ row.last := by
  unfold mapChar at h ⊢
  cases hmap : mapByRows rows c.toNat with
  | none => exact .inl (by simp)
  | some m =>
      obtain ⟨row, hmem, hfirst, hlast, rfl⟩ := exists_row_of_mapByRows hmap
      have hvalid : Nat.isValidChar (row.target + (c.toNat - row.first)) := by
        have hrow := hlands row hmem
        rw [CaseRow.Lands] at hrow
        rw [Nat.isValidChar]
        omega
      have himage : (Char.ofNat (row.target + (c.toNat - row.first))).toNat
          = row.target + (c.toNat - row.first) := by
        rw [Char.ofNat, dif_pos hvalid]
        rfl
      rw [hmap, Option.map_some, Option.getD_some, himage] at h
      exact .inr ⟨row, hmem, by omega, hfirst, hlast⟩

/-- The Kelvin sign, whose lower-case form is the ASCII letter k. -/
def kelvinSign : Char := '\u212A'

/-- The characters that the table of lower case leads to ASCII. -/
lemma ascii_of_lowercaseRows {c : Char} (h : (mapChar lowercaseRows c).toNat < 128) :
    c.toNat < 128 ∨ c = kelvinSign := by
  have hlands : ∀ row ∈ lowercaseRows, row.Lands := by decide +kernel
  rcases mapChar_ascii hlands h with hsame | ⟨row, hmem, htarget, hfirst, hlast⟩
  · rw [hsame] at h
    exact .inl h
  · have hnear : ∀ row ∈ lowercaseRows, row.target < 128 →
        row.last < 128 ∨ (row.first = kelvinSign.toNat ∧ row.last = kelvinSign.toNat) := by
      decide +kernel
    rcases hnear row hmem htarget with hrow | ⟨hrow₁, hrow₂⟩
    · exact .inl (by omega)
    · refine .inr (Char.toNat_inj.1 ?_)
      omega

/-- **The characters with an ASCII lower-case form.** -/
lemma ascii_of_lowerChar {c : Char} (h : (lowerChar c).toNat < 128) :
    c.toNat < 128 ∨ c = kelvinSign := by
  have hnew : mapChar newLowercaseRows (mapChar lowercaseRows c) = mapChar lowercaseRows c := by
    rcases mapChar_ascii (by decide) h with hsame | ⟨row, hmem, htarget, -⟩
    · exact hsame
    · have hfar : ∀ row ∈ newLowercaseRows, ¬ row.target < 128 := by decide
      exact absurd htarget (hfar row hmem)
  rw [lowerChar, hnew] at h
  exact ascii_of_lowercaseRows h

/-! ## Recasing -/

/-- **Two spellings of one character**: the same, or two with the same ASCII lower-case form. -/
def Recased (a b : Char) : Prop :=
  a = b ∨ (lowerChar a = lowerChar b ∧ (lowerChar b).toNat < 128)

lemma Recased.refl (c : Char) : Recased c c := .inl rfl

lemma Recased.trans {a b c : Char} (hab : Recased a b) (hbc : Recased b c) : Recased a c := by
  rcases hab with rfl | ⟨hab, hb⟩
  · exact hbc
  · rcases hbc with rfl | ⟨hbc, hc⟩
    · exact .inr ⟨hab, hb⟩
    · exact .inr ⟨hab.trans hbc, hc⟩

/-- **What lower case keeps, recasing keeps.** -/
lemma Recased.eq_of {β : Type} {f : Char → β} (hkelvin : f (lowerChar kelvinSign) = f kelvinSign)
    (hascii : ∀ n < 128, f (lowerChar (Char.ofNat n)) = f (Char.ofNat n)) {a b : Char}
    (h : Recased a b) : f a = f b := by
  have hlower {c : Char} (hc : (lowerChar c).toNat < 128) : f (lowerChar c) = f c := by
    rcases ascii_of_lowerChar hc with hc | rfl
    · exact forall_ascii (P := fun c => f (lowerChar c) = f c) hascii hc
    · exact hkelvin
  rcases h with rfl | ⟨hsame, hb⟩
  · rfl
  · rw [← hlower (hsame ▸ hb), hsame, hlower hb]

lemma Recased.isSpace_eq {a b : Char} (h : Recased a b) : isSpace a = isSpace b :=
  h.eq_of (by decide) (by decide +kernel)

lemma Recased.isNameChar_eq {a b : Char} (h : Recased a b) : isNameChar a = isNameChar b :=
  h.eq_of (by decide +kernel) (by decide +kernel)

lemma Recased.isWordChar_eq {a b : Char} (h : Recased a b) : isWordChar a = isWordChar b :=
  h.eq_of (by decide +kernel) (by decide +kernel)

lemma Recased.foldCase_eq {a b : Char} (h : Recased a b) : foldCase a = foldCase b :=
  h.eq_of (by decide +kernel) (by decide +kernel)

/-- The characters that the scanner and the layout passes look for. -/
def signs : List Char := ['\'', '"', '/', '*', '\n', '\t', ';', '(', ')', '{', '}']

/-- A sign has no case. -/
lemma Recased.eq_sign_iff {a b : Char} (h : Recased a b) {c : Char} (hc : c ∈ signs) :
    a = c ↔ b = c := by
  have heq : (a == c) = (b == c) := by
    simp only [signs, List.mem_cons, List.not_mem_nil, or_false] at hc
    rcases hc with rfl | rfl | rfl | rfl | rfl | rfl | rfl | rfl | rfl | rfl | rfl <;>
      exact h.eq_of (f := (· == _)) (by decide) (by decide +kernel)
  rw [← beq_iff_eq, heq, beq_iff_eq]

/-! ## Words -/

/-- The characters whose lower-case form is not that of the character alone, or is not one character. -/
def isSpecial (c : Char) : Bool := c == 'Σ' || c == 'İ'

lemma lowercaseAfter_eq_map {before cs : List Char} (h : ∀ c ∈ cs, isSpecial c = false) :
    lowercaseAfter before cs = cs.map lowerChar := by
  induction cs generalizing before with
  | nil => rfl
  | cons c cs ih =>
      obtain ⟨hc, hcs⟩ := List.forall_mem_cons.1 h
      simp only [isSpecial, Bool.or_eq_false_iff] at hc
      simp [lowercaseAfter, hc.1, hc.2, ih hcs]

lemma isSpecial_of_ascii {c : Char} (h : c.toNat < 128) : isSpecial c = false :=
  forall_ascii (P := fun c => isSpecial c = false) (by decide) h

/-- A text with a special character has a lower-case form beyond ASCII. -/
lemma not_special_of_lowercaseAfter {before cs : List Char}
    (h : ∀ c ∈ lowercaseAfter before cs, c.toNat < 128) : ∀ c ∈ cs, isSpecial c = false := by
  induction cs generalizing before with
  | nil => simp
  | cons c cs ih =>
      simp only [lowercaseAfter, List.forall_mem_append] at h
      obtain ⟨hc, hcs⟩ := h
      refine List.forall_mem_cons.2 ⟨?_, ih hcs⟩
      rw [isSpecial, Bool.or_eq_false_iff, beq_eq_false_iff_ne, beq_eq_false_iff_ne]
      constructor
      · rintro rfl
        by_cases hfinal : (casedAhead before && !casedAhead cs) = true
        · exact absurd (hc 'ς' (by simp [hfinal])) (by decide)
        · exact absurd (hc 'σ' (by simp [hfinal])) (by decide)
      · rintro rfl
        exact absurd (hc '\u0307' (by simp)) (by decide)

lemma lowerChar_lt_of_ascii {c : Char} (h : c.toNat < 128) : (lowerChar c).toNat < 128 :=
  forall_ascii (P := fun c => (lowerChar c).toNat < 128) (by decide) h

/-- **A text with the lower-case form of an ASCII word differs from it by recasing.** -/
lemma forall₂_recased {taken word : List Char} (hword : ∀ c ∈ word, c.toNat < 128)
    (h : lowercase taken = lowercase word) : List.Forall₂ Recased taken word := by
  have hlower : lowercase word = word.map lowerChar :=
    lowercaseAfter_eq_map fun c hc => isSpecial_of_ascii (hword c hc)
  have hascii : ∀ c ∈ lowercase taken, c.toNat < 128 := by
    rw [h, hlower, List.forall_mem_map]
    exact fun c hc => lowerChar_lt_of_ascii (hword c hc)
  rw [hlower, lowercase, lowercaseAfter_eq_map (not_special_of_lowercaseAfter hascii)] at h
  have hsame : List.Forall₂ (fun a b => lowerChar a = lowerChar b) taken word := by
    rw [← List.forall₂_map_left_iff (R := fun a b => a = lowerChar b), ← List.forall₂_map_right_iff, h]
    exact List.forall₂_same.2 fun _ _ => rfl
  clear h hlower hascii
  induction hsame with
  | nil => exact .nil
  | cons hab _ ih =>
      obtain ⟨hb, hrest⟩ := List.forall_mem_cons.1 hword
      exact .cons (.inr ⟨hab, lowerChar_lt_of_ascii hb⟩) (ih hrest)

/-- Recased characters have the same lower-case form as texts, too. -/
lemma Recased.lowercase_eq {a b : Char} (h : Recased a b) : lowercase [a] = lowercase [b] := by
  have hplain {c : Char} (hc : (lowerChar c).toNat < 128) : lowercase [c] = [lowerChar c] := by
    refine lowercaseAfter_eq_map fun c' hc' => ?_
    obtain rfl := List.mem_singleton.1 hc'
    rcases ascii_of_lowerChar hc with hc | rfl
    · exact isSpecial_of_ascii hc
    · decide
  rcases h with rfl | ⟨hsame, hb⟩
  · rfl
  · rw [hplain hb, hplain (hsame ▸ hb), hsame]

/-- **What recasing keeps of each character, it keeps of texts.** -/
lemma map_eq_of_recased {β : Type} {f : Char → β} (hf : ∀ {a b : Char}, Recased a b → f a = f b)
    {xs ys : List Char} (h : List.Forall₂ Recased xs ys) : xs.map f = ys.map f := by
  induction h with
  | nil => rfl
  | cons hc _ ih => rw [List.map_cons, List.map_cons, hf hc, ih]

end SqfLayout.Text
