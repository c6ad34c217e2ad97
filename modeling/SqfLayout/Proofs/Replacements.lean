import SqfLayout.Proofs.Selections

/-!
# What an edit leaves alone

An edit gives a range by two offsets, and nothing forces them to be in order, inside the document or between
characters.  This file says which edits leave a document as it is, and which of them are reported to do so.

**Offsets.**  `IsBoundary`: a text can be divided at an offset.  Dividing and slicing are told by the parts
that they find (`splitAtByte?_eq_some_iff`, `slice?_eq_some_iff`).

**Ranges.**  `TextEdit.Fits`: the range is a part of the document.  `TextEdit.Stands`: the new text is that
part already, which is what `isNoop` tests (`TextEdit.isNoop_iff`).  An edit that fits leaves the document
as it is only if its text stands there (`TextEdit.Fits.apply_eq_self_iff`).

**Ranges that do not fit.**  Such an edit is carried out as the `clamped` one, or not at all if that one
does not fit either, but it is never reported to change nothing.  So the report is wrong for the edits that
do not fit and change nothing all the same, and for no others (`TextEdit.isNoop_iff_unchanged_iff`).
-/

namespace SqfLayout.Text

/-! ## Offsets -/

/-- **An offset at which a text can be divided**: it falls inside no character and not beyond the end. -/
def IsBoundary (offset : Nat) (text : List Char) : Prop :=
  ∃ front back, text = front ++ back ∧ byteLength front = offset

/-- **A text is divided into the parts that meet at the offset.** -/
lemma splitAtByte?_eq_some_iff {offset : Nat} {text front back : List Char} :
    splitAtByte? offset text = some (front, back) ↔ text = front ++ back ∧ byteLength front = offset := by
  constructor
  · intro h
    induction text generalizing offset front with
    | nil =>
        cases offset with
        | zero => simp_all [splitAtByte?, byteLength]
        | succ n => simp [splitAtByte?] at h
    | cons c text ih =>
        cases offset with
        | zero =>
            obtain ⟨rfl, rfl⟩ := Prod.mk.inj (Option.some.inj h)
            exact ⟨rfl, rfl⟩
        | succ n =>
            rw [splitAtByte?] at h
            split_ifs at h with hfits
            obtain ⟨⟨inner, back'⟩, hparts, hsame⟩ := Option.map_eq_some_iff.1 h
            obtain ⟨rfl, rfl⟩ := Prod.mk.inj hsame
            obtain ⟨htext, hlength⟩ := ih hparts
            refine ⟨by rw [htext, List.cons_append], ?_⟩
            rw [byteLength, hlength]
            omega
  · rintro ⟨rfl, rfl⟩
    exact splitAtByte?_append front back

/-- **The part between two offsets** is the part that starts and ends there. -/
lemma slice?_eq_some_iff {start stop : Nat} {text mid : List Char} :
    slice? start stop text = some mid ↔
      ∃ front back, text = front ++ (mid ++ back) ∧ byteLength front = start
        ∧ byteLength front + byteLength mid = stop := by
  constructor
  · intro h
    rw [slice?] at h
    split_ifs at h with horder
    obtain ⟨⟨front, rest⟩, hfront, hrest⟩ := Option.bind_eq_some_iff.1 h
    obtain ⟨⟨inner, back⟩, hinner, rfl⟩ := Option.map_eq_some_iff.1 hrest
    obtain ⟨rfl, hstart⟩ := splitAtByte?_eq_some_iff.1 hfront
    obtain ⟨hparts, hstop⟩ := splitAtByte?_eq_some_iff.1 hinner
    refine ⟨front, back, congrArg (front ++ ·) hparts, hstart, ?_⟩
    show byteLength front + byteLength inner = stop
    omega
  · rintro ⟨front, back, rfl, rfl, rfl⟩
    exact slice?_append front mid back

lemma IsBoundary.le {offset : Nat} {text : List Char} (h : IsBoundary offset text) :
    offset ≤ byteLength text := by
  obtain ⟨front, back, rfl, rfl⟩ := h
  simp

lemma splitAtByte?_eq_none_iff {offset : Nat} {text : List Char} :
    splitAtByte? offset text = none ↔ ¬ IsBoundary offset text := by
  constructor
  · rintro h ⟨front, back, rfl, rfl⟩
    simp [splitAtByte?_append] at h
  · intro h
    cases hparts : splitAtByte? offset text with
    | none => rfl
    | some parts =>
        obtain ⟨htext, hlength⟩ := splitAtByte?_eq_some_iff.1 hparts
        exact absurd ⟨parts.1, parts.2, htext, hlength⟩ h

lemma eq_nil_of_byteLength {text : List Char} (h : byteLength text = 0) : text = [] := by
  cases text with
  | nil => rfl
  | cons c text =>
      have hpos := c.utf8Size_pos
      rw [byteLength] at h
      omega

/-- Two boundaries in order divide a text into three parts. -/
lemma exists_parts_of_isBoundary {start stop : Nat} {text : List Char} (hstart : IsBoundary start text)
    (hstop : IsBoundary stop text) (horder : start ≤ stop) :
    ∃ front mid back, text = front ++ (mid ++ back) ∧ byteLength front = start
      ∧ byteLength front + byteLength mid = stop := by
  obtain ⟨front, rest, rfl, rfl⟩ := hstart
  obtain ⟨front', back, hparts, rfl⟩ := hstop
  rcases List.append_eq_append_iff.1 hparts with ⟨mid, rfl, rfl⟩ | ⟨mid, rfl, rfl⟩
  · exact ⟨front, mid, back, rfl, rfl, (byteLength_append front mid).symm⟩
  · -- the second offset is not behind the first one, so nothing lies between them
    rw [byteLength_append] at horder
    obtain rfl := eq_nil_of_byteLength (show byteLength mid = 0 by omega)
    exact ⟨front', [], rest, by simp, by simp, by simp [byteLength]⟩

end SqfLayout.Text

namespace SqfLayout.TextEdit

open SqfLayout.Text

/-! ## Ranges that fit -/

/-- **An edit fits a document** if its range is a part of it. -/
structure Fits (edit : TextEdit) (document : List Char) : Prop where
  order : edit.start ≤ edit.stop
  start : IsBoundary edit.start document
  stop : IsBoundary edit.stop document

/-- **The new text stands in its range already.** -/
def Stands (edit : TextEdit) (document : List Char) : Prop :=
  ∃ front back, document = front ++ (edit.newText ++ back) ∧ byteLength front = edit.start
    ∧ byteLength front + byteLength edit.newText = edit.stop

lemma isNoop_iff {edit : TextEdit} {document : List Char} :
    edit.isNoop document = true ↔ edit.Stands document := by
  rw [isNoop, beq_iff_eq]
  exact slice?_eq_some_iff

variable {edit : TextEdit} {document : List Char}

section Parts

variable {front mid back : List Char}

/-- A range that is a part of the document fits. -/
lemma fits_of_parts (hparts : document = front ++ (mid ++ back)) (hstart : byteLength front = edit.start)
    (hstop : byteLength front + byteLength mid = edit.stop) : edit.Fits document := by
  refine ⟨by omega, ⟨front, _, hparts, hstart⟩, ⟨front ++ mid, back, ?_, ?_⟩⟩
  · rw [hparts, List.append_assoc]
  · rw [byteLength_append, hstop]

/-- The new text takes the place of the part that is the range. -/
lemma apply_of_parts (hparts : document = front ++ (mid ++ back)) (hstart : byteLength front = edit.start)
    (hstop : byteLength front + byteLength mid = edit.stop) :
    edit.apply document = front ++ (edit.newText ++ back) := by
  have happly := apply_parts front mid back edit.newText
  rwa [hstop, hstart, ← hparts] at happly

end Parts

lemma Stands.fits (h : edit.Stands document) : edit.Fits document := by
  obtain ⟨front, back, hparts, hstart, hstop⟩ := h
  exact fits_of_parts hparts hstart hstop

/-- **An edit that fits leaves a document as it is only if its text stands there.** -/
lemma Fits.apply_eq_self_iff (h : edit.Fits document) :
    edit.apply document = document ↔ edit.Stands document := by
  obtain ⟨front, mid, back, rfl, hstart, hstop⟩ :=
    exists_parts_of_isBoundary h.start h.stop h.order
  rw [apply_of_parts rfl hstart hstop]
  constructor
  · intro hsame
    obtain rfl : edit.newText = mid := List.append_cancel_right (List.append_cancel_left hsame)
    exact ⟨front, back, rfl, hstart, hstop⟩
  · intro hstands
    have hnew : slice? edit.start edit.stop (front ++ (mid ++ back)) = some edit.newText :=
      slice?_eq_some_iff.2 hstands
    have hmid : slice? edit.start edit.stop (front ++ (mid ++ back)) = some mid :=
      slice?_eq_some_iff.2 ⟨front, back, rfl, hstart, hstop⟩
    rw [Option.some.inj (hnew.symm.trans hmid)]

/-! ## Ranges that do not fit -/

/-- **The edit with its range cut off** at the end of the document.  A range that ends before it starts becomes
the empty one at its end. -/
def clamped (edit : TextEdit) (document : List Char) : TextEdit :=
  { edit with
    start := min edit.start (min edit.stop (byteLength document))
    stop := min edit.stop (byteLength document) }

/-- An edit is carried out as the clamped one. -/
lemma apply_clamped (edit : TextEdit) (document : List Char) :
    (edit.clamped document).apply document = edit.apply document := by
  simp only [clamped, apply, Nat.min_assoc, Nat.min_self]

/-- If not even the clamped range fits, it divides a character, and the edit does nothing. -/
lemma apply_eq_self_of_not_fits (h : ¬ (edit.clamped document).Fits document) : edit.apply document = document := by
  have hnone : splitAtByte? (edit.clamped document).start document = none
      ∨ splitAtByte? (edit.clamped document).stop document = none := by
    rw [splitAtByte?_eq_none_iff, splitAtByte?_eq_none_iff, ← not_and_or]
    rintro ⟨hstart, hstop⟩
    exact h ⟨Nat.min_le_right _ _, hstart, hstop⟩
  simp only [clamped] at hnone
  simp only [apply]
  split
  · next hstart hstop =>
      rcases hnone with hnone | hnone
      · simp [hnone] at hstart
      · simp [hnone] at hstop
  · rfl

/-- **What is reported to change nothing changes nothing, and the report fails to come for the edits that do
not fit and change nothing.**  Those are the ones whose range, cut off at the end of the document, divides a
character or holds the new text already. -/
theorem isNoop_iff_unchanged_iff (edit : TextEdit) (document : List Char) :
    (edit.isNoop document = true → edit.apply document = document)
      ∧ ((edit.isNoop document = true ↔ edit.apply document = document)
        ↔ edit.Fits document
          ∨ (edit.clamped document).Fits document ∧ ¬ (edit.clamped document).Stands document) := by
  rw [isNoop_iff]
  refine ⟨fun hstands => hstands.fits.apply_eq_self_iff.2 hstands, ?_⟩
  by_cases hfits : edit.Fits document
  · exact iff_of_true hfits.apply_eq_self_iff.symm (.inl hfits)
  · -- no report comes, so it is right if and only if the document changes
    have hreport : ¬ edit.Stands document := fun hstands => hfits hstands.fits
    rw [iff_false_left hreport, or_iff_right hfits]
    by_cases hclamped : (edit.clamped document).Fits document
    · rw [← apply_clamped, hclamped.apply_eq_self_iff, and_iff_right hclamped]
    · have hsame := apply_eq_self_of_not_fits hclamped
      exact iff_of_false (fun hchanged => hchanged hsame) fun h => hclamped h.1

/-- A range inside a character: nothing changes, and that is not reported. -/
theorem isNoop_inside_character :
    ¬ ((⟨7, 8, ['a']⟩ : TextEdit).isNoop "hint \"ä\";".toList = true
      ↔ (⟨7, 8, ['a']⟩ : TextEdit).apply "hint \"ä\";".toList = "hint \"ä\";".toList) := by
  decide

end SqfLayout.TextEdit
