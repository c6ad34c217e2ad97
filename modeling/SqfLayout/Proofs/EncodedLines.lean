import SqfLayout.Proofs.Pieces
import SqfLayout.Text.Utf8

/-!
# Encoded lines

A file is searched in bytes, line by line.  The bytes of a text are read back as the text (`decode_encode`),
and the lines of the bytes are the bytes of the lines (`splitAfter_encode`), since the byte of a line feed is
part of no other character.

**Characters.**  The bytes of a character carry the digits of its number to the base of 64, and the ranges of
the first two bytes leave out overlong forms, surrogates and numbers beyond the last one.  There is a lemma
for each number of bytes, and `decodeFrom_encodeChar` puts them together.
-/

namespace SqfLayout.Text

/-! ## Characters -/

section Bytes

variable {a b c d : UInt8}

lemma isContinuation_of_range (hb : 128 ≤ b.toNat ∧ b.toNat ≤ 191) : isContinuation b = true := by
  simpa [isContinuation, UInt8.le_iff_toNat_le] using hb

lemma secondOfThree_of_range (hb : 128 ≤ b.toNat ∧ b.toNat ≤ 191) (hlow : a.toNat = 224 → 160 ≤ b.toNat)
    (hhigh : a.toNat = 237 → b.toNat ≤ 159) : secondOfThree a b = true := by
  unfold secondOfThree
  split
  · next ha =>
      obtain rfl := eq_of_beq ha
      simp [UInt8.le_iff_toNat_le, hlow rfl, hb]
  · split
    · next ha =>
        obtain rfl := eq_of_beq ha
        simp [UInt8.le_iff_toNat_le, hhigh rfl, hb]
    · exact isContinuation_of_range hb

lemma secondOfFour_of_range (hb : 128 ≤ b.toNat ∧ b.toNat ≤ 191) (hlow : a.toNat = 240 → 144 ≤ b.toNat)
    (hhigh : a.toNat = 244 → b.toNat ≤ 143) : secondOfFour a b = true := by
  unfold secondOfFour
  split
  · next ha =>
      obtain rfl := eq_of_beq ha
      simp [UInt8.le_iff_toNat_le, hlow rfl, hb]
  · split
    · next ha =>
        obtain rfl := eq_of_beq ha
        simp [UInt8.le_iff_toNat_le, hhigh rfl, hb]
    · exact isContinuation_of_range hb

/-- The tests of a first byte, by its number. -/
lemma firstByte_iff (a : UInt8) :
    (a < 0x80 ↔ a.toNat < 128) ∧ ((0xC2 ≤ a && a ≤ 0xDF) = true ↔ 194 ≤ a.toNat ∧ a.toNat ≤ 223)
      ∧ ((0xE0 ≤ a && a ≤ 0xEF) = true ↔ 224 ≤ a.toNat ∧ a.toNat ≤ 239)
      ∧ ((0xF0 ≤ a && a ≤ 0xF4) = true ↔ 240 ≤ a.toNat ∧ a.toNat ≤ 244) := by
  simp [UInt8.lt_iff_toNat_lt, UInt8.le_iff_toNat_le]

variable (done : List Char) (i : Nat) (rest : List UInt8)

lemma decodeFrom_one (ha : a.toNat < 128) :
    decodeFrom done i (a :: rest) = decodeFrom (Char.ofNat a.toNat :: done) (i + 1) rest := by
  rw [decodeFrom.eq_def]
  simp only [(firstByte_iff a).1, if_pos ha]

lemma decodeFrom_two (ha : 194 ≤ a.toNat ∧ a.toNat ≤ 223) (hb : 128 ≤ b.toNat ∧ b.toNat ≤ 191) :
    decodeFrom done i (a :: b :: rest)
      = decodeFrom (Char.ofNat (pushBits (a.toNat % 32) b) :: done) (i + 2) rest := by
  obtain ⟨hone, htwo, -⟩ := firstByte_iff a
  rw [decodeFrom.eq_def]
  simp only [hone, if_neg (show ¬a.toNat < 128 by omega), if_pos (htwo.2 ha),
    if_pos (isContinuation_of_range hb)]

lemma decodeFrom_three (ha : 224 ≤ a.toNat ∧ a.toNat ≤ 239) (hb : 128 ≤ b.toNat ∧ b.toNat ≤ 191)
    (hlow : a.toNat = 224 → 160 ≤ b.toNat) (hhigh : a.toNat = 237 → b.toNat ≤ 159)
    (hc : 128 ≤ c.toNat ∧ c.toNat ≤ 191) :
    decodeFrom done i (a :: b :: c :: rest)
      = decodeFrom (Char.ofNat (pushBits (pushBits (a.toNat % 16) b) c) :: done) (i + 3) rest := by
  obtain ⟨hone, htwo, hthree, -⟩ := firstByte_iff a
  rw [decodeFrom.eq_def]
  simp only [hone, if_neg (show ¬a.toNat < 128 by omega), if_neg (fun h => absurd (htwo.1 h) (by omega)),
    if_pos (hthree.2 ha), if_pos (secondOfThree_of_range hb hlow hhigh), if_pos (isContinuation_of_range hc)]

lemma decodeFrom_four (ha : 240 ≤ a.toNat ∧ a.toNat ≤ 244) (hb : 128 ≤ b.toNat ∧ b.toNat ≤ 191)
    (hlow : a.toNat = 240 → 144 ≤ b.toNat) (hhigh : a.toNat = 244 → b.toNat ≤ 143)
    (hc : 128 ≤ c.toNat ∧ c.toNat ≤ 191) (hd : 128 ≤ d.toNat ∧ d.toNat ≤ 191) :
    decodeFrom done i (a :: b :: c :: d :: rest)
      = decodeFrom (Char.ofNat (pushBits (pushBits (pushBits (a.toNat % 8) b) c) d) :: done) (i + 4) rest := by
  obtain ⟨hone, htwo, hthree, hfour⟩ := firstByte_iff a
  rw [decodeFrom.eq_def]
  simp only [hone, if_neg (show ¬a.toNat < 128 by omega), if_neg (fun h => absurd (htwo.1 h) (by omega)),
    if_neg (fun h => absurd (hthree.1 h) (by omega)), if_pos (hfour.2 ha),
    if_pos (secondOfFour_of_range hb hlow hhigh), if_pos (isContinuation_of_range hc),
    if_pos (isContinuation_of_range hd)]

end Bytes

/-- **The bytes of a character are read back as the character.** -/
lemma decodeFrom_encodeChar (c : Char) (done : List Char) (i : Nat) (rest : List UInt8) :
    ∃ next, decodeFrom done i (String.utf8EncodeChar c ++ rest) = decodeFrom (c :: done) next rest := by
  have hvalid : c.toNat < 55296 ∨ 57343 < c.toNat ∧ c.toNat < 1114112 := c.valid
  have hval : c.val.toNat = c.toNat := rfl
  have hc := Char.ofNat_toNat c
  simp only [String.utf8EncodeChar, hval]
  generalize c.toNat = v at hvalid hc ⊢
  subst hc
  have hlast : (UInt8.ofNat (v % 64 + 128)).toNat = v % 64 + 128 := UInt8.toNat_ofNat_of_lt' (show _ < 256 by omega)
  have hthird : (UInt8.ofNat (v / 64 % 64 + 128)).toNat = v / 64 % 64 + 128 :=
    UInt8.toNat_ofNat_of_lt' (show _ < 256 by omega)
  split
  · next hv =>
      have ha : (UInt8.ofNat v).toNat = v := UInt8.toNat_ofNat_of_lt' (show _ < 256 by omega)
      refine ⟨i + 1, ?_⟩
      rw [List.singleton_append, decodeFrom_one done i rest (by omega), ha]
  · split
    · next hv =>
        have ha : (UInt8.ofNat (v / 64 % 32 + 192)).toNat = v / 64 % 32 + 192 :=
          UInt8.toNat_ofNat_of_lt' (show _ < 256 by omega)
        have hbits : (v / 64 % 32 + 192) % 32 * 64 + (v % 64 + 128) % 64 = v := by omega
        refine ⟨i + 2, ?_⟩
        rw [List.cons_append, List.singleton_append, decodeFrom_two done i rest (by omega) (by omega),
          pushBits, ha, hlast, hbits]
    · split
      · next hv =>
          have ha : (UInt8.ofNat (v / 4096 % 16 + 224)).toNat = v / 4096 % 16 + 224 :=
            UInt8.toNat_ofNat_of_lt' (show _ < 256 by omega)
          have hbits : ((v / 4096 % 16 + 224) % 16 * 64 + (v / 64 % 64 + 128) % 64) * 64 + (v % 64 + 128) % 64
              = v := by omega
          refine ⟨i + 3, ?_⟩
          rw [List.cons_append, List.cons_append, List.singleton_append,
            decodeFrom_three done i rest (by omega) (by omega) (by omega) (by omega) (by omega), pushBits,
            pushBits, ha, hthird, hlast, hbits]
      · next hv =>
          have ha : (UInt8.ofNat (v / 262144 % 8 + 240)).toNat = v / 262144 % 8 + 240 :=
            UInt8.toNat_ofNat_of_lt' (show _ < 256 by omega)
          have hb : (UInt8.ofNat (v / 4096 % 64 + 128)).toNat = v / 4096 % 64 + 128 :=
            UInt8.toNat_ofNat_of_lt' (show _ < 256 by omega)
          have hbits : (((v / 262144 % 8 + 240) % 8 * 64 + (v / 4096 % 64 + 128) % 64) * 64
              + (v / 64 % 64 + 128) % 64) * 64 + (v % 64 + 128) % 64 = v := by omega
          refine ⟨i + 4, ?_⟩
          rw [List.cons_append, List.cons_append, List.cons_append, List.singleton_append,
            decodeFrom_four done i rest (by omega) (by omega) (by omega) (by omega) (by omega) (by omega),
            pushBits, pushBits, pushBits, ha, hb, hthird, hlast, hbits]

lemma decodeFrom_encode (text done : List Char) (i : Nat) :
    decodeFrom done i (encode text) = .ok (done.reverse ++ text) := by
  induction text generalizing done i with
  | nil => simp [encode, decodeFrom]
  | cons c text ih =>
      obtain ⟨next, hnext⟩ := decodeFrom_encodeChar c done i (encode text)
      have hbytes : encode (c :: text) = String.utf8EncodeChar c ++ encode text := List.flatMap_cons
      rw [hbytes, hnext, ih]
      simp

/-- **The bytes of a text are read back as the text.** -/
@[simp] lemma decode_encode (text : List Char) : decode (encode text) = .ok text :=
  decodeFrom_encode text [] 0

/-! ## Lines -/

/-- Elements before which there is no divider belong to the first piece. -/
lemma splitAfter_append {α : Type} {p : α → Bool} {xs : List α} (hne : xs ≠ []) (hxs : ∀ x ∈ xs, p x = false)
    (ys : List α) :
    splitAfter p (xs ++ ys) = match splitAfter p ys with
      | [] => [xs]
      | piece :: pieces => (xs ++ piece) :: pieces := by
  induction xs with
  | nil => exact absurd rfl hne
  | cons x xs ih =>
      obtain ⟨hx, hxs⟩ := List.forall_mem_cons.1 hxs
      rw [List.cons_append, splitAfter, if_neg (by simp [hx])]
      by_cases hnil : xs = []
      · subst hnil
        rfl
      · rw [ih hnil hxs]
        cases splitAfter p ys <;> rfl

/-- No byte of another character is a line feed. -/
lemma feed_notMem_encodeChar {c : Char} (hc : c ≠ '\n') : ∀ b ∈ String.utf8EncodeChar c, (b == 10) = false := by
  have hten : c.toNat ≠ 10 := fun h => hc (by rw [← Char.ofNat_toNat c, h])
  have hval : c.val.toNat = c.toNat := rfl
  have hother {n : Nat} (h : n % 256 ≠ 10) : (UInt8.ofNat n == 10) = false := by
    rw [beq_eq_false_iff_ne, Ne, ← UInt8.toNat_inj, UInt8.toNat_ofNat']
    exact h
  intro b hb
  simp only [String.utf8EncodeChar, hval] at hb
  split at hb
  · obtain rfl := List.mem_singleton.1 hb
    exact hother (by omega)
  · split at hb
    · simp only [List.mem_cons, List.not_mem_nil, or_false] at hb
      rcases hb with rfl | rfl <;> exact hother (by omega)
    · split at hb <;> simp only [List.mem_cons, List.not_mem_nil, or_false] at hb
      · rcases hb with rfl | rfl | rfl <;> exact hother (by omega)
      · rcases hb with rfl | rfl | rfl | rfl <;> exact hother (by omega)

/-- **The lines of the bytes of a text are the bytes of its lines.** -/
lemma splitAfter_encode (text : List Char) :
    splitAfter (· == 10) (encode text) = (splitAfter (· == '\n') text).map encode := by
  induction text with
  | nil => rfl
  | cons c text ih =>
      have hbytes : encode (c :: text) = String.utf8EncodeChar c ++ encode text := List.flatMap_cons
      rw [hbytes]
      by_cases hc : c = '\n'
      · subst hc
        have hfeed : splitAfter (· == 10) (String.utf8EncodeChar '\n' ++ encode text)
            = [10] :: splitAfter (· == 10) (encode text) := rfl
        rw [hfeed, ih]
        rfl
      · have hne : String.utf8EncodeChar c ≠ [] := by
          rw [← List.length_pos_iff, String.length_utf8EncodeChar]
          exact c.utf8Size_pos
        rw [splitAfter_append hne (feed_notMem_encodeChar hc), ih, splitAfter, if_neg (by simp [hc])]
        cases splitAfter (· == '\n') text with
        | nil => simp [encode]
        | cons piece pieces => simp [encode]

end SqfLayout.Text
