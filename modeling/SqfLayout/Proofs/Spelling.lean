import SqfLayout.Pass.Spelling
import SqfLayout.Proofs.Division
import SqfLayout.Proofs.Letters
import SqfLayout.Proofs.Reading
import SqfLayout.Vocabulary.Builtin

/-!
# What spelling changes

The spelling pass replaces occurrences of entries by the entries.  An occurrence has the lower-case form
of its entry, so for a vocabulary of ASCII words the pass recases characters and does nothing else
(`recased_spellWords`).

**Entries.**  What is looked for comes from the two lists of the vocabulary (`mem_of_mem_groupForms`,
`of_canonical`).  Every entry that is looked for has a character with case, so none is empty and
the finder fits (`finder_fits`).

**The built-in vocabulary.**  Its words have ASCII characters of words (`builtin_words`), so no signs
(`builtin_plain`).
-/

namespace SqfLayout

open SqfLayout.Text SqfLayout.Scan

namespace Vocabulary

/-! ## Entries -/

/-- An entry that survives later ones was there. -/
lemma mem_of_mem_lastEntries {entries : List (List Char × List Char)} {entry : List Char × List Char}
    (h : entry ∈ lastEntries entries) : entry ∈ entries := by
  induction entries with
  | nil => simp [lastEntries] at h
  | cons first rest ih =>
      rw [lastEntries] at h
      split at h
      · exact List.mem_cons_of_mem _ (ih h)
      · rcases List.mem_cons.1 h with rfl | h
        · exact List.mem_cons_self
        · exact List.mem_cons_of_mem _ (ih h)

/-- **An entry of a vocabulary**: a word of its lists that has a character with case, under its
lower-case form. -/
lemma of_mem_spellings {commands functions : List (List Char)} {entry : List Char × List Char}
    (h : entry ∈ (ofLists commands functions).spellings) :
    entry.2 ∈ commands ++ functions ∧ entry.2.any hasCase = true ∧ entry.1 = lowercase entry.2 := by
  obtain ⟨word, hword, rfl⟩ := List.mem_map.1 (mem_of_mem_lastEntries h)
  obtain ⟨hmem, hcase⟩ := List.mem_filter.1 hword
  exact ⟨hmem, hcase, rfl⟩

/-- **The canonical spelling of a word is an entry with the same lower-case form.** -/
lemma of_canonical {commands functions : List (List Char)} {word entry : List Char}
    (h : (ofLists commands functions).canonical? word = some entry) :
    entry ∈ commands ++ functions ∧ lowercase word = lowercase entry := by
  obtain ⟨found, hfound, rfl⟩ := Option.map_eq_some_iff.1 h
  obtain ⟨hmem, -, hkey⟩ := of_mem_spellings (List.mem_of_find?_eq_some hfound)
  have hsame := List.find?_some hfound
  rw [beq_iff_eq, hkey] at hsame
  exact ⟨hmem, hsame.symm⟩

/-! ## Search forms -/

lemma mem_addForm {form other : SearchForm} {initial : Option Char} {forms : List SearchForm}
    {groups : List (Option Char × List SearchForm)} (hgroup : (initial, forms) ∈ addForm form groups)
    (hother : other ∈ forms) : other = form ∨ ∃ group ∈ groups, other ∈ group.2 := by
  induction groups with
  | nil =>
      simp only [addForm, List.mem_singleton, Prod.mk.injEq] at hgroup
      rw [hgroup.2, List.mem_singleton] at hother
      exact .inl hother
  | cons group groups ih =>
      obtain ⟨initial', forms'⟩ := group
      rw [addForm] at hgroup
      split at hgroup
      · rcases List.mem_cons.1 hgroup with heq | hgroup
        · simp only [Prod.mk.injEq] at heq
          rw [heq.2] at hother
          rcases List.mem_cons.1 hother with rfl | hother
          · exact .inl rfl
          · exact .inr ⟨_, List.mem_cons_self, hother⟩
        · exact .inr ⟨_, List.mem_cons_of_mem _ hgroup, hother⟩
      · rcases List.mem_cons.1 hgroup with heq | hgroup
        · simp only [Prod.mk.injEq] at heq
          rw [heq.2] at hother
          exact .inr ⟨_, List.mem_cons_self, hother⟩
        · rcases ih hgroup with rfl | ⟨group, hmem, hother⟩
          · exact .inl rfl
          · exact .inr ⟨group, List.mem_cons_of_mem _ hmem, hother⟩

/-- A form in a group is one of the forms that were grouped. -/
lemma mem_of_mem_groupForms {forms : List SearchForm} {group : Option Char × List SearchForm}
    {form : SearchForm} (hgroup : group ∈ groupForms forms) (hform : form ∈ group.2) :
    form ∈ forms := by
  induction forms generalizing group with
  | nil => simp [groupForms] at hgroup
  | cons first forms ih =>
      rcases mem_addForm hgroup hform with rfl | ⟨group', hgroup', hform'⟩
      · exact List.mem_cons_self
      · exact List.mem_cons_of_mem _ (ih hgroup' hform')

/-- **A form that may occur at a place is the form of a word** that has a character with case. -/
lemma exists_word_of_mem_formsFor {commands functions : List (List Char)} {cells : List Cell}
    {form : SearchForm} (h : form ∈ (ofLists commands functions).formsFor cells) :
    ∃ word ∈ commands ++ functions, word.any hasCase = true ∧ form = .ofWord word := by
  rw [formsFor] at h
  cases hlookup : (ofLists commands functions).searchForms.lookup
      (cells.head?.map fun cell => foldCase cell.char) with
  | none => simp [hlookup] at h
  | some forms =>
      rw [hlookup, Option.getD_some] at h
      obtain ⟨before, behind, hforms, -⟩ := List.lookup_eq_some_iff.1 hlookup
      have hgroup : (cells.head?.map fun cell => foldCase cell.char, forms)
          ∈ (ofLists commands functions).searchForms := by
        rw [hforms]
        simp
      have hform := mem_of_mem_groupForms hgroup h
      obtain ⟨word, hword, rfl⟩ := List.mem_map.1 hform
      obtain ⟨entry, hentry, rfl⟩ := List.mem_map.1 (List.mem_mergeSort.1 hword)
      obtain ⟨hmem, hcase, -⟩ := of_mem_spellings hentry
      exact ⟨entry.2, hmem, hcase, rfl⟩

/-- So it is not empty. -/
lemma folded_ne_nil {commands functions : List (List Char)} {cells : List Cell} {form : SearchForm}
    (h : form ∈ (ofLists commands functions).formsFor cells) : form.folded ≠ [] := by
  obtain ⟨word, -, hcase, rfl⟩ := exists_word_of_mem_formsFor h
  intro hnil
  rw [SearchForm.ofWord, List.map_eq_nil_iff] at hnil
  simp [hnil] at hcase

/-- A form that occurs is not longer than the text. -/
lemma length_le_of_afterFolded {before last : Option Char} {folded : List Char}
    {cells rest : List Cell} (h : afterFolded? before folded cells = some (last, rest)) :
    folded.length ≤ cells.length := by
  fun_induction afterFolded? before folded cells with
  | case1 before cells => simp
  | case2 before c folded => simp at h
  | case3 before c folded cell cells hfold ih =>
      have hle := ih h
      simp only [List.length_cons]
      omega
  | case4 before c folded cell cells hfold => simp at h

/-- **The finder of a vocabulary fits.** -/
lemma finder_fits (commands functions : List (List Char)) :
    (ofLists commands functions).finder.Fits := by
  intro before cells n what h
  simp only [finder] at h
  split at h
  · simp at h
  · obtain ⟨form, hform, heq⟩ := Option.map_eq_some_iff.1 h
    obtain ⟨rfl, -⟩ := Prod.mk.inj heq
    have hoccurs := List.find?_some hform
    refine ⟨List.length_pos_iff.2 (folded_ne_nil (List.mem_of_find?_eq_some hform)), ?_⟩
    rw [SearchForm.occursAt, Bool.and_eq_true] at hoccurs
    obtain ⟨-, hoccurs⟩ := hoccurs
    split at hoccurs
    · simp at hoccurs
    · next hafter => exact length_le_of_afterFolded hafter

end Vocabulary

namespace Pass

/-! ## The pass -/

/-- An occurrence and its canonical spelling differ by recasing. -/
lemma recased_respell {commands functions : List (List Char)}
    (hwords : ∀ word ∈ commands ++ functions, ∀ c ∈ word, c.toNat < 128) (taken : List Cell) :
    List.Forall₂ Recased (chars taken) (chars (respell (.ofLists commands functions) taken)) := by
  have hsame : List.Forall₂ Recased (chars taken) (chars taken) :=
    List.forall₂_same.2 fun c _ => .refl c
  unfold respell
  split
  · next hhead =>
      rw [List.head?_eq_none_iff.1 hhead]
      exact .nil
  · split
    · exact hsame
    · split
      · exact hsame
      · next word hword =>
          obtain ⟨hmem, hlower⟩ := Vocabulary.of_canonical hword
          rw [chars_map_mk]
          exact forall₂_recased (hwords word hmem) hlower

/-- **The spelling pass recases characters and does nothing else**, with a vocabulary of ASCII words. -/
theorem recased_spellWords {commands functions : List (List Char)}
    (hwords : ∀ word ∈ commands ++ functions, ∀ c ∈ word, c.toNat < 128) (text : List Char) :
    List.Forall₂ Recased text (spellWords (.ofLists commands functions) text) := by
  rw [spellWords]
  split
  · exact List.forall₂_same.2 fun c _ => .refl c
  · conv => arg 2; rw [← chars_label text]
    refine replaceFound_rel (R := fun a b => List.Forall₂ Recased (chars a) (chars b))
      (Vocabulary.finder_fits commands functions) (fun cells => ?_) (fun a b c d hab hcd => ?_)
      (fun before taken rest what _ => recased_respell hwords taken) _
    · exact List.forall₂_same.2 fun c _ => .refl c
    · rw [chars_append, chars_append]
      exact List.rel_append hab hcd

end Pass

/-! ## The built-in vocabulary -/

/-- The code of an ASCII digit or letter or of the underscore. -/
def isWordCode (n : Nat) : Bool :=
  (Nat.ble 48 n && Nat.ble n 57) || (Nat.ble 65 n && Nat.ble n 90) || n == 95 || (Nat.ble 97 n && Nat.ble n 122)

lemma of_isWordCode {n : Nat} (h : isWordCode n = true) : 48 ≤ n ∧ n < 128 := by
  simp only [isWordCode, Bool.or_eq_true, Bool.and_eq_true, Nat.ble_eq, beq_iff_eq] at h
  omega

/-- The characters of a string of such bytes are those bytes: any other character would be encoded with a
first byte beyond ASCII. -/
lemma isWordCode_of_bytes {s : String} (h : s.toByteArray.data.toList.all (isWordCode ·.toNat) = true) :
    ∀ c ∈ s.toList, isWordCode c.toNat = true := by
  intro c hc
  have hbytes : ∀ b ∈ String.utf8EncodeChar c, isWordCode b.toNat = true := by
    intro b hb
    have hmem : b ∈ s.toByteArray.data.toList := by
      rw [← String.utf8Encode_toList, List.utf8Encode, List.data_toByteArray]
      exact List.mem_flatMap.2 ⟨c, hc, hb⟩
    exact List.all_eq_true.1 h b hmem
  have hfirst : ∀ b, (String.utf8EncodeChar c).head? = some b → isWordCode b.toNat = true :=
    fun b hb => hbytes b (List.mem_of_head? hb)
  have hval : c.val.toNat = c.toNat := rfl
  simp only [String.utf8EncodeChar] at hfirst
  split at hfirst
  · next hle =>
      have hbyte := hfirst _ rfl
      rwa [UInt8.toNat_ofNat', Nat.mod_eq_of_lt (by omega)] at hbyte
  · -- the first of several bytes has its highest bit set
    exfalso
    split at hfirst
    · have hbyte := of_isWordCode (hfirst _ rfl)
      rw [UInt8.toNat_ofNat'] at hbyte
      omega
    · split at hfirst
      · have hbyte := of_isWordCode (hfirst _ rfl)
        rw [UInt8.toNat_ofNat'] at hbyte
        omega
      · have hbyte := of_isWordCode (hfirst _ rfl)
        rw [UInt8.toNat_ofNat'] at hbyte
        omega

lemma builtin_isWordCode :
    ∀ word ∈ builtinCommands.map String.toList ++ builtinFunctions.map String.toList,
      ∀ c ∈ word, isWordCode c.toNat = true := by
  have hall : (builtinCommands ++ builtinFunctions).all
      (fun word => word.toByteArray.data.toList.all (isWordCode ·.toNat)) = true := by
    decide +kernel
  intro word hword
  rw [← List.map_append] at hword
  obtain ⟨s, hs, rfl⟩ := List.mem_map.1 hword
  exact isWordCode_of_bytes (List.all_eq_true.1 hall s hs)

/-- ASCII digits, letters and the underscore are characters of words. -/
lemma word_of_isWordCode {c : Char} (h : isWordCode c.toNat = true) : c.toNat < 128 ∧ isWordChar c = true :=
  ⟨(of_isWordCode h).2, forall_ascii (P := fun c => isWordCode c.toNat = true → isWordChar c = true)
    (by decide +kernel) (of_isWordCode h).2 h⟩

/-- **The built-in words are words**: their characters are ASCII characters of words. -/
theorem builtin_words :
    ∀ word ∈ builtinCommands.map String.toList ++ builtinFunctions.map String.toList,
      ∀ c ∈ word, c.toNat < 128 ∧ isWordChar c = true :=
  fun word hword c hc => word_of_isWordCode (builtin_isWordCode word hword c hc)

/-- **The built-in words are plain**: their characters are ASCII and none is a quote, a slash, a star
or white space. -/
theorem builtin_plain :
    ∀ word ∈ builtinCommands.map String.toList ++ builtinFunctions.map String.toList,
      ∀ c ∈ word, 48 ≤ c.toNat ∧ c.toNat < 128 :=
  fun word hword c hc => of_isWordCode (builtin_isWordCode word hword c hc)

end SqfLayout
