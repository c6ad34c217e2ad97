import SqfLayout.Proofs.ReadBack

/-!
# One statement to a line

The statements pass decides behind every semicolon of code whether a line starts there.  It looks at the text
that it reads, and what is said here is about the text that it writes.

**What is changed.**  `LinesBroken` puts line feeds behind semicolons where more follows on the line, and
changes nothing else.

**What is left.**  Behind a semicolon the line ends, or another semicolon or a line comment follows
(`EndsThere`).  What stands behind a semicolon starts with the same characters before and after the pass
(`keepsLine_replaced`), so the pass leaves no semicolon that it would break (`statementsEnd_replaced`), and a
text without such semicolons stays as it is (`splitStatements_eq_self`).
-/

namespace SqfLayout.Pass

open SqfLayout.Text SqfLayout.Scan

/-- **What may follow a semicolon and the blanks behind it**: the end of the text or of the line, another
semicolon, or a line comment. -/
def EndsThere (rest : List Cell) : Prop :=
  rest = [] ∨ (∃ cell ∈ rest.head?, cell.char = '\n' ∨ cell.char = '\r' ∨ cell.char = ';')
    ∨ ∃ back, rest = ⟨'/', .comment⟩ :: ⟨'/', .comment⟩ :: back

/-- **A text with line feeds behind some of its semicolons of code**, each in the place of all blanks behind
the semicolon and before something that goes on with the line. -/
inductive LinesBroken : List Cell → List Char → Prop
  | done : LinesBroken [] []
  | keep {rest : List Cell} {out : List Char} (cell : Cell) :
      LinesBroken rest out → LinesBroken (cell :: rest) (cell.char :: out)
  | feed {blanks rest : List Cell} {out : List Char} :
      AllBlank blanks → (∀ cell ∈ rest.head?, isBlank cell.char = false) → ¬ EndsThere rest →
      LinesBroken rest out → LinesBroken (.code ';' :: (blanks ++ rest)) (';' :: '\n' :: out)

lemma LinesBroken.append {a b : List Cell} {out : List Char} (h : LinesBroken b out) :
    LinesBroken (a ++ b) (chars a ++ out) := by
  induction a with
  | nil => exact h
  | cons cell a ih => exact .keep cell ih

/-! ## Semicolons -/

lemma semicolonFinder_eq_none {before : Option Char} {cell : Cell} {rest : List Cell}
    (h : semicolonFinder before (cell :: rest) = none) : cell ≠ .code ';' := by
  rintro rfl
  simp [semicolonFinder, Cell.isCode] at h

/-- **A semicolon with all blanks behind it**, and what becomes of the blanks. -/
lemma semicolonFinder_found {before : Option Char} {taken rest put : List Cell}
    (h : semicolonFinder before (taken ++ rest) = some (taken.length, put)) :
    ∃ blanks, taken = .code ';' :: blanks ∧ AllBlank blanks
      ∧ (∀ cell ∈ rest.head?, isBlank cell.char = false)
      ∧ put = .code ';' :: if keepsLine rest then blanks else [.code '\n'] := by
  obtain ⟨blanks, rfl, hblanks, -⟩ := semicolonFinder_taken h
  -- the finder takes every blank there is
  simp only [semicolonFinder, List.cons_append, Cell.isCode, kind_code, char_code, beq_self_eq_true,
    Bool.and_self, if_true, List.length_cons, Option.some.injEq, Prod.mk.injEq] at h
  obtain ⟨hlength, rfl⟩ := h
  have hsplit : _ = blanks ++ rest :=
    List.takeWhile_append_dropWhile (p := fun cell : Cell => isBlank cell.char) (l := blanks ++ rest)
  obtain ⟨htake, hdrop⟩ := List.append_inj hsplit (by omega)
  refine ⟨blanks, rfl, hblanks, ?_, ?_⟩
  · rw [← hdrop]
    exact head?_dropWhile _ _
  · rw [htake, List.drop_left]

/-! ## What follows a semicolon -/

/-- **No semicolon of code has more behind it on its line.** -/
def StatementsEnd (cells : List Cell) : Prop :=
  ∀ tail, .code ';' :: tail <:+ cells → keepsLine (tail.dropWhile fun cell => isBlank cell.char) = true

lemma statementsEnd_cons {cell : Cell} {rest : List Cell} (hrest : StatementsEnd rest)
    (hcell : cell = .code ';' → keepsLine (rest.dropWhile fun cell => isBlank cell.char) = true) :
    StatementsEnd (cell :: rest) := by
  intro tail hsuffix
  rcases List.suffix_cons_iff.1 hsuffix with heq | hsuffix
  · obtain ⟨rfl, rfl⟩ := List.cons.inj heq
    exact hcell rfl
  · exact hrest tail hsuffix

lemma statementsEnd_blanks {blanks rest : List Cell} (hblanks : AllBlank blanks) (hrest : StatementsEnd rest) :
    StatementsEnd (blanks ++ rest) := by
  induction blanks with
  | nil => exact hrest
  | cons cell blanks ih =>
      obtain ⟨hcell, hblanks⟩ := List.forall_mem_cons.1 hblanks
      refine statementsEnd_cons (ih hblanks) ?_
      rintro rfl
      exact absurd hcell (by decide)

/-- The pass starts a text as it was. -/
lemma head?_replaced {before : Option Char} {cells : List Cell} {segs : List (Segment (List Cell))}
    (h : Division semicolonFinder before cells segs) :
    (segs.flatMap (Segment.replaced fun _ put => put)).head? = cells.head? := by
  cases h with
  | done => rfl
  | plain _ _ => rfl
  | found hfound _ _ =>
      obtain ⟨blanks, rfl, -, -, rfl⟩ := semicolonFinder_found hfound
      rfl

/-- **So the pass keeps what decides about the line of a semicolon before it.** -/
lemma keepsLine_replaced {before : Option Char} {cells : List Cell} {segs : List (Segment (List Cell))}
    (h : Division semicolonFinder before cells segs) :
    keepsLine (segs.flatMap (Segment.replaced fun _ put => put)) = keepsLine cells := by
  cases h with
  | done => rfl
  | @plain _ cell rest segs _ hrest =>
      rw [List.flatMap_cons, Segment.replaced, List.singleton_append, keepsLine, keepsLine, head?_replaced hrest]
  | found hfound _ _ =>
      obtain ⟨blanks, rfl, -, -, rfl⟩ := semicolonFinder_found hfound
      simp [Segment.replaced, keepsLine]

/-- **The pass leaves no semicolon with more behind it on its line.** -/
lemma statementsEnd_replaced {before : Option Char} {cells : List Cell} {segs : List (Segment (List Cell))}
    (h : Division semicolonFinder before cells segs) :
    StatementsEnd (segs.flatMap (Segment.replaced fun _ put => put)) := by
  induction h with
  | done => simp [StatementsEnd]
  | plain hnone _ ih => exact statementsEnd_cons ih fun hcell => absurd hcell (semicolonFinder_eq_none hnone)
  | @found before taken rest put segs hfound _ hdivision ih =>
      obtain ⟨blanks, rfl, hblanks, hhead, rfl⟩ := semicolonFinder_found hfound
      rw [List.flatMap_cons, Segment.replaced, List.cons_append]
      split
      · next hkeeps =>
          refine statementsEnd_cons (statementsEnd_blanks hblanks ih) fun _ => ?_
          rw [(hblanks.takeWhile_append (by rwa [head?_replaced hdivision])).2, keepsLine_replaced hdivision]
          exact hkeeps
      · refine statementsEnd_cons (statementsEnd_cons ih fun heq => ?_) fun _ => rfl
        exact absurd heq (by decide)

/-- **A text in which statements end stays as it is.** -/
lemma splitStatements_eq_self {text : List Char} (h : StatementsEnd (label text)) : splitStatements text = text := by
  rw [splitStatements, replaceFound_eq_self semicolonFinder_fits, chars_label]
  intro before taken rest put hsuffix hfound
  obtain ⟨blanks, rfl, hblanks, hhead, rfl⟩ := semicolonFinder_found hfound
  have hkeeps := h (blanks ++ rest) hsuffix
  rw [(hblanks.takeWhile_append hhead).2] at hkeeps
  rw [if_pos hkeeps]

lemma statementsEnd_splitStatements (text : List Char) : StatementsEnd (label (splitStatements text)) := by
  rw [label_splitStatements, replaceFound_eq]
  exact statementsEnd_replaced (division_segments semicolonFinder_fits (label text))

/-- **A second run of the pass changes nothing.** -/
lemma splitStatements_splitStatements (text : List Char) :
    splitStatements (splitStatements text) = splitStatements text :=
  splitStatements_eq_self (statementsEnd_splitStatements text)

/-! ## The pass -/

lemma keepsLine_of_endsThere {rest : List Cell} (h : EndsThere rest) : keepsLine rest = true := by
  rcases h with rfl | ⟨cell, hcell, hchar⟩ | ⟨back, rfl⟩
  · rfl
  · obtain ⟨rest, rfl⟩ := List.head?_eq_some_iff.1 hcell
    rcases hchar with hchar | hchar | hchar <;> simp [keepsLine, hchar]
  · rfl

/-- Behind a semicolon of code two slashes start a comment. -/
lemma endsThere_of_keepsLine {start stop : Cursor} {follow : Option Char} {blanks rest : List Cell}
    (h : Reads start (.code ';' :: (blanks ++ rest)) follow stop) (hblanks : AllBlank blanks)
    (hkeeps : keepsLine rest = true) : EndsThere rest := by
  cases rest with
  | nil => exact .inl rfl
  | cons cell rest =>
      simp only [keepsLine, Bool.or_eq_true, beq_iff_eq, Bool.and_eq_true] at hkeeps
      rcases hkeeps with ((hchar | hchar) | hchar) | ⟨hslash, hnext⟩
      · exact .inr (.inl ⟨cell, rfl, .inl hchar⟩)
      · exact .inr (.inl ⟨cell, rfl, .inr (.inl hchar)⟩)
      · exact .inr (.inl ⟨cell, rfl, .inr (.inr hchar)⟩)
      · cases rest with
        | nil => simp at hnext
        | cons second back =>
            obtain ⟨rfl, rfl⟩ := comment_of_slashes h hblanks.allSpace hslash (by simpa using hnext)
            exact .inr (.inr ⟨back, rfl⟩)

/-- The pass puts line feeds behind semicolons and does nothing else. -/
lemma linesBroken_replaced {before : Option Char} {cells : List Cell} {segs : List (Segment (List Cell))}
    (h : Division semicolonFinder before cells segs) :
    LinesBroken cells (chars (segs.flatMap (Segment.replaced fun _ put => put))) := by
  induction h with
  | done => exact .done
  | plain _ _ ih => exact .keep _ ih
  | found hfound _ _ ih =>
      obtain ⟨blanks, rfl, hblanks, hhead, rfl⟩ := semicolonFinder_found hfound
      rw [List.flatMap_cons, Segment.replaced, chars_append]
      split
      · exact ih.append
      · next hbreaks => exact .feed hblanks hhead (fun hends => hbreaks (keepsLine_of_endsThere hends)) ih

/-- **One statement to a line.**  The pass puts a line feed in the place of the blanks behind some semicolons
of code, where more follows on the line, and changes nothing else.  In the text that it writes, every semicolon
of code is followed, behind blanks, by the end of the text or of the line, by another semicolon or by a line
comment. -/
theorem splitStatements_layout (text : List Char) :
    LinesBroken (label text) (splitStatements text)
      ∧ ∀ before after, label (splitStatements text) = before ++ .code ';' :: after →
        ∃ blanks rest, after = blanks ++ rest ∧ AllBlank blanks ∧ EndsThere rest := by
  have hdivision := division_segments semicolonFinder_fits (label text)
  refine ⟨?_, fun before after hlabel => ?_⟩
  · rw [splitStatements, replaceFound_eq]
    exact linesBroken_replaced hdivision
  · have hreads := reads_label (splitStatements text)
    rw [hlabel] at hreads
    obtain ⟨mid, -, hafter⟩ := reads_append.1 hreads
    have hblanks := allBlank_takeWhile after
    have hsplit : after = _ ++ _ :=
      (List.takeWhile_append_dropWhile (p := fun cell : Cell => isBlank cell.char) (l := after)).symm
    have hkeeps := statementsEnd_splitStatements text after ⟨before, hlabel.symm⟩
    rw [hsplit] at hafter
    exact ⟨_, _, hsplit, hblanks, endsThere_of_keepsLine hafter hblanks hkeeps⟩

/-- Semicolons before code, a block comment, another semicolon and a line comment, and one in a literal. -/
theorem splitStatements_layout_mixed :
    splitStatements "a; \t';b';/* c */; ; d; // e;".toList = "a;\n';b';\n/* c */; ;\nd; // e;".toList
      ∧ ∃ blanks rest, (label "; ;\nd; // e;".toList).drop 1 = blanks ++ rest ∧ AllBlank blanks ∧ EndsThere rest := by
  have h := splitStatements_layout "a; \t';b';/* c */; ; d; // e;".toList
  have htext : splitStatements "a; \t';b';/* c */; ; d; // e;".toList
      = "a;\n';b';\n/* c */; ;\nd; // e;".toList := by
    decide +kernel
  rw [htext] at h
  exact ⟨htext, h.2 ((label "a;\n';b';\n/* c */; ;\nd; // e;".toList).take 16) _ (by decide +kernel)⟩

end SqfLayout.Pass
