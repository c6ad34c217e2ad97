import SqfLayout.Proofs.Rereading

/-!
# What a pass writes and reads back

A pass works on cells and writes a text; a second run of the pass, or the reader of a statement about the
text, starts from the cells that the scanner finds in it.

**Cells.**  Parentheses, statements, operators and braces write texts in which the scanner finds the cells that
the pass has put together (`label_trimParens` and so on).  So what holds of these cells holds of the text.

**Fixed texts.**  A pass that replaces every occurrence in a text by itself leaves the text as it is
(`replaceFound_eq_self`).
-/

namespace SqfLayout

open SqfLayout.Text SqfLayout.Scan SqfLayout.Pass

/-! ## Fixed texts -/

/-- **Occurrences that stay as they are leave a text as it is.** -/
lemma replaceFound_eq_self {α : Type} {find : Finder α} (hfind : find.Fits)
    {replace : List Cell → α → List Cell} {cells : List Cell}
    (hstays : ∀ before taken rest what, taken ++ rest <:+ cells →
      find before (taken ++ rest) = some (taken.length, what) → replace taken what = taken) :
    replaceFound find replace cells = cells := by
  rw [replaceFound_eq]
  have hdivision := division_segments hfind cells
  generalize (none : Option Char) = before, segments find cells = segs at hdivision
  induction hdivision with
  | done => rfl
  | @plain before cell rest segs _ _ ih =>
      rw [List.flatMap_cons, ih fun before taken rest' what hsuffix =>
        hstays before taken rest' what (hsuffix.trans (List.suffix_cons cell rest))]
      rfl
  | @found before taken rest what segs hfound _ _ ih =>
      rw [List.flatMap_cons, ih fun before taken' rest' what hsuffix =>
        hstays before taken' rest' what (hsuffix.trans (List.suffix_append taken rest))]
      exact congrArg (· ++ rest) (hstays before taken rest what List.suffix_rfl hfound)

namespace Pass

/-! ## Cells -/

/-- Cells that may stand in the place of those of a text are read back. -/
lemma Relaid.label_chars {keep : Cell → Bool} {text : List Char} {cells : List Cell}
    (h : Relaid keep (label text) cells) : label (chars cells) = cells :=
  (h.reads _ _ _ (meets_ready .code _) (reads_label text)).1.labelFrom_eq

/-- **The parentheses pass writes what is read back.** -/
lemma label_trimParens (text : List Char) :
    label (trimParens text) = replaceFound parenFinder (fun _ paren => [paren]) (label text) :=
  (relaid_trimParens text).label_chars

/-- **So does the statements pass.** -/
lemma label_splitStatements (text : List Char) :
    label (splitStatements text) = replaceFound semicolonFinder (fun _ put => put) (label text) :=
  (relaid_splitStatements text).label_chars

/-- **So does the operators pass.** -/
lemma label_spaceOperators (text : List Char) :
    label (spaceOperators text) = (splitAfter (·.char == '\n') (label text)).flatMap spaceLine :=
  (relaid_spaceOperators text).label_chars

/-- **So does the braces pass**, also where a closing brace takes white space from a comment. -/
lemma label_breakBraces (text : List Char) : label (breakBraces text) = bracesFrom [] none (label text) := by
  have hkept := breakBraces_invariant (fun _ _ hedit ha => hedit.kept ha) (kept_label text)
  exact hkept.1.labelFrom_eq

/-! ## Slashes -/

/-- **Two slashes behind a character of code and white space start a comment.** -/
lemma comment_of_slashes {start stop : Cursor} {follow : Option Char} {m : Char} {w back : List Cell}
    {first second : Cell}
    (h : Reads start (.code m :: (w ++ first :: second :: back)) follow stop) (hw : AllSpace w)
    (hfirst : first.char = '/') (hsecond : second.char = '/') :
    first = ⟨'/', .comment⟩ ∧ second = ⟨'/', .comment⟩ := by
  obtain ⟨mid, hstep, hrest⟩ := h
  obtain ⟨rfl, -⟩ := ready_of_code hstep
  obtain ⟨mid, hspace, _, hslash, _, hslash', -⟩ := reads_append.1 hrest
  obtain ⟨rfl, -⟩ := (reads_space hw (by decide)).1 hspace
  rw [nextChar_cons, hfirst, hsecond] at hslash
  obtain ⟨hkind, rfl⟩ := Prod.mk.inj hslash
  rw [hsecond] at hslash'
  obtain ⟨hkind', -⟩ := Prod.mk.inj hslash'
  cases first
  cases second
  simp_all

end Pass

end SqfLayout
