import Mathlib.Logic.Relation
import SqfLayout.Pass.Braces
import SqfLayout.Pass.Commas
import SqfLayout.Pass.Margins
import SqfLayout.Proofs.Finders
import SqfLayout.Proofs.Respacing

/-!
# What the passes move

Each pass before the last one is related to its text by `Respaced`: it moves white space next to hinges
and does nothing else.  This holds whatever the classes of the characters are, also where a pass takes
a literal or a comment for code.

**Passes that replace occurrences.**  Operators, headers, statements and parentheses: an occurrence and
its replacement are related, and `replaceFound_rel` does the rest.

**Passes that write from left to right.**  Braces, commas and semicolons: what has been written so far,
followed by what is still to be read, stays related to the text.  A semicolon that is pulled back also
drops the semicolons before it, for which `Joining` has a pair.

**Margins.**  Related line by line, in a frame.
-/

namespace SqfLayout.Pass

open SqfLayout.Text SqfLayout.Scan

/-! ## White space at hinges -/

/-- **White space around a hinge may be replaced by other white space.** -/
lemma respaced_around {m : Char} {w₁ w₂ v₁ v₂ : List Char} (hm : isHinge m = true)
    (hw₁ : ∀ c ∈ w₁, isSpace c = true) (hw₂ : ∀ c ∈ w₂, isSpace c = true)
    (hv₁ : ∀ c ∈ v₁, isSpace c = true) (hv₂ : ∀ c ∈ v₂, isSpace c = true) :
    Respaced Spacing (w₁ ++ m :: w₂) (v₁ ++ m :: v₂) := by
  have hbare {u₁ u₂ : List Char} (hu₁ : ∀ c ∈ u₁, isSpace c = true)
      (hu₂ : ∀ c ∈ u₂, isSpace c = true) : Respaced Spacing (u₁ ++ m :: u₂) [m] :=
    ((Respaced.behind hm hu₂).append_left u₁).trans (Respaced.before hm hu₁)
  exact (hbare hw₁ hw₂).trans (hbare hv₁ hv₂).symm

/-- A pass that replaces occurrences by related cells is related to its text. -/
lemma respaced_replaceFound {α : Type} {find : Finder α} (hfind : find.Fits)
    {rule : List Char → List Char → Prop} {replace : List Cell → α → List Cell}
    (found : ∀ before taken rest what, find before (taken ++ rest) = some (taken.length, what) →
      Respaced rule (chars taken) (chars (replace taken what))) (cells : List Cell) :
    Respaced rule (chars cells) (chars (replaceFound find replace cells)) := by
  refine replaceFound_rel (R := fun a b => Respaced rule (chars a) (chars b)) hfind
    (fun cells => .refl _) (fun a b c d hab hcd => ?_) found cells
  rw [chars_append, chars_append]
  exact hab.append hcd

/-! ## Parentheses, statements and operators -/

/-- **The parentheses pass moves white space at hinges.** -/
theorem respaced_trimParens (text : List Char) : Respaced Spacing text (trimParens text) := by
  rw [trimParens]
  conv_lhs => rw [← chars_label text]
  refine respaced_replaceFound parenFinder_fits (fun before taken rest paren hfound => ?_) _
  obtain ⟨blanks, hblanks, hshape⟩ := parenFinder_taken hfound
  rcases hshape with ⟨rfl, rfl⟩ | ⟨rfl, rfl⟩
  · exact Respaced.behind (by decide) hblanks.allSpace.chars
  · rw [chars_append]
    exact Respaced.before (by decide) hblanks.allSpace.chars

/-- **The statements pass moves white space at hinges.** -/
theorem respaced_splitStatements (text : List Char) : Respaced Spacing text (splitStatements text) := by
  rw [splitStatements]
  conv_lhs => rw [← chars_label text]
  refine respaced_replaceFound semicolonFinder_fits (fun before taken rest put hfound => ?_) _
  obtain ⟨blanks, rfl, hblanks, hput⟩ := semicolonFinder_taken hfound
  rcases hput with rfl | rfl
  · exact .refl _
  · have hsemicolon : Respaced Spacing ([] ++ ';' :: chars blanks) ([] ++ [';', '\n']) :=
      respaced_around (by decide) (by simp) hblanks.allSpace.chars (by simp) isSpace_feed
    exact hsemicolon

/-- Every operator consists of hinges. -/
lemma isHinge_of_mem_operators {word : List Char} (hword : word ∈ operators) :
    ∀ c ∈ word, isHinge c = true := by
  have hall : operators.all (fun word => word.all isHinge) = true := by decide
  exact List.all_eq_true.1 (List.all_eq_true.1 hall word hword)

/-- An operator has one character or two. -/
lemma length_of_mem_operators (op : List Char) (h : op ∈ operators) :
    (∃ a, op = [a]) ∨ ∃ a b, op = [a, b] := by
  have hlength : ∀ op ∈ operators, op.length = 1 ∨ op.length = 2 := by decide
  exact (hlength op h).imp List.length_eq_one_iff.1 List.length_eq_two.1

/-- White space on both sides of an operator may be replaced by other white space. -/
lemma respaced_operator {op lead lead' trail trail' : List Char} (hop : op ∈ operators)
    (hlead : ∀ c ∈ lead, isSpace c = true) (hlead' : ∀ c ∈ lead', isSpace c = true)
    (htrail : ∀ c ∈ trail, isSpace c = true) (htrail' : ∀ c ∈ trail', isSpace c = true) :
    Respaced Spacing (lead ++ (op ++ trail)) (lead' ++ (op ++ trail')) := by
  have hhinge := isHinge_of_mem_operators hop
  have hnone : ∀ c ∈ ([] : List Char), isSpace c = true := by simp
  rcases length_of_mem_operators op hop with ⟨a, rfl⟩ | ⟨a, b, rfl⟩
  · exact respaced_around (hhinge a (by simp)) hlead htrail hlead' htrail'
  · have hfirst : Respaced Spacing (lead ++ [a]) (lead' ++ [a]) :=
      respaced_around (hhinge a (by simp)) hlead hnone hlead' hnone
    have hsecond : Respaced Spacing (b :: trail) (b :: trail') :=
      respaced_around (hhinge b (by simp)) hnone htrail hnone htrail'
    simpa using hfirst.append hsecond

/-- **The operators pass moves white space at hinges.** -/
theorem respaced_spaceOperators (text : List Char) : Respaced Spacing text (spaceOperators text) := by
  have hline (line : List Cell) : Respaced Spacing (chars line) (chars (spaceLine line)) := by
    rw [spaceLine]
    split
    · exact .refl _
    · refine respaced_replaceFound operatorFinder_fits (fun before taken rest put hfound => ?_) _
      obtain ⟨lead, op, trail, rfl, hlead, htrail, hop, hput⟩ := operatorFinder_taken hfound
      rcases hput with ⟨-, rfl⟩ | rfl
      · simp only [chars_append, List.append_assoc]
        refine respaced_operator hop hlead.allSpace.chars ?_ htrail.allSpace.chars ?_
        · rw [spaceBefore]
          split
          · simp
          · exact isSpace_space
        · unfold spaceBehind
          split
          · simp
          · split
            · simp
            · exact isSpace_space
      · exact .refl _
  have hlines := Respaced.flatMap hline (splitAfter (·.char == '\n') (label text))
  rw [spaceOperators, chars_flatMap]
  rwa [← chars_flatMap, List.flatMap_id', flatten_splitAfter, chars_label] at hlines

/-! ## Headers -/

@[simp] lemma chars_codeCells (text : List Char) : chars (codeCells text) = text := chars_map_code text

lemma Conditional.Spells.respaced {h : Conditional} {opening closing brace : Cell}
    (hs : h.Spells opening closing brace) :
    Respaced Spacing (chars (h.cells opening closing brace)) (chars h.canonical) := by
  obtain ⟨front, back, hcondition, hfront, hback⟩ := exists_trimCells h.condition
  have hopening : Respaced Spacing (chars h.gap₁ ++ '(' :: chars front) ([' '] ++ ['(']) :=
    respaced_around (by decide) hs.gap₁.chars hfront.chars isSpace_space (by simp)
  have hclosing : Respaced Spacing (chars back ++ ')' :: chars h.gap₂) ([] ++ [')', ' ']) :=
    respaced_around (by decide) hback.chars hs.gap₂.chars (by simp) isSpace_space
  have hbrace : Respaced Spacing (chars h.gap₃ ++ ['{']) ([' '] ++ ['{']) :=
    respaced_around (by decide) hs.gap₃.chars (by simp) isSpace_space (by simp)
  have hall := ((hopening.append_left (chars h.keyword)).append
    ((hclosing.append_left (chars (trimCells h.condition))).append
      (hbrace.append_left (chars h.branch))))
  rw [Conditional.cells, Conditional.canonical]
  simpa [hs.opening, hs.closing, hs.brace, chars_of_trimCells hcondition] using hall

lemma Alternative.Spells.respaced {h : Alternative} {closing brace : Cell}
    (hs : h.Spells closing brace) :
    Respaced Spacing (chars (h.cells closing brace)) (chars h.canonical) := by
  have hclosing : Respaced Spacing ([] ++ '}' :: chars h.gap₁) ([] ++ ['}', ' ']) :=
    respaced_around (by decide) (by simp) hs.gap₁.chars (by simp) isSpace_space
  have hbrace : Respaced Spacing (chars h.gap₂ ++ ['{']) ([' '] ++ ['{']) :=
    respaced_around (by decide) hs.gap₂.chars (by simp) isSpace_space (by simp)
  have hall := hclosing.append (hbrace.append_left (chars h.keyword))
  rw [Alternative.cells, Alternative.canonical]
  simpa [hs.closing, hs.brace] using hall

lemma Loop.Spells.respaced {h : Loop} {opening closing brace : Cell}
    (hs : h.Spells opening closing brace) :
    Respaced Spacing (chars (h.cells opening closing brace)) (chars h.canonical) := by
  obtain ⟨front, back, hcondition, hfront, hback⟩ := exists_trimCells h.condition
  have hleft : ∀ c ∈ chars (h.gap₂ ++ front), isSpace c = true := by
    rw [chars_append]
    exact List.forall_mem_append.2 ⟨hs.gap₂.chars, hfront.chars⟩
  have hright : ∀ c ∈ chars (back ++ h.gap₃), isSpace c = true := by
    rw [chars_append]
    exact List.forall_mem_append.2 ⟨hback.chars, hs.gap₃.chars⟩
  have hbrace : Respaced Spacing (chars h.gap₅ ++ ['{']) ([' '] ++ ['{']) :=
    respaced_around (by decide) hs.gap₅.chars (by simp) isSpace_space (by simp)
  -- the white space within the braces depends on whether the condition is empty
  have hopening (w : List Char) (hw : ∀ c ∈ w, isSpace c = true) :
      Respaced Spacing (chars h.gap₁ ++ '{' :: chars (h.gap₂ ++ front)) ([' '] ++ '{' :: w) :=
    respaced_around (by decide) hs.gap₁.chars hleft isSpace_space hw
  have hclosing (w : List Char) (hw : ∀ c ∈ w, isSpace c = true) :
      Respaced Spacing (chars (back ++ h.gap₃) ++ '}' :: chars h.gap₄) (w ++ ['}', ' ']) :=
    respaced_around (by decide) hright hs.gap₄.chars hw isSpace_space
  have hall (w : List Char) (hw : ∀ c ∈ w, isSpace c = true) :=
    (((hopening w hw).append_left (chars h.keyword)).append
      (((hclosing w hw).append_left (chars (trimCells h.condition))).append
        (hbrace.append_left (chars h.body))))
  have hchars := chars_of_trimCells hcondition
  unfold Loop.cells Loop.canonical
  split
  · next hempty =>
      rw [hempty] at hall hchars
      simpa [hs.opening, hs.closing, hs.brace, hchars] using hall [] (by simp)
  · simpa [hs.opening, hs.closing, hs.brace, hchars] using hall [' '] isSpace_space

/-- A header that stays and one that takes its canonical form are both related to the header. -/
lemma respaced_inCode {taken canonical : List Cell}
    (h : Respaced Spacing (chars taken) (chars canonical)) :
    Respaced Spacing (chars taken) (chars (inCode taken canonical)) := by
  rw [inCode]
  split
  · exact h
  · exact .refl _

/-- **The headers pass moves white space at hinges.** -/
theorem respaced_spaceHeaders (text : List Char) : Respaced Spacing text (spaceHeaders text) := by
  have hconditionals (t : List Char) : Respaced Spacing t (spaceConditionals t) := by
    conv_lhs => rw [← chars_label t]
    refine respaced_replaceFound conditionalFinder_fits (fun before taken rest h hfound => ?_) _
    obtain ⟨opening, closing, brace, rfl, hs⟩ := conditionalFinder_eq_some hfound
    exact respaced_inCode hs.respaced
  have halternatives (t : List Char) : Respaced Spacing t (spaceAlternatives t) := by
    conv_lhs => rw [← chars_label t]
    refine respaced_replaceFound alternativeFinder_fits (fun before taken rest h hfound => ?_) _
    obtain ⟨closing, brace, rfl, hs⟩ := alternativeFinder_eq_some hfound
    exact respaced_inCode hs.respaced
  have hloops (t : List Char) : Respaced Spacing t (spaceLoops t) := by
    conv_lhs => rw [← chars_label t]
    refine respaced_replaceFound loopFinder_fits (fun before taken rest h hfound => ?_) _
    obtain ⟨opening, closing, brace, rfl, hs⟩ := loopFinder_eq_some hfound
    exact respaced_inCode hs.respaced
  rw [spaceHeaders_eq]
  exact ((hconditionals text).trans (halternatives _)).trans (hloops _)

/-! ## Braces -/

/-- **What the braces pass does in one step** to what has been written, followed by what is still to be
read. -/
inductive BraceEdit : List Cell → List Cell → Prop
  | first {w rest : List Cell} : AllSpace w → BraceEdit (w ++ .code '}' :: rest) (.code '}' :: rest)
  | closing {front w rest : List Cell} : (∀ cell ∈ front.getLast?, isSpace cell.char = false) →
      AllSpace w →
      BraceEdit (front ++ (w ++ .code '}' :: rest)) (front ++ .code '\n' :: .code '}' :: rest)
  | behind {front rest : List Cell} {s : Cell} : isSpace s.char = true →
      BraceEdit (front ++ .code '{' :: s :: rest) (front ++ .code '{' :: rest)
  | opening {front rest : List Cell} {c : Char} : c = ' ' ∨ c = '\n' →
      (∃ cell ∈ rest.head?, isSpace cell.char = false) →
      BraceEdit (front ++ .code '{' :: rest) (front ++ .code '{' :: .code c :: rest)

/-- A closing brace takes the white space before it away. -/
lemma edit_placeCell (out : List Cell) (cell : Cell) (rest : List Cell) :
    Relation.ReflTransGen BraceEdit (out.reverse ++ cell :: rest)
      ((placeCell out cell).reverse ++ rest) := by
  rw [placeCell]
  split
  · next hcell =>
      obtain rfl := isCode_iff.1 hcell
      obtain ⟨gone, hout, hgone⟩ := exists_dropWhile (fun cell : Cell => isSpace cell.char) out
      have hspace : AllSpace gone.reverse := fun cell hcell => hgone cell (List.mem_reverse.1 hcell)
      have hkept := List.head?_dropWhile_not (fun cell : Cell => isSpace cell.char) out
      rw [closeBrace]
      generalize out.dropWhile (fun cell => isSpace cell.char) = kept at hout hkept ⊢
      subst hout
      split
      · have hedit : BraceEdit (gone.reverse ++ .code '}' :: rest) (.code '}' :: rest) := .first hspace
        simpa using Relation.ReflTransGen.single hedit
      · have hlast : ∀ cell ∈ kept.reverse.getLast?, isSpace cell.char = false := by
          intro cell hcell
          rw [List.getLast?_reverse] at hcell
          rw [Option.mem_def.1 hcell] at hkept
          simpa using hkept
        have hedit : BraceEdit (kept.reverse ++ (gone.reverse ++ .code '}' :: rest))
            (kept.reverse ++ .code '\n' :: .code '}' :: rest) := .closing hlast hspace
        simpa using Relation.ReflTransGen.single hedit
  · simpa using Relation.ReflTransGen.refl

/-- Only an opening brace opens a gap. -/
lemma eq_of_gapAfter {cell : Cell} (h : (gapAfter cell).isSome = true) : cell = .code '{' := by
  rw [gapAfter] at h
  split at h
  · next hcell => exact isCode_iff.1 hcell
  · simp at h

/-- **The braces pass is made of these steps.**  Within a gap the last character written is the opening
brace. -/
lemma edits_bracesFrom (out : List Cell) (gap : Option Bool) (rest : List Cell)
    (hgap : gap.isSome → out.head? = some (.code '{')) :
    Relation.ReflTransGen BraceEdit (out.reverse ++ rest) (bracesFrom out gap rest) := by
  have hopened (cell : Cell) (out : List Cell) (h : (gapAfter cell).isSome = true) :
      (placeCell out cell).head? = some (.code '{') := by
    rw [eq_of_gapAfter h]
    rfl
  fun_induction bracesFrom out gap rest with
  | case1 out gap => simpa using Relation.ReflTransGen.refl
  | case2 out cell rest ih => exact (edit_placeCell out cell rest).trans (ih (hopened cell out))
  | case3 out crossed cell rest hspace ih =>
      obtain ⟨tail, rfl⟩ : ∃ tail, out = .code '{' :: tail := List.head?_eq_some_iff.1 (hgap rfl)
      have hedit : BraceEdit (tail.reverse ++ .code '{' :: cell :: rest)
          (tail.reverse ++ .code '{' :: rest) := .behind hspace
      exact .trans (by simpa using Relation.ReflTransGen.single hedit) (ih fun _ => hgap rfl)
  | case4 out crossed cell rest hspace hclosing ih => simpa using ih (by simp)
  | case5 out crossed cell rest hspace hclosing ih =>
      obtain ⟨tail, rfl⟩ : ∃ tail, out = .code '{' :: tail := List.head?_eq_some_iff.1 (hgap rfl)
      obtain ⟨c, hbreak, hc⟩ : ∃ c, gapBreak crossed cell rest.head? = .code c ∧ (c = ' ' ∨ c = '\n') := by
        rw [gapBreak]
        split
        · exact ⟨' ', rfl, .inl rfl⟩
        · exact ⟨'\n', rfl, .inr rfl⟩
      have hedit : BraceEdit (tail.reverse ++ .code '{' :: cell :: rest)
          (tail.reverse ++ .code '{' :: .code c :: cell :: rest) :=
        .opening hc ⟨cell, rfl, by simpa using hspace⟩
      refine .trans ?_ (ih fun h => ?_)
      · rw [hbreak]
        simpa using Relation.ReflTransGen.single hedit
      · rw [eq_of_gapAfter h]
        rfl

/-- **What every step keeps, the pass keeps.** -/
lemma breakBraces_invariant {P : List Cell → Prop} (hstep : ∀ a b, BraceEdit a b → P a → P b)
    {text : List Char} (h : P (label text)) : P (bracesFrom [] none (label text)) := by
  have hedits : Relation.ReflTransGen BraceEdit (label text) (bracesFrom [] none (label text)) :=
    edits_bracesFrom [] none (label text) (by simp)
  generalize bracesFrom [] none (label text) = done at hedits
  induction hedits with
  | refl => exact h
  | tail _ hedit ih => exact hstep _ _ hedit ih

lemma BraceEdit.respaced {a b : List Cell} (h : BraceEdit a b) :
    Respaced Spacing (chars a) (chars b) := by
  cases h with
  | @first w rest hw =>
      have hbrace : Respaced Spacing (chars w ++ ['}']) ['}'] := .before (by decide) hw.chars
      simpa using hbrace.append_right (chars rest)
  | @closing front w rest _ hw =>
      have hbrace : Respaced Spacing (chars w ++ ['}']) (['\n'] ++ ['}']) :=
        respaced_around (by decide) hw.chars (by simp) isSpace_feed (by simp)
      simpa using (hbrace.append_right (chars rest)).append_left (chars front)
  | @behind front rest s hs =>
      have hbrace : Respaced Spacing ['{', s.char] ['{'] := .of (.behind (by decide) hs)
      simpa using (hbrace.append_right (chars rest)).append_left (chars front)
  | @opening front rest c hc _ =>
      have hspace : isSpace c = true := by
        rcases hc with rfl | rfl
        · decide
        · decide
      have hbrace : Respaced Spacing ['{'] ['{', c] := .symm (.of (.behind (by decide) hspace))
      simpa using (hbrace.append_right (chars rest)).append_left (chars front)

/-- **The braces pass moves white space at hinges.** -/
theorem respaced_breakBraces (text : List Char) : Respaced Spacing text (breakBraces text) := by
  refine breakBraces_invariant (P := fun cells => Respaced Spacing text (chars cells))
    (fun a b hedit ha => ha.trans hedit.respaced) ?_
  rw [chars_label]
  exact .refl text

/-! ## Commas -/

/-- A character that is pulled back passes loose cells only. -/
lemma exists_pullBack (also : Char → Bool) (out : List Cell) :
    ∃ gone, out = gone ++ pullBack also out ∧ ∀ cell ∈ gone, isLoose also cell = true := by
  have hloose : ∀ cell ∈ out.takeWhile (isLoose also), isLoose also cell = true :=
    fun _ h => List.mem_takeWhile_imp h
  have hout : out = out.takeWhile (isLoose also) ++ out.dropWhile (isLoose also) :=
    List.takeWhile_append_dropWhile.symm
  simp only [pullBack]
  split
  · split
    · next feed hlast =>
        -- the line feed of a line comment is the first loose cell, so the last of the reversed ones
        obtain ⟨gone, hgone⟩ := List.getLast?_eq_some_iff.1 hlast
        rw [hgone] at hout hloose
        refine ⟨gone, ?_, fun cell h => hloose cell (by simp [h])⟩
        simpa using hout
    · exact ⟨_, hout, hloose⟩
  · exact ⟨_, hout, hloose⟩

/-- A comma that has been placed is what comes last. -/
lemma head?_placeComma {out : List Cell} {cell : Cell} (h : cell.isCode ',' = true) :
    (placeComma out cell).head? = some (.code ',') := by
  rw [placeComma, if_pos h, isCode_iff.1 h]
  rfl

lemma respaced_placeComma (out : List Cell) (cell : Cell) :
    Respaced Spacing (chars (cell :: out).reverse) (chars (placeComma out cell).reverse) := by
  rw [placeComma]
  split
  · next hcell =>
      obtain rfl := isCode_iff.1 hcell
      obtain ⟨gone, hout, hgone⟩ := exists_pullBack (fun _ => false) out
      have hspace : ∀ c ∈ (chars gone).reverse, isSpace c = true := by
        intro c hc
        obtain ⟨cell, hcell, rfl⟩ := List.mem_map.1 (List.mem_reverse.1 hc)
        have hloose := hgone cell hcell
        simp only [isLoose, Bool.or_false, Bool.and_eq_true] at hloose
        exact hloose.2
      generalize pullBack (fun _ => false) out = kept at hout ⊢
      subst hout
      have hcomma : Respaced Spacing ((chars gone).reverse ++ [',']) [','] :=
        Respaced.before (by decide) hspace
      simpa using hcomma.append_left (chars kept).reverse
  · exact .refl _

/-- Behind a comma the last character written is the comma, so the blanks that follow are free. -/
lemma respaced_commasFrom (out : List Cell) (dropping : Bool) (rest : List Cell)
    (hdropping : dropping = true → out.head? = some (.code ',')) :
    Respaced Spacing (chars (out.reverse ++ rest)) (chars (commasFrom out dropping rest)) := by
  fun_induction commasFrom out dropping rest with
  | case1 out dropping => simpa using Respaced.refl _
  | case2 out cell rest ih =>
      refine Respaced.trans ?_ (ih head?_placeComma)
      simpa using (respaced_placeComma out cell).append_right (chars rest)
  | case3 out cell rest hblank ih =>
      refine Respaced.trans ?_ (ih fun _ => hdropping rfl)
      obtain ⟨tail, rfl⟩ : ∃ tail, out = .code ',' :: tail :=
        List.head?_eq_some_iff.1 (hdropping rfl)
      have hcomma : Respaced Spacing [',', cell.char] [','] :=
        .of (.behind (by decide) (isSpace_of_isBlank hblank))
      simpa using (hcomma.append_left (chars tail).reverse).append_right (chars rest)
  | case4 out cell rest hblank ih =>
      have hseparate : Respaced Spacing (chars out.reverse) (chars (separate out cell).reverse) := by
        rw [separate]
        split
        · exact .refl _
        · obtain ⟨tail, rfl⟩ : ∃ tail, out = .code ',' :: tail :=
            List.head?_eq_some_iff.1 (hdropping rfl)
          have hcomma : Respaced Spacing [','] [',', ' '] :=
            .symm (.of (.behind (by decide) (by decide)))
          simpa using hcomma.append_left (chars tail).reverse
      refine Respaced.trans ?_ (ih head?_placeComma)
      have hplaced := (hseparate.append_right [cell.char]).trans
        (by simpa using respaced_placeComma (separate out cell) cell)
      simpa using hplaced.append_right (chars rest)

/-- **The commas pass moves white space at hinges.** -/
theorem respaced_spaceCommas (text : List Char) : Respaced Spacing text (spaceCommas text) := by
  simpa [spaceCommas] using respaced_commasFrom [] false (label text) (by simp)

/-! ## Semicolons -/

/-- What a semicolon that is pulled back passes: white space and semicolons. -/
def isPassed (c : Char) : Bool := isSpace c || c == ';'

/-- **One more cell.**  A semicolon of code takes the place of white space and semicolons before it;
every other cell is put behind the text so far. -/
lemma placeSemicolon_cases (out : List Cell) (cell : Cell) :
    placeSemicolon out cell = cell :: out
      ∨ ∃ gone kept, cell = .code ';' ∧ out = gone ++ kept ∧ placeSemicolon out cell = cell :: kept
        ∧ ∀ c ∈ chars gone, isPassed c = true := by
  rw [placeSemicolon]
  split
  · next hcell =>
      obtain ⟨gone, hout, hgone⟩ := exists_pullBack (· == ';') out
      refine .inr ⟨gone, pullBack (· == ';') out, isCode_iff.1 hcell, hout, rfl, fun c hc => ?_⟩
      obtain ⟨cell, hcell, rfl⟩ := List.mem_map.1 hc
      have hloose := hgone cell hcell
      rw [isLoose, Bool.and_eq_true] at hloose
      exact hloose.2
  · exact .inl rfl

/-- White space and semicolons before a semicolon may go. -/
lemma respaced_semicolon {w : List Char} (hw : ∀ c ∈ w, isPassed c = true) :
    Respaced Joining (w ++ [';']) [';'] := by
  induction w with
  | nil => exact .refl _
  | cons c w ih =>
      obtain ⟨hc, hw⟩ := List.forall_mem_cons.1 hw
      refine ((ih hw).cons c).trans (.of ?_)
      rw [isPassed, Bool.or_eq_true, beq_iff_eq] at hc
      rcases hc with hc | rfl
      · exact .spacing (.before hc (by decide))
      · exact .semicolons

lemma respaced_placeSemicolon (out : List Cell) (cell : Cell) :
    Respaced Joining (chars (cell :: out).reverse) (chars (placeSemicolon out cell).reverse) := by
  rcases placeSemicolon_cases out cell with heq | ⟨gone, kept, rfl, rfl, heq, hgone⟩
  · rw [heq]
    exact .refl _
  · rw [heq]
    have hsemicolon : Respaced Joining ((chars gone).reverse ++ [';']) [';'] :=
      respaced_semicolon fun c hc => hgone c (List.mem_reverse.1 hc)
    simpa using hsemicolon.append_left (chars kept).reverse

/-- **The semicolons pass moves white space at hinges and joins semicolons.** -/
theorem respaced_joinSemicolons (text : List Char) : Respaced Joining text (joinSemicolons text) := by
  have hfold (out rest : List Cell) : Respaced Joining (chars (out.reverse ++ rest))
      (chars (rest.foldl placeSemicolon out).reverse) := by
    induction rest generalizing out with
    | nil => simpa using Respaced.refl _
    | cons cell rest ih =>
        refine Respaced.trans ?_ (ih (placeSemicolon out cell))
        simpa using (respaced_placeSemicolon out cell).append_right (chars rest)
  simpa [joinSemicolons] using hfold [] (label text)

/-! ## Margins -/

/-- Less indentation is less white space. -/
lemma exists_stripIndent (n : Nat) (line : List Char) :
    ∃ front, line = front ++ stripIndent n line ∧ ∀ c ∈ front, isSpace c = true := by
  fun_induction stripIndent n line with
  | case1 line => exact ⟨[], by simp⟩
  | case2 n => exact ⟨[], by simp⟩
  | case3 n c rest hspace ih =>
      obtain ⟨front, hrest, hfront⟩ := ih
      refine ⟨c :: front, by rw [List.cons_append, ← hrest], ?_⟩
      exact List.forall_mem_cons.2 ⟨hspace, hfront⟩
  | case4 n c rest hspace => exact ⟨[], by simp⟩

/-- **A line without white space at its end and without some of it at its start.** -/
structure Stripped (line kept : List Char) : Prop where
  space : ∃ front back, line = front ++ (kept ++ back)
    ∧ (∀ c ∈ front, isSpace c = true) ∧ ∀ c ∈ back, isSpace c = true
  last : ∀ c ∈ kept.getLast?, isSpace c = false

lemma stripped_trim (line : List Char) : Stripped line (trim line) :=
  ⟨exists_trim line, getLast?_trim line⟩

lemma stripped_stripIndent (margin : Nat) (line : List Char) :
    Stripped line (stripIndent margin (trimEnd line)) := by
  obtain ⟨back, hline, hback⟩ := exists_trimEnd line
  obtain ⟨front, htrimmed, hfront⟩ := exists_stripIndent margin (trimEnd line)
  refine ⟨⟨front, back, ?_, hfront, hback⟩, fun c hc => getLast?_trimEnd line c ?_⟩
  · rw [← List.append_assoc, ← htrimmed]
    exact hline
  · rw [htrimmed, List.getLast?_append, Option.mem_def.1 hc]
    rfl

/-- **The margins pass strips every line.** -/
lemma forall₂_stripRows (body : Option Nat) (mode : Mode) (ls : List (List Char)) :
    List.Forall₂ Stripped ls (stripRows body (positions mode ls)) := by
  induction ls generalizing body mode with
  | nil => exact .nil
  | cons line rest ih =>
      simp only [positions, stripRows]
      split
      · exact .cons (stripped_stripIndent _ line) (ih _ _)
      · exact .cons (stripped_trim line) (ih _ _)

lemma exists_stripped {ls ls' : List (List Char)} (h : List.Forall₂ Stripped ls ls') {kept : List Char}
    (hkept : kept ∈ ls') : ∃ line ∈ ls, Stripped line kept := by
  induction h with
  | nil => simp at hkept
  | cons hline _ ih =>
      rcases List.mem_cons.1 hkept with rfl | hkept
      · exact ⟨_, List.mem_cons_self, hline⟩
      · obtain ⟨line, hmem, hstripped⟩ := ih hkept
        exact ⟨line, List.mem_cons_of_mem _ hmem, hstripped⟩

lemma respaced_stripped {ls ls' : List (List Char)} (h : List.Forall₂ Stripped ls ls') :
    Respaced Spacing ('\n' :: rows ls) ('\n' :: rows ls') := by
  induction h with
  | nil => exact .refl _
  | cons hline _ ih =>
      obtain ⟨⟨front, back, rfl, hfront, hback⟩, -⟩ := hline
      rw [rows_cons, rows_cons]
      exact Respaced.rows_cons (Respaced.framed_ends hfront hback) ih

/-- **The margins pass moves white space at hinges**, where the ends of the text count as such. -/
theorem respaced_stripMargins (text : List Char) :
    Respaced Spacing (framed text) (framed (stripMargins text)) := by
  conv_lhs => rw [← unlines_lines text]
  exact ((Respaced.framed_unlines _).trans (respaced_stripped (forall₂_stripRows none .code _))).trans
    (Respaced.framed_unlines _).symm

end SqfLayout.Pass
