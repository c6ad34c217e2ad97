import SqfLayout.Proofs.Indentation
import SqfLayout.Proofs.Pipeline
import SqfLayout.Proofs.Spelling

/-!
# Formatting keeps the ink

Whatever a text looks like, formatting it changes nothing but white space, semicolons that are followed
by another one, and the case of known words.

**Dropped semicolons.**  `SemicolonsDropped` is the relation between the ink of a text and what is left
of it.  It is transitive because a dropped semicolon leaves another one in its place
(`SemicolonsDropped.head`).

**Passes.**  Eight passes keep the ink as it is; one drops semicolons and one recases characters.
`Rewritten` is the relation that holds for all of them, and `runPasses_rel` carries it through the
passes of a style.
-/

namespace SqfLayout

open SqfLayout.Text SqfLayout.Scan SqfLayout.Pass

/-! ## Dropped semicolons -/

/-- **Some semicolons dropped**, each of them directly followed by another one. -/
inductive SemicolonsDropped : List Char → List Char → Prop
  | done : SemicolonsDropped [] []
  | keep (c : Char) {xs ys : List Char} : SemicolonsDropped xs ys →
      SemicolonsDropped (c :: xs) (c :: ys)
  | drop {xs ys : List Char} : SemicolonsDropped (';' :: xs) ys →
      SemicolonsDropped (';' :: ';' :: xs) ys

namespace SemicolonsDropped

lemma refl : ∀ xs : List Char, SemicolonsDropped xs xs
  | [] => done
  | c :: xs => keep c (refl xs)

/-- What is left starts with the same character. -/
lemma head {xs ys : List Char} (h : SemicolonsDropped xs ys) : xs.head? = ys.head? := by
  induction h with
  | done => rfl
  | keep c _ _ => rfl
  | drop _ ih => exact ih

lemma append {a b c d : List Char} (hab : SemicolonsDropped a b) (hcd : SemicolonsDropped c d) :
    SemicolonsDropped (a ++ c) (b ++ d) := by
  induction hab with
  | done => exact hcd
  | keep c _ ih => exact keep c ih
  | drop _ ih => exact drop ih

lemma trans {a b c : List Char} (hab : SemicolonsDropped a b) (hbc : SemicolonsDropped b c) :
    SemicolonsDropped a c := by
  induction hab generalizing c with
  | done => exact hbc
  | @keep x xs ys hxs ih =>
      cases hbc with
      | keep _ hys => exact keep x (ih hys)
      | @drop ys' _ hys =>
          -- the semicolon that follows in the second text follows in the first one as well
          obtain ⟨xs', rfl⟩ : ∃ xs', xs = ';' :: xs' := List.head?_eq_some_iff.1 hxs.head
          exact drop (ih hys)
  | drop _ ih => exact drop (ih hbc)

/-- Semicolons before a semicolon may go. -/
lemma before {w : List Char} (hw : ∀ c ∈ w, c = ';') : SemicolonsDropped (w ++ [';']) [';'] := by
  induction w with
  | nil => exact refl _
  | cons c w ih =>
      obtain ⟨rfl, hrest⟩ := List.forall_mem_cons.1 hw
      cases w with
      | nil => exact drop (refl _)
      | cons d w =>
          obtain rfl : d = ';' := hrest d (by simp)
          exact drop (ih hrest)

/-- Semicolons that go from one text can go from any text that agrees with it character for character,
as far as semicolons agree. -/
lemma pull {R : Char → Char → Prop} (hR : ∀ c, R c ';' → c = ';') {xs ys zs : List Char}
    (hxy : List.Forall₂ R xs ys) (hyz : SemicolonsDropped ys zs) :
    ∃ kept, SemicolonsDropped xs kept ∧ List.Forall₂ R kept zs := by
  induction hyz generalizing xs with
  | done =>
      cases hxy
      exact ⟨[], done, .nil⟩
  | keep c _ ih =>
      cases hxy with
      | @cons x _ xs _ hx hxs =>
          obtain ⟨kept, hkept, hzs⟩ := ih hxs
          exact ⟨x :: kept, keep x hkept, .cons hx hzs⟩
  | drop _ ih =>
      cases hxy with
      | cons hx hxs =>
          obtain ⟨kept, hkept, hzs⟩ := ih hxs
          cases hxs with
          | cons hx' hxs =>
              obtain rfl := hR _ hx
              obtain rfl := hR _ hx'
              exact ⟨kept, drop hkept, hzs⟩

end SemicolonsDropped

/-- A semicolon that is put behind a text takes the place of semicolons. -/
lemma semicolonsDropped_place (out : List Cell) (cell : Cell) :
    SemicolonsDropped (ink (chars (cell :: out).reverse))
      (ink (chars (placeSemicolon out cell).reverse)) := by
  rcases placeSemicolon_cases out cell with heq | ⟨gone, kept, rfl, rfl, heq, hgone⟩
  · rw [heq]
    exact .refl _
  · rw [heq]
    have hgone : ∀ c ∈ ink (chars gone).reverse, c = ';' := by
      intro c hc
      obtain ⟨hmem, hink⟩ := List.mem_filter.1 hc
      have hpassed := hgone c (List.mem_reverse.1 hmem)
      rw [Bool.not_eq_true'] at hink
      simpa [isPassed, hink] using hpassed
    have hsemicolon : ink [';'] = [';'] := by decide
    have hall := (SemicolonsDropped.refl (ink (chars kept).reverse)).append
      (SemicolonsDropped.before hgone)
    simpa [hsemicolon] using hall

/-- **The semicolons pass drops semicolons and keeps all other ink.** -/
lemma semicolonsDropped_joinSemicolons (text : List Char) :
    SemicolonsDropped (ink text) (ink (joinSemicolons text)) := by
  have hfold (out rest : List Cell) : SemicolonsDropped (ink (chars (out.reverse ++ rest)))
      (ink (chars (rest.foldl placeSemicolon out).reverse)) := by
    induction rest generalizing out with
    | nil => simpa using SemicolonsDropped.refl _
    | cons cell rest ih =>
        refine SemicolonsDropped.trans ?_ (ih (placeSemicolon out cell))
        have hplace := (semicolonsDropped_place out cell).append (.refl (ink (chars rest)))
        rw [← ink_append, ← ink_append] at hplace
        simpa using hplace
  simpa [joinSemicolons] using hfold [] (label text)

/-! ## Tabs and blanks -/

lemma Squeezing.ink_eq {a b : List Char} (h : Squeezing a b) : ink a = ink b := by
  rcases h with h | ⟨hs, ht⟩
  · exact h.ink_eq
  · rw [ink_eq_nil, ink_eq_nil isSpace_space]
    simpa using ⟨isSpace_of_isBlank hs, isSpace_of_isBlank ht⟩

/-- Tabs are no ink. -/
lemma ink_untabbed (scanned : ScannedLine) : ink (untabbed scanned) = ink (chars scanned.cells) := by
  rw [untabbed]
  split
  · rw [dropTabs, ink, ink, chars, chars, List.filter_map, List.filter_map, List.filter_filter]
    congr 1
    refine List.filter_congr fun cell _ => ?_
    by_cases htab : cell.char = '\t'
    · have hspace : isSpace '\t' = true := by decide
      simp [htab, hspace]
    · simp [htab]
  · rfl

lemma ink_rows_untabbedRows (mode : Mode) (ls : List (List Char)) :
    ink (rows (untabbedRows mode ls)) = ink (rows ls) := by
  induction ls generalizing mode with
  | nil => rfl
  | cons line rest ih =>
      have hline : chars (scanLine mode line).1.cells = line := chars_labelFrom _ line
      have hcons (a b : List Char) : ink (a ++ '\n' :: b) = ink a ++ (ink ['\n'] ++ ink b) := by
        rw [← ink_append, ← ink_append]
        rfl
      simp only [untabbedRows, rows_cons, hcons, ink_untabbed, hline, ih]

/-- **The indentation pass keeps the ink.** -/
lemma ink_indentLines (unit : IndentUnit) (text : List Char) : ink (indentLines unit text) = ink text := by
  have htabs : ink (withoutCommentTabs text) = ink text := by
    rw [withoutCommentTabs, ink_unlines, ink_rows_untabbedRows, ← ink_unlines, unlines_lines]
  have hpass := (respaced_indentLines unit text).ink_eq_of fun _ _ => Squeezing.ink_eq
  rw [ink_framed, ink_framed] at hpass
  rw [← hpass, htabs]

/-! ## All passes -/

/-- The ink of a text with some semicolons dropped and some characters exchanged for related ones. -/
def Rewritten (R : Char → Char → Prop) (a b : List Char) : Prop :=
  ∃ kept, SemicolonsDropped (ink a) kept ∧ List.Forall₂ R kept (ink b)

section Rewritten

variable {R : Char → Char → Prop}

lemma forall₂_trans (htrans : ∀ a b c, R a b → R b c → R a c) {xs ys zs : List Char}
    (hxy : List.Forall₂ R xs ys) (hyz : List.Forall₂ R ys zs) : List.Forall₂ R xs zs := by
  induction hxy generalizing zs with
  | nil => exact hyz
  | cons hx _ ih =>
      cases hyz with
      | cons hy hys => exact .cons (htrans _ _ _ hx hy) (ih hys)

lemma Rewritten.of_dropped (hrefl : ∀ c, R c c) {a b : List Char}
    (h : SemicolonsDropped (ink a) (ink b)) : Rewritten R a b :=
  ⟨ink b, h, List.forall₂_same.2 fun c _ => hrefl c⟩

lemma Rewritten.trans (htrans : ∀ a b c, R a b → R b c → R a c) (hR : ∀ c, R c ';' → c = ';')
    {a b c : List Char} (hab : Rewritten R a b) (hbc : Rewritten R b c) : Rewritten R a c := by
  obtain ⟨keptA, hkeptA, hb⟩ := hab
  obtain ⟨keptB, hkeptB, hc⟩ := hbc
  obtain ⟨kept, hkept, hsame⟩ := hkeptB.pull hR hb
  exact ⟨kept, hkeptA.trans hkept, forall₂_trans htrans hsame hc⟩

/-- **Every pass but spelling keeps the ink or drops semicolons.** -/
lemma rewritten_apply (hrefl : ∀ c, R c c) (style : Style) (vocabulary : Vocabulary)
    {pass : LayoutPass} (hpass : pass ≠ .spelling) (text : List Char) :
    Rewritten R text (pass.apply style vocabulary text) := by
  have hsame {t : List Char} (h : ink text = ink t) : Rewritten R text t :=
    .of_dropped hrefl (h ▸ .refl _)
  cases pass with
  | spelling => exact absurd rfl hpass
  | margins =>
      have hframed := (respaced_stripMargins text).ink_eq
      rw [ink_framed, ink_framed] at hframed
      exact hsame hframed
  | braces => exact hsame (respaced_breakBraces text).ink_eq
  | commas => exact hsame (respaced_spaceCommas text).ink_eq
  | operators => exact hsame (respaced_spaceOperators text).ink_eq
  | headers => exact hsame (respaced_spaceHeaders text).ink_eq
  | statements => exact hsame (respaced_splitStatements text).ink_eq
  | semicolons => exact .of_dropped hrefl (semicolonsDropped_joinSemicolons text)
  | parens => exact hsame (respaced_trimParens text).ink_eq
  | indent => exact hsame (ink_indentLines style.indent text).symm

end Rewritten

/-- The spelling pass keeps the ink up to recasing. -/
lemma rewritten_spellWords {commands functions : List (List Char)}
    (hwords : ∀ word ∈ commands ++ functions, ∀ c ∈ word, c.toNat < 128) (text : List Char) :
    Rewritten Recased text (spellWords (.ofLists commands functions) text) := by
  have hink : List.Forall₂ Recased (ink text) (ink (spellWords (.ofLists commands functions) text)) :=
    List.rel_filter (fun a b h => by simp [h.isSpace_eq]) (recased_spellWords hwords text)
  exact ⟨ink text, .refl _, hink⟩

/-- **Formatting keeps the ink.**  Of the characters that are not white space nothing is lost, added or
moved but semicolons that another one follows; known words may change their case if the style says so,
and are otherwise the same. -/
theorem ink_formatText (style : Style) (commands functions : List (List Char))
    (hwords : ∀ word ∈ commands ++ functions, ∀ c ∈ word, c.toNat < 128) (text : List Char) :
    ∃ kept, SemicolonsDropped (ink text) kept
      ∧ if style.normalizeCase then
          kept.map (fun c => lowercase [c])
            = (ink (formatText style (.ofLists commands functions) text)).map (fun c => lowercase [c])
        else kept = ink (formatText style (.ofLists commands functions) text) := by
  cases hcase : style.normalizeCase with
  | true =>
      have hpasses : Rewritten Recased text (formatText style (.ofLists commands functions) text) := by
        refine runPasses_rel (fun t => .of_dropped .refl (.refl _))
          (fun a b c => .trans (fun _ _ _ => .trans) fun c hc => (hc.eq_sign_iff (by decide)).2 rfl)
          (fun pass _ t => ?_) text
        by_cases hpass : pass = .spelling
        · subst hpass
          exact rewritten_spellWords hwords t
        · exact rewritten_apply .refl style _ hpass t
      obtain ⟨kept, hkept, hsame⟩ := hpasses
      refine ⟨kept, hkept, ?_⟩
      rw [if_pos rfl]
      exact map_eq_of_recased Recased.lowercase_eq hsame
  | false =>
      have hpasses : Rewritten Eq text (formatText style (.ofLists commands functions) text) := by
        refine runPasses_rel (fun t => .of_dropped (fun _ => rfl) (.refl _))
          (fun a b c => .trans (fun _ _ _ => .trans) fun c hc => hc) (fun pass hmem t => ?_) text
        have henabled := (List.mem_filter.1 hmem).2
        refine rewritten_apply (fun _ => rfl) style _ ?_ t
        rintro rfl
        simp [LayoutPass.enabled, hcase] at henabled
      obtain ⟨kept, hkept, hsame⟩ := hpasses
      refine ⟨kept, hkept, ?_⟩
      rw [if_neg (by decide)]
      rwa [List.forall₂_eq_eq_eq] at hsame

/-- With one known word, two semicolons and white space between all of them. -/
theorem ink_formatText_hint :
    (∀ word ∈ [['h', 'i', 'n', 't']] ++ [], ∀ c ∈ word, c.toNat < 128)
      ∧ formatText {} (.ofLists [['h', 'i', 'n', 't']] []) ['H', 'I', 'N', 'T', ' ', ';', ' ', ';']
        = ['h', 'i', 'n', 't', ';']
      ∧ ∃ kept, SemicolonsDropped ['H', 'I', 'N', 'T', ';', ';'] kept
        ∧ kept.map (fun c => lowercase [c])
          = ['h', 'i', 'n', 't', ';'].map (fun c => lowercase [c]) := by
  have hformat : formatText {} (.ofLists [['h', 'i', 'n', 't']] [])
      ['H', 'I', 'N', 'T', ' ', ';', ' ', ';'] = ['h', 'i', 'n', 't', ';'] := by
    decide +kernel
  refine ⟨by simp, hformat, ?_⟩
  have h := ink_formatText {} [['h', 'i', 'n', 't']] [] (by simp)
    ['H', 'I', 'N', 'T', ' ', ';', ' ', ';']
  rw [hformat] at h
  exact h

end SqfLayout
