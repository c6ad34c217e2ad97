import SqfLayout.Proofs.Indentation
import SqfLayout.Proofs.Pipeline
import SqfLayout.Proofs.Spelling

/-!
# Formatting and words

White space that the passes take away stands next to a character that belongs to no word, so words are
neither joined nor split.  There is one exception.  On a line of code with a comment the tabs outside
literals go, and a tab may be all that stands between two words (`wordRuns_formatText_tab`).

**Runs.**  `wordRuns` are the maximal runs of word characters.  A text is cut at every other character
(`wordRuns_append_cons`), hence no pair of a spacing rule touches them (`Respaced.wordRuns_eq`), and
recased texts have the same runs up to case (`caselessRuns_eq`).

**Tabs.**  `TabsDropped` relates a text to the text with some tabs taken away.  Tabs that go behind a
pass can go before it as well (`Respaced.pull_tabs`), and so the tabs that indentation drops can be
dropped from the source.
-/

namespace SqfLayout.Text

/-! ## Runs of word characters -/

/-- **The maximal runs of characters that satisfy a test.** -/
def wordRuns (p : Char → Bool) (text : List Char) : List (List Char) :=
  (splitWhen (fun c => !p c) text).filter fun run => !run.isEmpty

/-- **A notion of word characters**: no white space and no hinge is one, whatever their case. -/
structure IsWordTest (p : Char → Bool) : Prop where
  space {c : Char} : isSpace c = true → p c = false
  hinge {c : Char} : isHinge c = true → p c = false
  recased {a b : Char} : Recased a b → p a = p b

section Runs

variable {p : Char → Bool}

@[simp] lemma wordRuns_nil : wordRuns p [] = [] := by simp [wordRuns, splitWhen]

/-- Runs are cut at every other character. -/
lemma wordRuns_append_cons (xs ys : List Char) {c : Char} (hc : p c = false) :
    wordRuns p (xs ++ c :: ys) = wordRuns p xs ++ wordRuns p ys := by
  rw [wordRuns, splitWhen_append_cons xs ys (by simp [hc]), List.filter_append]
  rfl

/-- A stretch of other characters, of any length but none, cuts runs in two. -/
lemma wordRuns_append_breaks {breaks : List Char} (hne : breaks ≠ [])
    (hbreaks : ∀ c ∈ breaks, p c = false) (xs ys : List Char) :
    wordRuns p (xs ++ breaks ++ ys) = wordRuns p xs ++ wordRuns p ys := by
  induction breaks generalizing xs with
  | nil => exact absurd rfl hne
  | cons c breaks ih =>
      obtain ⟨hc, hrest⟩ := List.forall_mem_cons.1 hbreaks
      have hcut := wordRuns_append_cons xs (breaks ++ ys) hc
      cases breaks with
      | nil => simpa using hcut
      | cons d breaks =>
          have hskip := ih (by simp) hrest []
          rw [wordRuns_nil, List.nil_append, List.nil_append] at hskip
          rw [List.append_assoc, List.cons_append, hcut, hskip]

/-- **A rule whose pairs hold no word character keeps the runs.** -/
lemma Respaced.wordRuns_eq {rule : List Char → List Char → Prop}
    (hrule : ∀ a b, rule a b → (a ≠ [] ∧ ∀ c ∈ a, p c = false) ∧ b ≠ [] ∧ ∀ c ∈ b, p c = false)
    {a b : List Char} (h : Respaced rule a b) : wordRuns p a = wordRuns p b := by
  refine h.eq_of_rule fun a b hab left right => ?_
  obtain ⟨⟨hane, ha⟩, hbne, hb⟩ := hrule a b hab
  rw [wordRuns_append_breaks hane ha, wordRuns_append_breaks hbne hb]

lemma Spacing.breaks (hp : IsWordTest p) {a b : List Char} (h : Spacing a b) :
    (a ≠ [] ∧ ∀ c ∈ a, p c = false) ∧ b ≠ [] ∧ ∀ c ∈ b, p c = false := by
  rcases h with ⟨hs, hm⟩ | ⟨hm, hs⟩
  · simp [hp.space hs, hp.hinge hm]
  · simp [hp.space hs, hp.hinge hm]

lemma Joining.breaks (hp : IsWordTest p) {a b : List Char} (h : Joining a b) :
    (a ≠ [] ∧ ∀ c ∈ a, p c = false) ∧ b ≠ [] ∧ ∀ c ∈ b, p c = false := by
  rcases h with h | _
  · exact h.breaks hp
  · have hsemicolon : p ';' = false := hp.hinge (by decide)
    simp [hsemicolon]

lemma Squeezing.breaks (hp : IsWordTest p) {a b : List Char} (h : Squeezing a b) :
    (a ≠ [] ∧ ∀ c ∈ a, p c = false) ∧ b ≠ [] ∧ ∀ c ∈ b, p c = false := by
  have hblank {c : Char} (hc : isBlank c = true) : p c = false := by
    rw [isBlank, Bool.or_eq_true, beq_iff_eq, beq_iff_eq] at hc
    rcases hc with rfl | rfl
    · exact hp.space (by decide)
    · exact hp.space (by decide)
  rcases h with h | ⟨hs, ht⟩
  · exact h.breaks hp
  · simp [hblank hs, hblank ht, hblank (c := ' ') (by decide)]

/-- A frame has no word characters. -/
lemma wordRuns_framed (hp : IsWordTest p) (text : List Char) :
    wordRuns p (framed text) = wordRuns p text := by
  have hfeed : p '\n' = false := hp.space (by decide)
  have hfront := wordRuns_append_cons [] (text ++ ['\n']) hfeed
  have hback := wordRuns_append_cons text [] hfeed
  rw [wordRuns_nil, List.nil_append] at hfront
  rw [wordRuns_nil, List.append_nil] at hback
  exact hfront.trans hback

/-- Recased texts divide alike. -/
lemma forall₂_splitWhen (hp : IsWordTest p) {a b : List Char} (h : List.Forall₂ Recased a b) :
    List.Forall₂ (List.Forall₂ Recased) (splitWhen (fun c => !p c) a)
      (splitWhen (fun c => !p c) b) := by
  induction h with
  | nil => exact .cons .nil .nil
  | @cons x y xs ys hxy _ ih =>
      rw [splitWhen, splitWhen, hp.recased hxy]
      split
      · exact .cons .nil ih
      · cases hxs : splitWhen (fun c => !p c) xs with
        | nil => exact absurd hxs (splitWhen_ne_nil _ xs)
        | cons run runs =>
            rw [hxs] at ih
            cases hys : splitWhen (fun c => !p c) ys with
            | nil => exact absurd hys (splitWhen_ne_nil _ ys)
            | cons run' runs' =>
                rw [hys] at ih
                obtain ⟨hrun, hruns⟩ := List.forall₂_cons.1 ih
                exact .cons (.cons hxy hrun) hruns

/-- The runs of a text without regard to case. -/
def caselessRuns (p : Char → Bool) (text : List Char) : List (List (List Char)) :=
  (wordRuns p text).map fun run => run.map fun c => lowercase [c]

/-- **Recased texts have the same runs up to case.** -/
lemma caselessRuns_eq (hp : IsWordTest p) {a b : List Char} (h : List.Forall₂ Recased a b) :
    caselessRuns p a = caselessRuns p b := by
  have hruns : List.Forall₂ (List.Forall₂ Recased) (wordRuns p a) (wordRuns p b) := by
    refine List.rel_filter (fun run run' hrun => ?_) (forall₂_splitWhen hp h)
    cases hrun <;> simp
  rw [caselessRuns, caselessRuns]
  generalize wordRuns p a = runs, wordRuns p b = runs' at hruns
  induction hruns with
  | nil => rfl
  | cons hrun _ ih => rw [List.map_cons, List.map_cons, map_eq_of_recased Recased.lowercase_eq hrun, ih]

end Runs

/-! ## Notions of word characters -/

/-- A test that no hinge and no code point of white space passes. -/
lemma IsWordTest.of_tables {p : Char → Bool} (hhinge : ('\n' :: marks).all (fun c => !p c) = true)
    (hspace : ∀ n ∈ spaceCodes, p (Char.ofNat n) = false)
    (hrecased : ∀ {a b : Char}, Recased a b → p a = p b) : IsWordTest p where
  space hc := forall_space (P := fun c => p c = false) hspace hc
  hinge {c} hc := by
    have hmem : c ∈ '\n' :: marks := by simpa [isHinge] using hc
    simpa using List.all_eq_true.1 hhinge c hmem
  recased := hrecased

lemma isWordTest_isNameChar : IsWordTest isNameChar :=
  .of_tables (by decide +kernel) (by decide +kernel) Recased.isNameChar_eq

lemma isWordTest_isWordChar : IsWordTest isWordChar :=
  .of_tables (by decide +kernel) (by decide +kernel) Recased.isWordChar_eq

/-! ## Dropped tabs -/

/-- **Some tabs dropped.** -/
inductive TabsDropped : List Char → List Char → Prop
  | done : TabsDropped [] []
  | keep (c : Char) {xs ys : List Char} : TabsDropped xs ys → TabsDropped (c :: xs) (c :: ys)
  | drop {xs ys : List Char} : TabsDropped xs ys → TabsDropped ('\t' :: xs) ys

namespace TabsDropped

lemma refl : ∀ xs : List Char, TabsDropped xs xs
  | [] => done
  | c :: xs => keep c (refl xs)

lemma append {a b c d : List Char} (hab : TabsDropped a b) (hcd : TabsDropped c d) :
    TabsDropped (a ++ c) (b ++ d) := by
  induction hab with
  | done => exact hcd
  | keep c _ ih => exact keep c ih
  | drop _ ih => exact drop ih

/-- Tabs dropped from a whole are dropped from its parts. -/
lemma exists_append {a c t : List Char} (h : TabsDropped (a ++ c) t) :
    ∃ b d, t = b ++ d ∧ TabsDropped a b ∧ TabsDropped c d := by
  induction a generalizing t with
  | nil => exact ⟨[], t, rfl, done, h⟩
  | cons x a ih =>
      cases h with
      | keep _ h =>
          obtain ⟨b, d, rfl, hb, hd⟩ := ih h
          exact ⟨x :: b, d, rfl, keep x hb, hd⟩
      | drop h =>
          obtain ⟨b, d, rfl, hb, hd⟩ := ih h
          exact ⟨b, d, rfl, drop hb, hd⟩

/-- A text of one character that is no tab stays. -/
lemma eq_singleton {c : Char} (hc : c ≠ '\t') {t : List Char} (h : TabsDropped [c] t) : t = [c] := by
  cases h with
  | keep _ h =>
      cases h
      rfl
  | drop _ => exact absurd rfl hc

/-- The frame of a text stays. -/
lemma exists_framed {a t : List Char} (h : TabsDropped (framed a) t) :
    ∃ b, t = framed b ∧ TabsDropped a b := by
  obtain ⟨front, rest, rfl, hfront, hrest⟩ := exists_append (a := ['\n']) h
  obtain ⟨b, back, rfl, hb, hback⟩ := exists_append hrest
  rw [eq_singleton (by decide) hfront, eq_singleton (by decide) hback]
  exact ⟨b, rfl, hb⟩

/-- Tabs that go from a recased text can go from the text. -/
lemma pull_recased {a b t : List Char} (hab : List.Forall₂ Recased a b) (h : TabsDropped b t) :
    ∃ kept, TabsDropped a kept ∧ List.Forall₂ Recased kept t := by
  induction h generalizing a with
  | done =>
      cases hab
      exact ⟨[], done, .nil⟩
  | keep c _ ih =>
      cases hab with
      | @cons x _ xs _ hx hxs =>
          obtain ⟨kept, hkept, ht⟩ := ih hxs
          exact ⟨x :: kept, keep x hkept, .cons hx ht⟩
  | drop _ ih =>
      cases hab with
      | cons hx hxs =>
          obtain ⟨kept, hkept, ht⟩ := ih hxs
          obtain rfl := (hx.eq_sign_iff (c := '\t') (by decide)).2 rfl
          exact ⟨kept, drop hkept, ht⟩

end TabsDropped

/-- Tabs that go from either side of a pair can go from the other side. -/
def PullsTabs (rule : List Char → List Char → Prop) (a b : List Char) : Prop :=
  (∀ t, TabsDropped b t → ∃ s, TabsDropped a s ∧ Respaced rule s t)
    ∧ ∀ s, TabsDropped a s → ∃ t, TabsDropped b t ∧ Respaced rule s t

/-- **Tabs that go from one of two related texts can go from the other one.** -/
lemma Respaced.pull_tabs {rule : List Char → List Char → Prop}
    (hrule : ∀ a b, rule a b → PullsTabs rule a b) {a b : List Char} (h : Respaced rule a b) :
    PullsTabs rule a b := by
  induction h with
  | of h => exact hrule _ _ h
  | refl a => exact ⟨fun t ht => ⟨t, ht, .refl t⟩, fun s hs => ⟨s, hs, .refl s⟩⟩
  | symm _ ih =>
      refine ⟨fun t ht => ?_, fun s hs => ?_⟩
      · obtain ⟨s, hs, hst⟩ := ih.2 t ht
        exact ⟨s, hs, hst.symm⟩
      · obtain ⟨t, ht, hst⟩ := ih.1 s hs
        exact ⟨t, ht, hst.symm⟩
  | trans _ _ ih₁ ih₂ =>
      refine ⟨fun t ht => ?_, fun s hs => ?_⟩
      · obtain ⟨u, hu, hut⟩ := ih₂.1 t ht
        obtain ⟨s, hs, hsu⟩ := ih₁.1 u hu
        exact ⟨s, hs, hsu.trans hut⟩
      · obtain ⟨u, hu, hsu⟩ := ih₁.2 s hs
        obtain ⟨t, ht, hut⟩ := ih₂.2 u hu
        exact ⟨t, ht, hsu.trans hut⟩
  | append _ _ ih₁ ih₂ =>
      refine ⟨fun t ht => ?_, fun s hs => ?_⟩
      · obtain ⟨t₁, t₂, rfl, ht₁, ht₂⟩ := ht.exists_append
        obtain ⟨s₁, hs₁, hst₁⟩ := ih₁.1 t₁ ht₁
        obtain ⟨s₂, hs₂, hst₂⟩ := ih₂.1 t₂ ht₂
        exact ⟨s₁ ++ s₂, hs₁.append hs₂, hst₁.append hst₂⟩
      · obtain ⟨s₁, s₂, rfl, hs₁, hs₂⟩ := hs.exists_append
        obtain ⟨t₁, ht₁, hst₁⟩ := ih₁.2 s₁ hs₁
        obtain ⟨t₂, ht₂, hst₂⟩ := ih₂.2 s₂ hs₂
        exact ⟨t₁ ++ t₂, ht₁.append ht₂, hst₁.append hst₂⟩

lemma ne_tab_of_isHinge {m : Char} (h : isHinge m = true) : m ≠ '\t' := by
  rintro rfl
  revert h
  decide

/-- A pair pulls tabs if its left side can lose no more than what the pair takes away. -/
lemma pullsTabs_of {rule : List Char → List Char → Prop} {a : List Char} {m : Char} (hm : m ≠ '\t')
    (hrule : rule a [m]) (hleft : ∀ s, TabsDropped a s → s = a ∨ s = [m]) :
    PullsTabs rule a [m] := by
  refine ⟨fun t ht => ?_, fun s hs => ?_⟩
  · obtain rfl := ht.eq_singleton hm
    exact ⟨a, .refl a, .of hrule⟩
  · rcases hleft s hs with rfl | rfl
    · exact ⟨[m], .refl _, .of hrule⟩
    · exact ⟨[m], .refl _, .refl _⟩

lemma Joining.pullsTabs {a b : List Char} (h : Joining a b) : PullsTabs Joining a b := by
  rcases h with (⟨hs, hm⟩ | ⟨hm, hs⟩) | _
  · have htab := ne_tab_of_isHinge hm
    refine pullsTabs_of htab (.spacing (.before hs hm)) fun s h => ?_
    cases h with
    | keep _ h => exact .inl (by rw [h.eq_singleton htab])
    | drop h => exact .inr (h.eq_singleton htab)
  · have htab := ne_tab_of_isHinge hm
    refine pullsTabs_of htab (.spacing (.behind hm hs)) fun s h => ?_
    cases h with
    | drop _ => exact absurd rfl htab
    | keep _ h =>
        cases h with
        | keep _ h =>
            cases h
            exact .inl rfl
        | drop h =>
            cases h
            exact .inr rfl
  · refine pullsTabs_of (by decide) .semicolons fun s h => ?_
    cases h with
    | keep _ h => exact .inl (by rw [h.eq_singleton (by decide)])

end SqfLayout.Text

namespace SqfLayout

open SqfLayout.Text SqfLayout.Scan SqfLayout.Pass

/-! ## Tabs of commented lines -/

lemma tabsDropped_untabbed (scanned : ScannedLine) :
    TabsDropped (chars scanned.cells) (untabbed scanned) := by
  rw [untabbed]
  split
  · rw [dropTabs]
    induction scanned.cells with
    | nil => exact .done
    | cons cell cells ih =>
        rw [List.filter_cons]
        split
        · exact .keep _ ih
        · next hgone =>
            have htab : cell.char = '\t' := by
              simp only [Bool.or_eq_true, bne_iff_ne, not_or, not_not] at hgone
              exact hgone.1
            rw [chars_cons, htab]
            exact .drop ih
  · exact .refl _

lemma tabsDropped_unlines (mode : Mode) (ls : List (List Char)) :
    TabsDropped (unlines ls) (unlines (untabbedRows mode ls)) := by
  induction ls generalizing mode with
  | nil => exact .done
  | cons line rest ih =>
      have hline : TabsDropped line (untabbed (scanLine mode line).1) := by
        have hcells : chars (scanLine mode line).1.cells = line := chars_labelFrom _ line
        have huntabbed := tabsDropped_untabbed (scanLine mode line).1
        rwa [hcells] at huntabbed
      cases rest with
      | nil => exact hline
      | cons next rest => exact hline.append (.keep '\n' (ih _))

/-- **The text without its comment tabs lacks nothing but tabs.** -/
lemma tabsDropped_withoutCommentTabs (text : List Char) :
    TabsDropped text (withoutCommentTabs text) := by
  have h := tabsDropped_unlines .code (lines text)
  rwa [unlines_lines] at h

/-! ## All passes -/

/-- **What passes do to words**: the runs stay the same up to case, and whatever tabs are dropped
behind the passes could have been dropped before them. -/
def KeepsWords (p : Char → Bool) (a b : List Char) : Prop :=
  caselessRuns p a = caselessRuns p b
    ∧ ∀ t, TabsDropped b t → ∃ s, TabsDropped a s ∧ caselessRuns p s = caselessRuns p t

section Passes

variable {p : Char → Bool}

lemma KeepsWords.refl (a : List Char) : KeepsWords p a a := ⟨rfl, fun t ht => ⟨t, ht, rfl⟩⟩

lemma KeepsWords.trans {a b c : List Char} (hab : KeepsWords p a b) (hbc : KeepsWords p b c) :
    KeepsWords p a c := by
  refine ⟨hab.1.trans hbc.1, fun t ht => ?_⟩
  obtain ⟨u, hu, hut⟩ := hbc.2 t ht
  obtain ⟨s, hs, hsu⟩ := hab.2 u hu
  exact ⟨s, hs, hsu.trans hut⟩

lemma caselessRuns_of_respaced (hp : IsWordTest p) {a b : List Char} (h : Respaced Joining a b) :
    caselessRuns p a = caselessRuns p b := by
  rw [caselessRuns, caselessRuns, h.wordRuns_eq fun _ _ => Joining.breaks hp]

/-- Related texts have the same words. -/
lemma KeepsWords.of_respaced (hp : IsWordTest p) {a b : List Char} (h : Respaced Joining a b) :
    KeepsWords p a b := by
  refine ⟨caselessRuns_of_respaced hp h, fun t ht => ?_⟩
  obtain ⟨s, hs, hst⟩ := (h.pull_tabs fun _ _ => Joining.pullsTabs).1 t ht
  exact ⟨s, hs, caselessRuns_of_respaced hp hst⟩

/-- Texts that are related in a frame have the same words. -/
lemma KeepsWords.of_framed (hp : IsWordTest p) {a b : List Char}
    (h : Respaced Joining (framed a) (framed b)) : KeepsWords p a b := by
  have hframed (t : List Char) : caselessRuns p (framed t) = caselessRuns p t := by
    rw [caselessRuns, wordRuns_framed hp]
    rfl
  obtain ⟨hruns, hpull⟩ := KeepsWords.of_respaced hp h
  rw [hframed, hframed] at hruns
  refine ⟨hruns, fun t ht => ?_⟩
  have hfeed := TabsDropped.refl ['\n']
  obtain ⟨s, hs, hst⟩ := hpull (framed t) (hfeed.append (ht.append hfeed))
  obtain ⟨kept, rfl, hkept⟩ := hs.exists_framed
  rw [hframed, hframed] at hst
  exact ⟨kept, hkept, hst⟩

/-- Recased texts have the same words up to case. -/
lemma KeepsWords.of_recased (hp : IsWordTest p) {a b : List Char} (h : List.Forall₂ Recased a b) :
    KeepsWords p a b := by
  refine ⟨caselessRuns_eq hp h, fun t ht => ?_⟩
  obtain ⟨s, hs, hst⟩ := TabsDropped.pull_recased h ht
  exact ⟨s, hs, caselessRuns_eq hp hst⟩

/-- **Every pass before indentation keeps words.** -/
lemma keepsWords_apply (hp : IsWordTest p) (style : Style) {pass : LayoutPass} (hpass : pass ≠ .indent)
    (text : List Char) : KeepsWords p text (pass.apply style .builtin text) := by
  cases pass with
  | indent => exact absurd rfl hpass
  | margins => exact .of_framed hp (respaced_stripMargins text).joining
  | braces => exact .of_respaced hp (respaced_breakBraces text).joining
  | spelling =>
      exact .of_recased hp
        (recased_spellWords (fun word hword c hc => (builtin_plain word hword c hc).2) text)
  | commas => exact .of_respaced hp (respaced_spaceCommas text).joining
  | operators => exact .of_respaced hp (respaced_spaceOperators text).joining
  | headers => exact .of_respaced hp (respaced_spaceHeaders text).joining
  | statements => exact .of_respaced hp (respaced_splitStatements text).joining
  | semicolons => exact .of_respaced hp (respaced_joinSemicolons text)
  | parens => exact .of_respaced hp (respaced_trimParens text).joining

/-- The words of an indented text are those of the text without its comment tabs. -/
lemma wordRuns_indentLines (hp : IsWordTest p) (unit : IndentUnit) (text : List Char) :
    wordRuns p (indentLines unit text) = wordRuns p (withoutCommentTabs text) := by
  have h := (respaced_indentLines unit text).wordRuns_eq fun _ _ => Squeezing.breaks hp
  rw [wordRuns_framed hp, wordRuns_framed hp] at h
  exact h.symm

end Passes

/-- **Formatting keeps words, tabs of commented lines apart.**  Up to indentation the words stay the
same but for their case.  Indentation leaves the words of its text without the tabs that stand outside
literals on commented lines of code, to the letter.  So the words of a formatted text are those of its
source without some of its tabs. -/
theorem wordRuns_formatText (style : Style) (text : List Char) {p : Char → Bool}
    (hp : p = isNameChar ∨ p = isWordChar) :
    caselessRuns p (textBefore style .builtin .indent text) = caselessRuns p text
      ∧ wordRuns p (formatText style .builtin text)
        = wordRuns p (withoutCommentTabs (textBefore style .builtin .indent text))
      ∧ ∃ kept, TabsDropped text kept
        ∧ caselessRuns p (formatText style .builtin text) = caselessRuns p kept := by
  have htest : IsWordTest p := by
    rcases hp with rfl | rfl
    · exact isWordTest_isNameChar
    · exact isWordTest_isWordChar
  have hpasses : KeepsWords p text (textBefore style .builtin .indent text) :=
    runPasses_rel .refl (fun _ _ _ => .trans)
      (fun _ hmem t => keepsWords_apply htest style (ne_indent_of_mem_passesBefore hmem) t) text
  have hindent : wordRuns p (formatText style .builtin text)
      = wordRuns p (withoutCommentTabs (textBefore style .builtin .indent text)) := by
    rw [formatText_eq_indentLines, wordRuns_indentLines htest]
  refine ⟨hpasses.1.symm, hindent, ?_⟩
  obtain ⟨kept, hkept, hruns⟩ := hpasses.2 _ (tabsDropped_withoutCommentTabs _)
  refine ⟨kept, hkept, ?_⟩
  rw [hruns, caselessRuns, hindent]
  rfl

/-- A text whose spaces, line break and comment all change places around its words. -/
theorem wordRuns_formatText_call :
    (isNameChar = isNameChar ∨ isNameChar = isWordChar)
      ∧ formatText { normalizeCase := false } .builtin "a=b ;c( d ) // e f".toList
        = "a = b;\nc(d) // e f".toList
      ∧ ∃ kept, TabsDropped "a=b ;c( d ) // e f".toList kept
        ∧ caselessRuns isNameChar "a = b;\nc(d) // e f".toList = caselessRuns isNameChar kept := by
  have hformat : formatText { normalizeCase := false } .builtin "a=b ;c( d ) // e f".toList
      = "a = b;\nc(d) // e f".toList := by
    decide +kernel
  refine ⟨.inl rfl, hformat, ?_⟩
  have h := wordRuns_formatText { normalizeCase := false } "a=b ;c( d ) // e f".toList (.inl rfl)
  rw [hformat] at h
  exact h.2.2

/-- **A tab between two words on a commented line joins them.** -/
theorem wordRuns_formatText_tab :
    wordRuns isNameChar "a\tb // c".toList = [['a'], ['b'], ['c']]
      ∧ wordRuns isNameChar (formatText { normalizeCase := false } .builtin "a\tb // c".toList)
        = [['a', 'b'], ['c']] := by
  decide +kernel

end SqfLayout
