import SqfLayout.Proofs.LoopGaps

/-!
# Headers in a layout

**Places.**  `ChangeAt` says which gaps a header may change, and to what: a gap beside one of its words
becomes a space, and so on.  The changes of every kind of header keep to that (`all_conditionals`,
`all_alternatives`, `all_loops`), so that a layout still fits when its headers are spaced.

**The pass.**  `Layout.headed` spaces the three kinds of headers in a row, and `spaceHeaders_text` says
that the pass does so.
-/

namespace SqfLayout

open SqfLayout.Text SqfLayout.Scan SqfLayout.Pass

/-! ## The places of changes -/

/-- Whether a token is a word of a header. -/
def Token.isHeaderWord (t : Token) : Bool := headerWords.any t.isKeyword

lemma Token.isHeaderWord_of_any {t : Token} {words : List (List Char)} (hwords : words ⊆ headerWords)
    (h : words.any t.isKeyword = true) : t.isHeaderWord = true := by
  obtain ⟨word, hmem, hword⟩ := List.any_eq_true.1 h
  exact List.any_eq_true.2 ⟨word, hwords hmem, hword⟩

lemma Token.isRemark_of_isHeaderWord {t : Token} (h : t.isHeaderWord = true) : t.isRemark = false := by
  cases t with
  | remark body => simp [isHeaderWord, isKeyword] at h
  | _ => rfl

/-- **What a header may make of a gap**, in a kind of header that has a condition in braces or not. -/
inductive ChangeAt (braces : Bool) (prev : Token) (gap : List Char) (next : Token) : List Char → Prop
  /-- A space stands beside the words of a header. -/
  | word (h : prev.isHeaderWord = true
      ∨ (prev = .mark ')' ∨ prev = .mark '}') ∧ next.isHeaderWord = true) : ChangeAt braces prev gap next [' ']
  /-- A condition within a line stands directly in its parentheses. -/
  | paren (h : prev = .mark '(' ∨ next = .mark ')') (hgap : '\n' ∉ gap) : ChangeAt braces prev gap next []
  /-- A space parts a condition from its braces.  It neither starts nor ends with a remark. -/
  | brace (hbraces : braces = true) (h : prev = .mark '{' ∨ next = .mark '}') (hprev : prev.isRemark = false)
      (hnext : next.isRemark = false) : ChangeAt braces prev gap next [' ']
  /-- A condition may be empty. -/
  | empty (hbraces : braces = true) (hprev : prev = .mark '{') (hnext : next = .mark '}') :
      ChangeAt braces prev gap next []

lemma ChangeAt.blank {braces : Bool} {prev next : Token} {gap new : List Char}
    (h : ChangeAt braces prev gap next new) : new = [] ∨ new = [' '] := by
  cases h <;> simp

/-- **A gap that a header has changed fits.** -/
lemma ChangeAt.fits {braces : Bool} {prev next : Token} {gap new : List Char}
    (h : ChangeAt braces prev gap next new) (hfits : Fits (some prev) gap (some next)) :
    Fits (some prev) new (some next) := by
  have hspace (hprev : prev.isRemark = false) : Fits (some prev) [' '] (some next) :=
    hfits.blanks (by decide) (by simp) (by simpa using hprev) (by simp)
  cases h with
  | word hword =>
      refine hspace ?_
      rcases hword with hword | ⟨rfl | rfl, -⟩
      · exact Token.isRemark_of_isHeaderWord hword
      · rfl
      · rfl
  | brace _ _ hprev _ => exact hspace hprev
  | paren hmark hgap =>
      rcases hmark with rfl | rfl
      · exact hfits.nil_of_prev (by decide) (by decide)
      · exact hfits.nil_of_next (hfits.no_remark hgap (by simp)) (by decide) (by decide)
  | empty _ hprev _ =>
      subst hprev
      exact hfits.nil_of_prev (by decide) (by decide)

/-- Every change of a list satisfies a condition at its place. -/
def Changes.All (P : Token → List Char → Token → List Char → Prop) : Option Token → Layout → Changes → Prop
  | prev, .cons gap token rest, new :: changes =>
    (∀ form ∈ new, ∃ a ∈ prev, P a gap token form) ∧ Changes.All P (some token) rest changes
  | _, _, _ => True

section All

variable {P : Token → List Char → Token → List Char → Prop} {prev : Option Token} {s : Layout}
  {find : Token → Layout → Option Changes}

lemma Changes.all_nil : Changes.All P prev s [] := by
  cases s <;> trivial

lemma Changes.All.split {gap : List Char} {token : Token} {changes : Changes}
    (h : Changes.All P prev (.cons gap token s) changes) :
    (∀ form ∈ changes.head?.join, ∃ a ∈ prev, P a gap token form) ∧ Changes.All P (some token) s changes.tail := by
  cases changes with
  | nil => exact ⟨by simp, Changes.all_nil⟩
  | cons new changes => exact h

/-- **What holds of the changes of each header holds of the changes of all.** -/
lemma Layout.all_changes (hfind : ∀ t s changes, find t s = some changes → Changes.All P (some t) s changes)
    {pending : Changes} (h : Changes.All P prev s pending) : Changes.All P prev s (s.changes find pending) := by
  induction s generalizing prev pending with
  | last gap => trivial
  | cons gap token rest ih =>
      cases pending with
      | nil =>
          refine ⟨by simp, ih ?_⟩
          cases hrest : find token rest with
          | none => exact Changes.all_nil
          | some changes => exact hfind _ _ _ hrest
      | cons new pending => exact ⟨h.1, ih h.2⟩

lemma Changes.All.imp {Q : Token → List Char → Token → List Char → Prop} {changes : Changes}
    (h : Changes.All P prev s changes) (himp : ∀ a gap b new, P a gap b new → Q a gap b new) :
    Changes.All Q prev s changes := by
  induction s generalizing prev changes with
  | last gap => trivial
  | cons gap token rest ih =>
      cases changes with
      | nil => trivial
      | cons new changes =>
          refine ⟨fun form hform => ?_, ih h.2⟩
          obtain ⟨a, ha, hP⟩ := h.1 form hform
          exact ⟨a, ha, himp _ _ _ _ hP⟩

/-- **A layout whose gaps headers have changed fits.** -/
lemma Fitting.change {braces : Bool} {changes : Changes} (hs : Fitting prev s)
    (h : Changes.All (ChangeAt braces) prev s changes) : Fitting prev (s.change changes) := by
  induction s generalizing prev changes with
  | last gap => cases changes <;> exact hs
  | cons gap token rest ih =>
      cases changes with
      | nil => exact hs
      | cons new changes =>
          obtain ⟨hfits, hvalid, hrest⟩ := hs
          refine ⟨?_, hvalid, ih hrest h.2⟩
          cases new with
          | none => exact hfits
          | some form =>
              obtain ⟨a, rfl, hat⟩ := h.1 form rfl
              exact hat.fits hfits

lemma Layout.tokens_change (changes : Changes) (s : Layout) : (s.change changes).tokens = s.tokens := by
  induction s generalizing changes with
  | last gap => cases changes <;> rfl
  | cons gap token rest ih =>
      cases changes with
      | nil => rfl
      | cons new changes => exact congrArg (token :: ·) (ih changes)

end All

/-! ## The changes of headers -/

/-- What a word and a mark are made of. -/
lemma Layout.exists_of_turn? {s : Layout} {words : List (List Char)} {c : Char}
    (h : (s.turn? words c).isSome = true) :
    ∃ gap word gap' body, s = .cons gap word (.cons gap' (.mark c) body) ∧ words.any word.isKeyword = true := by
  cases s with
  | last gap => simp [Layout.turn?] at h
  | cons gap word rest =>
      rw [Layout.turn?] at h
      split at h
      · next hword =>
          cases rest with
          | last gap' => simp [Layout.after?] at h
          | cons gap' token body =>
              rw [Layout.after?] at h
              split at h
              · next htoken =>
                  subst htoken
                  exact ⟨gap, word, gap', body, rfl, hword⟩
              · simp at h
      · simp at h

namespace HeaderForm

/-- **A kind of header whose changes stand at the right places.** -/
structure Apt (form : HeaderForm) (braces : Bool) : Prop where
  words : form.keyword :: form.words ⊆ headerWords
  closing : form.closing = ')' ∨ form.closing = '}'
  opens : ∀ gap next, next.isRemark = false → (form.strict = true → '\n' ∉ gap) →
    ChangeAt braces (.mark form.opening) gap next form.edge
  closes : ∀ prev gap, prev.isRemark = false → (form.strict = true → '\n' ∉ gap) →
    ChangeAt braces prev gap (.mark form.closing) form.edge
  empty : ∀ gap, (form.strict = true → '\n' ∉ gap) →
    ChangeAt braces (.mark form.opening) gap (.mark form.closing) []

lemma apt_conditional : conditionalForm.Apt false where
  words := by decide
  closing := .inl rfl
  opens _ _ _ hgap := .paren (.inl rfl) (hgap rfl)
  closes _ _ _ hgap := .paren (.inr rfl) (hgap rfl)
  empty _ hgap := .paren (.inl rfl) (hgap rfl)

lemma apt_loop : loopForm.Apt true where
  words := by decide
  closing := .inr rfl
  opens _ _ hnext _ := .brace rfl (.inl rfl) rfl hnext
  closes _ _ hprev _ := .brace rfl (.inr rfl) hprev rfl
  empty _ _ := .empty rfl rfl rfl

variable {form : HeaderForm} {braces : Bool}

/-- The changes at the end of a condition. -/
lemma Apt.all_end (h : form.Apt braces) {prev t : Token} {gap edge : List Char} {rest : Layout}
    (hcloses : form.closes t rest = true) (hedge : ChangeAt braces prev gap (.mark form.closing) edge) :
    Changes.All (ChangeAt braces) (some prev) (.cons gap t rest) [some edge, some [' '], some [' ']] := by
  rw [HeaderForm.closes, Bool.and_eq_true, beq_iff_eq] at hcloses
  obtain ⟨rfl, hturn⟩ := hcloses
  obtain ⟨gap₁, word, gap₂, body, rfl, hword⟩ := Layout.exists_of_turn? hturn
  have hheader : word.isHeaderWord = true :=
    Token.isHeaderWord_of_any (fun _ hmem => h.words (List.mem_cons_of_mem _ hmem)) hword
  have hmark : Token.mark form.closing = .mark ')' ∨ Token.mark form.closing = .mark '}' := by
    simpa using h.closing
  have hfirst : ChangeAt braces (.mark form.closing) gap₁ word [' '] := .word (.inr ⟨hmark, hheader⟩)
  have hsecond : ChangeAt braces word gap₂ (.mark '{') [' '] := .word (.inl hheader)
  simpa [Changes.All] using ⟨hedge, hfirst, hsecond⟩

lemma Apt.all_scan (h : form.Apt braces) {prev : Token} (hprev : prev.isRemark = false) {s : Layout}
    {changes : Changes} (hscan : form.scan s = some changes) :
    Changes.All (ChangeAt braces) (some prev) s changes := by
  induction s generalizing prev changes with
  | last gap => simp [HeaderForm.scan] at hscan
  | cons gap token rest ih =>
      rw [HeaderForm.scan] at hscan
      split at hscan
      · simp at hscan
      next hstrict =>
      split at hscan
      · next hcloses =>
          obtain rfl := Option.some.inj hscan
          exact h.all_end hcloses (h.closes prev gap hprev fun hon hfeed => hstrict ⟨hon, hfeed⟩)
      split at hscan
      · simp at hscan
      next hgoes =>
      obtain ⟨inner, hinner, rfl⟩ := Option.map_eq_some_iff.1 hscan
      exact ⟨by simp, ih (by simpa using fun hremark => hgoes (.inr hremark)) hinner⟩

/-- **The changes of a header with a condition stand at the right places.** -/
lemma Apt.all_changes (h : form.Apt braces) (t : Token) (s : Layout) (changes : Changes)
    (hchanges : form.changes t s = some changes) : Changes.All (ChangeAt braces) (some t) s changes := by
  obtain ⟨hkeyword, rest, hafter, inner, hinner, rfl⟩ := of_changes hchanges
  have hheader : t.isHeaderWord = true :=
    List.any_eq_true.2 ⟨form.keyword, h.words List.mem_cons_self, hkeyword⟩
  cases s with
  | last gap => simp [Layout.after?] at hafter
  | cons gap token behind =>
      simp only [Layout.after?, Option.ite_none_right_eq_some, Option.some.injEq] at hafter
      obtain ⟨rfl, rfl⟩ := hafter
      refine ⟨by simpa using .word (.inl hheader), ?_⟩
      cases behind with
      | last gap' => simp [HeaderForm.condition] at hinner
      | cons gap' token rest =>
          rw [HeaderForm.condition] at hinner
          split at hinner
          · simp at hinner
          next hstrict =>
          have hgap : form.strict = true → '\n' ∉ gap' := fun hon hfeed => hstrict ⟨hon, hfeed⟩
          split at hinner
          · next hcloses =>
              obtain rfl := Option.some.inj hinner
              exact h.all_end hcloses (h.empty gap' hgap)
          split at hinner
          · simp at hinner
          next hremark =>
          have htoken : token.isRemark = false := by simpa using hremark
          obtain ⟨scanned, hscan, rfl⟩ := Option.map_eq_some_iff.1 hinner
          exact ⟨by simpa using h.opens gap' token htoken hgap, h.all_scan htoken hscan⟩

end HeaderForm

lemma all_alternativeChanges (t : Token) (s : Layout) (changes : Changes)
    (h : alternativeChanges t s = some changes) : Changes.All (ChangeAt false) (some t) s changes := by
  rw [alternativeChanges, Option.ite_none_right_eq_some] at h
  obtain ⟨rfl, h⟩ := h
  obtain ⟨found, hfound, rfl⟩ := Option.map_eq_some_iff.1 h
  obtain ⟨gap₁, word, gap₂, body, rfl, hword⟩ := Layout.exists_of_turn? (by rw [hfound]; rfl)
  have hheader : word.isHeaderWord = true := Token.isHeaderWord_of_any (by decide) hword
  have hfirst : ChangeAt false (.mark '}') gap₁ word [' '] := .word (.inr ⟨.inr rfl, hheader⟩)
  have hsecond : ChangeAt false word gap₂ (.mark '{') [' '] := .word (.inl hheader)
  simpa [Changes.All] using ⟨hfirst, hsecond⟩

section Headed

variable (s : Layout) (prev : Option Token)

lemma all_conditionals :
    Changes.All (ChangeAt false) prev s (s.changes conditionalForm.changes []) :=
  Layout.all_changes HeaderForm.apt_conditional.all_changes Changes.all_nil

lemma all_alternatives : Changes.All (ChangeAt false) prev s (s.changes alternativeChanges []) :=
  Layout.all_changes all_alternativeChanges Changes.all_nil

lemma all_loops : Changes.All (ChangeAt true) prev s (s.changes loopForm.changes []) :=
  Layout.all_changes HeaderForm.apt_loop.all_changes Changes.all_nil

end Headed

/-! ## The pass -/

namespace Layout

/-- A layout with one kind of headers spaced. -/
def spaced (find : Token → Layout → Option Changes) (s : Layout) : Layout := s.change (s.changes find [])

/-- **A layout with its headers spaced.** -/
def headed (s : Layout) : Layout :=
  ((s.spaced conditionalForm.changes).spaced alternativeChanges).spaced loopForm.changes

lemma Plain.change {s : Layout} (h : s.Plain) (changes : Changes) : (s.change changes).Plain := by
  rw [Layout.Plain, tokens_change]
  exact h

end Layout

section Headed

variable {s : Layout} {prev : Option Token}

lemma Fitting.spaced_conditionals (h : Fitting prev s) : Fitting prev (s.spaced conditionalForm.changes) :=
  h.change (all_conditionals s prev)

lemma Fitting.spaced_alternatives (h : Fitting prev s) : Fitting prev (s.spaced alternativeChanges) :=
  h.change (all_alternatives s prev)

lemma Fitting.headed (h : Fitting prev s) : Fitting prev s.headed :=
  h.spaced_conditionals.spaced_alternatives.change (all_loops _ prev)

/-- **Headers on a layout.** -/
lemma spaceHeaders_text (h : Fitting none s) (hplain : s.Plain) : spaceHeaders s.text = s.headed.text := by
  have hconditionals : spaceConditionals s.text = (s.spaced conditionalForm.changes).text :=
    changesGaps_conditionals.chars_replaceFound h hplain
  have halternatives : spaceAlternatives (s.spaced conditionalForm.changes).text
      = ((s.spaced conditionalForm.changes).spaced alternativeChanges).text :=
    changesGaps_alternatives.chars_replaceFound h.spaced_conditionals (hplain.change _)
  rw [spaceHeaders_eq, hconditionals, halternatives]
  exact changesGaps_loops.chars_replaceFound h.spaced_conditionals.spaced_alternatives
    ((hplain.change _).change _)

end Headed

end SqfLayout
