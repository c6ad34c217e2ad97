import SqfLayout.Proofs.HeaderPass

/-!
# Headers that stay as they are

Whether a conditional or a loop is found depends on the line breaks inside its condition, and later
passes break lines: behind semicolons, and beside braces.  So a header that is found in a script may be
missed in the formatted script, or the other way round.

**Steady headers.**  `HeaderForm.steadyScan` follows a condition.  It must not end behind a semicolon or a
word of a header, unless a line break that no pass takes away has come before (`firmGap`).

**Pairs of layouts.**  `Paired` compares the gaps of two layouts of the same tokens.  Where they break
lines at the same places, semicolons and words of headers apart (`Stays`), a steady layout has the same
changes as the other (`HeaderForm.changes_of_paired`, `changes_eq_of_paired`), and that is still so when
the changes are made (`Paired.change`, `Layout.Steady.change`).
-/

namespace SqfLayout

open SqfLayout.Text SqfLayout.Scan SqfLayout.Pass

/-! ## Steady headers -/

/-- Tokens beside which passes add or take away line breaks, braces apart. -/
def Token.isLoose (t : Token) : Bool := t == .mark ';' || t.isHeaderWord

/-- **A gap in which a line breaks whatever the passes do**: behind an opening brace, unless a remark
follows, or behind a semicolon where it breaks already. -/
def firmGap (prev : Token) (gap : List Char) (next : Token) : Bool :=
  next != .mark ',' && next != .mark ')' && next != .mark ';'
    && ((prev == .mark '{' && next != .mark '}' && !next.isRemark) || (prev == .mark ';' && gap.contains '\n'))

namespace HeaderForm

variable (form : HeaderForm)

/-- A condition that does not end behind a loose token, followed from behind a token on; at a remark it
breaks off anyway. -/
def steadyScan : Token → Bool → Layout → Bool
  | _, _, .last _ => true
  | prev, loose, .cons gap token rest =>
    if form.closes token rest then !loose
    else firmGap prev gap token || token.isRemark || steadyScan token (loose || token.isLoose) rest

/-- A condition that does not end behind a loose token. -/
def steadyCondition : Layout → Bool
  | .last _ => true
  | .cons _ token rest => form.closes token rest || token.isRemark || form.steadyScan token token.isLoose rest

/-- **A header whose condition stays within its line, or does not.** -/
def steadyAt (t : Token) (s : Layout) : Bool :=
  !t.isKeyword form.keyword || (s.after? form.opening).all form.steadyCondition

end HeaderForm

/-- A test at every token of a layout and what follows it. -/
def Layout.every (test : Token → Layout → Bool) : Layout → Bool
  | .last _ => true
  | .cons _ token rest => test token rest && rest.every test

/-- **A layout whose headers are steady.** -/
def Layout.Steady (s : Layout) : Prop :=
  s.every conditionalForm.steadyAt = true ∧ s.every loopForm.steadyAt = true

instance (s : Layout) : Decidable s.Steady := inferInstanceAs (Decidable (_ ∧ _))

/-! ## Pairs of layouts -/

/-- **Two layouts of the same tokens**, with a relation between their gaps. -/
inductive Paired (R : Token → List Char → List Char → Token → Prop) : Option Token → Layout → Layout → Prop
  | last (prev : Option Token) (gap gap' : List Char) : Paired R prev (.last gap) (.last gap')
  | cons {prev : Option Token} {gap gap' : List Char} {token : Token} {rest rest' : Layout}
      (hgap : ∀ a ∈ prev, R a gap gap' token) (hrest : Paired R (some token) rest rest') :
      Paired R prev (.cons gap token rest) (.cons gap' token rest')

section Paired

variable {R : Token → List Char → List Char → Token → Prop} {prev : Option Token} {x y : Layout}

lemma Paired.after? (h : Paired R prev x y) (c : Char) :
    (x.after? c = none ∧ y.after? c = none) ∨ ∃ rest rest', x.after? c = some rest ∧ y.after? c = some rest'
      ∧ Paired R (some (.mark c)) rest rest' := by
  cases h with
  | last => exact .inl ⟨rfl, rfl⟩
  | @cons _ _ _ token rest rest' _ hrest =>
      by_cases htoken : token = .mark c
      · subst htoken
        exact .inr ⟨rest, rest', by simp [Layout.after?], by simp [Layout.after?], hrest⟩
      · exact .inl ⟨by simp [Layout.after?, htoken], by simp [Layout.after?, htoken]⟩

lemma Paired.isSome_turn? (h : Paired R prev x y) (words : List (List Char)) (c : Char) :
    (x.turn? words c).isSome = (y.turn? words c).isSome := by
  cases h with
  | last => rfl
  | @cons _ _ _ token _ _ _ hrest =>
      obtain ⟨hnone, hnone'⟩ | ⟨body, body', hsome, hsome', -⟩ := hrest.after? c
      · simp [Layout.turn?, hnone, hnone']
      · by_cases hword : words.any token.isKeyword = true <;> simp [Layout.turn?, hsome, hsome', hword]

lemma Paired.closes (h : Paired R prev x y) (form : HeaderForm) (t : Token) :
    form.closes t x = form.closes t y := by
  rw [HeaderForm.closes, HeaderForm.closes, h.isSome_turn?]

end Paired

/-! ## The changes of paired layouts -/

/-- **Gaps that break lines alike**, where the tokens beside them are not loose. -/
structure Stays (prev : Token) (gap gap' : List Char) (next : Token) : Prop where
  same : prev.isLoose = false → next.isLoose = false → ('\n' ∈ gap ↔ '\n' ∈ gap')
  firm : firmGap prev gap next = true → '\n' ∈ gap ∧ '\n' ∈ gap'

/-- A kind of header whose marks are no semicolons. -/
def HeaderForm.Marked (form : HeaderForm) : Prop := form.opening ≠ ';' ∧ form.closing ≠ ';'

lemma Token.isLoose_mark {c : Char} (h : c ≠ ';') : (Token.mark c).isLoose = false := by
  simp [Token.isLoose, Token.isHeaderWord, Token.isKeyword, h]

lemma HeaderForm.Marked.isLoose_of_closes {form : HeaderForm} (hform : form.Marked) {t : Token} {s : Layout}
    (h : form.closes t s = true) : t.isLoose = false := by
  rw [HeaderForm.closes, Bool.and_eq_true, beq_iff_eq] at h
  rw [h.1]
  exact Token.isLoose_mark hform.2

section Changes

variable {form : HeaderForm} {prev : Option Token} {x y : Layout}

/-- **Conditions in paired layouts.**  Behind a loose token, a condition ends in neither of them. -/
lemma HeaderForm.scan_of_paired (hform : form.Marked) {a : Token} {loose : Bool} (h : Paired Stays (some a) x y)
    (hsteady : form.steadyScan a loose x = true) (ha : a.isLoose = true → loose = true) :
    form.scan x = form.scan y ∧ (loose = true → form.scan x = none) := by
  generalize hprev : some a = prev at h
  induction h generalizing a loose with
  | last => exact ⟨rfl, fun _ => rfl⟩
  | @cons _ gap gap' token rest rest' hgap hrest ih =>
      have hstays : Stays a gap gap' token := hgap a hprev.symm
      have hcloses := hrest.closes form token
      rw [HeaderForm.steadyScan] at hsteady
      by_cases hclose : form.closes token rest = true
      · obtain rfl : loose = false := by simpa [hclose] using hsteady
        have hprev : a.isLoose = false := by simpa using ha
        have hfeed := hstays.same hprev (hform.isLoose_of_closes hclose)
        exact ⟨by simp [HeaderForm.scan, hclose, ← hcloses, hfeed], by simp⟩
      · rw [if_neg hclose, Bool.or_eq_true, Bool.or_eq_true] at hsteady
        have hclose' : ¬ form.closes token rest' = true := hcloses ▸ hclose
        rcases hsteady with (hfirm | hremark) | hsteady
        · obtain ⟨hfeed, hfeed'⟩ := hstays.firm hfirm
          simp [HeaderForm.scan, hclose, hclose', hfeed, hfeed']
        · simp [HeaderForm.scan, hclose, hclose', hremark]
        · obtain ⟨heq, hnone⟩ := ih hsteady (by simp +contextual) rfl
          cases hloose : loose || token.isLoose with
          | true => simp [HeaderForm.scan, hclose, hclose', ← heq, hnone hloose]
          | false =>
              obtain ⟨rfl, htoken⟩ := Bool.or_eq_false_iff.1 hloose
              have hprev : a.isLoose = false := by simpa using ha
              have hfeed := hstays.same hprev htoken
              simp [HeaderForm.scan, hclose, hclose', heq, hfeed]

lemma HeaderForm.condition_of_paired (hform : form.Marked) (h : Paired Stays (some (.mark form.opening)) x y)
    (hsteady : form.steadyCondition x = true) : form.condition x = form.condition y := by
  cases h with
  | last => rfl
  | @cons _ gap gap' token rest rest' hgap hrest =>
      have hstays : Stays (.mark form.opening) gap gap' token := hgap _ rfl
      have hopening := Token.isLoose_mark hform.1
      have hcloses := hrest.closes form token
      by_cases hclose : form.closes token rest = true
      · have hfeed := hstays.same hopening (hform.isLoose_of_closes hclose)
        simp [HeaderForm.condition, hclose, ← hcloses, hfeed]
      · have hclose' : ¬ form.closes token rest' = true := hcloses ▸ hclose
        by_cases hremark : token.isRemark = true
        · simp [HeaderForm.condition, hclose, hclose', hremark]
        have hscan : form.steadyScan token token.isLoose rest = true := by
          simpa [HeaderForm.steadyCondition, hclose, hremark] using hsteady
        obtain ⟨heq, hnone⟩ := HeaderForm.scan_of_paired hform hrest hscan id
        cases hloose : token.isLoose with
        | true => simp [HeaderForm.condition, hclose, hclose', ← heq, hnone hloose]
        | false =>
            have hfeed := hstays.same hopening hloose
            simp [HeaderForm.condition, hclose, hclose', heq, hfeed]

/-- **The changes of a steady header in paired layouts.** -/
lemma HeaderForm.changes_of_paired (hform : form.Marked) {t : Token} (h : Paired Stays (some t) x y)
    (hsteady : form.steadyAt t x = true) : form.changes t x = form.changes t y := by
  rw [HeaderForm.changes, HeaderForm.changes]
  split
  next hkeyword =>
    obtain ⟨hnone, hnone'⟩ | ⟨rest, rest', hsome, hsome', hrest⟩ := h.after? form.opening
    · rw [hnone, hnone']
    · have hcondition : form.steadyCondition rest = true := by
        simpa [HeaderForm.steadyAt, hkeyword, hsome] using hsteady
      rw [hsome, hsome', Option.bind_some, Option.bind_some, HeaderForm.condition_of_paired hform hrest hcondition]
  next => rfl

lemma alternativeChanges_of_paired {R : Token → List Char → List Char → Token → Prop} {t : Token}
    (h : Paired R (some t) x y) : alternativeChanges t x = alternativeChanges t y := by
  have hturn := h.isSome_turn? otherWords '{'
  rw [alternativeChanges, alternativeChanges]
  cases hx : x.turn? otherWords '{' <;> cases hy : y.turn? otherWords '{' <;> simp_all

/-- **Layouts in which every header has the same changes have the same changes.** -/
lemma changes_eq_of_paired {R : Token → List Char → List Char → Token → Prop}
    {find : Token → Layout → Option Changes} {test : Token → Layout → Bool}
    (hfind : ∀ {t x y}, Paired R (some t) x y → test t x = true → find t x = find t y)
    (h : Paired R prev x y) (htest : x.every test = true) (pending : Changes) :
    x.changes find pending = y.changes find pending := by
  induction h generalizing pending with
  | last => rfl
  | cons _ hrest ih =>
      rw [Layout.every, Bool.and_eq_true] at htest
      cases pending with
      | nil => rw [Layout.changes, Layout.changes, hfind hrest htest.1, ih htest.2]
      | cons new pending => rw [Layout.changes, Layout.changes, ih htest.2]

end Changes

/-! ## Changes that keep layouts steady -/

/-- Gaps that stay firm. -/
def StaysFirm (prev : Token) (gap gap' : List Char) (next : Token) : Prop :=
  firmGap prev gap next = true → firmGap prev gap' next = true

section Steady

variable {prev : Option Token} {x y : Layout}

lemma HeaderForm.steadyScan_of_paired (form : HeaderForm) {a : Token} {loose : Bool}
    (h : Paired StaysFirm (some a) x y) (hsteady : form.steadyScan a loose x = true) :
    form.steadyScan a loose y = true := by
  generalize hprev : some a = prev at h
  induction h generalizing a loose with
  | last => rfl
  | cons hfirm hrest ih =>
      rw [HeaderForm.steadyScan] at hsteady ⊢
      rw [← hrest.closes]
      split at hsteady
      next hclose => rwa [if_pos hclose]
      next hclose =>
        rw [if_neg hclose]
        rw [Bool.or_eq_true, Bool.or_eq_true] at hsteady ⊢
        exact hsteady.imp (Or.imp_left (hfirm a hprev.symm)) (ih · rfl)

lemma HeaderForm.steadyAt_of_paired (form : HeaderForm) {t : Token} (h : Paired StaysFirm (some t) x y)
    (hsteady : form.steadyAt t x = true) : form.steadyAt t y = true := by
  rw [HeaderForm.steadyAt, Bool.or_eq_true] at hsteady ⊢
  refine hsteady.imp id fun hsteady => ?_
  obtain ⟨hnone, hnone'⟩ | ⟨rest, rest', hsome, hsome', hrest⟩ := h.after? form.opening
  · simp [hnone']
  · rw [hsome, Option.all_some] at hsteady
    rw [hsome', Option.all_some]
    cases hrest with
    | last => rfl
    | cons _ hbehind =>
        rw [HeaderForm.steadyCondition, Bool.or_eq_true] at hsteady ⊢
        rw [← hbehind.closes]
        exact hsteady.imp id (form.steadyScan_of_paired hbehind)

lemma every_of_paired {R : Token → List Char → List Char → Token → Prop} {test : Token → Layout → Bool}
    (htest : ∀ {t x y}, Paired R (some t) x y → test t x = true → test t y = true) (h : Paired R prev x y)
    (hx : x.every test = true) : y.every test = true := by
  induction h with
  | last => rfl
  | cons _ hrest ih =>
      rw [Layout.every, Bool.and_eq_true] at hx ⊢
      exact ⟨htest hrest hx.1, ih hx.2⟩

/-- **A layout whose gaps stay firm stays steady.** -/
lemma Layout.Steady.of_paired (hx : x.Steady) (h : Paired StaysFirm prev x y) : y.Steady :=
  ⟨every_of_paired conditionalForm.steadyAt_of_paired h hx.1, every_of_paired loopForm.steadyAt_of_paired h hx.2⟩

/-- Conditionals and alternatives change no firm gap. -/
lemma ChangeAt.firmGap_eq_false {a b : Token} {gap new : List Char} (h : ChangeAt false a gap b new)
    (gap' : List Char) : firmGap a gap' b = false := by
  have hmark {c : Char} : (Token.mark c).isHeaderWord = false := by
    simp [Token.isHeaderWord, Token.isKeyword]
  by_contra hfirm
  simp only [firmGap, Bool.not_eq_false, Bool.and_eq_true, Bool.or_eq_true, bne_iff_ne, beq_iff_eq] at hfirm
  obtain ⟨⟨⟨-, hclose⟩, -⟩, hprev⟩ := hfirm
  have ha : a = .mark '{' ∨ a = .mark ';' := hprev.imp (·.1.1) And.left
  cases h with
  | word hword => rcases ha with rfl | rfl <;> simp [hmark] at hword
  | paren hparen _ => rcases ha with rfl | rfl <;> simp [hclose] at hparen
  | brace hbraces _ _ _ => simp at hbraces
  | empty hbraces _ _ => simp at hbraces

/-- **Paired layouts with the same changes stay paired.** -/
lemma Paired.change (h : Paired Stays prev x y) {changes : Changes}
    (hchanges : Changes.All (ChangeAt false) prev x changes) :
    Paired Stays prev (x.change changes) (y.change changes) := by
  induction h generalizing changes with
  | last prev gap gap' => cases changes <;> exact .last _ _ _
  | cons hgap hrest ih =>
      cases changes with
      | nil => exact .cons hgap hrest
      | cons new changes =>
          refine .cons (fun a ha => ?_) (ih hchanges.2)
          cases new with
          | none => exact hgap a ha
          | some form =>
              obtain ⟨a', ha', hat⟩ := hchanges.1 form rfl
              obtain rfl := Option.mem_unique ha ha'
              exact ⟨fun _ _ => Iff.rfl, fun hfirm => by simp [hat.firmGap_eq_false] at hfirm⟩

lemma staysFirm_change {changes : Changes} (hchanges : Changes.All (ChangeAt false) prev x changes) :
    Paired StaysFirm prev x (x.change changes) := by
  induction x generalizing prev changes with
  | last gap => cases changes <;> exact .last _ _ _
  | cons gap token rest ih =>
      cases changes with
      | nil =>
          have hrest : Paired StaysFirm (some token) rest (rest.change []) := ih Changes.all_nil
          exact .cons (fun a _ => id) (by simpa [Layout.change] using hrest)
      | cons new changes =>
          refine .cons (fun a ha hfirm => ?_) (ih hchanges.2)
          cases new with
          | none => exact hfirm
          | some form =>
              obtain ⟨a', ha', hat⟩ := hchanges.1 form rfl
              obtain rfl := Option.mem_unique ha ha'
              simp [hat.firmGap_eq_false] at hfirm

/-- **A steady layout stays steady** when its conditionals or alternatives are spaced. -/
lemma Layout.Steady.change (hx : x.Steady) {changes : Changes}
    (hchanges : Changes.All (ChangeAt false) prev x changes) : (x.change changes).Steady :=
  hx.of_paired (staysFirm_change hchanges)

end Steady

end SqfLayout
