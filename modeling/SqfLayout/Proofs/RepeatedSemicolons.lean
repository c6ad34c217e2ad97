import SqfLayout.Proofs.Settled

/-!
# Headers and repeated semicolons

Semicolons that follow another are dropped behind the headers pass.  They could as well be dropped before
it (`Layout.headed_single`), if the headers are steady: a condition with a semicolon is then none with or without
the repeated ones.

**Conditions.**  Nothing that a test looks at is a dropped semicolon (`Layout.isSome_turn?_single`,
`HeaderForm.closes_single`), so a steady condition has the same changes (`HeaderForm.scan_single`), and it
has no semicolons where it has changes (`HeaderForm.notMem_of_scan`).

**Layouts.**  `KeepsSingle` is what a kind of headers needs for its changes to be those of the layout
without repeated semicolons (`KeepsSingle.change_single`).
-/

namespace SqfLayout

open SqfLayout.Text SqfLayout.Scan SqfLayout.Pass

section Single

variable {prev : Option Token} {x y : Layout}

/-! ## Tests -/

lemma Layout.after?_single (h : prev ≠ some (.mark ';')) (c : Char) :
    (x.single prev).after? c = (x.after? c).map (·.single (some (.mark c))) := by
  cases x with
  | last gap => rfl
  | cons gap token rest =>
      rw [Layout.single_cons h]
      by_cases htoken : token = .mark c <;> simp [Layout.after?, htoken]

lemma Layout.isSome_turn?_single (h : prev ≠ some (.mark ';')) (words : List (List Char)) (c : Char) :
    ((x.single prev).turn? words c).isSome = (x.turn? words c).isSome := by
  cases x with
  | last gap => rfl
  | cons gap token rest =>
      rw [Layout.single_cons h, Layout.turn?, Layout.turn?]
      split
      · next hwords =>
          have htoken : some token ≠ some (.mark ';') := by
            rintro heq
            obtain rfl := Option.some.inj heq
            simp [Token.isKeyword] at hwords
          simp [Layout.after?_single htoken]
      · rfl

lemma Layout.tokens_of_turn? {words : List (List Char)} {c : Char} (h : (x.turn? words c).isSome = true) :
    ∃ text rest, x.tokens = .word text :: .mark c :: rest := by
  cases x with
  | last gap => simp [Layout.turn?] at h
  | cons gap word rest =>
      rw [Layout.turn?] at h
      split at h
      next hword =>
        obtain ⟨keyword, -, hkeyword⟩ := List.any_eq_true.1 hword
        obtain ⟨text, rfl⟩ := Token.exists_word (Token.isWord_of_isKeyword hkeyword)
        cases rest with
        | last gap => simp [Layout.after?] at h
        | cons gap token rest =>
            obtain rfl : token = .mark c := by
              by_contra hne
              simp [Layout.after?, hne] at h
            exact ⟨text, rest.tokens, rfl⟩
      next => simp at h

/-! ## Plain layouts -/

lemma Layout.head?_tokens_single (h : prev ≠ some (.mark ';')) : (x.single prev).tokens.head? = x.tokens.head? := by
  cases x with
  | last gap => rfl
  | cons gap token rest => rw [Layout.single_cons h, Layout.tokens, Layout.tokens, List.head?_cons, List.head?_cons]

/-- Tokens go on with a header, and end a loop, before the first semicolon. -/
lemma Layout.goesOn_single (h : prev ≠ some (.mark ';')) :
    goesOn (x.single prev).tokens = goesOn x.tokens ∧ endsLoop (x.single prev).tokens = endsLoop x.tokens := by
  have hkey (words : List (List Char)) : words.any (Token.mark ';').isKeyword = false := by
    simp [Token.isKeyword]
  cases x with
  | last gap => exact ⟨rfl, rfl⟩
  | cons gap a rest =>
      rw [Layout.single_cons h, Layout.tokens, Layout.tokens]
      by_cases ha : a = .mark ';'
      · subst ha
        constructor <;> simp only [goesOn, endsLoop, List.head?_cons, Option.any_some, hkey] <;> rfl
      · have ha' : some a ≠ some (.mark ';') := fun heq => ha (Option.some.inj heq)
        constructor
        · simp only [goesOn, List.head?_cons, List.getElem?_cons_succ, ← List.head?_eq_getElem?,
            Layout.head?_tokens_single ha']
        · cases rest with
          | last gap => rfl
          | cons gap b rest =>
              rw [Layout.single_cons ha', Layout.tokens, Layout.tokens]
              by_cases hb : b = .mark ';'
              · subst hb
                simp only [endsLoop, List.getElem?_cons_succ, List.getElem?_cons_zero, Option.any_some, hkey,
                  Bool.and_false, Bool.false_and]
              · have hb' : some b ≠ some (.mark ';') := fun heq => hb (Option.some.inj heq)
                simp only [endsLoop, List.head?_cons, List.getElem?_cons_succ, ← List.head?_eq_getElem?,
                  Layout.head?_tokens_single hb']

/-- A plain layout is so without its repeated semicolons. -/
lemma Layout.Plain.single (h : x.Plain) (prev : Option Token) : (x.single prev).Plain := by
  induction x generalizing prev with
  | last gap => exact h
  | cons gap token rest ih =>
      rw [Layout.single]
      split
      · exact ih h.2 _
      · refine ⟨?_, ih h.2 _⟩
        have htoken := h.1
        cases token with
        | remark body =>
            have hprev : some (Token.remark body) ≠ some (.mark ';') := by simp
            obtain ⟨hgoes, hends⟩ := Layout.goesOn_single (x := rest) hprev
            exact ⟨htoken.1, fun hgo => htoken.2.1 (hgoes ▸ hgo), hends.trans htoken.2.2⟩
        | literal quote body => exact htoken
        | _ => trivial

/-- What keeps to the line breaks of another layout keeps to its own. -/
lemma Paired.self (h : Paired Stays prev x y) : Paired Stays prev x x := by
  induction h with
  | last prev gap gap' => exact .last _ _ _
  | cons hgap _ ih =>
      refine .cons (fun a ha => ⟨fun _ _ => Iff.rfl, fun hfirm => ?_⟩) ih
      exact ⟨((hgap a ha).firm hfirm).1, ((hgap a ha).firm hfirm).1⟩

/-- A layout that is paired with itself is so without its repeated semicolons. -/
lemma Paired.self_single {R : Token → List Char → List Char → Token → Prop} (h : Paired R prev x x) :
    Paired R prev (x.single prev) (x.single prev) := by
  induction x generalizing prev with
  | last gap => exact .last _ _ _
  | cons gap token rest ih =>
      cases h with
      | cons hgap hrest =>
          rw [Layout.single]
          split
          · next hboth =>
              obtain ⟨rfl, rfl⟩ := hboth
              exact ih hrest
          · exact .cons hgap (ih hrest)

end Single

/-! ## Conditions -/

namespace HeaderForm

variable {form : HeaderForm}

lemma closes_single (hform : form.Marked) (t : Token) (x : Layout) :
    form.closes t (x.single (some t)) = form.closes t x := by
  rw [closes, closes]
  by_cases ht : t = .mark form.closing
  · have hne : some t ≠ some (.mark ';') := by simp [ht, hform.2]
    rw [Layout.isSome_turn?_single hne]
  · rw [beq_eq_false_iff_ne.2 ht, Bool.false_and, Bool.false_and]

lemma steadyScan_single (hform : form.Marked) {a : Token} {loose : Bool} {x : Layout}
    (hsteady : form.steadyScan a loose x = true) (ha : a.isLoose = true → loose = true) :
    form.steadyScan a loose (x.single (some a)) = true := by
  induction x generalizing a loose with
  | last gap => rfl
  | cons gap token rest ih =>
      rw [steadyScan] at hsteady
      rw [Layout.single]
      split
      next hboth =>
        obtain ⟨rfl, hprev⟩ := hboth
        obtain rfl := Option.some.inj hprev
        obtain rfl : loose = true := ha rfl
        have hclose : form.closes (.mark ';') rest = false := by simp [closes, hform.2.symm]
        refine ih ?_ fun _ => rfl
        simpa [hclose, firmGap, Token.isRemark] using hsteady
      next =>
        rw [steadyScan, closes_single hform]
        split at hsteady
        next hclose => rwa [if_pos hclose]
        next hclose =>
          rw [if_neg hclose]
          rw [Bool.or_eq_true] at hsteady ⊢
          exact hsteady.imp id fun hrest => ih hrest (by simp +contextual)

/-- **A steady header is steady without repeated semicolons.** -/
lemma steadyAt_single (hform : form.Marked) {t : Token} {x : Layout} (hsteady : form.steadyAt t x = true) :
    form.steadyAt t (x.single (some t)) = true := by
  rw [steadyAt, Bool.or_eq_true] at hsteady ⊢
  by_cases ht : t = .mark ';'
  · exact .inl (by simp [ht, Token.isKeyword])
  · refine hsteady.imp id fun hcondition => ?_
    rw [Layout.after?_single (by simpa using ht)]
    cases hafter : x.after? form.opening with
    | none => rfl
    | some rest =>
        rw [hafter, Option.all_some] at hcondition
        rw [Option.map_some, Option.all_some]
        cases rest with
        | last gap => rfl
        | cons gap token rest =>
            rw [Layout.single_cons (by simp [hform.1])]
            rw [steadyCondition, Bool.or_eq_true] at hcondition ⊢
            rw [closes_single hform]
            exact hcondition.imp id fun hscan => steadyScan_single hform hscan id

lemma every_single (hform : form.Marked) {prev : Option Token} {x : Layout} (h : x.every form.steadyAt = true) :
    (x.single prev).every form.steadyAt = true := by
  induction x generalizing prev with
  | last gap => rfl
  | cons gap token rest ih =>
      rw [Layout.every, Bool.and_eq_true] at h
      rw [Layout.single]
      split
      · exact ih h.2
      · rw [Layout.every, Bool.and_eq_true]
        exact ⟨steadyAt_single hform h.1, ih h.2⟩

/-- **A steady condition has the same changes without repeated semicolons.** -/
lemma scan_single (hform : form.Marked) {a : Token} {loose : Bool} {x : Layout} (h : Paired Stays (some a) x x)
    (hsteady : form.steadyScan a loose x = true) (ha : a.isLoose = true → loose = true) :
    form.scan (x.single (some a)) = form.scan x := by
  induction x generalizing a loose with
  | last gap => rfl
  | cons gap token rest ih =>
      cases hloose : loose with
      | true =>
          -- behind a loose token there is no end of a condition
          rw [(scan_of_paired hform h hsteady ha).2 hloose,
            (scan_of_paired hform h.self_single (steadyScan_single hform hsteady ha) ha).2 hloose]
      | false =>
          have hne : some a ≠ some (.mark ';') := by
            rintro heq
            obtain rfl := Option.some.inj heq
            simp [ha rfl] at hloose
          rw [steadyScan] at hsteady
          rw [Layout.single_cons hne, scan, scan, closes_single hform]
          cases h with
          | cons hgap hrest =>
              by_cases hclose : form.closes token rest = true
              · simp [hclose]
              · rw [if_neg hclose, Bool.or_eq_true, Bool.or_eq_true] at hsteady
                rcases hsteady with (hfirm | hremark) | hsteady
                · simp [hclose, ((hgap a rfl).firm hfirm).1]
                · simp [hclose, hremark]
                · rw [ih hrest hsteady (by simp +contextual)]

lemma notMem_of_closes (hform : form.Marked) {t : Token} {x : Layout} (h : form.closes t x = true) :
    .mark ';' ∉ (t :: x.tokens).take 3 := by
  rw [closes, Bool.and_eq_true, beq_iff_eq] at h
  obtain ⟨text, rest, htokens⟩ := Layout.tokens_of_turn? h.2
  simp [htokens, h.1, hform.2.symm]

/-- **Where a steady condition has changes, it has no semicolons.** -/
lemma notMem_of_scan (hform : form.Marked) {a : Token} {loose : Bool} {x : Layout} (h : Paired Stays (some a) x x)
    (hsteady : form.steadyScan a loose x = true) {changes : Changes} (hscan : form.scan x = some changes) :
    .mark ';' ∉ x.tokens.take changes.length := by
  induction x generalizing a loose changes with
  | last gap => simp [Layout.tokens]
  | cons gap token rest ih =>
      cases h with
      | cons hgap hrest =>
          rw [steadyScan] at hsteady
          rw [scan] at hscan
          split at hscan
          next => contradiction
          next =>
            by_cases hclose : form.closes token rest = true
            · obtain rfl : _ = changes := by simpa [hclose] using hscan
              exact notMem_of_closes hform hclose
            · rw [if_neg hclose] at hscan hsteady
              split at hscan
              next => contradiction
              next hgoes =>
                obtain ⟨hfeed, hremark⟩ := not_or.1 hgoes
                obtain ⟨inner, hinner, rfl⟩ := Option.map_eq_some_iff.1 hscan
                have hbehind : form.steadyScan token (loose || token.isLoose) rest = true := by
                  rw [Bool.or_eq_true, Bool.or_eq_true] at hsteady
                  refine (hsteady.resolve_left ?_)
                  rintro (hfirm | hon)
                  · exact hfeed ((hgap a rfl).firm hfirm).1
                  · exact hremark hon
                have htoken : token ≠ .mark ';' := by
                  rintro rfl
                  have hnone := (scan_of_paired hform hrest hbehind (by simp +contextual)).2 (by simp [Token.isLoose])
                  simp [hnone] at hinner
                exact List.not_mem_cons_of_ne_of_not_mem htoken.symm (ih hrest hbehind hinner)

section Condition

variable {x : Layout} (hform : form.Marked) (h : Paired Stays (some (.mark form.opening)) x x)
  (hsteady : form.steadyCondition x = true)

include hform h hsteady

lemma condition_single : form.condition (x.single (some (.mark form.opening))) = form.condition x := by
  cases h with
  | last => rfl
  | @cons _ gap _ token rest _ _ hrest =>
      rw [Layout.single_cons (by simp [hform.1]), condition, condition, closes_single hform]
      by_cases hclose : form.closes token rest = true
      · simp [hclose]
      · by_cases hremark : token.isRemark = true
        · simp [hclose, hremark]
        · have hscan : form.steadyScan token token.isLoose rest = true := by
            simpa [steadyCondition, hclose, hremark] using hsteady
          rw [scan_single hform hrest hscan id]

lemma notMem_of_condition {changes : Changes} (hchanges : form.condition x = some changes) :
    .mark ';' ∉ x.tokens.take changes.length := by
  cases h with
  | last => simp [Layout.tokens]
  | @cons _ gap _ token rest _ _ hrest =>
      rw [condition] at hchanges
      split at hchanges
      next => contradiction
      next =>
        by_cases hclose : form.closes token rest = true
        · obtain rfl : _ = changes := by simpa [hclose] using hchanges
          exact notMem_of_closes hform hclose
        · rw [if_neg hclose, Option.ite_none_left_eq_some] at hchanges
          obtain ⟨hremark, hchanges⟩ := hchanges
          obtain ⟨inner, hinner, rfl⟩ := Option.map_eq_some_iff.1 hchanges
          have hscan : form.steadyScan token token.isLoose rest = true := by
            simpa [steadyCondition, hclose, hremark] using hsteady
          have htoken : token ≠ .mark ';' := by
            rintro rfl
            simp [(scan_of_paired hform hrest hscan id).2 rfl] at hinner
          exact List.not_mem_cons_of_ne_of_not_mem htoken.symm (notMem_of_scan hform hrest hscan hinner)

end Condition

end HeaderForm

/-! ## Layouts -/

/-- **Headers whose changes do not depend on repeated semicolons.** -/
structure KeepsSingle (find : Token → Layout → Option Changes) (test : Token → Layout → Bool) : Prop where
  semicolon : ∀ s, find (.mark ';') s = none
  single : ∀ {t x}, Paired Stays (some t) x x → test t x = true → find t (x.single (some t)) = find t x
  notMem : ∀ {t x changes}, Paired Stays (some t) x x → test t x = true → find t x = some changes →
    .mark ';' ∉ x.tokens.take changes.length

lemma HeaderForm.keepsSingle {form : HeaderForm} (hform : form.Marked) : KeepsSingle form.changes form.steadyAt where
  semicolon s := by simp [HeaderForm.changes, Token.isKeyword]
  single {t x} h hsteady := by
    rw [HeaderForm.changes, HeaderForm.changes]
    split
    next hkeyword =>
      have ht : some t ≠ some (.mark ';') := by
        rintro heq
        obtain rfl := Option.some.inj heq
        simp [Token.isKeyword] at hkeyword
      rw [Layout.after?_single ht]
      obtain ⟨hnone, -⟩ | ⟨rest, rest', hsome, hsome', hrest⟩ := h.after? form.opening
      · rw [hnone]
        rfl
      · obtain rfl : rest = rest' := by simpa [hsome] using hsome'
        have hcondition : form.steadyCondition rest = true := by
          simpa [HeaderForm.steadyAt, hkeyword, hsome] using hsteady
        rw [hsome, Option.map_some, Option.bind_some, Option.bind_some,
          HeaderForm.condition_single hform hrest hcondition]
    next => rfl
  notMem {t x changes} h hsteady hchanges := by
    obtain ⟨hkeyword, rest, hafter, inner, hinner, rfl⟩ := HeaderForm.of_changes hchanges
    have hcondition : form.steadyCondition rest = true := by
      simpa [HeaderForm.steadyAt, hkeyword, hafter] using hsteady
    cases x with
    | last gap => simp [Layout.tokens]
    | cons gap token rest' =>
        obtain ⟨rfl, rfl⟩ : token = .mark form.opening ∧ rest' = rest := by
          simpa [Layout.after?] using hafter
        cases h with
        | cons _ hrest =>
            have hnotMem := HeaderForm.notMem_of_condition hform hrest hcondition hinner
            exact List.not_mem_cons_of_ne_of_not_mem (by simp [hform.1.symm]) hnotMem

lemma keepsSingle_alternatives {test : Token → Layout → Bool} : KeepsSingle alternativeChanges test where
  semicolon s := by simp [alternativeChanges]
  single {t x} _ _ := by
    rw [alternativeChanges, alternativeChanges]
    split
    next ht =>
      have hturn : ((x.single (some t)).turn? otherWords '{').isSome = (x.turn? otherWords '{').isSome :=
        Layout.isSome_turn?_single (by simp [ht]) otherWords '{'
      cases hx : x.turn? otherWords '{' <;> cases hy : (x.single (some t)).turn? otherWords '{' <;> simp_all
    next => rfl
  notMem {t x changes} _ _ hchanges := by
    rw [alternativeChanges, Option.ite_none_right_eq_some] at hchanges
    obtain ⟨found, hturn, rfl⟩ := Option.map_eq_some_iff.1 hchanges.2
    obtain ⟨text, rest, htokens⟩ := Layout.tokens_of_turn? (by rw [hturn]; rfl)
    simp [htokens]

/-- **Repeated semicolons may be dropped before or behind the headers.** -/
lemma KeepsSingle.change_single {find : Token → Layout → Option Changes} {test : Token → Layout → Bool}
    (h : KeepsSingle find test) {prev : Option Token} {x : Layout} (hx : Paired Stays prev x x)
    (htest : x.every test = true) {pending : Changes} (hpending : .mark ';' ∉ x.tokens.take pending.length) :
    (x.change (x.changes find pending)).single prev
      = (x.single prev).change ((x.single prev).changes find pending) := by
  induction x generalizing prev pending with
  | last gap => rfl
  | cons gap token rest ih =>
      rw [Layout.every, Bool.and_eq_true] at htest
      cases hx with
      | cons _ hrest =>
          by_cases hboth : token = .mark ';' ∧ prev = some (.mark ';')
          · obtain ⟨rfl, rfl⟩ := hboth
            -- no header that is still pending has a semicolon, and none starts with one
            cases pending with
            | cons new pending => simp [Layout.tokens] at hpending
            | nil =>
                rw [Layout.changes, h.semicolon, Option.getD_none, Layout.change, Layout.single, if_pos ⟨rfl, rfl⟩,
                  Layout.single, if_pos ⟨rfl, rfl⟩]
                exact ih hrest htest.2 (by simp)
          · rw [show (Layout.cons gap token rest).single prev = .cons gap token (rest.single (some token)) by
              rw [Layout.single, if_neg hboth]]
            cases pending with
            | cons new pending =>
                rw [Layout.changes, Layout.change, Layout.single, if_neg hboth, Layout.changes, Layout.change,
                  ih hrest htest.2]
                exact fun hmem => hpending (List.mem_cons_of_mem _ hmem)
            | nil =>
                rw [Layout.changes, Layout.change, Layout.single, if_neg hboth, Layout.changes, Layout.change,
                  h.single hrest htest.1, ih hrest htest.2]
                cases hfind : find token rest with
                | none => simp
                | some changes => exact h.notMem hrest htest.1 hfind

lemma Layout.Steady.single {prev : Option Token} {x : Layout} (h : x.Steady) : (x.single prev).Steady :=
  ⟨HeaderForm.every_single ⟨by decide, by decide⟩ h.1, HeaderForm.every_single ⟨by decide, by decide⟩ h.2⟩

/-- **Repeated semicolons may be dropped before or behind all headers**, if these are steady. -/
lemma Layout.headed_single {x : Layout} (hpaired : Paired Stays none x x) (hx : x.Steady) :
    x.headed.single none = (x.single none).headed := by
  have hconditionals : (x.spaced conditionalForm.changes).single none
      = (x.single none).spaced conditionalForm.changes :=
    (HeaderForm.keepsSingle ⟨by decide, by decide⟩).change_single hpaired hx.1 (by simp)
  have hpaired' : Paired Stays none (x.spaced conditionalForm.changes) (x.spaced conditionalForm.changes) :=
    hpaired.change (all_conditionals x none)
  have hx' : (x.spaced conditionalForm.changes).Steady := hx.change (all_conditionals x none)
  have halternatives : ((x.spaced conditionalForm.changes).spaced alternativeChanges).single none
      = ((x.spaced conditionalForm.changes).single none).spaced alternativeChanges :=
    keepsSingle_alternatives.change_single hpaired' hx'.1 (by simp)
  have hall := all_alternatives (x.spaced conditionalForm.changes) none
  have hloops : x.headed.single none
      = (((x.spaced conditionalForm.changes).spaced alternativeChanges).single none).spaced loopForm.changes :=
    (HeaderForm.keepsSingle ⟨by decide, by decide⟩).change_single (hpaired'.change hall) (hx'.change hall).2 (by simp)
  rw [hloops, halternatives, hconditionals, Layout.headed]

/-- **The passes arrange a steady layout as the one without repeated semicolons.** -/
lemma Layout.arranged_single (style : Style) {s : Layout} (h : s.Steady) :
    ((s.relay (rulesBefore style) none).headed.single none).relay rulesBehind none
      = (s.single none).arranged style := by
  have hsteady := h.of_paired (staysFirm_rulesBefore style none s)
  rw [headed_single (paired_formed style s).self hsteady, single_relay, arranged]

lemma Layout.arranged_of_singleSemicolons (style : Style) {s : Layout} (h : SingleSemicolons s.tokens) :
    ((s.relay (rulesBefore style) none).headed.single none).relay rulesBehind none = s.arranged style := by
  have htokens :
      SingleSemicolons ((none : Option Token).toList ++ (s.relay (rulesBefore style) none).headed.tokens) := by
    rwa [tokens_headed, tokens_relay]
  rw [single_eq_self htokens, arranged]

end SqfLayout
