import SqfLayout.Proofs.Arrangement
import SqfLayout.Proofs.SteadyHeaders

/-!
# Settled layouts

A gap that all passes have chosen is chosen again when they run a second time.

**Indentation.**  Of the gaps of a layout indentation leaves those of `Layout.thin` behind
`Layout.squeezed`: one space within a line, unless a remark ends it, and at most one blank line between
lines.

**Shapes.**  Between two given tokens a rule does one thing to every gap, or to every gap within a line, or
nothing (`RuleShape`).  All rules in a row are of that kind, so what they have made they leave alone
(`wholeGap_thinGap`).

**Line breaks.**  What the passes make of a gap breaks lines as the gap does, except beside semicolons and
words of headers (`stays_wholeGap`).  So steady headers make the same changes to the layout that all passes
have formed (`headerChanges_eq`), and forming it again changes nothing (`Layout.formed_formed`).
-/

namespace SqfLayout

open SqfLayout.Text SqfLayout.Scan SqfLayout.Pass

/-! ## What indentation leaves of a gap -/

/-- **Blanks within a line**: several become one space, unless a remark ends the line. -/
def squeezeGap (commented : Bool) (gap : List Char) : List Char :=
  if commented = false ∧ '\n' ∉ gap ∧ 2 ≤ gap.length then [' '] else gap

namespace Layout

/-- Whether the line that a layout starts in ends with a remark. -/
def commented : Layout → Bool
  | last _ => false
  | cons gap token rest => !gap.contains '\n' && (token.isRemark || rest.commented)

/-- For every token, whether a remark ends its line. -/
def commentedLines : Layout → List Bool
  | last _ => []
  | cons _ token rest => (token.isRemark || rest.commented) :: rest.commentedLines

/-- A layout with its blanks squeezed, in lines that are commented or not as the list says. -/
def squeezeWith : List Bool → Layout → Layout
  | _, last gap => last gap
  | lines, cons gap token rest => cons (squeezeGap (lines.headD true) gap) token (rest.squeezeWith lines.tail)

/-- **A layout with its blanks squeezed**, except in lines that a remark ends. -/
def squeezed (s : Layout) : Layout := s.squeezeWith s.commentedLines

end Layout

/-- **Line breaks behind a line**: at most one blank line, and none behind a line that opens a bracket. -/
def thinGap (line gap : List Char) : List Char :=
  if '\n' ∉ gap then gap
  else if gap.length = 1 ∨ DepthChange.of line = .opening then ['\n'] else ['\n', '\n']

/-- A layout with its blank lines thinned out, and without white space at its ends.  The first argument is
the line so far, unless the layout starts here. -/
def Layout.thin : Option (List Char) → Layout → Layout
  | _, .last _ => .last []
  | none, .cons _ token rest => .cons [] token (rest.thin (some token.text))
  | some line, .cons gap token rest =>
    .cons (thinGap line gap) token
      (rest.thin (some (if '\n' ∈ gap then token.text else line ++ gap ++ token.text)))

/-! ## One rule for all passes -/

/-- All passes at a gap but the indentation, if a header changes it or not. -/
def innerGap (style : Style) (new : Option (List Char)) : GapRule := fun prev gap next =>
  rulesBehind prev (new.getD (rulesBefore style prev gap next)) next

/-- All passes at a gap of a line that a remark ends or does not. -/
def wholeGap (style : Style) (new : Option (List Char)) (commented : Bool) : GapRule := fun prev gap next =>
  squeezeGap commented (innerGap style new prev gap next)

/-! ## The shapes of rules -/

/-- Gaps that rules put in place of others. -/
def Settled (gap : List Char) : Prop := gap = ['\n'] ∨ '\n' ∉ gap

/-- **What a rule does between two given tokens**: one thing to all gaps, one thing to all gaps within a line,
that and one line break in place of several, or nothing. -/
inductive RuleShape (f : List Char → List Char) : Prop
  | const (form : List Char) (hform : Settled form) (h : ∀ gap, f gap = form)
  | blanks (form : List Char) (hform : Settled form) (h : ∀ gap, f gap = if '\n' ∈ gap then gap else form)
  | split (form : List Char) (hform : Settled form) (h : ∀ gap, f gap = if '\n' ∈ gap then ['\n'] else form)
  | keep (h : ∀ gap, f gap = gap)

lemma Settled.ite {p : Prop} [Decidable p] {gap gap' : List Char} (h : Settled gap) (h' : Settled gap') :
    Settled (if p then gap else gap') := by
  split
  · exact h
  · exact h'

lemma RuleShape.comp {f g : List Char → List Char} (hf : RuleShape f) (hg : RuleShape g) :
    RuleShape fun gap => g (f gap) := by
  cases hg with
  | const form hform h => exact .const form hform fun gap => h _
  | keep h =>
      simp only [h]
      exact hf
  | blanks form hform h =>
      cases hf with
      | const form' hform' h' =>
          exact .const (if '\n' ∈ form' then form' else form) (hform'.ite hform) fun gap => by rw [h, h']
      | blanks form' hform' h' =>
          refine .blanks (if '\n' ∈ form' then form' else form) (hform'.ite hform) fun gap => ?_
          rw [h, h']
          split_ifs <;> simp_all
      | split form' hform' h' =>
          refine .split (if '\n' ∈ form' then form' else form) (hform'.ite hform) fun gap => ?_
          rw [h, h']
          split_ifs <;> simp_all
      | keep h' => exact .blanks form hform fun gap => by rw [h, h']
  | split form hform h =>
      have hfeed : Settled ['\n'] := .inl rfl
      cases hf with
      | const form' hform' h' =>
          exact .const (if '\n' ∈ form' then ['\n'] else form) (hfeed.ite hform) fun gap => by rw [h, h']
      | blanks form' hform' h' =>
          refine .split (if '\n' ∈ form' then ['\n'] else form) (hfeed.ite hform) fun gap => ?_
          rw [h, h']
          split_ifs <;> simp_all
      | split form' hform' h' =>
          refine .split (if '\n' ∈ form' then ['\n'] else form) (hfeed.ite hform) fun gap => ?_
          rw [h, h']
          split_ifs <;> simp_all
      | keep h' => exact .split form hform fun gap => by rw [h, h']

section Gaps

variable {style : Style} {a b : Token} {gap : List Char}

lemma shape_braceGap (a b : Token) : RuleShape fun gap => braceGap (some a) gap (some b) := by
  by_cases hclose : b = .mark '}'
  · by_cases hopen : a = .mark '{'
    · exact .const [] (.inr (by simp)) fun gap => by simp [braceGap, hclose, hopen]
    · exact .const ['\n'] (.inl rfl) fun gap => by simp [braceGap, hclose, hopen]
  · by_cases hopen : a = .mark '{'
    · cases hremark : b.isRemark with
      | true =>
          refine .split [' '] (.inr (by decide)) fun gap => ?_
          by_cases hfeed : '\n' ∈ gap <;> simp [braceGap, hclose, hopen, hremark, hfeed]
      | false => exact .const ['\n'] (.inl rfl) fun gap => by simp [braceGap, hclose, hopen, hremark]
    · exact .keep fun gap => by simp [braceGap, hclose, hopen]

lemma settled_pulledGap (prev : Option Token) : Settled (pulledGap prev) := by
  unfold pulledGap
  split_ifs
  · exact .inl rfl
  · exact .inr (by simp)

lemma shape_commaGap (a b : Token) : RuleShape fun gap => commaGap (some a) gap (some b) := by
  by_cases hnext : b = .mark ','
  · exact .const _ (settled_pulledGap (some a)) fun gap => by simp [commaGap, hnext]
  · by_cases hprev : a = .mark ','
    · refine .blanks [' '] (.inr (by decide)) fun gap => ?_
      by_cases hfeed : '\n' ∈ gap <;> simp [commaGap, hnext, hprev, hfeed]
    · exact .keep fun gap => by simp [commaGap, hnext, hprev]

lemma shape_operatorGap (a b : Token) : RuleShape fun gap => operatorGap (some a) gap (some b) := by
  cases hprev : a.isOperator with
  | true =>
      refine .blanks (if b.isOperator then [' ', ' '] else [' ']) (.inr ?_) fun gap => by
        simp [operatorGap, hprev]
      split <;> decide
  | false =>
      cases hnext : b.isOperator with
      | true => exact .blanks [' '] (.inr (by decide)) fun gap => by simp [operatorGap, hprev, hnext]
      | false => exact .keep fun gap => by simp [operatorGap, hprev, hnext]

lemma shape_statementGap (a b : Token) : RuleShape fun gap => statementGap (some a) gap (some b) := by
  by_cases h : a = .mark ';' ∧ b ≠ .mark ';' ∧ b.isRemark = false
  · refine .blanks ['\n'] (.inl rfl) fun gap => ?_
    by_cases hfeed : '\n' ∈ gap <;> simp [statementGap, h, hfeed]
  · refine .keep fun gap => ?_
    rw [statementGap, if_neg]
    rintro ⟨hprev, -, -, hnext, hremark⟩
    exact h ⟨Option.some.inj hprev, fun heq => hnext (congrArg some heq), hremark⟩

lemma shape_semicolonGap (a b : Token) : RuleShape fun gap => semicolonGap (some a) gap (some b) := by
  by_cases hnext : b = .mark ';'
  · exact .const _ (settled_pulledGap (some a)) fun gap => by simp [semicolonGap, hnext]
  · exact .keep fun gap => by simp [semicolonGap, hnext]

lemma shape_parenGap (a b : Token) : RuleShape fun gap => parenGap (some a) gap (some b) := by
  by_cases h : a = .mark '(' ∨ b = .mark ')'
  · refine .blanks [] (.inr (by simp)) fun gap => ?_
    by_cases hfeed : '\n' ∈ gap <;> simp [parenGap, h, hfeed]
  · exact .keep fun gap => by simp [parenGap, h]

lemma shape_rulesBefore (style : Style) (a b : Token) :
    RuleShape fun gap => rulesBefore style (some a) gap (some b) := by
  have hcommas := (shape_braceGap a b).comp (shape_commaGap a b)
  unfold rulesBefore
  split
  · exact hcommas.comp (shape_operatorGap a b)
  · exact hcommas

lemma shape_rulesBehind (a b : Token) : RuleShape fun gap => rulesBehind (some a) gap (some b) :=
  ((shape_statementGap a b).comp (shape_semicolonGap a b)).comp (shape_parenGap a b)

/-! ## Line breaks -/

lemma feed_mem_squeezeGap {commented : Bool} : '\n' ∈ squeezeGap commented gap ↔ '\n' ∈ gap := by
  rw [squeezeGap]
  split_ifs with h
  · simp [h.2.1]
  · rfl

lemma squeezeGap_of_settled (commented : Bool) (h : Settled gap) : Settled (squeezeGap commented gap) := by
  rcases h with rfl | hfeed
  · exact .inl (by simp [squeezeGap])
  · exact .inr (feed_mem_squeezeGap.not.2 hfeed)

lemma squeezeGap_of_feed {commented : Bool} (h : '\n' ∈ gap) : squeezeGap commented gap = gap := by
  simp [squeezeGap, h]

lemma squeezeGap_squeezeGap (commented : Bool) (gap : List Char) :
    squeezeGap commented (squeezeGap commented gap) = squeezeGap commented gap := by
  unfold squeezeGap
  split_ifs <;> simp_all

lemma feed_mem_thinGap (line : List Char) : '\n' ∈ thinGap line gap ↔ '\n' ∈ gap := by
  rw [thinGap]
  split_ifs <;> simp_all

lemma thinGap_of_settled (line : List Char) (h : Settled gap) : thinGap line gap = gap := by
  rcases h with rfl | hfeed <;> simp [thinGap, *]

lemma thinGap_thinGap (line gap : List Char) : thinGap line (thinGap line gap) = thinGap line gap := by
  by_cases hfeed : '\n' ∈ gap
  · by_cases hone : gap.length = 1 ∨ DepthChange.of line = .opening
    · simp [thinGap, hfeed, hone]
    · obtain ⟨hlength, hopening⟩ := not_or.1 hone
      simp [thinGap, hfeed, hlength, hopening]
  · simp [thinGap, hfeed]

lemma shape_innerGap (style : Style) (a b : Token) {new : Option (List Char)} (hnew : ∀ form ∈ new, '\n' ∉ form) :
    RuleShape fun gap => innerGap style new (some a) gap (some b) := by
  refine RuleShape.comp (f := fun gap => new.getD (rulesBefore style (some a) gap (some b))) ?_
    (shape_rulesBehind a b)
  cases new with
  | none => exact shape_rulesBefore style a b
  | some form => exact .const form (.inr (hnew form rfl)) fun gap => rfl

/-- **All passes leave a gap as they have made it**, with its blank lines thinned out. -/
lemma wholeGap_thinGap {new : Option (List Char)} (hnew : ∀ form ∈ new, '\n' ∉ form) (commented : Bool)
    (line : List Char) :
    wholeGap style new commented (some a) (thinGap line (wholeGap style new commented (some a) gap (some b))) (some b)
      = thinGap line (wholeGap style new commented (some a) gap (some b)) := by
  simp only [wholeGap]
  cases shape_innerGap style a b hnew with
  | const form hform h =>
      have hsettled := squeezeGap_of_settled commented hform
      simp only [h, thinGap_of_settled line hsettled]
  | blanks form hform h =>
      simp only [h]
      by_cases hfeed : '\n' ∈ gap
      · have hthin : '\n' ∈ thinGap line gap := (feed_mem_thinGap line).2 hfeed
        simp only [hfeed, if_true, squeezeGap_of_feed hfeed, hthin, squeezeGap_of_feed hthin]
      · have hsettled := squeezeGap_of_settled commented hform
        rw [if_neg hfeed, thinGap_of_settled line hsettled]
        split_ifs with hsqueezed
        · rw [squeezeGap_squeezeGap]
        · rfl
  | split form hform h =>
      simp only [h]
      have hbreak : squeezeGap commented ['\n'] = ['\n'] := squeezeGap_of_feed (by simp)
      by_cases hfeed : '\n' ∈ gap
      · simp [hfeed, hbreak, thinGap_of_settled line (.inl rfl : Settled ['\n'])]
      · have hsettled := squeezeGap_of_settled commented hform
        rw [if_neg hfeed, thinGap_of_settled line hsettled]
        split_ifs with hsqueezed
        · obtain rfl := hform.resolve_right (not_not.2 (feed_mem_squeezeGap.1 hsqueezed))
          rw [hbreak]
        · rfl
  | keep h =>
      simp only [h]
      by_cases hfeed : '\n' ∈ gap
      · have hthin : '\n' ∈ thinGap line gap := (feed_mem_thinGap line).2 hfeed
        rw [squeezeGap_of_feed hfeed, squeezeGap_of_feed hthin]
      · have hsettled : Settled (squeezeGap commented gap) := .inr (feed_mem_squeezeGap.not.2 hfeed)
        rw [thinGap_of_settled line hsettled, squeezeGap_squeezeGap]

/-- The passes break lines again where they have broken them. -/
lemma feed_mem_innerGap {new : Option (List Char)} (hnew : ∀ form ∈ new, '\n' ∉ form) (commented : Bool)
    (line : List Char) :
    '\n' ∈ innerGap style new (some a) (thinGap line (wholeGap style new commented (some a) gap (some b))) (some b)
      ↔ '\n' ∈ innerGap style new (some a) gap (some b) := by
  calc '\n' ∈ innerGap style new (some a) (thinGap line (wholeGap style new commented (some a) gap (some b))) (some b)
      ↔ '\n' ∈ wholeGap style new commented (some a)
          (thinGap line (wholeGap style new commented (some a) gap (some b))) (some b) := feed_mem_squeezeGap.symm
    _ ↔ '\n' ∈ thinGap line (wholeGap style new commented (some a) gap (some b)) := by
        rw [wholeGap_thinGap hnew]
    _ ↔ '\n' ∈ innerGap style new (some a) gap (some b) := (feed_mem_thinGap line).trans feed_mem_squeezeGap

/-! ## Where lines break -/

/-- A rule gives the same to every gap beside braces and before a comma, but for remarks. -/
lemma rulesBefore_const (h : b = .mark '}' ∨ (a = .mark '{' ∧ b.isRemark = false) ∨ b = .mark ',')
    (gap gap' : List Char) :
    rulesBefore style (some a) gap (some b) = rulesBefore style (some a) gap' (some b) := by
  have hcommas : (braceGap.andThen commaGap) (some a) gap (some b)
      = (braceGap.andThen commaGap) (some a) gap' (some b) := by
    rcases h with rfl | ⟨rfl, hremark⟩ | rfl
    · simp [GapRule.andThen, braceGap, commaGap]
    · simp [GapRule.andThen, braceGap, commaGap, hremark]
    · simp [GapRule.andThen, commaGap]
  unfold rulesBefore
  split
  · exact congrArg (operatorGap (some a) · (some b)) hcommas
  · exact hcommas

/-- Elsewhere it keeps line breaks and adds none. -/
lemma feed_mem_rulesBefore (hclose : b ≠ .mark '}') (hopen : a = .mark '{' → b.isRemark = true)
    (hcomma : b ≠ .mark ',') :
    '\n' ∈ rulesBefore style (some a) gap (some b) ↔ '\n' ∈ gap := by
  have hoperators (gap : List Char) : '\n' ∈ operatorGap (some a) gap (some b) ↔ '\n' ∈ gap := by
    simp only [operatorGap]
    split_ifs with hfeed <;> simp [hfeed]
  have hbraces : '\n' ∈ braceGap (some a) gap (some b) ↔ '\n' ∈ gap := by
    by_cases hprev : a = .mark '{'
    · by_cases hfeed : '\n' ∈ gap <;> simp [braceGap, hclose, hprev, hopen hprev, hfeed]
    · simp [braceGap, hclose, hprev]
  have hcommas (gap : List Char) : '\n' ∈ commaGap (some a) gap (some b) ↔ '\n' ∈ gap := by
    by_cases hfeed : '\n' ∈ gap <;> by_cases hprev : a = .mark ',' <;> simp [commaGap, hcomma, hfeed, hprev]
  rw [rulesBefore, GapRule.andThen, GapRule.andThen]
  split
  · rw [hoperators, hcommas, hbraces]
  · rw [hcommas, hbraces]

/-- Behind an opening brace a line breaks, unless a remark follows. -/
lemma rulesBefore_open (hclose : b ≠ .mark '}') (hcomma : b ≠ .mark ',') (hremark : b.isRemark = false) :
    rulesBefore style (some (.mark '{')) gap (some b) = ['\n'] := by
  have hcommas : (braceGap.andThen commaGap) (some (.mark '{')) gap (some b) = ['\n'] := by
    simp [GapRule.andThen, braceGap, commaGap, hclose, hcomma, hremark]
  rw [rulesBefore, GapRule.andThen, hcommas]
  split
  · simp [operatorGap]
  · rfl

/-- The rules behind the headers keep line breaks, except before a semicolon. -/
lemma feed_mem_rulesBehind (hnext : b ≠ .mark ';') (h : '\n' ∈ gap) :
    '\n' ∈ rulesBehind (some a) gap (some b) := by
  simp [rulesBehind, GapRule.andThen, statementGap, semicolonGap, parenGap, hnext, h]

/-- They add none, except beside a semicolon. -/
lemma feed_notMem_rulesBehind (hprev : a ≠ .mark ';') (hnext : b ≠ .mark ';') (h : '\n' ∉ gap) :
    '\n' ∉ rulesBehind (some a) gap (some b) := by
  simp only [rulesBehind, GapRule.andThen, statementGap, semicolonGap, parenGap]
  split_ifs <;> simp_all

/-- **A gap that a header changes**, for what it was before. -/
def Changed (a : Token) (gap : List Char) (b : Token) (new : List Char) : Prop :=
  '\n' ∉ new ∧ (a.isHeaderWord = true ∨ (a = .mark ')' ∨ a = .mark '}') ∧ b.isHeaderWord = true
    ∨ (a = .mark '{' ∧ b.isRemark = false) ∨ b = .mark '}' ∨ '\n' ∉ gap ∧ (a = .mark '(' ∨ b = .mark ')'))

lemma isHeaderWord_mark (c : Char) : (Token.mark c).isHeaderWord = false := by
  simp [Token.isHeaderWord, Token.isKeyword]

/-- **What the passes make of a gap breaks lines as the gap does**, beside tokens that are not loose. -/
lemma stays_wholeGap {new : Option (List Char)}
    (hnew : ∀ form ∈ new, Changed a (rulesBefore style (some a) gap (some b)) b form) (commented : Bool)
    (line : List Char) :
    Stays a (rulesBefore style (some a) gap (some b))
      (rulesBefore style (some a) (thinGap line (wholeGap style new commented (some a) gap (some b))) (some b)) b := by
  by_cases hconst : b = .mark '}' ∨ (a = .mark '{' ∧ b.isRemark = false) ∨ b = .mark ','
  · rw [rulesBefore_const hconst (thinGap _ _) gap]
    refine ⟨fun _ _ => Iff.rfl, fun hfirm => ?_⟩
    simp only [firmGap, Bool.and_eq_true, Bool.or_eq_true, bne_iff_ne, beq_iff_eq, List.contains_iff_mem,
      Bool.not_eq_true'] at hfirm
    obtain ⟨⟨⟨hcomma, -⟩, -⟩, ⟨⟨rfl, hclose⟩, hremark⟩ | ⟨-, hfeed⟩⟩ := hfirm
    · rw [rulesBefore_open hclose hcomma hremark]
      simp
    · exact ⟨hfeed, hfeed⟩
  · obtain ⟨hclose, hrest⟩ := not_or.1 hconst
    obtain ⟨hopen, hcomma⟩ := not_or.1 hrest
    have hbefore (gap : List Char) : '\n' ∈ rulesBefore style (some a) gap (some b) ↔ '\n' ∈ gap :=
      feed_mem_rulesBefore hclose (by simpa using hopen) hcomma
    have hwhole : '\n' ∈ thinGap line (wholeGap style new commented (some a) gap (some b))
        ↔ '\n' ∈ rulesBehind (some a) (new.getD (rulesBefore style (some a) gap (some b))) (some b) := by
      rw [feed_mem_thinGap, wholeGap, feed_mem_squeezeGap, innerGap]
    constructor
    · intro ha hb
      simp only [Token.isLoose, Bool.or_eq_false_iff, beq_eq_false_iff_ne] at ha hb
      rw [hbefore (thinGap _ _), hwhole]
      cases new with
      | none =>
          refine ⟨feed_mem_rulesBehind hb.1, fun hfeed => ?_⟩
          by_contra hnot
          exact feed_notMem_rulesBehind ha.1 hb.1 hnot hfeed
      | some form =>
          obtain ⟨hform, hplace⟩ := hnew form rfl
          have hgap : '\n' ∉ rulesBefore style (some a) gap (some b) := by
            simp only [ha.2, hb.2, hclose, hopen, Bool.false_eq_true, and_false, false_or] at hplace
            exact hplace.1
          simp only [hgap, Option.getD_some, false_iff]
          exact feed_notMem_rulesBehind ha.1 hb.1 hform
    · intro hfirm
      simp only [firmGap, Bool.and_eq_true, Bool.or_eq_true, bne_iff_ne, beq_iff_eq, List.contains_iff_mem,
        Bool.not_eq_true'] at hfirm
      obtain ⟨⟨⟨-, hparen⟩, hsemicolon⟩, ⟨⟨hopen', -⟩, hremark⟩ | ⟨rfl, hfeed⟩⟩ := hfirm
      · exact absurd ⟨hopen', hremark⟩ hopen
      · refine ⟨hfeed, (hbefore _).2 (hwhole.2 ?_)⟩
        cases new with
        | none => exact feed_mem_rulesBehind hsemicolon hfeed
        | some form =>
            have hplace := (hnew form rfl).2
            simp [isHeaderWord_mark, hclose, hparen] at hplace

end Gaps

/-! ## Changes in a row -/

/-- Changes on top of others. -/
def Changes.over (changes later : Changes) : Changes := List.zipWith (fun new new' => new'.or new) changes later

namespace Layout

lemma length_changes (find : Token → Layout → Option Changes) (pending : Changes) (s : Layout) :
    (s.changes find pending).length = s.tokens.length := by
  induction s generalizing pending with
  | last gap => rfl
  | cons gap token rest ih => cases pending <;> simp [Layout.changes, Layout.tokens, ih]

/-- **Two rows of changes are one.** -/
lemma change_change {s : Layout} {changes later : Changes} (h : changes.length = s.tokens.length)
    (hlater : later.length = s.tokens.length) : (s.change changes).change later = s.change (changes.over later) := by
  induction s generalizing changes later with
  | last gap => cases changes <;> cases later <;> rfl
  | cons gap token rest ih =>
      obtain _ | ⟨new, changes⟩ := changes
      · simp [Layout.tokens] at h
      obtain _ | ⟨new', later⟩ := later
      · simp [Layout.tokens] at hlater
      have hrest := ih (Nat.succ.inj h) (Nat.succ.inj hlater)
      cases new' <;> simp [Layout.change, Changes.over, hrest]

end Layout

/-- **What a row of changes does is done at the places that it was for**, if it comes behind another. -/
lemma Changes.All.over {prev : Option Token} {s : Layout} {changes later : Changes}
    (h : Changes.All Changed prev s changes) (hlater : Changes.All Changed prev (s.change changes) later) :
    Changes.All Changed prev s (changes.over later) := by
  induction s generalizing prev changes later with
  | last gap => trivial
  | cons gap token rest ih =>
      obtain _ | ⟨new, changes⟩ := changes
      · exact Changes.all_nil
      obtain _ | ⟨new', later⟩ := later
      · exact Changes.all_nil
      refine ⟨?_, ih h.2 hlater.2⟩
      cases new' with
      | none => exact h.1
      | some form' =>
          intro form hform
          obtain rfl : form' = form := Option.some.inj hform
          obtain ⟨a, ha, hchanged⟩ := hlater.1 form' rfl
          cases new with
          | none => exact ⟨a, ha, hchanged⟩
          | some first =>
              obtain ⟨a', ha', hfirst⟩ := h.1 first rfl
              obtain rfl := Option.mem_unique ha ha'
              exact ⟨a, ha, hchanged.1, hfirst.2⟩

lemma ChangeAt.changed {braces : Bool} {a b : Token} {gap new : List Char} (h : ChangeAt braces a gap b new) :
    Changed a gap b new := by
  have hfeed : '\n' ∉ new := by
    rcases h.blank with rfl | rfl <;> decide
  refine ⟨hfeed, ?_⟩
  cases h with
  | word hword => exact hword.elim .inl (.inr ∘ .inl)
  | paren hparen hgap => exact .inr (.inr (.inr (.inr ⟨hgap, hparen⟩)))
  | brace _ hbrace _ hnext => exact .inr (.inr (hbrace.imp (⟨·, hnext⟩) .inl))
  | empty _ _ hnext => exact .inr (.inr (.inr (.inl hnext)))

namespace Layout

/-- **The changes that all headers make.** -/
def headerChanges (s : Layout) : Changes :=
  let conditionals := s.changes conditionalForm.changes []
  let spaced := s.change conditionals
  let alternatives := spaced.changes alternativeChanges []
  (conditionals.over alternatives).over ((spaced.change alternatives).changes loopForm.changes [])

lemma headed_eq_change (s : Layout) : s.headed = s.change s.headerChanges := by
  have hconditionals := length_changes conditionalForm.changes [] s
  have halternatives := length_changes alternativeChanges [] (s.spaced conditionalForm.changes)
  have hloops := length_changes loopForm.changes []
    ((s.spaced conditionalForm.changes).spaced alternativeChanges)
  simp only [spaced, tokens_change] at hconditionals halternatives hloops
  have hover : ((s.changes conditionalForm.changes []).over
      ((s.spaced conditionalForm.changes).changes alternativeChanges [])).length = s.tokens.length := by
    simp [Changes.over, spaced, hconditionals, halternatives]
  rw [headed, spaced, spaced, spaced, change_change hconditionals halternatives]
  rw [spaced] at hover
  rw [headerChanges, change_change hover]
  · rw [← change_change hconditionals halternatives]
  · rw [length_changes, tokens_change]

lemma all_headerChanges (s : Layout) (prev : Option Token) : Changes.All Changed prev s s.headerChanges := by
  have himp {braces : Bool} {s : Layout} {changes : Changes}
      (h : Changes.All (ChangeAt braces) prev s changes) : Changes.All Changed prev s changes :=
    h.imp fun _ _ _ _ hat => hat.changed
  have hfirst := (himp (all_conditionals s prev)).over (himp (all_alternatives _ prev))
  refine hfirst.over ?_
  rw [← change_change (length_changes _ _ _) (by rw [length_changes, tokens_change])]
  exact himp (all_loops _ prev)

end Layout

/-! ## All passes at once -/

namespace Layout

/-- The passes at every gap but the indentation, with the changes that the headers make. -/
def arrangedWith (style : Style) (changes : Changes) (prev : Option Token) (s : Layout) : Layout :=
  ((s.relay (rulesBefore style) prev).change changes).relay rulesBehind prev

/-- All passes at every gap, with the changes that the headers make and the lines that remarks end. -/
def relayWith (style : Style) : Changes → List Bool → Option Token → Layout → Layout
  | _, _, prev, last gap => last (innerGap style none prev gap none)
  | changes, lines, prev, cons gap token rest =>
    cons (wholeGap style changes.head?.join (lines.headD true) prev gap (some token)) token
      (rest.relayWith style changes.tail lines.tail (some token))

lemma arrangedWith_cons (style : Style) (changes : Changes) (prev : Option Token) (gap : List Char) (token : Token)
    (rest : Layout) : (cons gap token rest).arrangedWith style changes prev
      = cons (innerGap style changes.head?.join prev gap (some token)) token
          (rest.arrangedWith style changes.tail (some token)) := by
  cases changes with
  | nil =>
      have hnil (s : Layout) : s.change [] = s := by cases s <;> rfl
      simp only [arrangedWith, relay, List.tail_nil, hnil]
      rfl
  | cons new changes => cases new <;> rfl

lemma relayWith_eq (style : Style) (changes : Changes) (lines : List Bool) (prev : Option Token) (s : Layout) :
    (s.arrangedWith style changes prev).squeezeWith lines = s.relayWith style changes lines prev := by
  induction s generalizing changes lines prev with
  | last gap => cases changes <;> rfl
  | cons gap token rest ih => rw [arrangedWith_cons, squeezeWith, ih, relayWith]; rfl

/-- **What all passes make of a layout.** -/
def formed (style : Style) (s : Layout) : Layout := (s.arranged style).squeezed.thin none

lemma arranged_eq (style : Style) (s : Layout) :
    s.arranged style = s.arrangedWith style (s.relay (rulesBefore style) none).headerChanges none := by
  rw [arranged, headed_eq_change, arrangedWith]

lemma formed_eq (style : Style) (s : Layout) :
    s.formed style = (s.relayWith style (s.relay (rulesBefore style) none).headerChanges
      (s.arranged style).commentedLines none).thin none := by
  rw [← relayWith_eq, ← arranged_eq]
  rfl

/-- Thinning a layout out again changes nothing. -/
lemma thin_thin (line : Option (List Char)) (s : Layout) : (s.thin line).thin line = s.thin line := by
  induction s generalizing line with
  | last gap => rfl
  | cons gap token rest ih =>
      cases line with
      | none => simp only [thin, ih]
      | some line =>
          have hgap : (if '\n' ∈ gap then token.text else line ++ thinGap line gap ++ token.text)
              = if '\n' ∈ gap then token.text else line ++ gap ++ token.text := by
            split_ifs with hfeed
            · rfl
            · rw [thinGap, if_pos hfeed]
          simp only [thin, thinGap_thinGap, feed_mem_thinGap, hgap, ih]

/-- Nothing is put at the ends of a text. -/
lemma innerGap_nil {style : Style} {prev next : Option Token} (h : prev = none ∨ next = none) :
    innerGap style none prev [] next = [] := by
  have hbefore : rulesBefore style prev [] next = [] := by
    have hoperators : operatorGap prev [] next = [] := by
      rcases h with rfl | rfl
      · rfl
      · cases prev <;> rfl
    have hcommas : (braceGap.andThen commaGap) prev [] next = [] := by
      rcases h with rfl | rfl <;> simp [GapRule.andThen, braceGap, commaGap, pulledGap]
    unfold rulesBefore
    split
    · exact (congrArg (operatorGap prev · next) hcommas).trans hoperators
    · exact hcommas
  have hbehind : rulesBehind prev [] next = [] := by
    rcases h with rfl | rfl <;> simp [rulesBehind, GapRule.andThen, statementGap, semicolonGap, parenGap, pulledGap]
  simp [innerGap, hbefore, hbehind]

section Again

variable {style : Style} {changes : Changes} {lines : List Bool} {prev : Option Token} {s : Layout}
  {line : Option (List Char)}

/-- **All passes leave a layout as they have made it**, if the headers make the same changes and remarks end
the same lines. -/
lemma relayWith_thin (h : Changes.All Changed prev (s.relay (rulesBefore style) prev) changes)
    (hline : prev = none ↔ line = none) :
    ((s.relayWith style changes lines prev).thin line).relayWith style changes lines prev
      = (s.relayWith style changes lines prev).thin line := by
  induction s generalizing changes lines prev line with
  | last gap => simp only [relayWith, thin, innerGap_nil (.inr rfl)]
  | cons gap token rest ih =>
      obtain ⟨hnew, hrest⟩ := h.split
      have hbehind (line : List Char) : ((rest.relayWith style changes.tail lines.tail (some token)).thin
          (some line)).relayWith style changes.tail lines.tail (some token)
            = (rest.relayWith style changes.tail lines.tail (some token)).thin (some line) := ih hrest (by simp)
      cases line with
      | none =>
          obtain rfl := hline.2 rfl
          have hnone : changes.head?.join = none := by
            by_contra hsome
            obtain ⟨form, hform⟩ := Option.ne_none_iff_exists'.1 hsome
            obtain ⟨a, ha, -⟩ := hnew form hform
            contradiction
          simp only [relayWith, thin, hnone, wholeGap, innerGap_nil (.inl rfl), hbehind]
          simp [squeezeGap]
      | some line =>
          cases prev with
          | none => simp at hline
          | some a =>
              have hfeed : ∀ form ∈ changes.head?.join, '\n' ∉ form := by
                intro form hform
                obtain ⟨_, -, hchanged⟩ := hnew form hform
                exact hchanged.1
              simp only [relayWith, thin, wholeGap_thinGap hfeed, hbehind]

/-- **The gaps of a formed layout break lines as those of the layout.** -/
lemma paired_relayWith (h : Changes.All Changed prev (s.relay (rulesBefore style) prev) changes)
    (hline : prev = none ↔ line = none) :
    Paired Stays prev (s.relay (rulesBefore style) prev)
      (((s.relayWith style changes lines prev).thin line).relay (rulesBefore style) prev) := by
  induction s generalizing changes lines prev line with
  | last gap => exact .last _ _ _
  | cons gap token rest ih =>
      obtain ⟨hnew, hrest⟩ := h.split
      cases line with
      | none =>
          obtain rfl := hline.2 rfl
          exact .cons (by simp) (ih hrest (by simp))
      | some line =>
          refine .cons (fun a ha => ?_) (ih hrest (by simp))
          obtain rfl := Option.mem_def.1 ha
          refine stays_wholeGap (fun form hform => ?_) _ line
          obtain ⟨a', ha', hchanged⟩ := hnew form hform
          obtain rfl := Option.mem_unique ha ha'
          exact hchanged

/-- Gaps that both break lines, or neither. -/
def SameFeeds (_ : Token) (gap gap' : List Char) (_ : Token) : Prop := '\n' ∈ gap ↔ '\n' ∈ gap'

/-- So do they before the indentation, if the passes run a second time. -/
lemma paired_arrangedWith (h : Changes.All Changed prev (s.relay (rulesBefore style) prev) changes)
    (hline : prev = none ↔ line = none) :
    Paired SameFeeds prev (s.arrangedWith style changes prev)
      (((s.relayWith style changes lines prev).thin line).arrangedWith style changes prev) := by
  induction s generalizing changes lines prev line with
  | last gap => cases changes <;> exact .last _ _ _
  | cons gap token rest ih =>
      obtain ⟨hnew, hrest⟩ := h.split
      cases line with
      | none =>
          obtain rfl := hline.2 rfl
          rw [relayWith, thin, arrangedWith_cons, arrangedWith_cons]
          exact .cons (by simp) (ih hrest (by simp))
      | some line =>
          rw [relayWith, thin, arrangedWith_cons, arrangedWith_cons]
          refine .cons (fun a ha => ?_) (ih hrest (by simp))
          obtain rfl := Option.mem_def.1 ha
          refine (feed_mem_innerGap (fun form hform => ?_) _ line).symm
          obtain ⟨_, -, hchanged⟩ := hnew form hform
          exact hchanged.1

end Again

/-- **Remarks end the same lines** where lines break alike. -/
lemma commentedLines_of_paired {prev : Option Token} {x y : Layout} (h : Paired SameFeeds prev x y) :
    x.commentedLines = y.commentedLines ∧ (prev ≠ none → x.commented = y.commented) := by
  induction h with
  | last prev gap gap' => exact ⟨rfl, fun _ => rfl⟩
  | @cons prev gap gap' token rest rest' hgap _ ih =>
      obtain ⟨hlines, hcommented⟩ := ih
      have hrest := hcommented (by simp)
      refine ⟨by rw [commentedLines, commentedLines, hlines, hrest], fun hprev => ?_⟩
      obtain ⟨a, rfl⟩ := Option.ne_none_iff_exists'.1 hprev
      have hfeed : gap.contains '\n' = gap'.contains '\n' := by
        rw [Bool.eq_iff_iff, List.contains_iff_mem, List.contains_iff_mem]
        exact hgap a rfl
      rw [commented, commented, hrest, hfeed]

lemma headerChanges_eq {x y : Layout} (h : Paired Stays none x y) (hx : x.Steady) :
    x.headerChanges = y.headerChanges := by
  have hconditionals : x.changes conditionalForm.changes [] = y.changes conditionalForm.changes [] :=
    changes_eq_of_paired (HeaderForm.changes_of_paired ⟨by decide, by decide⟩) h hx.1 []
  have hall := all_conditionals x none
  have hpaired := h.change hall
  have hsteady := hx.change hall
  rw [headerChanges, headerChanges, ← hconditionals]
  generalize hchanges : x.changes conditionalForm.changes [] = conditionals at *
  have hfind {t : Token} {x y : Layout} (h : Paired Stays (some t) x y)
      (_ : conditionalForm.steadyAt t x = true) : alternativeChanges t x = alternativeChanges t y :=
    alternativeChanges_of_paired h
  have halternatives : (x.change conditionals).changes alternativeChanges []
      = (y.change conditionals).changes alternativeChanges [] :=
    changes_eq_of_paired hfind hpaired hsteady.1 []
  have hall' := all_alternatives (x.change conditionals) none
  have hloops := changes_eq_of_paired (HeaderForm.changes_of_paired ⟨by decide, by decide⟩) (hpaired.change hall')
    (hsteady.change hall').2 []
  simp only [← halternatives, hloops]

/-- The rules of the passes before the headers take no firm line break away. -/
lemma staysFirm_rulesBefore (style : Style) (prev : Option Token) (s : Layout) :
    Paired StaysFirm prev s (s.relay (rulesBefore style) prev) := by
  induction s generalizing prev with
  | last gap => exact .last _ _ _
  | cons gap token rest ih =>
      refine .cons (fun a ha hfirm => ?_) (ih _)
      obtain rfl := Option.mem_def.1 ha
      simp only [firmGap, Bool.and_eq_true, Bool.or_eq_true, bne_iff_ne, beq_iff_eq, List.contains_iff_mem,
        Bool.not_eq_true'] at hfirm ⊢
      obtain ⟨hnext, hprev⟩ := hfirm
      refine ⟨hnext, hprev.imp_right ?_⟩
      rintro ⟨rfl, hfeed⟩
      refine ⟨rfl, ?_⟩
      by_cases hclose : token = .mark '}'
      · subst hclose
        have hbreak : rulesBefore style (some (.mark ';')) gap (some (.mark '}'))
            = rulesBefore style (some (.mark ';')) ['\n'] (some (.mark '}')) :=
          rulesBefore_const (.inl rfl) _ _
        rw [hbreak]
        cases hspacing : style.operatorSpacing <;>
          simp [rulesBefore, hspacing, GapRule.andThen, braceGap, commaGap, operatorGap]
      · exact (feed_mem_rulesBefore hclose (by simp) hnext.1.1).2 hfeed

/-- **A formed layout breaks lines where the layout does**, once lines are broken at braces. -/
lemma paired_formed (style : Style) (s : Layout) :
    Paired Stays none (s.relay (rulesBefore style) none) ((s.formed style).relay (rulesBefore style) none) := by
  rw [formed_eq]
  exact paired_relayWith (all_headerChanges _ none) (by simp)

/-- **Forming a layout that is formed changes nothing**, if its headers are steady. -/
lemma formed_formed (style : Style) {s : Layout} (h : s.Steady) :
    (s.formed style).formed style = s.formed style := by
  have hall := all_headerChanges (s.relay (rulesBefore style) none) none
  have hsteady := h.of_paired (staysFirm_rulesBefore style none s)
  have hchanges := headerChanges_eq (paired_formed style s) hsteady
  have hlines : ((s.formed style).arranged style).commentedLines = (s.arranged style).commentedLines := by
    have hpaired : Paired SameFeeds none (s.arranged style) ((s.formed style).arranged style) := by
      rw [arranged_eq style (s.formed style), ← hchanges, arranged_eq style s, formed_eq]
      exact paired_arrangedWith hall (by simp)
    exact (commentedLines_of_paired hpaired).1.symm
  rw [formed_eq style (s.formed style), ← hchanges, hlines, formed_eq style s, relayWith_thin hall (by simp),
    thin_thin]

end Layout

end SqfLayout
