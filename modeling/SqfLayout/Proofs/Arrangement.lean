import SqfLayout.Format
import SqfLayout.Proofs.GapFinders
import SqfLayout.Proofs.HeaderPass
import SqfLayout.Proofs.OperatorGaps

/-!
# The passes on a layout

**Rules.**  The rules of the passes make gaps that fit from gaps that fit (`keeps_braceGap` and so on), and
rules in a row are one rule (`Layout.relay_relay`).  Semicolons are joined by a rule as well, once those
that follow another directly are dropped (`Layout.joined_eq`).

**All passes.**  `Layout.arranged` is what the passes between the margins and the indentation make of a
layout: a rule, the changes of the headers, and a second rule.  `arrangeText_text` says so.
-/

namespace SqfLayout

open SqfLayout.Text SqfLayout.Scan SqfLayout.Pass

/-! ## Rules in a row -/

/-- One rule behind another. -/
def GapRule.andThen (first second : GapRule) : GapRule := fun prev gap next =>
  second prev (first prev gap next) next

lemma GapRule.Keeps.andThen {first second : GapRule} (hfirst : first.Keeps) (hsecond : second.Keeps) :
    (first.andThen second).Keeps :=
  fun prev gap next hfits => hsecond _ _ _ (hfirst prev gap next hfits)

namespace Layout

lemma tokens_relay (rule : GapRule) (prev : Option Token) (s : Layout) :
    (s.relay rule prev).tokens = s.tokens := by
  induction s generalizing prev with
  | last gap => rfl
  | cons gap token rest ih => exact congrArg (token :: ·) (ih _)

/-- **Two rules in a row are one rule.** -/
lemma relay_relay (first second : GapRule) (prev : Option Token) (s : Layout) :
    (s.relay first prev).relay second prev = s.relay (first.andThen second) prev := by
  induction s generalizing prev with
  | last gap => rfl
  | cons gap token rest ih => exact congrArg (cons _ token) (ih _)

lemma Plain.relay {s : Layout} (h : s.Plain) (rule : GapRule) (prev : Option Token) :
    (s.relay rule prev).Plain := by
  rw [Layout.Plain, tokens_relay]
  exact h

end Layout

/-! ## Rules that keep layouts fitting -/

section Keeps

variable {prev next : Option Token} {gap : List Char}

/-- No number sign follows an opening brace or a semicolon. -/
lemma Fits.next_ne_sign {c : Char} (h : Fits (some (.mark c)) gap next) (hc : c = '{' ∨ c = ';') :
    next ≠ some (.mark '#') := by
  rintro rfl
  obtain ⟨a, ha, hopen, hsemicolon⟩ := (h.sign rfl).2
  obtain rfl := Option.some.inj ha
  rcases hc with rfl | rfl
  · exact hopen rfl
  · exact hsemicolon rfl

lemma Fits.feed (hsign : next ≠ some (.mark '#')) : Fits prev ['\n'] next :=
  Fits.feeds (List.cons_ne_nil _ _) (by simp) hsign

lemma Fits.space (h : Fits prev gap next) (hprev : prev ≠ none) (hremark : ∀ a ∈ prev, a.isRemark = false)
    (hnext : next ≠ none) : Fits prev [' '] next :=
  h.blanks (by decide) hprev hremark hnext

lemma Fits.nil_of_none (h : Fits prev gap next) (hnone : prev = none ∨ next = none) : Fits prev [] next where
  tidy := by simp
  apart _ a ha b hb := by rcases hnone with rfl | rfl <;> contradiction
  edge := by simp
  sign hnext := ⟨by simp, (h.sign hnext).2⟩
  ends hnext a ha := by rcases hnone with rfl | rfl <;> contradiction

/-- The gap before a mark that is pulled back. -/
lemma Fits.pulled {c : Char} (h : Fits prev gap (some (.mark c)))
    (hc : isWordChar c = false ∧ ∀ op ∈ operators, c ∉ op) (hheeded : isHeeded c = false)
    (hsign : c ≠ '#') : Fits prev (pulledGap prev) (some (.mark c)) := by
  unfold pulledGap
  split_ifs with hremark
  · exact Fits.feed (by simpa using hsign)
  · exact h.nil_of_next (fun a ha => by simpa [Option.mem_def.1 ha] using hremark) hc hheeded

lemma keeps_braceGap : GapRule.Keeps braceGap := by
  intro prev gap next h
  unfold braceGap
  split_ifs with hclose hopen hprev hnext hremark
  · rcases hopen with hprev | rfl
    · exact h.nil_of_none (.inl hprev)
    · exact h.nil_of_prev (by decide) (by decide)
  · exact Fits.feed (by simp [hclose])
  · exact h.nil_of_none (.inr hnext)
  · subst hprev
    exact h.space (by simp) (by simp [Token.isRemark]) hnext
  · subst hprev
    exact Fits.feed (h.next_ne_sign (.inl rfl))
  · exact h

lemma keeps_commaGap : GapRule.Keeps commaGap := by
  intro prev gap next h
  unfold commaGap
  split_ifs with hcomma hprev hnext
  · subst hcomma
    exact h.pulled (by decide) (by decide) (by decide)
  · exact h.nil_of_none (.inr hnext)
  · exact h.space (by simp [hprev.1]) (by simp [hprev.1, Token.isRemark]) hnext
  · exact h

lemma keeps_operatorGap : GapRule.Keeps operatorGap := by
  intro prev gap next h
  unfold operatorGap
  split
  · split_ifs with hfeed
    · exact h
    · exact h.blanks (by decide) (by simp) (h.no_remark hfeed (by simp)) (by simp)
    · exact h.space (by simp) (h.no_remark hfeed (by simp)) (by simp)
    · exact h.space (by simp) (h.no_remark hfeed (by simp)) (by simp)
    · exact h
  · exact h

lemma keeps_statementGap : GapRule.Keeps statementGap := by
  intro prev gap next h
  unfold statementGap
  split_ifs with hsemicolon
  · obtain ⟨rfl, -⟩ := hsemicolon
    exact Fits.feed (h.next_ne_sign (.inr rfl))
  · exact h

lemma keeps_parenGap : GapRule.Keeps parenGap := by
  intro prev gap next h
  unfold parenGap
  split_ifs with hparen
  · rcases hparen.2 with rfl | rfl
    · exact h.nil_of_prev (by decide) (by decide)
    · exact h.nil_of_next (h.no_remark hparen.1 (by simp)) (by decide) (by decide)
  · exact h

/-- **Gaps before semicolons**: there are none, unless a remark ends there. -/
def semicolonGap : GapRule := fun prev gap next => if next = some (.mark ';') then pulledGap prev else gap

lemma keeps_semicolonGap : GapRule.Keeps semicolonGap := by
  intro prev gap next h
  unfold semicolonGap
  split_ifs with hsemicolon
  · subst hsemicolon
    exact h.pulled (by decide) (by decide) (by decide)
  · exact h

end Keeps

/-! ## Semicolons -/

namespace Layout

/-- **A layout without repeated semicolons**: one that follows another is dropped, with the gap before it. -/
def single : Option Token → Layout → Layout
  | _, last gap => last gap
  | prev, cons gap token rest =>
    if token = .mark ';' ∧ prev = some (.mark ';') then rest.single prev
    else cons gap token (rest.single (some token))

/-- Behind any other token nothing is dropped. -/
lemma single_cons {prev : Option Token} (h : prev ≠ some (.mark ';')) (gap : List Char) (token : Token)
    (rest : Layout) :
    (cons gap token rest).single prev = cons gap token (rest.single (some token)) := by
  rw [single, if_neg fun hboth => h hboth.2]

/-- Dropped semicolons leave the gap behind them where it was, so rules do not see them. -/
lemma single_relay (rule : GapRule) (prev : Option Token) (s : Layout) :
    (s.relay rule prev).single prev = (s.single prev).relay rule prev := by
  induction s generalizing prev with
  | last gap => rfl
  | cons gap token rest ih =>
      rw [relay, single, single]
      split
      · next hboth => rw [hboth.1, ← hboth.2, ih]
      · rw [relay, ih]

/-- **Joining semicolons** is dropping them and a rule. -/
lemma joined_eq (prev : Option Token) (s : Layout) : s.joined prev = (s.single prev).relay semicolonGap prev := by
  induction s generalizing prev with
  | last gap => simp [joined, single, relay, semicolonGap]
  | cons gap token rest ih =>
      by_cases htoken : token = .mark ';'
      · by_cases hprev : prev = some (.mark ';') <;> simp [joined, single, relay, semicolonGap, htoken, hprev, ih]
      · simp [joined, single, relay, semicolonGap, htoken, ih]

end Layout

lemma Layout.tokens_single_subset (prev : Option Token) (s : Layout) : (s.single prev).tokens ⊆ s.tokens := by
  induction s generalizing prev with
  | last gap => exact fun _ h => h
  | cons gap token rest ih =>
      rw [Layout.single]
      split
      · exact fun t ht => List.mem_cons_of_mem _ (ih _ ht)
      · exact List.cons_subset_cons token (ih _)

lemma Fitting.single {prev : Option Token} {s : Layout} (h : Fitting prev s) : Fitting prev (s.single prev) := by
  induction s generalizing prev with
  | last gap => exact h
  | cons gap token rest ih =>
      obtain ⟨hfits, hvalid, hrest⟩ := h
      rw [Layout.single]
      split
      · next hboth =>
          obtain ⟨rfl, rfl⟩ := hboth
          exact ih hrest
      · exact ⟨hfits, hvalid, ih hrest⟩

/-- Tokens of which no two in a row are semicolons. -/
def SingleSemicolons (tokens : List Token) : Prop :=
  tokens.IsChain fun a b => ¬ (a = .mark ';' ∧ b = .mark ';')

lemma Layout.singleSemicolons_single (prev : Option Token) (s : Layout) :
    SingleSemicolons (prev.toList ++ (s.single prev).tokens) := by
  induction s generalizing prev with
  | last gap => cases prev <;> simp [SingleSemicolons, Layout.single, Layout.tokens]
  | cons gap token rest ih =>
      rw [Layout.single]
      split
      · exact ih prev
      · next hnot =>
          cases prev with
          | none => exact ih (some token)
          | some a => exact List.isChain_cons_cons.2 ⟨fun hboth => hnot ⟨hboth.2, by rw [hboth.1]⟩, ih (some token)⟩

/-- Where no semicolon follows another, none is dropped. -/
lemma Layout.single_eq_self {prev : Option Token} {s : Layout}
    (h : SingleSemicolons (prev.toList ++ s.tokens)) : s.single prev = s := by
  induction s generalizing prev with
  | last gap => rfl
  | cons gap token rest ih =>
      cases prev with
      | none => rw [Layout.single_cons (by simp), ih h]
      | some a =>
          obtain ⟨hfirst, hchain⟩ := List.isChain_cons_cons.1 h
          have hrest : SingleSemicolons ((some token).toList ++ rest.tokens) := hchain
          rw [Layout.single, if_neg fun hboth => hfirst ⟨Option.some.inj hboth.2, hboth.1⟩, ih hrest]

/-! ## All passes -/

/-- The rules of the passes before the headers. -/
def rulesBefore (style : Style) : GapRule :=
  (braceGap.andThen commaGap).andThen (if style.operatorSpacing then operatorGap else fun _ gap _ => gap)

/-- The rules of the passes behind the headers. -/
def rulesBehind : GapRule := (statementGap.andThen semicolonGap).andThen parenGap

lemma keeps_rulesBefore (style : Style) : (rulesBefore style).Keeps := by
  refine (keeps_braceGap.andThen keeps_commaGap).andThen ?_
  split
  · exact keeps_operatorGap
  · exact fun _ _ _ h => h

lemma keeps_rulesBehind : rulesBehind.Keeps :=
  (keeps_statementGap.andThen keeps_semicolonGap).andThen keeps_parenGap

/-- **What the passes between the margins and the indentation make of a layout.** -/
def Layout.arranged (style : Style) (s : Layout) : Layout :=
  (s.relay (rulesBefore style) none).headed.relay rulesBehind none

lemma Fitting.arranged {s : Layout} (h : Fitting none s) (style : Style) : Fitting none (s.arranged style) :=
  (h.relay (keeps_rulesBefore style)).headed.relay keeps_rulesBehind

/-- The passes from the commas to the parentheses. -/
def arrangeText (style : Style) (text : List Char) : List Char :=
  trimParens (joinSemicolons (splitStatements (spaceHeaders
    (if style.operatorSpacing then spaceOperators (spaceCommas text) else spaceCommas text))))

lemma Layout.tokens_headed (s : Layout) : s.headed.tokens = s.tokens := by
  simp only [Layout.headed, Layout.spaced, Layout.tokens_change]

/-- **The passes on a layout** with its lines broken at braces. -/
lemma arrangeText_text {s : Layout} (h : Fitting none s) (hplain : s.Plain) (style : Style) :
    arrangeText style (s.relay braceGap none).text
      = (((s.relay (rulesBefore style) none).headed.single none).relay rulesBehind none).text := by
  have hbraces := h.relay keeps_braceGap
  have hcommas := spaceCommas_text hbraces
  rw [Layout.relay_relay] at hcommas
  have hbefore : (if style.operatorSpacing then spaceOperators (spaceCommas (s.relay braceGap none).text)
      else spaceCommas (s.relay braceGap none).text) = (s.relay (rulesBefore style) none).text := by
    rw [hcommas, rulesBefore]
    split
    · rw [spaceOperators_text (h.relay (keeps_braceGap.andThen keeps_commaGap)), Layout.relay_relay]
    · rfl
  have hheaded := (h.relay (keeps_rulesBefore style)).headed
  have hsplit := hheaded.relay keeps_statementGap
  rw [arrangeText, hbefore, spaceHeaders_text (h.relay (keeps_rulesBefore style)) (hplain.relay _ _),
    splitStatements_text hheaded, joinSemicolons_text hsplit, Layout.joined_eq,
    trimParens_text (hsplit.single.relay keeps_semicolonGap), Layout.single_relay, Layout.relay_relay,
    Layout.relay_relay]
  rfl

end SqfLayout
