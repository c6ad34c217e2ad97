import SqfLayout.Proofs.IndentedLayouts

/-!
# Layouts as they are written

**Tabs.**  From a line that a remark ends indentation drops the tabs, so a script with remarks has none
between the tokens of a line (`Layout.Clean`).  No pass adds any (`Layout.Clean.formed`).

**Margins.**  A script is written with all kinds of white space at the ends of its lines and on its blank
lines.  The margins pass makes a tidy layout of it (`stripMargins_text`): of a gap with line breaks only the
line feeds are left, and nothing of white space at the ends of the text.
-/

namespace SqfLayout

open SqfLayout.Text SqfLayout.Scan SqfLayout.Pass

/-! ## Tabs -/

/-- **A layout without tabs** between its tokens. -/
def Layout.Tabless : Layout → Prop
  | last gap => '\t' ∉ gap
  | cons gap _ rest => '\t' ∉ gap ∧ rest.Tabless

instance Layout.Tabless.decidable : (s : Layout) → Decidable s.Tabless
  | .last gap => inferInstanceAs (Decidable ('\t' ∉ gap))
  | .cons gap _ rest =>
    have := Layout.Tabless.decidable rest
    inferInstanceAs (Decidable ('\t' ∉ gap ∧ rest.Tabless))

/-- A rule that adds no tabs. -/
def GapRule.AddsNoTab (rule : GapRule) : Prop := ∀ prev gap next, '\t' ∉ gap → '\t' ∉ rule prev gap next

lemma GapRule.AddsNoTab.andThen {first second : GapRule} (hfirst : first.AddsNoTab) (hsecond : second.AddsNoTab) :
    (first.andThen second).AddsNoTab :=
  fun prev gap next hgap => hsecond _ _ _ (hfirst prev gap next hgap)

lemma tab_notMem_pulledGap (prev : Option Token) : '\t' ∉ pulledGap prev := by
  unfold pulledGap
  split_ifs <;> decide

lemma addsNoTab_rulesBefore (style : Style) : (rulesBefore style).AddsNoTab := by
  have hbraces : GapRule.AddsNoTab braceGap := by
    intro prev gap next hgap
    unfold braceGap
    split_ifs <;> first | exact hgap | decide
  have hcommas : GapRule.AddsNoTab commaGap := by
    intro prev gap next hgap
    unfold commaGap
    split_ifs <;> first | exact hgap | decide | exact tab_notMem_pulledGap prev
  have hoperators : GapRule.AddsNoTab operatorGap := by
    intro prev gap next hgap
    unfold operatorGap
    split
    · split_ifs <;> first | exact hgap | decide
    · exact hgap
  unfold rulesBefore
  split
  · exact (hbraces.andThen hcommas).andThen hoperators
  · exact hbraces.andThen hcommas

lemma addsNoTab_rulesBehind : rulesBehind.AddsNoTab := by
  have hstatements : GapRule.AddsNoTab statementGap := by
    intro prev gap next hgap
    unfold statementGap
    split_ifs <;> first | exact hgap | decide
  have hsemicolons : GapRule.AddsNoTab semicolonGap := by
    intro prev gap next hgap
    unfold semicolonGap
    split_ifs <;> first | exact hgap | exact tab_notMem_pulledGap prev
  have hparens : GapRule.AddsNoTab parenGap := by
    intro prev gap next hgap
    unfold parenGap
    split_ifs <;> first | exact hgap | decide
  exact (hstatements.andThen hsemicolons).andThen hparens

namespace Layout.Tabless

variable {s : Layout}

lemma relay {rule : GapRule} (hrule : rule.AddsNoTab) (prev : Option Token) (h : s.Tabless) :
    (s.relay rule prev).Tabless := by
  induction s generalizing prev with
  | last gap => exact hrule _ _ _ h
  | cons gap token rest ih => exact ⟨hrule _ _ _ h.1, ih _ h.2⟩

/-- Headers put spaces in the place of gaps. -/
lemma change {braces : Bool} {prev : Option Token} {changes : Changes}
    (hall : Changes.All (ChangeAt braces) prev s changes) (h : s.Tabless) : (s.change changes).Tabless := by
  induction s generalizing prev changes with
  | last gap => cases changes <;> exact h
  | cons gap token rest ih =>
      cases changes with
      | nil => exact h
      | cons new changes =>
          refine ⟨?_, ih hall.2 h.2⟩
          cases new with
          | none => exact h.1
          | some form =>
              obtain ⟨a, -, hchange⟩ := hall.1 form rfl
              rcases hchange.blank with rfl | rfl <;> simp

lemma headed (h : s.Tabless) : s.headed.Tabless :=
  ((h.change (all_conditionals s none)).change (all_alternatives _ none)).change (all_loops _ none)

lemma arranged (h : s.Tabless) (style : Style) : (s.arranged style).Tabless :=
  ((h.relay (addsNoTab_rulesBefore style) none).headed).relay addsNoTab_rulesBehind none

lemma squeezeWith (h : s.Tabless) (lines : List Bool) : (s.squeezeWith lines).Tabless := by
  induction s generalizing lines with
  | last gap => exact h
  | cons gap token rest ih =>
      refine ⟨?_, ih h.2 _⟩
      unfold squeezeGap
      split_ifs
      · decide
      · exact h.1

lemma thin (h : s.Tabless) (line : Option (List Char)) : (s.thin line).Tabless := by
  induction s generalizing line with
  | last gap => cases line <;> exact List.not_mem_nil
  | cons gap token rest ih =>
      cases line with
      | none => exact ⟨List.not_mem_nil, ih h.2 _⟩
      | some line =>
          refine ⟨?_, ih h.2 _⟩
          unfold thinGap
          split_ifs <;> first | exact h.1 | decide

lemma formed (h : s.Tabless) (style : Style) : (s.formed style).Tabless :=
  ((h.arranged style).squeezeWith _).thin none

lemma single (h : s.Tabless) (prev : Option Token) : (s.single prev).Tabless := by
  induction s generalizing prev with
  | last gap => exact h
  | cons gap token rest ih =>
      rw [Layout.single]
      split
      · exact ih h.2 _
      · exact ⟨h.1, ih h.2 _⟩

end Layout.Tabless

namespace Layout

lemma tokens_thin (line : Option (List Char)) (s : Layout) : (s.thin line).tokens = s.tokens := by
  induction s generalizing line with
  | last gap => cases line <;> rfl
  | cons gap token rest ih => cases line <;> simp [thin, tokens, ih]

lemma tokens_arranged (style : Style) (s : Layout) : (s.arranged style).tokens = s.tokens := by
  rw [arranged, tokens_relay, tokens_headed, tokens_relay]

/-- The passes keep the tokens of a layout. -/
lemma tokens_formed (style : Style) (s : Layout) : (s.formed style).tokens = s.tokens := by
  rw [formed, tokens_thin, squeezed, tokens_squeezeWith, tokens_arranged]

end Layout

/-- **A layout with tabs or with remarks**, but not with both. -/
def Layout.Clean (s : Layout) : Prop := s.tokens.any Token.isRemark = true → s.Tabless

instance (s : Layout) : Decidable s.Clean := inferInstanceAs (Decidable (_ → _))

namespace Layout.Clean

variable {s : Layout}

lemma arranged (h : s.Clean) (style : Style) : (s.arranged style).Clean := by
  rw [Clean, tokens_arranged]
  exact fun hremark => (h hremark).arranged style

lemma formed (h : s.Clean) (style : Style) : (s.formed style).Clean := by
  rw [Clean, tokens_formed]
  exact fun hremark => (h hremark).formed style

lemma single (h : s.Clean) (prev : Option Token) : (s.single prev).Clean := by
  intro hremark
  obtain ⟨t, ht, htoken⟩ := List.any_eq_true.1 hremark
  exact (h (List.any_eq_true.2 ⟨t, tokens_single_subset prev s ht, htoken⟩)).single prev

/-- In the lines that remarks end there are no tabs. -/
lemma untabbed (h : s.Clean) : s.Untabbed := by
  have hcommented (s : Layout) (hline : s.commented = true) : s.tokens.any Token.isRemark = true := by
    induction s with
    | last gap => simp [commented] at hline
    | cons gap token rest ih =>
        simp only [commented, Bool.and_eq_true, Bool.or_eq_true] at hline
        rw [tokens, List.any_cons, Bool.or_eq_true]
        exact hline.2.imp id ih
  induction s with
  | last gap => trivial
  | cons gap token rest ih =>
      rw [Clean, tokens, List.any_cons, Bool.or_eq_true] at h
      refine ⟨fun hline => (h ?_).1, ih fun hrest => (h (.inr hrest)).2⟩
      exact (Bool.or_eq_true _ _ ▸ hline).imp id (hcommented rest)

end Layout.Clean

/-! ## Gaps -/

/-- **What a gap of a script is like.** -/
@[mk_iff]
structure Admits (prev : Option Token) (gap : List Char) (next : Option Token) : Prop where
  space : ∀ c ∈ gap, isSpace c = true
  /-- Within a line, white space is spaces and tabs. -/
  blank : prev ≠ none → next ≠ none → '\n' ∉ gap → ∀ c ∈ gap, isBlank c = true
  /-- Two tokens without a gap do not join. -/
  apart : gap = [] → ∀ a ∈ prev, ∀ b ∈ next, ∀ d ∈ b.text.head?, a.joins d = false
  /-- No line starts with a number sign, and none can come to. -/
  sign : next = some (.mark '#') → '\n' ∉ gap ∧ ∃ a ∈ prev, a ≠ .mark '{' ∧ a ≠ .mark ';'
  /-- A remark ends its line. -/
  ends : next ≠ none → ∀ a ∈ prev, a.isRemark = true → '\n' ∈ gap

instance (prev : Option Token) (gap : List Char) (next : Option Token) : Decidable (Admits prev gap next) :=
  decidable_of_iff _ (admits_iff prev gap next).symm

/-- A layout whose tokens are valid and whose gaps may be written, behind the given token. -/
def Admitted : Option Token → Layout → Prop
  | prev, .last gap => Admits prev gap none
  | prev, .cons gap token rest => Admits prev gap (some token) ∧ token.Valid ∧ Admitted (some token) rest

instance Admitted.decidable : (prev : Option Token) → (s : Layout) → Decidable (Admitted prev s)
  | prev, .last gap => inferInstanceAs (Decidable (Admits prev gap none))
  | prev, .cons gap token rest =>
    have := Admitted.decidable (some token) rest
    inferInstanceAs (Decidable (Admits prev gap (some token) ∧ token.Valid ∧ Admitted (some token) rest))

/-- **What the margins pass leaves of a gap.** -/
def tidyGap : GapRule := fun prev gap next =>
  if '\n' ∈ gap then List.replicate (gap.count '\n') '\n'
  else if prev = none ∨ next = none then [] else gap

/-- **A layout as it may be written**, behind the given token.  If there are remarks in it, no tab stands
between two tokens of a line. -/
def Written (prev : Option Token) (s : Layout) : Prop := Admitted prev s ∧ (s.relay tidyGap prev).Clean

instance (prev : Option Token) (s : Layout) : Decidable (Written prev s) := inferInstanceAs (Decidable (_ ∧ _))

/-- At the ends of the text only the line feeds of a gap are left. -/
lemma tidyGap_edge {prev next : Option Token} (h : prev = none ∨ next = none) (gap : List Char) :
    tidyGap prev gap next = List.replicate (gap.count '\n') '\n' := by
  rw [tidyGap]
  split_ifs with hfeed
  · rfl
  · rw [List.count_eq_zero.2 hfeed]
    rfl

lemma Admits.fits {prev next : Option Token} {gap : List Char} (h : Admits prev gap next) :
    Fits prev (tidyGap prev gap next) next := by
  unfold tidyGap
  split_ifs with hfeed hends
  · have hne : List.replicate (gap.count '\n') '\n' ≠ [] := by
      simpa [List.replicate_eq_nil_iff, List.count_eq_zero] using hfeed
    exact Fits.feeds hne (fun c hc => List.eq_of_mem_replicate hc) fun hsign => (h.sign hsign).1 hfeed
  · refine ⟨by simp, fun _ a ha b hb => ?_, by simp, fun hsign => ⟨by simp, (h.sign hsign).2⟩,
      fun hnext a ha => ?_⟩
    · rcases hends with rfl | rfl <;> contradiction
    · rcases hends with rfl | rfl <;> contradiction
  · obtain ⟨hprev, hnext⟩ := not_or.1 hends
    exact ⟨.inl (h.blank hprev hnext hfeed), h.apart, fun hend => absurd hend hends, h.sign, h.ends⟩

lemma Admitted.fitting {prev : Option Token} {s : Layout} (h : Admitted prev s) :
    Fitting prev (s.relay tidyGap prev) := by
  induction s generalizing prev with
  | last gap => exact h.fits
  | cons gap token rest ih => exact ⟨h.1.fits, h.2.1, ih h.2.2⟩

/-! ## Lines of white space -/

/-- White space within a line. -/
def InLine (w : List Char) : Prop := (∀ c ∈ w, isSpace c = true) ∧ '\n' ∉ w

/-- **The lines of white space before a text**: the last of them goes on with the text. -/
lemma exists_lines_append {gap : List Char} (h : ∀ c ∈ gap, isSpace c = true) :
    ∃ rows w, rows.length = gap.count '\n' ∧ (∀ row ∈ rows, InLine row) ∧ InLine w
      ∧ ∀ {text first rest}, lines text = first :: rest → lines (gap ++ text) = rows ++ (w ++ first) :: rest := by
  induction gap with
  | nil => exact ⟨[], [], rfl, by simp, ⟨by simp, by simp⟩, fun hlines => hlines⟩
  | cons c gap ih =>
      obtain ⟨hc, hgap⟩ := List.forall_mem_cons.1 h
      obtain ⟨rows, w, hlength, hrows, hw, happend⟩ := ih hgap
      by_cases hfeed : c = '\n'
      · subst hfeed
        refine ⟨[] :: rows, w, by simp [hlength], ?_, hw, fun {text first rest} hlines => ?_⟩
        · exact List.forall_mem_cons.2 ⟨⟨by simp, by simp⟩, hrows⟩
        · have hcut := lines_append_feed [] (gap ++ text)
          rw [List.nil_append, lines_eq_singleton (by simp : '\n' ∉ []), happend hlines] at hcut
          exact hcut
      · have hcount : (c :: gap).count '\n' = gap.count '\n' := List.count_cons_of_ne hfeed
        have hinLine {w : List Char} (hw : InLine w) : InLine (c :: w) :=
          ⟨List.forall_mem_cons.2 ⟨hc, hw.1⟩, by simp [Ne.symm hfeed, hw.2]⟩
        cases rows with
        | nil =>
            refine ⟨[], c :: w, by rw [hcount, ← hlength], by simp, hinLine hw, fun hlines => ?_⟩
            have hcut := lines_append_of_notMem (a := [c]) (by simpa using Ne.symm hfeed) (happend hlines)
            exact hcut
        | cons row rows =>
            obtain ⟨hrow, hrows⟩ := List.forall_mem_cons.1 hrows
            refine ⟨(c :: row) :: rows, w, by rw [hcount, ← hlength]; rfl,
              List.forall_mem_cons.2 ⟨hinLine hrow, hrows⟩, hw, fun hlines => ?_⟩
            have hcut := lines_append_of_notMem (a := [c]) (by simpa using Ne.symm hfeed) (happend hlines)
            exact hcut

/-- A line of white space is a blank line. -/
lemma InLine.placed {w : List Char} (h : InLine w) : Placed [] w where
  trim := by
    obtain ⟨front, back, hw, -, -⟩ := exists_trim w
    by_contra hne
    obtain ⟨init, c, hc⟩ := (List.eq_nil_or_concat' (trim w)).resolve_left hne
    have hspace := getLast?_trim w c (by simp [hc])
    rw [h.1 c (by rw [hw, hc]; simp)] at hspace
    contradiction
  feed := h.2
  mode := scanLine_of_bare (by decide) (List.all_eq_true.2 h.1)

lemma forall₂_placed_blank {rows : List (List Char)} (h : ∀ row ∈ rows, InLine row) :
    List.Forall₂ Placed (List.replicate rows.length []) rows := by
  induction rows with
  | nil => exact .nil
  | cons row rows ih =>
      obtain ⟨hrow, hrows⟩ := List.forall_mem_cons.1 h
      exact .cons hrow.placed (ih hrows)

/-! ## The pass -/

/-- **The lines of a written layout**: white space may stand behind the first, and each of the others is
a line of the tidy layout in some place. -/
lemma Admitted.exists_lines {t : Token} {s : Layout} (h : Admitted (some t) s) :
    ∃ back rows, lines s.text = ((s.relay tidyGap (some t)).firstLine.text ++ back) :: rows ∧ InLine back
      ∧ List.Forall₂ Placed (s.relay tidyGap (some t)).lowerLines rows := by
  induction s generalizing t with
  | last gap =>
      obtain ⟨rows, w, hlength, hrows, hw, happend⟩ := exists_lines_append h.space
      have hlines : lines gap = rows ++ [w] := by simpa using happend (rfl : lines [] = [[]])
      rw [Layout.relay, tidyGap_edge (.inr rfl), ← hlength, Layout.text_last, hlines]
      simp only [Layout.firstLine, Layout.lowerLines, Layout.text_last, List.nil_append, List.length_replicate]
      cases rows with
      | nil => exact ⟨w, [], rfl, hw, .nil⟩
      | cons row rows =>
          obtain ⟨hrow, hrows⟩ := List.forall_mem_cons.1 hrows
          have hlower : ∀ row ∈ rows ++ [w], InLine row :=
            List.forall_mem_append.2 ⟨hrows, by simpa using hw⟩
          exact ⟨row, rows ++ [w], rfl, hrow, by simpa using forall₂_placed_blank hlower⟩
  | cons gap token rest ih =>
      obtain ⟨hadmits, hvalid, hrest⟩ := h
      obtain ⟨back, lower, hlines, hback, hlower⟩ := ih hrest
      have hfit := hrest.fitting
      have htoken := lines_append_of_notMem (Token.feed_notMem hvalid) hlines
      rw [Layout.text_cons, Layout.relay]
      by_cases hfeed : '\n' ∈ gap
      · obtain ⟨rows, w, hlength, hrows, hw, happend⟩ := exists_lines_append hadmits.space
        have hgap : tidyGap (some t) gap (some token) = List.replicate rows.length '\n' := by
          rw [tidyGap, hlength, if_pos hfeed]
        obtain ⟨row, rows, rfl⟩ : ∃ row rest, rows = row :: rest := by
          refine List.exists_cons_of_ne_nil ?_
          rintro rfl
          exact (List.count_pos_iff.2 hfeed).ne hlength
        obtain ⟨hrow, hrows⟩ := List.forall_mem_cons.1 hrows
        have hplaced := hfit.placed hvalid hw.1 hback.1 hw.2 hback.2
        rw [List.append_assoc] at hplaced
        refine ⟨row, rows ++ (w ++ (token.text ++ ((rest.relay tidyGap (some token)).firstLine.text ++ back))) :: lower,
          ?_, hrow, ?_⟩
        · simp [hgap, Layout.firstLine, List.replicate_succ, happend htoken]
        · simp only [hgap, Layout.lowerLines, List.length_cons, List.replicate_succ, List.mem_cons, true_or, if_true,
            List.length_replicate, Nat.add_sub_cancel]
          exact List.rel_append (forall₂_placed_blank hrows) (.cons hplaced hlower)
      · have hgap : tidyGap (some t) gap (some token) = gap := by simp [tidyGap, hfeed]
        refine ⟨back, lower, ?_, hback, ?_⟩
        · rw [lines_append_of_notMem hfeed htoken, hgap, Layout.firstLine, if_neg hfeed, Layout.text_cons]
          simp
        · rwa [hgap, Layout.lowerLines, if_neg hfeed]

/-- **The margins pass makes a tidy layout of a written one.** -/
theorem stripMargins_text {s : Layout} (h : Admitted none s) :
    stripMargins s.text = (s.relay tidyGap none).text := by
  have hfit := h.fitting
  -- the lines of the layout are those of the tidy one, in some places
  suffices hplaced : List.Forall₂ Placed (lines (s.relay tidyGap none).text) (lines s.text) by
    rw [stripMargins, stripRows_placed hplaced, unlines_lines]
  cases s with
  | last gap =>
      obtain ⟨rows, w, hlength, hrows, hw, happend⟩ := exists_lines_append h.space
      have hlines : lines gap = rows ++ [w] := by simpa using happend (rfl : lines [] = [[]])
      have hfeeds : ∀ c ∈ List.replicate rows.length '\n', c = '\n' := fun _ => List.eq_of_mem_replicate
      have htidy : lines (List.replicate rows.length '\n') = List.replicate (rows ++ [w]).length [] := by
        have hblank := lines_feeds hfeeds []
        rw [List.append_nil, List.length_replicate, lines_eq_singleton (by simp : '\n' ∉ []),
          ← List.replicate_succ'] at hblank
        rw [hblank, List.length_append, List.length_singleton]
      have hall : ∀ row ∈ rows ++ [w], InLine row := List.forall_mem_append.2 ⟨hrows, by simpa using hw⟩
      rw [Layout.relay, tidyGap_edge (.inl rfl), ← hlength, Layout.text_last, Layout.text_last, hlines, htidy]
      exact forall₂_placed_blank hall
  | cons gap token rest =>
      have hlines := hfit.lines_start
      obtain ⟨hadmits, hvalid, hrest⟩ := h
      obtain ⟨rows, w, hlength, hrows, hw, happend⟩ := exists_lines_append hadmits.space
      obtain ⟨back, lower, hlower, hback, hplacedLower⟩ := hrest.exists_lines
      have hplaced := hrest.fitting.placed hvalid hw.1 hback.1 hw.2 hback.2
      rw [List.append_assoc] at hplaced
      rw [Layout.relay, hlines, tidyGap_edge (.inl rfl), ← hlength, List.length_replicate, Layout.text_cons,
        happend (lines_append_of_notMem (Token.feed_notMem hvalid) hlower)]
      exact List.rel_append (forall₂_placed_blank hrows) (.cons hplaced hplacedLower)

end SqfLayout
