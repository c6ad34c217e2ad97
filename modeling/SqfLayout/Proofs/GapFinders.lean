import SqfLayout.Proofs.Finders
import SqfLayout.Proofs.GapRules

/-!
# Passes that look for marks as rules for gaps

Two passes replace what they find at a mark and the blanks beside it.

**Statements.**  `statementGap` starts a line behind a semicolon, unless a remark follows
(`splitStatements_text`).

**Parentheses.**  `parenGap` takes away the blanks inside parentheses (`trimParens_text`).
-/

namespace SqfLayout

open SqfLayout.Text SqfLayout.Scan SqfLayout.Pass

lemma allBlank_map_code {gap : List Char} (hgap : ∀ c ∈ gap, isBlank c = true) : AllBlank (gap.map Cell.code) := by
  simpa [AllBlank] using hgap

lemma takeWhile_blanks {gap : List Char} (hgap : ∀ c ∈ gap, isBlank c = true) {rest : List Cell}
    (hrest : ∀ cell ∈ rest.head?, isBlank cell.char = false) :
    (gap.map Cell.code ++ rest).takeWhile (fun cell => isBlank cell.char) = gap.map Cell.code
      ∧ (gap.map Cell.code ++ rest).dropWhile (fun cell => isBlank cell.char) = rest :=
  (allBlank_map_code hgap).takeWhile_append hrest

lemma isBlank_head_feeds {gap : List Char} (hgap : ∀ c ∈ gap, c = '\n') {rest : List Cell}
    (hrest : ∀ cell ∈ rest.head?, isBlank cell.char = false) :
    ∀ cell ∈ (gap.map Cell.code ++ rest).head?, isBlank cell.char = false := by
  cases gap with
  | nil => exact hrest
  | cons c gap =>
      intro cell hcell
      obtain rfl := Option.some.inj hcell
      rw [char_code, hgap c List.mem_cons_self]
      decide

/-! ## Statements -/

/-- **Gaps behind semicolons.** -/
def statementGap : GapRule := fun prev gap next =>
  if prev = some (.mark ';') ∧ '\n' ∉ gap ∧ next ≠ none ∧ next ≠ some (.mark ';')
      ∧ next.any Token.isRemark = false then ['\n']
  else gap

/-- Cells that are no semicolons are passed. -/
lemma replaces_statements_pass {block rest out : List Cell} {before : Option Char}
    (h : ∀ cell ∈ block, cell.isCode ';' = false)
    (hrest : ∀ before, Replaces semicolonFinder (fun _ put => put) before rest out) :
    Replaces semicolonFinder (fun _ put => put) before (block ++ rest) (block ++ out) := by
  refine .pass (fun front cell back hblock => ?_) (hrest _)
  have hcell := h cell (by simp [hblock])
  simp [semicolonFinder, hcell]

/-- A semicolon with the blanks behind it. -/
lemma semicolonFinder_blanks {gap : List Char} (hgap : ∀ c ∈ gap, isBlank c = true) {rest : List Cell}
    (hrest : ∀ cell ∈ rest.head?, isBlank cell.char = false) (before : Option Char) :
    semicolonFinder before ((.code ';' :: gap.map Cell.code) ++ rest)
      = some ((Cell.code ';' :: gap.map Cell.code).length,
        .code ';' :: if keepsLine rest then gap.map Cell.code else [.code '\n']) := by
  obtain ⟨htake, -⟩ := takeWhile_blanks hgap hrest
  simp [semicolonFinder, Cell.isCode, htake, Nat.add_comm]

/-- A semicolon whose line is kept. -/
lemma replaces_semicolon {rest out : List Cell}
    (hrest : Replaces semicolonFinder (fun _ put => put) (some ';') rest out)
    (hkeeps : keepsLine rest = true) (hhead : ∀ cell ∈ rest.head?, isBlank cell.char = false)
    (before : Option Char) :
    Replaces semicolonFinder (fun _ put => put) before (.code ';' :: rest) (.code ';' :: out) := by
  have hfound : semicolonFinder before ([.code ';'] ++ rest) = some ([Cell.code ';'].length, [.code ';']) := by
    have hblanks := semicolonFinder_blanks (List.forall_mem_nil _) hhead before
    simpa [hkeeps] using hblanks
  exact .found hfound (by simp) hrest

/-- **A token keeps the line of a semicolon if it is one itself, or a remark.** -/
lemma keepsLine_token {t : Token} (ht : t.Valid) {rest : List Cell}
    (hjoins : ∀ d ∈ nextChar rest none, t.joins d = false) :
    keepsLine (t.cells ++ rest) = (t == .mark ';' || t.isRemark) := by
  obtain ⟨cell, cells, hcells⟩ := List.exists_cons_of_ne_nil (Token.cells_ne_nil ht)
  have hhead : t.cells.head? = some cell := by rw [hcells]; rfl
  have hspace : isSpace cell.char = false := Token.isSpace_ends ht (.inl hhead)
  have hne {c : Char} (hc : isSpace c = true) : cell.char ≠ c := by
    rintro rfl
    simp [hspace] at hc
  by_cases hsemicolon : t = .mark ';'
  · subst hsemicolon
    rfl
  · have hchar : cell.char ≠ ';' := fun hchar =>
      hsemicolon (t.eq_mark_of_head ht hhead (by decide) (by decide) (.inl (by decide)) hchar)
    rw [hcells, List.cons_append, keepsLine, beq_eq_false_iff_ne.2 (hne (by decide)),
      beq_eq_false_iff_ne.2 (hne (by decide)), beq_eq_false_iff_ne.2 hchar,
      Token.slash_head ht hcells hjoins, beq_eq_false_iff_ne.2 hsemicolon]
    rfl

/-- **The statements pass behind a token.** -/
lemma replaces_statements {t : Token} (ht : t.Valid) {s : Layout} (h : Fitting (some t) s)
    (before : Option Char) :
    Replaces semicolonFinder (fun _ put => put) before (t.cells ++ s.cells)
      (t.cells ++ (s.relay statementGap (some t)).cells) := by
  induction s generalizing t before with
  | last gap =>
      have hpass (before : Option Char) : Replaces semicolonFinder (fun _ put => put) before
          (gap.map Cell.code) (gap.map Cell.code) := by
        simpa using replaces_statements_pass (isCode_of_mem_gap h.isSpace (by decide)) fun _ => .nil
      have hgap : statementGap (some t) gap none = gap := by simp [statementGap]
      rw [Layout.relay, hgap]
      by_cases hsemicolon : t = .mark ';'
      · subst hsemicolon
        have hfeeds := h.edge (.inr rfl)
        cases gap with
        | nil => exact replaces_semicolon (hpass _) rfl (by simp) before
        | cons c gap =>
            obtain rfl := hfeeds c List.mem_cons_self
            exact replaces_semicolon (hpass _) rfl (by simp [isBlank]) before
      · exact replaces_statements_pass (isCode_of_mem_token ht (by decide) hsemicolon) hpass
  | cons gap token rest ih =>
      obtain ⟨hfits, hvalid, hrest⟩ := h
      have hpass (before : Option Char) : Replaces semicolonFinder (fun _ put => put) before
          (gap.map Cell.code ++ (token.cells ++ rest.cells))
          (gap.map Cell.code ++ (token.cells ++ (rest.relay statementGap (some token)).cells)) :=
        replaces_statements_pass (isCode_of_mem_gap hfits.isSpace (by decide)) fun _ => ih hvalid hrest _
      by_cases hsemicolon : t = .mark ';'
      · subst hsemicolon
        rcases hfits.blanks_or_feed with hblank | ⟨feeds, rfl⟩
        · have hfound := semicolonFinder_blanks hblank (Token.isBlank_head hvalid rest.cells) before
          rw [keepsLine_token hvalid hrest.joins] at hfound
          have hreplaced : Replaces semicolonFinder (fun _ put => put) before _ _ :=
            .found hfound (by simp) (ih hvalid hrest _)
          by_cases hnext : token = .mark ';'
          · subst hnext
            simpa [Layout.relay, Layout.cells, statementGap, Token.cells] using hreplaced
          · cases hremark : token.isRemark with
            | true => simpa [Layout.relay, Layout.cells, statementGap, Token.cells, hremark] using hreplaced
            | false =>
                simpa [Layout.relay, Layout.cells, statementGap, Token.cells, hnext, hremark,
                  feed_notMem_of_blanks hblank] using hreplaced
        · have hreplaced := replaces_semicolon (hpass _) (by simp [keepsLine]) (by simp [isBlank]) before
          simpa [Layout.relay, Layout.cells, statementGap, Token.cells] using hreplaced
      · have hgap : statementGap (some t) gap (some token) = gap := by simp [statementGap, hsemicolon]
        rw [Layout.relay, hgap]
        exact replaces_statements_pass (isCode_of_mem_token ht (by decide) hsemicolon) hpass

lemma splitStatements_text {s : Layout} (h : Fitting none s) :
    splitStatements s.text = (s.relay statementGap none).text := by
  have hreplaced : Replaces semicolonFinder (fun _ put => put) none s.cells
      (s.relay statementGap none).cells := by
    cases s with
    | last gap =>
        simpa [Layout.cells, Layout.relay, statementGap] using
          replaces_statements_pass (isCode_of_mem_gap h.isSpace (by decide)) fun _ => .nil
    | cons gap token rest =>
        obtain ⟨hfits, hvalid, hrest⟩ := h
        simpa [Layout.cells, Layout.relay, statementGap] using
          replaces_statements_pass (isCode_of_mem_gap hfits.isSpace (by decide))
            fun before => replaces_statements hvalid hrest before
  rw [splitStatements, h.label_text, hreplaced.replaceFound_eq]
  rfl

/-! ## Parentheses -/

/-- **Gaps inside parentheses.** -/
def parenGap : GapRule := fun prev gap next =>
  if '\n' ∉ gap ∧ (prev = some (.mark '(') ∨ next = some (.mark ')')) then [] else gap

/-- Cells that are no opening parentheses, and behind whose blanks there is no closing one, are passed. -/
lemma replaces_parens_pass {block rest out : List Cell} {before : Option Char}
    (hopen : ∀ cell ∈ block, cell.isCode '(' = false)
    (hclose : ∀ front cell back, block = front ++ cell :: back →
      ∀ next ∈ ((cell :: (back ++ rest)).dropWhile fun cell => isBlank cell.char).head?,
        next.isCode ')' = false)
    (hrest : ∀ before, Replaces parenFinder (fun _ paren => [paren]) before rest out) :
    Replaces parenFinder (fun _ paren => [paren]) before (block ++ rest) (block ++ out) := by
  refine .pass (fun front cell back hblock => ?_) (hrest _)
  have hcell := hopen cell (by simp [hblock])
  have hnext := hclose front cell back hblock
  rw [parenFinder, hcell]
  cases hdrop : (cell :: (back ++ rest)).dropWhile fun cell => isBlank cell.char with
  | nil => rfl
  | cons next behind =>
      rw [hdrop] at hnext
      simp [hnext next rfl]

/-- A token that is no parenthesis is passed. -/
lemma replaces_parens_token {t : Token} (ht : t.Valid) (hopen : t ≠ .mark '(') (hclose : t ≠ .mark ')')
    {rest out : List Cell}
    (hrest : ∀ before, Replaces parenFinder (fun _ paren => [paren]) before rest out)
    (before : Option Char) :
    Replaces parenFinder (fun _ paren => [paren]) before (t.cells ++ rest) (t.cells ++ out) := by
  refine replaces_parens_pass (isCode_of_mem_token ht (by decide) hopen) ?_ hrest
  intro front cell back hcells next hnext
  -- blanks of a token are followed by another character of the token
  have hlast : ¬ ∀ c ∈ cell :: back, isBlank c.char = true := by
    intro hall
    have hmem : (cell :: back).getLast (by simp) ∈ cell :: back := List.getLast_mem _
    have hend : t.cells.getLast? = some ((cell :: back).getLast (by simp)) := by
      rw [hcells, List.getLast?_append_of_ne_nil _ (by simp), List.getLast?_eq_some_getLast]
    have hblank := isBlank_of_isSpace_false (Token.isSpace_ends ht (.inr hend))
    simp [hall _ hmem] at hblank
  have hhead : next ∈ ((cell :: back).dropWhile fun cell => isBlank cell.char) := by
    rw [← List.cons_append, List.dropWhile_append] at hnext
    have hne : ((cell :: back).dropWhile fun cell => isBlank cell.char).isEmpty = false := by
      rw [Bool.eq_false_iff, ne_eq, List.isEmpty_iff, List.dropWhile_eq_nil_iff]
      exact hlast
    rw [hne, if_neg (by simp), List.head?_append_of_ne_nil _ (by simpa using hne)] at hnext
    exact List.mem_of_head? hnext
  have hmem : next ∈ t.cells := by
    rw [hcells]
    exact List.mem_append_right _ (List.dropWhile_sublist _ |>.subset hhead)
  exact isCode_of_mem_token ht (by decide) hclose next hmem

/-- An opening parenthesis takes the blanks behind it along. -/
lemma replaces_parens_open {gap : List Char} (hgap : ∀ c ∈ gap, isBlank c = true) {rest out : List Cell}
    (hhead : ∀ cell ∈ rest.head?, isBlank cell.char = false)
    (hrest : ∀ before, Replaces parenFinder (fun _ paren => [paren]) before rest out)
    (before : Option Char) :
    Replaces parenFinder (fun _ paren => [paren]) before (.code '(' :: (gap.map Cell.code ++ rest))
      (.code '(' :: out) := by
  obtain ⟨htake, -⟩ := takeWhile_blanks hgap hhead
  have hfound : parenFinder before ((.code '(' :: gap.map Cell.code) ++ rest)
      = some ((Cell.code '(' :: gap.map Cell.code).length, .code '(') := by
    simp [parenFinder, Cell.isCode, htake, Nat.add_comm]
  exact .found hfound (by simp) (hrest _)

/-- A closing parenthesis takes the blanks before it along. -/
lemma replaces_parens_close {gap : List Char} (hgap : ∀ c ∈ gap, isBlank c = true) {rest out : List Cell}
    (hrest : ∀ before, Replaces parenFinder (fun _ paren => [paren]) before rest out)
    (before : Option Char) :
    Replaces parenFinder (fun _ paren => [paren]) before (gap.map Cell.code ++ .code ')' :: rest)
      (.code ')' :: out) := by
  obtain ⟨htake, hdrop⟩ := takeWhile_blanks hgap (by simp [isBlank] : ∀ cell ∈ (Cell.code ')' :: rest).head?,
    isBlank cell.char = false)
  have hfound : parenFinder before ((gap.map Cell.code ++ [.code ')']) ++ rest)
      = some ((gap.map Cell.code ++ [Cell.code ')']).length, .code ')') := by
    rw [List.append_assoc, List.singleton_append]
    cases gap with
    | nil => simp [parenFinder, Cell.isCode, isBlank]
    | cons c gap =>
        have hc : (Cell.code c).isCode '(' = false := by
          have hblank := hgap c List.mem_cons_self
          rw [Bool.eq_false_iff, ne_eq, isCode_iff]
          intro heq
          obtain rfl : c = '(' := congrArg Cell.char heq
          exact absurd hblank (by decide)
        rw [List.map_cons, List.cons_append] at htake hdrop ⊢
        simp only [parenFinder, hc, hdrop, htake, Bool.false_eq_true, if_false]
        simp [Cell.isCode]
  have hreplaced : Replaces parenFinder (fun _ paren => [paren]) before _ _ :=
    .found hfound (by simp) (hrest _)
  simpa using hreplaced

/-- Line feeds stay inside parentheses. -/
lemma parenGap_of_feeds {gap : List Char} (hgap : ∀ c ∈ gap, c = '\n') (prev next : Option Token) :
    parenGap prev gap next = gap := by
  cases gap with
  | nil => simp [parenGap]
  | cons c gap => simp [parenGap, hgap c]

/-- Line feeds are passed. -/
lemma replaces_parens_feeds {gap : List Char} (hgap : ∀ c ∈ gap, c = '\n') {rest out : List Cell}
    (hrest : ∀ before, Replaces parenFinder (fun _ paren => [paren]) before rest out) (before : Option Char) :
    Replaces parenFinder (fun _ paren => [paren]) before (gap.map Cell.code ++ rest) (gap.map Cell.code ++ out) := by
  have hspace : ∀ c ∈ gap, isSpace c = true := fun c hc => by rw [hgap c hc]; decide
  refine replaces_parens_pass (isCode_of_mem_gap hspace (by decide)) ?_ hrest
  intro front cell back hcells next hnext
  have hmem : cell ∈ gap.map Cell.code := by simp [hcells]
  obtain ⟨c, hc, rfl⟩ := List.mem_map.1 hmem
  obtain rfl := hgap c hc
  rw [List.dropWhile_cons_of_neg (by decide)] at hnext
  obtain rfl := Option.some.inj hnext
  decide

/-- Blanks are passed before a token that is no closing parenthesis. -/
lemma replaces_parens_blanks {gap : List Char} (hgap : ∀ c ∈ gap, isBlank c = true) {t : Token} (ht : t.Valid)
    (hclose : t ≠ .mark ')') {rest out : List Cell}
    (hrest : ∀ before, Replaces parenFinder (fun _ paren => [paren]) before (t.cells ++ rest) out)
    (before : Option Char) :
    Replaces parenFinder (fun _ paren => [paren]) before (gap.map Cell.code ++ (t.cells ++ rest))
      (gap.map Cell.code ++ out) := by
  have hspace : ∀ c ∈ gap, isSpace c = true := fun c hc => isSpace_of_isBlank (hgap c hc)
  refine replaces_parens_pass (isCode_of_mem_gap hspace (by decide)) ?_ hrest
  intro front cell back hcells next hnext
  have hback : ∀ c ∈ cell :: back, isBlank c.char = true := by
    have hall : ∀ c ∈ gap.map Cell.code, isBlank c.char = true := by simpa using hgap
    exact fun c hc => hall c (hcells ▸ List.mem_append_right _ hc)
  obtain ⟨first, cells, hfirst⟩ := List.exists_cons_of_ne_nil (Token.cells_ne_nil ht)
  have hnot : isBlank first.char = false := Token.isBlank_head ht rest first (by rw [hfirst]; rfl)
  rw [← List.cons_append, List.dropWhile_append_of_pos hback, hfirst, List.cons_append,
    List.dropWhile_cons_of_neg (by simp [hnot])] at hnext
  obtain rfl := Option.some.inj hnext
  exact isCode_of_mem_token ht (by decide) hclose _ (hfirst ▸ List.mem_cons_self)

/-- **The parentheses pass behind a token**; an opening parenthesis belongs to what is replaced. -/
lemma replaces_parens {prev : Option Token} {s : Layout} (h : Fitting prev s) (before : Option Char) :
    if prev = some (.mark '(') then
      Replaces parenFinder (fun _ paren => [paren]) before (.code '(' :: s.cells)
        (.code '(' :: (s.relay parenGap prev).cells)
    else
      Replaces parenFinder (fun _ paren => [paren]) before s.cells
        (s.relay parenGap prev).cells := by
  induction s generalizing prev before with
  | last gap =>
      have hfeeds := h.edge (.inr rfl)
      have hend (before : Option Char) : Replaces parenFinder (fun _ paren => [paren]) before
          (gap.map Cell.code) (gap.map Cell.code) := by
        simpa using replaces_parens_feeds hfeeds (fun _ => .nil) before
      rw [Layout.relay, parenGap_of_feeds hfeeds]
      split
      · have hhead : ∀ cell ∈ (gap.map Cell.code ++ []).head?, isBlank cell.char = false :=
          isBlank_head_feeds hfeeds (by simp)
        rw [List.append_nil] at hhead
        exact replaces_parens_open (List.forall_mem_nil _) hhead hend before
      · exact hend before
  | cons gap token rest ih =>
      obtain ⟨hfits, hvalid, hrest⟩ := h
      have htoken (before : Option Char) : Replaces parenFinder (fun _ paren => [paren]) before
          (token.cells ++ rest.cells) (token.cells ++ (rest.relay parenGap (some token)).cells) := by
        have hbehind (before : Option Char) := ih hrest before
        by_cases hopen : token = .mark '('
        · subst hopen
          exact hbehind before
        · simp only [Option.some.injEq, hopen, if_false] at hbehind
          by_cases hclose : token = .mark ')'
          · subst hclose
            exact replaces_parens_close (List.forall_mem_nil _) hbehind before
          · exact replaces_parens_token hvalid hopen hclose hbehind before
      have hhead := Token.isBlank_head hvalid rest.cells
      rcases hfits.tidy with hblank | hfeed
      · have hnot := feed_notMem_of_blanks hblank
        split
        · next hopen =>
            subst hopen
            have hgap : parenGap (some (.mark '(')) gap (some token) = [] := by simp [parenGap, hnot]
            rw [Layout.relay, hgap]
            exact replaces_parens_open hblank hhead htoken before
        · next hopen =>
            by_cases hclose : token = .mark ')'
            · subst hclose
              have hgap : parenGap prev gap (some (.mark ')')) = [] := by simp [parenGap, hnot]
              rw [Layout.relay, hgap]
              exact replaces_parens_close hblank (fun before => ih hrest before) before
            · have hgap : parenGap prev gap (some token) = gap := by simp [parenGap, hopen, hclose]
              rw [Layout.relay, hgap]
              exact replaces_parens_blanks hblank hvalid hclose htoken before
      · rw [Layout.relay, parenGap_of_feeds hfeed]
        split
        · exact replaces_parens_open (List.forall_mem_nil _) (isBlank_head_feeds hfeed hhead)
            (replaces_parens_feeds hfeed htoken) before
        · exact replaces_parens_feeds hfeed htoken before

lemma trimParens_text {s : Layout} (h : Fitting none s) :
    trimParens s.text = (s.relay parenGap none).text := by
  have hreplaced : Replaces parenFinder (fun _ paren => [paren]) none s.cells
      (s.relay parenGap none).cells := replaces_parens h none
  rw [trimParens, h.label_text, hreplaced.replaceFound_eq]
  rfl

end SqfLayout
