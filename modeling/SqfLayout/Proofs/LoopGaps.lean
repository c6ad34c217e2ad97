import SqfLayout.Proofs.ConditionGaps

/-!
# Loops as changes of gaps

The condition of a loop stands in braces, and the white space beside them may hold line breaks where that
inside may not.  The search for its end therefore looks at the character before, too.

**Conditions.**  As for conditionals, the search through cells and the one through tokens come to the same
end (`shortest_loop`, `shortest_loopCondition`), and the pass over loops changes gaps as its form says
(`changesGaps_loops`).
-/

namespace SqfLayout

open SqfLayout.Text SqfLayout.Scan SqfLayout.Pass

/-! ## Loops -/

lemma shortest_of_close {α : Type} {close : Option Char → List Cell → Option α} {last : Option Char}
    {cells : List Cell} {found : α} (h : close last cells = some found) :
    shortest close last cells = some ([], found) := by
  cases cells with
  | nil => rw [shortest, h]; rfl
  | cons cell cells => rw [shortest, h]

lemma shortest_of_feed {α : Type} {close : Option Char → List Cell → Option α} {last : Option Char}
    {cells : List Cell} (h : close last (.code '\n' :: cells) = none) :
    shortest close last (.code '\n' :: cells) = none := by
  rw [shortest, h]
  rfl

lemma loopTail?_of_ne {cell : Cell} (hspace : isSpace cell.char = false) (hne : cell.char ≠ '}')
    (last : Option Char) (rest : List Cell) : loopTail? last (cell :: rest) = none := by
  have hgap : gap (cell :: rest) = ([], cell :: rest) := by
    simp [gap, List.span_eq_takeWhile_dropWhile, hspace]
  rw [loopTail?_eq, hgap]
  simp [afterMark?, hne]

/-- The condition of a loop does not end behind white space. -/
lemma loopTail?_of_space {last : Option Char} (h : last.any isSpace = true) (cells : List Cell) :
    loopTail? last cells = none := by
  rw [loopTail?_eq, h, if_pos rfl]

/-- Nor does it end inside a token. -/
lemma loopTail?_inside {t : Token} (ht : t.Valid) {s : Layout} (hplain : t.Plain s.tokens)
    (hs : Fitting (some t) s) {front back : List Cell} {cell : Cell} (hfront : front ≠ [])
    (hsplit : t.cells = front ++ cell :: back) (last : Option Char) :
    loopTail? last (cell :: (back ++ s.cells)) = none := by
  have hmem : cell ∈ t.cells := by simp [hsplit]
  rcases Token.code_or_quoted ht with hcode | ⟨quote, body, rfl⟩ | ⟨body, rfl⟩
  · refine loopTail?_of_ne (hcode cell hmem).2 (fun hchar => ?_) last _
    have hbrace : cell.isCode '}' = true := by simp [Cell.isCode, (hcode cell hmem).1, hchar]
    obtain rfl := t.eq_mark_of_isCode ht hmem (by decide) hbrace
    exact hfront (mark_split hsplit).1
  · obtain ⟨lits, hback, hlits⟩ := literal_split hsplit
    rw [← List.cons_append, hback, List.append_assoc, List.singleton_append]
    exact loopTail?_literal ht.1 s.cells (char_ne_brace ht hplain hlits) last
  · exact loopTail?_remark ht hplain hs ⟨front, hsplit.symm⟩ last

section Loop

variable {prev : Option Token} {gap : List Char} {token : Token} {rest : Layout} {last : Option Char}

/-- The tail of a loop at a gap. -/
lemma loopTail?_closes (h : Fitting prev (.cons gap token rest)) (hlast : last.any isSpace = false)
    (hcloses : loopForm.closes token rest = false) :
    loopTail? last (Layout.cons gap token rest).cells = none := by
  rw [h.loopTail?_cells hlast]
  by_cases hclose : token = .mark '}'
  · subst hclose
    have hturn : rest.turn? bodyWords '{' = none := by simpa [HeaderForm.closes, loopForm] using hcloses
    simp [Layout.after?, hturn]
  · simp [Layout.after?, hclose]

/-- A token that does not close the condition of a loop. -/
lemma shortest_loop_step (h : Fitting prev (.cons gap token rest)) (hgap : ∀ c ∈ gap, isBlank c = true)
    (hplain : token.Plain rest.tokens) (hlast : last.any isSpace = false)
    (hcloses : loopForm.closes token rest = false) :
    shortest loopTail? last (Layout.cons gap token rest).cells
      = (shortest loopTail? (token.cells.getLast?.map Cell.char) rest.cells).map
          fun read => (gap.map Cell.code ++ (token.cells ++ read.1), read.2) := by
  have hfirst := loopTail?_closes h hlast hcloses
  obtain ⟨hfits, hvalid, hrest⟩ := h
  -- white space comes before every later place in the gap and before the token
  have hspaced {front : List Cell} (hne : front ≠ []) (hfront : ∀ cell ∈ front, cell ∈ gap.map Cell.code) :
      ((front.getLast?.map Cell.char).or last).any isSpace = true := by
    have hmem := hfront _ (List.getLast_mem hne)
    obtain ⟨c, hc, heq⟩ := List.mem_map.1 hmem
    rw [List.getLast?_eq_some_getLast hne, ← heq]
    simpa using hfits.isSpace c hc
  have hnone : ∀ front cell back, gap.map Cell.code ++ token.cells = front ++ cell :: back →
      loopTail? ((front.getLast?.map Cell.char).or last) (cell :: (back ++ rest.cells)) = none := by
    intro front cell back hsplit
    by_cases hne : front = []
    · subst hne
      rw [Layout.cells, ← List.append_assoc, hsplit] at hfirst
      exact hfirst
    · obtain ⟨inside, rfl, htoken⟩ | ⟨tail, hfront, -⟩ := List.append_eq_append_iff.1 hsplit
      · by_cases hinside : inside = []
        · subst hinside
          exact loopTail?_of_space (hspaced hne (by simp)) _
        · exact loopTail?_inside hvalid hplain hrest hinside htoken _
      · exact loopTail?_of_space (hspaced hne fun cell hcell => hfront ▸ List.mem_append_left _ hcell) _
  have hfeed : ∀ cell ∈ gap.map Cell.code ++ token.cells, cell.char ≠ '\n' := by
    rintro cell hcell
    rcases List.mem_append.1 hcell with hcell | hcell
    · obtain ⟨c, hc, rfl⟩ := List.mem_map.1 hcell
      rintro rfl
      exact feed_notMem_of_blanks hgap hc
    · exact Token.char_ne_feed hvalid cell hcell
  have hlastChar : (((gap.map Cell.code ++ token.cells).getLast?.map Cell.char).or last)
      = token.cells.getLast?.map Cell.char := by
    rw [List.getLast?_append_of_ne_nil _ (Token.cells_ne_nil hvalid),
      List.getLast?_eq_some_getLast (Token.cells_ne_nil hvalid)]
    rfl
  rw [Layout.cells, ← List.append_assoc, shortest_pass hnone hfeed, hlastChar]
  simp

/-- The last character of a token is no white space. -/
lemma Token.isSpace_lastChar {t : Token} (ht : t.Valid) :
    (t.cells.getLast?.map Cell.char).any isSpace = false := by
  have hlast := List.getLast?_eq_some_getLast (cells_ne_nil ht)
  rw [hlast]
  simpa using isSpace_ends ht (.inr hlast)

/-- The end of a loop behind a plain remark is not found. -/
lemma scan_of_plain_remark (ht : token.Plain rest.tokens) (h : Fitting (some token) rest)
    (hremark : token.isRemark = true) : loopForm.scan rest = none := by
  obtain ⟨body, rfl⟩ := Token.isRemark_iff.1 hremark
  refine HeaderForm.scan_of_remark h hremark fun gap token behind hrest => .inr ?_
  subst hrest
  by_contra hcloses
  obtain ⟨rfl, found, hfound⟩ : token = .mark '}' ∧ ∃ found, behind.turn? bodyWords '{' = some found :=
    HeaderForm.exists_of_closes (by simpa using hcloses)
  obtain ⟨hcons, hbrace, -, hword, -⟩ := h.2.2.of_turn? hfound
  have hends : endsLoop (Layout.cons gap (.mark '}') behind).tokens = true := by
    rw [hcons, hbrace]
    simpa [endsLoop, Layout.tokens] using hword
  simp [ht.2.2] at hends

/-- **The end of a condition in braces.** -/
lemma shortest_loop {s : Layout} (h : Fitting prev s) (hplain : s.Plain) (hlast : last.any isSpace = false) :
    match loopForm.scan s with
    | none => shortest loopTail? last s.cells = none
    | some changes => ∃ inner space rest found, Closes loopForm [' '] s changes inner space rest found
        ∧ shortest loopTail? last s.cells = some (inner, space.map Cell.code, rest.lead.map Cell.code,
            found.1.cells, found.2.1.lead.map Cell.code) := by
  induction s generalizing prev last with
  | last gap =>
      have hnone : loopTail? last (Layout.last gap).cells = none := by
        rw [h.loopTail?_cells hlast]
        rfl
      cases gap with
      | nil =>
          have hshort : shortest loopTail? last [] = none := by
            rw [shortest]
            exact Option.map_eq_none_iff.2 hnone
          exact hshort
      | cons c gap =>
          rw [h.edge (.inr rfl) c List.mem_cons_self] at hnone ⊢
          exact shortest_of_feed hnone
  | cons gap token rest ih =>
      have hcons := h
      obtain ⟨hfits, hvalid, hrest⟩ := h
      obtain ⟨htoken, hplain⟩ : token.Plain rest.tokens ∧ rest.Plain := hplain
      by_cases hcloses : loopForm.closes token rest = true
      · obtain ⟨rfl, found, hfound⟩ : token = .mark '}' ∧ ∃ found, rest.turn? bodyWords '{' = some found :=
          HeaderForm.exists_of_closes hcloses
        have hscan : loopForm.scan (.cons gap (.mark '}') rest)
            = some [some loopForm.edge, some [' '], some [' ']] := by
          have hstrict : loopForm.strict = false := rfl
          simp [HeaderForm.scan, hcloses, hstrict]
        have htail := hcons.loopTail?_cells hlast
        rw [Layout.after?, if_pos rfl, Option.bind_some, hfound] at htail
        rw [hscan]
        exact ⟨[], gap, rest, found, Closes.base hcons hfound _, shortest_of_close htail⟩
      · rcases hfits.blanks_or_feed with hblank | ⟨feeds, rfl⟩
        · have hscan : loopForm.scan (.cons gap token rest) = (loopForm.scan rest).map (none :: ·) :=
            HeaderForm.scan_cons (feed_notMem_of_blanks hblank) hcloses (scan_of_plain_remark htoken hrest)
          have hbehind := ih hrest hplain (Token.isSpace_lastChar hvalid)
          rw [hscan, shortest_loop_step hcons hblank htoken hlast (by simpa using hcloses)]
          cases hscanned : loopForm.scan rest with
          | none =>
              rw [hscanned] at hbehind
              simp [hbehind]
          | some changes =>
              rw [hscanned] at hbehind
              obtain ⟨inner, space, behind, found, hclosed, hfound⟩ := hbehind
              refine ⟨_, space, behind, found, hclosed.step hvalid gap, ?_⟩
              simp [hfound]
        · have hscan : loopForm.scan (.cons ('\n' :: feeds) token rest) = none := by
            simp [HeaderForm.scan, hcloses]
          rw [hscan]
          exact shortest_of_feed (loopTail?_closes hcons hlast (by simpa using hcloses))

/-- An opening brace joins nothing. -/
lemma joins_brace (d : Char) : (Token.mark '{').joins d = false := by
  simp [Token.joins, fuses, operators]

/-- A layout behind an opening brace needs no gap. -/
lemma Fitting.ungapped (h : Fitting (some (.mark '{')) (.cons gap token rest)) :
    Fitting (some (.mark '{')) (.cons [] token rest) := by
  obtain ⟨hfits, hvalid, hrest⟩ := h
  refine ⟨⟨.inl (by simp), ?_, by simp, ?_, by simp [Token.isRemark]⟩, hvalid, hrest⟩
  · intro _ a ha b _ d _
    obtain rfl := Option.some.inj ha
    exact joins_brace d
  · intro hsign
    exact ⟨by simp, (hfits.sign hsign).2⟩

/-- **A condition in braces.**  It stands between spaces unless it is empty. -/
lemma shortest_loopCondition {s : Layout} (h : Fitting (some (.mark '{')) s) (hplain : s.Plain) :
    match loopForm.condition s with
    | none => shortest loopTail? none s.behind = none
    | some changes => ∃ (stretch : List Cell) (space : List Char) (rest : Layout) (found : Token × Layout × Layout),
        shortest loopTail? none s.behind = some (stretch, space.map Cell.code, rest.lead.map Cell.code,
          found.1.cells, found.2.1.lead.map Cell.code)
        ∧ s.behind = stretch ++ (space.map Cell.code ++ .code '}' :: rest.cells)
        ∧ Fitting (some (.mark '}')) rest ∧ rest.turn? bodyWords '{' = some found
        ∧ Follows found.2.2 s changes
        ∧ ∀ more, (s.change (changes ++ more)).cells
          = (if trimCells stretch = [] then [] else .code ' ' :: (trimCells stretch ++ [.code ' ']))
            ++ .code '}' :: .code ' ' :: (found.1.cells ++ .code ' ' :: .code '{'
              :: (found.2.2.change more).cells) := by
  cases s with
  | last gap => rfl
  | cons gap token rest =>
      have hungapped := h.ungapped
      have hcons := h
      obtain ⟨hfits, hvalid, hrest⟩ := h
      obtain ⟨htoken, hplain⟩ : token.Plain rest.tokens ∧ rest.Plain := hplain
      have hbehind : (Layout.cons gap token rest).behind = (Layout.cons [] token rest).cells := rfl
      have hstrict : loopForm.strict = false := rfl
      rw [hbehind]
      by_cases hcloses : loopForm.closes token rest = true
      · obtain ⟨rfl, found, hfound⟩ : token = .mark '}' ∧ ∃ found, rest.turn? bodyWords '{' = some found :=
          HeaderForm.exists_of_closes hcloses
        have hcondition : loopForm.condition (.cons gap (.mark '}') rest)
            = some [some [], some [' '], some [' ']] := by
          simp [HeaderForm.condition, hcloses, hstrict]
        have hbase : Closes loopForm [] (.cons gap (.mark '}') rest) [some [], some [' '], some [' ']] [] gap rest
            found := Closes.base hcons hfound []
        have hstart : (none : Option Char).any isSpace = false := rfl
        have htail := hungapped.loopTail?_cells hstart
        rw [Layout.after?, if_pos rfl, Option.bind_some, hfound] at htail
        rw [hcondition]
        exact ⟨[], [], rest, found, shortest_of_close htail, rfl, hrest, hfound, hbase.follows, hbase.change⟩
      · have hcondition : loopForm.condition (.cons gap token rest)
            = (loopForm.scan rest).map (some loopForm.edge :: ·) :=
          HeaderForm.condition_cons (by simp [hstrict]) hcloses (scan_of_plain_remark htoken hrest)
        have hscan := shortest_loop hrest hplain (Token.isSpace_lastChar hvalid)
        rw [hcondition, shortest_loop_step hungapped (List.forall_mem_nil _) htoken rfl (by simpa using hcloses)]
        cases hscanned : loopForm.scan rest with
        | none =>
            rw [hscanned] at hscan
            simp [hscan]
        | some changes =>
            rw [hscanned] at hscan
            obtain ⟨inner, space, behind, found, hclosed, hfound⟩ := hscan
            have htrim : trimCells ([] ++ ((token.cells ++ inner) ++ [])) = token.cells ++ inner :=
              trimCells_between (by simp [AllSpace]) (by simp [AllSpace]) (Token.isSpace_head hvalid _)
                (hclosed.ends_token hvalid)
            rw [List.nil_append, List.append_nil] at htrim
            refine ⟨token.cells ++ inner, space, behind, found, by rw [hfound]; rfl, ?_, hclosed.fitting,
              hclosed.turn, hclosed.follows.cons _ _ _, fun more => ?_⟩
            · simp [Layout.cells, hclosed.cells, loopForm]
            · rw [htrim, if_neg (by simp [Token.cells_ne_nil hvalid])]
              simp [Layout.change, Layout.cells, hclosed.change, loopForm]

end Loop

lemma loop?_eq (before : Option Char) (cells : List Cell) :
    loop? before cells = if atBoundary before (cells.head?.map Cell.char) then
      (wordMark? ['w', 'h', 'i', 'l', 'e'] '{' cells).bind fun read =>
        (shortest loopTail? none (gap read.2.2).2).map fun found =>
          ⟨read.1, read.2.1, (gap read.2.2).1, found.1, found.2.1, found.2.2.1, found.2.2.2.1, found.2.2.2.2⟩
      else none := by
  unfold loop?
  cases atBoundary before (cells.head?.map Cell.char) with
  | false => rfl
  | true =>
      simp only [guard, if_true, Option.bind_eq_bind, wordMark?]
      cases keyword? ['w', 'h', 'i', 'l', 'e'] cells with
      | none => rfl
      | some read =>
          simp only [Option.pure_def, Option.bind_some]
          cases afterMark? '{' (gap read.2).2 with
          | none => rfl
          | some rest =>
              simp only [Option.bind_some]
              cases shortest loopTail? none (gap rest).2 with
              | none => rfl
              | some found => rfl

lemma loop?_of_wordMark? {before : Option Char} {cells : List Cell}
    (h : wordMark? ['w', 'h', 'i', 'l', 'e'] '{' cells = none) : loop? before cells = none := by
  rw [loop?_eq, h]
  simp

/-- No loop starts where no changes are made. -/
lemma loop?_token {t : Token} (ht : t.Valid) {s : Layout} (hs : Fitting (some t) s) (hplain : s.Plain)
    (hnone : loopForm.changes t s = none) (before : Option Char) :
    loop? before (t.cells ++ s.cells) = none := by
  rw [loop?_eq, wordMark?_token ht hs (by decide : IsKeyword ['w', 'h', 'i', 'l', 'e']) (by decide : IsBracket '{')]
  by_cases hkeyword : t.isKeyword ['w', 'h', 'i', 'l', 'e'] = true
  · cases hafter : s.after? '{' with
    | none => simp
    | some rest =>
        obtain ⟨-, hrest⟩ := hs.of_after? hafter
        have hcondition : loopForm.condition rest = none := by
          simpa [HeaderForm.changes, loopForm, hkeyword, hafter] using hnone
        have hshort := shortest_loopCondition hrest (hs.plain_of_after? hplain hafter)
        rw [hcondition] at hshort
        simp [hkeyword, hrest.gap_cells, hshort]
  · simp [hkeyword]

/-- **The changes that loops make.** -/
lemma changesGaps_loops :
    ChangesGaps loopFinder (fun taken h => inCode taken h.canonical) loopForm.changes where
  space before c rest hc := by
    have hcell : isWordChar (Cell.code c).char = false := by
      rw [char_code]
      exact isWordTest_isWordChar.space hc
    have hread := wordMark?_of_not_word (by decide : IsKeyword ['w', 'h', 'i', 'l', 'e']) '{' hcell rest
    rw [loopFinder, loop?_of_wordMark? hread]
    rfl
  pass {t s} ht hplain hs hs' hfind before hstarts front cell back hsplit := by
    rw [loopFinder, Option.map_eq_none_iff]
    have hread (before : Option Char) (cells : List Cell)
        (h : wordMark? ['w', 'h', 'i', 'l', 'e'] '{' cells = none) : loop? before cells = none :=
      loop?_of_wordMark? h
    have hedge (before : Option Char) (cell : Cell) (rest : List Cell)
        (h : atBoundary before (some cell.char) = false) : loop? before (cell :: rest) = none := by
      rw [loop?_eq]
      simp [h]
    refine none_of_start (by decide : IsKeyword ['w', 'h', 'i', 'l', 'e']) hread hedge ?_
      (fun body hvalid hplain hs cell back hsuffix =>
        wordBrace?_remark hvalid hplain hs (by decide) hsuffix (by simp))
      ht hplain hs (loop?_token ht hs hs' hfind before) front cell back hsplit
    intro quote body hvalid hplain back hback more
    refine wordBrace?_literal hvalid.1 more ?_ (by decide)
    intro cell hcell
    obtain ⟨c, hc, rfl⟩ := List.mem_map.1 hcell
    rintro rfl
    exact hplain.1 (((List.mem_tails _ _).1 hback).subset hc)
  header {t s changes} ht hs hplain hfind before hstarts := by
    obtain ⟨hkeyword, rest, hafter, changes, hcondition, rfl⟩ := HeaderForm.of_changes hfind
    replace hkeyword : t.isKeyword ['w', 'h', 'i', 'l', 'e'] = true := hkeyword
    replace hafter : s.after? '{' = some rest := hafter
    obtain ⟨hs', hrest⟩ := hs.of_after? hafter
    have hshort := shortest_loopCondition hrest (hs.plain_of_after? hplain hafter)
    rw [hcondition] at hshort
    obtain ⟨stretch, space, behind, ⟨word, before', body⟩, hshort, hbehindCells, hbehind, hturn, hfollows,
      hchange⟩ := hshort
    have hbody := hbehind.cells_of_turn? hturn
    have hrestCells : rest.cells = rest.lead.map Cell.code ++ rest.behind := by
      have hgap := gap_append rest.cells
      rwa [hrest.gap_cells] at hgap
    have hlead : s.cells = s.lead.map Cell.code ++ .code '{' :: rest.cells := by
      conv_lhs => rw [hs']
      rfl
    let front := t.cells ++ (s.lead.map Cell.code ++ .code '{' :: (rest.lead.map Cell.code ++ (stretch
      ++ (space.map Cell.code ++ .code '}' :: (behind.lead.map Cell.code ++ (word.cells
        ++ before'.lead.map Cell.code))))))
    have htaken : (front ++ [.code '{']) ++ body.cells = t.cells ++ s.cells := by
      simp [front, hlead, hrestCells, hbehindCells, hbody]
    refine ⟨front ++ [.code '{'], ⟨t.cells, s.lead.map Cell.code, rest.lead.map Cell.code, stretch,
      space.map Cell.code, behind.lead.map Cell.code, word.cells, before'.lead.map Cell.code⟩, body, ?_,
      htaken.symm, List.getLast?_concat, ?_, ?_⟩
    · rw [hs']
      exact hfollows.cons _ _ _
    · have hword := wordMark?_token ht hs (by decide : IsKeyword ['w', 'h', 'i', 'l', 'e'])
        (by decide : IsBracket '{')
      rw [if_pos hkeyword, hafter] at hword
      rw [htaken, loopFinder, loop?_eq,
        hstarts.atBoundary ht (Token.isWord_of_isKeyword hkeyword) s.cells, if_pos rfl, hword]
      simp only [Option.map_some, Option.bind_some, hrest.gap_cells, hshort, Loop.size, front, Option.some.injEq,
        Prod.mk.injEq, List.length_append, List.length_cons, List.length_nil, and_true]
      omega
    · intro more
      have hcells : (s.change ((some [' '] :: changes) ++ more)).cells
          = .code ' ' :: .code '{' :: (rest.change (changes ++ more)).cells := by
        rw [hs']
        rfl
      have hcode := Token.head_code ht (Token.isWord_of_isKeyword hkeyword)
      rw [hcells, hchange, inCode, List.append_assoc, if_pos (hcode _)]
      by_cases htrim : trimCells stretch = []
      · simp [Loop.canonical, codeCells, htrim]
      · obtain ⟨cell, cells, htrim⟩ := List.exists_cons_of_ne_nil htrim
        simp [Loop.canonical, codeCells, htrim]

end SqfLayout
