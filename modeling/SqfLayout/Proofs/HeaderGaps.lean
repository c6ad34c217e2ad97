import SqfLayout.Proofs.HiddenHeaders

/-!
# Headers as changes of gaps

**Changes.**  `Layout.change` puts new gaps in the place of some, and `Layout.changes` collects those that
headers make from left to right: no header starts inside another.

**Passes.**  `ChangesGaps` says when a pass makes such changes: it finds nothing at white space and inside
tokens, and what it finds at the first token of a header has the new gaps.  Such a pass on the text of a
layout is `Layout.change` (`ChangesGaps.chars_replaceFound`).  Alternatives are the first example
(`changesGaps_alternatives`).
-/

namespace SqfLayout

open SqfLayout.Text SqfLayout.Scan SqfLayout.Pass

/-! ## Changes -/

/-- New forms for the gaps of a layout in a row; a gap without one stays as it is. -/
abbrev Changes := List (Option (List Char))

namespace Layout

/-- **A layout with some of its gaps changed.** -/
def change : Changes → Layout → Layout
  | [], s => s
  | _ :: _, last gap => last gap
  | new :: changes, cons gap token rest => cons (new.getD gap) token (rest.change changes)

/-- **The changes that headers make to a layout**, from left to right.  `find` gives the changes that a
header with the given first token makes to the gaps behind it.  The first argument holds those that the
header before still makes: no other header starts inside. -/
def changes (find : Token → Layout → Option Changes) : Changes → Layout → Changes
  | _, last _ => []
  | [], cons _ token rest => none :: rest.changes find ((find token rest).getD [])
  | new :: pending, cons _ _ rest => new :: rest.changes find pending

end Layout

/-- **What follows a header.**  The changes of the header end with the brace before it. -/
structure Follows (body s : Layout) (changes : Changes) : Prop where
  fitting : Fitting (some (.mark '{')) body
  suffix : body.tokens <:+ s.tokens
  shorter : body.tokens.length < s.tokens.length
  changes_eq : ∀ find, s.changes find changes = changes ++ body.changes find []

lemma Follows.brace {body : Layout} (h : Fitting (some (.mark '{')) body) (gap : List Char)
    (new : Option (List Char)) : Follows body (.cons gap (.mark '{') body) [new] where
  fitting := h
  suffix := List.suffix_cons _ _
  shorter := Nat.lt_succ_self _
  changes_eq _ := rfl

lemma Follows.cons {body s : Layout} {changes : Changes} (h : Follows body s changes) (gap : List Char)
    (token : Token) (new : Option (List Char)) : Follows body (.cons gap token s) (new :: changes) where
  fitting := h.fitting
  suffix := h.suffix.trans (List.suffix_cons _ _)
  shorter := h.shorter.trans (Nat.lt_succ_self _)
  changes_eq find := congrArg (new :: ·) (h.changes_eq find)

/-- Where nothing is found at white space, it is passed. -/
lemma Replaces.gap {α : Type} {finder : Finder α} {replace : List Cell → α → List Cell}
    (hspace : ∀ before c rest, isSpace c = true → finder before (.code c :: rest) = none) {gap : List Char}
    (hgap : ∀ c ∈ gap, isSpace c = true) {before : Option Char} {rest out : List Cell}
    (hrest : Replaces finder replace (((gap.map Cell.code).getLast?.map Cell.char).or before) rest out) :
    Replaces finder replace before (gap.map Cell.code ++ rest) (gap.map Cell.code ++ out) := by
  refine .pass (fun front cell back hsplit => ?_) hrest
  have hmem : cell ∈ gap.map Cell.code := by simp [hsplit]
  obtain ⟨c, hc, rfl⟩ := List.mem_map.1 hmem
  exact hspace _ c _ (hgap c hc)

/-- A place where a token may start: no word goes on there. -/
def Starts (before : Option Char) (t : Token) : Prop := t.isWord = true → before.any isWordChar = false

/-- **A pass that changes gaps.**  It passes white space and every token with which no header starts,
and a header takes the form that its changes give. -/
structure ChangesGaps {α : Type} (finder : Finder α) (replace : List Cell → α → List Cell)
    (find : Token → Layout → Option Changes) : Prop where
  space : ∀ before c rest, isSpace c = true → finder before (.code c :: rest) = none
  pass : ∀ {t s}, t.Valid → t.Plain s.tokens → Fitting (some t) s → s.Plain → find t s = none →
    ∀ {before}, Starts before t → ∀ front cell back, t.cells = front ++ cell :: back →
      finder ((front.getLast?.map Cell.char).or before) (cell :: (back ++ s.cells)) = none
  header : ∀ {t s changes}, t.Valid → Fitting (some t) s → s.Plain → find t s = some changes →
    ∀ {before}, Starts before t →
    ∃ taken what body, Follows body s changes ∧ t.cells ++ s.cells = taken ++ body.cells
      ∧ taken.getLast? = some (.code '{') ∧ finder before (taken ++ body.cells) = some (taken.length, what)
      ∧ ∀ more, t.cells ++ (s.change (changes ++ more)).cells = replace taken what ++ (body.change more).cells

section ChangesGaps

variable {α : Type} {finder : Finder α} {replace : List Cell → α → List Cell}
  {find : Token → Layout → Option Changes}

/-- Whether a layout may start at a place. -/
def Enters (before : Option Char) (s : Layout) : Prop :=
  ∀ token rest, s = .cons [] token rest → Starts before token

/-- A layout may start at the start of a text. -/
lemma enters_none (s : Layout) : Enters none s := by
  intro token rest _ _
  rfl

/-- The first token may start behind the first gap. -/
lemma Enters.starts {before : Option Char} {gap : List Char} {token : Token} {rest : Layout}
    (h : Enters before (.cons gap token rest)) (hgap : ∀ c ∈ gap, isSpace c = true) :
    Starts (((gap.map Cell.code).getLast?.map Cell.char).or before) token := by
  by_cases hnil : gap = []
  · subst hnil
    exact h token rest rfl
  · intro _
    have hlast := List.getLast?_eq_some_getLast hnil
    rw [List.getLast?_map, hlast]
    simpa using isWordTest_isWordChar.space (hgap _ (List.getLast_mem hnil))

/-- A layout may start behind a token that it fits. -/
lemma Fitting.enters {t : Token} (ht : t.Valid) {s : Layout} (h : Fitting (some t) s) (before : Option Char) :
    Enters ((t.cells.getLast?.map Cell.char).or before) s := by
  rintro token rest rfl hword
  obtain ⟨hfits, hvalid, -⟩ := h
  obtain ⟨text, rfl⟩ := Token.exists_word hword
  obtain ⟨c, text, rfl⟩ := List.exists_cons_of_ne_nil hvalid.1
  have hjoins : t.joins c = false := hfits.apart rfl t rfl _ rfl c rfl
  have hnot : t.isWord = false := by
    by_contra htrue
    obtain ⟨text', rfl⟩ := Token.exists_word (by simpa using htrue)
    have hchar : isWordChar c = false := hjoins
    simp [hvalid.2 c List.mem_cons_self] at hchar
  have hremark := hfits.no_remark (by simp) (by simp) t rfl
  have hlast := List.getLast?_eq_some_getLast (Token.cells_ne_nil ht)
  rw [hlast]
  simpa using Token.isWordChar_ends ht hnot (.inr ⟨hremark, hlast⟩)

/-- **A pass that changes gaps on a layout.** -/
lemma ChangesGaps.replaces (h : ChangesGaps finder replace find) {prev : Option Token} {s : Layout}
    (hs : Fitting prev s) (hplain : s.Plain) {before : Option Char} (hbefore : Enters before s) :
    Replaces finder replace before s.cells (s.change (s.changes find [])).cells := by
  induction hn : s.tokens.length using Nat.strong_induction_on generalizing s prev before with
  | _ n ih =>
      subst hn
      cases s with
      | last gap =>
          have hgap : Replaces finder replace before (gap.map Cell.code ++ []) (gap.map Cell.code ++ []) :=
            Replaces.gap h.space hs.isSpace .nil
          simpa [Layout.changes, Layout.change, Layout.cells] using hgap
      | cons gap token rest =>
          obtain ⟨hfits, hvalid, hrest⟩ := hs
          obtain ⟨htoken, hplain⟩ : token.Plain rest.tokens ∧ rest.Plain := hplain
          have hstarts := hbefore.starts hfits.isSpace
          refine Replaces.gap h.space hfits.isSpace ?_
          cases hfind : find token rest with
          | none =>
              rw [Option.getD_none]
              exact .pass (h.pass hvalid htoken hrest hplain hfind hstarts)
                (ih rest.tokens.length (Nat.lt_succ_self _) hrest hplain (hrest.enters hvalid _) rfl)
          | some changes =>
              obtain ⟨taken, what, body, hfollows, hcells, hlast, hfound, hchange⟩ :=
                h.header hvalid hrest hplain hfind hstarts
              have hbody : Replaces finder replace (taken.getLast?.map Cell.char) body.cells
                  (body.change (body.changes find [])).cells := by
                refine ih body.tokens.length (hfollows.shorter.trans (Nat.lt_succ_self _)) hfollows.fitting
                  (hplain.of_suffix hfollows.suffix) ?_ rfl
                rw [hlast]
                intro token rest _ _
                decide
              have htaken : taken ≠ [] := by
                rintro rfl
                simp at hlast
              rw [Option.getD_some, hfollows.changes_eq, hchange, hcells]
              exact .found hfound htaken hbody

/-- **A pass that changes gaps gives the text of the layout with its gaps changed.** -/
lemma ChangesGaps.chars_replaceFound (h : ChangesGaps finder replace find) {s : Layout}
    (hs : Fitting none s) (hplain : s.Plain) :
    chars (replaceFound finder replace (label s.text)) = (s.change (s.changes find [])).text := by
  rw [hs.label_text, (h.replaces hs hplain (enters_none s)).replaceFound_eq]
  rfl

end ChangesGaps

/-! ## Alternatives -/

/-- The changes of an alternative. -/
def alternativeChanges (t : Token) (s : Layout) : Option Changes :=
  if t = .mark '}' then (s.turn? otherWords '{').map fun _ => [some [' '], some [' ']] else none

lemma char_ne_of_mem_token {t : Token} (ht : t.Valid) {c : Char} (hc : IsBracket c)
    (hliteral : ∀ quote body, t ≠ .literal quote body) (hremark : ∀ body, t ≠ .remark body)
    (hmark : t ≠ .mark c) : ∀ cell ∈ t.cells, cell.char ≠ c := by
  intro cell hcell hchar
  rcases Token.code_or_quoted ht with hcode | ⟨quote, body, rfl⟩ | ⟨body, rfl⟩
  · have hnot := isCode_of_mem_token ht hc.2.1 hmark cell hcell
    simp [Cell.isCode, (hcode cell hcell).1, hchar] at hnot
  · exact hliteral quote body rfl
  · exact hremark body rfl

/-- **Nothing is found at the cells of a token**, if it is no mark and nothing is found within literals and
remarks. -/
lemma none_of_token {α : Type} {find : List Cell → Option α} {c : Char} (hc : IsBracket c)
    (hmark : ∀ cell rest, cell.char ≠ c → find (cell :: rest) = none)
    (hliteral : ∀ quote lits more, (quote = '\'' ∨ quote = '"') → (∀ cell ∈ lits, cell.char ≠ '{') →
      find (lits ++ ⟨quote, .literal⟩ :: more) = none)
    {s : Layout}
    (hremark : ∀ body, (Token.remark body).Valid → (Token.remark body).Plain s.tokens →
      Fitting (some (.remark body)) s → ∀ cell back, cell :: back <:+ (Token.remark body).cells →
        find (cell :: (back ++ s.cells)) = none)
    {t : Token} (ht : t.Valid) (hplain : t.Plain s.tokens) (hs : Fitting (some t) s) (hne : t ≠ .mark c)
    {front back : List Cell} {cell : Cell} (hsplit : t.cells = front ++ cell :: back) :
    find (cell :: (back ++ s.cells)) = none := by
  by_cases hbody : ∃ body, t = .remark body
  · obtain ⟨body, rfl⟩ := hbody
    exact hremark body ht hplain hs cell back ⟨front, hsplit.symm⟩
  by_cases hlit : ∃ quote body, t = .literal quote body
  · obtain ⟨quote, body, rfl⟩ := hlit
    obtain ⟨lits, hback, hlits⟩ := literal_split hsplit
    have hcells : cell :: (back ++ s.cells) = lits ++ ⟨quote, .literal⟩ :: s.cells := by
      rw [← List.cons_append, hback, List.append_assoc, List.singleton_append]
    rw [hcells]
    exact hliteral quote lits s.cells ht.1 (char_ne_brace ht hplain hlits)
  · exact hmark cell _ (char_ne_of_mem_token ht hc (fun quote body heq => hlit ⟨quote, body, heq⟩)
      (fun body heq => hbody ⟨body, heq⟩) hne cell (by simp [hsplit]))

lemma mark_split {c : Char} {front back : List Cell} {cell : Cell}
    (h : (Token.mark c).cells = front ++ cell :: back) : front = [] ∧ cell = .code c ∧ back = [] := by
  cases front with
  | nil =>
      obtain ⟨rfl, rfl⟩ := List.cons.inj h
      exact ⟨rfl, rfl, rfl⟩
  | cons first front =>
      obtain ⟨-, hnil⟩ := List.cons.inj h
      simp at hnil

lemma alternative?_of_ne (cell : Cell) (rest : List Cell) (h : cell.char ≠ '}') :
    alternative? (cell :: rest) = none := by
  simp [alternative?, afterMark?, h]

/-- What a word and a brace are made of. -/
lemma Fitting.of_turn? {prev : Option Token} {s : Layout} (h : Fitting prev s) {words : List (List Char)}
    {c : Char} {t : Token} {rest body : Layout} (hturn : s.turn? words c = some (t, rest, body)) :
    s = .cons s.lead t rest ∧ rest = .cons rest.lead (.mark c) body ∧ t.Valid
      ∧ words.any t.isKeyword = true ∧ Fitting (some (.mark c)) body := by
  cases s with
  | last gap => simp [Layout.turn?] at hturn
  | cons gap token behind =>
      obtain ⟨-, hvalid, hbehind⟩ := h
      simp only [Layout.turn?, Option.ite_none_right_eq_some, Option.map_eq_some_iff, Prod.mk.injEq] at hturn
      obtain ⟨hword, after, hafter, rfl, rfl, rfl⟩ := hturn
      obtain ⟨hcons, hbody⟩ := hbehind.of_after? hafter
      exact ⟨rfl, hcons, hvalid, hword, hbody⟩

lemma Fitting.cells_of_turn? {prev : Option Token} {s : Layout} (h : Fitting prev s)
    {words : List (List Char)} {c : Char} {t : Token} {rest body : Layout}
    (hturn : s.turn? words c = some (t, rest, body)) :
    s.cells = s.lead.map Cell.code ++ (t.cells ++ (rest.lead.map Cell.code ++ .code c :: body.cells)) := by
  obtain ⟨hs, hrest, -⟩ := h.of_turn? hturn
  conv_lhs => rw [hs, hrest]
  rfl

/-- **The changes that alternatives make.** -/
lemma changesGaps_alternatives :
    ChangesGaps alternativeFinder (fun taken h => inCode taken h.canonical) alternativeChanges where
  space before c rest hc := by
    have hne : (Cell.code c).char ≠ '}' := by
      rintro rfl
      exact absurd hc (by decide)
    rw [alternativeFinder, alternative?_of_ne _ _ hne]
    rfl
  pass {t s} ht hplain hs _ hfind before _ front cell back hsplit := by
    rw [alternativeFinder, Option.map_eq_none_iff]
    by_cases hclose : t = .mark '}'
    · subst hclose
      obtain ⟨rfl, rfl, rfl⟩ := mark_split hsplit
      have hturn : s.turn? otherWords '{' = none := by simpa [alternativeChanges] using hfind
      rw [List.nil_append, hs.alternative?_cells, hturn]
      rfl
    · exact none_of_token (by decide) alternative?_of_ne
        (fun quote lits more hquote => alternative?_literal hquote more)
        (fun body hvalid hplain hs cell back => alternative?_remark hvalid hplain hs) ht hplain hs hclose hsplit
  header {t s changes} ht hs hplain hfind before _ := by
    obtain ⟨rfl, ⟨word, rest, body⟩, hturn, rfl⟩ : t = .mark '}' ∧ ∃ found, s.turn? otherWords '{' = some found
        ∧ [some [' '], some [' ']] = changes := by
      simpa [alternativeChanges] using hfind
    obtain ⟨hs', hrest, -, -, hbody⟩ := hs.of_turn? hturn
    have hfollows : Follows body (.cons s.lead word (.cons rest.lead (.mark '{') body))
        [some [' '], some [' ']] := (Follows.brace hbody _ _).cons _ _ _
    have hcells := hs.cells_of_turn? hturn
    refine ⟨(.code '}' :: (s.lead.map Cell.code ++ (word.cells ++ rest.lead.map Cell.code))) ++ [.code '{'],
      ⟨s.lead.map Cell.code, word.cells, rest.lead.map Cell.code⟩, body, ?_, ?_, ?_, ?_, ?_⟩
    · rw [hs', hrest]
      exact hfollows
    · simp [hcells, Token.cells]
    · exact List.getLast?_concat
    · have htaken : ((.code '}' :: (s.lead.map Cell.code ++ (word.cells ++ rest.lead.map Cell.code)))
          ++ [.code '{']) ++ body.cells = .code '}' :: s.cells := by simp [hcells]
      rw [htaken, alternativeFinder, hs.alternative?_cells, hturn]
      simp only [Option.map_some, Option.some.injEq, Prod.mk.injEq, Alternative.size, List.length_cons,
        List.length_append, List.length_nil, and_true]
      omega
    · intro more
      have hchange : s.change ([some [' '], some [' ']] ++ more)
          = .cons [' '] word (.cons [' '] (.mark '{') (body.change more)) := by
        conv_lhs => rw [hs', hrest]
        rfl
      rw [hchange]
      simp [Layout.cells, Token.cells, inCode, Alternative.canonical, codeCells]

end SqfLayout
