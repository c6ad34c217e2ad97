import Mathlib.Data.List.DropRight
import Mathlib.Data.List.Infix
import SqfLayout.Proofs.HeaderGaps

/-!
# Conditionals as changes of gaps

**Forms.**  `HeaderForm` is what conditionals and loops have in common: a word, a condition between two
marks, a second word and a brace.  `HeaderForm.changes` says what a header of that form makes of the gaps
between its tokens, and where it is none.

**Conditions.**  The search for the end of a condition goes through cells, `HeaderForm.scan` through
tokens; both come to the same end (`shortest_conditional`, `shortest_condition`).

**Conditionals.**  A header can start only with a token (`none_of_start`), so the pass over conditionals
changes gaps as its form says (`changesGaps_conditionals`).
-/

namespace SqfLayout

open SqfLayout.Text SqfLayout.Scan SqfLayout.Pass

/-! ## Forms -/

/-- **A header with a condition**: a word, a condition between two marks, another word and a brace. -/
structure HeaderForm where
  keyword : List Char
  opening : Char
  closing : Char
  words : List (List Char)
  /-- What stands between the marks and a condition that is not empty. -/
  edge : List Char
  /-- Whether the white space beside the marks must lie within the line, as that inside the condition. -/
  strict : Bool

/-- `if (condition) then {`. -/
def conditionalForm : HeaderForm := ⟨['i', 'f'], '(', ')', branchWords, [], true⟩

/-- `while { condition } do {`. -/
def loopForm : HeaderForm := ⟨['w', 'h', 'i', 'l', 'e'], '{', '}', bodyWords, [' '], false⟩

namespace HeaderForm

variable (form : HeaderForm)

/-- Whether a condition ends with a token. -/
def closes (t : Token) (s : Layout) : Bool := t == .mark form.closing && (s.turn? form.words '{').isSome

/-- The changes that a header makes from within its condition on.  A condition does not go on behind a
remark. -/
def scan : Layout → Option Changes
  | .last _ => none
  | .cons gap token rest =>
    if form.strict ∧ '\n' ∈ gap then none
    else if form.closes token rest then some [some form.edge, some [' '], some [' ']]
    else if '\n' ∈ gap ∨ token.isRemark = true then none
    else (scan rest).map (none :: ·)

/-- The changes that a header makes from the start of its condition on. -/
def condition : Layout → Option Changes
  | .last _ => none
  | .cons gap token rest =>
    if form.strict ∧ '\n' ∈ gap then none
    else if form.closes token rest then some [some [], some [' '], some [' ']]
    else if token.isRemark = true then none
    else (form.scan rest).map (some form.edge :: ·)

/-- **The changes of a header.** -/
def changes (t : Token) (s : Layout) : Option Changes :=
  if t.isKeyword form.keyword then
    (s.after? form.opening).bind fun rest => (form.condition rest).map (some [' '] :: ·)
  else none

variable {form}

/-- A token that closes a condition is the closing mark, with a word and a brace behind it. -/
lemma exists_of_closes {t : Token} {s : Layout} (h : form.closes t s = true) :
    t = .mark form.closing ∧ ∃ found, s.turn? form.words '{' = some found := by
  rw [HeaderForm.closes, Bool.and_eq_true, beq_iff_eq] at h
  exact ⟨h.1, Option.isSome_iff_exists.1 h.2⟩

/-- A condition goes on behind a token that does not close it; behind a remark nothing is found anyway. -/
lemma scan_cons {gap : List Char} {token : Token} {rest : Layout} (hfeed : '\n' ∉ gap)
    (hcloses : ¬ form.closes token rest = true) (hremark : token.isRemark = true → form.scan rest = none) :
    form.scan (.cons gap token rest) = (form.scan rest).map (none :: ·) := by
  cases hon : token.isRemark with
  | true => simp [HeaderForm.scan, hfeed, hcloses, hon, hremark hon]
  | false => simp [HeaderForm.scan, hfeed, hcloses, hon]

lemma condition_cons {gap : List Char} {token : Token} {rest : Layout} (hfeed : form.strict = true → '\n' ∉ gap)
    (hcloses : ¬ form.closes token rest = true) (hremark : token.isRemark = true → form.scan rest = none) :
    form.condition (.cons gap token rest) = (form.scan rest).map (some form.edge :: ·) := by
  have hstrict : ¬ (form.strict = true ∧ '\n' ∈ gap) := fun h => hfeed h.1 h.2
  cases hon : token.isRemark with
  | true => simp [HeaderForm.condition, hstrict, hcloses, hon, hremark hon]
  | false => simp [HeaderForm.condition, hstrict, hcloses, hon]

/-- A line feed ends a condition, unless the closing mark follows. -/
lemma scan_of_remark {t : Token} {s : Layout} (h : Fitting (some t) s) (hremark : t.isRemark = true)
    (hcloses : ∀ gap token rest, s = .cons gap token rest → form.strict = true ∨ form.closes token rest = false) :
    form.scan s = none := by
  cases s with
  | last gap => rfl
  | cons gap token rest =>
      have hfeed := h.1.ends (by simp) t rfl hremark
      rcases hcloses gap token rest rfl with hstrict | hnot
      · simp [HeaderForm.scan, hstrict, hfeed]
      · simp [HeaderForm.scan, hnot, hfeed]

/-- What a header consists of. -/
lemma of_changes {t : Token} {s : Layout} {changes : Changes} (h : form.changes t s = some changes) :
    t.isKeyword form.keyword = true ∧ ∃ rest, s.after? form.opening = some rest
      ∧ ∃ inner, form.condition rest = some inner ∧ changes = some [' '] :: inner := by
  rw [HeaderForm.changes, Option.ite_none_right_eq_some] at h
  obtain ⟨hkeyword, hrest⟩ := h
  obtain ⟨rest, hafter, hcondition⟩ := Option.bind_eq_some_iff.1 hrest
  obtain ⟨inner, hinner, rfl⟩ := Option.map_eq_some_iff.1 hcondition
  exact ⟨hkeyword, rest, hafter, inner, hinner, rfl⟩

end HeaderForm

/-! ## Stretches -/

lemma shortest_pass {α : Type} {close : Option Char → List Cell → Option α} {last : Option Char}
    {block rest : List Cell}
    (hnone : ∀ front cell back, block = front ++ cell :: back →
      close ((front.getLast?.map Cell.char).or last) (cell :: (back ++ rest)) = none)
    (hfeed : ∀ cell ∈ block, cell.char ≠ '\n') :
    shortest close last (block ++ rest)
      = (shortest close ((block.getLast?.map Cell.char).or last) rest).map
          fun read => (block ++ read.1, read.2) := by
  induction block generalizing last with
  | nil => simp
  | cons cell block ih =>
      obtain ⟨hcell, hblock⟩ := List.forall_mem_cons.1 hfeed
      have hfirst : close last (cell :: (block ++ rest)) = none := hnone [] cell block rfl
      have hrest : ∀ front next back, block = front ++ next :: back →
          close ((front.getLast?.map Cell.char).or (some cell.char)) (next :: (back ++ rest)) = none := by
        intro front next back hsplit
        rw [← lastChar_cons cell front last]
        exact hnone (cell :: front) next back (by rw [hsplit, List.cons_append])
      rw [List.cons_append, shortest, hfirst, lastChar_cons]
      simp [hcell, ih hrest hblock, Function.comp_def]

/-! ## The cells of a header -/

/-- **A condition that is followed to its end**: the cells up to its last token, the white space and the
closing mark behind it, and what follows. -/
structure Closes (form : HeaderForm) (edge : List Char) (s : Layout) (changes : Changes)
    (inner : List Cell) (space : List Char) (rest : Layout) (found : Token × Layout × Layout) : Prop where
  cells : s.cells = inner ++ (space.map Cell.code ++ .code form.closing :: rest.cells)
  ends : ∀ cell ∈ inner.getLast?, isSpace cell.char = false
  blank : ∀ c ∈ space, isSpace c = true
  fitting : Fitting (some (.mark form.closing)) rest
  turn : rest.turn? form.words '{' = some found
  follows : Follows found.2.2 s changes
  change : ∀ more, (s.change (changes ++ more)).cells = inner ++ (edge.map Cell.code
    ++ .code form.closing :: .code ' ' :: (found.1.cells ++ .code ' ' :: .code '{' :: (found.2.2.change more).cells))

/-- The end of a condition. -/
lemma Closes.base {form : HeaderForm} {prev : Option Token} {gap : List Char} {rest : Layout}
    (h : Fitting prev (.cons gap (.mark form.closing) rest)) {found : Token × Layout × Layout}
    (hturn : rest.turn? form.words '{' = some found) (edge : List Char) :
    Closes form edge (.cons gap (.mark form.closing) rest) [some edge, some [' '], some [' ']] [] gap rest
      found := by
  obtain ⟨hfits, -, hrest⟩ := h
  obtain ⟨word, behind, body⟩ := found
  obtain ⟨hcons, hbehind, -, -, hbody⟩ := hrest.of_turn? hturn
  refine ⟨by simp [Layout.cells, Token.cells], by simp, hfits.isSpace, hrest, hturn, ?_, ?_⟩
  · rw [hcons, hbehind]
    exact ((Follows.brace hbody _ _).cons _ _ _).cons _ _ _
  · intro more
    rw [hcons, hbehind]
    simp [Layout.change, Layout.cells, Token.cells]

/-- A condition ends with its last token. -/
lemma Closes.ends_token {form : HeaderForm} {edge : List Char} {s : Layout} {changes : Changes} {inner : List Cell}
    {space : List Char} {rest : Layout} {found : Token × Layout × Layout}
    (h : Closes form edge s changes inner space rest found) {t : Token} (ht : t.Valid) :
    ∀ cell ∈ (t.cells ++ inner).getLast?, isSpace cell.char = false := by
  intro cell hcell
  rw [List.getLast?_append] at hcell
  cases hinner : inner.getLast? with
  | some last =>
      rw [hinner] at hcell
      obtain rfl : last = cell := by simpa using hcell
      exact h.ends last hinner
  | none =>
      rw [hinner] at hcell
      exact Token.isSpace_ends ht (.inr hcell)

/-- One more token before it. -/
lemma Closes.step {form : HeaderForm} {edge : List Char} {s : Layout} {changes : Changes}
    {inner : List Cell} {space : List Char} {rest : Layout} {found : Token × Layout × Layout}
    (h : Closes form edge s changes inner space rest found) {t : Token} (ht : t.Valid) (gap : List Char) :
    Closes form edge (.cons gap t s) (none :: changes) (gap.map Cell.code ++ (t.cells ++ inner)) space rest
      found := by
  refine ⟨by simp [Layout.cells, h.cells], ?_, h.blank, h.fitting, h.turn, h.follows.cons _ _ _, ?_⟩
  · rw [List.getLast?_append_of_ne_nil _ (by simp [Token.cells_ne_nil ht])]
    exact h.ends_token ht
  · intro more
    simp [Layout.change, Layout.cells, h.change]

/-- The part between white space is what is left of it. -/
lemma trimCells_between {front mid back : List Cell} (hfront : AllSpace front) (hback : AllSpace back)
    (hhead : ∀ cell ∈ mid.head?, isSpace cell.char = false)
    (hlast : ∀ cell ∈ mid.getLast?, isSpace cell.char = false) :
    trimCells (front ++ (mid ++ back)) = mid :=
  dropEnds_between hfront hback hhead hlast

/-! ## Conditionals -/

lemma conditionalTail?_of_ne (cell : Cell) (rest : List Cell) (h : cell.char ≠ ')') :
    conditionalTail? (cell :: rest) = none := by
  simp [conditionalTail?, afterMark?, h]

/-- A condition does not end at a token that does not close it. -/
lemma conditionalTail?_token {t : Token} (ht : t.Valid) {s : Layout} (hplain : t.Plain s.tokens)
    (h : Fitting (some t) s) (hcloses : conditionalForm.closes t s = false) {front back : List Cell} {cell : Cell}
    (hsplit : t.cells = front ++ cell :: back) : conditionalTail? (cell :: (back ++ s.cells)) = none := by
  by_cases hclose : t = .mark ')'
  · subst hclose
    obtain ⟨rfl, rfl, rfl⟩ := mark_split hsplit
    have hturn : s.turn? branchWords '{' = none := by
      simpa [HeaderForm.closes, conditionalForm] using hcloses
    rw [List.nil_append, h.conditionalTail?_cells, hturn]
    rfl
  · exact none_of_token (by decide) conditionalTail?_of_ne
      (fun quote lits more hquote => conditionalTail?_literal hquote more)
      (fun body hvalid hplain hs cell back => conditionalTail?_remark hvalid hplain hs) ht hplain h hclose hsplit

/-- The last character does not matter to what does not look at it. -/
lemma shortest_const {α : Type} (close : List Cell → Option α) (last : Option Char) (cells : List Cell) :
    shortest (fun _ => close) last cells = shortest (fun _ => close) none cells := by
  cases cells with
  | nil => rfl
  | cons cell cells => rfl

section Conditional

variable {prev : Option Token} {gap : List Char} {token : Token} {rest : Layout}

/-- Blanks are no part of the end of a condition. -/
lemma shortest_blanks (hgap : ∀ c ∈ gap, isBlank c = true) (cells : List Cell) :
    shortest (fun _ => conditionalTail?) none (gap.map Cell.code ++ cells)
      = (shortest (fun _ => conditionalTail?) none cells).map
          fun read => (gap.map Cell.code ++ read.1, read.2) := by
  have hne {c : Char} (hc : isBlank c = false) : ∀ cell ∈ gap.map Cell.code, cell.char ≠ c := by
    rintro cell hcell rfl
    obtain ⟨d, hd, rfl⟩ := List.mem_map.1 hcell
    simp [hgap d hd] at hc
  have hpass : ∀ front cell back, gap.map Cell.code = front ++ cell :: back →
      conditionalTail? (cell :: (back ++ cells)) = none := fun front cell back hsplit =>
    conditionalTail?_of_ne cell _ (hne (by decide) cell (by simp [hsplit]))
  rw [shortest_pass hpass (hne (by decide)), shortest_const]

/-- A condition that a parenthesis closes. -/
lemma shortest_conditional_close (hgap : ∀ c ∈ gap, isBlank c = true)
    (hrest : Fitting (some (.mark ')')) rest) {found : Token × Layout × Layout}
    (hturn : rest.turn? branchWords '{' = some found) :
    shortest (fun _ => conditionalTail?) none (Layout.cons gap (.mark ')') rest).cells
      = some (gap.map Cell.code, rest.lead.map Cell.code, found.1.cells, found.2.1.lead.map Cell.code) := by
  have htail := hrest.conditionalTail?_cells
  have hcells : (Token.mark ')').cells ++ rest.cells = .code ')' :: rest.cells := rfl
  rw [Layout.cells, shortest_blanks hgap, hcells, shortest, htail, hturn]
  simp

/-- A token that does not close a condition. -/
lemma shortest_conditional_step (hgap : ∀ c ∈ gap, isBlank c = true) (ht : token.Valid)
    (hplain : token.Plain rest.tokens) (hrest : Fitting (some token) rest)
    (hcloses : conditionalForm.closes token rest = false) :
    shortest (fun _ => conditionalTail?) none (Layout.cons gap token rest).cells
      = (shortest (fun _ => conditionalTail?) none rest.cells).map
          fun read => (gap.map Cell.code ++ (token.cells ++ read.1), read.2) := by
  have hpass : ∀ front cell back, token.cells = front ++ cell :: back →
      conditionalTail? (cell :: (back ++ rest.cells)) = none :=
    fun front cell back => conditionalTail?_token ht hplain hrest hcloses
  rw [Layout.cells, shortest_blanks hgap, shortest_pass hpass (Token.char_ne_feed ht), shortest_const,
    Option.map_map]
  rfl

/-- **The end of a condition in parentheses.** -/
lemma shortest_conditional {s : Layout} (h : Fitting prev s) (hplain : s.Plain) :
    match conditionalForm.scan s with
    | none => shortest (fun _ => conditionalTail?) none s.cells = none
    | some changes => ∃ inner space rest found, Closes conditionalForm [] s changes inner space rest found
        ∧ shortest (fun _ => conditionalTail?) none s.cells = some (inner ++ space.map Cell.code,
            rest.lead.map Cell.code, found.1.cells, found.2.1.lead.map Cell.code) := by
  induction s generalizing prev with
  | last gap =>
      cases gap with
      | nil => rfl
      | cons c gap =>
          rw [h.edge (.inr rfl) c List.mem_cons_self]
          rfl
  | cons gap token rest ih =>
      have hcons := h
      obtain ⟨hfits, hvalid, hrest⟩ := h
      obtain ⟨htoken, hplain⟩ : token.Plain rest.tokens ∧ rest.Plain := hplain
      rcases hfits.blanks_or_feed with hblank | ⟨feeds, rfl⟩
      · have hfeed := feed_notMem_of_blanks hblank
        by_cases hcloses : conditionalForm.closes token rest = true
        · obtain ⟨rfl, found, hfound⟩ : token = .mark ')' ∧ ∃ found, rest.turn? branchWords '{' = some found :=
            HeaderForm.exists_of_closes hcloses
          have hscan : conditionalForm.scan (.cons gap (.mark ')') rest)
              = some [some conditionalForm.edge, some [' '], some [' ']] := by
            simp [HeaderForm.scan, hfeed, hcloses]
          rw [hscan]
          exact ⟨[], gap, rest, found, Closes.base hcons hfound _, shortest_conditional_close hblank hrest hfound⟩
        · have hscan : conditionalForm.scan (.cons gap token rest)
              = (conditionalForm.scan rest).map (none :: ·) :=
            HeaderForm.scan_cons hfeed hcloses fun hremark =>
              HeaderForm.scan_of_remark hrest hremark fun _ _ _ _ => .inl rfl
          have hbehind := ih hrest hplain
          rw [hscan, shortest_conditional_step hblank hvalid htoken hrest (by simpa using hcloses)]
          cases hscanned : conditionalForm.scan rest with
          | none =>
              rw [hscanned] at hbehind
              simp [hbehind]
          | some changes =>
              rw [hscanned] at hbehind
              obtain ⟨inner, space, behind, found, hclosed, hfound⟩ := hbehind
              refine ⟨_, space, behind, found, hclosed.step hvalid gap, ?_⟩
              simp [hfound]
      · have hscan : conditionalForm.scan (.cons ('\n' :: feeds) token rest) = none := by
          simp [HeaderForm.scan, conditionalForm]
        rw [hscan]
        rfl

/-- **A condition in parentheses.**  It loses the white space at its ends. -/
lemma shortest_condition {s : Layout} (h : Fitting prev s) (hplain : s.Plain) :
    match conditionalForm.condition s with
    | none => shortest (fun _ => conditionalTail?) none s.cells = none
    | some changes => ∃ stretch rest found,
        shortest (fun _ => conditionalTail?) none s.cells = some (stretch, rest.lead.map Cell.code,
          found.1.cells, found.2.1.lead.map Cell.code)
        ∧ s.cells = stretch ++ .code ')' :: rest.cells ∧ Fitting (some (.mark ')')) rest
        ∧ rest.turn? branchWords '{' = some found ∧ Follows found.2.2 s changes
        ∧ ∀ more, (s.change (changes ++ more)).cells = trimCells stretch ++ .code ')' :: .code ' '
          :: (found.1.cells ++ .code ' ' :: .code '{' :: (found.2.2.change more).cells) := by
  have hwhole := shortest_conditional h hplain
  cases s with
  | last gap => exact hwhole
  | cons gap token rest =>
      have hcons := h
      obtain ⟨hfits, hvalid, hrest⟩ := h
      obtain ⟨htoken, hplain⟩ : token.Plain rest.tokens ∧ rest.Plain := hplain
      rcases hfits.blanks_or_feed with hblank | ⟨feeds, rfl⟩
      · have hfeed := feed_notMem_of_blanks hblank
        have hspace : AllSpace (gap.map Cell.code) := by simpa [AllSpace] using hfits.isSpace
        by_cases hcloses : conditionalForm.closes token rest = true
        · obtain ⟨rfl, found, hfound⟩ : token = .mark ')' ∧ ∃ found, rest.turn? branchWords '{' = some found :=
            HeaderForm.exists_of_closes hcloses
          have hcondition : conditionalForm.condition (.cons gap (.mark ')') rest)
              = some [some [], some [' '], some [' ']] := by
            simp [HeaderForm.condition, hfeed, hcloses]
          have hbase : Closes conditionalForm [] (.cons gap (.mark ')') rest) [some [], some [' '], some [' ']] []
              gap rest found := Closes.base hcons hfound _
          rw [hcondition]
          refine ⟨gap.map Cell.code, rest, found, shortest_conditional_close hblank hrest hfound, hbase.cells,
            hrest, hfound, hbase.follows, fun more => ?_⟩
          have htrim : trimCells (gap.map Cell.code ++ ([] ++ [])) = [] :=
            trimCells_between hspace (by simp [AllSpace]) (by simp) (by simp)
          rw [List.append_nil, List.append_nil] at htrim
          rw [htrim]
          exact hbase.change more
        · have hcondition : conditionalForm.condition (.cons gap token rest)
              = (conditionalForm.scan rest).map (some conditionalForm.edge :: ·) :=
            HeaderForm.condition_cons (fun _ => hfeed) hcloses fun hremark =>
              HeaderForm.scan_of_remark hrest hremark fun _ _ _ _ => .inl rfl
          have hbehind := shortest_conditional hrest hplain
          rw [hcondition, shortest_conditional_step hblank hvalid htoken hrest (by simpa using hcloses)]
          cases hscanned : conditionalForm.scan rest with
          | none =>
              rw [hscanned] at hbehind
              simp [hbehind]
          | some changes =>
              rw [hscanned] at hbehind
              obtain ⟨inner, space, behind, found, hclosed, hfound⟩ := hbehind
              refine ⟨_, behind, found, by rw [hfound]; rfl, ?_, hclosed.fitting, hclosed.turn,
                hclosed.follows.cons _ _ _, fun more => ?_⟩
              · simp [Layout.cells, hclosed.cells, conditionalForm]
              · have hmid : trimCells (gap.map Cell.code ++ ((token.cells ++ inner) ++ space.map Cell.code))
                    = token.cells ++ inner := by
                  refine trimCells_between hspace ?_ (Token.isSpace_head hvalid _) ?_
                  · simpa [AllSpace] using hclosed.blank
                  · exact hclosed.ends_token hvalid
                rw [List.append_assoc] at hmid
                rw [hmid]
                simp [Layout.change, Layout.cells, hclosed.change, conditionalForm]
      · exact hwhole

end Conditional

/-! ## Starts of headers -/

lemma wordMark?_of_not_word {word : List Char} (hword : IsKeyword word) (c : Char) {cell : Cell}
    (hcell : isWordChar cell.char = false) (rest : List Cell) : wordMark? word c (cell :: rest) = none := by
  rw [wordMark?, keyword?_of_not_word hword hcell]
  rfl

/-- **A header can start only with a token**: not inside a word, and not in a literal or a remark. -/
lemma none_of_start {α : Type} {find : Option Char → List Cell → Option α} {word : List Char} {c : Char}
    (hword : IsKeyword word)
    (hread : ∀ before cells, wordMark? word c cells = none → find before cells = none)
    (hedge : ∀ before cell rest, atBoundary before (some cell.char) = false → find before (cell :: rest) = none)
    (hliteral : ∀ quote body, (Token.literal quote body).Valid → Headerless .literal body →
      ∀ back ∈ body.tails, ∀ more,
        wordMark? word c ((back.map fun c => ⟨c, .literal⟩) ++ ⟨quote, .literal⟩ :: more) = none)
    {s : Layout}
    (hremark : ∀ body, (Token.remark body).Valid → (Token.remark body).Plain s.tokens →
      Fitting (some (.remark body)) s → ∀ cell back, cell :: back <:+ (Token.remark body).cells →
        wordMark? word c (cell :: (back ++ s.cells)) = none)
    {t : Token} (ht : t.Valid) (hplain : t.Plain s.tokens) (hs : Fitting (some t) s) {before : Option Char}
    (hfirst : find before (t.cells ++ s.cells) = none) (front : List Cell) (cell : Cell) (back : List Cell)
    (hsplit : t.cells = front ++ cell :: back) :
    find ((front.getLast?.map Cell.char).or before) (cell :: (back ++ s.cells)) = none := by
  cases hfront : front.getLast? with
  | none =>
      obtain rfl := List.getLast?_eq_none_iff.1 hfront
      rw [hsplit] at hfirst
      exact hfirst
  | some last =>
      have hmem : cell ∈ t.cells := by simp [hsplit]
      have hlast : last ∈ t.cells := by simp [hsplit, List.mem_of_getLast? hfront]
      cases t with
      | word text =>
          refine hedge _ cell _ ?_
          obtain ⟨d, hd, rfl⟩ := List.mem_map.1 hmem
          obtain ⟨e, he, rfl⟩ := List.mem_map.1 hlast
          simp [atBoundary, ht.2 d hd, ht.2 e he]
      | literal quote body =>
          refine hread _ _ ?_
          obtain ⟨lits, hback, hlits⟩ := literal_split hsplit
          obtain ⟨first, front, rfl⟩ := List.exists_cons_of_ne_nil (l := front) fun hnil => by simp [hnil] at hfront
          obtain ⟨-, hbody⟩ := List.cons.inj hlits
          obtain ⟨front', back', hsplit', -, rfl⟩ := List.map_eq_append_iff.1 hbody.symm
          have hcells : cell :: (back ++ s.cells) = (back'.map fun c => (⟨c, .literal⟩ : Cell))
              ++ ⟨quote, .literal⟩ :: s.cells := by
            rw [← List.cons_append, hback, List.append_assoc, List.singleton_append]
          rw [hcells]
          exact hliteral quote body ht hplain back' ((List.mem_tails _ _).2 ⟨front', hsplit'.symm⟩) s.cells
      | operator text =>
          have hall : ∀ op ∈ operators, ∀ c ∈ op, isWordChar c = false := by decide
          obtain ⟨d, hd, rfl⟩ := List.mem_map.1 hmem
          have hcell : isWordChar (Cell.code d).char = false := hall text ht d hd
          exact hread _ _ (wordMark?_of_not_word hword c hcell _)
      | mark c =>
          obtain ⟨rfl, -, -⟩ := mark_split hsplit
          simp at hfront
      | remark body => exact hread _ _ (hremark body ht hplain hs cell back ⟨front, hsplit.symm⟩)

/-- A word and a parenthesis stand in no plain remark. -/
lemma wordMark?_of_headerless {body : List Char} (h : Headerless .comment body) {part : List Cell}
    (hsuffix : part <:+ (Token.remark body).cells) : wordMark? ['i', 'f'] '(' part = none := by
  have hslash (rest : List Cell) : wordMark? ['i', 'f'] '(' (⟨'/', .comment⟩ :: rest) = none :=
    wordMark?_of_not_word (by decide) '(' (by decide) rest
  rw [Token.cells, List.map_cons, List.map_cons, List.suffix_cons_iff, List.suffix_cons_iff] at hsuffix
  rcases hsuffix with rfl | rfl | hsuffix
  · exact hslash _
  · exact hslash _
  · obtain ⟨front, hbody⟩ := hsuffix
    obtain ⟨front, back, rfl, -, rfl⟩ := List.map_eq_append_iff.1 hbody.symm
    exact h.2 back ((List.mem_tails _ _).2 (List.suffix_append _ _))

lemma conditional?_eq (before : Option Char) (cells : List Cell) :
    conditional? before cells = if atBoundary before (cells.head?.map Cell.char) then
      (wordMark? ['i', 'f'] '(' cells).bind fun read =>
        (shortest (fun _ => conditionalTail?) none read.2.2).map fun found =>
          ⟨read.1, read.2.1, found.1, found.2.1, found.2.2.1, found.2.2.2⟩
      else none := by
  unfold conditional?
  cases atBoundary before (cells.head?.map Cell.char) with
  | false => rfl
  | true =>
      simp only [guard, if_true, Option.bind_eq_bind, wordMark?]
      cases keyword? ['i', 'f'] cells with
      | none => rfl
      | some read =>
          simp only [Option.pure_def, Option.bind_some]
          cases afterMark? '(' (gap read.2).2 with
          | none => rfl
          | some rest =>
              simp only [Option.bind_some]
              cases shortest (fun _ => conditionalTail?) none rest with
              | none => rfl
              | some found => rfl

lemma conditional?_of_wordMark? {before : Option Char} {cells : List Cell}
    (h : wordMark? ['i', 'f'] '(' cells = none) : conditional? before cells = none := by
  rw [conditional?_eq, h]
  simp

lemma Token.head_code {t : Token} (ht : t.Valid) (hword : t.isWord = true) (rest : List Cell) :
    (t.cells ++ rest).head?.any (·.kind == .code) = true := by
  obtain ⟨text, rfl⟩ := exists_word hword
  obtain ⟨c, text, rfl⟩ := List.exists_cons_of_ne_nil ht.1
  rfl

/-- A header starts with a word of its own. -/
lemma Starts.atBoundary {before : Option Char} {t : Token} (h : Starts before t) (ht : t.Valid)
    (hword : t.isWord = true) (rest : List Cell) :
    atBoundary before ((t.cells ++ rest).head?.map Cell.char) = true := by
  obtain ⟨text, rfl⟩ := Token.exists_word hword
  obtain ⟨c, text, rfl⟩ := List.exists_cons_of_ne_nil ht.1
  simp [Text.atBoundary, h rfl, Token.cells, ht.2 c List.mem_cons_self]

lemma Fitting.plain_of_after? {prev : Option Token} {s : Layout} (h : Fitting prev s) (hplain : s.Plain)
    {c : Char} {rest : Layout} (hafter : s.after? c = some rest) : rest.Plain := by
  obtain ⟨hcons, -⟩ := h.of_after? hafter
  rw [hcons] at hplain
  exact hplain.2

/-- No conditional starts where no changes are made. -/
lemma conditional?_token {t : Token} (ht : t.Valid) {s : Layout} (hs : Fitting (some t) s) (hplain : s.Plain)
    (hnone : conditionalForm.changes t s = none) (before : Option Char) :
    conditional? before (t.cells ++ s.cells) = none := by
  rw [conditional?_eq, wordMark?_token ht hs (by decide : IsKeyword ['i', 'f']) (by decide : IsBracket '(')]
  by_cases hkeyword : t.isKeyword ['i', 'f'] = true
  · cases hafter : s.after? '(' with
    | none => simp
    | some rest =>
        have hcondition : conditionalForm.condition rest = none := by
          simpa [HeaderForm.changes, conditionalForm, hkeyword, hafter] using hnone
        have hshort := shortest_condition (hs.of_after? hafter).2 (hs.plain_of_after? hplain hafter)
        rw [hcondition] at hshort
        simp [hkeyword, hshort]
  · simp [hkeyword]

/-- **The changes that conditionals make.** -/
lemma changesGaps_conditionals :
    ChangesGaps conditionalFinder (fun taken h => inCode taken h.canonical) conditionalForm.changes where
  space before c rest hc := by
    have hcell : isWordChar (Cell.code c).char = false := by
      rw [char_code]
      exact isWordTest_isWordChar.space hc
    have hread := wordMark?_of_not_word (by decide : IsKeyword ['i', 'f']) '(' hcell rest
    rw [conditionalFinder, conditional?_of_wordMark? hread]
    rfl
  pass {t s} ht hplain hs hs' hfind before hstarts front cell back hsplit := by
    rw [conditionalFinder, Option.map_eq_none_iff]
    have hread (before : Option Char) (cells : List Cell) (h : wordMark? ['i', 'f'] '(' cells = none) :
        conditional? before cells = none := conditional?_of_wordMark? h
    have hedge (before : Option Char) (cell : Cell) (rest : List Cell)
        (h : atBoundary before (some cell.char) = false) : conditional? before (cell :: rest) = none := by
      rw [conditional?_eq]
      simp [h]
    exact none_of_start (by decide : IsKeyword ['i', 'f']) hread hedge
      (fun quote body hvalid hplain back hback more =>
        wordMark?_literal hvalid.1 more (by decide) (by decide) (hplain.2 back hback))
      (fun body hvalid hplain hs cell back hsuffix =>
        wordMark?_remark hvalid hplain hs (by decide) (.inl rfl) hsuffix (by simp)
          (wordMark?_of_headerless hplain.1 hsuffix))
      ht hplain hs (conditional?_token ht hs hs' hfind before) front cell back hsplit
  header {t s changes} ht hs hplain hfind before hstarts := by
    obtain ⟨hkeyword, rest, hafter, changes, hcondition, rfl⟩ := HeaderForm.of_changes hfind
    replace hkeyword : t.isKeyword ['i', 'f'] = true := hkeyword
    replace hafter : s.after? '(' = some rest := hafter
    obtain ⟨hs', hrest⟩ := hs.of_after? hafter
    have hshort := shortest_condition hrest (hs.plain_of_after? hplain hafter)
    rw [hcondition] at hshort
    obtain ⟨stretch, behind, ⟨word, before', body⟩, hshort, hcells, hbehind, hturn, hfollows, hchange⟩ := hshort
    have hbody := hbehind.cells_of_turn? hturn
    have hlead : s.cells = s.lead.map Cell.code ++ .code '(' :: rest.cells := by
      conv_lhs => rw [hs']
      rfl
    let front := t.cells ++ (s.lead.map Cell.code ++ .code '(' :: (stretch ++ .code ')'
      :: (behind.lead.map Cell.code ++ (word.cells ++ before'.lead.map Cell.code))))
    have htaken : (front ++ [.code '{']) ++ body.cells = t.cells ++ s.cells := by
      simp [front, hlead, hcells, hbody]
    refine ⟨front ++ [.code '{'], ⟨t.cells, s.lead.map Cell.code, stretch, behind.lead.map Cell.code, word.cells,
      before'.lead.map Cell.code⟩, body, ?_, htaken.symm, List.getLast?_concat, ?_, ?_⟩
    · rw [hs']
      exact hfollows.cons _ _ _
    · have hword := wordMark?_token ht hs (by decide : IsKeyword ['i', 'f']) (by decide : IsBracket '(')
      rw [if_pos hkeyword, hafter] at hword
      rw [htaken, conditionalFinder, conditional?_eq,
        hstarts.atBoundary ht (Token.isWord_of_isKeyword hkeyword) s.cells, if_pos rfl, hword]
      simp only [Option.map_some, Option.bind_some, hshort, Conditional.size, front, Option.some.injEq,
        Prod.mk.injEq, List.length_append, List.length_cons, List.length_nil, and_true]
      omega
    · intro more
      have hcells : (s.change ((some [' '] :: changes) ++ more)).cells
          = .code ' ' :: .code '(' :: (rest.change (changes ++ more)).cells := by
        rw [hs']
        rfl
      have hcode := Token.head_code ht (Token.isWord_of_isKeyword hkeyword)
      rw [hcells, hchange, inCode, List.append_assoc, if_pos (hcode _)]
      simp [Conditional.canonical, codeCells]

end SqfLayout
