import SqfLayout.Proofs.GapFinders

/-!
# Operators as a rule for gaps

The operators pass works on each line by itself.  `cutLine` cuts the first line off a text, and
`spaceLines` is the pass on the cells that are left.  A line is followed token by token: an operator
takes the blanks on both sides along (`replaces_operator`), and every other token is passed, also a
literal or a remark with operators inside (`replaces_operators_quoted`).  Together they give the gaps that
`operatorGap` names (`spaceOperators_text`).
-/

namespace SqfLayout

open SqfLayout.Text SqfLayout.Scan SqfLayout.Pass

/-- Whether a token is an operator. -/
def Token.isOperator : Token → Bool
  | .operator _ => true
  | _ => false

/-- **Gaps beside operators**: a space on either side of each, except at the ends of lines. -/
def operatorGap : GapRule := fun prev gap next =>
  match prev, next with
  | some a, some b =>
    if '\n' ∈ gap then gap
    else if a.isOperator then if b.isOperator then [' ', ' '] else [' ']
    else if b.isOperator then [' '] else gap
  | _, _ => gap

/-! ## Lines -/

/-- **The first line of a text with its line feed**, and the rest. -/
def cutLine : List Cell → List Cell × List Cell
  | [] => ([], [])
  | cell :: rest =>
    if cell.char == '\n' then ([cell], rest) else (cell :: (cutLine rest).1, (cutLine rest).2)

lemma cutLine_append {block : List Cell} (h : ∀ cell ∈ block, cell.char ≠ '\n') (rest : List Cell) :
    cutLine (block ++ rest) = (block ++ (cutLine rest).1, (cutLine rest).2) := by
  induction block with
  | nil => rfl
  | cons cell block ih =>
      obtain ⟨hcell, hblock⟩ := List.forall_mem_cons.1 h
      rw [List.cons_append, cutLine, if_neg (by simpa using hcell), ih hblock, List.cons_append]

/-- A line starts like the text from there on. -/
lemma nextChar_cutLine (cells : List Cell) : nextChar (cutLine cells).1 none = nextChar cells none := by
  cases cells with
  | nil => rfl
  | cons cell rest =>
      rw [cutLine]
      split <;> rfl

lemma splitAfter_cutLine {cells : List Cell} (h : cells ≠ []) :
    splitAfter (·.char == '\n') cells
      = (cutLine cells).1 :: splitAfter (·.char == '\n') (cutLine cells).2 := by
  induction cells with
  | nil => exact absurd rfl h
  | cons cell rest ih =>
      rw [splitAfter, cutLine]
      split
      · rfl
      · cases rest with
        | nil => rfl
        | cons next rest => rw [ih (by simp)]

/-- The operators pass on cells. -/
def spaceLines (cells : List Cell) : List Cell :=
  (splitAfter (·.char == '\n') cells).flatMap spaceLine

lemma spaceLines_eq (cells : List Cell) :
    spaceLines cells = spaceLine (cutLine cells).1 ++ spaceLines (cutLine cells).2 := by
  by_cases hnil : cells = []
  · subst hnil
    rfl
  · rw [spaceLines, splitAfter_cutLine hnil, List.flatMap_cons]
    rfl

/-- Blank lines stay. -/
lemma spaceLines_feeds {gap : List Char} (h : ∀ c ∈ gap, c = '\n') (rest : List Cell) :
    spaceLines (gap.map Cell.code ++ rest) = gap.map Cell.code ++ spaceLines rest := by
  induction gap with
  | nil => rfl
  | cons c gap ih =>
      obtain ⟨rfl, hgap⟩ := List.forall_mem_cons.1 h
      rw [List.map_cons, List.cons_append, spaceLines_eq]
      exact congrArg (_ :: ·) (ih hgap)

/-! ## Finding operators -/

lemma length_of_mem_operators {op : List Char} (h : op ∈ operators) : op.length = 1 ∨ op.length = 2 := by
  revert op
  decide

lemma startsWith_chars (op rest : List Cell) : startsWith (chars op) (op ++ rest) = true := by
  induction op with
  | nil => cases rest <;> rfl
  | cons cell op ih => simpa [startsWith] using ih

/-- **The longest operator is found**, for those of two characters come first. -/
lemma find?_operators_iff {cells : List Cell} {word : List Char} :
    operators.find? (startsWith · cells) = some word ↔
      word ∈ operators ∧ startsWith word cells = true
        ∧ ∀ other ∈ operators, startsWith other cells = true → other.length ≤ word.length := by
  have hlongest {word : List Char} (h : operators.find? (startsWith · cells) = some word) :
      ∀ other ∈ operators, startsWith other cells = true → other.length ≤ word.length := by
    intro other hother hstarts
    obtain ⟨-, front, back, hsplit, hfront⟩ := List.find?_eq_some_iff_append.1 h
    have hsorted : operators.Pairwise fun a b => b.length ≤ a.length := by decide
    rw [hsplit] at hother hsorted
    rcases List.mem_append.1 hother with hmem | hmem
    · have hnot := hfront other hmem
      simp [hstarts] at hnot
    · rcases List.mem_cons.1 hmem with rfl | hback
      · exact le_rfl
      · exact (List.pairwise_cons.1 (List.pairwise_append.1 hsorted).2.1).1 other hback
  constructor
  · intro h
    exact ⟨List.mem_of_find?_eq_some h, by simpa using List.find?_some h, hlongest h⟩
  · rintro ⟨hword, hstarts, hall⟩
    cases hfind : operators.find? (startsWith · cells) with
    | none =>
        have hnone := List.find?_eq_none.1 hfind word hword
        simp [hstarts] at hnone
    | some other =>
        have hother : startsWith other cells = true := by simpa using List.find?_some hfind
        have hlength : other.length = word.length :=
          le_antisymm (hall other (List.mem_of_find?_eq_some hfind) hother) (hlongest hfind word hword hstarts)
        rw [← startsWith_iff hother, ← startsWith_iff hstarts, hlength]

/-- **An operator is found as a whole** where it makes no longer one with the next character. -/
lemma operator?_eq_some_iff {op rest : List Cell} :
    operator? (op ++ rest) = some op ↔
      chars op ∈ operators ∧ ∀ d ∈ nextChar rest none, chars op ++ [d] ∉ operators := by
  constructor
  · intro h
    obtain ⟨word, hfind, htake⟩ := Option.map_eq_some_iff.1 h
    obtain ⟨hword, hstarts, hlongest⟩ := find?_operators_iff.1 hfind
    obtain rfl : chars op = word := by rw [← htake, startsWith_iff hstarts]
    refine ⟨hword, fun d hd hmem => ?_⟩
    cases rest with
    | nil => simp at hd
    | cons next rest =>
        obtain rfl : next.char = d := by simpa using hd
        have hlength := hlongest _ hmem (by simpa using startsWith_chars (op ++ [next]) rest)
        simp only [List.length_append, List.length_singleton] at hlength
        omega
  · rintro ⟨hop, hnext⟩
    have hfind : operators.find? (startsWith · (op ++ rest)) = some (chars op) := by
      refine find?_operators_iff.2 ⟨hop, startsWith_chars op rest, fun other hother hstarts => ?_⟩
      by_contra hlonger
      -- a longer operator is this one and the next character
      have hlength : other.length = op.length + 1 := by
        have hone := length_of_mem_operators hop
        have htwo := length_of_mem_operators hother
        simp only [chars, List.length_map] at hone hlonger
        omega
      have htaken := startsWith_iff hstarts
      rw [hlength, List.take_length_add_append] at htaken
      cases rest with
      | nil => simp [← htaken, chars] at hlength
      | cons next rest =>
          refine hnext next.char rfl ?_
          rw [← htaken] at hother
          simpa using hother
    rw [operator?, hfind]
    simp [chars]

/-- **No operator is found** where neither a character nor that with the next one is an operator. -/
lemma operator?_eq_none_iff {cell : Cell} {rest : List Cell} :
    operator? (cell :: rest) = none ↔
      [cell.char] ∉ operators ∧ ∀ d ∈ nextChar rest none, [cell.char, d] ∉ operators := by
  rw [operator?, Option.map_eq_none_iff, List.find?_eq_none]
  constructor
  · intro h
    refine ⟨fun hone => h _ hone (by simp [startsWith]), fun d hd htwo => ?_⟩
    cases rest with
    | nil => simp at hd
    | cons next rest =>
        obtain rfl : next.char = d := by simpa using hd
        exact h _ htwo (by simp [startsWith])
  · rintro ⟨hone, htwo⟩ op hop hstarts
    rw [← startsWith_iff hstarts] at hop
    rcases length_of_mem_operators (startsWith_iff hstarts ▸ hop) with hlength | hlength
    · rw [hlength] at hop
      exact hone hop
    · rw [hlength] at hop
      cases rest with
      | nil => exact hone hop
      | cons next rest => exact htwo next.char rfl hop

/-- No operator starts with white space. -/
lemma operator?_space {cell : Cell} (h : isSpace cell.char = true) (rest : List Cell) :
    operator? (cell :: rest) = none := by
  have hnot (op : List Char) (hop : op ∈ operators) : cell.char ∉ op := fun hmem => by
    simp [isSpace_of_mem_operators hop _ hmem] at h
  exact operator?_eq_none_iff.2
    ⟨fun hop => hnot _ hop List.mem_cons_self, fun d _ hop => hnot _ hop List.mem_cons_self⟩

/-- The operator of a token is found, unless the token joins what follows. -/
lemma operator?_cells {op : List Char} (hop : op ∈ operators) {rest : List Cell}
    (hjoins : ∀ d ∈ nextChar rest none, (Token.operator op).joins d = false) :
    operator? ((Token.operator op).cells ++ rest) = some (Token.operator op).cells := by
  have hchars : chars (Token.operator op).cells = op := chars_map_code op
  rw [operator?_eq_some_iff, hchars]
  refine ⟨hop, fun d hd hlonger => ?_⟩
  have hfuses := hjoins d hd
  rcases op with - | ⟨c, - | ⟨c', op⟩⟩
  · simp [operators] at hop
  · simp [Token.joins, fuses, show [c, d] ∈ operators from hlonger] at hfuses
  · have hlength := length_of_mem_operators hlonger
    simp only [List.length_append, List.length_cons] at hlength
    simp at hlength

lemma operatorFinder_none {before : Option Char} {cells : List Cell}
    (h : operator? (cells.dropWhile fun cell => isBlank cell.char) = none) :
    operatorFinder before cells = none := by
  rw [operatorFinder, h]
  rfl

/-- **An operator with the blanks on both sides.** -/
lemma operatorFinder_found {lead op trail rest : List Cell} (hlead : AllBlank lead) (htrail : AllBlank trail)
    (hhead : ∀ cell ∈ rest.head?, isBlank cell.char = false) (hop : operator? (op ++ (trail ++ rest)) = some op)
    (before : Option Char) :
    operatorFinder before ((lead ++ (op ++ trail)) ++ rest)
      = some ((lead ++ (op ++ trail)).length,
        if op.head?.any (·.kind == .code) then spaceBefore before ++ op ++ spaceBehind rest.head?
        else lead ++ (op ++ trail)) := by
  obtain ⟨hmem, -⟩ := operator?_eq_some_iff.1 hop
  have hblank : ∀ cell ∈ (op ++ (trail ++ rest)).head?, isBlank cell.char = false := by
    obtain ⟨cell, tail, rfl⟩ := List.exists_cons_of_ne_nil (ne_nil_of_mem_operators hmem)
    simpa using isBlank_of_isSpace_false (isSpace_of_mem_operators hmem _ List.mem_cons_self)
  obtain ⟨htake, hdrop⟩ := hlead.takeWhile_append hblank
  have hcells : (lead ++ (op ++ trail)) ++ rest = lead ++ (op ++ (trail ++ rest)) := by simp
  have hbehind : (lead ++ (op ++ (trail ++ rest))).drop (lead.length + op.length) = trail ++ rest := by
    rw [← List.append_assoc, ← List.length_append, List.drop_left]
  have hlength : (lead ++ (op ++ trail)).length = lead.length + op.length + trail.length := by
    simp [Nat.add_assoc]
  have hrest : (lead ++ (op ++ (trail ++ rest))).drop (lead.length + op.length + trail.length) = rest := by
    rw [← hlength, ← hcells, List.drop_left]
  have htaken : (lead ++ (op ++ (trail ++ rest))).take (lead.length + op.length + trail.length)
      = lead ++ (op ++ trail) := by
    rw [← hlength, ← hcells, List.take_left]
  rw [hcells, operatorFinder, hdrop, hop, Option.map_some, htake]
  simp only [hbehind, (htrail.takeWhile_append hhead).1, hrest, htaken, hlength]
  split <;> rfl

/-! ## Passing tokens -/

lemma exists_lastChar {block : List Cell} (h : block ≠ []) (before : Option Char) :
    ∃ c, ((block.getLast?.map Cell.char).or before) = some c := by
  rw [List.getLast?_eq_some_getLast h]
  exact ⟨_, rfl⟩

/-- Cells behind whose blanks no operator starts are passed. -/
lemma replaces_operators_pass {block rest out : List Cell} {before : Option Char}
    (hnone : ∀ front cell back, block = front ++ cell :: back →
      operator? ((cell :: (back ++ rest)).dropWhile fun cell => isBlank cell.char) = none)
    (hrest : Replaces operatorFinder (fun _ spaced => spaced) ((block.getLast?.map Cell.char).or before)
      rest out) :
    Replaces operatorFinder (fun _ spaced => spaced) before (block ++ rest) (block ++ out) :=
  .pass (fun front cell back hblock => operatorFinder_none (hnone front cell back hblock)) hrest

/-- No operator starts with a character that is in none. -/
lemma operator?_of_notMem {cell : Cell} (h : ∀ op ∈ operators, cell.char ∉ op) (rest : List Cell) :
    operator? (cell :: rest) = none :=
  operator?_eq_none_iff.2 ⟨fun hop => h _ hop List.mem_cons_self, fun _ _ hop => h _ hop List.mem_cons_self⟩

/-- Such a character is passed. -/
lemma replaces_operators_plain {cell : Cell} (hblank : isBlank cell.char = false)
    (h : ∀ op ∈ operators, cell.char ∉ op) {rest out : List Cell}
    (hrest : Replaces operatorFinder (fun _ spaced => spaced) (some cell.char) rest out) (before : Option Char) :
    Replaces operatorFinder (fun _ spaced => spaced) before (cell :: rest) (cell :: out) := by
  refine .plain (operatorFinder_none ?_) hrest
  rw [List.dropWhile_cons_of_neg (by simp [hblank])]
  exact operator?_of_notMem h rest

/-- **Operators inside literals and remarks stay as they are.**  The text is followed up to a place where
neither blanks nor an operator go on; blanks around an operator belong to it too. -/
lemma replaces_operators_quoted {stop out : List Cell}
    (hstop : ∀ cell ∈ stop.head?, isBlank cell.char = false ∧ ∀ op ∈ operators, cell.char ∉ op)
    (hrest : ∀ c, Replaces operatorFinder (fun _ spaced => spaced) (some c) stop out) (lits : List Cell)
    (hlits : ∀ cell ∈ lits, cell.kind ≠ .code) (c : Char) :
    Replaces operatorFinder (fun _ spaced => spaced) (some c) (lits ++ stop) (lits ++ out) := by
  induction hlength : lits.length using Nat.strong_induction_on generalizing lits c with
  | _ n ih =>
      subst hlength
      cases hfind : operatorFinder (some c) (lits ++ stop) with
      | none =>
          cases lits with
          | nil => exact hrest c
          | cons cell lits =>
              have hlits := (List.forall_mem_cons.1 hlits).2
              exact .plain hfind (ih _ (by simp) lits hlits _ rfl)
      | some found =>
          obtain ⟨n, put⟩ := found
          obtain ⟨lead, op, trail, behind, hcells, rfl, hlead, htrail, hop, hput⟩ :=
            operatorFinder_eq_some hfind
          -- what is found ends before the stop
          have hnot : ∀ cell ∈ stop.head?, cell ∉ lead ++ (op ++ trail) := by
            intro cell hcell
            obtain ⟨hblank, hops⟩ := hstop cell hcell
            rw [List.mem_append, List.mem_append]
            rintro (hmem | hmem | hmem)
            · simp [hlead _ hmem] at hblank
            · exact hops _ hop (List.mem_map_of_mem hmem)
            · simp [htrail _ hmem] at hblank
          obtain ⟨tail, rfl⟩ : ∃ tail, lits = (lead ++ (op ++ trail)) ++ tail := by
            have hsplit : lits ++ stop = (lead ++ (op ++ trail)) ++ behind := by simpa using hcells
            obtain ⟨extra, htaken, hextra⟩ | ⟨tail, hlits, -⟩ := List.append_eq_append_iff.1 hsplit
            · cases extra with
              | nil => exact ⟨[], by simpa using htaken.symm⟩
              | cons cell extra => exact absurd (htaken ▸ by simp) (hnot cell (by rw [hextra]; rfl))
            · exact ⟨tail, hlits⟩
          have hopen : op ≠ [] := ne_nil_of_mem_operators hop
          have hkept : put = lead ++ (op ++ trail) := by
            refine hput.resolve_left fun hcode => ?_
            obtain ⟨cell, cells, rfl⟩ := List.exists_cons_of_ne_nil hopen
            have hkind := hlits cell (by simp)
            simp [hkind] at hcode
          obtain ⟨last, hlast⟩ := exists_lastChar (by simp [hopen] : lead ++ (op ++ trail) ≠ []) none
          rw [Option.or_none] at hlast
          have htail := ih tail.length (by simp; have := List.length_pos_iff.2 hopen; omega) tail
            (fun cell hcell => hlits cell (List.mem_append_right _ hcell)) last rfl
          rw [List.append_assoc] at hfind
          have hreplaced : Replaces operatorFinder (fun _ spaced => spaced) (some c) _ _ :=
            .found hfind (by simp [hopen]) (hlast ▸ htail)
          rw [hkept] at hreplaced
          simpa using hreplaced

/-- Blanks are passed if no operator follows them. -/
lemma replaces_operators_blanks {gap rest out : List Cell} (hgap : AllBlank gap)
    (hhead : ∀ cell ∈ rest.head?, isBlank cell.char = false) (hnone : operator? rest = none)
    {before : Option Char}
    (hrest : ∀ before, Replaces operatorFinder (fun _ spaced => spaced) before rest out) :
    Replaces operatorFinder (fun _ spaced => spaced) before (gap ++ rest) (gap ++ out) := by
  refine replaces_operators_pass (fun front cell back hsplit => ?_) (hrest _)
  have hback : AllBlank (cell :: back) := fun c hc => hgap c (hsplit ▸ List.mem_append_right _ hc)
  rw [← List.cons_append, (hback.takeWhile_append hhead).2, hnone]

/-- A token that is no operator, with the blanks before it. -/
lemma replaces_operators_token {t : Token} (ht : t.Valid) (hop : t.isOperator = false) {lead : List Char}
    (hlead : ∀ c ∈ lead, isBlank c = true) {rest out : List Cell}
    (hjoins : ∀ d ∈ nextChar rest none, t.joins d = false)
    (hrest : ∀ c, Replaces operatorFinder (fun _ spaced => spaced) (some c) rest out)
    (before : Option Char) :
    Replaces operatorFinder (fun _ spaced => spaced) before (lead.map Cell.code ++ (t.cells ++ rest))
      (lead.map Cell.code ++ (t.cells ++ out)) := by
  have hhead := Token.isBlank_head ht rest
  have hcells := Token.cells_ne_nil ht
  cases t with
  | word text =>
      obtain ⟨hne, htext⟩ := ht
      have hall : ∀ op ∈ operators, ∀ c ∈ op, isWordChar c = false := by decide
      have hwords : ∀ c ∈ text, ∀ op ∈ operators, (Cell.code c).char ∉ op := by
        intro c hc op hop hmem
        have hnot := hall op hop c hmem
        simp [htext c hc] at hnot
      have hnone (front : List Cell) (cell : Cell) (back : List Cell)
          (hsplit : text.map Cell.code = front ++ cell :: back) :
          operator? ((cell :: (back ++ rest)).dropWhile fun cell => isBlank cell.char) = none := by
        obtain ⟨c, hc, rfl⟩ : ∃ c ∈ text, Cell.code c = cell := by
          have hmem : cell ∈ text.map Cell.code := by simp [hsplit]
          simpa using hmem
        have hblank := isBlank_of_isSpace_false (isSpace_of_isWordChar (htext c hc))
        rw [List.dropWhile_cons_of_neg (by simp [hblank])]
        exact operator?_of_notMem (hwords c hc) _
      obtain ⟨first, word, rfl⟩ := List.exists_cons_of_ne_nil hne
      have hfirst := operator?_of_notMem (hwords first List.mem_cons_self) (word.map Cell.code ++ rest)
      refine replaces_operators_blanks (allBlank_map_code hlead) hhead hfirst
        fun before => replaces_operators_pass hnone ?_
      obtain ⟨c, hlast⟩ := exists_lastChar hcells before
      rw [hlast]
      exact hrest c
  | literal quote body =>
      obtain ⟨hquote, -, -⟩ := ht
      have hblank : isBlank quote = false := by rcases hquote with rfl | rfl <;> decide
      have hops : ∀ op ∈ operators, quote ∉ op := by rcases hquote with rfl | rfl <;> decide
      have hend (c : Char) : Replaces operatorFinder (fun _ spaced => spaced) (some c)
          (⟨quote, .literal⟩ :: rest) (⟨quote, .literal⟩ :: out) :=
        replaces_operators_plain hblank hops (hrest quote) (some c)
      have hbody := replaces_operators_quoted (by simpa using ⟨hblank, hops⟩) hend
        (body.map fun c => (⟨c, .literal⟩ : Cell)) (by simp) quote
      refine replaces_operators_blanks (allBlank_map_code hlead) hhead (operator?_of_notMem hops _)
        fun before => ?_
      simpa [Token.cells] using replaces_operators_plain hblank hops hbody before
  | operator text => simp [Token.isOperator] at hop
  | mark c =>
      obtain ⟨hspace, -, -, -, hnot⟩ := ht
      have hnone : operator? (Cell.code c :: rest) = none := by
        refine operator?_eq_none_iff.2 ⟨hnot, fun d hd hmem => ?_⟩
        have hfuses : fuses c d = false := hjoins d hd
        simp [fuses, show [c, d] ∈ operators from hmem] at hfuses
      refine replaces_operators_blanks (allBlank_map_code hlead) hhead hnone fun before => .plain ?_ (hrest c)
      refine operatorFinder_none ?_
      rwa [List.dropWhile_cons_of_neg (by simp [isBlank_of_isSpace_false hspace])]
  | remark body =>
      have hops : ∀ op ∈ operators, '/' ∉ op := by decide
      have hstop : ∀ cell ∈ rest.head?, isBlank cell.char = false ∧ ∀ op ∈ operators, cell.char ∉ op := by
        intro cell hcell
        obtain ⟨cells, rfl⟩ := List.head?_eq_some_iff.1 hcell
        have hfeed : (cell.char != '\n') = false := hjoins cell.char rfl
        rw [bne_eq_false_iff_eq] at hfeed
        rw [hfeed]
        decide
      have hbody := replaces_operators_quoted hstop hrest (('/' :: body).map fun c => (⟨c, .comment⟩ : Cell))
        (by simp) '/'
      refine replaces_operators_blanks (allBlank_map_code hlead) hhead (operator?_of_notMem hops _)
        fun before => ?_
      simpa [Token.cells] using replaces_operators_plain (by decide) hops hbody before

/-! ## The pass -/

/-- **An operator takes the blanks around it.** -/
lemma replaces_operator {t : Token} (ht : t.Valid) (hop : t.isOperator = true) {lead trail : List Char}
    (hlead : ∀ c ∈ lead, isBlank c = true) (htrail : ∀ c ∈ trail, isBlank c = true) {rest out : List Cell}
    (hhead : ∀ cell ∈ rest.head?, isBlank cell.char = false)
    (hjoins : ∀ d ∈ nextChar (trail.map Cell.code ++ rest) none, t.joins d = false)
    (hrest : ∀ c, Replaces operatorFinder (fun _ spaced => spaced) (some c) rest out)
    (before : Option Char) :
    Replaces operatorFinder (fun _ spaced => spaced) before
      (lead.map Cell.code ++ (t.cells ++ (trail.map Cell.code ++ rest)))
      (spaceBefore before ++ (t.cells ++ (spaceBehind rest.head? ++ out))) := by
  cases t with
  | operator op =>
      have hne : lead.map Cell.code ++ ((Token.operator op).cells ++ trail.map Cell.code) ≠ [] := by
        simp [Token.cells_ne_nil ht]
      obtain ⟨c, hlast⟩ := exists_lastChar hne none
      rw [Option.or_none] at hlast
      have hfound := operatorFinder_found (allBlank_map_code hlead) (allBlank_map_code htrail) hhead
        (operator?_cells ht hjoins) before
      have hcode : (Token.operator op).cells.head?.any (·.kind == .code) = true := by
        cases op with
        | nil => exact absurd rfl (Token.cells_ne_nil ht)
        | cons c text => rfl
      rw [if_pos hcode] at hfound
      have hreplaced : Replaces operatorFinder (fun _ spaced => spaced) before _ _ :=
        .found hfound hne (hlast ▸ hrest c)
      simpa using hreplaced
  | word text => simp [Token.isOperator] at hop
  | literal quote body => simp [Token.isOperator] at hop
  | mark c => simp [Token.isOperator] at hop
  | remark body => simp [Token.isOperator] at hop

/-- **What becomes of a line behind a token**, whatever comes before the token. -/
def LineSpaced (t : Token) (line out : List Cell) : Prop :=
  ∀ lead : List Char, (∀ c ∈ lead, isBlank c = true) → ∀ before : Option Char,
    Replaces operatorFinder (fun _ spaced => spaced) before (lead.map Cell.code ++ (t.cells ++ line))
      ((if t.isOperator then spaceBefore before else lead.map Cell.code) ++ (t.cells ++ out))

/-- Behind a character the blanks before an operator are one space. -/
lemma LineSpaced.behind {t : Token} {line out : List Cell} (h : LineSpaced t line out) {lead : List Char}
    (hlead : ∀ c ∈ lead, isBlank c = true) (c : Char) :
    Replaces operatorFinder (fun _ spaced => spaced) (some c) (lead.map Cell.code ++ (t.cells ++ line))
      ((if t.isOperator then [.code ' '] else lead.map Cell.code) ++ (t.cells ++ out)) :=
  h lead hlead (some c)

/-- At the start of a line there are none. -/
lemma LineSpaced.start {t : Token} {line out : List Cell} (h : LineSpaced t line out) :
    Replaces operatorFinder (fun _ spaced => spaced) none (t.cells ++ line) (t.cells ++ out) := by
  have hstart := h [] (List.forall_mem_nil _) none
  simpa [spaceBefore] using hstart

/-- The last token of a line. -/
lemma lineSpaced_end {t : Token} (ht : t.Valid) {line : List Cell}
    (hline : line = [] ∨ line = [.code '\n']) (hjoins : ∀ d ∈ nextChar line none, t.joins d = false) :
    LineSpaced t line line := by
  intro lead hlead before
  have hend (c : Char) : Replaces operatorFinder (fun _ spaced => spaced) (some c) line line := by
    rcases hline with rfl | rfl
    · exact .nil
    · exact .plain rfl .nil
  by_cases hop : t.isOperator = true
  · have hhead : ∀ cell ∈ line.head?, isBlank cell.char = false := by
      rcases hline with rfl | rfl
      · simp
      · simp [isBlank]
    have hbehind : spaceBehind line.head? = [] := by
      rcases hline with rfl | rfl <;> rfl
    have hreplaced := replaces_operator ht hop hlead (List.forall_mem_nil _) hhead hjoins hend before
    rw [hbehind] at hreplaced
    simpa [hop] using hreplaced
  · rw [if_neg hop]
    exact replaces_operators_token ht (by simpa using hop) hlead hjoins hend before

lemma Token.spaceBehind_head {t : Token} (ht : t.Valid) (rest : List Cell) :
    spaceBehind (t.cells ++ rest).head? = [.code ' '] := by
  obtain ⟨cell, cells, hcells⟩ := List.exists_cons_of_ne_nil (cells_ne_nil ht)
  have hspace : isSpace cell.char = false := isSpace_ends ht (.inl (by rw [hcells]; rfl))
  have hne {c : Char} (hc : isSpace c = true) : cell.char ≠ c := by
    rintro rfl
    simp [hspace] at hc
  rw [hcells]
  simp [spaceBehind, hne (c := '\n') (by decide), hne (c := '\r') (by decide)]

/-- A line that starts with a token is spaced unless it is one of the preprocessor. -/
lemma spaceLines_token {t : Token} (ht : t.Valid) (hsign : t ≠ .mark '#') {rest out behind : List Cell}
    (hspaced : LineSpaced t (cutLine rest).1 out)
    (hout : out ++ spaceLines (cutLine rest).2 = behind) :
    spaceLines (t.cells ++ rest) = t.cells ++ behind := by
  have hline : isPreprocessor (t.cells ++ (cutLine rest).1) = false := by
    obtain ⟨cell, cells, hcells⟩ := List.exists_cons_of_ne_nil (Token.cells_ne_nil ht)
    have hhead : t.cells.head? = some cell := by rw [hcells]; rfl
    have hspace : isSpace cell.char = false := Token.isSpace_ends ht (.inl hhead)
    have hchar : cell.char ≠ '#' := fun hchar =>
      hsign (t.eq_mark_of_head ht hhead (by decide) (by decide) (.inl (by decide)) hchar)
    rw [hcells]
    simp [isPreprocessor, trimStart, hspace, hchar]
  rw [spaceLines_eq, cutLine_append (Token.char_ne_feed ht), spaceLine, hline, if_neg (by simp),
    hspaced.start.replaceFound_eq, List.append_assoc, hout]

/-- **A line of tokens** is followed to its end, and then the lines behind it. -/
lemma lineSpaced_layout {t : Token} (ht : t.Valid) {s : Layout} (h : Fitting (some t) s) :
    ∃ out, LineSpaced t (cutLine s.cells).1 out
      ∧ out ++ spaceLines (cutLine s.cells).2 = (s.relay operatorGap (some t)).cells := by
  have hjoins := h.joins
  induction s generalizing t with
  | last gap =>
      cases gap with
      | nil => exact ⟨[], lineSpaced_end ht (.inl rfl) hjoins, rfl⟩
      | cons c feeds =>
          obtain ⟨rfl, hfeeds⟩ := List.forall_mem_cons.1 (h.edge (.inr rfl))
          refine ⟨[.code '\n'], lineSpaced_end ht (.inr rfl) hjoins, ?_⟩
          have hlines := spaceLines_feeds hfeeds []
          rw [List.append_nil] at hlines
          exact congrArg (_ :: ·) (hlines.trans (List.append_nil _))
  | cons gap token rest ih =>
      obtain ⟨hfits, hvalid, hrest⟩ := h
      obtain ⟨out, hspaced, hout⟩ := ih hvalid hrest hrest.joins
      rcases hfits.blanks_or_feed with hblank | ⟨feeds, rfl⟩
      · have hcut : cutLine (gap.map Cell.code ++ (token.cells ++ rest.cells))
            = (gap.map Cell.code ++ (token.cells ++ (cutLine rest.cells).1), (cutLine rest.cells).2) := by
          have hgap : ∀ cell ∈ gap.map Cell.code, cell.char ≠ '\n' := by
            intro cell hcell hfeed
            obtain ⟨c, hc, rfl⟩ := List.mem_map.1 hcell
            exact feed_notMem_of_blanks hblank (hfeed ▸ hc)
          rw [cutLine_append hgap, cutLine_append (Token.char_ne_feed hvalid)]
        rw [Layout.cells, hcut]
        refine ⟨(operatorGap (some t) gap (some token)).map Cell.code ++ (token.cells ++ out), ?_, ?_⟩
        · intro lead hlead before
          have hhead := Token.isBlank_head hvalid (cutLine rest.cells).1
          have hjoins' : ∀ d ∈ nextChar (gap.map Cell.code ++ (token.cells ++ (cutLine rest.cells).1)) none,
              t.joins d = false := by
            have hnext := nextChar_cutLine (gap.map Cell.code ++ (token.cells ++ rest.cells))
            rw [hcut] at hnext
            rw [hnext]
            exact hjoins
          by_cases hop : t.isOperator = true
          · have hreplaced := replaces_operator ht hop hlead hblank hhead hjoins'
              (hspaced.behind (List.forall_mem_nil _)) before
            rw [Token.spaceBehind_head hvalid] at hreplaced
            by_cases hnext : token.isOperator = true
            · simpa [operatorGap, feed_notMem_of_blanks hblank, hop, hnext, spaceBefore] using hreplaced
            · simpa [operatorGap, feed_notMem_of_blanks hblank, hop, hnext] using hreplaced
          · have hreplaced := replaces_operators_token ht (by simpa using hop) hlead hjoins'
              (hspaced.behind hblank) before
            by_cases hnext : token.isOperator = true
            · simpa [operatorGap, feed_notMem_of_blanks hblank, hop, hnext, spaceBefore] using hreplaced
            · simpa [operatorGap, feed_notMem_of_blanks hblank, hop, hnext] using hreplaced
        · simp [Layout.relay, Layout.cells, ← hout]
      · have hcut : cutLine ((Layout.cons ('\n' :: feeds) token rest).cells)
            = ([.code '\n'], feeds.map Cell.code ++ (token.cells ++ rest.cells)) := rfl
        have hsign : token ≠ .mark '#' := fun heq => (hfits.sign (congrArg some heq)).1 List.mem_cons_self
        have hfeeds : ∀ c ∈ feeds, c = '\n' := by
          rcases hfits.tidy with hblank | hfeed
          · exact absurd (hblank _ List.mem_cons_self) (by decide)
          · exact (List.forall_mem_cons.1 hfeed).2
        refine ⟨[.code '\n'], lineSpaced_end ht (.inr rfl) hjoins, ?_⟩
        rw [hcut, spaceLines_feeds hfeeds,
          spaceLines_token hvalid hsign hspaced hout]
        simp [Layout.relay, Layout.cells, operatorGap]

lemma spaceOperators_text {s : Layout} (h : Fitting none s) :
    spaceOperators s.text = (s.relay operatorGap none).text := by
  have hlines : spaceLines s.cells = (s.relay operatorGap none).cells := by
    cases s with
    | last gap =>
        have hlines := spaceLines_feeds (h.edge (.inl rfl)) []
        rw [List.append_nil] at hlines
        exact hlines.trans (List.append_nil _)
    | cons gap token rest =>
        obtain ⟨hfits, hvalid, hrest⟩ := h
        have hsign : token ≠ .mark '#' := fun heq => by
          obtain ⟨-, a, ha, -⟩ := hfits.sign (congrArg some heq)
          simp at ha
        obtain ⟨out, hspaced, hout⟩ := lineSpaced_layout hvalid hrest
        rw [Layout.cells, spaceLines_feeds (hfits.edge (.inl rfl)),
          spaceLines_token hvalid hsign hspaced hout]
        rfl
  rw [spaceOperators, h.label_text]
  exact congrArg chars hlines

end SqfLayout
