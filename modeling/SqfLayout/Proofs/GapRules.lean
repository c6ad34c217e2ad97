import SqfLayout.Proofs.Movement
import SqfLayout.Proofs.Tokens

/-!
# Passes as rules for gaps

Three passes go through a text from its start and keep what they have written so far.  On a layout each of
them gives every gap a new form.

**Braces.**  `braceGap` breaks the lines beside braces (`breakBraces_text`).

**Commas.**  `commaGap` puts a comma directly behind the token before it and a space behind the comma.  The
pass pulls the comma back over white space; the line feed behind a remark stays (`spaceCommas_text`).

**Semicolons.**  `Layout.joined` does the same for semicolons, of which it leaves only one of several
(`joinSemicolons_text`).
-/

namespace SqfLayout

open SqfLayout.Text SqfLayout.Scan SqfLayout.Pass

/-! ## Texts that end with a token -/

/-- A text, the last cell first, that ends with the given token; without a token it is empty.  A remark
is there as a whole. -/
def EndsWith (out : List Cell) : Option Token → Prop
  | none => out = []
  | some t => t.Valid ∧ ∃ front, out = t.cells.reverse ++ front
      ∧ (t.isRemark = true → ∀ cell ∈ front.head?, cell.kind ≠ .comment)

lemma EndsWith.push {t : Token} (ht : t.Valid) (hremark : t.isRemark = false) (out : List Cell) :
    EndsWith (t.cells.reverse ++ out) (some t) :=
  ⟨ht, out, rfl, by simp [hremark]⟩

/-- The last cell of such a text. -/
lemma EndsWith.exists_last {t : Token} {out : List Cell} (h : EndsWith out (some t)) :
    ∃ cell front, out = cell :: front ∧ cell ∈ t.cells ∧ isSpace cell.char = false := by
  obtain ⟨ht, front, rfl, -⟩ := h
  obtain ⟨cell, cells, hcells⟩ :=
    List.exists_cons_of_ne_nil (List.reverse_ne_nil_iff.2 (Token.cells_ne_nil ht))
  have hlast : t.cells.getLast? = some cell := by
    rw [← List.head?_reverse, hcells]
    rfl
  exact ⟨cell, cells ++ front, by rw [hcells, List.cons_append], List.mem_of_getLast? hlast,
    Token.isSpace_ends ht (.inr hlast)⟩

/-- The line feed that ends a remark comes first in the gap behind it. -/
lemma Fits.head?_of_remark {prev next : Option Token} {gap : List Char} (h : Fits prev gap next)
    (hnext : next ≠ none) : ∀ a ∈ prev, a.isRemark = true → gap.head? = some '\n' := by
  intro a ha hremark
  obtain rfl := Option.mem_def.1 ha
  obtain ⟨c, more, rfl⟩ := List.exists_cons_of_ne_nil (List.ne_nil_of_mem (h.ends hnext a ha hremark))
  simp [h.feeds_of_remark hremark c List.mem_cons_self]

/-- A gap and a token more. -/
lemma EndsWith.push_gap {prev : Option Token} {out : List Cell} (h : EndsWith out prev) (gap : List Char)
    (hgap : ∀ a ∈ prev, a.isRemark = true → gap.head? = some '\n') {t : Token} (ht : t.Valid) :
    EndsWith (t.cells.reverse ++ ((gap.map Cell.code).reverse ++ out)) (some t) := by
  refine ⟨ht, _, rfl, fun _ cell hcell => ?_⟩
  rcases List.eq_nil_or_concat' gap with rfl | ⟨more, c, rfl⟩
  · cases prev with
    | none => simp [show out = [] from h] at hcell
    | some a =>
        obtain ⟨last, front, rfl, hlast, -⟩ := h.exists_last
        obtain rfl : last = cell := Option.some.inj hcell
        exact Token.kind_ne_comment h.1 (by simpa using hgap a rfl) hlast
  · obtain rfl : Cell.code c = cell := by simpa using hcell
    simp [Cell.code]

/-- White space that is dropped from the end of a text is dropped down to its last token. -/
lemma EndsWith.dropWhile {prev : Option Token} {out : List Cell} (h : EndsWith out prev)
    {gap : List Char} (hgap : ∀ c ∈ gap, isSpace c = true) :
    ((gap.map Cell.code).reverse ++ out).dropWhile (fun cell => isSpace cell.char) = out := by
  rw [List.dropWhile_append_of_pos (by simpa using hgap)]
  cases prev with
  | none => rw [show out = [] from h, List.dropWhile_nil]
  | some t =>
      obtain ⟨cell, front, rfl, -, hspace⟩ := h.exists_last
      rw [List.dropWhile_cons_of_neg (by simp [hspace])]

/-- **Only a remark starts a line comment.** -/
lemma Token.slash_head {t : Token} (ht : t.Valid) {cell : Cell} {cells rest : List Cell}
    (hcells : t.cells = cell :: cells) (hjoins : ∀ d ∈ nextChar rest none, t.joins d = false) :
    (cell.char == '/' && (cells ++ rest).head?.any (·.char == '/')) = t.isRemark := by
  cases hremark : t.isRemark with
  | true =>
      obtain ⟨body, rfl⟩ := isRemark_iff.1 hremark
      obtain ⟨rfl, rfl⟩ := List.cons.inj hcells
      rfl
  | false =>
  by_contra hcomment
  simp only [Bool.not_eq_false, Bool.and_eq_true, beq_iff_eq] at hcomment
  obtain ⟨hslash, hnext⟩ := hcomment
  obtain rfl : t = .mark '/' :=
    eq_mark_of_head ht (by rw [hcells]; rfl) (by decide) (by decide) (.inr hremark) hslash
  obtain ⟨-, rfl⟩ := List.cons.inj hcells
  cases rest with
  | nil => simp at hnext
  | cons next rest =>
      have hfuses : fuses '/' next.char = false := hjoins next.char rfl
      simp [fuses, isHeeded, show next.char = '/' by simpa using hnext] at hfuses

/-- A mark is no white space. -/
lemma isCode_of_mem_gap {gap : List Char} (hgap : ∀ c ∈ gap, isSpace c = true) {c : Char}
    (hc : isSpace c = false) : ∀ cell ∈ gap.map Cell.code, cell.isCode c = false := by
  intro cell hcell
  obtain ⟨d, hd, rfl⟩ := List.mem_map.1 hcell
  rw [Bool.eq_false_iff, ne_eq, isCode_iff]
  intro heq
  obtain rfl : d = c := congrArg Cell.char heq
  simp [hgap d hd] at hc

/-- Nor is it found in another token. -/
lemma isCode_of_mem_token {t : Token} (ht : t.Valid) {c : Char}
    (hc : isWordChar c = false ∧ ∀ op ∈ operators, c ∉ op) (hne : t ≠ .mark c) :
    ∀ cell ∈ t.cells, cell.isCode c = false := by
  intro cell hcell
  rw [Bool.eq_false_iff]
  exact fun h => hne (t.eq_mark_of_isCode ht hcell hc h)

/-! ## Braces -/

/-- **Gaps beside braces.**  A remark may stay in the line of an opening brace. -/
def braceGap : GapRule := fun prev gap next =>
  if next = some (.mark '}') then
    if prev = none ∨ prev = some (.mark '{') then [] else ['\n']
  else if prev = some (.mark '{') then
    if next = none then []
    else if next.any Token.isRemark = true ∧ '\n' ∉ gap then [' '] else ['\n']
  else gap

/-- The state of the pass behind a token. -/
def openState (prev : Option Token) : Option Bool :=
  if prev = some (.mark '{') then some false else none

/-- Cells that are no braces are passed. -/
lemma bracesFrom_pass {block : List Cell} (hopen : ∀ cell ∈ block, cell.isCode '{' = false)
    (hclose : ∀ cell ∈ block, cell.isCode '}' = false) (out rest : List Cell) :
    bracesFrom out none (block ++ rest) = bracesFrom (block.reverse ++ out) none rest := by
  induction block generalizing out with
  | nil => rfl
  | cons cell block ih =>
      rw [List.forall_mem_cons] at hopen hclose
      rw [List.cons_append, bracesFrom, placeCell, hclose.1, gapAfter, hopen.1, List.reverse_cons,
        List.append_assoc]
      exact ih hopen.2 hclose.2 _

lemma bracesFrom_gap {gap : List Char} (h : ∀ c ∈ gap, isSpace c = true) (out rest : List Cell) :
    bracesFrom out none (gap.map Cell.code ++ rest)
      = bracesFrom ((gap.map Cell.code).reverse ++ out) none rest :=
  bracesFrom_pass (isCode_of_mem_gap h (by decide)) (isCode_of_mem_gap h (by decide)) out rest

/-- Behind an opening brace a gap is passed over. -/
lemma bracesFrom_skip {gap : List Char} (h : ∀ c ∈ gap, isSpace c = true) (out rest : List Cell)
    (crossed : Bool) : bracesFrom out (some crossed) (gap.map Cell.code ++ rest)
      = bracesFrom out (some (crossed || decide ('\n' ∈ gap))) rest := by
  induction gap generalizing crossed with
  | nil => simp
  | cons c gap ih =>
      obtain ⟨hc, hgap⟩ := List.forall_mem_cons.1 h
      rw [List.map_cons, List.cons_append, bracesFrom, char_code, if_pos hc, ih hgap, Bool.or_assoc]
      have hmem : (c == '\n' || decide ('\n' ∈ gap)) = decide ('\n' ∈ c :: gap) := by
        rw [Bool.beq_eq_decide_eq, ← Bool.decide_or]
        simp [eq_comm]
      rw [hmem]

/-- A token that is no closing brace is passed. -/
lemma bracesFrom_token {t : Token} (ht : t.Valid) (hne : t ≠ .mark '}') (out rest : List Cell) :
    bracesFrom out none (t.cells ++ rest)
      = bracesFrom (t.cells.reverse ++ out) (openState (some t)) rest := by
  by_cases hopen : t = .mark '{'
  · subst hopen
    rfl
  · have hstate : openState (some t) = none := by simp [openState, hopen]
    rw [hstate]
    exact bracesFrom_pass (isCode_of_mem_token ht (by decide) hopen)
      (isCode_of_mem_token ht (by decide) hne) out rest

/-- Behind an opening brace it starts a line, unless it is a remark in the same line. -/
lemma bracesFrom_opened {t : Token} (ht : t.Valid) (hne : t ≠ .mark '}') (out : List Cell)
    {rest : List Cell} (hjoins : ∀ d ∈ nextChar rest none, t.joins d = false) (crossed : Bool) :
    bracesFrom out (some crossed) (t.cells ++ rest)
      = bracesFrom (t.cells.reverse ++ .code (if t.isRemark && !crossed then ' ' else '\n') :: out)
          (openState (some t)) rest := by
  rw [← bracesFrom_token ht hne]
  obtain ⟨cell, cells, hcells⟩ := List.exists_cons_of_ne_nil (Token.cells_ne_nil ht)
  have hspace : isSpace cell.char = false := Token.isSpace_ends ht (.inl (by rw [hcells]; rfl))
  have hclose : cell.isCode '}' = false :=
    isCode_of_mem_token ht (by decide) hne cell (hcells ▸ List.mem_cons_self)
  have hbreak : gapBreak crossed cell (cells ++ rest).head?
      = .code (if t.isRemark && !crossed then ' ' else '\n') := by
    rw [gapBreak, Bool.and_right_comm, Token.slash_head ht hcells hjoins, apply_ite Cell.code]
  rw [hcells, List.cons_append, bracesFrom, bracesFrom, hspace, hclose, placeCell, hclose, hbreak]
  rfl

/-- **The braces pass on a layout.** -/
lemma bracesFrom_layout {prev : Option Token} {s : Layout} (h : Fitting prev s) {out : List Cell}
    (hout : EndsWith out prev) :
    bracesFrom out (openState prev) s.cells = out.reverse ++ (s.relay braceGap prev).cells := by
  induction s generalizing prev out with
  | last gap =>
      by_cases hprev : prev = some (.mark '{')
      · subst hprev
        have hskip := bracesFrom_skip h.isSpace out [] false
        rw [List.append_nil] at hskip
        exact hskip.trans (List.append_nil _).symm
      · have hgap := bracesFrom_gap h.isSpace out []
        rw [List.append_nil] at hgap
        simp only [openState, hprev, if_false, Layout.cells, Layout.relay, braceGap, hgap]
        simp [bracesFrom]
  | cons gap token rest ih =>
      obtain ⟨hfits, hvalid, hrest⟩ := h
      by_cases hclose : token = .mark '}'
      · subst hclose
        by_cases hprev : prev = some (.mark '{')
        · subst hprev
          have hskip := bracesFrom_skip hfits.isSpace out (.code '}' :: rest.cells) false
          have hclosed := ih hrest (.push hvalid rfl out)
          refine (hskip.trans hclosed).trans ?_
          simp [Layout.relay, Layout.cells, braceGap, Token.cells]
        · rw [openState, if_neg hprev, Layout.cells, bracesFrom_gap hfits.isSpace]
          have hdrop := hout.dropWhile hfits.isSpace
          have hbrace : bracesFrom ((gap.map Cell.code).reverse ++ out) none (.code '}' :: rest.cells)
              = bracesFrom (closeBrace ((gap.map Cell.code).reverse ++ out) (.code '}')) none rest.cells :=
            rfl
          refine hbrace.trans ?_
          rw [closeBrace, hdrop]
          cases prev with
          | none =>
              obtain rfl : out = [] := hout
              exact ih hrest (.push hvalid rfl [])
          | some t =>
              have hgap : braceGap (some t) gap (some (.mark '}')) = ['\n'] := by
                have hne : t ≠ .mark '{' := fun heq => hprev (congrArg some heq)
                simp [braceGap, hne]
              obtain ⟨cell, front, rfl, -, -⟩ := hout.exists_last
              have hclosed := ih hrest (.push hvalid rfl (.code '\n' :: cell :: front))
              rw [Layout.relay, hgap]
              refine hclosed.trans ?_
              simp [Layout.cells, Token.cells]
      · by_cases hprev : prev = some (.mark '{')
        · subst hprev
          have hskip := bracesFrom_skip hfits.isSpace out (token.cells ++ rest.cells) false
          have hopened := bracesFrom_opened hvalid hclose out hrest.joins (decide ('\n' ∈ gap))
          have hgap : braceGap (some (.mark '{')) gap (some token)
              = [if token.isRemark && !decide ('\n' ∈ gap) then ' ' else '\n'] := by
            simp only [braceGap, Option.some.injEq, hclose, if_false, if_true, reduceCtorEq, Option.any_some]
            split_ifs <;> simp_all
          have htoken := ih hrest (hout.push_gap (braceGap (some (.mark '{')) gap (some token))
            (by simp [Token.isRemark]) hvalid)
          rw [hgap] at htoken
          rw [Layout.relay, hgap]
          refine (hskip.trans (hopened.trans htoken)).trans ?_
          simp [Layout.cells]
        · have hgap : braceGap prev gap (some token) = gap := by simp [braceGap, hclose, hprev]
          have htoken := ih hrest (hout.push_gap gap (hfits.head?_of_remark (by simp)) hvalid)
          rw [Layout.relay, hgap, Layout.cells, openState, if_neg hprev, bracesFrom_gap hfits.isSpace,
            bracesFrom_token hvalid hclose, htoken]
          simp [Layout.cells]

lemma breakBraces_text {s : Layout} (h : Fitting none s) :
    breakBraces s.text = (s.relay braceGap none).text := by
  rw [breakBraces, h.label_text]
  exact congrArg chars (bracesFrom_layout h rfl)

/-! ## Commas -/

/-- What is left of a gap when a mark behind it is pulled back. -/
def pulledGap (prev : Option Token) : List Char := if prev.any Token.isRemark = true then ['\n'] else []

lemma reverse_pulledGap (prev : Option Token) :
    ((pulledGap prev).map Cell.code).reverse = (pulledGap prev).map Cell.code := by
  unfold pulledGap
  split_ifs <;> rfl

/-- **Gaps beside commas.** -/
def commaGap : GapRule := fun prev gap next =>
  if next = some (.mark ',') then pulledGap prev
  else if prev = some (.mark ',') ∧ '\n' ∉ gap then
    if next = none then [] else [' ']
  else gap

/-- A text that ends with a token ends in a line comment if the token is a remark. -/
lemma EndsWith.endsInLineComment_eq {prev : Option Token} {out : List Cell} (h : EndsWith out prev) :
    endsInLineComment out = prev.any Token.isRemark := by
  cases prev with
  | none => rw [show out = [] from h]; rfl
  | some t =>
      cases hremark : t.isRemark with
      | false =>
          obtain ⟨cell, front, rfl, hcell, -⟩ := h.exists_last
          have hkind := Token.kind_ne_comment h.1 hremark hcell
          simp [endsInLineComment, hkind, hremark]
      | true =>
          obtain ⟨-, front, rfl, hfront⟩ := h
          obtain ⟨body, rfl⟩ := Token.isRemark_iff.1 hremark
          have hstop : front.takeWhile (·.kind == .comment) = [] := by
            cases front with
            | nil => rfl
            | cons cell front => exact List.takeWhile_cons_of_neg (by simpa using hfront rfl cell rfl)
          have htake : ((Token.remark body).cells.reverse ++ front).takeWhile (·.kind == .comment)
              = (Token.remark body).cells.reverse := by
            rw [List.takeWhile_append_of_pos (by simpa using fun cell => Token.remark_kind), hstop,
              List.append_nil]
          rw [endsInLineComment, htake]
          simp [Token.cells, chars, Token.isRemark]

/-- **A mark is pulled back to the last token** over everything loose behind it, but for the line feed
that ends a remark. -/
lemma EndsWith.pullBack {prev : Option Token} {out : List Cell} (h : EndsWith out prev)
    {also : Char → Bool}
    (halso : ∀ t ∈ prev, ∀ cell ∈ t.cells, isLoose also cell = true → isSpace cell.char = true)
    {loose : List Cell} (hloose : ∀ cell ∈ loose, isLoose also cell = true)
    (hfeed : ∀ t ∈ prev, t.isRemark = true → loose.getLast? = some (.code '\n')) :
    pullBack also (loose ++ out) = (pulledGap prev).map Cell.code ++ out := by
  have hstop : out.dropWhile (isLoose also) = out ∧ out.takeWhile (isLoose also) = [] := by
    cases prev with
    | none => rw [show out = [] from h]; exact ⟨rfl, rfl⟩
    | some t =>
        obtain ⟨cell, front, rfl, hcell, hspace⟩ := h.exists_last
        have hfirm : ¬ isLoose also cell = true := fun hloose => by
          simp [halso t rfl cell hcell hloose] at hspace
        exact ⟨List.dropWhile_cons_of_neg hfirm, List.takeWhile_cons_of_neg hfirm⟩
  rw [SqfLayout.Pass.pullBack, List.dropWhile_append_of_pos hloose, List.takeWhile_append_of_pos hloose,
    hstop.1, hstop.2, List.append_nil, h.endsInLineComment_eq, pulledGap]
  cases prev with
  | none => rfl
  | some t =>
      cases hremark : t.isRemark with
      | false => simp [hremark]
      | true => simp [hremark, hfeed t rfl hremark]

lemma isLoose_of_mem_gap {gap : List Char} (h : ∀ c ∈ gap, isSpace c = true) (also : Char → Bool) :
    ∀ cell ∈ (gap.map Cell.code).reverse, isLoose also cell = true := by
  simpa [isLoose] using fun c hc => Or.inl (h c hc)

/-- Cells that are no commas are passed. -/
lemma commasFrom_pass {block : List Cell} (h : ∀ cell ∈ block, cell.isCode ',' = false)
    (out rest : List Cell) :
    commasFrom out false (block ++ rest) = commasFrom (block.reverse ++ out) false rest := by
  induction block generalizing out with
  | nil => rfl
  | cons cell block ih =>
      obtain ⟨hcell, hblock⟩ := List.forall_mem_cons.1 h
      rw [List.cons_append, commasFrom, placeComma, hcell, List.reverse_cons, List.append_assoc]
      exact ih hblock _

lemma commasFrom_gap {gap : List Char} (h : ∀ c ∈ gap, isSpace c = true) (out rest : List Cell) :
    commasFrom out false (gap.map Cell.code ++ rest)
      = commasFrom ((gap.map Cell.code).reverse ++ out) false rest :=
  commasFrom_pass (isCode_of_mem_gap h (by decide)) out rest

/-- Behind a comma blanks are dropped. -/
lemma commasFrom_blanks {gap : List Char} (h : ∀ c ∈ gap, isBlank c = true) (out rest : List Cell) :
    commasFrom out true (gap.map Cell.code ++ rest) = commasFrom out true rest := by
  induction gap with
  | nil => rfl
  | cons c gap ih =>
      obtain ⟨hc, hgap⟩ := List.forall_mem_cons.1 h
      rw [List.map_cons, List.cons_append, commasFrom, char_code, if_pos hc, ih hgap]

/-- Behind a comma a line feed is passed. -/
lemma commasFrom_feed (out rest : List Cell) :
    commasFrom out true (.code '\n' :: rest) = commasFrom out false (.code '\n' :: rest) := rfl

/-- Behind a comma a token gets a space. -/
lemma commasFrom_spaced {t : Token} (ht : t.Valid) (hne : t ≠ .mark ',') (out rest : List Cell) :
    commasFrom out true (t.cells ++ rest) = commasFrom (.code ' ' :: out) false (t.cells ++ rest) := by
  obtain ⟨cell, cells, hcells⟩ := List.exists_cons_of_ne_nil (Token.cells_ne_nil ht)
  have hspace : isSpace cell.char = false := Token.isSpace_ends ht (.inl (by rw [hcells]; rfl))
  have hcomma : cell.char ≠ ',' := fun hchar =>
    hne (t.eq_mark_of_head ht (by rw [hcells]; rfl) (by decide) (by decide) (.inl (by decide)) hchar)
  have hne {c : Char} (hc : isSpace c = true) : cell.char ≠ c := by
    rintro rfl
    simp [hspace] at hc
  have hblank : isBlank cell.char = false := by
    simp [isBlank, hne (c := ' ') (by decide), hne (c := '\t') (by decide)]
  have hseparate : separate out cell = .code ' ' :: out := by
    simp [separate, hcomma, hne (c := '\n') (by decide), hne (c := '\r') (by decide)]
  have hstep : commasFrom out true (cell :: (cells ++ rest))
      = commasFrom (placeComma (separate out cell) cell) (cell.isCode ',') (cells ++ rest) := by
    rw [commasFrom, hblank]
    rfl
  rw [hcells, List.cons_append, hstep, hseparate]
  rfl

lemma feed_notMem_of_blanks {gap : List Char} (h : ∀ c ∈ gap, isBlank c = true) : '\n' ∉ gap :=
  fun hmem => absurd (h _ hmem) (by decide)

/-- A gap of a tidy layout holds blanks, or it starts with a line feed. -/
lemma Fits.blanks_or_feed {prev next : Option Token} {gap : List Char} (h : Fits prev gap next) :
    (∀ c ∈ gap, isBlank c = true) ∨ ∃ rest, gap = '\n' :: rest := by
  rcases h.tidy with hblank | hfeed
  · exact .inl hblank
  · cases gap with
    | nil => exact .inl (by simp)
    | cons c rest =>
        rw [hfeed c List.mem_cons_self]
        exact .inr ⟨rest, rfl⟩

/-- **The commas pass on a layout.** -/
lemma commasFrom_layout {prev : Option Token} {s : Layout} (h : Fitting prev s) {out : List Cell}
    (hout : EndsWith out prev) :
    commasFrom out (prev == some (.mark ',')) s.cells
      = out.reverse ++ (s.relay commaGap prev).cells := by
  induction s generalizing prev out with
  | last gap =>
      have hpassed (gap : List Char) (hgap : ∀ c ∈ gap, isSpace c = true) :
          commasFrom out false (gap.map Cell.code) = out.reverse ++ gap.map Cell.code := by
        have hpass := commasFrom_gap hgap out []
        rw [List.append_nil] at hpass
        simp [hpass, commasFrom]
      by_cases hprev : prev = some (.mark ',')
      · subst hprev
        rcases h.blanks_or_feed with hblank | ⟨feeds, rfl⟩
        · have hdropped := commasFrom_blanks hblank out []
          rw [List.append_nil] at hdropped
          refine hdropped.trans ?_
          simp [Layout.relay, Layout.cells, commaGap, feed_notMem_of_blanks hblank, commasFrom]
        · refine (commasFrom_feed out _).trans ((hpassed _ h.isSpace).trans ?_)
          simp [Layout.relay, Layout.cells, commaGap]
      · have hstate : (prev == some (.mark ',')) = false := by simpa using hprev
        rw [hstate]
        refine (hpassed gap h.isSpace).trans ?_
        simp [Layout.relay, Layout.cells, commaGap, hprev]
  | cons gap token rest ih =>
      obtain ⟨hfits, hvalid, hrest⟩ := h
      -- a token behind a gap that has been passed
      have htoken (gap : List Char) (hgap : ∀ c ∈ gap, isSpace c = true)
          (hends : ∀ a ∈ prev, a.isRemark = true → gap.head? = some '\n') :
          commasFrom ((gap.map Cell.code).reverse ++ out) false (token.cells ++ rest.cells)
            = out.reverse ++ (Layout.cons (if token = .mark ',' then pulledGap prev else gap) token
              (rest.relay commaGap (some token))).cells := by
        by_cases hcomma : token = .mark ','
        · subst hcomma
          have hpulled : Pass.pullBack (fun _ => false) ((gap.map Cell.code).reverse ++ out)
              = (pulledGap prev).map Cell.code ++ out :=
            hout.pullBack (fun t _ cell _ hloose => by simp_all [isLoose]) (isLoose_of_mem_gap hgap _)
              fun a ha hremark => by simp [hends a ha hremark]
          have hplace : placeComma ((gap.map Cell.code).reverse ++ out) (.code ',')
              = .code ',' :: ((pulledGap prev).map Cell.code ++ out) :=
            congrArg (Cell.code ',' :: ·) hpulled
          have hstep := ih hrest (.push hvalid rfl ((pulledGap prev).map Cell.code ++ out))
          refine (congrArg (commasFrom · true rest.cells) hplace).trans (hstep.trans ?_)
          simp [Layout.cells, Token.cells, reverse_pulledGap]
        · have hpass := commasFrom_pass (isCode_of_mem_token hvalid (by decide) hcomma)
            ((gap.map Cell.code).reverse ++ out) rest.cells
          have hstep := ih hrest (hout.push_gap gap hends hvalid)
          have hstate : (some token == some (.mark ',')) = false := by simpa using hcomma
          rw [hstate] at hstep
          rw [hpass, hstep, if_neg hcomma]
          simp [Layout.cells]
      by_cases hprev : prev = some (.mark ',')
      · subst hprev
        rcases hfits.blanks_or_feed with hblank | ⟨feeds, rfl⟩
        · refine (commasFrom_blanks hblank out _).trans ?_
          by_cases hcomma : token = .mark ','
          · subst hcomma
            refine (htoken [] (by simp) (by simp [Token.isRemark])).trans ?_
            simp [Layout.relay, commaGap]
          · refine (commasFrom_spaced hvalid hcomma out _).trans
              ((htoken [' '] (by decide) (by simp [Token.isRemark])).trans ?_)
            simp [Layout.relay, commaGap, hcomma, feed_notMem_of_blanks hblank]
        · refine (commasFrom_feed out _).trans ((commasFrom_gap hfits.isSpace out _).trans
            ((htoken _ hfits.isSpace (by simp)).trans ?_))
          simp [Layout.relay, commaGap]
      · have hstate : (prev == some (.mark ',')) = false := by simpa using hprev
        rw [hstate]
        refine (commasFrom_gap hfits.isSpace out _).trans
          ((htoken gap hfits.isSpace (hfits.head?_of_remark (by simp))).trans ?_)
        simp [Layout.relay, commaGap, hprev]

lemma spaceCommas_text {s : Layout} (h : Fitting none s) :
    spaceCommas s.text = (s.relay commaGap none).text := by
  rw [spaceCommas, h.label_text]
  exact congrArg chars (commasFrom_layout h rfl)

/-! ## Semicolons -/

/-- **A layout with its semicolons joined**: none has a gap before it, unless a remark ends there, and only
one of several is left. -/
def Layout.joined : Option Token → Layout → Layout
  | _, .last gap => .last gap
  | prev, .cons gap token rest =>
    if token = .mark ';' then
      if prev = some (.mark ';') then rest.joined prev
      else .cons (pulledGap prev) token (rest.joined (some token))
    else .cons gap token (rest.joined (some token))

/-- A text whose last token is found also if semicolons are passed over. -/
def Joinable (out : List Cell) (prev : Option Token) : Prop :=
  EndsWith out prev ∧ (prev = some (.mark ';') →
    ∃ out' prev', out = .code ';' :: ((pulledGap prev').map Cell.code ++ out') ∧ EndsWith out' prev'
      ∧ prev' ≠ some (.mark ';'))

lemma isLoose_of_mem_pulledGap (prev : Option Token) (also : Char → Bool) :
    ∀ cell ∈ (pulledGap prev).map Cell.code, isLoose also cell = true := by
  unfold pulledGap
  split_ifs
  · simp [isLoose, show isSpace '\n' = true by decide]
  · simp

lemma foldl_placeSemicolon_pass {block : List Cell} (h : ∀ cell ∈ block, cell.isCode ';' = false)
    (out : List Cell) : block.foldl placeSemicolon out = block.reverse ++ out := by
  induction block generalizing out with
  | nil => rfl
  | cons cell block ih =>
      obtain ⟨hcell, hblock⟩ := List.forall_mem_cons.1 h
      rw [List.foldl_cons, placeSemicolon, hcell, List.reverse_cons, List.append_assoc]
      exact ih hblock _

/-- **The semicolons pass on a layout.** -/
lemma foldl_placeSemicolon_layout {prev : Option Token} {s : Layout} (h : Fitting prev s)
    {out : List Cell} (hout : Joinable out prev) :
    s.cells.foldl placeSemicolon out = (s.joined prev).cells.reverse ++ out := by
  have hgap {gap : List Char} (hspace : ∀ c ∈ gap, isSpace c = true) (out : List Cell) :
      (gap.map Cell.code).foldl placeSemicolon out = (gap.map Cell.code).reverse ++ out :=
    foldl_placeSemicolon_pass (isCode_of_mem_gap hspace (by decide)) out
  -- a text that does not end with a semicolon has nothing else to pass over
  have hfirm {prev : Option Token} {out : List Cell} (hout : EndsWith out prev)
      (hprev : prev ≠ some (.mark ';')) {loose : List Cell}
      (hloose : ∀ cell ∈ loose, isLoose (· == ';') cell = true)
      (hfeed : ∀ t ∈ prev, t.isRemark = true → loose.getLast? = some (.code '\n')) :
      Pass.pullBack (· == ';') (loose ++ out) = (pulledGap prev).map Cell.code ++ out := by
    refine hout.pullBack (fun t ht cell hcell hcode => ?_) hloose hfeed
    obtain rfl := Option.mem_def.1 ht
    have hne : t ≠ .mark ';' := fun heq => hprev (congrArg some heq)
    have hnot := isCode_of_mem_token hout.1 (by decide) hne cell hcell
    simp only [isLoose, Bool.and_eq_true, Bool.or_eq_true] at hcode
    simpa [Cell.isCode, hcode.1] using hcode.2.resolve_right (by simpa [Cell.isCode, hcode.1] using hnot)
  induction s generalizing prev out with
  | last gap => exact hgap h.isSpace out
  | cons gap token rest ih =>
      obtain ⟨hfits, hvalid, hrest⟩ := h
      rw [Layout.cells, List.foldl_append, List.foldl_append, hgap hfits.isSpace]
      by_cases hsemicolon : token = .mark ';'
      · subst hsemicolon
        have hplace (out' : List Cell)
            (hpull : Pass.pullBack (· == ';') ((gap.map Cell.code).reverse ++ out) = out') :
            (Token.mark ';').cells.foldl placeSemicolon ((gap.map Cell.code).reverse ++ out)
              = .code ';' :: out' :=
          congrArg (Cell.code ';' :: ·) hpull
        by_cases hprev : prev = some (.mark ';')
        · subst hprev
          obtain ⟨out', prev', rfl, hout', hprev'⟩ := hout.2 rfl
          have hloose : ∀ cell ∈ (gap.map Cell.code).reverse
              ++ (.code ';' :: (pulledGap prev').map Cell.code), isLoose (· == ';') cell = true :=
            List.forall_mem_append.2 ⟨isLoose_of_mem_gap hfits.isSpace _,
              List.forall_mem_cons.2 ⟨by simp [isLoose], isLoose_of_mem_pulledGap prev' _⟩⟩
          have hpulled := hfirm hout' hprev' hloose fun a ha hremark => by
            simp [pulledGap, Option.mem_def.1 ha, hremark]
          rw [List.append_assoc, List.cons_append] at hpulled
          rw [hplace _ hpulled, ih hrest hout, Layout.joined, if_pos rfl, if_pos rfl]
        · have hpulled := hfirm hout.1 hprev (isLoose_of_mem_gap hfits.isSpace _) fun a ha hremark => by
            simp [hfits.head?_of_remark (by simp) a ha hremark]
          have hjoinable : Joinable (.code ';' :: ((pulledGap prev).map Cell.code ++ out)) (some (.mark ';')) :=
            ⟨.push hvalid rfl _, fun _ => ⟨out, prev, rfl, hout.1, hprev⟩⟩
          rw [hplace _ hpulled, ih hrest hjoinable, Layout.joined, if_pos rfl, if_neg hprev]
          simp [Layout.cells, Token.cells, reverse_pulledGap]
      · rw [foldl_placeSemicolon_pass (isCode_of_mem_token hvalid (by decide) hsemicolon),
          ih hrest ⟨hout.1.push_gap gap (hfits.head?_of_remark (by simp)) hvalid,
            fun heq => absurd (Option.some.inj heq) hsemicolon⟩]
        simp [Layout.joined, hsemicolon, Layout.cells]

lemma joinSemicolons_text {s : Layout} (h : Fitting none s) :
    joinSemicolons s.text = (s.joined none).text := by
  rw [joinSemicolons, h.label_text, foldl_placeSemicolon_layout h ⟨rfl, by simp⟩, List.append_nil,
    List.reverse_reverse]
  rfl

end SqfLayout
