import SqfLayout.Proofs.GapRules
import SqfLayout.Proofs.Keywords

/-!
# Headers hidden in literals and remarks

The passes over headers look into literals and remarks as well.

**Literals.**  In a plain literal no header starts or ends, so nothing that is found reaches into one or
out of one.

**Remarks.**  A remark ends with its line, but white space over lines may stand within a header, and what
follows the remark could go on with one that the remark seems to start.  `Token.Plain` excludes that: where
the tokens behind go on with a header (`goesOn`), the remark does not end like a part of one (`endsOpen`).
Then nothing is read from a plain remark either (`wordMark?_remark`, `conditionalTail?_remark`,
`alternative?_remark`, `loopTail?_remark`).
-/

namespace SqfLayout

open SqfLayout.Text SqfLayout.Scan SqfLayout.Pass

/-! ## Plain tokens -/

/-- The words of headers. -/
def headerWords : List (List Char) :=
  [['i', 'f'], ['w', 'h', 'i', 'l', 'e']] ++ branchWords ++ otherWords ++ bodyWords

/-- Whether tokens can go on with a header: with a mark behind one of its words, or with a word and a
brace. -/
def goesOn (behind : List Token) : Bool :=
  behind.head? == some (.mark '(') || behind.head? == some (.mark '{')
    || behind.head?.any (fun t => headerWords.any t.isKeyword) && behind[1]? == some (.mark '{')

/-- Whether tokens end a loop: a brace, a word and a brace. -/
def endsLoop (behind : List Token) : Bool :=
  behind.head? == some (.mark '}') && behind[1]?.any (fun t => bodyWords.any t.isKeyword)
    && behind[2]? == some (.mark '{')

/-- Whether a text ends like a part of a header: with a closing mark or a word. -/
def endsOpen (body : List Char) : Bool :=
  body.getLast? == some ')' || body.getLast? == some '}'
    || headerWords.any fun word => word.isSuffixOf (body.map foldCase)

/-- A text, in a literal or a remark, in which no header can start or end. -/
def Headerless (kind : CharClass) (body : List Char) : Prop :=
  '{' ∉ body ∧ ∀ back ∈ body.tails, wordMark? ['i', 'f'] '(' (back.map fun c => ⟨c, kind⟩) = none

instance (kind : CharClass) (body : List Char) : Decidable (Headerless kind body) :=
  inferInstanceAs (Decidable (_ ∧ _))

/-- **A token that hides no header** before the given ones. -/
def Token.Plain (behind : List Token) : Token → Prop
  | .literal _ body => Headerless .literal body
  | .remark body =>
    Headerless .comment body ∧ (goesOn behind = true → endsOpen body = false) ∧ endsLoop behind = false
  | _ => True

instance (behind : List Token) : (t : Token) → Decidable (t.Plain behind)
  | .literal _ body => inferInstanceAs (Decidable (Headerless .literal body))
  | .remark _ => inferInstanceAs (Decidable (_ ∧ _ ∧ _))
  | .word _ | .operator _ | .mark _ => inferInstanceAs (Decidable True)

/-- Tokens none of which hides a header. -/
def PlainTokens : List Token → Prop
  | [] => True
  | t :: behind => t.Plain behind ∧ PlainTokens behind

instance : (tokens : List Token) → Decidable (PlainTokens tokens)
  | [] => inferInstanceAs (Decidable True)
  | t :: behind =>
    have : Decidable (PlainTokens behind) := instDecidablePlainTokens behind
    inferInstanceAs (Decidable (t.Plain behind ∧ PlainTokens behind))

lemma PlainTokens.of_suffix {back tokens : List Token} (h : PlainTokens tokens) (hback : back <:+ tokens) :
    PlainTokens back := by
  induction tokens with
  | nil => rw [List.suffix_nil.1 hback]; exact h
  | cons t tokens ih =>
      rcases List.suffix_cons_iff.1 hback with rfl | hback
      · exact h
      · exact ih h.2 hback

namespace Layout

/-- The tokens of a layout. -/
def tokens : Layout → List Token
  | last _ => []
  | cons _ token rest => token :: rest.tokens

/-- A layout whose literals and remarks hide no headers. -/
def Plain (s : Layout) : Prop := PlainTokens s.tokens

instance (s : Layout) : Decidable s.Plain := inferInstanceAs (Decidable (PlainTokens s.tokens))

end Layout

lemma isKeyword_of_mem : ∀ word ∈ headerWords, IsKeyword word := by decide

/-- Where no brace stands, no word with one is read. -/
lemma wordBrace?_eq_none {word : List Char} {cells : List Cell} (h : ∀ cell ∈ cells, cell.char ≠ '{') :
    wordMark? word '{' cells = none := by
  by_contra hsome
  obtain ⟨⟨keyword, space, rest⟩, hfound⟩ := Option.ne_none_iff_exists'.1 hsome
  obtain ⟨mark, rfl, -, -, hmark⟩ := wordMark?_eq_some hfound
  exact h mark (by simp) hmark

/-! ## Literals -/

/-- **What is read from within a literal up to a mark ends within it**, if no quote is read. -/
lemma mem_of_read {part rest lits more : List Cell} {quote mark : Cell}
    (h : part ++ mark :: rest = lits ++ quote :: more) (hpart : quote ∉ part) (hne : mark ≠ quote) :
    ∃ tail, lits = part ++ mark :: tail := by
  obtain ⟨extra, hlits, hextra⟩ | ⟨tail, hpart', htail⟩ := List.append_eq_append_iff.1 h
  · cases extra with
    | nil => exact absurd (List.cons.inj hextra).1 hne
    | cons first extra =>
        obtain ⟨rfl, -⟩ := List.cons.inj hextra
        exact ⟨extra, hlits⟩
  · cases tail with
    | nil => exact absurd (List.cons.inj htail).1.symm hne
    | cons first tail =>
        obtain ⟨rfl, -⟩ := List.cons.inj htail
        exact absurd (hpart' ▸ by simp) hpart

section Literals

variable {quote : Char} (hquote : quote = '\'' ∨ quote = '"') {lits : List Cell} (more : List Cell)

include hquote

lemma notMem_allSpace {cells : List Cell} (h : AllSpace cells) : (⟨quote, .literal⟩ : Cell) ∉ cells := by
  intro hmem
  have hspace := h _ hmem
  rcases hquote with rfl | rfl <;> exact absurd hspace (by decide)

lemma notMem_spelled {word : List Char} {cells : List Cell} (h : Spelled word cells)
    (hword : word.all Char.isLower = true) : (⟨quote, .literal⟩ : Cell) ∉ cells := by
  intro hmem
  have hplain := (h.inert hword _ hmem).1
  rcases hquote with rfl | rfl <;> exact absurd hplain (by decide)

lemma ne_quote {cell : Cell} {c : Char} (hchar : cell.char = c) (hc : c ≠ '\'' ∧ c ≠ '"') :
    cell ≠ ⟨quote, .literal⟩ := by
  rintro rfl
  obtain rfl : quote = c := hchar
  rcases hquote with rfl | rfl
  · exact hc.1 rfl
  · exact hc.2 rfl

/-- A brace that is read from within a literal, with no quote before it, belongs to the literal. -/
lemma brace_of_read {part rest : List Cell} {brace : Cell}
    (hcells : lits ++ ⟨quote, .literal⟩ :: more = part ++ brace :: rest)
    (hpart : (⟨quote, .literal⟩ : Cell) ∉ part) (hbrace : brace.char = '{') :
    ∃ cell ∈ lits, cell.char = '{' := by
  obtain ⟨tail, rfl⟩ := mem_of_read hcells.symm hpart (ne_quote hquote hbrace (by decide))
  exact ⟨brace, by simp, hbrace⟩

/-- A word and a mark that are read from within a literal lie within it. -/
lemma wordMark?_literal {word : List Char} (hword : word.all Char.isLower = true) {c : Char}
    (hc : IsBracket c) (h : wordMark? word c lits = none) :
    wordMark? word c (lits ++ ⟨quote, .literal⟩ :: more) = none := by
  by_contra hsome
  obtain ⟨⟨keyword, space, rest⟩, hfound⟩ := Option.ne_none_iff_exists'.1 hsome
  obtain ⟨mark, hcells, hspelled, hspace, hmark⟩ := wordMark?_eq_some hfound
  have hsplit : (keyword ++ space) ++ mark :: rest = lits ++ ⟨quote, .literal⟩ :: more := by
    rw [hcells, List.append_assoc]
  have hpart : (⟨quote, .literal⟩ : Cell) ∉ keyword ++ space := by
    simp [notMem_spelled hquote hspelled hword, notMem_allSpace hquote hspace]
  obtain ⟨tail, rfl⟩ := mem_of_read hsplit hpart (ne_quote hquote hmark hc.2.2.1)
  rw [List.append_assoc, wordMark?_of_spelled hspelled hspace hmark hc.1] at h
  simp at h

variable (hlits : ∀ cell ∈ lits, cell.char ≠ '{')

include hlits

/-- No condition ends within a literal. -/
lemma conditionalTail?_literal : conditionalTail? (lits ++ ⟨quote, .literal⟩ :: more) = none := by
  by_contra hsome
  obtain ⟨⟨gap₂, branch, gap₃⟩, hfound⟩ := Option.ne_none_iff_exists'.1 hsome
  obtain ⟨closing, brace, rest, hcells, hclosing, hgap₂, hbranch, hgap₃, hbrace⟩ :=
    conditionalTail?_eq_some hfound
  have hsplit : lits ++ ⟨quote, .literal⟩ :: more
      = (closing :: (gap₂ ++ (branch ++ gap₃))) ++ brace :: rest := by simpa using hcells
  have hword : (⟨quote, .literal⟩ : Cell) ∉ branch :=
    hbranch.elim (notMem_spelled hquote · (by decide)) (notMem_spelled hquote · (by decide))
  have hpart : (⟨quote, .literal⟩ : Cell) ∉ closing :: (gap₂ ++ (branch ++ gap₃)) := by
    simp [(ne_quote hquote hclosing (by decide)).symm, notMem_allSpace hquote hgap₂, hword,
      notMem_allSpace hquote hgap₃]
  obtain ⟨cell, hcell, hchar⟩ := brace_of_read hquote more hsplit hpart hbrace
  exact hlits cell hcell hchar

lemma loopTail?_literal (last : Option Char) :
    loopTail? last (lits ++ ⟨quote, .literal⟩ :: more) = none := by
  by_contra hsome
  obtain ⟨⟨gap₃, gap₄, body, gap₅⟩, hfound⟩ := Option.ne_none_iff_exists'.1 hsome
  obtain ⟨closing, brace, rest, hcells, -, hgap₃, hclosing, hgap₄, hbody, hgap₅, hbrace⟩ :=
    loopTail?_eq_some hfound
  have hsplit : lits ++ ⟨quote, .literal⟩ :: more
      = (gap₃ ++ closing :: (gap₄ ++ (body ++ gap₅))) ++ brace :: rest := by simpa using hcells
  have hpart : (⟨quote, .literal⟩ : Cell) ∉ gap₃ ++ closing :: (gap₄ ++ (body ++ gap₅)) := by
    simp [(ne_quote hquote hclosing (by decide)).symm, notMem_allSpace hquote hgap₃,
      notMem_allSpace hquote hgap₄, notMem_spelled hquote hbody (by decide), notMem_allSpace hquote hgap₅]
  obtain ⟨cell, hcell, hchar⟩ := brace_of_read hquote more hsplit hpart hbrace
  exact hlits cell hcell hchar

lemma alternative?_literal : alternative? (lits ++ ⟨quote, .literal⟩ :: more) = none := by
  by_contra hsome
  obtain ⟨h, hfound⟩ := Option.ne_none_iff_exists'.1 hsome
  obtain ⟨closing, brace, rest, hcells, hspells⟩ := alternative?_spells hfound
  have hsplit : lits ++ ⟨quote, .literal⟩ :: more
      = (closing :: (h.gap₁ ++ (h.keyword ++ h.gap₂))) ++ brace :: rest := by
    simpa [Alternative.cells] using hcells
  have hpart : (⟨quote, .literal⟩ : Cell) ∉ closing :: (h.gap₁ ++ (h.keyword ++ h.gap₂)) := by
    simp [(ne_quote hquote hspells.closing (by decide)).symm, notMem_allSpace hquote hspells.gap₁,
      notMem_spelled hquote hspells.keyword (by decide), notMem_allSpace hquote hspells.gap₂]
  obtain ⟨cell, hcell, hchar⟩ := brace_of_read hquote more hsplit hpart hspells.brace
  exact hlits cell hcell hchar

/-- No loop starts within a literal. -/
lemma wordBrace?_literal {word : List Char} (hword : word.all Char.isLower = true) :
    wordMark? word '{' (lits ++ ⟨quote, .literal⟩ :: more) = none :=
  wordMark?_literal hquote more hword (by decide) (wordBrace?_eq_none hlits)

end Literals

/-- A part of a literal up to its end. -/
lemma literal_split {quote : Char} {body : List Char} {front back : List Cell} {cell : Cell}
    (h : (Token.literal quote body).cells = front ++ cell :: back) :
    ∃ lits, cell :: back = lits ++ [⟨quote, .literal⟩]
      ∧ front ++ lits = (quote :: body).map fun c => (⟨c, .literal⟩ : Cell) := by
  have hcells : ((quote :: body).map fun c => (⟨c, .literal⟩ : Cell)) ++ [⟨quote, .literal⟩]
      = front ++ cell :: back := by
    rw [← h, Token.cells]
    simp
  obtain ⟨lits, last, hlits⟩ : ∃ lits last, cell :: back = lits ++ [last] :=
    ⟨_, _, (List.dropLast_append_getLast (List.cons_ne_nil cell back)).symm⟩
  rw [hlits, ← List.append_assoc] at hcells
  obtain ⟨hfront, hlast⟩ := List.append_inj' hcells rfl
  obtain rfl : last = ⟨quote, .literal⟩ := (List.singleton_inj.1 hlast).symm
  exact ⟨lits, hlits, hfront.symm⟩

/-- No brace stands in a part of a plain literal. -/
lemma char_ne_brace {quote : Char} {body : List Char} (ht : (Token.literal quote body).Valid)
    (hplain : Headerless .literal body) {front lits : List Cell}
    (hlits : front ++ lits = (quote :: body).map fun c => (⟨c, .literal⟩ : Cell)) :
    ∀ cell ∈ lits, cell.char ≠ '{' := by
  intro cell hcell
  have hmem : cell ∈ (quote :: body).map fun c => (⟨c, .literal⟩ : Cell) := by
    rw [← hlits]
    exact List.mem_append_right _ hcell
  obtain ⟨c, hc, rfl⟩ := List.mem_map.1 hmem
  rintro rfl
  rcases List.mem_cons.1 hc with rfl | hbody
  · simpa using ht.1
  · exact hplain.1 hbody

/-! ## Remarks -/

section Remarks

variable {body : List Char} {front part : List Cell} {s : Layout}

/-- The parts that a text starts with are read from its front as they are from the front alone, up to a
place where no word goes on. -/
lemma keyword?_append {word : List Char} (hword : ∀ c ∈ word, c.toNat < 128 ∧ isWordChar c = true)
    {rest : List Cell} (hrest : ∀ cell ∈ rest.head?, isWordChar cell.char = false) :
    keyword? word (part ++ rest) = (keyword? word part).map fun read => (read.1, read.2 ++ rest) := by
  induction part generalizing word with
  | nil =>
      cases word with
      | nil => rfl
      | cons c word =>
          cases rest with
          | nil => rfl
          | cons cell rest => exact keyword?_of_not_word ⟨by simp, hword⟩ (hrest cell rfl) rest
  | cons cell part ih =>
      cases word with
      | nil => rfl
      | cons c word =>
          rw [List.cons_append, keyword?, keyword?, ih (List.forall_mem_cons.1 hword).2]
          split_ifs
          · simp [Function.comp_def]
          · rfl

/-- White space at the front of a text that does not end with white space. -/
lemma gap_part (hpart : part ≠ []) (hlast : ∀ cell ∈ part.getLast?, isSpace cell.char = false)
    (rest : List Cell) : (gap (part ++ rest)).2 = (gap part).2 ++ rest ∧ (gap part).2 ≠ [] := by
  have hne : part.dropWhile (fun cell => isSpace cell.char) ≠ [] := by
    rw [ne_eq, List.dropWhile_eq_nil_iff]
    intro hall
    have hmem := List.getLast_mem hpart
    have hspace := hlast _ (List.getLast?_eq_some_getLast hpart)
    simp [hall _ hmem] at hspace
  simp only [gap, List.span_eq_takeWhile_dropWhile, List.dropWhile_append]
  exact ⟨if_neg (by simpa using hne), hne⟩

lemma afterMark?_append (c : Char) (hpart : part ≠ []) (rest : List Cell) :
    afterMark? c (part ++ rest) = (afterMark? c part).map (· ++ rest) := by
  obtain ⟨cell, part, rfl⟩ := List.exists_cons_of_ne_nil hpart
  rw [List.cons_append, afterMark?, afterMark?]
  split_ifs <;> rfl

lemma keyword?_suffix {word : List Char} {cells : List Cell} {read : List Cell × List Cell}
    (h : keyword? word cells = some read) : read.2 <:+ cells := by
  obtain ⟨rfl, -⟩ := keyword?_eq_some h
  exact List.suffix_append _ _

lemma ends_of_suffix {back : List Cell} (hback : back <:+ part) (hne : back ≠ [])
    (hlast : ∀ cell ∈ part.getLast?, isSpace cell.char = false) :
    ∀ cell ∈ back.getLast?, isSpace cell.char = false := by
  obtain ⟨front, rfl⟩ := hback
  rwa [List.getLast?_append_of_ne_nil _ hne] at hlast

/-- **A word and a mark that are read from the end of a line** are read within it, or the line ends with
the word. -/
lemma wordMark?_append {prev : Option Token} (hs : Fitting prev s)
    (hhead : ∀ cell ∈ s.cells.head?, isWordChar cell.char = false) {word : List Char} (hword : IsKeyword word)
    {c : Char} (hc : IsBracket c) (hlast : ∀ cell ∈ part.getLast?, isSpace cell.char = false)
    (hpart : wordMark? word c part = none) (hopen : Spelled word part → s.after? c = none) :
    wordMark? word c (part ++ s.cells) = none := by
  simp only [wordMark?, Option.bind_eq_bind, keyword?_append hword.2 hhead] at hpart ⊢
  cases hread : keyword? word part with
  | none => rfl
  | some read =>
      simp only [hread, Option.bind_some, Option.map_some] at hpart ⊢
      by_cases hend : read.2 = []
      · have hspelled : Spelled word part := by
          obtain ⟨hcells, hspelled⟩ := keyword?_eq_some hread
          rw [hend, List.append_nil] at hcells
          rwa [hcells]
        simp [hend, hs.gap_cells, hs.afterMark?_behind hc, hopen hspelled]
      · obtain ⟨hgap, hne⟩ := gap_part hend (ends_of_suffix (keyword?_suffix hread) hend hlast) s.cells
        rw [hgap, afterMark?_append c hne]
        cases hmark : afterMark? c (gap read.2).2 with
        | none => rfl
        | some behind => simp [hmark] at hpart

/-- No word goes on behind a remark. -/
lemma Fitting.head_of_remark (h : Fitting (some (.remark body)) s) :
    ∀ cell ∈ s.cells.head?, isWordChar cell.char = false := by
  intro cell hcell
  have hjoins : (cell.char != '\n') = false := h.joins cell.char (by
    obtain ⟨cells, hcells⟩ := List.head?_eq_some_iff.1 hcell
    rw [hcells]
    rfl)
  rw [bne_eq_false_iff_eq] at hjoins
  rw [hjoins]
  decide

/-- A word of a header at the end of a remark. -/
lemma endsOpen_of_spelled (hsuffix : part <:+ (Token.remark body).cells) {word : List Char}
    (hword : word ∈ headerWords) (hspelled : Spelled word part) : endsOpen body = true := by
  have hlower : ∀ word ∈ headerWords, '/' ∉ word ∧ word ≠ [] := by decide
  obtain ⟨hslash, hne⟩ := hlower word hword
  have hfold : foldCase '/' = '/' := by decide
  have hspelled : (chars part).map foldCase = word := by
    rw [chars, List.map_map]
    exact hspelled
  have hchars : chars part <:+ '/' :: '/' :: body := by
    have hmap := hsuffix.map Cell.char
    rwa [Token.cells, List.map_map, Function.comp_def, List.map_id'] at hmap
  -- the slashes are no part of the word
  have hstep {text : List Char} (h : chars part <:+ '/' :: text) : chars part <:+ text := by
    refine (List.suffix_cons_iff.1 h).resolve_left fun heq => hslash ?_
    rw [← hspelled, heq, List.map_cons, hfold]
    exact List.mem_cons_self
  have hbody := (hstep (hstep hchars)).map foldCase
  rw [hspelled] at hbody
  have hany : (headerWords.any fun word => word.isSuffixOf (body.map foldCase)) = true :=
    List.any_eq_true.2 ⟨word, hword, List.isSuffixOf_iff_suffix.2 hbody⟩
  simp [endsOpen, hany]

lemma goesOn_of_after? {c : Char} (hc : c = '(' ∨ c = '{') {rest : Layout} (h : s.after? c = some rest) :
    goesOn s.tokens = true := by
  cases s with
  | last gap => simp [Layout.after?] at h
  | cons gap token behind =>
      rw [Layout.after?, Option.ite_none_right_eq_some] at h
      rcases hc with rfl | rfl <;> simp [goesOn, Layout.tokens, h.1]

lemma goesOn_of_turn? {words : List (List Char)} (hwords : words ⊆ headerWords)
    (h : (s.turn? words '{').isSome = true) : goesOn s.tokens = true := by
  cases s with
  | last gap => simp [Layout.turn?] at h
  | cons gap token rest =>
      rw [Layout.turn?] at h
      split at h
      · next hword =>
          have hheader : headerWords.any token.isKeyword = true := by
            obtain ⟨word, hmem, hword⟩ := List.any_eq_true.1 hword
            exact List.any_eq_true.2 ⟨word, hwords hmem, hword⟩
          cases rest with
          | last gap' => simp [Layout.after?] at h
          | cons gap' next body =>
              have hnext : next = .mark '{' := by
                by_contra hne
                simp [Layout.after?, hne] at h
              simp [goesOn, Layout.tokens, hheader, hnext]
      · simp at h

/-- A part of a remark at its end. -/
lemma remark_ends (hvalid : (Token.remark body).Valid) (hsuffix : part <:+ (Token.remark body).cells)
    (hne : part ≠ []) : ∀ cell ∈ part.getLast?, isSpace cell.char = false := by
  refine ends_of_suffix hsuffix hne fun cell hcell => ?_
  exact Token.isSpace_ends hvalid (.inr hcell)

lemma remark_brace (hbody : '{' ∉ body) (hsuffix : part <:+ (Token.remark body).cells) :
    ∀ cell ∈ part, cell.char ≠ '{' := by
  intro cell hcell
  obtain ⟨c, hc, rfl⟩ := List.mem_map.1 (hsuffix.subset hcell)
  rintro rfl
  simp [hbody] at hc

lemma gap_suffix (cells : List Cell) : (gap cells).2 <:+ cells := ⟨(gap cells).1, (gap_append cells).symm⟩

variable (hvalid : (Token.remark body).Valid) (hplain : (Token.remark body).Plain s.tokens)
  (hs : Fitting (some (.remark body)) s)

include hvalid hplain hs

/-- **A word and a mark are not read from within a remark**, if they do not stand there. -/
lemma wordMark?_remark {word : List Char} (hword : word ∈ headerWords) {c : Char} (hc : c = '(' ∨ c = '{')
    (hsuffix : part <:+ (Token.remark body).cells) (hne : part ≠ []) (hpart : wordMark? word c part = none) :
    wordMark? word c (part ++ s.cells) = none := by
  have hbracket : IsBracket c := by rcases hc with rfl | rfl <;> decide
  refine wordMark?_append hs hs.head_of_remark (isKeyword_of_mem word hword) hbracket
    (remark_ends hvalid hsuffix hne) hpart fun hspelled => ?_
  cases hafter : s.after? c with
  | none => rfl
  | some rest =>
      have hopen := hplain.2.1 (goesOn_of_after? hc hafter)
      simp [endsOpen_of_spelled hsuffix hword hspelled] at hopen

lemma wordBrace?_remark {word : List Char} (hword : word ∈ headerWords)
    (hsuffix : part <:+ (Token.remark body).cells) (hne : part ≠ []) :
    wordMark? word '{' (part ++ s.cells) = none :=
  wordMark?_remark hvalid hplain hs hword (.inr rfl) hsuffix hne
    (wordBrace?_eq_none (remark_brace hplain.1.1 hsuffix))

/-- No word and no brace follow a closing mark within a remark. -/
lemma wordBrace?_behind {closing : Cell} (hclosing : closing.char = ')' ∨ closing.char = '}')
    (hsuffix : closing :: part <:+ (Token.remark body).cells) {word : List Char} (hword : word ∈ headerWords) :
    wordMark? word '{' (gap (part ++ s.cells)).2 = none := by
  have hback : part <:+ (Token.remark body).cells := (List.suffix_cons _ _).trans hsuffix
  by_cases hnil : part = []
  · subst hnil
    rw [List.nil_append, hs.gap_cells, hs.wordMark?_behind (isKeyword_of_mem word hword) (by decide),
      Option.map_eq_none_iff, ← Option.not_isSome_iff_eq_none]
    intro hturn
    have hopen := hplain.2.1 (goesOn_of_turn? (by simpa using hword) hturn)
    have hbody : body.getLast? = some closing.char := by
      have hlast : (Token.remark body).cells.getLast? = some closing := by
        obtain ⟨front, hcells⟩ := hsuffix
        rw [← hcells, List.getLast?_concat]
      rw [Token.cells, List.getLast?_map] at hlast
      obtain ⟨c, hc, rfl⟩ := Option.map_eq_some_iff.1 hlast
      cases body with
      | nil =>
          obtain rfl := Option.some.inj hc
          simp at hclosing
      | cons d body => simpa using hc
    rcases hclosing with hchar | hchar <;> simp [endsOpen, hbody, hchar] at hopen
  · obtain ⟨hgap, hne⟩ := gap_part hnil (remark_ends hvalid hback hnil) s.cells
    rw [hgap]
    exact wordBrace?_remark hvalid hplain hs hword ((gap_suffix part).trans hback) hne

/-- No condition ends within a remark. -/
lemma conditionalTail?_remark {cell : Cell} {back : List Cell}
    (hsuffix : cell :: back <:+ (Token.remark body).cells) : conditionalTail? (cell :: (back ++ s.cells)) = none := by
  by_cases hclosing : cell.char = ')'
  · have hread {word : List Char} (hword : word ∈ headerWords) :=
      wordBrace?_behind hvalid hplain hs (.inl hclosing) hsuffix hword
    have hafter : afterMark? ')' (cell :: (back ++ s.cells)) = some (back ++ s.cells) := by
      simp [afterMark?, hclosing]
    rw [conditionalTail?_eq, hafter, Option.bind_some, hread (by decide), hread (by decide)]
    rfl
  · simp [conditionalTail?, afterMark?, hclosing]

lemma alternative?_remark {cell : Cell} {back : List Cell} (hsuffix : cell :: back <:+ (Token.remark body).cells) :
    alternative? (cell :: (back ++ s.cells)) = none := by
  by_cases hclosing : cell.char = '}'
  · have hafter : afterMark? '}' (cell :: (back ++ s.cells)) = some (back ++ s.cells) := by
      simp [afterMark?, hclosing]
    rw [alternative?_eq, hafter, Option.bind_some,
      wordBrace?_behind hvalid hplain hs (.inr hclosing) hsuffix (by decide)]
    rfl
  · simp [alternative?, afterMark?, hclosing]

lemma loopTail?_remark {cell : Cell} {back : List Cell} (hsuffix : cell :: back <:+ (Token.remark body).cells)
    (last : Option Char) : loopTail? last (cell :: (back ++ s.cells)) = none := by
  obtain ⟨hgap, hne⟩ := gap_part (List.cons_ne_nil cell back)
    (remark_ends hvalid hsuffix (by simp)) s.cells
  rw [List.cons_append] at hgap
  obtain ⟨mark, behind, hbehind⟩ := List.exists_cons_of_ne_nil hne
  have hmark : mark :: behind <:+ (Token.remark body).cells :=
    hbehind ▸ (gap_suffix _).trans hsuffix
  rw [loopTail?_eq, hgap, hbehind, List.cons_append, afterMark?]
  by_cases hclosing : mark.char = '}'
  · simp [hclosing, wordBrace?_behind hvalid hplain hs (.inr hclosing) hmark
      (by decide : ['d', 'o'] ∈ headerWords)]
  · simp [hclosing]

end Remarks

end SqfLayout
