import SqfLayout.Proofs.Headers
import SqfLayout.Proofs.Tokens

/-!
# Reading headers from layouts

The parts of headers are read from cells: a word up to case, white space, a mark.  On a layout they are
read where its tokens are these.

**Words.**  Only the ASCII letters, the Kelvin sign and the long s fold to ASCII letters, so a keyword that
is read is a word or a part of one (`keyword?_token`).

**Tails.**  `Layout.turn?` looks for a word and a mark among tokens.  The tails of conditionals,
alternatives and loops are found where it succeeds (`Fitting.conditionalTail?_cells`,
`Fitting.alternative?_cells`, `Fitting.loopTail?_cells`).
-/

namespace SqfLayout

open SqfLayout.Text SqfLayout.Scan SqfLayout.Pass

/-! ## Folding to ASCII -/

/-- The long s, which folds to the ASCII letter s. -/
def longS : Char := 'ſ'

/-- **The characters that fold to ASCII.** -/
lemma ascii_of_foldCase {c : Char} (h : (foldCase c).toNat < 128) :
    c.toNat < 128 ∨ c = kelvinSign ∨ c = longS := by
  unfold foldCase at h
  split at h
  · exact .inl h
  · split at h
    · next n hrow =>
        have hmap : mapChar foldRows c = Char.ofNat n := by rw [mapChar, hrow]; rfl
        rw [← hmap] at h
        rcases mapChar_ascii (by decide) h with hsame | ⟨row, hmem, htarget, hfirst, hlast⟩
        · exact .inl (hsame ▸ h)
        · have hnear : ∀ row ∈ foldRows, row.target < 128 →
              row.first = longS.toNat ∧ row.last = longS.toNat := by decide
          obtain ⟨hrow₁, hrow₂⟩ := hnear row hmem htarget
          refine .inr (.inr (Char.toNat_inj.1 ?_))
          omega
    · rcases ascii_of_lowercaseRows h with hc | hc
      · exact .inl hc
      · exact .inr (.inl hc)

/-- What folds to an ASCII character of a word is itself one of a word. -/
lemma isWordChar_of_foldCase {c : Char} (hascii : (foldCase c).toNat < 128)
    (hword : isWordChar (foldCase c) = true) : isWordChar c = true := by
  rcases ascii_of_foldCase hascii with hc | rfl | rfl
  · exact forall_ascii (P := fun c => isWordChar (foldCase c) = true → isWordChar c = true)
      (by decide +kernel) hc hword
  · decide +kernel
  · decide +kernel

/-! ## Words and marks -/

namespace Token

/-- Whether a token is a word. -/
def isWord : Token → Bool
  | word _ => true
  | _ => false

lemma exists_word {t : Token} (h : t.isWord = true) : ∃ text, t = .word text := by
  cases t with
  | word text => exact ⟨text, rfl⟩
  | _ => simp [isWord] at h

/-- **Only words start with characters of words, and only words and remarks end with them.** -/
lemma isWordChar_ends {t : Token} (ht : t.Valid) (hword : t.isWord = false) {cell : Cell}
    (hcell : t.cells.head? = some cell ∨ t.isRemark = false ∧ t.cells.getLast? = some cell) :
    isWordChar cell.char = false := by
  have hmem : cell ∈ t.cells := hcell.elim List.mem_of_head? fun h => List.mem_of_getLast? h.2
  cases t with
  | word text => simp [isWord] at hword
  | literal quote body =>
      have hquote : isWordChar quote = false := by
        rcases ht.1 with rfl | rfl <;> decide
      obtain rfl : cell = ⟨quote, .literal⟩ := by
        rcases hcell with hhead | ⟨-, hlast⟩
        · exact (Option.some.inj hhead).symm
        · rw [cells, ← List.cons_append, List.map_append, List.map_singleton, List.getLast?_concat] at hlast
          exact (Option.some.inj hlast).symm
      exact hquote
  | operator text =>
      have hall : ∀ op ∈ operators, ∀ c ∈ op, isWordChar c = false := by decide
      obtain ⟨c, hc, rfl⟩ := List.mem_map.1 hmem
      exact hall text ht c hc
  | mark c =>
      obtain rfl := List.mem_singleton.1 hmem
      exact ht.2.1
  | remark body =>
      obtain rfl := Option.some.inj (hcell.resolve_right (by simp [isRemark]))
      decide

end Token

/-- Whether a token is a given word up to case. -/
def Token.isKeyword (word : List Char) : Token → Bool
  | .word text => text.map foldCase == word
  | _ => false

lemma Token.isWord_of_isKeyword {word : List Char} {t : Token} (h : t.isKeyword word = true) :
    t.isWord = true := by
  cases t with
  | word text => rfl
  | _ => simp [isKeyword] at h

/-- **A keyword**: ASCII characters of words. -/
def IsKeyword (word : List Char) : Prop :=
  word ≠ [] ∧ ∀ c ∈ word, c.toNat < 128 ∧ isWordChar c = true

instance (word : List Char) : Decidable (IsKeyword word) := inferInstanceAs (Decidable (_ ∧ _))

/-- A character of a mark that headers are made of. -/
def IsBracket (c : Char) : Prop :=
  isSpace c = false ∧ (isWordChar c = false ∧ ∀ op ∈ operators, c ∉ op) ∧ (c ≠ '\'' ∧ c ≠ '"') ∧ c ≠ '/'

instance (c : Char) : Decidable (IsBracket c) := inferInstanceAs (Decidable (_ ∧ _ ∧ _ ∧ _))

lemma afterMark?_token {t : Token} (ht : t.Valid) {c : Char} (hc : IsBracket c) (rest : List Cell) :
    afterMark? c (t.cells ++ rest) = if t = .mark c then some rest else none := by
  obtain ⟨cell, cells, hcells⟩ := List.exists_cons_of_ne_nil (Token.cells_ne_nil ht)
  have hhead : t.cells.head? = some cell := by rw [hcells]; rfl
  split
  · next hmark =>
      subst hmark
      simp [Token.cells, afterMark?]
  · next hmark =>
      have hne : cell.char ≠ c := fun hchar =>
        hmark (t.eq_mark_of_head ht hhead hc.2.1 hc.2.2.1 (.inl hc.2.2.2) hchar)
      rw [hcells, List.cons_append, afterMark?, if_neg (by simpa using hne)]

/-- White space is read up to what is not white space. -/
lemma gap_code {space : List Char} (hspace : ∀ c ∈ space, isSpace c = true) {rest : List Cell}
    (hrest : ∀ cell ∈ rest.head?, isSpace cell.char = false) :
    gap (space.map Cell.code ++ rest) = (space.map Cell.code, rest) := by
  have hall : ∀ cell ∈ space.map Cell.code, isSpace cell.char = true := by simpa using hspace
  rw [gap, List.span_eq_takeWhile_dropWhile, List.takeWhile_append_of_pos hall,
    List.dropWhile_append_of_pos hall]
  cases rest with
  | nil => simp
  | cons cell rest => simp [hrest cell rfl]

/-- No bracket is read where a word goes on. -/
lemma afterMark?_of_isWordChar {c : Char} (hc : IsBracket c) {cells : List Cell}
    (h : ∃ cell ∈ cells.head?, isWordChar cell.char = true) : afterMark? c (gap cells).2 = none := by
  obtain ⟨cell, hcell, hword⟩ := h
  obtain ⟨rest, rfl⟩ : ∃ rest, cells = cell :: rest := by
    cases cells with
    | nil => simp at hcell
    | cons first rest => exact ⟨rest, by rw [Option.some.inj hcell]⟩
  have hgap : gap (cell :: rest) = ([], cell :: rest) := by
    simp [gap, List.span_eq_takeWhile_dropWhile, isSpace_of_isWordChar hword]
  have hne : cell.char ≠ c := by
    rintro rfl
    have hnot := hc.2.1.1
    simp [hword] at hnot
  rw [hgap, afterMark?, if_neg (by simpa using hne)]

/-- **A word is read if it is spelled to its end.**  Otherwise nothing is read, or a part of a longer
word. -/
lemma keyword?_word {word text : List Char} (hword : ∀ c ∈ word, c.toNat < 128 ∧ isWordChar c = true)
    (htext : ∀ c ∈ text, isWordChar c = true) {rest : List Cell}
    (hrest : ∀ d ∈ nextChar rest none, isWordChar d = false) :
    if text.map foldCase = word then keyword? word (text.map Cell.code ++ rest) = some (text.map Cell.code, rest)
    else ∀ read ∈ keyword? word (text.map Cell.code ++ rest),
      ∃ cell ∈ read.2.head?, isWordChar cell.char = true := by
  induction text generalizing word with
  | nil =>
      cases word with
      | nil => simp [keyword?]
      | cons c word =>
          cases rest with
          | nil => simp [keyword?]
          | cons cell rest =>
              have hnot : isWordChar cell.char = false := hrest cell.char rfl
              have hfold : foldCase cell.char ≠ c := by
                rintro rfl
                obtain ⟨hascii, hchar⟩ := hword _ List.mem_cons_self
                simp [isWordChar_of_foldCase hascii hchar] at hnot
              simp [keyword?, hfold]
  | cons d text ih =>
      obtain ⟨hd, htext⟩ := List.forall_mem_cons.1 htext
      cases word with
      | nil => simp [keyword?, hd]
      | cons c word =>
          obtain ⟨hc, hword⟩ := List.forall_mem_cons.1 hword
          have hread := ih hword htext
          by_cases hfold : foldCase d = c
          · by_cases hsame : text.map foldCase = word
            · rw [if_pos hsame] at hread
              simp [keyword?, hfold, hsame, hread]
            · rw [if_neg hsame] at hread
              rw [if_neg (by simp [hsame])]
              intro read hmem
              simp only [List.map_cons, List.cons_append, keyword?, char_code, hfold, beq_self_eq_true,
                if_true, Option.mem_def, Option.map_eq_some_iff] at hmem
              obtain ⟨inner, hinner, rfl⟩ := hmem
              exact hread inner hinner
          · simp [keyword?, hfold]

/-- No keyword is read where no word starts. -/
lemma keyword?_of_not_word {word : List Char} (hword : IsKeyword word) {cell : Cell}
    (hcell : isWordChar cell.char = false) (rest : List Cell) : keyword? word (cell :: rest) = none := by
  obtain ⟨hne, hchars⟩ := hword
  obtain ⟨c, word, rfl⟩ := List.exists_cons_of_ne_nil hne
  have hfold : foldCase cell.char ≠ c := by
    rintro rfl
    obtain ⟨hascii, hchar⟩ := hchars _ List.mem_cons_self
    simp [isWordChar_of_foldCase hascii hchar] at hcell
  rw [keyword?, if_neg (by simpa using hfold)]

/-- **A keyword is read where a token is it**, and nowhere else as a whole word. -/
lemma keyword?_token {t : Token} (ht : t.Valid) {word : List Char} (hword : IsKeyword word)
    {rest : List Cell} (hjoins : ∀ d ∈ nextChar rest none, t.joins d = false) :
    if t.isKeyword word then keyword? word (t.cells ++ rest) = some (t.cells, rest)
    else ∀ read ∈ keyword? word (t.cells ++ rest), ∃ cell ∈ read.2.head?, isWordChar cell.char = true := by
  by_cases hnot : t.isWord = true
  · obtain ⟨text, rfl⟩ := Token.exists_word hnot
    simpa [Token.isKeyword, Token.cells] using keyword?_word hword.2 ht.2 hjoins
  · have hkeyword : t.isKeyword word = false := by
      cases t with
      | word text => exact absurd rfl hnot
      | literal quote body => rfl
      | operator text => rfl
      | mark c => rfl
      | remark body => rfl
    have hnone : keyword? word (t.cells ++ rest) = none := by
      obtain ⟨cell, cells, hcells⟩ := List.exists_cons_of_ne_nil (Token.cells_ne_nil ht)
      have hcell : isWordChar cell.char = false :=
        Token.isWordChar_ends ht (by simpa using hnot) (.inl (by rw [hcells]; rfl))
      rw [hcells, List.cons_append]
      exact keyword?_of_not_word hword hcell _
    simp [hkeyword, hnone]

/-! ## Layouts -/

namespace Layout

/-- The first gap of a layout. -/
def lead : Layout → List Char
  | last gap => gap
  | cons gap _ _ => gap

/-- The cells behind the first gap. -/
def behind : Layout → List Cell
  | last _ => []
  | cons _ token rest => token.cells ++ rest.cells

/-- What follows the first token if that is a given mark. -/
def after? (c : Char) : Layout → Option Layout
  | last _ => none
  | cons _ token rest => if token = .mark c then some rest else none

/-- **A word of a list and a mark behind it**, with what follows the word and what follows the mark. -/
def turn? (words : List (List Char)) (c : Char) : Layout → Option (Token × Layout × Layout)
  | last _ => none
  | cons _ token rest =>
    if words.any token.isKeyword then (rest.after? c).map fun behind => (token, rest, behind) else none

end Layout

variable {prev : Option Token} {s : Layout}

lemma Fitting.gap_cells (h : Fitting prev s) : gap s.cells = (s.lead.map Cell.code, s.behind) := by
  cases s with
  | last space =>
      have hgap := gap_code h.isSpace (by simp : ∀ cell ∈ ([] : List Cell).head?, isSpace cell.char = false)
      rwa [List.append_nil] at hgap
  | cons space token rest =>
      obtain ⟨hfits, hvalid, -⟩ := h
      exact gap_code hfits.isSpace (Token.isSpace_head hvalid rest.cells)

lemma Fitting.afterMark?_behind (h : Fitting prev s) {c : Char} (hc : IsBracket c) :
    afterMark? c s.behind = (s.after? c).map Layout.cells := by
  cases s with
  | last space => rfl
  | cons space token rest =>
      obtain ⟨-, hvalid, -⟩ := h
      rw [Layout.behind, afterMark?_token hvalid hc, Layout.after?]
      split <;> rfl

/-- A word and a mark at the start of a text, the white space between them and what follows. -/
def wordMark? (word : List Char) (c : Char) (cells : List Cell) :
    Option (List Cell × List Cell × List Cell) := do
  let (keyword, rest) ← keyword? word cells
  let (space, rest) := gap rest
  let behind ← afterMark? c rest
  return (keyword, space, behind)

lemma wordMark?_eq_some {word : List Char} {c : Char} {cells keyword space rest : List Cell}
    (h : wordMark? word c cells = some (keyword, space, rest)) :
    ∃ mark, cells = keyword ++ (space ++ mark :: rest) ∧ Spelled word keyword ∧ AllSpace space
      ∧ mark.char = c := by
  simp only [wordMark?, Option.bind_eq_bind, Option.bind_eq_some_iff, Option.pure_def,
    Option.some.injEq, Prod.mk.injEq] at h
  obtain ⟨⟨keyword', behind⟩, hread, rest', hmark, rfl, rfl, rfl⟩ := h
  obtain ⟨rfl, hspelled⟩ := keyword?_eq_some hread
  obtain ⟨mark, hbehind, hchar⟩ := afterMark?_eq_some hmark
  refine ⟨mark, ?_, hspelled, allSpace_gap _, hchar⟩
  rw [← hbehind, ← gap_append]

lemma keyword?_of_spelled {word : List Char} {keyword : List Cell} (h : Spelled word keyword)
    (rest : List Cell) : keyword? word (keyword ++ rest) = some (keyword, rest) := by
  induction keyword generalizing word with
  | nil =>
      obtain rfl : word = [] := h.symm
      rfl
  | cons cell keyword ih =>
      obtain rfl : word = foldCase cell.char :: keyword.map (fun cell => foldCase cell.char) := h.symm
      simp [keyword?, ih rfl]

/-- Read as it was spelled. -/
lemma wordMark?_of_spelled {word : List Char} {keyword space : List Cell} (hword : Spelled word keyword)
    (hspace : AllSpace space) {c : Char} {mark : Cell} (hmark : mark.char = c) (hc : isSpace c = false)
    {rest : List Cell} :
    wordMark? word c (keyword ++ (space ++ mark :: rest)) = some (keyword, space, rest) := by
  have hgap : gap (space ++ mark :: rest) = (space, mark :: rest) := by
    rw [gap, List.span_eq_takeWhile_dropWhile, List.takeWhile_append_of_pos hspace,
      List.dropWhile_append_of_pos hspace]
    simp [hmark, hc]
  simp [wordMark?, keyword?_of_spelled hword, hgap, afterMark?, hmark]

/-- **A word and a mark are read where two tokens are these.** -/
lemma wordMark?_token {t : Token} (ht : t.Valid) (h : Fitting (some t) s) {word : List Char}
    (hword : IsKeyword word) {c : Char} (hc : IsBracket c) :
    wordMark? word c (t.cells ++ s.cells) = if t.isKeyword word then
      (s.after? c).map fun behind => (t.cells, s.lead.map Cell.code, behind.cells) else none := by
  have hread := keyword?_token ht hword h.joins
  rw [wordMark?]
  by_cases hkeyword : t.isKeyword word = true
  · rw [if_pos hkeyword] at hread
    simp only [hread, Option.bind_eq_bind, Option.bind_some, h.gap_cells, h.afterMark?_behind hc, hkeyword,
      if_true]
    cases s.after? c <;> simp
  · rw [if_neg hkeyword] at hread
    rw [if_neg hkeyword]
    cases hfound : keyword? word (t.cells ++ s.cells) with
    | none => simp
    | some read => simp [afterMark?_of_isWordChar hc (hread read hfound)]

lemma Fitting.wordMark?_behind (h : Fitting prev s) {word : List Char} (hword : IsKeyword word) {c : Char}
    (hc : IsBracket c) :
    wordMark? word c s.behind = (s.turn? [word] c).map fun found =>
      (found.1.cells, found.2.1.lead.map Cell.code, found.2.2.cells) := by
  cases s with
  | last space =>
      obtain ⟨d, word, rfl⟩ := List.exists_cons_of_ne_nil hword.1
      rfl
  | cons space token rest =>
      obtain ⟨-, hvalid, hrest⟩ := h
      refine (wordMark?_token hvalid hrest hword hc).trans ?_
      by_cases hkeyword : token.isKeyword word = true
      · cases hafter : rest.after? c <;> simp [Layout.turn?, hkeyword, hafter]
      · simp [Layout.turn?, hkeyword]

/-! ## Tails -/

/-- The words between a condition in parentheses and the block. -/
def branchWords : List (List Char) := [['t', 'h', 'e', 'n'], ['e', 'x', 'i', 't', 'w', 'i', 't', 'h']]

/-- The word between two blocks. -/
def otherWords : List (List Char) := [['e', 'l', 's', 'e']]

/-- The word between a condition in braces and the block. -/
def bodyWords : List (List Char) := [['d', 'o']]

lemma keyword?_first {c d : Char} {word word' : List Char} (hne : c ≠ d) {cells : List Cell}
    {read : List Cell × List Cell} (h : keyword? (c :: word) cells = some read) :
    keyword? (d :: word') cells = none := by
  cases cells with
  | nil => rfl
  | cons cell cells =>
      have hfold : foldCase cell.char = c := by
        by_contra hnot
        simp [keyword?, hnot] at h
      simp [keyword?, hfold, hne]

lemma conditionalTail?_eq (cells : List Cell) :
    conditionalTail? cells = (afterMark? ')' cells).bind fun rest =>
      ((wordMark? ['t', 'h', 'e', 'n'] '{' (gap rest).2).or
        (wordMark? ['e', 'x', 'i', 't', 'w', 'i', 't', 'h'] '{' (gap rest).2)).map
        fun found => ((gap rest).1, found.1, found.2.1) := by
  unfold conditionalTail?
  cases afterMark? ')' cells with
  | none => rfl
  | some rest =>
      simp only [wordMark?, Option.bind_eq_bind, Option.bind_some]
      cases hthen : keyword? ['t', 'h', 'e', 'n'] (gap rest).2 with
      | none =>
          cases keyword? ['e', 'x', 'i', 't', 'w', 'i', 't', 'h'] (gap rest).2 with
          | none => rfl
          | some read => simp
      | some read =>
          rw [keyword?_first (by decide) hthen]
          simp

/-- **The tail of a conditional among tokens.** -/
lemma Fitting.conditionalTail?_cells (h : Fitting (some (.mark ')')) s) :
    conditionalTail? (.code ')' :: s.cells)
      = (s.turn? branchWords '{').map fun found =>
          (s.lead.map Cell.code, found.1.cells, found.2.1.lead.map Cell.code) := by
  have hafter : afterMark? ')' (.code ')' :: s.cells) = some s.cells := rfl
  rw [conditionalTail?_eq, hafter, Option.bind_some, h.gap_cells,
    h.wordMark?_behind (by decide : IsKeyword _) (by decide : IsBracket _),
    h.wordMark?_behind (by decide : IsKeyword _) (by decide : IsBracket _)]
  cases s with
  | last space => rfl
  | cons space token rest =>
      simp only [Layout.turn?, branchWords, List.any_cons, List.any_nil, Bool.or_false]
      by_cases hthen : token.isKeyword ['t', 'h', 'e', 'n'] = true
      · cases rest.after? '{' <;> simp [hthen, Layout.lead]
      · by_cases hexit : token.isKeyword ['e', 'x', 'i', 't', 'w', 'i', 't', 'h'] = true
        · cases rest.after? '{' <;> simp [hthen, hexit, Layout.lead]
        · simp [hthen, hexit]

lemma alternative?_eq (cells : List Cell) :
    alternative? cells = (afterMark? '}' cells).bind fun rest =>
      (wordMark? ['e', 'l', 's', 'e'] '{' (gap rest).2).map fun found => ⟨(gap rest).1, found.1, found.2.1⟩ := by
  unfold alternative?
  cases afterMark? '}' cells with
  | none => rfl
  | some rest =>
      simp only [wordMark?, Option.bind_eq_bind, Option.bind_some]
      cases keyword? ['e', 'l', 's', 'e'] (gap rest).2 with
      | none => rfl
      | some read => simp

/-- **An alternative among tokens.** -/
lemma Fitting.alternative?_cells (h : Fitting (some (.mark '}')) s) :
    alternative? (.code '}' :: s.cells)
      = (s.turn? otherWords '{').map fun found =>
          ⟨s.lead.map Cell.code, found.1.cells, found.2.1.lead.map Cell.code⟩ := by
  have hafter : afterMark? '}' (.code '}' :: s.cells) = some s.cells := rfl
  rw [alternative?_eq, hafter, Option.bind_some, h.gap_cells,
    h.wordMark?_behind (by decide : IsKeyword _) (by decide : IsBracket _), Option.map_map]
  rfl

lemma loopTail?_eq (last : Option Char) (cells : List Cell) :
    loopTail? last cells = if last.any isSpace then none else
      (afterMark? '}' (gap cells).2).bind fun rest =>
        (wordMark? ['d', 'o'] '{' (gap rest).2).map fun found =>
          ((gap cells).1, (gap rest).1, found.1, found.2.1) := by
  unfold loopTail?
  cases last.any isSpace with
  | true => rfl
  | false =>
      simp only [Bool.not_false, guard, if_true, Option.bind_eq_bind, Bool.false_eq_true, if_false]
      cases afterMark? '}' (gap cells).2 with
      | none => rfl
      | some rest =>
          simp only [wordMark?, Option.bind_eq_bind, Option.bind_some]
          cases keyword? ['d', 'o'] (gap rest).2 with
          | none => rfl
          | some read => simp

lemma Fitting.of_after? (h : Fitting prev s) {c : Char} {rest : Layout} (hafter : s.after? c = some rest) :
    s = .cons s.lead (.mark c) rest ∧ Fitting (some (.mark c)) rest := by
  cases s with
  | last space => simp [Layout.after?] at hafter
  | cons space token behind =>
      simp only [Layout.after?, Option.ite_none_right_eq_some, Option.some.injEq] at hafter
      obtain ⟨rfl, rfl⟩ := hafter
      exact ⟨rfl, h.2.2⟩

/-- **The tail of a loop among tokens.** -/
lemma Fitting.loopTail?_cells (h : Fitting prev s) {last : Option Char} (hlast : last.any isSpace = false) :
    loopTail? last s.cells
      = (s.after? '}').bind fun rest => (rest.turn? bodyWords '{').map fun found =>
          (s.lead.map Cell.code, rest.lead.map Cell.code, found.1.cells, found.2.1.lead.map Cell.code) := by
  rw [loopTail?_eq, hlast, if_neg (by simp), h.gap_cells, h.afterMark?_behind (by decide : IsBracket '}')]
  cases hafter : s.after? '}' with
  | none => rfl
  | some rest =>
      obtain ⟨-, hrest⟩ := h.of_after? hafter
      rw [Option.map_some, Option.bind_some, Option.bind_some, hrest.gap_cells,
        hrest.wordMark?_behind (by decide : IsKeyword _) (by decide : IsBracket _), Option.map_map]
      rfl

end SqfLayout
