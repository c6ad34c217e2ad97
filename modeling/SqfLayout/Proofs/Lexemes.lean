import SqfLayout.Proofs.Reading

/-!
# The lexemes of a script

A script is also described by a grammar that knows nothing of modes and cursors: it is cut into lexemes
from left to right, and every character has the class of its lexeme.

**The grammar.**  `lexemeAt` is the lexeme that begins at a character.  A quote takes everything through
the next quote of its kind; two slashes take the rest of the line; a slash and a star take everything
through the first star and slash behind them, so that `/*/` is not closed.  Literals and block comments
that are never closed take the rest of the text.  Any other character is a lexeme of code by itself.

**The scanner.**  In a literal or a comment the scanner labels what the grammar takes and is then in code
again (`labelFrom_quoted`, `labelFrom_line`, `labelFrom_block`).  Hence it labels a text by its lexemes
(`label_eq_cells_lexemes`).

**Offsets.**  The steps of a scan are the cells in order, each at the number of bytes before it
(`offset_stepsFrom`), and the class of a character stands at all of its bytes (`byteClasses_at`).
-/

namespace SqfLayout.Scan

open SqfLayout.Text

/-! ## The grammar -/

/-- The part of a text through the first place where the mark stands, or the whole text. -/
def through (mark : List Char) : List Char → List Char
  | [] => []
  | c :: rest => if mark.isPrefixOf (c :: rest) then mark else c :: through mark rest

/-- A stretch of text that the grammar takes at once.  It is not empty. -/
structure Lexeme where
  first : Char
  more : List Char
  kind : CharClass
  deriving DecidableEq, Repr

def Lexeme.text (lexeme : Lexeme) : List Char := lexeme.first :: lexeme.more

/-- The characters of a lexeme, all of its class. -/
def Lexeme.cells (lexeme : Lexeme) : List Cell := lexeme.text.map (⟨·, lexeme.kind⟩)

/-- **The lexeme that begins at a character of code**, by the text behind the character. -/
def lexemeAt (c : Char) (rest : List Char) : Lexeme :=
  if c = '\'' ∨ c = '"' then ⟨c, through [c] rest, .literal⟩
  else if c = '/' ∧ rest.head? = some '/' then ⟨c, rest.takeWhile (· ≠ '\n'), .comment⟩
  else if c = '/' ∧ rest.head? = some '*' then ⟨c, '*' :: through ['*', '/'] rest.tail, .comment⟩
  else ⟨c, [], .code⟩

/-- **The lexemes of a text**, from left to right. -/
def lexemes : List Char → List Lexeme
  | [] => []
  | c :: rest => lexemeAt c rest :: lexemes (rest.drop (lexemeAt c rest).more.length)
termination_by text => text.length
decreasing_by simp only [List.length_drop, List.length_cons]; omega

/-! ## The scanner inside a lexeme -/

lemma labelFrom_cons (cursor : Cursor) (c : Char) (rest : List Char) :
    labelFrom cursor (c :: rest)
      = ⟨c, (step cursor c rest.head?).1⟩ :: labelFrom (step cursor c rest.head?).2 rest := rfl

/-- **A literal runs through the next quote of its kind.** -/
lemma labelFrom_quoted (mode : Mode) (quote : Char)
    (hstep : ∀ c next, step (.ready mode) c next
      = (.literal, .ready (if c = quote then .code else mode))) (text : List Char) :
    labelFrom (.ready mode) text
      = (through [quote] text).map (⟨·, .literal⟩)
        ++ labelFrom (.ready .code) (text.drop (through [quote] text).length) := by
  induction text with
  | nil => rfl
  | cons c rest ih =>
      rw [labelFrom_cons, hstep]
      by_cases hc : c = quote
      · simp [through, hc]
      · simp [through, hc, Ne.symm hc, ih]

/-- **A line comment runs up to the next line feed**, which is code. -/
lemma labelFrom_line (text : List Char) :
    labelFrom (.ready .line) text
      = (text.takeWhile (· ≠ '\n')).map (⟨·, .comment⟩)
        ++ labelFrom (.ready .code) (text.drop (text.takeWhile (· ≠ '\n')).length) := by
  induction text with
  | nil => rfl
  | cons c rest ih =>
      by_cases hc : c = '\n'
      · subst hc
        rfl
      · simp [labelFrom_cons, step, hc, ih]

/-- A block comment goes on where no star and slash stand. -/
lemma step_block_on {c : Char} {rest : List Char} (h : ¬(c = '*' ∧ rest.head? = some '/')) :
    step (.ready .block) c rest.head? = (.comment, .ready .block)
      ∧ ['*', '/'].isPrefixOf (c :: rest) = false := by
  constructor
  · simpa [step] using fun hstar hslash => h ⟨hstar, hslash⟩
  · rw [Bool.eq_false_iff, Ne, List.isPrefixOf_iff_prefix]
    rintro ⟨after, hafter⟩
    obtain ⟨rfl, rfl⟩ := List.cons.inj hafter
    exact h ⟨rfl, rfl⟩

/-- **A block comment runs through the next star and slash.** -/
lemma labelFrom_block (text : List Char) :
    labelFrom (.ready .block) text
      = (through ['*', '/'] text).map (⟨·, .comment⟩)
        ++ labelFrom (.ready .code) (text.drop (through ['*', '/'] text).length) := by
  induction text with
  | nil => rfl
  | cons c rest ih =>
      by_cases hclose : c = '*' ∧ rest.head? = some '/'
      · obtain ⟨rfl, hslash⟩ := hclose
        obtain ⟨rest, rfl⟩ := List.head?_eq_some_iff.1 hslash
        rfl
      · obtain ⟨hstep, hmark⟩ := step_block_on hclose
        simp [labelFrom_cons, hstep, through, hmark, ih]

/-- **The scanner labels the lexeme that begins where it is in code**, and is in code behind it. -/
lemma labelFrom_lexemeAt (c : Char) (rest : List Char) :
    labelFrom (.ready .code) (c :: rest)
      = (lexemeAt c rest).cells
        ++ labelFrom (.ready .code) (rest.drop (lexemeAt c rest).more.length) := by
  have hsingle := labelFrom_quoted .single '\'' (by simp [step]) rest
  have hdouble := labelFrom_quoted .double '"' (by simp [step]) rest
  rw [labelFrom_cons]
  unfold lexemeAt
  split_ifs with hquote hline hblock
  · rcases hquote with rfl | rfl
    · exact congrArg _ hsingle
    · exact congrArg _ hdouble
  · obtain ⟨rfl, hslash⟩ := hline
    rw [hslash]
    exact congrArg _ (labelFrom_line rest)
  · obtain ⟨rfl, hstar⟩ := hblock
    obtain ⟨rest, rfl⟩ := List.head?_eq_some_iff.1 hstar
    exact congrArg _ (congrArg _ (labelFrom_block rest))
  · have hstep : step (.ready .code) c rest.head? = (.code, .ready .code) := by
      simp [step, not_or.1 hquote, hline, hblock]
    rw [hstep]
    rfl

/-- **A text is labelled by its lexemes.** -/
lemma label_eq_cells_lexemes (text : List Char) : label text = (lexemes text).flatMap Lexeme.cells := by
  unfold label
  fun_induction lexemes text with
  | case1 => rfl
  | case2 c rest ih => rw [labelFrom_lexemeAt, List.flatMap_cons, ih]

/-! ## Offsets -/

@[simp] lemma cell_stepsFrom (offset : Nat) (cursor : Cursor) (text : List Char) :
    (stepsFrom offset cursor text).map Step.cell = labelFrom cursor text := by
  induction text generalizing offset cursor with
  | nil => rfl
  | cons c rest ih => simp [stepsFrom, labelFrom, ih]

/-- Each character stands at the number of bytes before it. -/
lemma offset_stepsFrom (offset : Nat) (cursor : Cursor) (text : List Char) :
    (stepsFrom offset cursor text).map Step.offset
      = (List.range text.length).map fun i => offset + byteLength (text.take i) := by
  induction text generalizing offset cursor with
  | nil => rfl
  | cons c rest ih =>
      simp [stepsFrom, ih, List.range_succ_eq_map, byteLength, Function.comp_def, Nat.add_assoc]

@[simp] lemma byteClasses_append (a b : List Cell) :
    byteClasses (a ++ b) = byteClasses a ++ byteClasses b :=
  List.flatMap_append

@[simp] lemma length_byteClasses (cells : List Cell) :
    (byteClasses cells).length = byteLength (chars cells) := by
  induction cells with
  | nil => rfl
  | cons cell cells ih => simp [byteClasses, byteLength, ← ih]

/-- The class of a character stands at all of its bytes. -/
lemma byteClasses_at (before after : List Cell) (cell : Cell) :
    ((byteClasses (before ++ cell :: after)).drop (byteLength (chars before))).take cell.char.utf8Size
      = List.replicate cell.char.utf8Size cell.kind := by
  rw [byteClasses_append, ← length_byteClasses, List.drop_left]
  exact List.take_left' List.length_replicate

/-- A step of a scan is a cell of the text, at the number of bytes before it. -/
lemma exists_of_mem_stepsFrom {offset : Nat} {cursor : Cursor} {text : List Char} {s : Step}
    (hs : s ∈ stepsFrom offset cursor text) :
    ∃ before after, labelFrom cursor text = before ++ s.cell :: after
      ∧ s.offset = offset + byteLength (chars before) := by
  induction text generalizing offset cursor with
  | nil => simp [stepsFrom] at hs
  | cons c rest ih =>
      rw [stepsFrom, List.mem_cons] at hs
      rcases hs with rfl | hs
      · exact ⟨[], _, rfl, rfl⟩
      · obtain ⟨before, after, hsplit, hoffset⟩ := ih hs
        refine ⟨⟨c, (step cursor c rest.head?).1⟩ :: before, after, ?_, ?_⟩
        · rw [labelFrom_cons, hsplit, List.cons_append]
        · rw [hoffset, chars_cons, byteLength, Nat.add_assoc]

/-- **The scanner follows the grammar.**  The lexemes of a text make it up, and every character has the
class of its lexeme.  The scan goes through all characters once and in order, each at its byte offset,
and from there on the class of a character stands at as many bytes as the character has. -/
theorem scan_follows_grammar (text : List Char) :
    (lexemes text).flatMap Lexeme.text = text
      ∧ label text = (lexemes text).flatMap Lexeme.cells
      ∧ (steps .code text).map Step.cell = label text
      ∧ (steps .code text).map (·.cell.char) = text
      ∧ (steps .code text).map Step.offset
          = (List.range text.length).map (fun i => byteLength (text.take i))
      ∧ (byteClasses (label text)).length = byteLength text
      ∧ ∀ s ∈ steps .code text,
          ((byteClasses (label text)).drop s.offset).take s.cell.char.utf8Size
            = List.replicate s.cell.char.utf8Size s.cell.kind := by
  have hlabel := label_eq_cells_lexemes text
  have hcells : (steps .code text).map Step.cell = label text := cell_stepsFrom 0 (.ready .code) text
  refine ⟨?_, hlabel, hcells, ?_, ?_, by simp, ?_⟩
  · calc (lexemes text).flatMap Lexeme.text
        = chars ((lexemes text).flatMap Lexeme.cells) := by simp [Lexeme.cells]
      _ = text := by rw [← hlabel, chars_label]
  · calc (steps .code text).map (·.cell.char)
        = chars ((steps .code text).map Step.cell) := by simp [chars, Function.comp_def]
      _ = text := by rw [hcells, chars_label]
  · simpa [steps] using offset_stepsFrom 0 (.ready .code) text
  · intro s hs
    obtain ⟨before, after, hsplit, hoffset⟩ := exists_of_mem_stepsFrom hs
    rw [label, hsplit, hoffset, Nat.zero_add, byteClasses_at]

/-- A literal with a character of two bytes, and a block comment that `/*/` does not close. -/
theorem scan_follows_grammar_accent :
    lexemes "a\"é\"/*/b".toList
        = [⟨'a', [], .code⟩, ⟨'"', ['é', '"'], .literal⟩, ⟨'/', ['*', '/', 'b'], .comment⟩]
      ∧ ((byteClasses (label "a\"é\"/*/b".toList)).drop 2).take 2 = [.literal, .literal]
      ∧ (byteClasses (label "a\"é\"/*/b".toList)).length = 9 := by
  have h := scan_follows_grammar "a\"é\"/*/b".toList
  obtain ⟨-, -, -, -, -, hlength, hbytes⟩ := h
  refine ⟨?_, hbytes ⟨2, ⟨'é', .literal⟩, .double⟩ (by decide), hlength⟩
  simp [lexemes, lexemeAt, through]

end SqfLayout.Scan
