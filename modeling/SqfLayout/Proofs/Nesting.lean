import Mathlib.Data.List.Infix
import SqfLayout.Proofs.CommentBodies
import SqfLayout.Proofs.OutputShape

/-!
# Indentation is nesting

The indenter moves the depth by one for a line, however many braces the line has.  On lines whose braces
have been broken that is exact.

**Lines.**  In a text with broken braces a closing brace stands at the start of a line or directly behind
an opening one, and an opening brace at the end of a line or directly before a closing one
(`isChain_breakBraces`).  So a line opens and closes blocks at its ends only (`Tidy.count_eq`), and what it
does to the depth is read off its ends (`Tidy.depth_eq`).

**Nesting.**  The pass keeps the braces in their order, so no block is closed before it is opened
(`nested_breakBraces`).  Then the depth never runs out, and behind every line it is the number of open
blocks (`depth_after`).
-/

namespace SqfLayout.Pass

open SqfLayout.Text SqfLayout.Scan

/-! ## Texts of plain code -/

/-- A character that starts neither a literal nor a comment and is no square bracket. -/
def isBlockCode (c : Char) : Bool := !(['\'', '"', '/', '[', ']'].contains c)

/-- **No block is closed that is not open**: up to any place there are at least as many opening braces as
closing ones. -/
def Nested (text : List Char) : Prop := ∀ before, before <+: text → before.count '}' ≤ before.count '{'

instance (text : List Char) : Decidable (Nested text) :=
  decidable_of_iff (∀ before ∈ text.inits, before.count '}' ≤ before.count '{') (by simp only [Nested, List.mem_inits])

lemma step_blockCode {c : Char} (hc : isBlockCode c = true) (next : Option Char) :
    step (.ready .code) c next = (.code, .ready .code) := by
  obtain ⟨hsingle, hdouble, hslash, -⟩ : c ≠ '\'' ∧ c ≠ '"' ∧ c ≠ '/' ∧ c ≠ '[' ∧ c ≠ ']' := by
    simpa [isBlockCode] using hc
  simp [step, hsingle, hdouble, hslash]

/-- Such a text is all code. -/
lemma reads_blockCode {text : List Char} (h : ∀ c ∈ text, isBlockCode c = true) (follow : Option Char) :
    Reads (.ready .code) (text.map .code) follow (.ready .code) := by
  have hsteps : ∀ cell ∈ text.map Cell.code, ∀ next,
      step (.ready .code) cell.char next = (Mode.code.kind, .ready .code) := by
    intro cell hcell next
    obtain ⟨c, hc, rfl⟩ := List.mem_map.1 hcell
    exact step_blockCode (h c hc) next
  exact (reads_steady hsteps).2 ⟨rfl, by simp [Mode.kind]⟩

lemma labelFrom_blockCode {text : List Char} (h : ∀ c ∈ text, isBlockCode c = true) :
    labelFrom (.ready .code) text = text.map .code := by
  have hlabel := (reads_blockCode h none).labelFrom_eq
  rwa [chars_map_code] at hlabel

lemma scanLine_blockCode {line : List Char} (h : ∀ c ∈ line, isBlockCode c = true) :
    scanLine .code line = (⟨.code, line.map .code⟩, .code) := by
  have hmode : modeAfter .code line = .code := by
    have hcursor := (reads_blockCode h none).cursorAfter_eq
    rw [chars_map_code] at hcursor
    rw [modeAfter, hcursor]
    rfl
  rw [scanLine, hmode, labelFrom_blockCode h]
  rfl

/-! ## Where braces stand -/

/-- Neighbours in a text with broken braces. -/
def Broken (a b : Char) : Prop := (b = '}' → a = '\n' ∨ a = '{') ∧ (a = '{' → b = '\n' ∨ b = '}')

/-- A cell of the passes on a text of plain code. -/
def isBlockCell (cell : Cell) : Prop := cell.kind = .code ∧ isBlockCode cell.char = true

/-- The text so far, the last character first, behind a line feed. -/
def written (out : List Cell) : List Char := chars out ++ ['\n']

/-- Braces are broken in the text so far. -/
def SoFarBroken (out : List Cell) : Prop := List.IsChain (fun b a => Broken a b) (written out)

lemma soFarBroken_cons {cell : Cell} {out : List Cell} (h : SoFarBroken out)
    (hcell : ∀ a ∈ (written out).head?, Broken a cell.char) : SoFarBroken (cell :: out) :=
  List.isChain_cons.2 ⟨hcell, h⟩

/-- A character that is no brace may follow any that is no opening brace. -/
lemma broken_of_ne {a b : Char} (ha : a ≠ '{') (hb : b ≠ '}') : Broken a b :=
  ⟨fun h => absurd h hb, fun h => absurd h ha⟩

/-- A closing brace starts a line. -/
lemma soFarBroken_closeBrace {out : List Cell} {brace : Cell} (hbrace : brace.char = '}')
    (h : SoFarBroken out) :
    SoFarBroken (closeBrace out brace) ∧ (written (closeBrace out brace)).head? = some '}' := by
  have hstart {kept : List Cell} (hkept : SoFarBroken kept) (hhead : (written kept).head? = some '\n') :
      SoFarBroken (brace :: kept) ∧ (written (brace :: kept)).head? = some '}' := by
    refine ⟨soFarBroken_cons hkept fun a ha => ?_, congrArg some hbrace⟩
    obtain rfl : '\n' = a := Option.some.inj (hhead.symm.trans ha)
    exact ⟨fun _ => .inl rfl, fun h => absurd h (by decide)⟩
  obtain ⟨gone, hout, -⟩ := exists_dropWhile (fun cell : Cell => isSpace cell.char) out
  rw [closeBrace]
  generalize out.dropWhile (fun cell => isSpace cell.char) = kept at hout ⊢
  split
  · exact hstart (List.isChain_singleton _) rfl
  · have hkept : SoFarBroken kept := by
      refine h.suffix ⟨chars gone, ?_⟩
      rw [written, written, hout, chars_append, List.append_assoc]
    refine hstart (soFarBroken_cons hkept fun a _ => ?_) rfl
    exact ⟨fun h => absurd h (by decide), fun _ => .inl rfl⟩

/-- **The braces pass keeps the text so far broken.**  Its last character is an opening brace in the gap
behind one and nowhere else. -/
lemma soFarBroken_bracesFrom {out : List Cell} {gap : Option Bool} {rest : List Cell}
    (hout : SoFarBroken out) (hgap : (written out).head? = some '{' ↔ gap.isSome = true)
    (hrest : ∀ cell ∈ rest, isBlockCell cell) : SoFarBroken (bracesFrom out gap rest).reverse := by
  -- a cell that is no closing brace opens a gap or ends none
  have hopened {cell : Cell} (hcell : isBlockCell cell) (out : List Cell) :
      (written (cell :: out)).head? = some '{' ↔ (gapAfter cell).isSome = true := by
    have hcode : cell.isCode '{' = (cell.char == '{') := by simp [Cell.isCode, hcell.1]
    rw [gapAfter, hcode]
    by_cases hbrace : cell.char = '{' <;> simp [written, hbrace]
  fun_induction bracesFrom out gap rest with
  | case1 out gap => rwa [List.reverse_reverse]
  | case2 out cell rest ih =>
      obtain ⟨hcell, hrest⟩ := List.forall_mem_cons.1 hrest
      have hcode : cell.isCode '}' = (cell.char == '}') := by simp [Cell.isCode, hcell.1]
      simp only [placeCell, hcode, beq_iff_eq] at ih ⊢
      by_cases hbrace : cell.char = '}'
      · obtain ⟨hplaced, hhead⟩ := soFarBroken_closeBrace hbrace hout
        have hnogap : gapAfter cell = none := by simp [gapAfter, Cell.isCode, hbrace]
        rw [if_pos hbrace] at ih ⊢
        exact ih hplaced (by simp [hhead, hnogap]) hrest
      · rw [if_neg hbrace] at ih ⊢
        refine ih (soFarBroken_cons hout fun a ha => broken_of_ne ?_ hbrace) (hopened hcell out) hrest
        rintro rfl
        simpa using hgap.1 ha
  | case3 out crossed cell rest hspace ih =>
      exact ih hout (by simpa using hgap) (List.forall_mem_cons.1 hrest).2
  | case4 out crossed cell rest hspace hclosing ih =>
      obtain ⟨hcell, hrest⟩ := List.forall_mem_cons.1 hrest
      have hbrace : cell.char = '}' := by simpa using (isCode_iff.1 hclosing ▸ rfl : cell.char = '}')
      refine ih (soFarBroken_cons hout fun a ha => ?_) (by simp [written, hbrace]) hrest
      obtain rfl : '{' = a := Option.some.inj ((hgap.2 rfl).symm.trans ha)
      exact ⟨fun _ => .inr rfl, fun _ => .inr hbrace⟩
  | case5 out crossed cell rest hspace hclosing ih =>
      obtain ⟨hcell, hrest⟩ := List.forall_mem_cons.1 hrest
      have hslash : cell.char ≠ '/' := by
        intro hslash
        have hplain := hcell.2
        rw [hslash] at hplain
        exact absurd hplain (by decide)
      have hbrace : cell.char ≠ '}' := by simpa [Cell.isCode, hcell.1] using hclosing
      have hbreak : gapBreak crossed cell rest.head? = .code '\n' := by simp [gapBreak, hslash]
      rw [hbreak] at ih ⊢
      refine ih (soFarBroken_cons (soFarBroken_cons hout fun a _ => ?_) fun a ha => ?_) (hopened hcell _) hrest
      · exact ⟨fun h => absurd h (by decide), fun _ => .inl rfl⟩
      · obtain rfl : '\n' = a := Option.some.inj ha
        exact broken_of_ne (by decide) hbrace

/-- **Braces are broken in the text that the pass makes of plain code.** -/
lemma isChain_breakBraces {text : List Char} (h : ∀ c ∈ text, isBlockCode c = true) :
    List.IsChain Broken ('\n' :: breakBraces text) := by
  have hcells : ∀ cell ∈ label text, isBlockCell cell := by
    rw [label, labelFrom_blockCode h]
    intro cell hcell
    obtain ⟨c, hc, rfl⟩ := List.mem_map.1 hcell
    exact ⟨rfl, h c hc⟩
  have hdone : SoFarBroken (bracesFrom [] none (label text)).reverse :=
    soFarBroken_bracesFrom (List.isChain_singleton _) (by simp [written]) hcells
  have hreverse : written (bracesFrom [] none (label text)).reverse = ('\n' :: breakBraces text).reverse := by
    rw [written, chars_reverse, List.reverse_cons, breakBraces]
  rw [SoFarBroken, hreverse, List.isChain_reverse] at hdone
  exact hdone

/-! ## Lines -/

/-- **A line with broken braces**, of plain code. -/
structure Tidy (line : List Char) : Prop where
  broken : List.IsChain Broken ('\n' :: line)
  feed : '\n' ∉ line
  plain : ∀ c ∈ line, isBlockCode c = true

/-- Whether a line starts by closing a block, as a number. -/
def closesAtStart (line : List Char) : Nat := if line.head? = some '}' then 1 else 0

/-- Whether a line ends by opening a block, as a number. -/
def opensAtEnd (line : List Char) : Nat := if line.getLast? = some '{' then 1 else 0

/-- Within a line every opening brace but the last character has its closing brace directly behind it.
The character before the line is taken along in the induction, since it may be such a brace. -/
lemma count_of_isChain {a : Char} {line : List Char} (h : List.IsChain Broken (a :: line))
    (hfeed : '\n' ∉ line) :
    (a :: line).count '{' + (if a = '\n' then closesAtStart line else 0)
      = line.count '}' + opensAtEnd (a :: line) := by
  induction line generalizing a with
  | nil =>
      by_cases ha : a = '{' <;> simp [closesAtStart, opensAtEnd, ha]
  | cons b line ih =>
      obtain ⟨hab, hrest⟩ := List.isChain_cons_cons.1 h
      obtain ⟨hb, hfeed⟩ := List.ne_and_not_mem_of_not_mem_cons hfeed
      have htail := ih hrest hfeed
      rw [if_neg (Ne.symm hb)] at htail
      have hlast : opensAtEnd (a :: b :: line) = opensAtEnd (b :: line) := by simp [opensAtEnd]
      -- a closing brace within the line is the partner of the character before it
      have hpair : (if a = '{' then 1 else 0) + (if a = '\n' then closesAtStart (b :: line) else 0)
          = if b = '}' then 1 else 0 := by
        obtain ⟨hclose, hopen⟩ := hab
        by_cases hbrace : b = '}'
        · rcases hclose hbrace with rfl | rfl <;> simp [closesAtStart, hbrace]
        · have ha : a ≠ '{' := fun ha => (hopen ha).elim (fun h => hb h.symm) hbrace
          simp [closesAtStart, ha, hbrace]
      simp only [hlast, List.count_cons, beq_iff_eq] at htail ⊢
      omega

/-- **A line opens and closes blocks at its ends only.** -/
lemma Tidy.count_eq {line : List Char} (h : Tidy line) :
    line.count '{' + closesAtStart line = line.count '}' + opensAtEnd line := by
  have hcount := count_of_isChain h.broken h.feed
  have hlast : opensAtEnd ('\n' :: line) = opensAtEnd line := by
    cases line <;> simp [opensAtEnd]
  simpa [hlast] using hcount

/-- A closing brace before the first opening one is the first character of its line. -/
lemma Tidy.closesFirst_eq {line : List Char} (h : Tidy line) :
    closesFirst line '{' '}' = true ↔ line.head? = some '}' := by
  have hbehind {a : Char} {line : List Char} (h : List.IsChain Broken (a :: line)) (ha : a ≠ '{')
      (hfeed : '\n' ∉ a :: line) : '}' ∉ line.takeWhile (· != '{') := by
    induction line generalizing a with
    | nil => simp
    | cons b line ih =>
        obtain ⟨hab, hrest⟩ := List.isChain_cons_cons.1 h
        obtain ⟨hanl, hfeed⟩ := List.ne_and_not_mem_of_not_mem_cons hfeed
        by_cases hb : b = '{'
        · simp [hb]
        · have hbrace : b ≠ '}' := fun hb => (hab.1 hb).elim (fun h => hanl h.symm) ha
          rw [List.takeWhile_cons_of_pos (by simpa using hb), List.mem_cons, not_or]
          exact ⟨Ne.symm hbrace, ih hrest hb hfeed⟩
  cases line with
  | nil => simp [closesFirst]
  | cons b line =>
      obtain ⟨hfirst, hrest⟩ := List.isChain_cons_cons.1 h.broken
      by_cases hb : b = '{'
      · simp [closesFirst, hb]
      · have hnot := hbehind hrest hb h.feed
        rw [closesFirst, List.takeWhile_cons_of_pos (by simpa using hb), List.contains_iff_mem,
          List.mem_cons, List.head?_cons, Option.some_inj]
        exact ⟨fun hmem => (hmem.resolve_right hnot).symm, fun hb => .inl hb.symm⟩

/-- **What a line does to the depth is read off its ends**, if there is a block for it to close. -/
lemma Tidy.depth_eq {line : List Char} (h : Tidy line) {depth : Nat} (hdepth : closesAtStart line ≤ depth) :
    (DepthChange.of line).lineDepth depth + closesAtStart line = depth
      ∧ (DepthChange.of line).nextDepth depth + line.count '}' = depth + line.count '{' := by
  have hnone {c : Char} (hc : isBlockCode c = false) : c ∉ line := by
    intro hmem
    rw [h.plain c hmem] at hc
    contradiction
  have hopen : line.count '[' = 0 := List.count_eq_zero.2 (hnone (by decide))
  have hclose : line.count ']' = 0 := List.count_eq_zero.2 (hnone (by decide))
  have hsquare : closesFirst line '[' ']' = false := by
    rw [Bool.eq_false_iff, Ne, closesFirst, List.contains_iff_mem]
    exact fun hmem => hnone (by decide) ((List.takeWhile_sublist _).mem hmem)
  have hcount := h.count_eq
  have hfirst := h.closesFirst_eq
  have hends : opensAtEnd line ≤ 1 := by rw [opensAtEnd]; split <;> omega
  simp only [DepthChange.of, hopen, hclose, hsquare, Bool.false_or, Nat.zero_add, hfirst]
  by_cases hstart : line.head? = some '}'
  · have hone : closesAtStart line = 1 := if_pos hstart
    split_ifs <;> simp only [DepthChange.lineDepth, DepthChange.nextDepth] <;> omega
  · have hzero : closesAtStart line = 0 := if_neg hstart
    split_ifs <;> simp only [DepthChange.lineDepth, DepthChange.nextDepth] <;> omega

/-- A line of plain code is put at its own depth, its text behind the indentation. -/
lemma fullLine_blockCode {s : Indenter} (hmode : s.mode = .code) {line : List Char}
    (hplain : ∀ c ∈ line, isBlockCode c = true) :
    (s.fullLine line).1
        = s.unit.indentation ((DepthChange.of line).lineDepth s.depth) ++ lineBody (scanLine .code line).1
      ∧ (s.fullLine line).2.depth = (DepthChange.of line).nextDepth s.depth
      ∧ (s.fullLine line).2.mode = .code := by
  simp only [Indenter.fullLine, hmode, scanLine_blockCode hplain]
  cases DepthChange.of line <;> exact ⟨rfl, rfl, rfl⟩

/-- The text of a line starts with ink. -/
lemma head?_lineBody_blockCode {line : List Char} (hplain : ∀ c ∈ line, isBlockCode c = true)
    (hfull : isBare line = false) :
    ∃ c ∈ (lineBody (scanLine .code line).1).head?, isSpace c = false := by
  obtain ⟨front, back, hcells, hfront, hback⟩ := exists_trimCells (line.map .code)
  have hhead := head?_trimCells (line.map .code)
  have hbody : lineBody (scanLine .code line).1 = squeezeFrom false (trimCells (line.map .code)) := by
    rw [scanLine_blockCode hplain]
    simp [lineBody, ScannedLine.hasComment]
  rw [hbody]
  cases htrim : trimCells (line.map .code) with
  | nil =>
      -- a line of which nothing is left is blank
      rw [htrim, List.nil_append] at hcells
      have hall : AllSpace (front ++ back) := List.forall_mem_append.2 ⟨hfront, hback⟩
      have hspace := hall.chars
      rw [← hcells, chars_map_code] at hspace
      have hbare : isBare line = true := List.all_eq_true.2 hspace
      simp [hfull] at hbare
  | cons cell rest =>
      rw [htrim] at hhead
      have hcell : isSpace cell.char = false := hhead cell rfl
      have hblank : isBlank cell.char = false := isBlank_of_isSpace_false hcell
      exact ⟨cell.char, by simp [squeezeFrom, hblank], hcell⟩

/-! ## Texts -/

/-- **No block is closed before it is opened in the text that the pass makes.** -/
lemma nested_breakBraces {text : List Char} (h : Nested text) : Nested (breakBraces text) := by
  intro before hbefore
  have hink : ink before <+: ink text := by
    rw [(respaced_breakBraces text).ink_eq]
    exact hbefore.filter _
  obtain ⟨before', hbefore', hsame⟩ := List.prefix_filter_iff.1 hink
  have hcount {c : Char} (hc : isSpace c = false) : before.count c = before'.count c := by
    rw [← count_ink hc, hsame]
    exact count_ink hc before'
  rw [hcount (by decide), hcount (by decide)]
  exact h before' hbefore'

lemma isBlockCode_of_isSpace {c : Char} (h : isSpace c = true) : isBlockCode c = true := by
  have hne {s : Char} (hs : isSpace s = false) : c ≠ s := by
    rintro rfl
    rw [hs] at h
    contradiction
  simp only [isBlockCode, List.contains_cons, List.contains_nil, Bool.or_false, Bool.not_eq_true',
    Bool.or_eq_false_iff, beq_eq_false_iff_ne]
  exact ⟨hne (by decide), hne (by decide), hne (by decide), hne (by decide), hne (by decide)⟩

/-- The lines that the pass makes of plain code are tidy. -/
lemma tidy_of_mem_lines {text line : List Char} (h : ∀ c ∈ text, isBlockCode c = true)
    (hline : line ∈ lines (breakBraces text)) : Tidy line := by
  obtain ⟨before, after, hlines⟩ := List.append_of_mem hline
  refine ⟨?_, feed_notMem_of_mem_lines hline, ?_⟩
  · have htext : breakBraces text = rows before ++ unlines (line :: after) := by
      rw [← unlines_append_cons, ← hlines, unlines_lines]
    obtain ⟨behind, hbehind⟩ : ∃ behind, unlines (line :: after) = line ++ behind := by
      cases after with
      | nil => exact ⟨[], (List.append_nil _).symm⟩
      | cons next after => exact ⟨'\n' :: unlines (next :: after), rfl⟩
    obtain ⟨front, hfront⟩ : ∃ front, '\n' :: rows before = front ++ ['\n'] := by
      cases before with
      | nil => exact ⟨[], rfl⟩
      | cons first before =>
          exact ⟨'\n' :: unlines (first :: before), by rw [← unlines_append_feed (by simp), List.cons_append]⟩
    have hparts : '\n' :: breakBraces text = front ++ ('\n' :: line ++ behind) := by
      rw [htext, hbehind, ← List.cons_append, hfront]
      simp
    have hchain := isChain_breakBraces h
    rw [hparts] at hchain
    exact hchain.right_of_append.left_of_append
  · intro c hc
    cases hspace : isSpace c with
    | true => exact isBlockCode_of_isSpace hspace
    | false =>
        have hink : c ∈ ink (breakBraces text) := by
          simp [ink, mem_of_mem_lines hline hc, hspace]
        rw [← (respaced_breakBraces text).ink_eq] at hink
        exact h c (List.mem_filter.1 hink).1

lemma count_rows {c : Char} (hc : c ≠ '\n') (ls : List (List Char)) :
    (rows ls).count c = ls.flatten.count c := by
  induction ls with
  | nil => rfl
  | cons line ls ih => simp [hc.symm, ih]

/-- A line finds the block open that it closes at its start. -/
lemma Nested.closesAtStart_le {text line : List Char} (h : Nested text) {before after : List (List Char)}
    (hlines : lines text = before ++ line :: after) :
    before.flatten.count '}' + closesAtStart line ≤ before.flatten.count '{' := by
  have htext : text = rows before ++ unlines (line :: after) := by
    rw [← unlines_append_cons, ← hlines, unlines_lines]
  rw [closesAtStart]
  split
  · next hstart =>
      obtain ⟨rest, rfl⟩ := List.head?_eq_some_iff.1 hstart
      have hfirst : ∃ behind, unlines (('}' :: rest) :: after) = '}' :: behind := by
        cases after with
        | nil => exact ⟨rest, rfl⟩
        | cons next after => exact ⟨rest ++ '\n' :: unlines (next :: after), rfl⟩
      obtain ⟨behind, hbehind⟩ := hfirst
      have hcount := h (rows before ++ ['}']) ⟨behind, by rw [htext, hbehind, List.append_assoc]; rfl⟩
      simpa [count_rows] using hcount
  · have hcount := h (rows before) ⟨_, htext.symm⟩
    simpa [count_rows] using hcount

/-! ## The depth of the indenter -/

/-- **One line** moves the depth by the blocks that it opens and closes. -/
lemma Tidy.line_eq {line : List Char} (h : Tidy line) {s : Indenter} (hmode : s.mode = .code)
    (hdepth : closesAtStart line ≤ s.depth) :
    (s.line line).2.depth + line.count '}' = s.depth + line.count '{' ∧ (s.line line).2.mode = .code
      ∧ (isBare line = false → ∃ level, level + closesAtStart line = s.depth
        ∧ (s.line line).1 = some (s.unit.indentation level ++ lineBody (scanLine .code line).1)) := by
  rw [Indenter.line]
  split
  · next hbare =>
      obtain ⟨-, hkept, hcode⟩ := blankLine_kept s
      have hnone {c : Char} (hc : isSpace c = false) : line.count c = 0 := by
        refine List.count_eq_zero.2 fun hmem => ?_
        rw [List.all_eq_true.1 hbare c hmem] at hc
        contradiction
      rw [hkept, hnone (by decide), hnone (by decide)]
      exact ⟨rfl, hcode.trans hmode, fun hfull => by simp [hbare] at hfull⟩
  · obtain ⟨hplaced, hnext, hcode⟩ := fullLine_blockCode hmode h.plain
    obtain ⟨hlevel, hchange⟩ := h.depth_eq hdepth
    refine ⟨?_, hcode, fun _ => ⟨_, hlevel, congrArg some hplaced⟩⟩
    simpa [hnext] using hchange

/-- **Behind some lines the depth is the number of blocks that are open there.** -/
lemma depth_after {text : List Char} (hplain : ∀ c ∈ text, isBlockCode c = true) (hnested : Nested text)
    (unit : IndentUnit) {before after : List (List Char)}
    (hlines : lines (breakBraces text) = before ++ after) :
    (Indenter.after { unit } before).depth + before.flatten.count '}' = before.flatten.count '{'
      ∧ (Indenter.after { unit } before).mode = .code := by
  induction before using List.reverseRecOn generalizing after with
  | nil => exact ⟨rfl, rfl⟩
  | append_singleton before line ih =>
      rw [List.append_assoc] at hlines
      obtain ⟨hdepth, hmode⟩ := ih hlines
      have hopen := (nested_breakBraces hnested).closesAtStart_le hlines
      have htidy : Tidy line := tidy_of_mem_lines hplain (by simp [hlines])
      obtain ⟨hchange, hcode, -⟩ := htidy.line_eq hmode (by omega)
      have hafter : Indenter.after { unit } (before ++ [line])
          = ((Indenter.after { unit } before).line line).2 := by
        rw [Indenter.after, List.foldl_append]
        rfl
      rw [hafter, List.flatten_append, List.flatten_singleton, List.count_append, List.count_append]
      exact ⟨by omega, hcode⟩

/-- **Indentation is nesting.**  A script of plain code that closes no block before opening it is broken at
its braces, and its lines are given to a fresh indenter.  Behind every line the depth is the number of
blocks that are open, and a line that is not blank is put at the number of blocks that are open before
it, less one if it closes a block at its start: that many units stand before its first character. -/
theorem indenter_follows_nesting {text : List Char} (hplain : ∀ c ∈ text, isBlockCode c = true)
    (hnested : Nested text) (unit : IndentUnit) {before after : List (List Char)} {line : List Char}
    (hlines : lines (breakBraces text) = before ++ line :: after) :
    (Indenter.after { unit } (before ++ [line])).depth + (before ++ [line]).flatten.count '}'
        = (before ++ [line]).flatten.count '{'
      ∧ (isBare line = false → ∃ level body,
          level + closesAtStart line + before.flatten.count '}' = before.flatten.count '{'
          ∧ ((Indenter.after { unit } before).line line).1 = some (unit.indentation level ++ body)
          ∧ ink body = ink line ∧ ∃ c ∈ body.head?, isSpace c = false) := by
  obtain ⟨hdepth, hmode⟩ := depth_after hplain hnested unit hlines
  have hopen := (nested_breakBraces hnested).closesAtStart_le hlines
  have htidy : Tidy line := tidy_of_mem_lines hplain (by simp [hlines])
  obtain ⟨-, -, hplaced⟩ := htidy.line_eq hmode (by omega)
  have hbehind : lines (breakBraces text) = (before ++ [line]) ++ after := by simpa using hlines
  refine ⟨(depth_after hplain hnested unit hbehind).1, fun hfull => ?_⟩
  obtain ⟨level, hlevel, hline⟩ := hplaced hfull
  rw [Indenter.unit_after] at hline
  refine ⟨level, _, by omega, hline, ?_, head?_lineBody_blockCode htidy.plain hfull⟩
  rw [ink_lineBody, scanLine, chars_labelFrom]

/-- The line between the two blocks of a conditional closes one and opens the other. -/
theorem indenter_follows_nesting_else :
    (Indenter.after { unit := .tab } ["if (a) then \x7b".toList, "b".toList, "\x7d else \x7b".toList]).depth + 1 = 2
      ∧ ∃ level body, level + 1 + 0 = 1
        ∧ ((Indenter.after { unit := .tab } ["if (a) then \x7b".toList, "b".toList]).line "\x7d else \x7b".toList).1
          = some (IndentUnit.tab.indentation level ++ body)
        ∧ ink body = "\x7delse\x7b".toList ∧ ∃ c ∈ body.head?, isSpace c = false := by
  have hlines : lines (breakBraces "if (a) then \x7b b \x7d else \x7b \x7b \x7d c \x7d".toList)
      = ["if (a) then \x7b".toList, "b".toList] ++ "\x7d else \x7b".toList :: ["\x7b\x7d c".toList, "\x7d".toList] := by
    decide
  have h := indenter_follows_nesting (by decide) (by decide) .tab hlines
  exact ⟨h.1, h.2 (by decide)⟩

end SqfLayout.Pass
