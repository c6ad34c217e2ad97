import SqfLayout.Proofs.InsideComments
import SqfLayout.Proofs.Literals

/-!
# Bodies of block comments

**Comments.**  `BlockComment text front body back` divides a text at one of its block comments, and
`bodyLines` are the lines strictly inside of it that hold anything.  They are a run
(`BlockComment.insideRun`), so the margins pass strips them by one margin and the passes behind it leave
them as they are.

**Indentation.**  The indenter keeps a line inside a comment whole, but it counts the brackets of such a
line like those of code (`fullLine_inside`).  So the lines of a body are put at the depths of their
brackets (`lineDepths`), and only a body whose brackets do not move the depth is moved as a whole
(`bodyLines_formatText`, `bodyLines_formatText_brackets`).
-/

namespace SqfLayout.Pass

open SqfLayout.Text SqfLayout.Scan

/-! ## Lines that hold anything -/

/-- **The lines of a text that hold anything.** -/
def fullLines (text : List Char) : List (List Char) := (lines text).filter (!isBare ·)

lemma fullLines_unlines {ls : List (List Char)} (h : ∀ line ∈ ls, '\n' ∉ line) :
    fullLines (unlines ls) = ls.filter (!isBare ·) := by
  cases ls with
  | nil => rfl
  | cons line rest => rw [fullLines, lines_unlines (by simp) h]

/-- Line feeds at the ends of a text make blank lines only. -/
lemma fullLines_trimFeeds (text : List Char) :
    fullLines ((dropEndWhile (· == '\n') text).dropWhile (· == '\n')) = fullLines text := by
  obtain ⟨front, back, htext, hfront, hback⟩ := exists_dropEnds (· == '\n') text
  generalize (dropEndWhile (· == '\n') text).dropWhile (· == '\n') = kept at htext ⊢
  have hempty (n : Nat) : (List.replicate n ([] : List Char)).filter (!isBare ·) = [] :=
    List.filter_replicate_of_neg (by decide)
  rw [htext, fullLines, fullLines, lines_feeds fun c hc => beq_iff_eq.1 (hfront c hc),
    lines_append_feeds fun c hc => beq_iff_eq.1 (hback c hc), List.filter_append, List.filter_append,
    hempty, hempty, List.nil_append, List.append_nil]

/-! ## Lines of the indenter -/

/-- What is carried on behind some lines. -/
def Indenter.after (s : Indenter) (ls : List (List Char)) : Indenter :=
  ls.foldl (fun s line => (s.line line).2) s

lemma Indenter.lines_append (s : Indenter) (a b : List (List Char)) :
    s.lines (a ++ b) = s.lines a ++ (s.after a).lines b := by
  induction a generalizing s with
  | nil => rfl
  | cons line a ih =>
      have hafter : s.after (line :: a) = (s.line line).2.after a := rfl
      simp only [List.cons_append, Indenter.lines, hafter]
      rcases s.line line with ⟨placed | placed, s'⟩
      · exact ih s'
      · exact congrArg (placed :: ·) (ih s')

lemma Indenter.mode_after (s : Indenter) (hmode : s.mode ≠ .line) (ls : List (List Char)) :
    (s.after ls).mode = modeAfter s.mode (rows ls) := by
  induction ls generalizing s with
  | nil => rfl
  | cons line ls ih =>
      have hline := line_mode hmode line
      have hafter : s.after (line :: ls) = (s.line line).2.after ls := rfl
      rw [hafter, ih _ (by rw [hline]; exact scanLine_ne_line _ _), hline, rows_cons,
        (literalsFrom_line s.mode line (rows ls)).2]

lemma mem_squeezeFrom {dropping : Bool} {cells : List Cell} {c : Char}
    (h : c ∈ squeezeFrom dropping cells) : c = ' ' ∨ c ∈ chars cells := by
  fun_induction squeezeFrom dropping cells with
  | case1 dropping => simp at h
  | case2 dropping cell rest _ ih => exact (ih h).imp_right (List.mem_cons_of_mem _)
  | case3 dropping cell rest _ _ ih =>
      rcases List.mem_cons.1 h with rfl | h
      · exact .inl rfl
      · exact (ih h).imp_right (List.mem_cons_of_mem _)
  | case4 dropping cell rest _ _ ih =>
      rcases List.mem_cons.1 h with rfl | h
      · exact .inr List.mem_cons_self
      · exact (ih h).imp_right (List.mem_cons_of_mem _)

/-- The body of a line holds characters of the line, and spaces. -/
lemma mem_lineBody {scanned : ScannedLine} {c : Char} (h : c ∈ lineBody scanned) :
    c = ' ' ∨ c ∈ chars scanned.cells := by
  have htrim {c : Char} (h : c ∈ chars (trimCells scanned.cells)) : c ∈ chars scanned.cells := by
    obtain ⟨front, back, hcells, -, -⟩ := exists_trimCells scanned.cells
    rw [hcells, chars_append, chars_append]
    simp [h]
  rw [lineBody] at h
  split at h
  · exact .inr h
  · exact .inr (htrim h)
  · exact .inr (htrim h)
  · split at h
    · obtain ⟨cell, hcell, rfl⟩ := List.mem_map.1 h
      exact .inr (htrim (List.mem_map_of_mem (List.mem_filter.1 hcell).1))
    · exact (mem_squeezeFrom h).imp_right htrim

/-- No line at its depth holds a line feed. -/
lemma feed_notMem_fullLine (s : Indenter) {line : List Char} (hline : '\n' ∉ line) :
    '\n' ∉ (s.fullLine line).1 := by
  obtain ⟨level, hplaced⟩ := exists_fullLine s line
  have hbody : '\n' ∉ lineBody (scanLine s.mode line).1 := by
    intro hfeed
    rcases mem_lineBody hfeed with hspace | hfeed
    · exact absurd hspace (by decide)
    · rw [scanLine, chars_labelFrom] at hfeed
      exact hline hfeed
  rw [hplaced, List.mem_append, not_or]
  exact ⟨feed_notMem_indentation s.unit level, hbody⟩

/-- Nor does any line that is kept. -/
lemma feed_notMem_indenterLines (s : Indenter) {ls : List (List Char)} (h : ∀ line ∈ ls, '\n' ∉ line) :
    ∀ placed ∈ s.lines ls, '\n' ∉ placed :=
  Indenter.forall_lines (by simp) (fun s _ _ => feed_notMem_fullLine s) s h

/-- **The full lines of an indented text are those that the indenter keeps.** -/
lemma fullLines_indentLines (unit : IndentUnit) (text : List Char) :
    fullLines (indentLines unit text)
      = (Indenter.lines { unit } (lines text)).filter (!isBare ·) := by
  rw [indentLines, fullLines_trimFeeds, fullLines_unlines]
  exact feed_notMem_indenterLines _ fun _ => feed_notMem_of_mem_lines

/-! ## Levels inside a comment -/

/-- The depth at which a line itself stands. -/
def DepthChange.lineDepth : DepthChange → Nat → Nat
  | .opening, depth => depth
  | .closing, depth => depth - 1
  | .hanging, depth => depth - 1
  | .level, depth => depth

/-- The depth behind a line. -/
def DepthChange.nextDepth : DepthChange → Nat → Nat
  | .opening, depth => depth + 1
  | .closing, depth => depth - 1
  | .hanging, depth => depth
  | .level, depth => depth

/-- **The depths of lines in a row**, each by its own brackets and those of the lines before it. -/
def lineDepths : Nat → List (List Char) → List Nat
  | _, [] => []
  | depth, line :: rest =>
    (DepthChange.of line).lineDepth depth :: lineDepths ((DepthChange.of line).nextDepth depth) rest

lemma lineDepths_of_level {ls : List (List Char)} (h : ∀ line ∈ ls, DepthChange.of line = .level)
    (depth : Nat) : lineDepths depth ls = ls.map fun _ => depth := by
  induction ls with
  | nil => rfl
  | cons line ls ih =>
      obtain ⟨hline, hls⟩ := List.forall_mem_cons.1 h
      rw [lineDepths, hline, List.map_cons, ← ih hls]
      rfl

/-- **A line inside a comment is kept whole**, one level deeper than its brackets say. -/
lemma fullLine_inside {s : Indenter} (hmode : s.mode = .block) {line : List Char}
    (hline : closesBlock line = false) :
    (s.fullLine line).1
        = s.unit.indentation ((DepthChange.of line).lineDepth s.depth + 1) ++ line
      ∧ (s.fullLine line).2.depth = (DepthChange.of line).nextDepth s.depth
      ∧ (s.fullLine line).2.mode = .block ∧ (s.fullLine line).2.unit = s.unit := by
  have hbody : lineBody ⟨.inside, labelFrom (.ready .block) line⟩ = line := chars_labelFrom _ _
  simp only [Indenter.fullLine, hmode, scanLine_inside hline, hbody]
  cases DepthChange.of line <;> exact ⟨rfl, rfl, rfl, rfl⟩

/-- **The full lines of a comment body are kept whole at the depths of their brackets.** -/
lemma lines_inside {s : Indenter} (hmode : s.mode = .block) {ls : List (List Char)}
    (hls : ∀ line ∈ ls, closesBlock line = false) :
    (s.lines ls).filter (!isBare ·)
      = List.zipWith (fun level line => s.unit.indentation (level + 1) ++ line)
        (lineDepths s.depth (ls.filter (!isBare ·))) (ls.filter (!isBare ·)) := by
  induction ls generalizing s with
  | nil => rfl
  | cons line ls ih =>
      obtain ⟨hline, hrest⟩ := List.forall_mem_cons.1 hls
      cases hbare : isBare line with
      | true =>
          obtain ⟨hunit, hdepth, hblock⟩ := blankLine_kept s
          rw [List.filter_cons_of_neg (by simp [hbare]), ← hdepth, ← hunit, ← ih (hblock.trans hmode) hrest]
          rcases s.lines_bare hbare ls with hlines | hlines
          · rw [hlines]
          · rw [hlines]
            rfl
      | false =>
          obtain ⟨hplaced, hdepth, hblock, hunit⟩ := fullLine_inside hmode hline
          have hfull : isBare (s.unit.indentation ((DepthChange.of line).lineDepth s.depth + 1) ++ line)
              = false := by
            simp only [isBare, List.all_append, Bool.and_eq_false_iff]
            exact .inr hbare
          have hrows := ih hblock hrest
          rw [hdepth, hunit] at hrows
          rw [s.lines_full hbare, hplaced, List.filter_cons_of_pos (by rw [hfull]; rfl),
            List.filter_cons_of_pos (by simp [hbare]), hrows]
          rfl

lemma Indenter.unit_after (s : Indenter) (ls : List (List Char)) : (s.after ls).unit = s.unit := by
  induction ls generalizing s with
  | nil => rfl
  | cons line ls ih =>
      refine (ih (s.line line).2).trans ?_
      simp only [Indenter.line]
      split
      · exact (blankLine_kept s).1
      · simp only [Indenter.fullLine]
        split <;> rfl

/-- **A run inside a comment is kept whole by indentation**, from the depth that it starts at. -/
lemma InsideRun.indentLines {text : List Char} {ls : List (List Char)} (h : InsideRun text ls)
    (unit : IndentUnit) :
    ∃ depth, List.zipWith (fun level line => unit.indentation (level + 1) ++ line)
        (lineDepths depth (ls.filter (!isBare ·))) (ls.filter (!isBare ·))
      <:+: fullLines (indentLines unit text) := by
  obtain ⟨before, after, hlines, hmode, hclosed⟩ := h
  have hstart : (Indenter.after { unit } before).mode = .block := by
    rw [Indenter.mode_after _ Mode.noConfusion, hmode]
  refine ⟨(Indenter.after { unit } before).depth, ?_⟩
  have hinside := lines_inside hstart hclosed
  rw [Indenter.unit_after] at hinside
  rw [fullLines_indentLines, hlines, Indenter.lines_append, Indenter.lines_append, List.filter_append,
    List.filter_append, hinside]
  exact ⟨_, _, List.append_assoc _ _ _⟩

/-! ## Stripped lines -/

/-- White space at the ends of a line makes no difference to the depth. -/
lemma Stripped.depthChange_eq {line kept : List Char} (h : Stripped line kept) :
    DepthChange.of kept = DepthChange.of line := by
  obtain ⟨front, back, rfl, hfront, hback⟩ := h.space
  have hnone {cs : List Char} (hcs : ∀ c ∈ cs, isSpace c = true) {c : Char} (hc : isSpace c = false) :
      c ∉ cs := fun hmem => by simp [hcs c hmem] at hc
  have hcount {c : Char} (hc : isSpace c = false) : (front ++ (kept ++ back)).count c = kept.count c := by
    rw [List.count_append, List.count_append, List.count_eq_zero.2 (hnone hfront hc),
      List.count_eq_zero.2 (hnone hback hc)]
    omega
  have hfirst {o c : Char} (ho : isSpace o = false) (hc : isSpace c = false) :
      closesFirst (front ++ (kept ++ back)) o c = closesFirst kept o c := by
    have hpass : ∀ d ∈ front, (d != o) = true := by
      intro d hd
      rw [bne_iff_ne]
      rintro rfl
      exact hnone hfront ho hd
    have hbehind : c ∉ back.takeWhile (· != o) :=
      fun hmem => hnone hback hc ((List.takeWhile_sublist _).mem hmem)
    rw [closesFirst, closesFirst, List.takeWhile_append_of_pos hpass, List.takeWhile_append]
    rw [Bool.eq_iff_iff, List.contains_iff_mem, List.contains_iff_mem, List.mem_append]
    split
    · next hall =>
        rw [(List.takeWhile_sublist _).eq_of_length hall]
        simp [hnone hfront hc, hbehind]
    · simp [hnone hfront hc]
  simp only [DepthChange.of]
  rw [hcount (by decide), hcount (by decide), hcount (by decide), hcount (by decide),
    hfirst (by decide) (by decide), hfirst (by decide) (by decide)]

lemma Stripped.isBare_eq {line kept : List Char} (h : Stripped line kept) : isBare kept = isBare line := by
  obtain ⟨front, back, rfl, hfront, hback⟩ := h.space
  have hfront' : front.all isSpace = true := List.all_eq_true.2 hfront
  have hback' : back.all isSpace = true := List.all_eq_true.2 hback
  simp [isBare, hfront', hback']

/-- Stripping lines leaves their depths as they are. -/
lemma lineDepths_map {f : List Char → List Char} (hf : ∀ line, Stripped line (f line)) (depth : Nat)
    (ls : List (List Char)) : lineDepths depth (ls.map f) = lineDepths depth ls := by
  induction ls generalizing depth with
  | nil => rfl
  | cons line ls ih => rw [List.map_cons, lineDepths, lineDepths, (hf line).depthChange_eq, ih]

lemma takeWhile_trimEnd {line : List Char} (h : isBare line = false) :
    (trimEnd line).takeWhile isSpace = line.takeWhile isSpace := by
  obtain ⟨back, hline, hback⟩ := exists_trimEnd line
  have hne : ((trimEnd line).takeWhile isSpace).length ≠ (trimEnd line).length := by
    intro hlength
    have hall := List.takeWhile_eq_self_iff.1 ((List.takeWhile_sublist _).eq_of_length hlength)
    have hbare : isBare line = true := by
      rw [hline]
      exact List.all_eq_true.2 (List.forall_mem_append.2 ⟨hall, hback⟩)
    simp [h] at hbare
  conv_rhs => rw [hline]
  rw [List.takeWhile_append, if_neg hne]

lemma byteLength_spaces {text : List Char} (h : ∀ c ∈ text, c = ' ') : byteLength text = text.length := by
  induction text with
  | nil => rfl
  | cons c text ih =>
      obtain ⟨rfl, htext⟩ := List.forall_mem_cons.1 h
      rw [byteLength, ih htext, List.length_cons, Nat.add_comm]
      rfl

lemma stripIndent_spaces {m k : Nat} (h : m ≤ k) (rest : List Char) :
    stripIndent m (List.replicate k ' ' ++ rest) = List.replicate (k - m) ' ' ++ rest := by
  induction m generalizing k with
  | zero => rw [stripIndent, Nat.sub_zero]
  | succ m ih =>
      obtain ⟨k, rfl⟩ : ∃ j, k = j + 1 := ⟨k - 1, by omega⟩
      rw [List.replicate_succ, List.cons_append, stripIndent, if_pos (by decide)]
      have hsize : m + 1 - ' '.utf8Size = m := rfl
      rw [hsize, ih (by omega), Nat.add_sub_add_right]

/-- **A line indented by spaces, stripped by some of them**, is the line without more of them behind the
spaces that are left. -/
lemma stripIndent_trimEnd {line : List Char} (hfull : isBare line = false)
    (hspaces : ∀ c ∈ line.takeWhile isSpace, c = ' ') {m d : Nat} (hm : m ≤ d)
    (hd : d ≤ (line.takeWhile isSpace).length) :
    stripIndent m (trimEnd line) = List.replicate (d - m) ' ' ++ (trimEnd line).drop d := by
  have hindent : (trimEnd line).takeWhile isSpace
      = List.replicate (line.takeWhile isSpace).length ' ' := by
    rw [takeWhile_trimEnd hfull]
    exact List.eq_replicate_iff.2 ⟨rfl, hspaces⟩
  have hline := List.takeWhile_append_dropWhile (p := isSpace) (l := trimEnd line)
  rw [hindent] at hline
  rw [← hline, stripIndent_spaces (hm.trans hd), List.drop_append_of_le_length (by simpa using hd),
    List.drop_replicate, ← List.append_assoc, ← List.replicate_add]
  congr 2
  omega

/-! ## Block comments -/

/-- A scanner that is in a block comment before a slash is in it at the end of the text too. -/
lemma modeAfter_of_reads_slash {cells : List Cell} {stop : Cursor}
    (h : Reads (.ready .code) cells (some '/') stop) (hstop : stop.mode = .block) :
    modeAfter .code (chars cells) = .block := by
  rcases List.eq_nil_or_concat cells with rfl | ⟨init, cell, rfl⟩
  · obtain rfl := reads_nil.1 h
    exact hstop
  · rw [List.concat_eq_append] at h ⊢
    obtain ⟨mid, hinit, stop', hstep, rfl⟩ := reads_append.1 h
    have hcursor : cursorAfter (.ready .code) (chars init ++ [cell.char]) = (step mid cell.char none).2 :=
      hinit.cursorAfter_append
    have hmode : (step mid cell.char (some '/')).2.mode = .block := by
      rw [nextChar_nil] at hstep
      rw [hstep]
      exact hstop
    rw [modeAfter, chars_append, chars_cons, chars_nil, hcursor]
    cases mid with
    | midway mode => exact hmode
    | ready mode =>
        cases mode <;> simp only [step] at hmode ⊢ <;> split_ifs at hmode ⊢ <;> simp_all [Cursor.mode]

/-- A text behind the opening of a block comment that does not end it. -/
lemma modeAfter_opened {front body : List Char} (hcode : modeAfter .code front = .code)
    (hopens : modeAfter .code (front ++ ['/', '*']) = .block) (hbody : closesBlock body = false) :
    modeAfter .code (front ++ '/' :: '*' :: body) = .block := by
  obtain ⟨cells, stop, rfl, hcells⟩ := exists_reads (.ready .code) front (some '/')
  have hcursor (rest : List Char) :
      cursorAfter (.ready .code) (chars cells ++ '/' :: rest) = cursorAfter stop ('/' :: rest) :=
    hcells.cursorAfter_append
  have hstop : stop.mode ≠ .block := by
    intro hstop
    rw [modeAfter_of_reads_slash hcells hstop] at hcode
    exact absurd hcode (by decide)
  obtain rfl : stop = .ready .code := by
    rw [modeAfter, hcursor] at hopens
    rcases stop with (_ | _ | _ | _ | _) | (_ | _ | _ | _ | _) <;>
      simp_all [cursorAfter, step, Cursor.mode]
  rw [modeAfter, hcursor]
  exact modeAfter_block hbody

/-- **A block comment of a text**, between what comes before its opening and its end: the closing star
and slash, or the end of the text. -/
structure BlockComment (text front body back : List Char) : Prop where
  split : text = front ++ '/' :: '*' :: (body ++ back)
  /-- The text before the comment ends in code, -/
  code : modeAfter .code front = .code
  /-- and the comment is opened there. -/
  opens : modeAfter .code (front ++ ['/', '*']) = .block
  inside : closesBlock body = false
  ends : back = [] ∨ ∃ rest, back = '*' :: '/' :: rest

/-- The lines strictly inside a block comment with the given body: those of the body, but not the one
on which it starts, nor the one on which it is closed. -/
def innerLines (body back : List Char) : List (List Char) :=
  if back = [] then (lines body).tail else (lines body).tail.dropLast

/-- **The lines strictly inside a block comment that hold anything.** -/
def bodyLines (body back : List Char) : List (List Char) := (innerLines body back).filter (!isBare ·)

lemma feed_notMem_innerLines {body back line : List Char} (h : line ∈ innerLines body back) :
    '\n' ∉ line := by
  have hline : line ∈ lines body := by
    rw [innerLines] at h
    split at h
    · exact List.mem_of_mem_tail h
    · exact List.mem_of_mem_tail (List.dropLast_subset _ h)
  exact feed_notMem_of_mem_lines hline

/-- **The lines strictly inside a block comment are a run.** -/
lemma BlockComment.insideRun {text front body back : List Char} (h : BlockComment text front body back)
    (hne : innerLines body back ≠ []) : InsideRun text (innerLines body back) := by
  rw [insideRun_iff hne fun _ => feed_notMem_innerLines]
  obtain ⟨first, rest, hlines⟩ := List.exists_cons_of_ne_nil (splitWhen_ne_nil (· == '\n') body)
  change lines body = first :: rest at hlines
  have hinner : innerLines body back = if back = [] then rest else rest.dropLast := by
    rw [innerLines, hlines, List.tail_cons]
  have hrest : rest ≠ [] := by
    rintro rfl
    simp [hinner] at hne
  have hbody : body = first ++ '\n' :: unlines rest := by
    have happend := unlines_append (a := [first]) (by simp) hrest
    rw [← unlines_lines body, hlines]
    exact happend
  have hclosed := h.inside
  rw [hbody] at hclosed
  have hsplit : closesBlock first = false ∧ closesBlock (unlines rest) = false := by
    simpa [closesBlock_append_feed] using hclosed
  refine ⟨front ++ '/' :: '*' :: first, ?_⟩
  rcases h.ends with rfl | ⟨after, rfl⟩
  · refine ⟨[], ?_, modeAfter_opened h.code h.opens hsplit.1, ?_, .inl rfl⟩
    · rw [hinner, if_pos rfl, h.split, hbody]
      simp
    · rw [hinner, if_pos rfl]
      exact hsplit.2
  · rw [hinner, if_neg (by simp)] at hne ⊢
    have hlast : unlines rest = unlines rest.dropLast ++ '\n' :: rest.getLast hrest := by
      conv_lhs => rw [← List.dropLast_append_getLast hrest]
      exact unlines_append hne (by simp)
    refine ⟨'\n' :: (rest.getLast hrest ++ '*' :: '/' :: after), ?_,
      modeAfter_opened h.code h.opens hsplit.1, ?_, .inr ⟨_, rfl⟩⟩
    · rw [h.split, hbody, hlast]
      simp
    · rw [hlast] at hsplit
      exact closesBlock_append_left hsplit.2

/-! ## Formatting -/

/-- **Where the passes keep to comments**: what is asked of the texts that reach the headers pass and the
passes that pull marks back. -/
structure KeepsComments (style : Style) (vocabulary : Vocabulary) (text : List Char) : Prop where
  /-- Every conditional leaves nothing open behind its condition, or is canonical there. -/
  conditionals : HarmlessConditionals (textBefore style vocabulary .headers text)
  /-- So does every loop. -/
  loops : HarmlessLoops
    (spaceAlternatives (spaceConditionals (textBefore style vocabulary .headers text)))
  /-- No comma is pulled back into a line comment. -/
  commas : CommentsSeen ',' (textBefore style vocabulary .commas text)
  /-- No semicolon is. -/
  semicolons : CommentsSeen ';' (textBefore style vocabulary .semicolons text)

variable {style : Style} {vocabulary : Vocabulary} {text : List Char}

/-- **The passes between margins and indentation keep the trail of comments**, if words are not
spelled. -/
lemma KeepsComments.sameTrail (h : KeepsComments style vocabulary text)
    (hcase : style.normalizeCase = false) :
    SameTrail isComment (stripMargins text) (textBefore style vocabulary .indent text) := by
  have hfirm (cell : Cell) (hcell : isComment cell = true) : isFirm cell = true := by
    simp [isFirm, isSolid, Cell.isCode, eq_of_beq hcell]
  have hsolid (cell : Cell) (hcell : isComment cell = true) : isSolid cell = true :=
    (Bool.and_eq_true_iff.1 (hfirm cell hcell)).1
  have hstart : textBefore style vocabulary .braces text = stripMargins text := rfl
  rw [← hstart]
  have hall : LayoutPass.all = [.margins] ++ .braces ::
      ([.spelling, .commas, .operators, .headers, .statements, .semicolons, .parens] ++ .indent :: []) :=
    rfl
  refine textBefore_rel (fun _ _ _ => .trans) (fun _ => ⟨rfl, rfl⟩) text hall
    fun pass hpass henabled => ?_
  simp only [List.mem_cons, List.not_mem_nil, or_false] at hpass
  rcases hpass with rfl | rfl | rfl | rfl | rfl | rfl | rfl | rfl
  · exact (sameTrail_breakBraces (commentsTrimmed_stripMargins text)).narrow hsolid
  · exact absurd (hcase.symm.trans henabled) (by decide)
  · exact (sameTrail_spaceCommas h.commas).narrow hsolid
  · exact (sameTrail_spaceOperators _).narrow hsolid
  · exact (sameTrail_spaceHeaders h.conditionals h.loops).narrow hsolid
  · exact (sameTrail_splitStatements _).narrow hsolid
  · exact (sameTrail_joinSemicolons h.semicolons).narrow hfirm
  · exact (sameTrail_trimParens _).narrow hsolid

/-- The indentation that all of the given lines have, in characters. -/
def commonIndent (ls : List (List Char)) : Nat :=
  (ls.map fun line => (line.takeWhile isSpace).length).min?.getD 0

/-- **A run of lines inside a comment is formatted as a whole**: its full lines are stripped by one margin
and put at the depths of their brackets. -/
lemma InsideRun.formatText {ls : List (List Char)} (hrun : InsideRun text ls)
    (hfeed : ∀ line ∈ ls, '\n' ∉ line) (h : KeepsComments style vocabulary text)
    (hcase : style.normalizeCase = false) :
    ∃ m depth, (∀ line ∈ ls, trimEnd line ≠ [] → m ≤ leadingSpace (trimEnd line))
      ∧ List.zipWith
          (fun level line => style.indent.indentation (level + 1) ++ stripIndent m (trimEnd line))
          (lineDepths depth (ls.filter (!isBare ·))) (ls.filter (!isBare ·))
        <:+: fullLines (formatText style vocabulary text) := by
  obtain ⟨m, hmargin, hstripped⟩ := hrun.stripMargins
  have hstrip (line : List Char) : Stripped line (stripIndent m (trimEnd line)) :=
    stripped_stripIndent m line
  cases hls : ls with
  | nil => exact ⟨m, 0, by simp, List.nil_infix⟩
  | cons first rest =>
      rw [← hls]
      have hfeed' : ∀ kept ∈ ls.map (fun line => stripIndent m (trimEnd line)), '\n' ∉ kept := by
        intro kept hkept hmem
        obtain ⟨line, hline, rfl⟩ := List.mem_map.1 hkept
        obtain ⟨front, back, heq, -, -⟩ := (hstrip line).space
        refine hfeed line hline ?_
        rw [heq]
        simp [hmem]
      have hbefore := hstripped.of_sameTrail (h.sameTrail hcase) (by simp [hls]) hfeed'
      obtain ⟨depth, hplaced⟩ := hbefore.indentLines style.indent
      refine ⟨m, depth, hmargin, ?_⟩
      have hfull : (ls.map fun line => stripIndent m (trimEnd line)).filter (!isBare ·)
          = (ls.filter (!isBare ·)).map fun line => stripIndent m (trimEnd line) := by
        rw [List.filter_map]
        congr 1
        exact List.filter_congr fun line _ => congrArg (!·) (hstrip line).isBare_eq
      rw [hfull, lineDepths_map hstrip, List.zipWith_map_right] at hplaced
      rw [formatText_eq_indentLines]
      exact hplaced

lemma isBare_of_mem_bodyLines {body back line : List Char} (h : line ∈ bodyLines body back) :
    isBare line = false := by
  simpa using (List.mem_filter.1 h).2

/-- **The common indentation lies between a margin of the lines and the indentation of each.** -/
lemma commonIndent_spec {body back : List Char} {m : Nat}
    (hmargin : ∀ line ∈ innerLines body back, trimEnd line ≠ [] → m ≤ leadingSpace (trimEnd line))
    (hspaces : ∀ line ∈ bodyLines body back, ∀ c ∈ line.takeWhile isSpace, c = ' ') {line : List Char}
    (hline : line ∈ bodyLines body back) :
    m ≤ commonIndent (bodyLines body back)
      ∧ commonIndent (bodyLines body back) ≤ (line.takeWhile isSpace).length := by
  have hindent : (line.takeWhile isSpace).length
      ∈ (bodyLines body back).map fun line => (line.takeWhile isSpace).length :=
    List.mem_map.2 ⟨line, hline, rfl⟩
  refine ⟨?_, List.min?_getD_le_of_mem hindent⟩
  -- the least indentation is that of some line
  obtain ⟨least, hleast⟩ := Option.ne_none_iff_exists'.1
    fun hnone => List.ne_nil_of_mem hindent (List.min?_eq_none_iff.1 hnone)
  obtain ⟨other, hother, rfl⟩ := List.mem_map.1 (List.min?_mem hleast)
  rw [commonIndent, hleast, Option.getD_some]
  have hfull := isBare_of_mem_bodyLines hother
  have hne : trimEnd other ≠ [] := by
    intro hnil
    have hbare := (stripped_stripIndent 0 other).isBare_eq
    rw [hnil, hfull] at hbare
    exact absurd hbare (by decide)
  have hspace : leadingSpace (trimEnd other) = (other.takeWhile isSpace).length := by
    rw [leadingSpace, takeWhile_trimEnd hfull, byteLength_spaces (hspaces other hother)]
  rw [← hspace]
  exact hmargin other (List.mem_filter.1 hother).1 hne

end SqfLayout.Pass

namespace SqfLayout

open SqfLayout.Text SqfLayout.Scan SqfLayout.Pass

/-- **The body of a block comment keeps its layout up to the depths of its brackets.**  Its lines are put one
level deeper than the depths of their brackets, each with the common indentation replaced by the same
number of spaces; where no line has brackets that move the depth, that is one common prefix. -/
theorem bodyLines_formatText (style : Style) (hcase : style.normalizeCase = false)
    (vocabulary : Vocabulary) (text front body back : List Char)
    (hcomment : BlockComment text front body back) (hkept : KeepsComments style vocabulary text)
    (hspaces : ∀ line ∈ bodyLines body back, ∀ c ∈ line.takeWhile isSpace, c = ' ') :
    (∃ depth spaces, List.zipWith
        (fun level line => style.indent.indentation (level + 1) ++ (List.replicate spaces ' '
          ++ (trimEnd line).drop (commonIndent (bodyLines body back))))
        (lineDepths depth (bodyLines body back)) (bodyLines body back)
      <:+: fullLines (formatText style vocabulary text))
    ∧ ((∀ line ∈ bodyLines body back, DepthChange.of line = .level) →
      ∃ p, (bodyLines body back).map
          (fun line => p ++ (trimEnd line).drop (commonIndent (bodyLines body back)))
        <:+: fullLines (formatText style vocabulary text)) := by
  have hstripped : ∃ depth spaces, List.zipWith
        (fun level line => style.indent.indentation (level + 1) ++ (List.replicate spaces ' '
          ++ (trimEnd line).drop (commonIndent (bodyLines body back))))
        (lineDepths depth (bodyLines body back)) (bodyLines body back)
      <:+: fullLines (formatText style vocabulary text) := by
    by_cases hinner : innerLines body back = []
    · exact ⟨0, 0, by simp [bodyLines, hinner]⟩
    obtain ⟨m, depth, hmargin, hplaced⟩ := (hcomment.insideRun hinner).formatText
      (fun _ => feed_notMem_innerLines) hkept hcase
    refine ⟨depth, commonIndent (bodyLines body back) - m, ?_⟩
    have hlines : (bodyLines body back).map (fun line => stripIndent m (trimEnd line))
        = (bodyLines body back).map fun line =>
          List.replicate (commonIndent (bodyLines body back) - m) ' '
            ++ (trimEnd line).drop (commonIndent (bodyLines body back)) := by
      refine List.map_congr_left fun line hline => ?_
      obtain ⟨hle, hcommon⟩ := commonIndent_spec hmargin hspaces hline
      exact stripIndent_trimEnd (isBare_of_mem_bodyLines hline) (hspaces line hline) hle hcommon
    have hzip (f : List Char → List Char) :
        List.zipWith (fun level line => style.indent.indentation (level + 1) ++ f line)
            (lineDepths depth (bodyLines body back)) (bodyLines body back)
          = List.zipWith (fun level kept => style.indent.indentation (level + 1) ++ kept)
            (lineDepths depth (bodyLines body back)) ((bodyLines body back).map f) :=
      List.zipWith_map_right.symm
    rw [hzip, ← hlines, ← hzip]
    exact hplaced
  refine ⟨hstripped, fun hlevel => ?_⟩
  obtain ⟨depth, spaces, hplaced⟩ := hstripped
  refine ⟨style.indent.indentation (depth + 1) ++ List.replicate spaces ' ', ?_⟩
  rw [lineDepths_of_level hlevel, List.zipWith_map_left, List.zipWith_self] at hplaced
  simpa only [List.append_assoc] using hplaced

/-- A comment within braces, whose body has brackets that are closed where they are opened. -/
theorem bodyLines_formatText_nested :
    BlockComment "x = \x7b\n/* a\n      b [1]  \n\n    c\n*/ y\x7d;".toList "x = \x7b\n".toList
        " a\n      b [1]  \n\n    c\n".toList "*/ y\x7d;".toList
      ∧ (∃ p, ["  b [1]".toList, "c".toList].map (p ++ ·) <:+: fullLines
        (formatText { normalizeCase := false } .builtin
          "x = \x7b\n/* a\n      b [1]  \n\n    c\n*/ y\x7d;".toList)) := by
  have hcomment : BlockComment "x = \x7b\n/* a\n      b [1]  \n\n    c\n*/ y\x7d;".toList
      "x = \x7b\n".toList " a\n      b [1]  \n\n    c\n".toList "*/ y\x7d;".toList :=
    ⟨by decide, by decide, by decide, by decide, .inr ⟨_, rfl⟩⟩
  have hkept : KeepsComments { normalizeCase := false } .builtin
      "x = \x7b\n/* a\n      b [1]  \n\n    c\n*/ y\x7d;".toList :=
    ⟨by decide +kernel, by decide +kernel, by decide +kernel, by decide +kernel⟩
  exact ⟨hcomment, (bodyLines_formatText _ rfl _ _ _ _ _ hcomment hkept (by decide)).2 (by decide)⟩

/-- **Brackets in the body of a comment move its lines apart.** -/
theorem bodyLines_formatText_brackets :
    BlockComment "/*\n\x7b\na\n\x7d\n*/".toList [] "\n\x7b\na\n\x7d\n".toList "*/".toList
      ∧ KeepsComments { normalizeCase := false } .builtin "/*\n\x7b\na\n\x7d\n*/".toList
      ∧ bodyLines "\n\x7b\na\n\x7d\n".toList "*/".toList = [['\x7b'], ['a'], ['\x7d']]
      ∧ ¬ ∃ p : List Char, [p ++ ['\x7b'], p ++ ['a'], p ++ ['\x7d']].Sublist
        (fullLines (formatText { normalizeCase := false } .builtin "/*\n\x7b\na\n\x7d\n*/".toList)) := by
  refine ⟨⟨by decide, by decide, by decide, by decide, .inr ⟨[], rfl⟩⟩,
    ⟨by decide +kernel, by decide +kernel, by decide +kernel, by decide +kernel⟩, by decide, ?_⟩
  rintro ⟨p, hsub⟩
  -- the only line that ends in the brace is indented by four, the one that ends in the letter by eight
  have hbrace : ∀ line ∈ fullLines (formatText { normalizeCase := false } .builtin
      "/*\n\x7b\na\n\x7d\n*/".toList), line.getLast? = some '\x7b' → line.length = 5 := by
    decide +kernel
  have hletter : ∀ line ∈ fullLines (formatText { normalizeCase := false } .builtin
      "/*\n\x7b\na\n\x7d\n*/".toList), line.getLast? = some 'a' → line.length = 9 := by
    decide +kernel
  have hfive := hbrace (p ++ ['\x7b']) (hsub.subset (by simp)) (by simp)
  have hnine := hletter (p ++ ['a']) (hsub.subset (by simp)) (by simp)
  simp only [List.length_append, List.length_singleton] at hfive hnine
  omega

end SqfLayout
