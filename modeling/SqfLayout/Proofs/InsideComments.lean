import SqfLayout.Proofs.Breaks
import SqfLayout.Proofs.Headers
import SqfLayout.Proofs.PulledBack

/-!
# Lines inside block comments

**Runs.**  `InsideRun text ls`: the lines `ls` follow each other in the text, the scanner is in a block
comment where they start, and none of them ends it.  Within the text they are a stretch between line
feeds that is read in the comment from end to end (`insideRun_iff`).

**Trails.**  The comments of a text are on its trail, so passes that keep the trail keep every run
(`InsideRun.of_sameTrail`).

**Margins.**  The margins pass strips the lines of a run by one margin, which no line reaches over
(`InsideRun.stripMargins`).
-/

namespace SqfLayout.Pass

open SqfLayout.Text SqfLayout.Scan

/-! ## Texts that end no block comment -/

/-- Whether a star is directly followed by a slash. -/
def closesBlock : List Char → Bool
  | [] => false
  | c :: rest => (c == '*' && rest.head? == some '/') || closesBlock rest

lemma closesBlock_append_feed (a b : List Char) :
    closesBlock (a ++ '\n' :: b) = (closesBlock a || closesBlock b) := by
  induction a with
  | nil => simp [closesBlock]
  | cons c a ih =>
      simp only [List.cons_append, closesBlock, ih, Bool.or_assoc]
      cases a <;> simp

lemma closesBlock_append_left {a b : List Char} (h : closesBlock (a ++ b) = false) :
    closesBlock a = false := by
  induction a with
  | nil => rfl
  | cons c a ih =>
      simp only [List.cons_append, closesBlock, Bool.or_eq_false_iff] at h ⊢
      refine ⟨?_, ih h.2⟩
      cases a with
      | nil => simp
      | cons d a => exact h.1

lemma closesBlock_append_right {a b : List Char} (h : closesBlock (a ++ b) = false) :
    closesBlock b = false := by
  induction a with
  | nil => exact h
  | cons c a ih =>
      simp only [List.cons_append, closesBlock, Bool.or_eq_false_iff] at h
      exact ih h.2

lemma closesBlock_unlines {ls : List (List Char)} :
    closesBlock (unlines ls) = false ↔ ∀ line ∈ ls, closesBlock line = false := by
  induction ls with
  | nil => simp [unlines, joinWith, closesBlock]
  | cons line rest ih =>
      cases rest with
      | nil => simp [unlines, joinWith]
      | cons next rest =>
          have htext : unlines (line :: next :: rest) = line ++ '\n' :: unlines (next :: rest) := rfl
          rw [htext, closesBlock_append_feed, Bool.or_eq_false_iff, ih, List.forall_mem_cons (l := next :: rest)]

/-- The place of a character inside a block comment. -/
def blockPlace (c : Char) : Cursor × Cell := (.ready .block, ⟨c, .comment⟩)

/-- A cell of a comment. -/
def isComment (cell : Cell) : Bool := cell.kind == .comment

lemma step_block {c : Char} {next : Option Char} (h : (c == '*' && next == some '/') = false) :
    step (.ready .block) c next = (.comment, .ready .block) := by
  simp [step, h]

/-- **A text that ends no block comment is read inside of one.** -/
lemma reads_block {text : List Char} (h : closesBlock text = false) {follow : Option Char}
    (hfollow : follow ≠ some '/') :
    Reads (.ready .block) (text.map (⟨·, .comment⟩)) follow (.ready .block)
      ∧ trail isComment (.ready .block) (text.map (⟨·, .comment⟩)) follow = text.map blockPlace := by
  induction text with
  | nil => exact ⟨rfl, rfl⟩
  | cons c rest ih =>
      simp only [closesBlock, Bool.or_eq_false_iff] at h
      obtain ⟨hreads, htrail⟩ := ih h.2
      have hstep : step (.ready .block) c (nextChar (rest.map (Cell.mk · .comment)) follow)
          = (.comment, .ready .block) := by
        refine step_block ?_
        cases rest with
        | nil => simp [hfollow]
        | cons d rest => exact h.1
      refine ⟨⟨.ready .block, hstep, hreads⟩, ?_⟩
      rw [List.map_cons, trail_cons hstep, htrail]
      rfl

lemma modeAfter_block {text : List Char} (h : closesBlock text = false) :
    modeAfter .block text = .block := by
  have hreads : Reads (.ready .block) (text.map (⟨·, .comment⟩)) none (.ready .block) :=
    (reads_block h (by simp)).1
  have hcursor := hreads.cursorAfter_eq
  rw [chars_map_mk] at hcursor
  rw [modeAfter, hcursor]
  rfl

/-! ## Runs -/

/-- **A run of lines inside a block comment.** -/
def InsideRun (text : List Char) (ls : List (List Char)) : Prop :=
  ∃ before after, lines text = before ++ (ls ++ after) ∧ modeAfter .code (rows before) = .block
    ∧ ∀ line ∈ ls, closesBlock line = false

lemma afterLine_eq_block {mode : Mode} : mode.afterLine = .block ↔ mode = .block := by
  cases mode <;> decide

lemma modeAfter_rows_lines (text : List Char) :
    modeAfter .code (rows (lines text)) = (modeAfter .code text).afterLine := by
  rw [(rowLiterals_eq (lines text)).2, unlines_lines]
  rfl

/-- **A run is a stretch of the text between line feeds**, or between a line feed and the end. -/
lemma insideRun_iff {text : List Char} {ls : List (List Char)} (hne : ls ≠ [])
    (hls : ∀ line ∈ ls, '\n' ∉ line) :
    InsideRun text ls ↔ ∃ front back, text = front ++ '\n' :: (unlines ls ++ back)
      ∧ modeAfter .code front = .block ∧ closesBlock (unlines ls) = false
      ∧ (back = [] ∨ ∃ rest, back = '\n' :: rest) := by
  constructor
  · rintro ⟨before, after, hlines, hmode, hclosed⟩
    have hbefore : before ≠ [] := by
      rintro rfl
      exact absurd hmode (by decide)
    have htext : text = unlines before ++ '\n' :: unlines (ls ++ after) := by
      rw [← unlines_append hbefore (by simp [hne]), ← hlines, unlines_lines]
    have hopen : modeAfter .code (unlines before) = .block := by
      rw [← unlines_append_feed hbefore, (literalsFrom_line .code (unlines before) []).2] at hmode
      exact afterLine_eq_block.1 hmode
    refine ⟨unlines before, if after = [] then [] else '\n' :: unlines after, ?_, hopen,
      closesBlock_unlines.2 hclosed, ?_⟩
    · split
      · next hnil => rw [htext, hnil, List.append_nil, List.append_nil]
      · next hafter => rw [htext, unlines_append hne hafter]
    · split
      · exact .inl rfl
      · exact .inr ⟨_, rfl⟩
  · rintro ⟨front, back, rfl, hmode, hclosed, hback⟩
    have hlines : lines (unlines ls) = ls := lines_unlines hne hls
    have hbefore : modeAfter .code (rows (lines front)) = .block := by
      rw [modeAfter_rows_lines, hmode]
      rfl
    rcases hback with rfl | ⟨rest, rfl⟩
    · refine ⟨lines front, [], ?_, hbefore, closesBlock_unlines.1 hclosed⟩
      rw [lines_append_feed, List.append_nil, hlines, List.append_nil]
    · refine ⟨lines front, lines rest, ?_, hbefore, closesBlock_unlines.1 hclosed⟩
      rw [lines_append_feed, lines_append_feed, hlines]

/-! ## Trails -/

/-- **What is read in a block comment is what the trail has there.** -/
lemma eq_of_block_trail {inner : List Char} {cells : List Cell} {stop : Cursor}
    (h : Reads (.ready .block) cells none stop) {places : List (Cursor × Cell)}
    (htrail : trail isComment (.ready .block) cells none = inner.map blockPlace ++ places)
    (hplaces : places = [] ∨ ∃ rest, places = blockPlace '\n' :: rest) :
    ∃ back, chars cells = inner ++ back ∧ (back = [] ∨ ∃ rest, back = '\n' :: rest) := by
  -- the first cell of a stretch that is read in the comment is on the trail
  have hfirst {cell : Cell} {rest : List Cell} (h : Reads (.ready .block) (cell :: rest) none stop) :
      ∃ mid, trail isComment (.ready .block) (cell :: rest) none
          = blockPlace cell.char :: trail isComment mid rest none
        ∧ Reads mid rest none stop ∧ (mid = .ready .block ∨ mid = .midway .code ∧ rest ≠ []) := by
    obtain ⟨mid, hstep, hrest⟩ := h
    have hkind : cell.kind = .comment := (Prod.mk.inj hstep).1.symm
    refine ⟨mid, ?_, hrest, ?_⟩
    · rw [trail_cons hstep]
      obtain ⟨c, kind⟩ := cell
      obtain rfl : kind = .comment := hkind
      rfl
    · simp only [step, Prod.mk.injEq] at hstep
      split at hstep
      · next hclose =>
          refine .inr ⟨hstep.2.symm, ?_⟩
          rintro rfl
          simp at hclose
      · exact .inl hstep.2.symm
  induction inner generalizing cells with
  | nil =>
      cases cells with
      | nil => exact ⟨[], rfl, .inl rfl⟩
      | cons cell rest =>
          obtain ⟨mid, hcons, -, -⟩ := hfirst h
          rw [hcons] at htrail
          rcases hplaces with rfl | ⟨places, rfl⟩
          · simp at htrail
          · have hchar : cell.char = '\n' := congrArg (·.2.char) (List.cons.inj htrail).1
            exact ⟨'\n' :: chars rest, by rw [chars_cons, hchar]; rfl, .inr ⟨_, rfl⟩⟩
  | cons c inner ih =>
      cases cells with
      | nil => simp at htrail
      | cons cell rest =>
          obtain ⟨mid, hcons, hrest, hmid⟩ := hfirst h
          rw [hcons] at htrail
          obtain ⟨hplace, htrail⟩ := List.cons.inj htrail
          have hchar : cell.char = c := congrArg (·.2.char) hplace
          rcases hmid with rfl | ⟨rfl, hne⟩
          · obtain ⟨back, hchars, hback⟩ := ih hrest htrail
            exact ⟨back, by rw [chars_cons, hchar, hchars]; rfl, hback⟩
          · -- a comment that ends here is on the trail of no run
            obtain ⟨slash, rest, rfl⟩ := List.exists_cons_of_ne_nil hne
            obtain ⟨mid', hstep, -⟩ := hrest
            have hkind : slash.kind = .comment := (Prod.mk.inj hstep).1.symm
            rw [trail_cons hstep, if_pos (by simp [isComment, hkind])] at htrail
            cases inner with
            | cons _ _ => exact absurd (congrArg Prod.fst (List.cons.inj htrail).1) (by simp [blockPlace])
            | nil =>
                rcases hplaces with rfl | ⟨places, rfl⟩
                · simp at htrail
                · exact absurd (congrArg Prod.fst (List.cons.inj htrail).1) (by simp [blockPlace])

/-- **Passes that keep the trail of comments keep runs of lines inside of them.** -/
lemma InsideRun.of_sameTrail {a b : List Char} {ls : List (List Char)} (h : SameTrail isComment a b)
    (hrun : InsideRun a ls) (hne : ls ≠ []) (hls : ∀ line ∈ ls, '\n' ∉ line) : InsideRun b ls := by
  obtain ⟨front, back, rfl, hmode, hclosed, hback⟩ := (insideRun_iff hne hls).1 hrun
  have hnotslash : back.head? ≠ some '/' := by
    rcases hback with rfl | ⟨rest, rfl⟩ <;> simp
  have hfeed : heeded (some '\n') = heeded none := rfl
  obtain ⟨hinner, hplaces⟩ := reads_block hclosed hnotslash
  -- the trail of the text: the line feed before the run, the run, and what follows
  have hlabel : label (front ++ '\n' :: (unlines ls ++ back))
      = label front ++ ⟨'\n', .comment⟩ :: ((unlines ls).map (⟨·, .comment⟩)
        ++ labelFrom (.ready .block) back) := by
    have hcut := (labelFrom_cut .code front (b := '\n' :: (unlines ls ++ back)) rfl).1
    have hrest := hinner.labelFrom_append
    rw [chars_map_mk] at hrest
    rw [label, hcut, hmode, labelFrom, step_feed (by decide), hrest]
    rfl
  have hfollow : (labelFrom (.ready .block) back).head?.map Cell.char = back.head? := by
    cases back <;> rfl
  have hnext : nextChar (labelFrom (.ready .block) back) none = back.head? := by
    rw [nextChar, hfollow, Option.or_none]
  have htrail : trail isComment (.ready .code) (label (front ++ '\n' :: (unlines ls ++ back))) none
      = trail isComment (.ready .code) (label front) (some '\n')
        ++ blockPlace '\n' :: ((unlines ls).map blockPlace
          ++ trail isComment (.ready .block) (labelFrom (.ready .block) back) none) := by
    have hfront : Reads (.ready .code) (label front) (some '\n') (.ready .block) := by
      have hreads := reads_modeAfter .code front
      rw [hmode] at hreads
      exact (reads_congr hfeed).2 hreads
    rw [hlabel, trail_append _ hfront, trail_cons (step_feed (by decide) _),
      trail_append _ (by rw [hnext]; exact hinner), hnext, hplaces]
    rfl
  have hends : trail isComment (.ready .block) (labelFrom (.ready .block) back) none = []
      ∨ ∃ rest, trail isComment (.ready .block) (labelFrom (.ready .block) back) none
        = blockPlace '\n' :: rest := by
    rcases hback with rfl | ⟨rest, rfl⟩
    · exact .inl rfl
    · refine .inr ⟨trail isComment (.ready .block) (labelFrom (.ready .block) rest) none, ?_⟩
      rw [labelFrom, step_feed (by decide), trail_cons (step_feed (by decide) _)]
      rfl
  -- the same places in the other text
  have hsame := h.1.trans htrail
  obtain ⟨front', cells, mid, hcells, hfront, hstep, hreads, hcells'⟩ :=
    exists_of_trail (reads_label b) hsame
  rw [blockPlace, step_feed (by decide)] at hstep
  obtain ⟨-, rfl⟩ := Prod.mk.inj hstep
  obtain ⟨back', hchars, hback'⟩ := eq_of_block_trail hreads hcells' hends
  refine (insideRun_iff hne hls).2 ⟨chars front', back', ?_, ?_, hclosed, hback'⟩
  · have htext := congrArg chars hcells
    rw [chars_label, chars_append, chars_cons, hchars] at htext
    exact htext
  · have hfront' : Reads (.ready .code) front' none (.ready .block) := (reads_congr hfeed).1 hfront
    rw [modeAfter, hfront'.cursorAfter_eq]
    rfl

/-! ## Margins -/

/-- A margin that every line has of the comment body at the start of the given rows. -/
def Margin (body : Option Nat) (rows : List (List Char × CommentPosition)) : Prop :=
  ∀ m ∈ body, ∀ row ∈ rows.takeWhile (·.2 == .inside), trimEnd row.1 ≠ [] →
    m ≤ leadingSpace (trimEnd row.1)

lemma margin_none (rows : List (List Char × CommentPosition)) : Margin none rows := by simp [Margin]

lemma margin_bodyMargin (rows : List (List Char × CommentPosition)) :
    Margin (some (bodyMargin rows)) rows := by
  rintro m ⟨⟩ row hrow hne
  refine List.min?_getD_le_of_mem (List.mem_map.2 ⟨trimEnd row.1, List.mem_filter.2 ⟨?_, ?_⟩, rfl⟩)
  · exact List.mem_map.2 ⟨row, hrow, rfl⟩
  · simpa using hne

lemma Margin.tail {m : Nat} {row : List Char × CommentPosition}
    {rest : List (List Char × CommentPosition)} (hrow : row.2 = .inside)
    (h : Margin (some m) (row :: rest)) : Margin (some m) rest := by
  rintro m' hm row' hrow' hne
  refine h m' hm row' ?_ hne
  rw [List.takeWhile_cons_of_pos (by simp [hrow])]
  exact List.mem_cons_of_mem _ hrow'

/-- The margin that the first line of a body goes by. -/
lemma Margin.getD {body : Option Nat} {rows : List (List Char × CommentPosition)}
    (h : Margin body rows) : Margin (some (body.getD (bodyMargin rows))) rows := by
  cases body with
  | none => exact margin_bodyMargin rows
  | some m => exact h

/-- Behind some rows the margin that is carried along is one of the rows that follow. -/
lemma exists_stripRows_append (before rest : List (List Char × CommentPosition)) {body : Option Nat}
    (h : Margin body (before ++ rest)) :
    ∃ front body', front.length = before.length
      ∧ stripRows body (before ++ rest) = front ++ stripRows body' rest ∧ Margin body' rest := by
  induction before generalizing body with
  | nil => exact ⟨[], body, rfl, rfl, h⟩
  | cons row before ih =>
      obtain ⟨line, position⟩ := row
      simp only [List.cons_append, stripRows]
      split
      · next hinside =>
          have hmargin := h.getD.tail (by simpa using hinside)
          obtain ⟨front, body', hlength, hrows, hbody⟩ := ih hmargin
          exact ⟨_ :: front, body', by simp [hlength], by rw [List.cons_append, ← hrows]; rfl, hbody⟩
      · obtain ⟨front, body', hlength, hrows, hbody⟩ := ih (margin_none _)
        exact ⟨_ :: front, body', by simp [hlength], by rw [List.cons_append, ← hrows], hbody⟩

/-- Behind the first row of a comment body the margin is settled. -/
lemma stripRows_append_inside (margin : Nat) {body : List (List Char × CommentPosition)}
    (h : ∀ row ∈ body, row.2 = .inside) (after : List (List Char × CommentPosition)) :
    stripRows (some margin) (body ++ after)
      = body.map (fun row => stripIndent margin (trimEnd row.1)) ++ stripRows (some margin) after := by
  induction body with
  | nil => rfl
  | cons row body ih =>
      obtain ⟨line, position⟩ := row
      obtain ⟨hrow, hrest⟩ := List.forall_mem_cons.1 h
      obtain rfl : position = .inside := hrow
      rw [List.map_cons, List.cons_append, List.cons_append, ← ih hrest]
      rfl

/-- **The rows of a comment body are stripped by one margin.** -/
lemma exists_stripRows_inside (ls : List (List Char)) (after : List (List Char × CommentPosition))
    {body : Option Nat} (h : Margin body (ls.map (·, .inside) ++ after)) :
    ∃ m rest, stripRows body (ls.map (·, .inside) ++ after)
        = ls.map (fun line => stripIndent m (trimEnd line)) ++ rest
      ∧ ∀ line ∈ ls, trimEnd line ≠ [] → m ≤ leadingSpace (trimEnd line) := by
  have hinside : ∀ row ∈ ls.map (·, CommentPosition.inside), row.2 = .inside := by simp
  cases ls with
  | nil => exact ⟨0, stripRows body after, rfl, by simp⟩
  | cons line ls =>
      have hrows := stripRows_append_inside (body.getD (bodyMargin ((line :: ls).map (·, .inside) ++ after)))
        hinside after
      rw [List.map_map] at hrows
      refine ⟨_, _, hrows, fun line' hline => h.getD _ rfl (line', .inside) ?_⟩
      rw [List.takeWhile_append_of_pos (by simp)]
      exact List.mem_append_left _ (List.mem_map_of_mem hline)

lemma length_positions (mode : Mode) (ls : List (List Char)) : (positions mode ls).length = ls.length := by
  induction ls generalizing mode with
  | nil => rfl
  | cons line ls ih => simp [positions, ih]

lemma positions_append (mode : Mode) (a b : List (List Char)) :
    positions mode (a ++ b) = positions mode a ++ positions (modeAfter mode (rows a)) b := by
  induction a generalizing mode with
  | nil => rfl
  | cons line a ih =>
      rw [rows_cons, (literalsFrom_line mode line (rows a)).2]
      simp only [List.cons_append, positions, ih]

lemma scanLine_inside {line : List Char} (h : closesBlock line = false) :
    scanLine .block line = (⟨.inside, labelFrom (.ready .block) line⟩, .block) := by
  rw [scanLine, modeAfter_block h]
  rfl

/-- The lines of a run lie inside the comment. -/
lemma positions_inside {ls : List (List Char)} (h : ∀ line ∈ ls, closesBlock line = false)
    (after : List (List Char)) :
    positions .block (ls ++ after) = ls.map (·, .inside) ++ positions .block after := by
  induction ls with
  | nil => rfl
  | cons line ls ih =>
      obtain ⟨hline, hrest⟩ := List.forall_mem_cons.1 h
      simp only [List.cons_append, positions, scanLine_inside hline, ih hrest, List.map_cons]

/-- **The margins pass strips the lines of a run by one margin**, which all of them have. -/
lemma InsideRun.stripMargins {text : List Char} {ls : List (List Char)} (h : InsideRun text ls) :
    ∃ m, (∀ line ∈ ls, trimEnd line ≠ [] → m ≤ leadingSpace (trimEnd line))
      ∧ InsideRun (stripMargins text) (ls.map fun line => stripIndent m (trimEnd line)) := by
  obtain ⟨before, after, hlines, hmode, hclosed⟩ := h
  have hstripped := forall₂_stripRows none .code (lines text)
  have hpositions : positions .code (lines text)
      = positions .code before ++ (ls.map (·, .inside) ++ positions .block after) := by
    rw [hlines, positions_append, hmode, positions_inside hclosed]
  obtain ⟨front, body, hlength, hfront, hbody⟩ := exists_stripRows_append (positions .code before)
    (ls.map (·, .inside) ++ positions .block after) (margin_none _)
  obtain ⟨m, rest, hinside, hle⟩ := exists_stripRows_inside ls (positions .block after) hbody
  rw [← hpositions, hinside] at hfront
  refine ⟨m, hle, front, rest, by rw [lines_stripMargins, hfront], ?_, ?_⟩
  · -- stripping leaves the mode behind the lines before the run
    have hlength' : front.length = before.length := by rw [hlength, length_positions]
    rw [hfront, hlines] at hstripped
    have hbefore := List.forall₂_take_append _ _ _ hstripped
    rw [hlength', List.take_left] at hbefore
    rw [(rowsKept_stripped Mode.noConfusion hbefore).mode_eq, hmode]
  · intro kept hkept
    obtain ⟨line, hline, rfl⟩ := List.mem_map.1 hkept
    obtain ⟨⟨f, b, heq, -, -⟩, -⟩ := stripped_stripIndent m line
    have hline' := hclosed line hline
    rw [heq] at hline'
    exact closesBlock_append_left (closesBlock_append_right hline')

end SqfLayout.Pass
