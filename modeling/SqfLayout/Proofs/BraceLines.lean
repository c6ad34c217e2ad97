import SqfLayout.Proofs.ReadBack

/-!
# Where braces stand

The braces pass writes from left to right, and a closing brace takes away white space that has been written
already.  What the pass has put behind an opening brace survives this, for it ends in a character that is no
white space.

**Braces.**  `Opens` says how the text behind an opening brace begins, and `StartsLine` what stands before a
closing one.  `Laid done coming` says so of the braces that are written, if the given cells come next.  One step
of the pass keeps this up (`Laid.push`, `Laid.close`), and so does the pass (`Underway.bracesLaid`).

**Fixed texts.**  A text whose braces stand at their places stays as it is (`bracesFrom_eq_self`), hence a second
run changes nothing.
-/

namespace SqfLayout.Pass

open SqfLayout.Text SqfLayout.Scan

/-- **How the text behind an opening brace begins**: with the closing brace of an empty block, with a line feed
and the first character of a block, or with a space and two slashes. -/
inductive Opens : List Cell → Prop
  | empty (rest : List Cell) : Opens (.code '}' :: rest)
  | block {cell : Cell} (rest : List Cell) :
      isSpace cell.char = false → cell ≠ .code '}' → Opens (.code '\n' :: cell :: rest)
  | remark {first second : Cell} (rest : List Cell) :
      first.char = '/' → second.char = '/' → Opens (.code ' ' :: first :: second :: rest)

/-- **What stands before a closing brace**: nothing, the opening brace of an empty block, or a line feed behind
a character that is no white space. -/
def StartsLine (before : List Cell) : Prop :=
  before = [] ∨ (∃ front, before = front ++ [.code '{'])
    ∨ ∃ front cell, before = front ++ [cell, .code '\n'] ∧ isSpace cell.char = false

/-- **All braces stand at their places.** -/
structure BracesLaid (cells : List Cell) : Prop where
  opened : ∀ before after, cells = before ++ .code '{' :: after → after = [] ∨ Opens after
  closed : ∀ before after, cells = before ++ .code '}' :: after → StartsLine before

/-! ## Braces that are written -/

lemma Opens.append {after : List Cell} (h : Opens after) (more : List Cell) : Opens (after ++ more) := by
  cases h with
  | empty rest => exact .empty (rest ++ more)
  | block rest hspace hbrace => exact .block (rest ++ more) hspace hbrace
  | remark rest hfirst hsecond => exact .remark (rest ++ more) hfirst hsecond

/-- What begins with white space before a closing brace begins no block. -/
lemma not_opens_closing {w rest : List Cell} {first : Cell} (hw : AllSpace w)
    (h : w ++ [.code '}'] = first :: rest) : isSpace first.char = true ∨ first = .code '}' := by
  cases w with
  | nil => exact .inr (List.cons.inj h).1.symm
  | cons s w => exact .inl ((List.cons.inj h).1 ▸ hw s List.mem_cons_self)

/-- **The white space before a closing brace is no part of a beginning.** -/
lemma Opens.trim {after w : List Cell} (h : Opens (after ++ (w ++ [.code '}']))) (hw : AllSpace w) :
    Opens after ∨ (after = [] ∧ w = []) := by
  have hblock {cell : Cell} {rest w : List Cell} (hw : AllSpace w) (heq : w ++ [.code '}'] = cell :: rest)
      (hspace : isSpace cell.char = false) : cell = .code '}' :=
    (not_opens_closing hw heq).resolve_left (by simp [hspace])
  have hslash {cell : Cell} {rest w : List Cell} (hw : AllSpace w) (heq : w ++ [.code '}'] = cell :: rest) :
      cell.char ≠ '/' := by
    intro hchar
    have hbrace := hblock hw heq (by rw [hchar]; decide)
    rw [hbrace] at hchar
    exact absurd hchar (by decide)
  generalize hcells : after ++ (w ++ [.code '}']) = cells at h
  cases h with
  | empty rest =>
      cases after with
      | nil =>
          cases w with
          | nil => exact .inr ⟨rfl, rfl⟩
          | cons s w =>
              obtain ⟨rfl, -⟩ := List.cons.inj hcells
              exact absurd (hw _ List.mem_cons_self) (by decide)
      | cons a after =>
          obtain ⟨rfl, -⟩ := List.cons.inj hcells
          exact .inl (.empty after)
  | block rest hspace hbrace =>
      rcases after with - | ⟨a, - | ⟨b, after⟩⟩
      · cases w with
        | nil => simp [Cell.code] at hcells
        | cons s w => exact absurd (hblock (List.forall_mem_cons.1 hw).2 (List.cons.inj hcells).2 hspace) hbrace
      · exact absurd (hblock hw (List.cons.inj hcells).2 hspace) hbrace
      · simp only [List.cons_append, List.cons.injEq] at hcells
        obtain ⟨rfl, rfl, -⟩ := hcells
        exact .inl (.block after hspace hbrace)
  | remark rest hfirst hsecond =>
      rcases after with - | ⟨a, - | ⟨b, - | ⟨c, after⟩⟩⟩
      · cases w with
        | nil => simp [Cell.code] at hcells
        | cons s w => exact absurd hfirst (hslash (List.forall_mem_cons.1 hw).2 (List.cons.inj hcells).2)
      · exact absurd hfirst (hslash hw (List.cons.inj hcells).2)
      · exact absurd hsecond (hslash hw (List.cons.inj (List.cons.inj hcells).2).2)
      · simp only [List.cons_append, List.cons.injEq] at hcells
        obtain ⟨rfl, rfl, rfl, -⟩ := hcells
        exact .inl (.remark after hfirst hsecond)

/-- **The braces that are written** stand at their places, if the given cells come next. -/
structure Laid (done coming : List Cell) : Prop where
  opened : ∀ before after, done = before ++ .code '{' :: after → Opens (after ++ coming)
  closed : ∀ before after, done = before ++ .code '}' :: after → StartsLine before

/-- A cell of a longer list is the new one or one of the list before. -/
lemma split_concat {done before after : List Cell} {cell x : Cell} (h : done ++ [cell] = before ++ x :: after) :
    (done = before ∧ cell = x ∧ after = []) ∨ ∃ rest, after = rest ++ [cell] ∧ done = before ++ x :: rest := by
  rcases List.eq_nil_or_concat' after with rfl | ⟨rest, last, rfl⟩
  · obtain ⟨rfl, hcell⟩ := List.append_inj' h rfl
    exact .inl ⟨rfl, List.singleton_inj.1 hcell, rfl⟩
  · rw [← List.cons_append, ← List.append_assoc] at h
    obtain ⟨rfl, hcell⟩ := List.append_inj' h rfl
    exact .inr ⟨rest, by rw [List.singleton_inj.1 hcell], rfl⟩

lemma Laid.more {done coming : List Cell} (h : Laid done coming) (more : List Cell) :
    Laid done (coming ++ more) := by
  refine ⟨fun before after heq => ?_, h.closed⟩
  rw [← List.append_assoc]
  exact (h.opened before after heq).append more

/-- **One more cell.** -/
lemma Laid.push {done coming : List Cell} {cell : Cell} (h : Laid done (cell :: coming))
    (hopen : cell = .code '{' → Opens coming) (hclose : cell = .code '}' → StartsLine done) :
    Laid (done ++ [cell]) coming := by
  refine ⟨fun before after heq => ?_, fun before after heq => ?_⟩
  · rcases split_concat heq with ⟨-, hcell, rfl⟩ | ⟨rest, rfl, hdone⟩
    · exact hopen hcell
    · rw [List.append_assoc]
      exact h.opened before rest hdone
  · rcases split_concat heq with ⟨rfl, hcell, -⟩ | ⟨rest, -, hdone⟩
    · exact hclose hcell
    · exact h.closed before rest hdone

/-- **A closing brace starts a line.** -/
lemma Laid.close {out : List Cell} (h : Laid out.reverse [.code '}']) (hlast : out.head? ≠ some (.code '{')) :
    Laid (closeBrace out (.code '}')).reverse [] := by
  obtain ⟨gone, hout, hgone⟩ := exists_dropWhile (fun cell : Cell => isSpace cell.char) out
  have hhead := head?_dropWhile (fun cell : Cell => isSpace cell.char) out
  have hspace : AllSpace gone.reverse := fun cell hcell => hgone cell (List.mem_reverse.1 hcell)
  rw [closeBrace]
  generalize out.dropWhile (fun cell => isSpace cell.char) = kept at hout hhead ⊢
  have hreverse : out.reverse = kept.reverse ++ gone.reverse := by rw [hout, List.reverse_append]
  have hkept : Laid kept.reverse [] := by
    refine ⟨fun before after heq => ?_, fun before after heq => ?_⟩
    · rw [List.append_nil]
      refine Or.resolve_right (Opens.trim (w := gone.reverse) ?_ hspace) ?_
      · rw [← List.append_assoc]
        exact h.opened before (after ++ gone.reverse) (by simp [hreverse, heq])
      · -- an opening brace directly before the closing one has a gap of its own
        rintro ⟨rfl, hnil⟩
        rw [heq, hnil, List.append_nil] at hreverse
        rw [← List.getLast?_reverse, hreverse, List.getLast?_concat] at hlast
        exact hlast rfl
    · exact h.closed before (after ++ gone.reverse) (by simp [hreverse, heq])
  cases kept with
  | nil => exact (hkept.more [.code '}']).push (fun heq => absurd heq (by decide)) fun _ => .inl rfl
  | cons cell kept =>
      have hfeed : Laid ((cell :: kept).reverse ++ [.code '\n']) [.code '}'] :=
        (hkept.more [.code '\n', .code '}']).push (fun heq => absurd heq (by decide))
          fun heq => absurd heq (by decide)
      have hstart : StartsLine ((cell :: kept).reverse ++ [.code '\n']) :=
        .inr (.inr ⟨kept.reverse, cell, by simp, hhead cell rfl⟩)
      have hbrace : Laid ((cell :: kept).reverse ++ [.code '\n'] ++ [.code '}']) [] :=
        hfeed.push (fun heq => absurd heq (by decide)) fun _ => hstart
      simpa using hbrace

/-- What stands between an opening brace and the first character of its block. -/
lemma opens_gapBreak {crossed : Bool} {cell : Cell} {next : Option Cell} (hspace : isSpace cell.char = false)
    (hbrace : cell ≠ .code '}') : Opens (gapBreak crossed cell next :: cell :: next.toList) := by
  rw [gapBreak]
  split
  · next hslash =>
      simp only [Bool.and_eq_true, beq_iff_eq] at hslash
      cases next with
      | none => simp at hslash
      | some second => exact .remark [] hslash.1.1 (by simpa using hslash.2)
  · exact .block next.toList hspace hbrace

/-- **The braces pass under way.**  In the gap behind an opening brace this brace is still to come. -/
def Underway (out : List Cell) (gap : Option Bool) (rest : List Cell) : Prop :=
  if gap.isSome then ∃ tail, out = .code '{' :: tail ∧ Laid tail.reverse [.code '{']
  else out.head? ≠ some (.code '{') ∧ Laid out.reverse rest.head?.toList

/-- A cell that closes no block is written, unless it opens one. -/
lemma Laid.underway {out rest : List Cell} {cell : Cell} (hclosing : cell ≠ .code '}')
    (hopening : cell = .code '{' → Laid out.reverse [cell])
    (hplain : cell ≠ .code '{' → Laid out.reverse (cell :: rest.head?.toList)) :
    Underway (cell :: out) (gapAfter cell) rest := by
  by_cases hcell : cell = .code '{'
  · subst hcell
    exact ⟨out, rfl, hopening rfl⟩
  · have hgap : gapAfter cell = none := by
      rw [gapAfter, if_neg fun hcode => hcell (isCode_iff.1 hcode)]
    rw [hgap]
    refine ⟨fun hhead => hcell (Option.some.inj hhead), ?_⟩
    rw [List.reverse_cons]
    exact (hplain hcell).push (fun heq => absurd heq hcell) fun heq => absurd heq hclosing

/-- **The braces pass puts braces at their places.** -/
lemma Underway.bracesLaid {out : List Cell} {gap : Option Bool} {rest : List Cell} (h : Underway out gap rest) :
    BracesLaid (bracesFrom out gap rest) := by
  fun_induction bracesFrom out gap rest with
  | case1 out gap =>
      cases gap with
      | none =>
          refine ⟨fun before after heq => .inr ?_, h.2.closed⟩
          simpa using h.2.opened before after heq
      | some crossed =>
          obtain ⟨tail, rfl, hlaid⟩ := h
          rw [List.reverse_cons]
          refine ⟨fun before after heq => ?_, fun before after heq => ?_⟩
          · rcases split_concat heq with ⟨-, -, rfl⟩ | ⟨rest, rfl, hdone⟩
            · exact .inl rfl
            · exact .inr (hlaid.opened before rest hdone)
          · rcases split_concat heq with ⟨-, hbrace, -⟩ | ⟨rest, rfl, hdone⟩
            · exact absurd hbrace (by decide)
            · exact hlaid.closed before rest hdone
  | case2 out cell rest ih =>
      obtain ⟨hlast, hlaid⟩ := h
      refine ih ?_
      rw [placeCell]
      split
      · next hcell =>
          obtain rfl := isCode_iff.1 hcell
          refine ⟨?_, (hlaid.close hlast).more rest.head?.toList⟩
          rw [closeBrace]
          split <;> simp [Cell.code]
      · next hcell =>
          exact Laid.underway (fun heq => hcell (isCode_iff.2 heq)) (fun _ => hlaid)
            fun _ => hlaid.more rest.head?.toList
  | case3 out crossed cell rest hspace ih => exact ih h
  | case4 out crossed cell rest hspace hclosing ih =>
      obtain ⟨tail, rfl, hlaid⟩ := h
      obtain rfl := isCode_iff.1 hclosing
      have hopened : Laid (.code '{' :: tail).reverse (.code '}' :: rest.head?.toList) := by
        rw [List.reverse_cons]
        exact (hlaid.more (.code '}' :: rest.head?.toList)).push (fun _ => .empty _)
          fun heq => absurd heq (by decide)
      refine ih ⟨by simp [Cell.code], ?_⟩
      rw [List.reverse_cons]
      refine hopened.push (fun heq => absurd heq (by decide)) fun _ => .inr (.inl ⟨tail.reverse, ?_⟩)
      rw [List.reverse_cons]
  | case5 out crossed cell rest hspace hclosing ih =>
      obtain ⟨tail, rfl, hlaid⟩ := h
      have hbrace : cell ≠ .code '}' := fun heq => hclosing (isCode_iff.2 heq)
      have hink : isSpace cell.char = false := by simpa using hspace
      -- the brace and what stands behind it are written together
      have hwritten {coming : List Cell} (hopens : Opens (gapBreak crossed cell rest.head? :: cell :: coming)) :
          Laid (gapBreak crossed cell rest.head? :: .code '{' :: tail).reverse (cell :: coming) := by
        rw [List.reverse_cons, List.reverse_cons]
        have hopened := (hlaid.more (gapBreak crossed cell rest.head? :: cell :: coming)).push (fun _ => hopens)
          fun heq => absurd heq (by decide)
        have hne {c : Char} (hc : isSpace c = false) : gapBreak crossed cell rest.head? ≠ .code c := by
          rw [gapBreak]
          rintro heq
          split at heq <;> (cases heq; exact absurd hc (by decide))
        exact hopened.push (fun heq => absurd heq (hne (by decide))) fun heq => absurd heq (hne (by decide))
      refine ih (Laid.underway hbrace (fun hcell => hwritten ?_) fun _ => hwritten (opens_gapBreak hink hbrace))
      subst hcell
      exact .block [] hink hbrace

lemma bracesLaid_breakBraces (text : List Char) : BracesLaid (label (breakBraces text)) := by
  rw [label_breakBraces]
  exact Underway.bracesLaid ⟨by decide, by simp, by simp⟩

/-! ## Fixed texts -/

/-- A closing brace that starts a line stays there. -/
lemma closeBrace_of_startsLine {out : List Cell} {brace : Cell} (h : StartsLine out.reverse)
    (hlast : out.head? ≠ some (.code '{')) : closeBrace out brace = brace :: out := by
  rcases h with hnil | ⟨front, hfront⟩ | ⟨front, cell, hfront, hcell⟩
  · rw [List.reverse_eq_nil_iff.1 hnil]
    rfl
  · rw [← List.getLast?_reverse, hfront, List.getLast?_concat] at hlast
    exact absurd rfl hlast
  · obtain rfl : out = .code '\n' :: cell :: front.reverse := by
      rw [← List.reverse_reverse out, hfront]
      simp
    rw [closeBrace, List.dropWhile_cons_of_pos (by decide), List.dropWhile_cons_of_neg (by simp [hcell])]

/-- **Cells whose braces stand at their places stay as they are.** -/
lemma bracesFrom_eq_self {cells : List Cell} (h : BracesLaid cells) {out rest : List Cell}
    (hcells : cells = out.reverse ++ rest) : bracesFrom out (out.head?.bind gapAfter) rest = cells := by
  induction hlength : rest.length using Nat.strong_induction_on generalizing out rest with
  | _ n ih =>
      subst hlength
      cases rest with
      | nil => rw [bracesFrom, hcells, List.append_nil]
      | cons cell rest =>
          by_cases hopen : out.head? = some (.code '{')
          · obtain ⟨tail, rfl⟩ : ∃ tail, out = .code '{' :: tail := List.head?_eq_some_iff.1 hopen
            rw [List.reverse_cons, List.append_assoc, List.singleton_append] at hcells
            -- the gap behind the brace is read up to the character that ends it
            have hgap : (Cell.code '{' :: tail).head?.bind gapAfter = some false := rfl
            rw [hgap]
            cases (h.opened tail.reverse (cell :: rest) hcells).resolve_left (by simp) with
            | empty rest =>
                rw [bracesFrom, if_neg (by decide), if_pos (by decide)]
                exact ih rest.length (by simp) (by simp [hcells]) rfl
            | @block first back hspace hbrace =>
                have hbreak : gapBreak (false || '\n' == '\n') first back.head? = .code '\n' := by simp [gapBreak]
                rw [bracesFrom, if_pos (by decide), bracesFrom, if_neg (by simp [hspace]),
                  if_neg fun hcode => hbrace (isCode_iff.1 hcode), char_code, hbreak]
                exact ih back.length (by simp only [List.length_cons]; omega) (by simp [hcells]) rfl
            | @remark first second back hfirst hsecond =>
                have hbreak : gapBreak (false || ' ' == '\n') first (some second) = .code ' ' := by
                  simp [gapBreak, hfirst, hsecond]
                rw [bracesFrom, if_pos (by decide), bracesFrom, if_neg (by rw [hfirst]; decide),
                  if_neg (by simp [Cell.isCode, hfirst]), char_code, List.head?_cons, hbreak]
                exact ih (second :: back).length (by simp) (by simp [hcells]) rfl
          · have hgap : out.head?.bind gapAfter = none := by
              rw [Option.bind_eq_none_iff]
              intro last hlast
              rw [gapAfter, if_neg]
              exact fun hcode => hopen (hlast.trans (congrArg some (isCode_iff.1 hcode)))
            have hplaced : placeCell out cell = cell :: out := by
              rw [placeCell]
              split
              · next hcell =>
                  obtain rfl := isCode_iff.1 hcell
                  exact closeBrace_of_startsLine (h.closed out.reverse rest hcells) hopen
              · rfl
            rw [hgap, bracesFrom, hplaced]
            exact ih rest.length (by simp) (by simp [hcells]) rfl

/-- **A second run of the pass changes nothing.** -/
lemma breakBraces_breakBraces (text : List Char) : breakBraces (breakBraces text) = breakBraces text := by
  have hcells : bracesFrom [] none (label (breakBraces text)) = label (breakBraces text) :=
    bracesFrom_eq_self (bracesLaid_breakBraces text) rfl
  rw [breakBraces, hcells, chars_label]

/-! ## The layout -/

/-- **What stands behind an opening brace**: nothing, the closing brace of an empty block, a space and a line
comment, or a line feed and a character that is no white space and closes no block. -/
def EndsLine (after : List Cell) : Prop :=
  after = [] ∨ (∃ rest, after = .code '}' :: rest)
    ∨ (∃ rest, after = .code ' ' :: ⟨'/', .comment⟩ :: ⟨'/', .comment⟩ :: rest)
    ∨ ∃ cell rest, after = .code '\n' :: cell :: rest ∧ isSpace cell.char = false ∧ cell ≠ .code '}'

/-- **Where braces stand.**  The pass moves white space only, and in the text that it writes every opening brace
of code ends its line, and every closing one starts its line. -/
theorem breakBraces_layout (text : List Char) :
    ink (breakBraces text) = ink text
      ∧ (∀ before after, label (breakBraces text) = before ++ .code '{' :: after → EndsLine after)
      ∧ ∀ before after, label (breakBraces text) = before ++ .code '}' :: after → StartsLine before := by
  have hlaid := bracesLaid_breakBraces text
  refine ⟨(respaced_breakBraces text).ink_eq.symm, fun before after hlabel => ?_, hlaid.closed⟩
  rcases hlaid.opened before after hlabel with hnil | hopens
  · exact .inl hnil
  · cases hopens with
    | empty rest => exact .inr (.inl ⟨rest, rfl⟩)
    | block rest hspace hbrace => exact .inr (.inr (.inr ⟨_, rest, rfl, hspace, hbrace⟩))
    | remark rest hfirst hsecond =>
        -- two slashes behind the brace are read as a comment
        have hreads := reads_label (breakBraces text)
        rw [hlabel] at hreads
        obtain ⟨mid, -, hafter⟩ := reads_append.1 hreads
        have hspace : AllSpace [.code ' '] := List.forall_mem_singleton.2 (by decide)
        obtain ⟨rfl, rfl⟩ := comment_of_slashes (w := [.code ' ']) hafter hspace hfirst hsecond
        exact .inr (.inr (.inl ⟨rest, rfl⟩))

/-- A comment behind a brace, an empty block, and white space at the end of a comment before a brace. -/
theorem breakBraces_layout_comment :
    breakBraces "\x7b // a\n\x7b \n \x7d b // c \n \x7d".toList = "\x7b // a\n\x7b\x7d b // c\n\x7d".toList
      ∧ EndsLine (label " // a\n\x7b\x7d b // c\n\x7d".toList)
      ∧ StartsLine (label "\x7b // a\n\x7b\x7d b // c\n".toList) := by
  have h := breakBraces_layout "\x7b // a\n\x7b \n \x7d b // c \n \x7d".toList
  have htext : breakBraces "\x7b // a\n\x7b \n \x7d b // c \n \x7d".toList
      = "\x7b // a\n\x7b\x7d b // c\n\x7d".toList := by
    decide +kernel
  rw [htext] at h
  exact ⟨htext, h.2.1 [] _ (by decide +kernel), h.2.2 _ [] (by decide +kernel)⟩

end SqfLayout.Pass
