import SqfLayout.Proofs.PulledBack

/-!
# Marks that get into comments

A comma or a semicolon that is pulled back over the line feed of a line comment becomes a part of the
comment.  This file shows that nothing hides it: the first mark that does not see a line comment changes
the view of the text for good, so the passes keep the view exactly if every line comment is seen.

**Comments at the end.**  What is taken for a line comment is one (`feed_of_endsInLineComment`).

**Spoiled runs.**  No later step of a run takes away what a mark has been pulled back to
(`MarkRun.above`).  The mark is read as a comment there, where the text has none
(`filter_ne_of_unseen`).

**Semicolons.**  Of several semicolons of code with only white space of code between them one is left
(`solid_joinSemicolons`).
-/

namespace SqfLayout.Pass

open SqfLayout.Text SqfLayout.Scan

/-! ## Comments at the end -/

/-- A line comment that does not end stays a line comment. -/
lemma reads_line_comment {cells : List Cell} (hcells : ∀ cell ∈ cells, cell.kind = .comment)
    {follow : Option Char} {stop : Cursor} (h : Reads (.ready .line) cells follow stop) :
    stop = .ready .line := by
  induction cells with
  | nil => exact (reads_nil.1 h).symm
  | cons cell rest ih =>
      obtain ⟨hcell, hrest⟩ := List.forall_mem_cons.1 hcells
      obtain ⟨mid, hstep, hreads⟩ := h
      rw [hcell] at hstep
      simp only [step] at hstep
      split at hstep
      · exact absurd (Prod.mk.inj hstep).1 (by decide)
      · obtain ⟨-, rfl⟩ := Prod.mk.inj hstep
        exact ih hrest hreads

/-- The last character of a block comment, and the one before it. -/
lemma closes_of_step {start mid stop : Cursor} {c d : Char} {next : Option Char} {kind : CharClass}
    (hfirst : step start c (some d) = (kind, mid)) (hlast : step mid d next = (.comment, stop))
    (hstop : stop = .ready .code) : c = '*' ∧ d = '/' := by
  subst hstop
  obtain rfl : mid = .midway .code := by
    cases mid with
    | midway mode =>
        obtain ⟨-, hmode⟩ := Prod.mk.inj hlast
        rw [Cursor.ready.inj hmode]
    | ready mode =>
        cases mode with
        | code => simp only [step] at hlast; split_ifs at hlast <;> simp_all
        | single => simp [step] at hlast
        | double => simp [step] at hlast
        | line => simp only [step] at hlast; split_ifs at hlast <;> simp_all
        | block => simp only [step] at hlast; split_ifs at hlast <;> simp_all
  cases start with
  | midway mode => simp [step] at hfirst
  | ready mode =>
      cases mode with
      | code => simp only [step] at hfirst; split_ifs at hfirst <;> simp_all
      | single => simp [step] at hfirst
      | double => simp [step] at hfirst
      | line => simp only [step] at hfirst; split_ifs at hfirst <;> simp_all
      | block => simp only [step] at hfirst; split_ifs at hfirst <;> simp_all

/-- **Comments that end in code end in a block comment.** -/
lemma endsInLineComment_of_code {kept : List Cell} {follow : Option Char}
    (h : Reads (.ready .code) kept.reverse follow (.ready .code)) : endsInLineComment kept = false := by
  by_cases hne : lastComment kept = []
  · rw [lastComment] at hne
    simp [endsInLineComment, hne]
  have hreads := reads_lastComment h hne
  have hkind : ∀ cell ∈ lastComment kept, cell.kind = .comment := fun cell hcell => by
    simpa using List.mem_takeWhile_imp hcell
  rw [endsInLineComment, ← lastComment]
  generalize lastComment kept = comment at hne hreads hkind
  -- it does not start with two slashes, for such a comment does not end
  have hstarts : ['/', '/'].isPrefixOf (chars comment.reverse) = false := by
    by_contra hslashes
    rw [Bool.not_eq_false, List.isPrefixOf_iff_prefix] at hslashes
    obtain ⟨tail, htail⟩ := hslashes
    obtain ⟨first, cells, hfirst⟩ := List.exists_cons_of_ne_nil (mt List.reverse_eq_nil_iff.1 hne)
    have hcells : ∀ cell ∈ cells, cell.kind = .comment := fun cell hcell =>
      hkind cell (List.mem_reverse.1 (by rw [hfirst]; simp [hcell]))
    rw [hfirst] at htail hreads
    rw [chars_cons] at htail
    obtain ⟨hslash, hsecond⟩ := List.cons.inj htail
    obtain ⟨mid, hstep, hrest⟩ := hreads
    have hnext : nextChar cells follow = some '/' := by
      rw [nextChar_eq, ← hsecond]
      rfl
    rw [← hslash, hnext] at hstep
    obtain rfl : Cursor.ready .line = mid := (Prod.mk.inj hstep).2
    exact absurd (reads_line_comment hcells hrest) (by decide)
  -- and it ends with a star and a slash
  have hends : ['/', '*'].isPrefixOf (chars comment) = true := by
    obtain ⟨last, cells, rfl⟩ := List.exists_cons_of_ne_nil hne
    rw [List.reverse_cons] at hreads
    obtain ⟨mid, hfront, mid', hstep, rfl⟩ := reads_append.1 hreads
    rw [hkind last (by simp)] at hstep
    cases cells with
    | nil =>
        obtain rfl := reads_nil.1 hfront
        simp only [step] at hstep
        split_ifs at hstep <;> simp_all
    | cons previous cells =>
        rw [List.reverse_cons] at hfront
        obtain ⟨start, -, _, hstep', rfl⟩ := reads_append.1 hfront
        obtain ⟨hstar, hslash⟩ := closes_of_step hstep' hstep rfl
        simp [hstar, hslash]
  rw [chars_reverse] at hstarts
  simp [hstarts, hends]

/-- **Behind what is taken for a line comment there is a line feed.** -/
lemma feed_of_endsInLineComment {kept rest : List Cell} {feed : Cell} {follow : Option Char}
    {stop : Cursor} (h : Reads (.ready .code) (kept.reverse ++ feed :: rest) follow stop)
    (hkind : feed.kind = .code) (hends : endsInLineComment kept = true) : feed.char = '\n' := by
  obtain ⟨mid, hfront, mid', hstep, -⟩ := reads_append.1 h
  rw [hkind] at hstep
  rcases (ready_of_code hstep).2 with rfl | ⟨-, hfeed⟩
  · rw [endsInLineComment_of_code hfront] at hends
    contradiction
  · exact hfeed

/-! ## Spoiled runs -/

section Spoiled

variable {m : Char} {also : Char → Bool} {keep : Cell → Bool} {text : List Char}
  {out out' done rest rest' kept stuff : List Cell}

/-- A mark is pulled back to a mark that has been pulled back, or it takes its place. -/
lemma pullBack_above (m : Char) (stuff : List Cell) (hkept : kept.dropWhile (isLoose also) = kept) :
    (∃ s, pullBack also (stuff ++ .code m :: kept) = s ++ .code m :: kept)
      ∨ pullBack also (stuff ++ .code m :: kept) = kept := by
  obtain ⟨gone, hout, hgone⟩ := exists_pullBack also (stuff ++ .code m :: kept)
  rcases List.append_eq_append_iff.1 hout with ⟨q, rfl, hq⟩ | ⟨q, -, hq⟩
  · cases q with
    | nil => exact .inl ⟨[], hq.symm⟩
    | cons x q =>
        obtain ⟨-, hrest⟩ := List.cons.inj hq
        refine .inr ?_
        -- the cells of `kept` that would go are loose, but the first one is not
        cases q with
        | nil => exact hrest.symm
        | cons y q =>
            have hy : isLoose also y = true := hgone y (by simp)
            have hnot := List.head?_dropWhile_not (isLoose also) kept
            rw [hkept, hrest] at hnot
            simp [hy] at hnot
  · exact .inl ⟨q, hq⟩

/-- **What a mark has been pulled back to is never taken away.** -/
lemma MarkRun.above (hkept : kept.dropWhile (isLoose also) = kept)
    (hrun : MarkRun m also (stuff ++ .code m :: kept, rest) (out', rest')) :
    ∃ stuff', out' = stuff' ++ .code m :: kept := by
  generalize hstart : (stuff ++ Cell.code m :: kept, rest) = start, hstop : (out', rest') = stop at hrun
  induction hrun generalizing out' rest' with
  | refl => exact ⟨stuff, (Prod.mk.inj (hstart.trans hstop.symm)).1.symm⟩
  | tail _ hstep ih =>
      subst hstop
      cases hstep with
      | put _ =>
          obtain ⟨stuff', rfl⟩ := ih rfl
          exact ⟨_ :: stuff', rfl⟩
      | pull =>
          obtain ⟨stuff', rfl⟩ := ih rfl
          rcases pullBack_above m stuff' hkept with ⟨s, hs⟩ | hs
          · exact ⟨.code m :: s, by rw [hs]; rfl⟩
          · exact ⟨[], by rw [hs]; rfl⟩
      | skip _ => exact ih rfl
      | space =>
          obtain ⟨stuff', hout⟩ := ih rfl
          exact ⟨.code ' ' :: stuff', by rw [hout]; rfl⟩

/-- The first cell of a comment is a slash, also behind code that is not kept. -/
lemma slash_of_comment (hkeep : ∀ cell : Cell, cell.kind ≠ .code → keep cell = true) {cells : List Cell}
    {follow : Option Char} {stop : Cursor} (h : Reads (.ready .code) cells follow stop) {cell : Cell}
    (hcell : (cells.filter keep).head? = some cell) (hkind : cell.kind = .comment) : cell.char = '/' := by
  induction cells with
  | nil => simp at hcell
  | cons x cells ih =>
      obtain ⟨mid, hstep, hrest⟩ := h
      rw [List.filter_cons] at hcell
      split at hcell
      · obtain rfl : x = cell := by simpa using hcell
        rw [hkind] at hstep
        simp only [step] at hstep
        split_ifs at hstep <;> simp_all
      · next hx =>
          have hcode : x.kind = .code := by
            by_contra hne
            exact hx (hkeep x hne)
          rw [hcode] at hstep
          obtain rfl := (ready_of_code hstep).1
          exact ih hrest hcell

/-- **A mark that does not see a line comment becomes a part of it**, and stays one. -/
lemma InStep.spoiled (hmark : Mark m also keep) (h : InStep also keep text out done (.code m :: rest))
    (hline : ¬ LineSeen also out)
    (hrun : MarkRun m also (.code m :: pullBack also out, rest) (out', [])) :
    (label (chars out'.reverse)).filter keep ≠ (label text).filter keep := by
  simp only [LineSeen, not_forall] at hline
  obtain ⟨follow, hfollow, hreads, hends⟩ := hline
  have hsplit : out = out.takeWhile (isLoose also) ++ out.dropWhile (isLoose also) :=
    List.takeWhile_append_dropWhile.symm
  have hgone : ∀ cell ∈ (out.takeWhile (isLoose also)).reverse, keep cell = false := fun cell hcell =>
    hmark.loose cell (List.mem_takeWhile_imp (List.mem_reverse.1 hcell))
  have hkept : (out.dropWhile (isLoose also)).dropWhile (isLoose also) = out.dropWhile (isLoose also) :=
    List.dropWhile_idempotent _ _
  simp only [pullBack, hends] at hrun
  generalize (out.takeWhile (isLoose also)) = gone at hsplit hgone hrun
  generalize out.dropWhile (isLoose also) = kept at hsplit hreads hends hkept hrun
  subst hsplit
  -- the text that is written: the mark is read in the line comment
  have hrun' : MarkRun m also ([] ++ .code m :: kept, rest) (out', []) := hrun
  obtain ⟨stuff, rfl⟩ := hrun'.above hkept
  have hfollow' : heeded (some m) = none := heeded_of_plain hmark.plain
  have hwritten : label (chars (stuff ++ .code m :: kept).reverse)
      = kept.reverse ++ ⟨m, .comment⟩ :: labelFrom (.ready .line) (chars stuff.reverse) := by
    have hlabel : labelFrom (.ready .code) (chars kept.reverse ++ m :: chars stuff.reverse)
        = kept.reverse ++ labelFrom (.ready .line) (m :: chars stuff.reverse) :=
      ((reads_congr (hfollow'.trans hfollow.symm)).2 hreads).labelFrom_append
    rw [labelFrom, step_plain hmark.plain] at hlabel
    rw [label, List.reverse_append, List.reverse_cons, List.append_assoc, chars_append]
    exact hlabel
  -- the text that is read: behind the comment there is no further comment that starts with the mark
  have hnone : gone.reverse.filter keep = [] :=
    List.filter_eq_nil_iff.2 fun cell hcell => by simp [hgone cell hcell]
  have hread : (label text).filter keep = kept.reverse.filter keep ++ (.code m :: rest).filter keep := by
    rw [← map_snd_trail (.ready .code) (label text) none, ← h.traced.2, map_snd_trail,
      List.reverse_append, List.filter_append, List.filter_append, hnone, List.append_nil]
  rw [hwritten, hread, List.filter_append, List.filter_cons_of_pos (hmark.firm _ (by simp))]
  intro heq
  have hhead := congrArg List.head? (List.append_cancel_left heq)
  obtain ⟨mid, -, hrest⟩ := reads_append.1 h.traced.1
  have hstart : Reads (.ready .code) (.code m :: rest) none (cursorAfter (.ready .code) text) := by
    obtain ⟨mid', hstep, -⟩ := id hrest
    rcases (ready_of_code hstep).2 with rfl | ⟨-, hfeed⟩
    · exact hrest
    · have hm := hmark.plain
      rw [char_code] at hfeed
      rw [hfeed] at hm
      exact absurd hm (by decide)
  have hslash := slash_of_comment hmark.firm hstart hhead.symm rfl
  have hm := hmark.plain
  rw [show m = '/' from hslash] at hm
  exact absurd hm (by decide)

/-- A line comment that is not seen by a mark behind it. -/
structure Unseen (m : Char) (text front gap back : List Char) : Prop where
  split : text = front ++ '\n' :: (gap ++ m :: back)
  space : ∀ c ∈ gap, isSpace c = true
  line : modeAfter .code front = .line
  ends : endsInLineComment (label front).reverse = false

lemma exists_unseen (h : ¬ CommentsSeen m text) : ∃ front gap back, Unseen m text front gap back := by
  simp only [CommentsSeen, not_forall] at h
  obtain ⟨i, hi, hfeed, hmark, hmode, hends⟩ := h
  have htext : text = text.take i ++ '\n' :: text.drop (i + 1) := by
    have hget : text[i] = '\n' := by simpa [List.getElem?_eq_getElem hi] using hfeed
    conv_lhs => rw [← List.take_append_drop i text, List.drop_eq_getElem_cons hi, hget]
  have hdrop : text.drop i = '\n' :: text.drop (i + 1) := by
    conv_lhs => rw [htext]
    simp [List.length_take, Nat.min_eq_left hi.le]
  have hfeedSpace : isSpace '\n' = true := by decide
  rw [hdrop, List.dropWhile_cons_of_pos hfeedSpace] at hmark
  obtain ⟨back, hback⟩ := List.head?_eq_some_iff.1 hmark
  refine ⟨text.take i, (text.drop (i + 1)).takeWhile isSpace, back, ?_, ?_, hmode, by simpa using hends⟩
  · rw [← hback, List.takeWhile_append_dropWhile]
    exact htext
  · exact fun c hc => List.mem_takeWhile_imp hc

/-- The cells up to the mark. -/
lemma Unseen.label_eq {front gap back : List Char} (h : Unseen m text front gap back)
    (hm : isPlain m = true) :
    label text = (label front ++ .code '\n' :: gap.map .code)
      ++ .code m :: labelFrom (.ready .code) back := by
  have hfront : label text = label front ++ labelFrom (.ready .line) ('\n' :: (gap ++ m :: back)) := by
    rw [h.split, label, (labelFrom_cut .code front (by rfl)).1, h.line]
    rfl
  have hgap : labelFrom (.ready .code) (gap ++ m :: back)
      = gap.map .code ++ labelFrom (.ready .code) (m :: back) :=
    (labelFrom_space h.space (by decide) (m :: back)).1
  rw [hfront, labelFrom, step_feed_line, hgap, labelFrom, step_plain hm]
  simp [Cell.code, Mode.kind]

/-- Without its loose end a text up to such a mark ends in the line comment. -/
lemma Unseen.dropWhile_eq {front gap back : List Char} (h : Unseen m text front gap back) :
    (label front ++ Cell.code '\n' :: gap.map Cell.code).reverse.dropWhile (isLoose also)
      = (label front).reverse := by
  have hloose : ∀ cell ∈ (Cell.code '\n' :: gap.map .code).reverse, isLoose also cell = true := by
    intro cell hcell
    rw [List.mem_reverse, List.mem_cons, List.mem_map] at hcell
    rcases hcell with rfl | ⟨c, hc, rfl⟩
    · simp [isLoose, isSpace]
    · simp [isLoose, h.space c hc]
  rw [List.reverse_append, List.dropWhile_append_of_pos hloose]
  have hreads := reads_modeAfter .code front
  rw [h.line, ← label] at hreads
  cases hfront : (label front).reverse with
  | nil => rfl
  | cons last cells =>
      rw [List.reverse_eq_iff.1 hfront, List.reverse_cons] at hreads
      obtain ⟨mid, -, _, hstep, rfl⟩ := reads_append.1 hreads
      exact List.dropWhile_cons_of_neg (by simp [isLoose, comment_of_line hstep])

/-- A mark that has come so far does not see the line comment. -/
lemma Unseen.not_lineSeen {front gap back : List Char} (hunseen : Unseen m text front gap back)
    (hmark : Mark m also keep) (h : InStep also keep text out done (.code m :: rest))
    (hdone : done.reverse = label front ++ .code '\n' :: gap.map .code) : ¬ LineSeen also out := by
  have hdrop : done.dropWhile (isLoose also) = (label front).reverse := by
    rw [← List.reverse_reverse done, hdone]
    exact hunseen.dropWhile_eq
  have hkept := h.tails.kept
  rw [hdrop] at hkept
  intro hline
  have hsplit : out.reverse = (out.dropWhile (isLoose also)).reverse
      ++ (out.takeWhile (isLoose also)).reverse := by
    rw [← List.reverse_append, List.takeWhile_append_dropWhile]
  have hreads := h.traced.1
  rw [hsplit, List.append_assoc] at hreads
  obtain ⟨mid, hfront, -⟩ := reads_append.1 hreads
  have hheeded : heeded (nextChar ((out.takeWhile (isLoose also)).reverse ++ .code m :: rest) none)
      = none := by
    cases hgone : (out.takeWhile (isLoose also)).reverse with
    | nil => exact heeded_of_plain hmark.plain
    | cons x gone =>
        have hx : x ∈ out.takeWhile (isLoose also) := List.mem_reverse.1 (by rw [hgone]; simp)
        exact heeded_of_code (plain_of_isLoose hmark.only hmark.plain (List.mem_takeWhile_imp hx)).2
  have hcomment : Reads (.ready .code) (label front).reverse.reverse none (.ready .line) := by
    have hmode := reads_modeAfter .code front
    rwa [hunseen.line, ← label, ← List.reverse_reverse (label front)] at hmode
  obtain rfl := line_of_lastComment hkept.symm rfl hheeded hcomment hfront
  have hends := hline _ hheeded hfront
  rw [endsInLineComment_congr hkept, hunseen.ends] at hends
  contradiction

/-- **A run on a text with a line comment that is not seen changes what is kept.** -/
lemma filter_ne_of_unseen {front gap back : List Char} (hunseen : Unseen m text front gap back)
    (hmark : Mark m also keep) {ahead : List Cell} {start : List Cell × List Cell}
    (hrun : MarkRun m also start (out', [])) (h : InStep also keep text start.1 done start.2)
    (hstart : start.2 = ahead ++ .code m :: labelFrom (.ready .code) back) :
    (label (chars out'.reverse)).filter keep ≠ (label text).filter keep := by
  induction hrun using Relation.ReflTransGen.head_induction_on generalizing done ahead with
  | refl => simp at hstart
  | head hstep hrun ih =>
      cases hstep with
      | @put out rest cell hcell =>
          cases ahead with
          | nil => exact absurd (List.cons.inj hstart).1 hcell
          | cons _ ahead =>
              obtain ⟨rfl, hrest⟩ := List.cons.inj hstart
              have h' : InStep also keep text (cell :: out) (cell :: done) rest :=
                ⟨by simpa using h.read, h.tails.cons cell, by simpa using h.traced⟩
              exact ih h' hrest
      | @pull out rest =>
          by_cases hline : LineSeen also out
          · cases ahead with
            | nil =>
                -- this is the mark that does not see the comment
                obtain ⟨-, rfl⟩ := List.cons.inj hstart
                refine absurd hline (hunseen.not_lineSeen hmark h ?_)
                have hread := h.read
                rw [hunseen.label_eq hmark.plain] at hread
                exact (List.append_cancel_right hread).symm
            | cons _ ahead => exact ih (h.pull hmark hline) (List.cons.inj hstart).2
          · exact h.spoiled hmark hline hrun
      | @skip out rest cell hblank =>
          cases ahead with
          | nil =>
              have hspace := isSpace_of_isBlank hblank
              rw [(List.cons.inj hstart).1, char_code, hmark.ink] at hspace
              contradiction
          | cons _ ahead => exact ih (h.skip hmark hblank) (List.cons.inj hstart).2
      | space => exact ih (h.space hmark) hstart

/-- **A run keeps what stays on the trail exactly if every line comment is seen.** -/
lemma filter_run_iff (hmark : Mark m also keep) (hrun : MarkRun m also ([], label text) (out, [])) :
    (label (chars out.reverse)).filter keep = (label text).filter keep ↔ CommentsSeen m text := by
  refine ⟨fun heq => ?_, fun hseen => (sameTrail_of_run hmark hseen hrun).filter_eq⟩
  by_contra hunseen
  obtain ⟨front, gap, back, hunseen⟩ := exists_unseen hunseen
  exact filter_ne_of_unseen hunseen hmark hrun (inStep_start also keep text)
    (hunseen.label_eq hmark.plain) heq

end Spoiled

/-! ## Semicolons -/

/-- Cells with one semicolon of code in place of several in a row. -/
def oneSemicolon : List Cell → List Cell
  | [] => []
  | cell :: rest =>
    if cell.isCode ';' && rest.head?.any (·.isCode ';') then oneSemicolon rest
    else cell :: oneSemicolon rest

lemma oneSemicolon_pair (front rest : List Cell) :
    oneSemicolon (front ++ .code ';' :: .code ';' :: rest) = oneSemicolon (front ++ .code ';' :: rest) := by
  induction front with
  | nil => rfl
  | cons cell front ih =>
      cases front with
      | nil => simp [oneSemicolon, Cell.isCode]
      | cons next front =>
          have hcons (tail : List Cell) : oneSemicolon (cell :: (next :: front ++ tail))
              = if cell.isCode ';' && next.isCode ';' then oneSemicolon (next :: front ++ tail)
                else cell :: oneSemicolon (next :: front ++ tail) := rfl
          show oneSemicolon (cell :: (next :: front ++ _)) = oneSemicolon (cell :: (next :: front ++ _))
          rw [hcons, hcons, ih]

/-- Semicolons before a semicolon do not count. -/
lemma oneSemicolon_drop {gone : List Cell} (hgone : ∀ cell ∈ gone, cell = .code ';')
    (front rest : List Cell) :
    oneSemicolon (front ++ (gone ++ .code ';' :: rest)) = oneSemicolon (front ++ .code ';' :: rest) := by
  induction gone generalizing front with
  | nil => rfl
  | cons cell gone ih =>
      obtain ⟨rfl, htail⟩ := List.forall_mem_cons.1 hgone
      have hskip := ih htail (front ++ [.code ';'])
      rw [List.append_assoc, List.append_assoc, List.singleton_append, List.singleton_append] at hskip
      rw [List.cons_append, hskip, oneSemicolon_pair]

/-- Cells of which no two in a row are semicolons of code. -/
def Apart (cells : List Cell) : Prop := cells.IsChain fun a b => ¬(a = .code ';' ∧ b = .code ';')

lemma oneSemicolon_eq_self {cells : List Cell} (h : Apart cells) : oneSemicolon cells = cells := by
  induction cells with
  | nil => rfl
  | cons cell rest ih =>
      obtain ⟨hpair, hrest⟩ := List.isChain_cons.1 h
      rw [oneSemicolon, if_neg, ih hrest]
      intro hboth
      rw [Bool.and_eq_true, Option.any_eq_true] at hboth
      obtain ⟨hcell, next, hnext, hsemicolon⟩ := hboth
      exact hpair next hnext ⟨isCode_iff.1 hcell, isCode_iff.1 hsemicolon⟩

/-- Only semicolons of loose cells are seen. -/
lemma solidCells_loose {gone : List Cell} (hgone : ∀ cell ∈ gone, isLoose (· == ';') cell = true) :
    ∀ cell ∈ solidCells gone, cell = .code ';' := by
  intro cell hcell
  obtain ⟨hmem, hsolid⟩ := List.mem_filter.1 hcell
  have hloose := hgone cell hmem
  rw [isLoose, Bool.and_eq_true, Bool.or_eq_true] at hloose
  rcases hloose.2 with hspace | hchar
  · simp [isSolid, hloose.1, hspace] at hsolid
  · exact isCode_iff.1 (by rw [Cell.isCode, hloose.1, hchar]; rfl)

/-- **The pass neither adds a group of semicolons nor takes one away.** -/
lemma oneSemicolon_foldl (out rest : List Cell) :
    oneSemicolon (solidCells (rest.foldl placeSemicolon out).reverse)
      = oneSemicolon (solidCells (out.reverse ++ rest)) := by
  induction rest generalizing out with
  | nil => simp
  | cons cell rest ih =>
      rw [List.foldl_cons, ih, placeSemicolon]
      split
      · next hcell =>
          obtain rfl := isCode_iff.1 hcell
          obtain ⟨gone, hout, hgone⟩ := exists_pullBack (· == ';') out
          generalize pullBack (· == ';') out = kept at hout ⊢
          subst hout
          have hloose : ∀ cell ∈ gone.reverse, isLoose (· == ';') cell = true := fun cell hcell =>
            hgone cell (List.mem_reverse.1 hcell)
          have hsemicolon : solidCells (.code ';' :: rest) = .code ';' :: solidCells rest :=
            solidCells_cons_ink (by decide) rest
          have hdrop := oneSemicolon_drop (solidCells_loose hloose) (solidCells kept.reverse)
            (solidCells rest)
          simpa [hsemicolon] using hdrop.symm
      · simp

/-- A semicolon that is pulled back stands behind something else. -/
lemma apart_placeSemicolon {text : List Char} {out done rest : List Cell} {cell : Cell}
    (h : InStep (· == ';') isFirm text out done (cell :: rest)) (hapart : Apart (solidCells out)) :
    Apart (solidCells (placeSemicolon out cell)) := by
  rw [placeSemicolon]
  split
  · next hcell =>
      obtain rfl := isCode_iff.1 hcell
      have hsplit : out = out.takeWhile (isLoose (· == ';')) ++ out.dropWhile (isLoose (· == ';')) :=
        List.takeWhile_append_dropWhile.symm
      have hfirst := List.head?_dropWhile_not (isLoose (· == ';')) out
      -- without its loose end the text ends in a cell that is seen and that is no semicolon
      have hkept : Apart (.code ';' :: solidCells (out.dropWhile (isLoose (· == ';')))) := by
        refine List.isChain_cons.2 ⟨?_, ?_⟩
        · rintro next hnext ⟨-, rfl⟩
          cases hout : out.dropWhile (isLoose (· == ';')) with
          | nil => simp [hout] at hnext
          | cons x kept =>
              have hx : isLoose (· == ';') x = false := by simpa [hout] using hfirst
              have hsolid : isSolid x = true := by
                by_contra hnone
                rw [Bool.not_eq_true, isSolid, Bool.not_eq_false', Bool.and_eq_true] at hnone
                simp [isLoose, hnone] at hx
              rw [hout, solidCells, List.filter_cons_of_pos hsolid] at hnext
              obtain rfl : x = .code ';' := by simpa using hnext
              exact absurd hx (by decide)
        · rw [hsplit, solidCells_append] at hapart
          exact List.IsChain.right_of_append hapart
      have hsolid (cells : List Cell) : solidCells (.code ';' :: cells) = .code ';' :: solidCells cells :=
        solidCells_cons_ink (by decide) cells
      rw [hsolid]
      simp only [pullBack]
      split
      · next hends =>
          split
          · next feed hlast =>
              -- the cell that stays behind a line comment is its line feed, which is not seen
              obtain ⟨gone, hgone⟩ := List.getLast?_eq_some_iff.1 hlast
              have hloose : isLoose (· == ';') feed = true :=
                List.mem_takeWhile_imp (l := out) (by rw [hgone]; simp)
              have hcode : feed.kind = .code := by
                rw [isLoose, Bool.and_eq_true] at hloose
                exact eq_of_beq hloose.1
              have hreads := h.traced.1
              rw [hsplit, hgone, List.append_assoc, List.reverse_append, List.append_assoc,
                List.singleton_append, List.reverse_cons, List.append_assoc] at hreads
              have hfeed := feed_of_endsInLineComment hreads hcode hends
              have hunseen : isSolid feed = false := by
                rw [isSolid, hcode, hfeed]
                decide
              rwa [solidCells, List.filter_cons_of_neg (by simp [hunseen])]
          · exact hkept
      · exact hkept
  · next hcell =>
      cases hsolid : isSolid cell with
      | false => rwa [solidCells, List.filter_cons_of_neg (by simp [hsolid])]
      | true =>
          rw [solidCells, List.filter_cons_of_pos hsolid]
          exact List.isChain_cons.2 ⟨fun next _ hboth => hcell (isCode_iff.2 hboth.1), hapart⟩

/-- **One semicolon is left of every group of semicolons of code**, if every line comment is seen. -/
lemma solid_joinSemicolons {text : List Char} (hseen : CommentsSeen ';' text) :
    solid (joinSemicolons text) = oneSemicolon (solid text) := by
  have hfold (out done rest : List Cell) (h : InStep (· == ';') isFirm text out done rest)
      (hapart : Apart (solidCells out)) :
      ∃ done', InStep (· == ';') isFirm text (rest.foldl placeSemicolon out) done' []
        ∧ Apart (solidCells (rest.foldl placeSemicolon out)) := by
    induction rest generalizing out done with
    | nil => exact ⟨done, h, hapart⟩
    | cons cell rest ih =>
        obtain ⟨done', h'⟩ := h.run semicolon_mark hseen (.single (step_placeSemicolon out cell rest))
        exact ih _ _ h' (apart_placeSemicolon h hapart)
  obtain ⟨done, h, hapart⟩ := hfold [] [] (label text) (inStep_start _ _ text) .nil
  have hgroups := oneSemicolon_foldl [] (label text)
  rw [joinSemicolons, solid]
  generalize (label text).foldl placeSemicolon [] = out at h hapart hgroups ⊢
  have hreads := h.traced.1
  rw [List.append_nil] at hreads
  have hreverse : Apart (solidCells out.reverse) := by
    rw [solidCells, List.filter_reverse, Apart, List.isChain_reverse]
    exact hapart.imp fun a b hab hba => hab hba.symm
  rw [label, hreads.labelFrom_eq, ← oneSemicolon_eq_self hreverse, hgroups]
  rfl

/-! ## The view of a text -/

/-- **Commas and semicolons stay out of comments exactly if every line comment is seen.**  The commas pass
then keeps a text apart from the white space of its code, and the semicolons pass keeps it apart from
white space and semicolons of code; of every group of semicolons it leaves one. -/
theorem solid_pulledBack_iff (text : List Char) :
    (solid (spaceCommas text) = solid text ↔ CommentsSeen ',' text)
      ∧ ((label (joinSemicolons text)).filter isFirm = (label text).filter isFirm
        ↔ CommentsSeen ';' text)
      ∧ (CommentsSeen ';' text → solid (joinSemicolons text) = oneSemicolon (solid text)) := by
  refine ⟨?_, filter_run_iff semicolon_mark (run_placeSemicolon [] (label text)), solid_joinSemicolons⟩
  have hcommas := filter_run_iff comma_mark (run_commasFrom [] false (label text) (by simp))
  rw [List.reverse_reverse] at hcommas
  exact hcommas

/-- Three semicolons, one of them behind a line comment. -/
theorem solid_pulledBack_groups :
    CommentsSeen ';' "a;\n; // b\n ;c".toList
      ∧ solid (joinSemicolons "a;\n; // b\n ;c".toList) = oneSemicolon (solid "a;\n; // b\n ;c".toList) := by
  have hseen : CommentsSeen ';' "a;\n; // b\n ;c".toList := by decide +kernel
  exact ⟨hseen, (solid_pulledBack_iff _).2.2 hseen⟩

/-- **A mark gets into a line comment** that follows a block comment directly and ends like one. -/
theorem solid_pulledBack_hidden :
    spaceCommas "/**///*/\n,x".toList = "/**///*/, x".toList
      ∧ solid (spaceCommas "/**///*/\n,x".toList) ≠ solid "/**///*/\n,x".toList
      ∧ joinSemicolons "/**///*/\n;x".toList = "/**///*/;x".toList
      ∧ (label (joinSemicolons "/**///*/\n;x".toList)).filter isFirm
        ≠ (label "/**///*/\n;x".toList).filter isFirm := by
  decide +kernel

end SqfLayout.Pass
