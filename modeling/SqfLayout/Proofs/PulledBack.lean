import SqfLayout.Proofs.Rereading

/-!
# Commas and semicolons that are pulled back

A comma or a semicolon is pulled back over white space of code.  The line feed behind a line comment has
to stay, or the mark gets into the comment and with it the quotes behind the mark.  The pass goes by
the characters of the comment text before that line feed, and they do not always tell: a line comment
that follows a block comment directly and ends like one passes for a block comment.

**Line comments that are seen.**  `CommentsSeen`: the line feed of a line comment is taken for that
wherever a mark could be pulled back over it.

**Comments at the end of a text.**  Whether a text ends in a line comment depends on its last comment
only (`line_of_lastComment`).  What has been written so far ends in the same comment as what has been
read (`SameTails`), also without its white space.

**Runs.**  Hence a mark can be pulled back (`traced_pullBack`).  Both passes are runs of the same few
steps (`MarkStep`), and such a run keeps the trail of a text (`sameTrail_of_run`).
-/

namespace SqfLayout.Pass

open SqfLayout.Text SqfLayout.Scan

/-! ## Line comments that are seen -/

/-- **Every line comment before the given mark is seen**: where the mark follows the line feed that ends
a line comment, with white space between them, the text before the line feed is taken for one that ends
in a line comment. -/
def CommentsSeen (mark : Char) (text : List Char) : Prop :=
  ∀ i < text.length, text[i]? = some '\n' → ((text.drop i).dropWhile isSpace).head? = some mark →
    modeAfter .code (text.take i) = .line → endsInLineComment (label (text.take i)).reverse = true

instance (mark : Char) (text : List Char) : Decidable (CommentsSeen mark text) :=
  inferInstanceAs (Decidable (∀ i < text.length, _))

lemma CommentsSeen.front {mark : Char} {front rest : List Char}
    (h : CommentsSeen mark (front ++ '\n' :: rest)) (hmark : (rest.dropWhile isSpace).head? = some mark)
    (hmode : modeAfter .code front = .line) : endsInLineComment (label front).reverse = true := by
  have hfeed : isSpace '\n' = true := by decide
  simpa [hmode, List.dropWhile_cons, hfeed, hmark] using h front.length (by simp)

/-! ## The last comment -/

/-- The comment at the end of a text, the last cell first. -/
def lastComment (out : List Cell) : List Cell := out.takeWhile (·.kind == .comment)

lemma endsInLineComment_congr {a b : List Cell} (h : lastComment a = lastComment b) :
    endsInLineComment a = endsInLineComment b := by
  rw [lastComment, lastComment] at h
  rw [endsInLineComment, endsInLineComment, h]

/-- Between a character that is no comment and one that is, the scanner is in code. -/
lemma ready_of_comment {start mid stop : Cursor} {c d : Char} {next next' : Option Char}
    {kind : CharClass} (h : step start c next = (kind, mid)) (hkind : kind ≠ .comment)
    (h' : step mid d next' = (.comment, stop)) : mid = .ready .code := by
  cases start with
  | midway mode =>
      obtain ⟨rfl, -⟩ := Prod.mk.inj h
      exact absurd rfl hkind
  | ready mode =>
      cases mode with
      | code =>
          simp only [step] at h
          split_ifs at h <;> obtain ⟨rfl, rfl⟩ := Prod.mk.inj h <;> simp_all [step]
      | single =>
          obtain ⟨-, rfl⟩ := Prod.mk.inj h
          split at h' <;> simp_all [step]
      | double =>
          obtain ⟨-, rfl⟩ := Prod.mk.inj h
          split at h' <;> simp_all [step]
      | line =>
          simp only [step] at h
          split_ifs at h <;> obtain ⟨rfl, rfl⟩ := Prod.mk.inj h
          · rfl
          · exact absurd rfl hkind
      | block =>
          obtain ⟨rfl, -⟩ := Prod.mk.inj h
          exact absurd rfl hkind

/-- A line comment is open only behind a character of it. -/
lemma comment_of_line {start : Cursor} {c : Char} {next : Option Char} {kind : CharClass}
    (h : step start c next = (kind, .ready .line)) : kind = .comment := by
  cases start with
  | midway mode => exact (Prod.mk.inj h).1.symm
  | ready mode =>
      cases mode with
      | code =>
          simp only [step] at h
          split_ifs at h <;> simp_all
      | single => simp only [step] at h; split_ifs at h <;> simp_all
      | double => simp only [step] at h; split_ifs at h <;> simp_all
      | line => simp only [step] at h; split_ifs at h <;> simp_all
      | block => exact (Prod.mk.inj h).1.symm

/-- **The last comment of a text is read from code.** -/
lemma reads_lastComment {out : List Cell} {follow : Option Char} {stop : Cursor}
    (h : Reads (.ready .code) out.reverse follow stop) (hne : lastComment out ≠ []) :
    Reads (.ready .code) (lastComment out).reverse follow stop := by
  have hout : out = lastComment out ++ out.dropWhile (·.kind == .comment) :=
    List.takeWhile_append_dropWhile.symm
  rw [hout, List.reverse_append] at h
  obtain ⟨mid, hfront, hcomment⟩ := reads_append.1 h
  suffices hmid : mid = .ready .code by rwa [← hmid]
  cases hrest : out.dropWhile (·.kind == .comment) with
  | nil =>
      rw [hrest] at hfront
      exact (reads_nil.1 hfront).symm
  | cons x xs =>
      have hx : x.kind ≠ .comment := by
        have hnot := List.head?_dropWhile_not (·.kind == .comment) out
        rw [hrest] at hnot
        simpa using hnot
      rw [hrest, List.reverse_cons] at hfront
      obtain ⟨mid', -, _, hstep, rfl⟩ := reads_append.1 hfront
      obtain ⟨y, ys, hys⟩ := List.exists_cons_of_ne_nil (mt List.reverse_eq_nil_iff.1 hne)
      rw [hys] at hcomment
      obtain ⟨mid'', hstep', -⟩ := hcomment
      have hy : y.kind = .comment := by
        have hmem : y ∈ lastComment out := List.mem_reverse.1 (by rw [hys]; simp)
        simpa using List.mem_takeWhile_imp hmem
      rw [hy] at hstep'
      exact ready_of_comment hstep hx hstep'

/-- **Texts that end in the same comment both end in a line comment, or neither does.** -/
lemma line_of_lastComment {a b : List Cell} (hlast : lastComment a = lastComment b) {f g : Option Char}
    (hf : heeded f = none) (hg : heeded g = none) {stop : Cursor}
    (ha : Reads (.ready .code) a.reverse f (.ready .line)) (hb : Reads (.ready .code) b.reverse g stop) :
    stop = .ready .line := by
  have hne : lastComment a ≠ [] := by
    cases a with
    | nil => exact absurd (reads_nil.1 ha) (by decide)
    | cons x xs =>
        rw [List.reverse_cons] at ha
        obtain ⟨mid, -, _, hstep, rfl⟩ := reads_append.1 ha
        simp [lastComment, comment_of_line hstep]
  have ha' := reads_lastComment ha hne
  have hb' := reads_lastComment hb (hlast ▸ hne)
  rw [← hlast, reads_congr (hg.trans hf.symm)] at hb'
  exact (hb'.unique ha' rfl).2

/-- **What has been written ends in the same comment as what has been read**, with and without the loose
cells at the end.  Both are given the last cell first. -/
structure SameTails (also : Char → Bool) (out done : List Cell) : Prop where
  last : lastComment out = lastComment done
  kept : lastComment (out.dropWhile (isLoose also)) = lastComment (done.dropWhile (isLoose also))

lemma lastComment_code {cell : Cell} (h : cell.kind = .code) (out : List Cell) :
    lastComment (cell :: out) = [] := by
  simp [lastComment, h]

section Tails

variable {also : Char → Bool} {out done : List Cell}

/-- The same cell behind both. -/
lemma SameTails.cons (h : SameTails also out done) (cell : Cell) :
    SameTails also (cell :: out) (cell :: done) := by
  have hlast : lastComment (cell :: out) = lastComment (cell :: done) := by
    have htail := h.last
    rw [lastComment, lastComment] at htail ⊢
    rw [List.takeWhile_cons, List.takeWhile_cons, htail]
  refine ⟨hlast, ?_⟩
  by_cases hloose : isLoose also cell = true
  · rw [List.dropWhile_cons_of_pos hloose, List.dropWhile_cons_of_pos hloose, h.kept]
  · rwa [List.dropWhile_cons_of_neg hloose, List.dropWhile_cons_of_neg hloose]

/-- Pulling back takes loose cells away. -/
lemma dropWhile_pullBack (also : Char → Bool) (out : List Cell) :
    (pullBack also out).dropWhile (isLoose also) = out.dropWhile (isLoose also) := by
  obtain ⟨gone, hout, hgone⟩ := exists_pullBack also out
  conv_rhs => rw [hout]
  rw [List.dropWhile_append_of_pos hgone]

/-- A mark of code behind both, pulled back in what is written. -/
lemma SameTails.pull (h : SameTails also out done) (m : Char) :
    SameTails also (.code m :: pullBack also out) (.code m :: done) := by
  have hlast : lastComment (.code m :: pullBack also out) = lastComment (.code m :: done) := by
    rw [lastComment_code rfl, lastComment_code rfl]
  refine ⟨hlast, ?_⟩
  by_cases hloose : isLoose also (.code m) = true
  · rw [List.dropWhile_cons_of_pos hloose, List.dropWhile_cons_of_pos hloose, dropWhile_pullBack, h.kept]
  · rwa [List.dropWhile_cons_of_neg hloose, List.dropWhile_cons_of_neg hloose]

/-! ## Pulling back -/

/-- Loose cells are white space or the mark. -/
lemma plain_of_isLoose {m : Char} (halso : ∀ c, also c = true → c = m) (hm : isPlain m = true)
    {cell : Cell} (h : isLoose also cell = true) :
    cell.kind = .code ∧ (isSpace cell.char = true ∨ isPlain cell.char = true) := by
  simp only [isLoose, Bool.and_eq_true, beq_iff_eq, Bool.or_eq_true] at h
  refine ⟨h.1, h.2.imp_right fun hc => ?_⟩
  rwa [halso _ hc]

/-- Behind loose cells the mark comes first, white space apart. -/
lemma head_behind_loose {m : Char} (halso : ∀ c, also c = true → c = m) (hink : isSpace m = false)
    {gone : List Cell} (hgone : ∀ cell ∈ gone, isLoose also cell = true) (rest : List Char) :
    ((chars gone ++ m :: rest).dropWhile isSpace).head? = some m := by
  induction gone with
  | nil => simp [hink]
  | cons cell gone ih =>
      obtain ⟨hcell, hgone⟩ := List.forall_mem_cons.1 hgone
      cases hspace : isSpace cell.char with
      | true => simpa [hspace] using ih hgone
      | false =>
          simp only [isLoose, hspace, Bool.false_or, Bool.and_eq_true] at hcell
          have hmark : cell.char = m := halso _ hcell.2
          simp [hmark, hink]

/-- **Where a text is left in a line comment, pulling back sees it.** -/
lemma ends_of_seen {text : List Char} {m : Char} (hseen : CommentsSeen m text)
    (halso : ∀ c, also c = true → c = m) (hm : isPlain m = true) (hink : isSpace m = false)
    {rest : List Cell} (hdone : label text = done.reverse ++ .code m :: rest)
    (htails : SameTails also out done) {follow : Option Char} (hfollow : heeded follow = none)
    (hline : Reads (.ready .code) (out.dropWhile (isLoose also)).reverse follow (.ready .line)) :
    endsInLineComment (out.dropWhile (isLoose also)) = true := by
  have hsplit : done.reverse = (done.dropWhile (isLoose also)).reverse
      ++ (done.takeWhile (isLoose also)).reverse := by
    rw [← List.reverse_append, List.takeWhile_append_dropWhile]
  have hloose : ∀ cell ∈ (done.takeWhile (isLoose also)).reverse, isLoose also cell = true :=
    fun cell hcell => List.mem_takeWhile_imp (List.mem_reverse.1 hcell)
  rw [endsInLineComment_congr htails.kept]
  have hkept := htails.kept
  generalize (done.takeWhile (isLoose also)).reverse = gone at hsplit hloose
  generalize done.dropWhile (isLoose also) = kept at hsplit hkept ⊢
  rw [hsplit, List.append_assoc] at hdone
  have hreads := reads_label text
  rw [hdone] at hreads
  obtain ⟨mid, hfront, hrest⟩ := reads_append.1 hreads
  -- the first cell behind the kept text is read from a line comment and is code: a line feed
  cases gone with
  | nil =>
      obtain rfl := line_of_lastComment hkept hfollow (heeded_of_plain hm) hline hfront
      obtain ⟨mid', hstep, -⟩ := hrest
      rw [char_code, kind_code, step_plain hm] at hstep
      exact absurd (Prod.mk.inj hstep).1 (kind_ne_code (by decide))
  | cons x gone =>
      obtain ⟨hx, hgone⟩ := List.forall_mem_cons.1 hloose
      obtain ⟨hkind, hchar⟩ := plain_of_isLoose halso hm hx
      have hheeded : heeded (some x.char) = none := heeded_of_code hchar
      obtain rfl := line_of_lastComment hkept hfollow hheeded hline hfront
      obtain ⟨mid', hstep, -⟩ := hrest
      rw [hkind] at hstep
      have hfeed : x.char = '\n' := (ready_of_code hstep).2.resolve_left (by decide) |>.2
      have hfront' : Reads (.ready .code) kept.reverse none (.ready .line) :=
        (reads_congr (hheeded.trans heeded_none.symm)).1 hfront
      have htext : text = chars kept.reverse ++ '\n' :: (chars gone ++ m :: chars rest) := by
        have hchars := congrArg chars hdone
        rw [chars_label] at hchars
        simpa [hfeed] using hchars
      rw [htext] at hseen
      have hends := hseen.front (head_behind_loose halso hink hgone _)
        (by rw [modeAfter, hfront'.cursorAfter_eq]; rfl)
      rwa [label, hfront'.labelFrom_eq, List.reverse_reverse] at hends

variable {keep : Cell → Bool}

/-- Between a cell of code and a mark, plain characters and white space of code may go if they are not on
the trail. -/
lemma Relaid.between {x : Cell} {w : List Cell} {m : Char} (hx : x.kind = .code)
    (hw : ∀ cell ∈ w, isSpace cell.char = true ∨ isPlain cell.char = true)
    (hgone : ∀ cell ∈ w, keep cell = false) (hm : isPlain m = true) :
    Relaid keep (x :: (w ++ [.code m])) [x, .code m] := by
  refine ⟨fun follow => rfl, ?_⟩
  rintro start follow stop - ⟨mid, hstep, hrest⟩
  have hheeded : heeded (nextChar (w ++ [.code m]) follow) = none := by
    cases w with
    | nil => exact heeded_of_plain hm
    | cons s w => exact heeded_of_code (hw s (by simp))
  obtain rfl : mid = .ready .code := by
    rw [hx] at hstep
    exact (ready_of_code hstep).1
  obtain ⟨mid', hgap, hmark⟩ := reads_append.1 hrest
  obtain ⟨rfl, -⟩ := (reads_code hw).1 hgap
  have hstep' : step start x.char (nextChar [.code m] follow) = (x.kind, .ready .code) := by
    rw [← hstep]
    exact step_congr ((heeded_of_plain hm).trans hheeded.symm) _ _
  refine ⟨⟨.ready .code, hstep', hmark⟩, ?_⟩
  rw [trail_cons hstep', trail_cons hstep, trail_append _ hgap, trail_eq_nil hgone, List.nil_append]

variable {places : List (Cursor × Cell)} {stop : Cursor}

/-- Loose cells behind a text that does not end in a line comment may go before a mark. -/
lemma traced_drop {kept gone rest : List Cell} {m : Char} (hm : isPlain m = true)
    (hgone : ∀ cell ∈ gone,
      cell.kind = .code ∧ (isSpace cell.char = true ∨ isPlain cell.char = true))
    (hkeep : ∀ cell ∈ gone, keep cell = false)
    (hline : ∀ follow, heeded follow = none → ¬ Reads (.ready .code) kept follow (.ready .line))
    (h : Traced keep places stop (kept ++ (gone ++ .code m :: rest))) :
    Traced keep places stop (kept ++ .code m :: rest) := by
  obtain ⟨hreads, htrail⟩ := h
  obtain ⟨mid, hkept, hrest⟩ := reads_append.1 hreads
  obtain ⟨mid', hgap, hmark⟩ := reads_append.1 hrest
  rw [trail_append _ hkept, trail_append _ hgap, trail_eq_nil hkeep, List.nil_append] at htrail
  suffices hmid : mid' = mid ∧ heeded (nextChar (gone ++ .code m :: rest) none) = none by
    obtain ⟨rfl, hheeded⟩ := hmid
    have hsame : heeded (nextChar (.code m :: rest) none)
        = heeded (nextChar (gone ++ .code m :: rest) none) := (heeded_of_plain hm).trans hheeded.symm
    have hkept' := (reads_congr hsame).2 hkept
    refine ⟨reads_append.2 ⟨mid', hkept', hmark⟩, ?_⟩
    rw [trail_append _ hkept', trail_congr hsame, htrail]
  cases gone with
  | nil => exact ⟨(reads_nil.1 hgap).symm, heeded_of_plain hm⟩
  | cons g gone =>
      obtain ⟨hkind, hchar⟩ := hgone g (by simp)
      have hheeded : heeded (some g.char) = none := heeded_of_code hchar
      refine ⟨?_, hheeded⟩
      obtain ⟨mid'', hstep, -⟩ := id hgap
      rw [hkind] at hstep
      obtain rfl : mid = .ready .code := by
        rcases (ready_of_code hstep).2 with hmid | ⟨rfl, -⟩
        · exact hmid
        · exact absurd hkept (hline _ hheeded)
      exact ((reads_code fun cell hcell => (hgone cell hcell).2).1 hgap).1

/-- **A mark that is pulled back keeps the trail**, if pulling back sees line comments and what it passes
is not on the trail. -/
lemma traced_pullBack {m : Char} (halso : ∀ c, also c = true → c = m) (hm : isPlain m = true)
    (hkeep : ∀ cell, isLoose also cell = true → keep cell = false) {rest : List Cell}
    (hline : ∀ follow, heeded follow = none →
      Reads (.ready .code) (out.dropWhile (isLoose also)).reverse follow (.ready .line) →
        endsInLineComment (out.dropWhile (isLoose also)) = true)
    (h : Traced keep places stop (out.reverse ++ .code m :: rest)) :
    Traced keep places stop ((pullBack also out).reverse ++ .code m :: rest) := by
  have hsplit : out = out.takeWhile (isLoose also) ++ out.dropWhile (isLoose also) :=
    List.takeWhile_append_dropWhile.symm
  have hloose : ∀ cell ∈ out.takeWhile (isLoose also), isLoose also cell = true :=
    fun cell hcell => List.mem_takeWhile_imp hcell
  simp only [pullBack]
  split
  · split
    · next feed hlast =>
        -- the line feed stays, and the loose cells behind it go
        obtain ⟨gone, hgone⟩ := List.getLast?_eq_some_iff.1 hlast
        rw [hgone] at hsplit hloose
        generalize out.dropWhile (isLoose also) = kept at hsplit
        subst hsplit
        have hcells : Traced keep places stop
            (kept.reverse ++ ((feed :: (gone.reverse ++ [.code m])) ++ rest)) := by
          simpa using h
        have hgone : ∀ cell ∈ gone.reverse, isLoose also cell = true := fun cell hcell =>
          hloose cell (by simp [List.mem_reverse.1 hcell])
        have hrelaid : Relaid keep (feed :: (gone.reverse ++ [.code m])) [feed, .code m] :=
          .between (plain_of_isLoose halso hm (hloose feed (by simp))).1
            (fun cell hcell => (plain_of_isLoose halso hm (hgone cell hcell)).2)
            (fun cell hcell => hkeep cell (hgone cell hcell)) hm
        simpa using hcells.splice hrelaid
    · next hlast =>
        rw [List.getLast?_eq_none_iff.1 hlast, List.nil_append] at hsplit
        rwa [← hsplit]
  · next hends =>
      generalize out.takeWhile (isLoose also) = gone at hsplit hloose
      generalize out.dropWhile (isLoose also) = kept at hsplit hline hends ⊢
      subst hsplit
      rw [List.reverse_append, List.append_assoc] at h
      have hgone : ∀ cell ∈ gone.reverse, isLoose also cell = true := fun cell hcell =>
        hloose cell (List.mem_reverse.1 hcell)
      exact traced_drop hm (fun cell hcell => plain_of_isLoose halso hm (hgone cell hcell))
        (fun cell hcell => hkeep cell (hgone cell hcell))
        (fun follow hfollow hreads => hends (hline follow hfollow hreads)) h

end Tails

/-! ## Runs -/

/-- **One step of a pass that pulls a mark back**: on the text so far, the last cell first, and on what is
still to be read.  Behind the mark blanks may be skipped and a space may be put. -/
inductive MarkStep (m : Char) (also : Char → Bool) :
    List Cell × List Cell → List Cell × List Cell → Prop
  | put {out rest : List Cell} {cell : Cell} : cell ≠ .code m →
      MarkStep m also (out, cell :: rest) (cell :: out, rest)
  | pull {out rest : List Cell} :
      MarkStep m also (out, .code m :: rest) (.code m :: pullBack also out, rest)
  | skip {out rest : List Cell} {cell : Cell} : isBlank cell.char = true →
      MarkStep m also (.code m :: out, cell :: rest) (.code m :: out, rest)
  | space {out rest : List Cell} :
      MarkStep m also (.code m :: out, rest) (.code ' ' :: .code m :: out, rest)

/-- The steps of a pass. -/
abbrev MarkRun (m : Char) (also : Char → Bool) := Relation.ReflTransGen (MarkStep m also)

lemma step_placeComma (out : List Cell) (cell : Cell) (rest : List Cell) :
    MarkStep ',' (fun _ => false) (out, cell :: rest) (placeComma out cell, rest) := by
  rw [placeComma]
  split
  · next hcell =>
      obtain rfl := isCode_iff.1 hcell
      exact .pull
  · next hcell => exact .put (mt isCode_iff.2 hcell)

/-- **The commas pass is a run.**  Behind a comma the last cell written is the comma. -/
lemma run_commasFrom (out : List Cell) (dropping : Bool) (rest : List Cell)
    (hdropping : dropping = true → out.head? = some (.code ',')) :
    MarkRun ',' (fun _ => false) (out, rest) ((commasFrom out dropping rest).reverse, []) := by
  fun_induction commasFrom out dropping rest with
  | case1 out dropping => simpa using Relation.ReflTransGen.refl
  | case2 out cell rest ih => exact .head (step_placeComma out cell rest) (ih head?_placeComma)
  | case3 out cell rest hblank ih =>
      obtain ⟨tail, rfl⟩ : ∃ tail, out = .code ',' :: tail := List.head?_eq_some_iff.1 (hdropping rfl)
      exact .head (.skip hblank) (ih fun _ => rfl)
  | case4 out cell rest hblank ih =>
      obtain ⟨tail, rfl⟩ : ∃ tail, out = .code ',' :: tail := List.head?_eq_some_iff.1 (hdropping rfl)
      have hlast := Relation.ReflTransGen.head
        (step_placeComma (separate (.code ',' :: tail) cell) cell rest) (ih head?_placeComma)
      rw [separate] at hlast ⊢
      split
      · next hjoined => rwa [if_pos hjoined] at hlast
      · next hapart =>
          rw [if_neg hapart] at hlast
          exact .head .space hlast

lemma step_placeSemicolon (out : List Cell) (cell : Cell) (rest : List Cell) :
    MarkStep ';' (· == ';') (out, cell :: rest) (placeSemicolon out cell, rest) := by
  rw [placeSemicolon]
  split
  · next hcell =>
      obtain rfl := isCode_iff.1 hcell
      exact .pull
  · next hcell => exact .put (mt isCode_iff.2 hcell)

/-- **The semicolons pass is a run.** -/
lemma run_placeSemicolon (out rest : List Cell) :
    MarkRun ';' (· == ';') (out, rest) (rest.foldl placeSemicolon out, []) := by
  induction rest generalizing out with
  | nil => exact .refl
  | cons cell rest ih => exact .head (step_placeSemicolon out cell rest) (ih _)

/-! ## What runs keep -/

/-- **A mark, the characters that go with it and the cells that stay on the trail.** -/
structure Mark (m : Char) (also : Char → Bool) (keep : Cell → Bool) : Prop where
  only : ∀ c, also c = true → c = m
  plain : isPlain m = true
  ink : isSpace m = false
  loose : ∀ cell, isLoose also cell = true → keep cell = false
  solid : ∀ cell, keep cell = true → isSolid cell = true
  firm : ∀ cell : Cell, cell.kind ≠ .code → keep cell = true

/-- A cell that is neither white space nor a semicolon of code. -/
def isFirm (cell : Cell) : Bool := isSolid cell && !cell.isCode ';'

lemma comma_mark : Mark ',' (fun _ => false) isSolid where
  only := by simp
  plain := by decide
  ink := by decide
  loose cell h := by
    simp only [isLoose, Bool.or_false] at h
    simp [isSolid, h]
  solid _ h := h
  firm cell h := by simp [isSolid, h]

lemma semicolon_mark : Mark ';' (· == ';') isFirm where
  only _ := eq_of_beq
  plain := by decide
  ink := by decide
  loose cell h := by
    rw [isLoose, Bool.and_eq_true, Bool.or_eq_true] at h
    rcases h with ⟨hkind, hspace | hchar⟩
    · simp [isFirm, isSolid, hkind, hspace]
    · simp [isFirm, Cell.isCode, hkind, hchar]
  solid cell h := by
    rw [isFirm, Bool.and_eq_true] at h
    exact h.1
  firm cell h := by simp [isFirm, isSolid, Cell.isCode, h]

section Runs

variable {m : Char} {also : Char → Bool} {keep : Cell → Bool} {text : List Char}
  {out out' done rest rest' : List Cell}

/-- **What has been written, followed by what is still to be read, has the trail of the text**, and it
ends in the same comment as what has been read. -/
structure InStep (also : Char → Bool) (keep : Cell → Bool) (text : List Char) (out done rest : List Cell) :
    Prop where
  read : label text = done.reverse ++ rest
  tails : SameTails also out done
  traced : Traced keep (trail keep (.ready .code) (label text) none) (cursorAfter (.ready .code) text)
    (out.reverse ++ rest)

lemma inStep_start (also : Char → Bool) (keep : Cell → Bool) (text : List Char) :
    InStep also keep text [] [] (label text) :=
  ⟨rfl, ⟨rfl, rfl⟩, traced_label text⟩

/-- Whether the line feed of a line comment is seen by a mark that is pulled back. -/
def LineSeen (also : Char → Bool) (out : List Cell) : Prop :=
  ∀ follow, heeded follow = none →
    Reads (.ready .code) (out.dropWhile (isLoose also)).reverse follow (.ready .line) →
      endsInLineComment (out.dropWhile (isLoose also)) = true

/-- A mark that is pulled back. -/
lemma InStep.pull (hmark : Mark m also keep) (h : InStep also keep text out done (.code m :: rest))
    (hline : LineSeen also out) :
    InStep also keep text (.code m :: pullBack also out) (.code m :: done) rest := by
  refine ⟨by simpa using h.read, h.tails.pull m, ?_⟩
  simpa using traced_pullBack hmark.only hmark.plain hmark.loose hline h.traced

/-- A blank behind the mark is code, and it may go. -/
lemma InStep.skip (hmark : Mark m also keep) {cell : Cell} (hblank : isBlank cell.char = true)
    (h : InStep also keep text (.code m :: out) done (cell :: rest)) :
    InStep also keep text (.code m :: out) (cell :: done) rest := by
  have hspace := isSpace_of_isBlank hblank
  have htraced := h.traced
  rw [List.reverse_cons, List.append_assoc] at htraced
  have hpair : [Cell.code m] ++ cell :: rest = [.code m, cell] ++ rest := rfl
  rw [hpair] at htraced
  have hcode : cell.kind = .code := by
    obtain ⟨mid, -, mid', hstep, mid'', hstep', -⟩ := reads_append.1 htraced.1
    obtain rfl := (ready_of_code hstep).1
    rw [step_space hspace (by decide)] at hstep'
    exact (Prod.mk.inj hstep').1.symm
  have hloose : isLoose also cell = true := by simp [isLoose, hcode, hspace]
  refine ⟨by simpa using h.read, ⟨?_, ?_⟩, ?_⟩
  · rw [lastComment_code hcode, lastComment_code rfl]
  · rw [List.dropWhile_cons_of_pos (l := done) hloose]
    exact h.tails.kept
  · simpa using htraced.splice ((Relaid.behind hmark.plain hspace).narrow hmark.solid)

/-- A space may be put behind the mark. -/
lemma InStep.space (hmark : Mark m also keep) (h : InStep also keep text (.code m :: out) done rest) :
    InStep also keep text (.code ' ' :: .code m :: out) done rest := by
  have htraced := h.traced
  rw [List.reverse_cons, List.append_assoc] at htraced
  have hloose : isLoose also (.code ' ') = true := by simp [isLoose, isSpace]
  refine ⟨h.read, ⟨?_, ?_⟩, ?_⟩
  · rw [← h.tails.last, lastComment_code rfl, lastComment_code rfl]
  · rw [List.dropWhile_cons_of_pos hloose]
    exact h.tails.kept
  · simpa using htraced.splice ((Relaid.spaced hmark.plain (by decide)).narrow hmark.solid)

/-- **A run keeps step with the text**, if every line comment is seen. -/
lemma InStep.run (hmark : Mark m also keep) (hseen : CommentsSeen m text)
    (h : InStep also keep text out done rest) (hrun : MarkRun m also (out, rest) (out', rest')) :
    ∃ done', InStep also keep text out' done' rest' := by
  generalize hstart : (out, rest) = start, hstop : (out', rest') = stop at hrun
  induction hrun generalizing out' rest' with
  | refl =>
      obtain ⟨rfl, rfl⟩ := Prod.mk.inj (hstart.trans hstop.symm)
      exact ⟨done, h⟩
  | tail _ hstep ih =>
      subst hstop
      cases hstep with
      | put _ =>
          obtain ⟨done', h'⟩ := ih rfl
          refine ⟨_ :: done', by simpa using h'.read, h'.tails.cons _, ?_⟩
          simpa using h'.traced
      | pull =>
          obtain ⟨done', h'⟩ := ih rfl
          refine ⟨_, h'.pull hmark fun follow hfollow => ?_⟩
          exact ends_of_seen hseen hmark.only hmark.plain hmark.ink h'.read h'.tails hfollow
      | skip hblank =>
          obtain ⟨done', h'⟩ := ih rfl
          exact ⟨_, h'.skip hmark hblank⟩
      | space =>
          obtain ⟨done', h'⟩ := ih rfl
          exact ⟨_, h'.space hmark⟩

/-- **A run to the end of a text keeps its trail**, if every line comment is seen. -/
lemma sameTrail_of_run (hmark : Mark m also keep) (hseen : CommentsSeen m text)
    (hrun : MarkRun m also ([], label text) (out, [])) : SameTrail keep text (chars out.reverse) := by
  obtain ⟨done, h⟩ := (inStep_start also keep text).run hmark hseen hrun
  exact sameTrail_of_traced (by simpa using h.traced)

end Runs

/-! ## Commas and semicolons -/

section Passes

variable {text : List Char}

/-- **The commas pass keeps the trail**, if every line comment is seen. -/
lemma sameTrail_spaceCommas (hseen : CommentsSeen ',' text) : SameTrail isSolid text (spaceCommas text) := by
  have hrun := run_commasFrom [] false (label text) (by simp)
  simpa [spaceCommas] using sameTrail_of_run comma_mark hseen hrun

/-- **So does the semicolons pass**, apart from semicolons. -/
lemma sameTrail_joinSemicolons (hseen : CommentsSeen ';' text) :
    SameTrail isFirm text (joinSemicolons text) :=
  sameTrail_of_run semicolon_mark hseen (run_placeSemicolon [] (label text))

/-- **The commas pass keeps literals**, if every line comment is seen. -/
lemma sameLiterals_spaceCommas (hseen : CommentsSeen ',' text) : SameLiterals text (spaceCommas text) :=
  (sameTrail_spaceCommas hseen).sameLiterals fun cell h => comma_mark.firm cell (by simp [h])

/-- **The semicolons pass keeps literals**, if every line comment is seen. -/
lemma sameLiterals_joinSemicolons (hseen : CommentsSeen ';' text) :
    SameLiterals text (joinSemicolons text) :=
  (sameTrail_joinSemicolons hseen).sameLiterals fun cell h => semicolon_mark.firm cell (by simp [h])

end Passes

end SqfLayout.Pass
