import Mathlib.Data.List.Chain
import SqfLayout.Proofs.Movement
import SqfLayout.Proofs.Views

/-!
# Trails

What a text says apart from the white space of its code does not tell where its comments end: a line
feed behind a line comment is code, and without it the next comment seems to be a part of this one.  The
view of this file is finer.

**The view.**  `trail keep` are the cells that a test keeps, each with the cursor from which it is read.
Cells that are kept by a narrower test are on it as well (`trail_filter`).

**Laying out anew.**  `Relaid keep a b`: wherever the scanner reads the cells `a` it reads the cells `b`
in their place, from the same cursor to the same one and with the same trail.  Concatenation respects
this (`Relaid.append`).

**Passes.**  Parentheses, statements and operators keep the trail of every text.  Braces keep it if no
line comment ends in white space (`CommentsTrimmed`), for a closing brace takes that away as well.  The
margins pass, which comes first, leaves no such white space (`commentsTrimmed_stripMargins`).
-/

namespace SqfLayout.Pass

open SqfLayout.Text SqfLayout.Scan

/-! ## The view -/

/-- **The cells that a test keeps, each with the cursor from which it is read.** -/
def trail (keep : Cell → Bool) : Cursor → List Cell → Option Char → List (Cursor × Cell)
  | _, [], _ => []
  | start, cell :: rest, follow =>
    (if keep cell then [(start, cell)] else [])
      ++ trail keep (step start cell.char (nextChar rest follow)).2 rest follow

section Trail

variable {keep : Cell → Bool}

@[simp] lemma trail_nil (start : Cursor) (follow : Option Char) : trail keep start [] follow = [] := rfl

lemma trail_cons {start mid : Cursor} {cell : Cell} {rest : List Cell} {follow : Option Char}
    {kind : CharClass} (h : step start cell.char (nextChar rest follow) = (kind, mid)) :
    trail keep start (cell :: rest) follow
      = (if keep cell then [(start, cell)] else []) ++ trail keep mid rest follow := by
  rw [trail, h]

lemma trail_append {start mid : Cursor} {a : List Cell} (b : List Cell) {follow : Option Char}
    (h : Reads start a (nextChar b follow) mid) :
    trail keep start (a ++ b) follow
      = trail keep start a (nextChar b follow) ++ trail keep mid b follow := by
  induction a generalizing start with
  | nil =>
      obtain rfl := reads_nil.1 h
      rfl
  | cons cell a ih =>
      obtain ⟨next, hstep, ha⟩ := h
      simp only [List.cons_append, trail, nextChar_append, hstep, ih ha, List.append_assoc]

/-- The trail depends on the character that follows only as far as it is heeded. -/
lemma trail_congr {f g : Option Char} (h : heeded f = heeded g) (start : Cursor) (cells : List Cell) :
    trail keep start cells f = trail keep start cells g := by
  induction cells generalizing start with
  | nil => rfl
  | cons cell rest ih => rw [trail, trail, step_congr (heeded_nextChar h rest), ih]

lemma map_snd_trail (start : Cursor) (cells : List Cell) (follow : Option Char) :
    (trail keep start cells follow).map Prod.snd = cells.filter keep := by
  induction cells generalizing start with
  | nil => rfl
  | cons cell rest ih =>
      rw [trail, List.map_append, ih, List.filter_cons]
      split <;> rfl

lemma trail_eq_nil {cells : List Cell} (h : ∀ cell ∈ cells, keep cell = false) (start : Cursor)
    (follow : Option Char) : trail keep start cells follow = [] := by
  have hcells : cells.filter keep = [] := List.filter_eq_nil_iff.2 fun cell hcell => by simp [h cell hcell]
  rw [← map_snd_trail start cells follow] at hcells
  exact List.map_eq_nil_iff.1 hcells

/-- Where the cursor stays, all cells are read from it. -/
lemma trail_steady {mode : Mode} {cells : List Cell}
    (h : ∀ cell ∈ cells, ∀ next, step (.ready mode) cell.char next = (mode.kind, .ready mode))
    (follow : Option Char) :
    trail keep (.ready mode) cells follow = (cells.filter keep).map (Prod.mk (.ready mode)) := by
  induction cells with
  | nil => rfl
  | cons cell rest ih =>
      obtain ⟨hcell, hrest⟩ := List.forall_mem_cons.1 h
      rw [trail, hcell, ih hrest, List.filter_cons]
      split <;> rfl

/-- **A place on a trail is a place in the text.** -/
lemma exists_of_trail {start stop : Cursor} {cells : List Cell} {follow : Option Char}
    (h : Reads start cells follow stop) {before after : List (Cursor × Cell)} {place : Cursor × Cell}
    (htrail : trail keep start cells follow = before ++ place :: after) :
    ∃ front back mid, cells = front ++ place.2 :: back ∧ Reads start front (some place.2.char) place.1
      ∧ step place.1 place.2.char (nextChar back follow) = (place.2.kind, mid)
      ∧ Reads mid back follow stop ∧ trail keep mid back follow = after := by
  induction cells generalizing start before with
  | nil => simp at htrail
  | cons cell rest ih =>
      obtain ⟨next, hstep, hrest⟩ := h
      rw [trail_cons hstep] at htrail
      -- the place is this cell, or it lies behind it
      have hbehind {before : List (Cursor × Cell)}
          (htrail : trail keep next rest follow = before ++ place :: after) :
          ∃ front back mid, cell :: rest = front ++ place.2 :: back
            ∧ Reads start front (some place.2.char) place.1
            ∧ step place.1 place.2.char (nextChar back follow) = (place.2.kind, mid)
            ∧ Reads mid back follow stop ∧ trail keep mid back follow = after := by
        obtain ⟨front, back, mid, rfl, hfront, hplace⟩ := ih hrest htrail
        refine ⟨cell :: front, back, mid, rfl, ⟨next, ?_, hfront⟩, hplace⟩
        rwa [nextChar_append] at hstep
      split at htrail
      · cases before with
        | nil =>
            obtain ⟨rfl, rfl⟩ := List.cons.inj htrail
            exact ⟨[], rest, next, rfl, rfl, hstep, hrest, rfl⟩
        | cons _ before => exact hbehind (List.cons.inj htrail).2
      · exact hbehind htrail

/-- **The trail of a narrower test.** -/
lemma trail_filter {narrow : Cell → Bool} (h : ∀ cell, narrow cell = true → keep cell = true)
    (start : Cursor) (cells : List Cell) (follow : Option Char) :
    trail narrow start cells follow
      = (trail keep start cells follow).filter fun place => narrow place.2 := by
  induction cells generalizing start with
  | nil => rfl
  | cons cell rest ih =>
      rw [trail, trail, List.filter_append, ih]
      congr 1
      cases hnarrow : narrow cell with
      | true => simp [h cell hnarrow, hnarrow]
      | false =>
          split
          · next hfalse => exact absurd hfalse (by decide)
          · split <;> simp [hnarrow]

end Trail

/-! ## Laying out anew -/

/-- **Cells that may stand in place of others**: they are read from the same cursor to the same one, with
the same trail and with the same meaning for the character before them. -/
structure Relaid (keep : Cell → Bool) (a b : List Cell) : Prop where
  head : ∀ follow, heeded (nextChar b follow) = heeded (nextChar a follow)
  reads : ∀ start follow stop, Meets start (nextChar a follow) → Reads start a follow stop →
    Reads start b follow stop ∧ trail keep start b follow = trail keep start a follow

namespace Relaid

variable {keep : Cell → Bool} {a b c d : List Cell}

lemma refl (a : List Cell) : Relaid keep a a := ⟨fun _ => rfl, fun _ _ _ _ h => ⟨h, rfl⟩⟩

/-- **Concatenation respects laying out anew.** -/
lemma append (hab : Relaid keep a b) (hcd : Relaid keep c d) : Relaid keep (a ++ c) (b ++ d) := by
  constructor
  · intro follow
    rw [nextChar_append, nextChar_append, ← hab.head]
    cases b with
    | nil => exact hcd.head follow
    | cons _ _ => rfl
  · intro start follow stop hmeets h
    rw [nextChar_append] at hmeets
    obtain ⟨mid, ha, hc⟩ := reads_append.1 h
    obtain ⟨hb, htrail⟩ := hab.reads start _ mid hmeets ha
    obtain ⟨hd, htrail'⟩ := hcd.reads mid follow stop (hmeets.behind ha) hc
    have hb' : Reads start b (nextChar d follow) mid := (reads_congr (hcd.head follow)).2 hb
    refine ⟨reads_append.2 ⟨mid, hb', hd⟩, ?_⟩
    rw [trail_append d hb', trail_append c ha, trail_congr (hcd.head follow), htrail, htrail']

lemma flatMap {α : Type} {f g : α → List Cell} (h : ∀ x, Relaid keep (f x) (g x)) :
    ∀ xs : List α, Relaid keep (xs.flatMap f) (xs.flatMap g)
  | [] => refl []
  | x :: xs => by
      rw [List.flatMap_cons, List.flatMap_cons]
      exact (h x).append (flatMap h xs)

/-- What is laid out anew for a test is so for a narrower one. -/
lemma narrow {keep' : Cell → Bool} (hkeep : ∀ cell, keep' cell = true → keep cell = true)
    (h : Relaid keep a b) : Relaid keep' a b := by
  refine ⟨h.head, fun start follow stop hmeets ha => ?_⟩
  obtain ⟨hb, htrail⟩ := h.reads start follow stop hmeets ha
  rw [trail_filter hkeep, trail_filter hkeep, htrail]
  exact ⟨hb, rfl⟩

end Relaid

/-- **Cells of a given trail** that are read to a given end. -/
def Traced (keep : Cell → Bool) (places : List (Cursor × Cell)) (stop : Cursor) (cells : List Cell) :
    Prop :=
  Reads (.ready .code) cells none stop ∧ trail keep (.ready .code) cells none = places

lemma Traced.splice {keep : Cell → Bool} {places : List (Cursor × Cell)} {stop : Cursor}
    {front a b back : List Cell} (h : Traced keep places stop (front ++ (a ++ back)))
    (hab : Relaid keep a b) : Traced keep places stop (front ++ (b ++ back)) := by
  have hall := (Relaid.refl front).append (hab.append (.refl back))
  obtain ⟨hreads, htrail⟩ := hall.reads _ _ _ (meets_ready .code _) h.1
  exact ⟨hreads, htrail.trans h.2⟩

/-- **Two texts with the same trail** that end in the same mode. -/
def SameTrail (keep : Cell → Bool) (a b : List Char) : Prop :=
  trail keep (.ready .code) (label b) none = trail keep (.ready .code) (label a) none
    ∧ modeAfter .code b = modeAfter .code a

section SameTrail

variable {keep : Cell → Bool} {a b c : List Char}

lemma SameTrail.trans (hab : SameTrail keep a b) (hbc : SameTrail keep b c) : SameTrail keep a c :=
  ⟨hbc.1.trans hab.1, hbc.2.trans hab.2⟩

lemma SameTrail.narrow {keep' : Cell → Bool} (hkeep : ∀ cell, keep' cell = true → keep cell = true)
    (h : SameTrail keep a b) : SameTrail keep' a b := by
  refine ⟨?_, h.2⟩
  rw [trail_filter hkeep, trail_filter hkeep, h.1]

/-- Texts with the same trail have the same cells that are kept. -/
lemma SameTrail.filter_eq (h : SameTrail keep a b) : (label b).filter keep = (label a).filter keep := by
  rw [← map_snd_trail (.ready .code) _ none, h.1, map_snd_trail]

lemma SameTrail.solid_eq (h : SameTrail isSolid a b) : solid b = solid a := h.filter_eq

lemma sameTrail_of_traced {text : List Char} {cells : List Cell}
    (h : Traced keep (trail keep (.ready .code) (label text) none) (cursorAfter (.ready .code) text)
      cells) : SameTrail keep text (chars cells) := by
  obtain ⟨hreads, htrail⟩ := h
  rw [SameTrail, label, hreads.labelFrom_eq, modeAfter, hreads.cursorAfter_eq]
  exact ⟨htrail, rfl⟩

lemma traced_label (text : List Char) :
    Traced keep (trail keep (.ready .code) (label text) none) (cursorAfter (.ready .code) text)
      (label text) :=
  ⟨reads_label text, rfl⟩

lemma Relaid.sameTrail {text : List Char} {cells : List Cell} (h : Relaid keep (label text) cells) :
    SameTrail keep text (chars cells) :=
  sameTrail_of_traced (h.reads _ _ _ (meets_ready .code _) (reads_label text))

end SameTrail

/-! ## White space of code -/

/-- Plain characters and white space in code, each read from code. -/
lemma trail_code {cells : List Cell}
    (h : ∀ cell ∈ cells, isSpace cell.char = true ∨ isPlain cell.char = true) (follow : Option Char) :
    trail isSolid (.ready .code) cells follow = (solidCells cells).map (Prod.mk (.ready .code)) := by
  refine trail_steady (fun cell hcell next => ?_) follow
  rcases h cell hcell with hspace | hplain
  · exact step_space hspace (by decide) next
  · exact step_plain hplain .code next

/-- **Plain characters of code may be replaced by characters with the same ink**: some of them, and white
space of code. -/
lemma Relaid.of_ink {a b : List Cell} {x : Cell} (ha : ∀ cell ∈ a, isPlain cell.char = true) (hx : x ∈ a)
    (hcode : x.kind = .code)
    (hb : ∀ cell ∈ b, cell ∈ a ∨ cell.kind = .code ∧ isSpace cell.char = true) (hne : b ≠ [])
    (hink : ink (chars b) = ink (chars a)) : Relaid isSolid a b := by
  have hbchar : ∀ cell ∈ b, isSpace cell.char = true ∨ isPlain cell.char = true := by
    intro cell hcell
    rcases hb cell hcell with hmem | ⟨-, hspace⟩
    · exact .inr (ha cell hmem)
    · exact .inl hspace
  have hachar : ∀ cell ∈ a, isSpace cell.char = true ∨ isPlain cell.char = true :=
    fun cell hcell => .inr (ha cell hcell)
  have hheada (follow : Option Char) : heeded (nextChar a follow) = none := by
    obtain ⟨y, ys, rfl⟩ := List.exists_cons_of_ne_nil (List.ne_nil_of_mem hx)
    exact heeded_of_plain (ha y (by simp))
  constructor
  · intro follow
    obtain ⟨y, ys, rfl⟩ := List.exists_cons_of_ne_nil hne
    rw [hheada]
    exact heeded_of_code (hbchar y (by simp))
  · intro start follow stop hmeets h
    -- one cell is code, so all are read from code
    obtain ⟨mode, rfl⟩ := hmeets (hheada follow)
    obtain ⟨rfl, hkinds⟩ := (reads_plain ha mode).1 h
    obtain rfl : mode = .code := by
      by_contra hmode
      exact kind_ne_code hmode ((hkinds x hx).symm.trans hcode)
    have hbkinds : ∀ cell ∈ b, cell.kind = .code := by
      intro cell hcell
      rcases hb cell hcell with hmem | ⟨hkind, -⟩
      · exact hkinds cell hmem
      · exact hkind
    refine ⟨(reads_code hbchar).2 ⟨rfl, hbkinds⟩, ?_⟩
    rw [trail_code hbchar, trail_code hachar, solidCells_code hbkinds, solidCells_code hkinds, hink]

/-- White space behind a mark of code may go. -/
lemma Relaid.behind {m : Char} {s : Cell} (hm : isPlain m = true) (hs : isSpace s.char = true) :
    Relaid isSolid [.code m, s] [.code m] := by
  refine ⟨fun follow => rfl, ?_⟩
  rintro start follow stop - ⟨mid, hstep, hspace⟩
  obtain ⟨rfl, hstart⟩ := ready_of_code hstep
  obtain rfl : start = .ready .code := by
    rcases hstart with rfl | ⟨-, hfeed⟩
    · rfl
    · rw [char_code] at hfeed
      rw [hfeed] at hm
      exact absurd hm (by decide)
  have hspace' : Reads (.ready .code) [s] follow stop := hspace
  obtain ⟨rfl, hkind⟩ := (reads_space (by simpa using hs) (by decide)).1 hspace'
  have hcode : s.kind = .code := hkind s (by simp)
  have hgone : isSolid s = false := by simp [isSolid, hcode, hs]
  refine ⟨⟨_, step_plain hm .code _, rfl⟩, ?_⟩
  simp [trail, hgone]

/-- A space or a line feed may be put behind a mark of code. -/
lemma Relaid.spaced {m : Char} (hm : isPlain m = true) {c : Char} (hc : isSpace c = true) :
    Relaid isSolid [.code m] [.code m, .code c] := by
  refine .of_ink (x := .code m) (List.forall_mem_singleton.2 hm) (by simp) rfl ?_ (by simp) ?_
  · simp only [List.forall_mem_cons]
    exact ⟨.inl (by simp), .inr ⟨rfl, hc⟩, by simp⟩
  · simp [ink, List.filter_cons, hc]

/-! ## Passes that replace occurrences -/

lemma relaid_replaceFound {α : Type} {find : Finder α} (hfind : find.Fits)
    {replace : List Cell → α → List Cell} {keep : Cell → Bool}
    (found : ∀ before taken rest what, find before (taken ++ rest) = some (taken.length, what) →
      Relaid keep taken (replace taken what)) (cells : List Cell) :
    Relaid keep cells (replaceFound find replace cells) :=
  replaceFound_rel hfind .refl (fun _ _ _ _ => .append) found cells

lemma isPlain_of_isBlank {c : Char} (h : isBlank c = true) : isPlain c = true := by
  simp only [isBlank, Bool.or_eq_true, beq_iff_eq] at h
  rcases h with rfl | rfl <;> decide

lemma AllBlank.plain {cells : List Cell} (h : AllBlank cells) :
    ∀ cell ∈ cells, isPlain cell.char = true :=
  fun cell hcell => isPlain_of_isBlank (h cell hcell)

lemma relaid_trimParens (text : List Char) :
    Relaid isSolid (label text) (replaceFound parenFinder (fun _ paren => [paren]) (label text)) := by
  refine relaid_replaceFound parenFinder_fits (fun before taken rest paren hfound => ?_) _
  obtain ⟨blanks, hblanks, hshape⟩ := parenFinder_taken hfound
  rcases hshape with ⟨rfl, rfl⟩ | ⟨rfl, rfl⟩
  · refine .of_ink (x := .code '(') (List.forall_mem_cons.2 ⟨by decide, hblanks.plain⟩) (by simp) rfl
      (by simp) (by simp) ?_
    have hink : ink (['('] ++ chars blanks) = ink ['('] := by
      rw [ink_append, ink_eq_nil hblanks.allSpace.chars, List.append_nil]
    exact hink.symm
  · refine .of_ink (x := .code ')')
      (List.forall_mem_append.2 ⟨hblanks.plain, List.forall_mem_singleton.2 (by decide)⟩) (by simp) rfl
      (by simp) (by simp) ?_
    rw [chars_append, ink_append, ink_eq_nil hblanks.allSpace.chars]
    rfl

/-- **The parentheses pass keeps the trail.** -/
lemma sameTrail_trimParens (text : List Char) : SameTrail isSolid text (trimParens text) :=
  (relaid_trimParens text).sameTrail

lemma relaid_splitStatements (text : List Char) :
    Relaid isSolid (label text) (replaceFound semicolonFinder (fun _ put => put) (label text)) := by
  refine relaid_replaceFound semicolonFinder_fits (fun before taken rest put hfound => ?_) _
  obtain ⟨blanks, rfl, hblanks, hput⟩ := semicolonFinder_taken hfound
  rcases hput with rfl | rfl
  · exact .refl _
  · refine .of_ink (x := .code ';') (List.forall_mem_cons.2 ⟨by decide, hblanks.plain⟩) (by simp) rfl
      ?_ (by simp) ?_
    · simp only [List.forall_mem_cons]
      exact ⟨.inl (by simp), .inr ⟨rfl, by decide⟩, by simp⟩
    · have hink : ink ([';'] ++ chars blanks) = ink [';', '\n'] := by
        rw [ink_append, ink_eq_nil hblanks.allSpace.chars]
        rfl
      exact hink.symm

/-- **The statements pass keeps the trail.** -/
lemma sameTrail_splitStatements (text : List Char) : SameTrail isSolid text (splitStatements text) :=
  (relaid_splitStatements text).sameTrail

lemma isPlain_of_mem_operators {word : List Char} (hword : word ∈ operators) :
    ∀ c ∈ word, isPlain c = true := by
  have hall : operators.all (fun word => word.all isPlain) = true := by decide
  exact List.all_eq_true.1 (List.all_eq_true.1 hall word hword)

/-- What stands around an operator is white space of code. -/
lemma eq_space_of_mem_spaceBefore {before : Option Char} {cell : Cell} (h : cell ∈ spaceBefore before) :
    cell = .code ' ' := by
  rw [spaceBefore] at h
  split at h
  · simp at h
  · simpa using h

lemma eq_space_of_mem_spaceBehind {next : Option Cell} {cell : Cell} (h : cell ∈ spaceBehind next) :
    cell = .code ' ' := by
  unfold spaceBehind at h
  split at h
  · simp at h
  · split at h
    · simp at h
    · simpa using h

/-- An operator of code may stand with other blanks around it. -/
lemma relaid_operator {lead op behind : List Cell} (hlead : AllBlank lead) (hbehind : AllBlank behind)
    (hop : chars op ∈ operators) (hcode : op.head?.any (·.kind == .code) = true) (before : Option Char)
    (next : Option Cell) :
    Relaid isSolid (lead ++ (op ++ behind)) (spaceBefore before ++ op ++ spaceBehind next) := by
  obtain ⟨x, hx, hkind⟩ : ∃ x ∈ op, x.kind = .code := by
    cases op with
    | nil => simp at hcode
    | cons x op => exact ⟨x, by simp, by simpa using hcode⟩
  have hplain : ∀ cell ∈ op, isPlain cell.char = true := fun cell hcell =>
    isPlain_of_mem_operators hop _ (List.mem_map_of_mem hcell)
  have hspace {cell : Cell} (h : cell = .code ' ') : cell.kind = .code ∧ isSpace cell.char = true := by
    subst h
    exact ⟨rfl, by decide⟩
  have hbefore : AllSpace (spaceBefore before) := fun cell hcell =>
    (hspace (eq_space_of_mem_spaceBefore hcell)).2
  have hafter : AllSpace (spaceBehind next) := fun cell hcell =>
    (hspace (eq_space_of_mem_spaceBehind hcell)).2
  refine .of_ink (x := x)
    (List.forall_mem_append.2 ⟨hlead.plain, List.forall_mem_append.2 ⟨hplain, hbehind.plain⟩⟩)
    (by simp [hx]) hkind (fun cell hcell => ?_) (by simp [List.ne_nil_of_mem hx]) ?_
  · rcases List.mem_append.1 hcell with hcell | hcell
    · rcases List.mem_append.1 hcell with hcell | hcell
      · exact .inr (hspace (eq_space_of_mem_spaceBefore hcell))
      · exact .inl (by simp [hcell])
    · exact .inr (hspace (eq_space_of_mem_spaceBehind hcell))
  · simp [ink_eq_nil hbefore.chars, ink_eq_nil hafter.chars, ink_eq_nil hlead.allSpace.chars,
      ink_eq_nil hbehind.allSpace.chars]

lemma relaid_spaceOperators (text : List Char) :
    Relaid isSolid (label text) ((splitAfter (·.char == '\n') (label text)).flatMap spaceLine) := by
  have hline (line : List Cell) : Relaid isSolid line (spaceLine line) := by
    rw [spaceLine]
    split
    · exact .refl _
    · refine relaid_replaceFound operatorFinder_fits (fun before taken rest put hfound => ?_) _
      obtain ⟨lead, op, behind, rfl, hlead, hbehind, hop, hput⟩ := operatorFinder_taken hfound
      rcases hput with ⟨hcode, rfl⟩ | rfl
      · exact relaid_operator hlead hbehind hop hcode before rest.head?
      · exact .refl _
  have hlines := Relaid.flatMap hline (splitAfter (·.char == '\n') (label text))
  rwa [List.flatMap_id', flatten_splitAfter] at hlines

/-- **The operators pass keeps the trail.** -/
lemma sameTrail_spaceOperators (text : List Char) : SameTrail isSolid text (spaceOperators text) :=
  (relaid_spaceOperators text).sameTrail

/-! ## Braces -/

/-- Cells in which white space of a comment is never the last of the comment before code. -/
def Trimmed (cells : List Cell) : Prop :=
  cells.IsChain fun s next => ¬(s.kind = .comment ∧ isSpace s.char = true ∧ next.kind = .code)

instance (cells : List Cell) : Decidable (Trimmed cells) :=
  inferInstanceAs (Decidable (cells.IsChain _))

/-- **No line comment ends in white space.**  Only a line comment can, for a block comment ends in a
slash. -/
def CommentsTrimmed (text : List Char) : Prop := Trimmed (label text)

instance (text : List Char) : Decidable (CommentsTrimmed text) :=
  inferInstanceAs (Decidable (Trimmed (label text)))

/-- White space in a line comment holds no literal; at most it ends the comment. -/
lemma reads_space_line {w : List Cell} (hw : AllSpace w) {follow : Option Char} {stop : Cursor}
    (h : Reads (.ready .line) w follow stop) :
    (stop = .ready .line ∨ stop = .ready .code) ∧ ∀ cell ∈ w, cell.kind ≠ .literal := by
  induction w with
  | nil => exact ⟨.inl (reads_nil.1 h).symm, by simp⟩
  | cons cell w ih =>
      obtain ⟨hcell, hw⟩ := List.forall_mem_cons.1 hw
      obtain ⟨mid, hstep, hrest⟩ := h
      by_cases hfeed : cell.char = '\n'
      · rw [hfeed, step_feed_line] at hstep
        obtain ⟨hkind, rfl⟩ := Prod.mk.inj hstep
        obtain ⟨rfl, hkinds⟩ := (reads_space hw (by decide)).1 hrest
        refine ⟨.inr rfl, List.forall_mem_cons.2 ⟨?_, fun c hc => ?_⟩⟩
        · rw [← hkind]
          decide
        · rw [hkinds c hc]
          decide
      · rw [step_plain (isPlain_of_isSpace hcell hfeed)] at hstep
        obtain ⟨hkind, rfl⟩ := Prod.mk.inj hstep
        obtain ⟨hstop, hliterals⟩ := ih hw hrest
        refine ⟨hstop, List.forall_mem_cons.2 ⟨?_, hliterals⟩⟩
        rw [← hkind]
        decide

/-- White space that ends in code starts in code or in a line comment, and no literal is in it. -/
lemma reads_space_code {w : List Cell} (hw : AllSpace w) {mode : Mode} {follow : Option Char}
    (h : Reads (.ready mode) w follow (.ready .code)) :
    (mode = .code ∨ mode = .line) ∧ ∀ cell ∈ w, cell.kind ≠ .literal := by
  by_cases hmode : mode = .line
  · subst hmode
    exact ⟨.inr rfl, (reads_space_line hw h).2⟩
  · obtain ⟨heq, hkinds⟩ := (reads_space hw hmode).1 h
    obtain rfl := Cursor.ready.inj heq
    refine ⟨.inl rfl, fun cell hcell => ?_⟩
    rw [hkinds cell hcell]
    decide

/-- Where comments are trimmed, white space before code is code if it is no literal. -/
lemma Trimmed.code {w : List Cell} {next : Cell} (h : Trimmed (w ++ [next])) (hw : AllSpace w)
    (hliterals : ∀ cell ∈ w, cell.kind ≠ .literal) (hnext : next.kind = .code) :
    ∀ cell ∈ w, cell.kind = .code := by
  induction w with
  | nil => simp
  | cons s w ih =>
      obtain ⟨hs, hw⟩ := List.forall_mem_cons.1 hw
      obtain ⟨hliteral, hliterals⟩ := List.forall_mem_cons.1 hliterals
      obtain ⟨hpair, hrest⟩ := List.isChain_cons.1 h
      have hcode := ih hrest hw hliterals
      refine List.forall_mem_cons.2 ⟨?_, hcode⟩
      -- the cell behind it is code, so it is not the last of a comment
      obtain ⟨y, hy, hykind⟩ : ∃ y ∈ (w ++ [next]).head?, y.kind = .code := by
        cases w with
        | nil => exact ⟨next, rfl, hnext⟩
        | cons y w => exact ⟨y, rfl, hcode y (by simp)⟩
      have hcomment : s.kind ≠ .comment := fun hkind => hpair y hy ⟨hkind, hs, hykind⟩
      cases hkind : s.kind with
      | code => rfl
      | literal => exact absurd hkind hliteral
      | comment => exact absurd hkind hcomment

/-- **White space before a closing brace of code may become a line feed**, also where a line comment
ends in it, if the trail has neither. -/
lemma Relaid.closing {keep : Cell → Bool} (hfeed : keep (.code '\n') = false) {w : List Cell} (hw : AllSpace w)
    (hgone : (∀ cell ∈ w, cell.kind ≠ .literal) → ∀ cell ∈ w, keep cell = false) :
    Relaid keep (w ++ [.code '}']) [.code '\n', .code '}'] := by
  have hhead (follow : Option Char) : heeded (nextChar (w ++ [.code '}']) follow) = none := by
    cases w with
    | nil => rfl
    | cons s w => exact heeded_of_space (hw s (by simp))
  refine ⟨fun follow => (hhead follow).symm, ?_⟩
  intro start follow stop hmeets h
  obtain ⟨mode, rfl⟩ := hmeets (hhead follow)
  obtain ⟨mid, hspace, _, hstep, rfl⟩ := reads_append.1 h
  obtain ⟨rfl, hmid⟩ := ready_of_code hstep
  obtain rfl : mid = .ready .code := by
    rcases hmid with hmid | ⟨-, hbrace⟩
    · exact hmid
    · exact absurd hbrace (by decide)
  obtain ⟨hmode, hliterals⟩ := reads_space_code hw hspace
  have hbreak : step (.ready mode) (Cell.code '\n').char (nextChar [.code '}'] follow) = (.code, .ready .code) := by
    rcases hmode with rfl | rfl <;> rfl
  refine ⟨⟨.ready .code, hbreak, .ready .code, rfl, rfl⟩, ?_⟩
  rw [trail_append _ hspace, trail_eq_nil (hgone hliterals), trail_cons hbreak, hfeed]
  rfl

lemma trimmed_code_cons {c : Char} {rest : List Cell} : Trimmed (.code c :: rest) ↔ Trimmed rest := by
  simp [Trimmed, List.isChain_cons]

lemma BraceEdit.trimmed {a b : List Cell} (h : BraceEdit a b) (ha : Trimmed a) : Trimmed b := by
  cases h with
  | first _ => exact List.IsChain.right_of_append ha
  | @closing front w rest hlast _ =>
      have hrest : Trimmed (.code '}' :: rest) :=
        List.IsChain.right_of_append (List.IsChain.right_of_append ha)
      refine List.IsChain.append (List.IsChain.left_of_append ha) (trimmed_code_cons.2 hrest) ?_
      rintro x hx y - ⟨-, hspace, -⟩
      rw [hlast x hx] at hspace
      contradiction
  | @behind front rest s _ =>
      obtain ⟨hfront, hrest, hpair⟩ := List.isChain_append.1 ha
      have hrest' : Trimmed rest := List.IsChain.tail (trimmed_code_cons.1 hrest)
      exact hfront.append (trimmed_code_cons.2 hrest') hpair
  | @opening front rest c _ _ =>
      obtain ⟨hfront, hrest, hpair⟩ := List.isChain_append.1 ha
      exact hfront.append (trimmed_code_cons.2 (trimmed_code_cons.2 (trimmed_code_cons.1 hrest))) hpair

lemma BraceEdit.traced {places : List (Cursor × Cell)} {stop : Cursor} {a b : List Cell}
    (h : BraceEdit a b) (htrimmed : Trimmed a) (ha : Traced isSolid places stop a) :
    Traced isSolid places stop b := by
  cases h with
  | @first w rest hw =>
      -- at the start of a text the white space is code
      obtain ⟨hreads, htrail⟩ := ha
      obtain ⟨mid, hgap, hrest⟩ := reads_append.1 hreads
      rw [trail_append _ hgap] at htrail
      obtain ⟨rfl, hkinds⟩ := (reads_space hw (by decide)).1 hgap
      have hgone : ∀ cell ∈ w, isSolid cell = false := fun cell hcell => by
        have hcode : cell.kind = .code := hkinds cell hcell
        simp [isSolid, hcode, hw cell hcell]
      rw [trail_eq_nil hgone, List.nil_append] at htrail
      exact ⟨hrest, htrail⟩
  | @closing front w rest _ hw =>
      have htrimmed' : Trimmed (w ++ [.code '}']) := by
        have hbehind := List.IsChain.right_of_append htrimmed
        rw [← List.singleton_append, ← List.append_assoc] at hbehind
        exact hbehind.left_of_append
      have hgap : Traced isSolid places stop (front ++ ((w ++ [.code '}']) ++ rest)) := by simpa using ha
      have hgone (hliterals : ∀ cell ∈ w, cell.kind ≠ .literal) : ∀ cell ∈ w, isSolid cell = false :=
        fun cell hcell => by simp [isSolid, htrimmed'.code hw hliterals rfl cell hcell, hw cell hcell]
      simpa using hgap.splice (.closing rfl hw hgone)
  | @behind front rest s hs =>
      have hbrace : Traced isSolid places stop (front ++ ([.code '{', s] ++ rest)) := by simpa using ha
      simpa using hbrace.splice (.behind (by decide) hs)
  | @opening front rest c hc _ =>
      have hspace : isSpace c = true := by
        rcases hc with rfl | rfl
        · decide
        · decide
      have hbrace : Traced isSolid places stop (front ++ ([.code '{'] ++ rest)) := by simpa using ha
      simpa using hbrace.splice (.spaced (by decide) hspace)

/-- **The braces pass keeps the trail**, if no line comment ends in white space. -/
lemma sameTrail_breakBraces {text : List Char} (h : CommentsTrimmed text) :
    SameTrail isSolid text (breakBraces text) := by
  refine sameTrail_of_traced (And.right (breakBraces_invariant (P := fun cells => Trimmed cells
    ∧ Traced isSolid (trail isSolid (.ready .code) (label text) none) (cursorAfter (.ready .code) text)
      cells) (fun a b hedit ha => ?_) ⟨h, traced_label text⟩))
  exact ⟨hedit.trimmed ha.1, hedit.traced ha.1 ha.2⟩

/-! ## Margins -/

/-- White space at the end of a comment before code is followed by a line feed and is none itself. -/
lemma feed_of_comment {mode : Mode} {s next : Cell} {rest : List Cell} {follow : Option Char}
    {stop : Cursor} (h : Reads (.ready mode) (s :: next :: rest) follow stop) (hs : s.kind = .comment)
    (hspace : isSpace s.char = true) (hnext : next.kind = .code) :
    next.char = '\n' ∧ s.char ≠ '\n' := by
  obtain ⟨mid, hstep, mid', hstep', -⟩ := h
  rw [hs] at hstep
  rw [hnext] at hstep'
  have hkind {mode : Mode} (h : mode.kind = .comment) : Cursor.ready mode ≠ .ready .code := by
    rintro ⟨⟩
    exact absurd h (by decide)
  by_cases hfeed : s.char = '\n'
  · by_cases hmode : mode = .line
    · rw [hfeed, hmode, step_feed_line] at hstep
      exact absurd (Prod.mk.inj hstep).1 (by decide)
    · rw [hfeed, step_feed hmode] at hstep
      obtain ⟨hcomment, rfl⟩ := Prod.mk.inj hstep
      rcases (ready_of_code hstep').2 with hcode | ⟨hline, -⟩
      · exact absurd hcode (hkind hcomment)
      · exact absurd (Cursor.ready.inj hline) hmode
  · rw [step_plain (isPlain_of_isSpace hspace hfeed)] at hstep
    obtain ⟨hcomment, rfl⟩ := Prod.mk.inj hstep
    rcases (ready_of_code hstep').2 with hcode | ⟨-, hfeed'⟩
    · exact absurd hcode (hkind hcomment)
    · exact ⟨hfeed', hfeed⟩

/-- Where no line ends in white space, no comment does. -/
lemma commentsTrimmed_of_lines {text : List Char}
    (h : ∀ line ∈ lines text, ∀ c ∈ line.getLast?, isSpace c = false) : CommentsTrimmed text := by
  refine List.isChain_iff_forall_rel_of_append_cons_cons.2 ?_
  rintro s next front back hlabel ⟨hs, hspace, hnext⟩
  have hreads := reads_label text
  rw [hlabel] at hreads
  obtain ⟨mid, hfront, hback⟩ := reads_append.1 hreads
  obtain ⟨mode, rfl⟩ := (meets_ready .code _).behind hfront (heeded_of_space hspace)
  obtain ⟨hfeed, hne⟩ := feed_of_comment hback hs hspace hnext
  have htext : text = (chars front ++ [s.char]) ++ '\n' :: chars back := by
    have hchars := congrArg chars hlabel
    rw [chars_label] at hchars
    simpa [hfeed] using hchars
  obtain ⟨line, hline, hlast⟩ := exists_line_of_append (chars front) hne
  rw [htext, lines_append_feed] at h
  rw [h line (by simp [hline]) _ hlast] at hspace
  contradiction

/-- **The stripped rows are the lines of the text that the pass gives.** -/
lemma lines_stripMargins (text : List Char) :
    lines (stripMargins text) = stripRows none (positions .code (lines text)) := by
  have hstripped := forall₂_stripRows none .code (lines text)
  refine lines_unlines ?_ fun line hline hfeed => ?_
  · intro hnil
    rw [hnil] at hstripped
    exact splitWhen_ne_nil _ _ (List.forall₂_nil_right_iff.1 hstripped)
  · obtain ⟨source, hsource, ⟨front, back, heq, -, -⟩, -⟩ := exists_stripped hstripped hline
    refine feed_notMem_of_mem_lines hsource ?_
    rw [heq]
    simp [hfeed]

/-- **The margins pass leaves no white space at the end of a line comment.** -/
lemma commentsTrimmed_stripMargins (text : List Char) : CommentsTrimmed (stripMargins text) := by
  refine commentsTrimmed_of_lines fun line hline => ?_
  rw [lines_stripMargins] at hline
  obtain ⟨source, -, hstripped⟩ := exists_stripped (forall₂_stripRows none .code (lines text)) hline
  exact hstripped.last

/-! ## The view of a text -/

/-- **Four passes change the white space of code and nothing else.**  Operators, statements and
parentheses do so in every text, braces in every text whose line comments do not end in white space; and
such is every text that has been through the margins pass. -/
theorem solid_layoutPasses (text : List Char) :
    solid (spaceOperators text) = solid text ∧ solid (splitStatements text) = solid text
      ∧ solid (trimParens text) = solid text
      ∧ (CommentsTrimmed text → solid (breakBraces text) = solid text)
      ∧ CommentsTrimmed (stripMargins text) :=
  ⟨(sameTrail_spaceOperators text).solid_eq, (sameTrail_splitStatements text).solid_eq,
    (sameTrail_trimParens text).solid_eq, fun h => (sameTrail_breakBraces h).solid_eq,
    commentsTrimmed_stripMargins text⟩

/-- A block with a comment before its closing brace; with a blank at the end of the comment it is none of
the texts meant, and the blank is lost. -/
theorem solid_layoutPasses_block :
    CommentsTrimmed "\x7ba // b\n \x7d".toList
      ∧ solid (breakBraces "\x7ba // b\n \x7d".toList) = solid "\x7ba // b\n \x7d".toList
      ∧ ¬ CommentsTrimmed "\x7ba // b \n\x7d".toList
      ∧ solid (breakBraces "\x7ba // b \n\x7d".toList) ≠ solid "\x7ba // b \n\x7d".toList := by
  have htrimmed : CommentsTrimmed "\x7ba // b\n \x7d".toList := by decide +kernel
  exact ⟨htrimmed, (solid_layoutPasses _).2.2.2.1 htrimmed, by decide +kernel, by decide +kernel⟩

end SqfLayout.Pass
