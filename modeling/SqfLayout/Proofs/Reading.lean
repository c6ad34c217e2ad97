import Mathlib.Data.List.Basic
import SqfLayout.Scan.Cell
import SqfLayout.Text.Space

/-!
# Reading cells

A pass works on cells, but what it writes is a text, and the next pass scans that text anew.  This file
says when the scanner finds the cells that were meant.

**Reading.**  `Reads start cells follow stop`: from the cursor `start` the scanner reads exactly these
cells and ends at `stop`, if the given character follows them.  It reads a text in one way only
(`exists_reads`, `Reads.labelFrom_append`), and parts can be put together (`reads_append`).

**Lookahead.**  The scanner looks ahead for a slash or a star and for nothing else (`step_congr`), so
what it reads does not depend on other characters that follow (`reads_congr`).

**Steps.**  Most characters leave the cursor where it is and take the class of its mode (`step_plain`).
A character of code always leaves the scanner in code (`ready_of_code`), and only a line comment can
have been ended by it.

**Cutting.**  A text may be cut before a character that the scanner does not look ahead for
(`labelFrom_cut`) and behind white space (`labelFrom_space`).
-/

namespace SqfLayout.Scan

open SqfLayout.Text

/-! ## The text of cells -/

/-- What holds of every character of a text is decided by going through the text, not through all
characters there are. -/
instance (priority := high) decidableForallText {p : Char → Prop} [DecidablePred p] (text : List Char) :
    Decidable (∀ c ∈ text, p c) :=
  List.decidableBAll p text

instance (priority := high) decidableForallNext {p : Char → Prop} [DecidablePred p] (next : Option Char) :
    Decidable (∀ c ∈ next, p c) :=
  Option.decidableForallMem next

@[simp] lemma chars_nil : chars [] = [] := rfl

@[simp] lemma chars_cons (cell : Cell) (cells : List Cell) :
    chars (cell :: cells) = cell.char :: chars cells := rfl

@[simp] lemma chars_append (a b : List Cell) : chars (a ++ b) = chars a ++ chars b :=
  List.map_append ..

@[simp] lemma chars_reverse (cells : List Cell) : chars cells.reverse = (chars cells).reverse :=
  List.map_reverse ..

@[simp] lemma chars_flatMap {α : Type} (f : α → List Cell) (xs : List α) :
    chars (xs.flatMap f) = xs.flatMap fun x => chars (f x) :=
  List.map_flatMap ..

@[simp] lemma char_code (c : Char) : (Cell.code c).char = c := rfl

@[simp] lemma kind_code (c : Char) : (Cell.code c).kind = .code := rfl

/-- A text whose characters are all given one class. -/
@[simp] lemma chars_map_mk (text : List Char) (kind : CharClass) :
    chars (text.map (⟨·, kind⟩)) = text := by
  simp [chars, Function.comp_def]

@[simp] lemma chars_map_code (text : List Char) : chars (text.map .code) = text := chars_map_mk text .code

lemma chars_labelFrom (cursor : Cursor) (text : List Char) : chars (labelFrom cursor text) = text := by
  induction text generalizing cursor with
  | nil => rfl
  | cons c rest ih => simp [labelFrom, ih]

/-- **Labelling a text keeps the text.** -/
@[simp] lemma chars_label (text : List Char) : chars (label text) = text := chars_labelFrom _ text

/-! ## Reading -/

/-- The first character of some cells, or the one that follows them. -/
def nextChar (cells : List Cell) (follow : Option Char) : Option Char :=
  (cells.head?.map Cell.char).or follow

@[simp] lemma nextChar_nil (follow : Option Char) : nextChar [] follow = follow := rfl

@[simp] lemma nextChar_cons (cell : Cell) (cells : List Cell) (follow : Option Char) :
    nextChar (cell :: cells) follow = some cell.char := rfl

lemma nextChar_append (a b : List Cell) (follow : Option Char) :
    nextChar (a ++ b) follow = nextChar a (nextChar b follow) := by
  cases a <;> rfl

/-- **The scanner reads the given cells** from one cursor to another, if the given character follows. -/
def Reads : Cursor → List Cell → Option Char → Cursor → Prop
  | start, [], _, stop => start = stop
  | start, cell :: rest, follow, stop =>
    ∃ mid, step start cell.char (nextChar rest follow) = (cell.kind, mid) ∧ Reads mid rest follow stop

@[simp] lemma reads_nil {start stop : Cursor} {follow : Option Char} :
    Reads start [] follow stop ↔ start = stop := Iff.rfl

lemma reads_cons {start stop : Cursor} {cell : Cell} {rest : List Cell} {follow : Option Char} :
    Reads start (cell :: rest) follow stop ↔
      ∃ mid, step start cell.char (nextChar rest follow) = (cell.kind, mid)
        ∧ Reads mid rest follow stop := Iff.rfl

lemma reads_append {start stop : Cursor} {a b : List Cell} {follow : Option Char} :
    Reads start (a ++ b) follow stop ↔
      ∃ mid, Reads start a (nextChar b follow) mid ∧ Reads mid b follow stop := by
  induction a generalizing start with
  | nil => simp
  | cons cell a ih =>
      simp only [List.cons_append, reads_cons, ih, nextChar_append]
      constructor
      · rintro ⟨mid, hstep, mid', ha, hb⟩
        exact ⟨mid', ⟨mid, hstep, ha⟩, hb⟩
      · rintro ⟨mid', ⟨mid, hstep, ha⟩, hb⟩
        exact ⟨mid, hstep, mid', ha, hb⟩

lemma nextChar_eq (cells : List Cell) (follow : Option Char) :
    nextChar cells follow = (chars cells).head?.or follow := by
  cases cells <;> rfl

/-- Every text is read, whatever follows it. -/
lemma exists_reads (start : Cursor) (text : List Char) (follow : Option Char) :
    ∃ cells stop, chars cells = text ∧ Reads start cells follow stop := by
  induction text generalizing start with
  | nil => exact ⟨[], start, rfl, rfl⟩
  | cons c text ih =>
      obtain ⟨cells, stop, rfl, hcells⟩ := ih (step start c (text.head?.or follow)).2
      refine ⟨⟨c, (step start c ((chars cells).head?.or follow)).1⟩ :: cells, stop, rfl, _, ?_, hcells⟩
      rw [nextChar_eq]

/-- A text is read in one way. -/
lemma Reads.unique {start stop stop' : Cursor} {a b : List Cell} {follow : Option Char}
    (ha : Reads start a follow stop) (hb : Reads start b follow stop') (hchars : chars a = chars b) :
    a = b ∧ stop = stop' := by
  induction a generalizing start b with
  | nil =>
      cases b with
      | nil => exact ⟨rfl, ha.symm.trans hb⟩
      | cons _ _ => simp at hchars
  | cons cell a ih =>
      cases b with
      | nil => simp at hchars
      | cons cell' b =>
          rw [chars_cons, chars_cons] at hchars
          obtain ⟨hchar, hrest⟩ := List.cons.inj hchars
          obtain ⟨mid, hstep, ha⟩ := ha
          obtain ⟨mid', hstep', hb⟩ := hb
          rw [nextChar_eq] at hstep hstep'
          rw [hchar, hrest, hstep'] at hstep
          obtain ⟨hkind, rfl⟩ := Prod.mk.inj hstep
          obtain ⟨rfl, rfl⟩ := ih ha hb hrest
          refine ⟨?_, rfl⟩
          cases cell
          cases cell'
          simp_all

/-- The cells that are read are the ones that labelling gives, also in front of more text. -/
lemma Reads.labelFrom_append {start stop : Cursor} {a : List Cell} {text : List Char}
    (h : Reads start a text.head? stop) :
    labelFrom start (chars a ++ text) = a ++ labelFrom stop text := by
  induction a generalizing start with
  | nil =>
      obtain rfl := reads_nil.1 h
      rfl
  | cons cell a ih =>
      obtain ⟨mid, hstep, hrest⟩ := h
      rw [nextChar_eq, ← List.head?_append] at hstep
      simp only [chars_cons, List.cons_append, labelFrom, hstep, ih hrest]

lemma Reads.cursorAfter_append {start stop : Cursor} {a : List Cell} {text : List Char}
    (h : Reads start a text.head? stop) :
    cursorAfter start (chars a ++ text) = cursorAfter stop text := by
  induction a generalizing start with
  | nil =>
      obtain rfl := reads_nil.1 h
      rfl
  | cons cell a ih =>
      obtain ⟨mid, hstep, hrest⟩ := h
      rw [nextChar_eq, ← List.head?_append] at hstep
      simp only [chars_cons, List.cons_append, cursorAfter, hstep, ih hrest]

lemma Reads.labelFrom_eq {start stop : Cursor} {a : List Cell} (h : Reads start a none stop) :
    labelFrom start (chars a) = a := by
  have happend : labelFrom start (chars a ++ []) = a ++ labelFrom stop [] := h.labelFrom_append
  simpa [labelFrom] using happend

lemma Reads.cursorAfter_eq {start stop : Cursor} {a : List Cell} (h : Reads start a none stop) :
    cursorAfter start (chars a) = stop := by
  have happend : cursorAfter start (chars a ++ []) = cursorAfter stop [] := h.cursorAfter_append
  simpa [cursorAfter] using happend

/-- **The scanner reads the cells of a text.** -/
lemma reads_labelFrom (start : Cursor) (text : List Char) :
    Reads start (labelFrom start text) none (cursorAfter start text) := by
  obtain ⟨cells, stop, rfl, hcells⟩ := exists_reads start text none
  rwa [hcells.labelFrom_eq, hcells.cursorAfter_eq]

lemma reads_label (text : List Char) :
    Reads (.ready .code) (label text) none (cursorAfter (.ready .code) text) :=
  reads_labelFrom _ text

/-! ## Lookahead -/

/-- The characters that the scanner looks ahead for. -/
def isHeeded (c : Char) : Bool := c == '/' || c == '*'

/-- The next character as far as the scanner heeds it. -/
def heeded (next : Option Char) : Option Char := next.filter isHeeded

@[simp] lemma heeded_none : heeded none = none := rfl

lemma heeded_some {c : Char} (h : isHeeded c = false) : heeded (some c) = none := by
  simp [heeded, Option.filter, h]

lemma heeded_eq_some_iff {c : Char} (hc : isHeeded c = true) {next : Option Char} :
    heeded next = some c ↔ next = some c := by
  rw [heeded, Option.filter_eq_some_iff]
  exact ⟨And.left, fun h => ⟨h, hc⟩⟩

lemma step_congr {n n' : Option Char} (h : heeded n = heeded n') (cursor : Cursor) (c : Char) :
    step cursor c n = step cursor c n' := by
  have hsame {d : Char} (hd : isHeeded d = true) : (n == some d) = (n' == some d) := by
    rw [Bool.eq_iff_iff, beq_iff_eq, beq_iff_eq, ← heeded_eq_some_iff hd, h, heeded_eq_some_iff hd]
  unfold step
  rw [hsame (d := '/') (by decide), hsame (d := '*') (by decide)]

lemma heeded_nextChar {f g : Option Char} (h : heeded f = heeded g) (cells : List Cell) :
    heeded (nextChar cells f) = heeded (nextChar cells g) := by
  cases cells with
  | nil => exact h
  | cons _ _ => rfl

/-- **What is read depends on the character that follows only as far as it is heeded.** -/
lemma reads_congr {f g : Option Char} (h : heeded f = heeded g) {start stop : Cursor}
    {cells : List Cell} : Reads start cells f stop ↔ Reads start cells g stop := by
  induction cells generalizing start with
  | nil => exact Iff.rfl
  | cons cell rest ih => simp only [reads_cons, step_congr (heeded_nextChar h rest), ih]

/-! ## Steps -/

/-- The class of a character that changes nothing. -/
def Mode.kind : Mode → CharClass
  | .code => .code
  | .single => .literal
  | .double => .literal
  | .line => .comment
  | .block => .comment

lemma kind_ne_code {mode : Mode} (h : mode ≠ .code) : mode.kind ≠ .code := by
  cases mode with
  | code => exact absurd rfl h
  | _ => decide

/-- The characters on which the scanner does not act. -/
def isPlain (c : Char) : Bool := !(['\'', '"', '/', '*', '\n'].contains c)

lemma step_plain {c : Char} (hc : isPlain c = true) (mode : Mode) (next : Option Char) :
    step (.ready mode) c next = (mode.kind, .ready mode) := by
  obtain ⟨hsingle, hdouble, hslash, hstar, hfeed⟩ :
      c ≠ '\'' ∧ c ≠ '"' ∧ c ≠ '/' ∧ c ≠ '*' ∧ c ≠ '\n' := by
    simpa [isPlain] using hc
  cases mode <;> simp [step, Mode.kind, hsingle, hdouble, hslash, hstar, hfeed]

lemma step_feed {mode : Mode} (hmode : mode ≠ .line) (next : Option Char) :
    step (.ready mode) '\n' next = (mode.kind, .ready mode) := by
  cases mode with
  | line => exact absurd rfl hmode
  | _ => rfl

lemma step_feed_line (next : Option Char) :
    step (.ready .line) '\n' next = (.code, .ready .code) := rfl

/-- **A character of code leaves the scanner in code.**  It was there before, unless the character is
the line feed behind a line comment. -/
lemma ready_of_code {start stop : Cursor} {c : Char} {next : Option Char}
    (h : step start c next = (.code, stop)) :
    stop = .ready .code ∧ (start = .ready .code ∨ (start = .ready .line ∧ c = '\n')) := by
  cases start with
  | midway mode => simp [step] at h
  | ready mode =>
      cases mode with
      | code =>
          refine ⟨?_, .inl rfl⟩
          simp only [step] at h
          split_ifs at h <;> simp_all
      | line =>
          by_cases hc : c = '\n'
          · subst hc
            exact ⟨(Prod.mk.inj h).2.symm, .inr ⟨rfl, rfl⟩⟩
          · simp [step, hc] at h
      | single => simp [step] at h
      | double => simp [step] at h
      | block => simp [step] at h

/-- The scanner stops midway only before a character that it heeds. -/
lemma ready_of_step {start stop : Cursor} {c : Char} {next : Option Char} {kind : CharClass}
    (h : step start c next = (kind, stop)) (hnext : heeded next = none) : ∃ mode, stop = .ready mode := by
  have hslash : next ≠ some '/' := by
    rintro rfl
    simp [heeded, isHeeded] at hnext
  have hstar : next ≠ some '*' := by
    rintro rfl
    simp [heeded, isHeeded] at hnext
  have hstop : stop = (step start c next).2 := by rw [h]
  rw [hstop]
  cases start with
  | midway mode => exact ⟨mode, rfl⟩
  | ready mode =>
      cases mode with
      | code =>
          simp only [step, beq_eq_false_iff_ne.2 hslash, beq_eq_false_iff_ne.2 hstar, Bool.and_false]
          split_ifs <;> exact ⟨_, rfl⟩
      | single => exact ⟨_, rfl⟩
      | double => exact ⟨_, rfl⟩
      | line =>
          simp only [step]
          split_ifs <;> exact ⟨_, rfl⟩
      | block =>
          refine ⟨.block, ?_⟩
          simp [step, hslash]

/-- A cursor that can stand before a character: midway only before one that the scanner heeds. -/
def Meets (cursor : Cursor) (next : Option Char) : Prop :=
  heeded next = none → ∃ mode, cursor = .ready mode

lemma meets_ready (mode : Mode) (next : Option Char) : Meets (.ready mode) next := fun _ => ⟨mode, rfl⟩

/-- The cursor behind some cells can stand before what follows them. -/
lemma Meets.behind {start stop : Cursor} {cells : List Cell} {follow : Option Char}
    (hstart : Meets start (nextChar cells follow)) (h : Reads start cells follow stop) :
    Meets stop follow := by
  intro hfollow
  cases hlast : cells.getLast? with
  | none =>
      rw [List.getLast?_eq_none_iff] at hlast
      subst hlast
      obtain rfl := reads_nil.1 h
      exact hstart hfollow
  | some cell =>
      obtain ⟨front, rfl⟩ := List.getLast?_eq_some_iff.1 hlast
      obtain ⟨mid, -, _, hstep, rfl⟩ := reads_append.1 h
      exact ready_of_step hstep hfollow

/-- A reading that no heeded character follows ends ready for the next one. -/
lemma Reads.ready {start stop : Cursor} {cells : List Cell} {follow : Option Char}
    (h : Reads start cells follow stop) (hfollow : heeded follow = none)
    (hstart : ∃ mode, start = .ready mode) : ∃ mode, stop = .ready mode :=
  Meets.behind (fun _ => hstart) h hfollow

/-! ## Stretches -/

/-- Characters that leave the cursor where it is take the class of its mode. -/
lemma reads_steady {mode : Mode} {cells : List Cell}
    (hcells : ∀ cell ∈ cells, ∀ next, step (.ready mode) cell.char next = (mode.kind, .ready mode))
    {follow : Option Char} {stop : Cursor} :
    Reads (.ready mode) cells follow stop ↔
      stop = .ready mode ∧ ∀ cell ∈ cells, cell.kind = mode.kind := by
  induction cells with
  | nil => simp [eq_comm]
  | cons cell rest ih =>
      obtain ⟨hcell, hrest⟩ := List.forall_mem_cons.1 hcells
      rw [reads_cons, hcell, List.forall_mem_cons]
      constructor
      · rintro ⟨mid, hstep, hreads⟩
        obtain ⟨hkind, rfl⟩ := Prod.mk.inj hstep
        obtain ⟨hstop, hkinds⟩ := (ih hrest).1 hreads
        exact ⟨hstop, hkind.symm, hkinds⟩
      · rintro ⟨hstop, hkind, hkinds⟩
        exact ⟨.ready mode, by rw [hkind], (ih hrest).2 ⟨hstop, hkinds⟩⟩

/-- **Plain characters take the class of the mode** and leave it. -/
lemma reads_plain {cells : List Cell} (hcells : ∀ cell ∈ cells, isPlain cell.char = true) (mode : Mode)
    {follow : Option Char} {stop : Cursor} :
    Reads (.ready mode) cells follow stop ↔
      stop = .ready mode ∧ ∀ cell ∈ cells, cell.kind = mode.kind :=
  reads_steady fun cell hcell => step_plain (hcells cell hcell) mode

/-- A character is plain if it passes a test that the signs of the scanner fail. -/
lemma isPlain_of_test {p : Char → Bool} (hp : ∀ s ∈ ['\'', '"', '/', '*', '\n'], p s = false) {c : Char}
    (hc : p c = true) : isPlain c = true := by
  rw [isPlain, Bool.not_eq_true', Bool.eq_false_iff]
  intro hsign
  rw [hp c (List.contains_iff_mem.1 hsign)] at hc
  contradiction

/-- A space that is no line feed is plain. -/
lemma isPlain_of_isSpace {c : Char} (hc : isSpace c = true) (hfeed : c ≠ '\n') : isPlain c = true :=
  isPlain_of_test (p := fun c => isSpace c && c != '\n') (by decide) (by simp [hc, hfeed])

lemma isHeeded_of_isPlain {c : Char} (h : isPlain c = true) : isHeeded c = false := by
  simp only [isPlain, List.contains_cons, List.contains_nil, Bool.not_eq_true', Bool.or_eq_false_iff] at h
  simp [isHeeded, h.2.2.1, h.2.2.2.1]

lemma heeded_of_plain {c : Char} (h : isPlain c = true) : heeded (some c) = none :=
  heeded_some (isHeeded_of_isPlain h)

lemma heeded_of_space {c : Char} (h : isSpace c = true) : heeded (some c) = none := by
  by_cases hfeed : c = '\n'
  · subst hfeed
    decide
  · exact heeded_of_plain (isPlain_of_isSpace h hfeed)

/-- White space outside a line comment takes the class of the mode and leaves it. -/
lemma step_space {c : Char} (hc : isSpace c = true) {mode : Mode} (hmode : mode ≠ .line)
    (next : Option Char) : step (.ready mode) c next = (mode.kind, .ready mode) := by
  by_cases hfeed : c = '\n'
  · subst hfeed
    exact step_feed hmode next
  · exact step_plain (isPlain_of_isSpace hc hfeed) mode next

/-- **So does white space**, outside line comments. -/
lemma reads_space {cells : List Cell} (hcells : ∀ cell ∈ cells, isSpace cell.char = true) {mode : Mode}
    (hmode : mode ≠ .line) {follow : Option Char} {stop : Cursor} :
    Reads (.ready mode) cells follow stop ↔
      stop = .ready mode ∧ ∀ cell ∈ cells, cell.kind = mode.kind :=
  reads_steady fun cell hcell => step_space (hcells cell hcell) hmode

/-- **In code plain characters and white space are code.** -/
lemma reads_code {cells : List Cell}
    (hcells : ∀ cell ∈ cells, isSpace cell.char = true ∨ isPlain cell.char = true)
    {follow : Option Char} {stop : Cursor} :
    Reads (.ready .code) cells follow stop ↔ stop = .ready .code ∧ ∀ cell ∈ cells, cell.kind = .code := by
  refine reads_steady fun cell hcell next => ?_
  rcases hcells cell hcell with hspace | hplain
  · exact step_space hspace (by decide) next
  · exact step_plain hplain .code next

/-- Such a character is not heeded. -/
lemma heeded_of_code {c : Char} (h : isSpace c = true ∨ isPlain c = true) : heeded (some c) = none := by
  rcases h with hspace | hplain
  · exact heeded_of_space hspace
  · exact heeded_of_plain hplain

lemma heeded_head_of_space {w : List Char} (hw : ∀ c ∈ w, isSpace c = true) : heeded w.head? = none := by
  cases w with
  | nil => rfl
  | cons c w => exact heeded_of_space (hw c (by simp))

/-! ## Cutting texts -/

/-- A text is read to the mode behind it. -/
lemma reads_modeAfter (mode : Mode) (text : List Char) :
    Reads (.ready mode) (labelFrom (.ready mode) text) none (.ready (modeAfter mode text)) := by
  have hreads := reads_labelFrom (.ready mode) text
  obtain ⟨stop, hstop⟩ := hreads.ready rfl ⟨mode, rfl⟩
  rw [modeAfter, hstop]
  rwa [hstop] at hreads

/-- **A text may be cut before a character that is not heeded.** -/
lemma labelFrom_cut (mode : Mode) (a : List Char) {b : List Char} (hb : heeded b.head? = none) :
    labelFrom (.ready mode) (a ++ b)
        = labelFrom (.ready mode) a ++ labelFrom (.ready (modeAfter mode a)) b
      ∧ modeAfter mode (a ++ b) = modeAfter (modeAfter mode a) b := by
  have ha : Reads (.ready mode) (labelFrom (.ready mode) a) b.head? (.ready (modeAfter mode a)) :=
    (reads_congr (hb.trans heeded_none.symm)).2 (reads_modeAfter mode a)
  have hlabel := ha.labelFrom_append
  have hcursor := ha.cursorAfter_append
  rw [chars_labelFrom] at hlabel hcursor
  exact ⟨hlabel, by rw [modeAfter, hcursor, ← modeAfter]⟩

/-- White space in front of a text takes the class of the mode, outside line comments. -/
lemma labelFrom_space {w : List Char} (hw : ∀ c ∈ w, isSpace c = true) {mode : Mode}
    (hmode : mode ≠ .line) (b : List Char) :
    labelFrom (.ready mode) (w ++ b) = w.map (⟨·, mode.kind⟩) ++ labelFrom (.ready mode) b
      ∧ modeAfter mode (w ++ b) = modeAfter mode b := by
  have hreads : Reads (.ready mode) (w.map (⟨·, mode.kind⟩)) b.head? (.ready mode) :=
    (reads_space (by simpa using hw) hmode).2 ⟨rfl, by simp⟩
  have hlabel := hreads.labelFrom_append
  have hcursor := hreads.cursorAfter_append
  rw [chars_map_mk] at hlabel hcursor
  exact ⟨hlabel, by rw [modeAfter, hcursor, ← modeAfter]⟩

/-- Plain characters do not change the mode. -/
lemma modeAfter_plain {text : List Char} (h : ∀ c ∈ text, isPlain c = true) (mode : Mode) :
    modeAfter mode text = mode := by
  have hreads : Reads (.ready mode) (text.map (⟨·, mode.kind⟩)) none (.ready mode) :=
    (reads_plain (by simpa using h) mode).2 ⟨rfl, by simp⟩
  have hcursor := hreads.cursorAfter_eq
  rw [chars_map_mk] at hcursor
  rw [modeAfter, hcursor]
  rfl

end SqfLayout.Scan
