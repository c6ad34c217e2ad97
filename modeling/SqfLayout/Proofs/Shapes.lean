import SqfLayout.Proofs.Views

/-!
# Rewriting shapes

The headers pass looks for its idioms in the text as it stands and asks only whether an idiom starts in
code.  What is inside may open a literal or a comment and leave it open; what follows is then no code,
but its white space is made canonical all the same.  This file says when that is seen.

**Shapes.**  An idiom is a lead in code, a core that may hold anything, and a tail of parts, each of them
white space and characters that the scanner does not act on (`Part`).  A rewriting replaces the white
space of the lead and of the tail.

**Tails.**  Read in code, a tail keeps its view whatever its white space is (`tail_code`).  Read inside a
literal or a comment it keeps its view only if its white space is canonical already; otherwise the view
differs first at one of its gaps (`tail_differs`).

**Rounds.**  `round_of_division` goes through a text: a round whose occurrences are all harmless keeps
the view, and the first occurrence that is not makes a first difference.
-/

namespace SqfLayout.Pass

open SqfLayout.Text SqfLayout.Scan

/-! ## Parts -/

/-- White space, what is to stand in its place, and the characters behind it. -/
structure Part where
  gap : List Cell
  space : List Char
  block : List Cell

/-- The cells of a part. -/
def Part.cells (p : Part) : List Cell := p.gap ++ p.block

/-- The text of a part with its white space replaced. -/
def Part.text (p : Part) : List Char := p.space ++ chars p.block

/-- A cell on which the scanner does not act and that is no white space. -/
def Inert (cell : Cell) : Prop := isPlain cell.char = true ∧ isSpace cell.char = false

/-- A part as headers have them. -/
structure Part.Regular (p : Part) : Prop where
  gap : AllSpace p.gap
  space : ∀ c ∈ p.space, c = ' '
  ne_nil : p.block ≠ []
  block : ∀ cell ∈ p.block, Inert cell

/-- A part whose white space is what is to stand there. -/
def Part.Canonical (p : Part) : Prop := chars p.gap = p.space

/-- The cells of a tail. -/
def tailCells (tail : List Part) : List Cell := tail.flatMap Part.cells

/-- The text of a tail with its white space replaced. -/
def tailText (tail : List Part) : List Char := tail.flatMap Part.text

@[simp] lemma tailCells_nil : tailCells [] = [] := rfl

@[simp] lemma tailText_nil : tailText [] = [] := rfl

lemma tailCells_cons (p : Part) (tail : List Part) :
    tailCells (p :: tail) = p.gap ++ (p.block ++ tailCells tail) := by
  simp [tailCells, Part.cells]

lemma tailText_cons (p : Part) (tail : List Part) :
    tailText (p :: tail) = p.space ++ (chars p.block ++ tailText tail) := by
  simp [tailText, Part.text]

/-- A part that is canonical reads the same either way. -/
lemma tailText_of_canonical {tail : List Part} (h : ∀ p ∈ tail, p.Canonical) :
    tailText tail = chars (tailCells tail) := by
  induction tail with
  | nil => rfl
  | cons p tail ih =>
      obtain ⟨hp, htail⟩ := List.forall_mem_cons.1 h
      rw [tailText_cons, tailCells_cons, chars_append, chars_append, hp, ih htail]

/-- The replaced text of a tail is plain. -/
lemma isPlain_tailText {tail : List Part} (h : ∀ p ∈ tail, p.Regular) :
    ∀ c ∈ tailText tail, isPlain c = true := by
  intro c hc
  obtain ⟨p, hp, hc⟩ := List.mem_flatMap.1 hc
  rcases List.mem_append.1 hc with hc | hc
  · rw [(h p hp).space c hc]
    decide
  · obtain ⟨cell, hcell, rfl⟩ := List.mem_map.1 hc
    exact ((h p hp).block cell hcell).1

/-- The ink of a tail stays. -/
lemma ink_tailText {tail : List Part} (h : ∀ p ∈ tail, p.Regular) :
    ink (tailText tail) = ink (chars (tailCells tail)) := by
  induction tail with
  | nil => rfl
  | cons p tail ih =>
      obtain ⟨hp, htail⟩ := List.forall_mem_cons.1 h
      have hgap : ink (chars p.gap) = [] := ink_eq_nil hp.gap.chars
      have hspace : ink p.space = [] := by
        refine ink_eq_nil fun c hc => ?_
        rw [hp.space c hc]
        decide
      simp only [tailText_cons, tailCells_cons, chars_append, ink_append, hgap, hspace, ih htail]

/-! ## Tails -/

/-- Cells of one class are their text with that class. -/
lemma map_kind_eq {kind : CharClass} {cells : List Cell} (h : ∀ cell ∈ cells, cell.kind = kind) :
    (chars cells).map (⟨·, kind⟩) = cells := by
  induction cells with
  | nil => rfl
  | cons cell cells ih =>
      obtain ⟨hcell, hcells⟩ := List.forall_mem_cons.1 h
      rw [chars_cons, List.map_cons, ih hcells, ← hcell]

/-- **In code a tail keeps its view.** -/
lemma tail_code {tail : List Part} (h : ∀ p ∈ tail, p.Regular) {follow : Option Char} {stop : Cursor} :
    Reads (.ready .code) (tailCells tail) follow stop ↔
      stop = .ready .code ∧ ∀ cell ∈ tailCells tail, cell.kind = .code := by
  refine reads_code fun cell hcell => ?_
  obtain ⟨p, hp, hcell⟩ := List.mem_flatMap.1 hcell
  rcases List.mem_append.1 hcell with hcell | hcell
  · exact .inl ((h p hp).gap cell hcell)
  · exact .inr ((h p hp).block cell hcell).1

/-- White space that ends a line comment leads back to code. -/
lemma reads_feed_line {g : List Cell} (hg : AllSpace g) (hfeed : '\n' ∈ chars g) {follow : Option Char}
    {stop : Cursor} (h : Reads (.ready .line) g follow stop) : stop = .ready .code := by
  induction g with
  | nil => simp at hfeed
  | cons cell g ih =>
      obtain ⟨hcell, hg⟩ := List.forall_mem_cons.1 hg
      obtain ⟨mid, hstep, hrest⟩ := h
      by_cases hchar : cell.char = '\n'
      · rw [hchar, step_feed_line] at hstep
        obtain ⟨-, rfl⟩ := Prod.mk.inj hstep
        exact ((reads_space hg (by decide)).1 hrest).1
      · rw [step_plain (isPlain_of_isSpace hcell hchar)] at hstep
        obtain ⟨-, rfl⟩ := Prod.mk.inj hstep
        refine ih hg ?_ hrest
        rcases List.mem_cons.1 hfeed with heq | hmem
        · exact absurd heq.symm hchar
        · exact hmem

/-- **Outside code other white space is seen.**  Either it differs itself, or it ends a line comment and
then the class of the character behind it differs. -/
lemma gap_differs {mode : Mode} (hmode : mode ≠ .code) {g : List Cell} (hg : AllSpace g)
    {space : List Char} (hne : chars g ≠ space) {y : Cell} (hy : Inert y) {rest : List Cell}
    {follow : Option Char} {stop : Cursor} (h : Reads (.ready mode) (g ++ y :: rest) follow stop) :
    solidCells g ++ [y] ≠ space.map (⟨·, mode.kind⟩) ++ [⟨y.char, mode.kind⟩] := by
  intro heq
  obtain ⟨mid, hgap, mid', hstep, -⟩ := reads_append.1 h
  obtain ⟨hcells, hlast⟩ := List.append_inj' heq rfl
  have hkind : y.kind = mode.kind := by rw [(List.cons.inj hlast).1]
  by_cases hline : mode = .line ∧ '\n' ∈ chars g
  · obtain ⟨rfl, hfeed⟩ := hline
    rw [reads_feed_line hg hfeed hgap, step_plain hy.1] at hstep
    rw [← (Prod.mk.inj hstep).1] at hkind
    exact kind_ne_code hmode hkind.symm
  · have hkinds : ∀ cell ∈ g, cell.kind = mode.kind := by
      by_cases hmode' : mode = .line
      · have hplain : ∀ cell ∈ g, isPlain cell.char = true := by
          refine fun cell hcell => isPlain_of_isSpace (hg cell hcell) fun hchar => hline ⟨hmode', ?_⟩
          rw [← hchar]
          exact List.mem_map_of_mem hcell
        exact ((reads_plain hplain mode).1 hgap).2
      · exact ((reads_space hg hmode').1 hgap).2
    rw [solidCells_eq_self fun cell hcell => hkinds cell hcell ▸ kind_ne_code hmode] at hcells
    refine hne ?_
    rw [hcells, chars_map_mk]

/-- The last character before a tail and those at the ends of its blocks are related in turn. -/
def Linked (R : Char → Char → Prop) : Char → List Part → Prop
  | _, [] => True
  | x, p :: tail => ∃ y z, p.block.head? = some y ∧ p.block.getLast? = some z ∧ R x y.char
      ∧ Linked R z.char tail

/-- A canonical part takes the class of the mode in which it is read. -/
lemma Part.Regular.reads_canonical {p : Part} (hp : p.Regular) (hcanonical : p.Canonical) {mode : Mode}
    {rest : List Cell} {follow : Option Char} {stop : Cursor}
    (h : Reads (.ready mode) (p.gap ++ (p.block ++ rest)) follow stop) :
    (∀ cell ∈ p.gap, cell.kind = mode.kind) ∧ (∀ cell ∈ p.block, cell.kind = mode.kind)
      ∧ Reads (.ready mode) rest follow stop := by
  obtain ⟨mid, hgap, h⟩ := reads_append.1 h
  obtain ⟨mid', hblock, hrest⟩ := reads_append.1 h
  have hplain : ∀ cell ∈ p.gap, isPlain cell.char = true := by
    intro cell hcell
    have hchar : cell.char ∈ p.space := hcanonical ▸ List.mem_map_of_mem hcell
    rw [hp.space _ hchar]
    decide
  obtain ⟨rfl, hgapKind⟩ := (reads_plain hplain mode).1 hgap
  obtain ⟨rfl, hblockKind⟩ := (reads_plain (fun cell hcell => (hp.block cell hcell).1) mode).1 hblock
  exact ⟨hgapKind, hblockKind, hrest⟩

/-- **Outside code a tail with other white space differs** at one of its gaps, between two characters
that it links. -/
lemma tail_differs {R : Char → Char → Prop} {mode : Mode} (hmode : mode ≠ .code) {tail : List Part}
    (htail : ∀ p ∈ tail, p.Regular) (hcanonical : ¬ ∀ p ∈ tail, p.Canonical) {x : Cell}
    (hx : isSpace x.char = false) (hlinked : Linked R x.char tail) {follow : Option Char} {stop : Cursor}
    (h : Reads (.ready mode) (tailCells tail) follow stop) (restA restB : List Cell) :
    DiffersAt R (x :: (solidCells (tailCells tail) ++ restA))
      (x :: ((tailText tail).map (⟨·, mode.kind⟩) ++ restB)) := by
  induction tail generalizing x with
  | nil => exact absurd (by simp) hcanonical
  | cons p tail ih =>
      obtain ⟨hp, htail⟩ := List.forall_mem_cons.1 htail
      obtain ⟨y, z, hy, hz, hR, hlinked⟩ := hlinked
      rw [tailCells_cons] at h ⊢
      rw [tailText_cons]
      by_cases hcanonical' : p.Canonical
      · obtain ⟨hgapKind, hblockKind, hrest⟩ := hp.reads_canonical hcanonical' h
        obtain ⟨init, hinit⟩ := List.getLast?_eq_some_iff.1 hz
        have hz' : isSpace z.char = false := (hp.block z (by simp [hinit])).2
        have hdiffers := (ih htail
          (fun hall => hcanonical (List.forall_mem_cons.2 ⟨hcanonical', hall⟩)) hz' hlinked
          hrest).append_left (x :: (p.gap ++ init))
        have hgap' : p.space.map (⟨·, mode.kind⟩) = p.gap := by
          rw [← hcanonical', map_kind_eq hgapKind]
        have hblock' : (chars p.block).map (⟨·, mode.kind⟩) = init ++ [z] := by
          rw [map_kind_eq hblockKind, hinit]
        have hsolid : solidCells (p.gap ++ (p.block ++ tailCells tail))
            = p.gap ++ (init ++ ([z] ++ solidCells (tailCells tail))) := by
          rw [solidCells_append, solidCells_append,
            solidCells_eq_self fun cell hcell => hgapKind cell hcell ▸ kind_ne_code hmode,
            solidCells_eq_self fun cell hcell => hblockKind cell hcell ▸ kind_ne_code hmode, hinit,
            List.append_assoc]
        simpa [hsolid, hgap', hblock'] using hdiffers
      · obtain ⟨ys, hys⟩ := List.head?_eq_some_iff.1 hy
        have hinert : Inert y := hp.block y (by simp [hys])
        rw [hys, List.cons_append] at h
        have hne := gap_differs hmode hp.gap hcanonical' hinert h
        refine ⟨[], x, solidCells p.gap, y, solidCells (ys ++ tailCells tail) ++ restA,
          p.space.map (⟨·, mode.kind⟩), ⟨y.char, mode.kind⟩,
          (chars ys ++ tailText tail).map (⟨·, mode.kind⟩) ++ restB, ?_, ?_, hx, ?_, ?_, hinert.2, rfl,
          hR, hne⟩
        · rw [hys, List.cons_append, solidCells_append, solidCells_cons_ink hinert.2]
          simp
        · simp [hys]
        · exact fun cell hcell => hp.gap cell (List.mem_filter.1 hcell).1
        · intro cell hcell
          obtain ⟨c, hc, rfl⟩ := List.mem_map.1 hcell
          exact hp.space c hc ▸ (by decide : isSpace ' ' = true)

/-! ## Shapes -/

/-- **The shape of a header**: a lead and what it becomes, a core that stays, and a tail. -/
structure Shape where
  lead : List Cell
  spaced : List Char
  core : List Cell
  tail : List Part

namespace Shape

/-- The cells of a shape. -/
def cells (s : Shape) : List Cell := s.lead ++ (s.core ++ tailCells s.tail)

/-- The text of a shape with its white space replaced. -/
def text (s : Shape) : List Char := s.spaced ++ (chars s.core ++ tailText s.tail)

/-- The shapes that headers have.  The scanner acts on no character of a lead or a tail, and a core
ends in a character that the tail is linked to. -/
structure Regular (R : Char → Char → Prop) (s : Shape) : Prop where
  lead : ∀ cell ∈ s.lead, isSpace cell.char = true ∨ isPlain cell.char = true
  spaced : ∀ c ∈ s.spaced, isPlain c = true
  ink_eq : ink s.spaced = ink (chars s.lead)
  head : s.lead ≠ [] ∧ s.spaced.head? = (chars s.lead).head?
  tail : ∀ p ∈ s.tail, p.Regular
  closed : s.core = [] ∨ s.tail ≠ []
  linked : ∀ x ∈ s.core.getLast?, isSpace x.char = false ∧ Linked R x.char s.tail

/-- **A harmless shape**: its core leaves no literal and no comment open, or its tail has canonical white
space already. -/
def Harmless (s : Shape) : Prop :=
  modeAfter .code (chars s.core) = .code ∨ ∀ p ∈ s.tail, p.Canonical

/-- The cells that the replaced text of a shape has, for a core that ends in the given mode. -/
def result (s : Shape) (mode : Mode) : List Cell :=
  s.spaced.map .code ++ (s.core ++ (tailText s.tail).map (⟨·, mode.kind⟩))

lemma chars_result (s : Shape) (mode : Mode) : chars (s.result mode) = s.text := by
  rw [result, chars_append, chars_append, chars_map_code, chars_map_mk, text]

variable {R : Char → Char → Prop} {s : Shape} {follow : Option Char} {stop : Cursor}

/-- No tail starts with a character that the scanner heeds. -/
lemma heeded_tail {tail : List Part} (htail : ∀ p ∈ tail, p.Regular) (hne : tail ≠ [])
    (follow : Option Char) :
    heeded (nextChar (tailCells tail) follow) = none ∧ heeded ((tailText tail).head?.or follow) = none := by
  cases tail with
  | nil => exact absurd rfl hne
  | cons p tail =>
      obtain ⟨hp, -⟩ := List.forall_mem_cons.1 htail
      obtain ⟨y, ys, hblock⟩ := List.exists_cons_of_ne_nil hp.ne_nil
      have hy := hp.block y (by simp [hblock])
      rw [tailCells_cons, tailText_cons, hblock]
      constructor
      · cases hgap : p.gap with
        | nil => exact heeded_of_plain hy.1
        | cons cell gap => exact heeded_of_space (hp.gap cell (by simp [hgap]))
      · cases hsp : p.space with
        | nil => exact heeded_of_plain hy.1
        | cons c space =>
            rw [hp.space c (by simp [hsp])]
            exact heeded_of_space (by decide : isSpace ' ' = true)

/-- **A header is read part by part**: its lead in code, and its tail in the mode that its core leaves. -/
lemma Regular.reads (hs : s.Regular R) (h : Reads (.ready .code) s.cells follow stop) :
    ∃ mode, modeAfter .code (chars s.core) = mode ∧ Reads (.ready .code) s.core none (.ready mode)
      ∧ (∀ cell ∈ s.lead, cell.kind = .code) ∧ Reads (.ready mode) (tailCells s.tail) follow stop := by
  obtain ⟨mid, hlead, h⟩ := reads_append.1 h
  obtain ⟨mid', hcore, htail⟩ := reads_append.1 h
  obtain ⟨rfl, hkinds⟩ := (reads_code hs.lead).1 hlead
  have hcore' : Reads (.ready .code) s.core none mid' := by
    rcases hs.closed with hnil | hne
    · rw [hnil] at hcore ⊢
      exact hcore
    · exact (reads_congr (heeded_tail hs.tail hne follow).1).1 hcore
  obtain ⟨mode, rfl⟩ := hcore'.ready rfl ⟨.code, rfl⟩
  refine ⟨mode, ?_, hcore', hkinds, htail⟩
  rw [modeAfter, hcore'.cursorAfter_eq]
  rfl

/-- **The replaced text of a header is read** with its lead in code and its tail in one class. -/
lemma Regular.reads_result (hs : s.Regular R) {mode : Mode}
    (hcore : Reads (.ready .code) s.core none (.ready mode)) (follow : Option Char) :
    Reads (.ready .code) (s.result mode) follow (.ready mode) := by
  have hplain (kind : CharClass) {text : List Char} (h : ∀ c ∈ text, isPlain c = true) :
      ∀ cell ∈ text.map (Cell.mk · kind), isPlain cell.char = true := by
    intro cell hcell
    obtain ⟨c, hc, rfl⟩ := List.mem_map.1 hcell
    exact h c hc
  refine reads_append.2 ⟨.ready .code, ?_, reads_append.2 ⟨.ready mode, ?_, ?_⟩⟩
  · exact (reads_plain (hplain .code hs.spaced) .code).2 ⟨rfl, by simp [Mode.kind]⟩
  · rcases hs.closed with hnil | hne
    · rw [hnil] at hcore ⊢
      exact hcore
    · refine (reads_congr ?_).2 hcore
      rw [nextChar_eq, chars_map_mk]
      exact (heeded_tail hs.tail hne follow).2
  · exact (reads_plain (hplain mode.kind (isPlain_tailText hs.tail)) mode).2 ⟨rfl, by simp⟩

/-- Code of the given text. -/
lemma solidCells_map_code (text : List Char) : solidCells (text.map .code) = (ink text).map .code := by
  have hkinds : ∀ cell ∈ text.map Cell.code, cell.kind = .code := by simp
  rw [solidCells_code hkinds, chars_map_code]

/-- The lead of a header keeps its view. -/
lemma Regular.solid_lead (hs : s.Regular R) (hlead : ∀ cell ∈ s.lead, cell.kind = .code) :
    solidCells (s.spaced.map .code) = solidCells s.lead := by
  rw [solidCells_map_code, hs.ink_eq, solidCells_code hlead]

lemma Regular.head_cells (hs : s.Regular R) : s.cells.head? = s.lead.head? := by
  obtain ⟨cell, lead, hlead⟩ := List.exists_cons_of_ne_nil hs.head.1
  simp [cells, hlead]

/-- A header keeps its first character. -/
lemma Regular.head_result (hs : s.Regular R) (mode : Mode) :
    (chars (s.result mode)).head? = (chars s.cells).head? := by
  obtain ⟨cell, lead, hlead⟩ := List.exists_cons_of_ne_nil hs.head.1
  rw [chars_result, text, List.head?_append, hs.head.2, hlead]
  simp [cells, hlead]

/-- A canonical tail is plain, so it stays as it is in any mode. -/
lemma Regular.tail_canonical (hs : s.Regular R) (hcanonical : ∀ p ∈ s.tail, p.Canonical) {mode : Mode}
    (htail : Reads (.ready mode) (tailCells s.tail) follow stop) :
    stop = .ready mode ∧ (tailText s.tail).map (⟨·, mode.kind⟩) = tailCells s.tail := by
  have hplain : ∀ cell ∈ tailCells s.tail, isPlain cell.char = true := by
    intro cell hcell
    refine isPlain_tailText hs.tail _ ?_
    rw [tailText_of_canonical hcanonical]
    exact List.mem_map_of_mem hcell
  obtain ⟨hstop, hkinds⟩ := (reads_plain hplain mode).1 htail
  rw [tailText_of_canonical hcanonical, map_kind_eq hkinds]
  exact ⟨hstop, rfl⟩

/-- **A harmless header keeps its view.** -/
lemma Regular.solid_result (hs : s.Regular R) {mode : Mode} (hlead : ∀ cell ∈ s.lead, cell.kind = .code)
    (htail : Reads (.ready mode) (tailCells s.tail) follow stop)
    (hharmless : mode = .code ∨ ∀ p ∈ s.tail, p.Canonical) :
    stop = .ready mode ∧ solidCells (s.result mode) = solidCells s.cells := by
  suffices hsuffices : stop = .ready mode ∧ solidCells ((tailText s.tail).map (⟨·, mode.kind⟩))
      = solidCells (tailCells s.tail) by
    refine ⟨hsuffices.1, ?_⟩
    rw [result, cells, solidCells_append, solidCells_append, solidCells_append, solidCells_append,
      hs.solid_lead hlead, hsuffices.2]
  rcases hharmless with rfl | hcanonical
  · obtain ⟨rfl, hkinds⟩ := (tail_code hs.tail).1 htail
    refine ⟨rfl, ?_⟩
    rw [solidCells_code hkinds, ← ink_tailText hs.tail]
    exact solidCells_map_code (tailText s.tail)
  · obtain ⟨rfl, htext⟩ := hs.tail_canonical hcanonical htail
    exact ⟨rfl, by rw [htext]⟩

/-- **Any other header makes a first difference** at a gap of its tail. -/
lemma Regular.differs (hs : s.Regular R) {mode : Mode}
    (hcore : Reads (.ready .code) s.core none (.ready mode))
    (hlead : ∀ cell ∈ s.lead, cell.kind = .code)
    (htail : Reads (.ready mode) (tailCells s.tail) follow stop) (hmode : mode ≠ .code)
    (hcanonical : ¬ ∀ p ∈ s.tail, p.Canonical) (restA restB : List Cell) :
    DiffersAt R (solidCells s.cells ++ restA) (solidCells (s.result mode) ++ restB) := by
  cases hlast : s.core.getLast? with
  | none =>
      rw [List.getLast?_eq_none_iff.1 hlast] at hcore
      exact absurd (Cursor.ready.inj (reads_nil.1 hcore)).symm hmode
  | some x =>
      obtain ⟨init, hinit⟩ := List.getLast?_eq_some_iff.1 hlast
      obtain ⟨hx, hlinked⟩ := hs.linked x (by rw [hlast]; rfl)
      have hdiffers := (tail_differs hmode hs.tail hcanonical hx hlinked htail restA restB).append_left
        (solidCells s.lead ++ solidCells init)
      have htext : solidCells ((tailText s.tail).map (⟨·, mode.kind⟩))
          = (tailText s.tail).map (⟨·, mode.kind⟩) := by
        refine solidCells_eq_self fun cell hcell => ?_
        obtain ⟨c, -, rfl⟩ := List.mem_map.1 hcell
        exact kind_ne_code hmode
      rw [cells, result, hinit]
      simpa [hs.solid_lead hlead, htext, solidCells_cons_ink hx] using hdiffers

end Shape

/-! ## Rounds -/

/-- A text that is read from a cursor with the view of the given cells, and to the same end. -/
def Keeps (start : Cursor) (cells : List Cell) (stop : Cursor) (text : List Char) : Prop :=
  ∃ cells', chars cells' = text ∧ Reads start cells' none stop ∧ solidCells cells' = solidCells cells

/-- A text whose view, read from a cursor, differs from that of the given cells. -/
def Disturbs (R : Char → Char → Prop) (start : Cursor) (cells : List Cell) (text : List Char) : Prop :=
  ∀ cells' stop, chars cells' = text → Reads start cells' none stop →
    DiffersAt R (solidCells cells) (solidCells cells')

section Extend

variable {R : Char → Char → Prop} {start mid stop : Cursor} {part part' rest : List Cell}
  {text : List Char}

/-- What is kept behind a part that is kept is kept with it. -/
lemma Keeps.extend (hpart : Reads start part' text.head? mid)
    (hsolid : solidCells part' = solidCells part) (h : Keeps mid rest stop text) :
    Keeps start (part ++ rest) stop (chars part' ++ text) := by
  obtain ⟨cells', rfl, hreads, hsolid'⟩ := h
  refine ⟨part' ++ cells', chars_append _ _, reads_append.2 ⟨mid, ?_, hreads⟩, ?_⟩
  · rwa [nextChar_eq, Option.or_none]
  · rw [solidCells_append, solidCells_append, hsolid, hsolid']

/-- The text behind a part is read from where the part ends. -/
lemma exists_behind (hpart : Reads start part' text.head? mid) {cells' : List Cell}
    (hchars : chars cells' = chars part' ++ text) (hreads : Reads start cells' none stop) :
    ∃ behind, cells' = part' ++ behind ∧ chars behind = text ∧ Reads mid behind none stop := by
  obtain ⟨front, behind, rfl, hfront, rfl⟩ := List.map_eq_append_iff.1 hchars
  obtain ⟨mid', hreads, hbehind⟩ := reads_append.1 hreads
  rw [nextChar_eq, Option.or_none] at hreads
  obtain ⟨rfl, rfl⟩ := hreads.unique hpart hfront
  exact ⟨behind, rfl, rfl, hbehind⟩

/-- What is changed behind a part that is kept is changed with it. -/
lemma Disturbs.extend (hpart : Reads start part' text.head? mid)
    (hsolid : solidCells part' = solidCells part) (h : Disturbs R mid rest text) :
    Disturbs R start (part ++ rest) (chars part' ++ text) := by
  intro cells' stop hchars hreads
  obtain ⟨behind, rfl, hbehind, hreads⟩ := exists_behind hpart hchars hreads
  rw [solidCells_append, solidCells_append, hsolid]
  exact (h behind stop hbehind hreads).append_left _

end Extend

section Round

variable {α : Type} {find : Finder α} {canonical : α → List Cell} {Harmless : α → Prop}
  {R : Char → Char → Prop}

/-- The text of a round over cells that have been divided. -/
def roundText (canonical : α → List Cell) (segments : List (Segment α)) : List Char :=
  chars (segments.flatMap (Segment.replaced fun taken h => inCode taken (canonical h)))

/-- Every occurrence that starts in code is harmless. -/
def AllHarmless (Harmless : α → Prop) (segments : List (Segment α)) : Prop :=
  ∀ taken h, Segment.found taken h ∈ segments →
    taken.head?.any (·.kind == .code) = true → Harmless h

/-- Whether a segment is no occurrence in code or a harmless one. -/
def isHarmless (Harmless : α → Prop) [DecidablePred Harmless] : Segment α → Bool
  | .plain _ => true
  | .found taken h => decide (taken.head?.any (·.kind == .code) = true → Harmless h)

instance [DecidablePred Harmless] (segments : List (Segment α)) :
    Decidable (AllHarmless Harmless segments) :=
  decidable_of_iff (segments.all (isHarmless Harmless) = true) <| by
    rw [List.all_eq_true]
    constructor
    · intro hall taken h hmem
      exact of_decide_eq_true (hall _ hmem)
    · intro hall segment hmem
      cases segment with
      | plain cell => rfl
      | found taken h => exact decide_eq_true (hall taken h hmem)

/-- **What a finder finds**: headers of a regular shape, with the canonical form that the shape has. -/
def Shaped (find : Finder α) (canonical : α → List Cell) (Harmless : α → Prop)
    (R : Char → Char → Prop) : Prop :=
  ∀ before taken rest h, find before (taken ++ rest) = some (taken.length, h) →
    ∃ s : Shape, s.Regular R ∧ taken = s.cells ∧ chars (canonical h) = s.text
      ∧ (∀ cell ∈ s.lead.head?, cell.char ≠ '\n') ∧ (Harmless h ↔ s.Harmless)

/-- **What a round does to cells read from one cursor to another.**  The text keeps its first character;
the view is kept if every occurrence is harmless, and otherwise there is a first difference. -/
structure Round (canonical : α → List Cell) (Harmless : α → Prop) (R : Char → Char → Prop)
    (start : Cursor) (cells : List Cell) (stop : Cursor) (segments : List (Segment α)) : Prop where
  head : (roundText canonical segments).head? = (chars cells).head?
  keeps : AllHarmless Harmless segments → Keeps start cells stop (roundText canonical segments)
  changes : ¬ AllHarmless Harmless segments → Disturbs R start cells (roundText canonical segments)

lemma roundText_cons (segment : Segment α) (segments : List (Segment α)) :
    roundText canonical (segment :: segments)
      = chars (segment.replaced fun taken h => inCode taken (canonical h))
        ++ roundText canonical segments := by
  simp [roundText]

/-- A segment without an occurrence in code, or with a harmless one, in front of others. -/
lemma allHarmless_cons {segment : Segment α} {segments : List (Segment α)}
    (h : ∀ taken what, segment = .found taken what →
      taken.head?.any (·.kind == .code) = true → Harmless what) :
    AllHarmless Harmless (segment :: segments) ↔ AllHarmless Harmless segments := by
  refine ⟨fun hall taken what hmem => hall taken what (List.mem_cons_of_mem _ hmem), ?_⟩
  intro hall taken what hmem hcode
  rcases List.mem_cons.1 hmem with heq | hmem
  · exact h taken what heq.symm hcode
  · exact hall taken what hmem hcode

/-- A round goes on behind a segment whose view it keeps. -/
lemma Round.extend {segment : Segment α} {segments : List (Segment α)} {start mid stop : Cursor}
    {part part' rest : List Cell} (hround : Round canonical Harmless R mid rest stop segments)
    (hreplaced : chars (segment.replaced fun taken h => inCode taken (canonical h)) = chars part')
    (hpart : Reads start part' (nextChar rest none) mid) (hsolid : solidCells part' = solidCells part)
    (hne : part ≠ []) (hhead : (chars part').head? = (chars part).head?)
    (hharmless : AllHarmless Harmless (segment :: segments) ↔ AllHarmless Harmless segments) :
    Round canonical Harmless R start (part ++ rest) stop (segment :: segments) := by
  have hpart : Reads start part' (roundText canonical segments).head? mid := by
    rwa [nextChar_eq, Option.or_none, ← hround.head] at hpart
  obtain ⟨cell, cells, rfl⟩ := List.exists_cons_of_ne_nil hne
  refine ⟨?_, fun h => ?_, fun h => ?_⟩
  · rw [roundText_cons, hreplaced, List.head?_append, hhead]
    rfl
  · rw [roundText_cons, hreplaced]
    exact (hround.keeps (hharmless.1 h)).extend hpart hsolid
  · rw [roundText_cons, hreplaced]
    exact (hround.changes (mt hharmless.2 h)).extend hpart hsolid

/-- An occurrence in code is read from code, unless it starts with a line feed. -/
lemma ready_of_lead {start stop : Cursor} {cells : List Cell} {follow : Option Char}
    (h : Reads start cells follow stop) (hcode : cells.head?.any (·.kind == .code) = true)
    (hfeed : ∀ cell ∈ cells.head?, cell.char ≠ '\n') : start = .ready .code := by
  cases cells with
  | nil => simp at hcode
  | cons cell cells =>
      obtain ⟨mid, hstep, -⟩ := h
      have hkind : cell.kind = .code := by simpa using hcode
      rw [hkind] at hstep
      rcases (ready_of_code hstep).2 with hready | ⟨-, hchar⟩
      · exact hready
      · exact absurd hchar (hfeed cell rfl)

/-- **A round over a text.** -/
lemma round_of_division (hshaped : Shaped find canonical Harmless R) {before : Option Char}
    {cells : List Cell} {segments : List (Segment α)} (hdivision : Division find before cells segments)
    {start stop : Cursor} (h : Reads start cells none stop) :
    Round canonical Harmless R start cells stop segments := by
  induction hdivision generalizing start with
  | done before =>
      refine ⟨rfl, fun _ => ⟨[], rfl, h, rfl⟩, fun hharmful => absurd ?_ hharmful⟩
      simp [AllHarmless]
  | @plain before cell rest segments _ _ ih =>
      have h : Reads start ([cell] ++ rest) none stop := h
      obtain ⟨mid, hcell, hrest⟩ := reads_append.1 h
      have hround : Round canonical Harmless R start ([cell] ++ rest) stop (.plain cell :: segments) :=
        (ih hrest).extend rfl hcell rfl (by simp) rfl (allHarmless_cons (by simp))
      exact hround
  | @found before taken rest what segments hfound hne _ ih =>
      obtain ⟨mid, htaken, hrest⟩ := reads_append.1 h
      by_cases hcode : taken.head?.any (·.kind == .code) = true
      · obtain ⟨s, hs, rfl, htext, hfeed, hiff⟩ := hshaped _ _ _ _ hfound
        obtain rfl := ready_of_lead htaken hcode (hs.head_cells ▸ hfeed)
        obtain ⟨mode, hmode, hcore, hlead, htail⟩ := hs.reads htaken
        have hreplaced : chars (Segment.replaced (fun taken h => inCode taken (canonical h))
            (.found s.cells what)) = chars (s.result mode) := by
          rw [s.chars_result, ← htext, Segment.replaced, inCode, if_pos hcode]
        by_cases hharmless : Harmless what
        · have hshape := hiff.1 hharmless
          rw [Shape.Harmless, hmode] at hshape
          obtain ⟨rfl, hsolid⟩ := hs.solid_result hlead htail hshape
          refine (ih hrest).extend hreplaced (hs.reads_result hcore _) hsolid hne (hs.head_result mode)
            (allHarmless_cons ?_)
          rintro taken' what' heq -
          obtain ⟨-, rfl⟩ := Segment.found.inj heq
          exact hharmless
        · have hshape := mt hiff.2 hharmless
          rw [Shape.Harmless, hmode, not_or] at hshape
          refine ⟨?_, fun hall => absurd (hall _ _ List.mem_cons_self hcode) hharmless, fun _ => ?_⟩
          · rw [roundText_cons, hreplaced, chars_append, List.head?_append, List.head?_append,
              hs.head_result]
            obtain ⟨cell, cells, hcells⟩ := List.exists_cons_of_ne_nil hne
            rw [hcells]
            rfl
          · intro cells' stop' hchars hreads
            rw [roundText_cons, hreplaced] at hchars
            obtain ⟨behind, rfl, -, -⟩ := exists_behind (hs.reads_result hcore _) hchars hreads
            rw [solidCells_append, solidCells_append]
            exact hs.differs hcore hlead htail hshape.1 hshape.2 _ _
      · refine (ih hrest).extend ?_ htaken rfl hne rfl (allHarmless_cons ?_)
        · simp [Segment.replaced, inCode, hcode]
        · rintro taken' what' heq hcode'
          obtain ⟨rfl, rfl⟩ := Segment.found.inj heq
          exact absurd hcode' hcode

end Round

end SqfLayout.Pass
