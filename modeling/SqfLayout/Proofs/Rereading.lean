import SqfLayout.Proofs.Spelling
import SqfLayout.Proofs.Trails

/-!
# Passes that keep literals

A pass that removes or adds white space of code where the scanner does not look keeps every literal.

**Rereading.**  `Reread a b`: wherever the scanner reads the cells `a` it reads the cells `b` in their
place, from the same cursor to the same one, with the same literals.  Concatenation respects this
(`Reread.append`), so a pass that replaces occurrences by cells that may be read in their place keeps
the literals of a text (`reread_replaceFound`).

**Replacements.**  Plain characters of one class may be replaced by others of that class, and in code
by white space as well (`Reread.of_plain`).  Whatever keeps a trail with the literals on it may be read
in place (`Relaid.reread`): white space behind a mark of code may go (`Reread.behind`), and white space
of any class before a closing brace may become a line feed (`Reread.closing`).

**Passes.**  Parentheses, statements and operators keep the trail of a text and with it the literals.
Spelling and braces change comments as well and are treated here.
-/

namespace SqfLayout.Pass

open SqfLayout.Text SqfLayout.Scan

/-! ## Literals -/

/-- The cells of literals. -/
def literalCells (cells : List Cell) : List Cell := cells.filter (·.kind == .literal)

@[simp] lemma literalCells_nil : literalCells [] = [] := rfl

@[simp] lemma literalCells_append (a b : List Cell) :
    literalCells (a ++ b) = literalCells a ++ literalCells b := List.filter_append ..

lemma literalCells_eq_nil {cells : List Cell} (h : ∀ cell ∈ cells, cell.kind ≠ .literal) :
    literalCells cells = [] := by
  simpa [literalCells] using h

lemma literalCells_of_kind {cells : List Cell} {kind : CharClass} (h : ∀ cell ∈ cells, cell.kind = kind)
    (hkind : kind ≠ .literal) : literalCells cells = [] :=
  literalCells_eq_nil fun cell hcell => h cell hcell ▸ hkind

/-- **Two texts with the same literals** that end in the same mode. -/
def SameLiterals (a b : List Char) : Prop :=
  literalCells (label b) = literalCells (label a) ∧ modeAfter .code b = modeAfter .code a

/-! ## Rereading -/

/-- **Cells that may be read in place of others**: from the same cursor to the same one, with the same
literals and with the same meaning for the character before them. -/
structure Reread (a b : List Cell) : Prop where
  head : ∀ follow, heeded (nextChar b follow) = heeded (nextChar a follow)
  reads : ∀ start follow stop, Meets start (nextChar a follow) → Reads start a follow stop →
    Reads start b follow stop ∧ literalCells b = literalCells a

namespace Reread

variable {a b c d : List Cell}

lemma refl (a : List Cell) : Reread a a := ⟨fun _ => rfl, fun _ _ _ _ h => ⟨h, rfl⟩⟩

lemma trans (hab : Reread a b) (hbc : Reread b c) : Reread a c := by
  refine ⟨fun follow => (hbc.head follow).trans (hab.head follow), ?_⟩
  intro start follow stop hmeets ha
  obtain ⟨hb, hliterals⟩ := hab.reads start follow stop hmeets ha
  have hmeets' : Meets start (nextChar b follow) := by rwa [Meets, hab.head]
  obtain ⟨hc, hliterals'⟩ := hbc.reads start follow stop hmeets' hb
  exact ⟨hc, hliterals'.trans hliterals⟩

/-- **Concatenation respects rereading.** -/
lemma append (hab : Reread a b) (hcd : Reread c d) : Reread (a ++ c) (b ++ d) := by
  constructor
  · intro follow
    rw [nextChar_append, nextChar_append, ← hab.head]
    cases b with
    | nil => exact hcd.head follow
    | cons _ _ => rfl
  · intro start follow stop hmeets h
    rw [nextChar_append] at hmeets
    obtain ⟨mid, ha, hc⟩ := reads_append.1 h
    obtain ⟨hb, hliterals⟩ := hab.reads start _ mid hmeets ha
    obtain ⟨hd, hliterals'⟩ := hcd.reads mid follow stop (hmeets.behind ha) hc
    refine ⟨reads_append.2 ⟨mid, (reads_congr (hcd.head follow)).2 hb, hd⟩, ?_⟩
    rw [literalCells_append, literalCells_append, hliterals, hliterals']

end Reread

/-- What is left of a text: cells that are read to the same end, with the given literals. -/
def Kept (literals : List Cell) (stop : Cursor) (cells : List Cell) : Prop :=
  Reads (.ready .code) cells none stop ∧ literalCells cells = literals

lemma Kept.splice {literals : List Cell} {stop : Cursor} {front a b back : List Cell}
    (h : Kept literals stop (front ++ (a ++ back))) (hab : Reread a b) :
    Kept literals stop (front ++ (b ++ back)) := by
  have hall := (Reread.refl front).append (hab.append (.refl back))
  obtain ⟨hreads, hliterals⟩ := hall.reads _ _ _ (meets_ready .code _) h.1
  exact ⟨hreads, hliterals.trans h.2⟩

/-- Cells in which the cells of a text are kept spell a text with the same literals. -/
lemma sameLiterals_of_kept {text : List Char} {cells : List Cell}
    (h : Kept (literalCells (label text)) (cursorAfter (.ready .code) text) cells) :
    SameLiterals text (chars cells) := by
  obtain ⟨hreads, hliterals⟩ := h
  rw [SameLiterals, label, hreads.labelFrom_eq, modeAfter, hreads.cursorAfter_eq]
  exact ⟨hliterals, rfl⟩

lemma kept_label (text : List Char) :
    Kept (literalCells (label text)) (cursorAfter (.ready .code) text) (label text) :=
  ⟨reads_label text, rfl⟩

lemma Reread.sameLiterals {text : List Char} {cells : List Cell} (h : Reread (label text) cells) :
    SameLiterals text (chars cells) :=
  sameLiterals_of_kept (h.reads _ _ _ (meets_ready .code _) (reads_label text))

/-! ## Replacements -/

/-- **Plain characters of one class may be replaced** by others of that class, and in code by white space
as well. -/
lemma Reread.of_plain {a b : List Cell} {x : Cell} (ha : ∀ cell ∈ a, isPlain cell.char = true)
    (hx : x ∈ a) (hliteral : x.kind ≠ .literal)
    (hb : ∀ cell ∈ b, cell ∈ a ∨ cell.kind = x.kind
      ∧ (isPlain cell.char = true ∨ x.kind = .code ∧ isSpace cell.char = true))
    (hne : b ≠ []) : Reread a b := by
  have hbchar {cell : Cell} (hcell : cell ∈ b) :
      isPlain cell.char = true ∨ x.kind = .code ∧ isSpace cell.char = true := by
    rcases hb cell hcell with hmem | ⟨-, hchar⟩
    · exact .inl (ha cell hmem)
    · exact hchar
  have hheada (follow : Option Char) : heeded (nextChar a follow) = none := by
    obtain ⟨y, ys, rfl⟩ := List.exists_cons_of_ne_nil (List.ne_nil_of_mem hx)
    exact heeded_of_plain (ha y (by simp))
  constructor
  · intro follow
    obtain ⟨y, ys, rfl⟩ := List.exists_cons_of_ne_nil hne
    rw [hheada]
    rcases hbchar List.mem_cons_self with hy | ⟨-, hy⟩
    · exact heeded_of_plain hy
    · exact heeded_of_space hy
  · intro start follow stop hmeets h
    obtain ⟨mode, rfl⟩ := hmeets (hheada follow)
    obtain ⟨rfl, hkinds⟩ := (reads_plain ha mode).1 h
    have hkind := hkinds x hx
    have hbkinds : ∀ cell ∈ b, cell.kind = mode.kind := by
      intro cell hcell
      rcases hb cell hcell with hmem | ⟨heq, -⟩
      · exact hkinds cell hmem
      · rw [heq, hkind]
    refine ⟨(reads_steady fun cell hcell next => ?_).2 ⟨rfl, hbkinds⟩, ?_⟩
    · rcases hbchar hcell with hplain | ⟨hcode, hspace⟩
      · exact step_plain hplain mode next
      · refine step_space hspace ?_ next
        rintro rfl
        rw [hkind] at hcode
        exact absurd hcode (by decide)
    · rw [hkind] at hliteral
      rw [literalCells_of_kind hbkinds hliteral, literalCells_of_kind hkinds hliteral]

/-- What is laid out anew may be read in its place, if literals are on the trail. -/
lemma Relaid.reread {keep : Cell → Bool} {a b : List Cell} (h : Relaid keep a b)
    (hkeep : ∀ cell : Cell, cell.kind = .literal → keep cell = true) : Reread a b := by
  have hliterals : Relaid (·.kind == .literal) a b := h.narrow fun cell hcell => hkeep cell (eq_of_beq hcell)
  refine ⟨h.head, fun start follow stop hmeets ha => ?_⟩
  obtain ⟨hb, htrail⟩ := hliterals.reads start follow stop hmeets ha
  refine ⟨hb, ?_⟩
  rw [literalCells, literalCells, ← map_snd_trail start b follow, htrail, map_snd_trail]

lemma isSolid_of_literal {cell : Cell} (h : cell.kind = .literal) : isSolid cell = true := by
  simp [isSolid, h]

/-- White space behind a mark of code may go. -/
lemma Reread.behind {m : Char} {s : Cell} (hm : isPlain m = true) (hs : isSpace s.char = true) :
    Reread [.code m, s] [.code m] :=
  (Relaid.behind hm hs).reread fun _ => isSolid_of_literal

/-- **White space before a closing brace of code may become a line feed**, also where a line comment
ends in it. -/
lemma Reread.closing {w : List Cell} (hw : AllSpace w) :
    Reread (w ++ [.code '}']) [.code '\n', .code '}'] := by
  have hgone (hliterals : ∀ cell ∈ w, cell.kind ≠ .literal) : ∀ cell ∈ w, (cell.kind == .literal) = false :=
    fun cell hcell => beq_eq_false_iff_ne.2 (hliterals cell hcell)
  exact (Relaid.closing rfl hw hgone).reread fun _ => beq_iff_eq.2

/-! ## Passes that keep the trail -/

/-- A trail that literals are on tells them. -/
lemma SameTrail.sameLiterals {keep : Cell → Bool} {a b : List Char} (h : SameTrail keep a b)
    (hkeep : ∀ cell : Cell, cell.kind = .literal → keep cell = true) : SameLiterals a b :=
  ⟨(h.narrow fun cell hcell => hkeep cell (eq_of_beq hcell)).filter_eq, h.2⟩

/-- **The parentheses pass keeps literals.** -/
lemma sameLiterals_trimParens (text : List Char) : SameLiterals text (trimParens text) :=
  (sameTrail_trimParens text).sameLiterals fun _ => isSolid_of_literal

/-- **The statements pass keeps literals.** -/
lemma sameLiterals_splitStatements (text : List Char) : SameLiterals text (splitStatements text) :=
  (sameTrail_splitStatements text).sameLiterals fun _ => isSolid_of_literal

/-- **The operators pass keeps literals.** -/
lemma sameLiterals_spaceOperators (text : List Char) : SameLiterals text (spaceOperators text) :=
  (sameTrail_spaceOperators text).sameLiterals fun _ => isSolid_of_literal

/-! ## Spelling -/

/-- **A pass that replaces occurrences by cells that may be read in their place** keeps literals. -/
lemma reread_replaceFound {α : Type} {find : Finder α} (hfind : find.Fits)
    {replace : List Cell → α → List Cell}
    (found : ∀ before taken rest what, find before (taken ++ rest) = some (taken.length, what) →
      Reread taken (replace taken what)) (cells : List Cell) :
    Reread cells (replaceFound find replace cells) :=
  replaceFound_rel hfind .refl (fun _ _ _ _ => .append) found cells

lemma isPlain_of_recased {a b : List Char} (h : List.Forall₂ Recased a b)
    (hb : ∀ c ∈ b, isPlain c = true) : ∀ c ∈ a, isPlain c = true := by
  have hplain : a.map isPlain = b.map isPlain :=
    map_eq_of_recased (fun hcd => hcd.eq_of (by decide +kernel) (by decide +kernel)) h
  rw [← List.forall_mem_map (P := (· = true)), hplain, List.forall_mem_map]
  exact hb

/-- The scanner does not act on the characters from the digits on. -/
lemma isPlain_of_ascii {c : Char} (h : 48 ≤ c.toNat ∧ c.toNat < 128) : isPlain c = true :=
  forall_ascii (P := fun c => 48 ≤ c.toNat → isPlain c = true) (by decide +kernel) h.2 h.1

/-- A word may be read in its canonical spelling, with a vocabulary of plain words. -/
lemma reread_respell {commands functions : List (List Char)}
    (hwords : ∀ word ∈ commands ++ functions, ∀ c ∈ word, 48 ≤ c.toNat ∧ c.toNat < 128)
    (taken : List Cell) : Reread taken (respell (.ofLists commands functions) taken) := by
  unfold respell
  split
  · next hhead =>
      rw [List.head?_eq_none_iff.1 hhead]
      exact .refl []
  · next first hfirst =>
      split
      · exact .refl taken
      · next hliteral =>
          split
          · exact .refl taken
          · next word hword =>
              obtain ⟨hmem, hlower⟩ := Vocabulary.of_canonical hword
              have hrecased := forall₂_recased (fun c hc => (hwords word hmem c hc).2) hlower
              have hplain : ∀ c ∈ word, isPlain c = true := fun c hc =>
                isPlain_of_ascii (hwords word hmem c hc)
              have htaken := isPlain_of_recased hrecased hplain
              have hmemFirst : first ∈ taken := List.mem_of_head? hfirst
              refine .of_plain (x := first) (fun cell hcell => htaken _ (List.mem_map_of_mem hcell))
                hmemFirst (by simpa using hliteral) (fun cell hcell => ?_) ?_
              · obtain ⟨c, hc, rfl⟩ := List.mem_map.1 hcell
                exact .inr ⟨rfl, .inl (hplain c hc)⟩
              · intro hnil
                have hlength := hrecased.length_eq
                rw [List.map_eq_nil_iff.1 hnil, chars, List.length_map, List.length_nil,
                  List.length_eq_zero_iff] at hlength
                exact List.ne_nil_of_mem hmemFirst hlength

/-- **The spelling pass keeps literals**, with a vocabulary of plain words. -/
lemma sameLiterals_spellWords {commands functions : List (List Char)}
    (hwords : ∀ word ∈ commands ++ functions, ∀ c ∈ word, 48 ≤ c.toNat ∧ c.toNat < 128)
    (text : List Char) : SameLiterals text (spellWords (.ofLists commands functions) text) := by
  rw [spellWords]
  split
  · exact ⟨rfl, rfl⟩
  · exact (reread_replaceFound (Vocabulary.finder_fits commands functions)
      (fun _ taken _ _ _ => reread_respell hwords taken) _).sameLiterals

/-! ## Braces -/

lemma BraceEdit.kept {literals : List Cell} {stop : Cursor} {a b : List Cell} (h : BraceEdit a b)
    (ha : Kept literals stop a) : Kept literals stop b := by
  cases h with
  | @first w rest hw =>
      -- at the start of a text the white space is code
      obtain ⟨hreads, hliterals⟩ := ha
      obtain ⟨mid, hgap, hrest⟩ := reads_append.1 hreads
      obtain ⟨rfl, hkinds⟩ := (reads_space hw (by decide)).1 hgap
      refine ⟨hrest, ?_⟩
      have hnone : literalCells w = [] := literalCells_of_kind hkinds (by decide)
      simpa [hnone] using hliterals
  | @closing front w rest _ hw =>
      have hgap : Kept literals stop (front ++ ((w ++ [.code '}']) ++ rest)) := by simpa using ha
      simpa using hgap.splice (.closing hw)
  | @behind front rest s hs =>
      have hbrace : Kept literals stop (front ++ ([.code '{', s] ++ rest)) := by simpa using ha
      simpa using hbrace.splice (.behind (by decide) hs)
  | @opening front rest c hc _ =>
      have hbrace : Kept literals stop (front ++ ([.code '{'] ++ rest)) := by simpa using ha
      have hspace : isSpace c = true := by rcases hc with rfl | rfl <;> decide
      have hspaced : Relaid isSolid [.code '{'] [.code '{', .code c] := .spaced (by decide) hspace
      simpa using hbrace.splice (hspaced.reread fun _ => isSolid_of_literal)

/-- **The braces pass keeps literals.** -/
lemma sameLiterals_breakBraces (text : List Char) : SameLiterals text (breakBraces text) :=
  sameLiterals_of_kept (breakBraces_invariant (fun _ _ hedit ha => hedit.kept ha) (kept_label text))

end SqfLayout.Pass
