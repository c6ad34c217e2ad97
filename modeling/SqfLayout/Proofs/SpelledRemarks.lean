import SqfLayout.Proofs.EntriesInTurn
import SqfLayout.Proofs.RemarkLines
import SqfLayout.Proofs.Tokens

/-!
# Spelled remarks

The spelling pass goes through comments as well, so it changes remarks.  It changes each remark by itself:
what becomes of a remark can be told from the remark alone (`spelledRemark`).

**Stretches.**  Cells are spelled run by run (`spellCells`).  Cells can be spelled in parts if no word goes on
across a part's end (`spellCells_append`), so a text can be spelled line by line (`spelledLine`).

**Remarks.**  A remark of a literal stays as it is.  All other remarks are comments to their end, and each is
spelled as it would be as a text of its own (`remark?_spelledLine`).
-/

namespace SqfLayout.Pass

open SqfLayout.Text SqfLayout.Scan

/-! ## Stretches -/

/-- **Cells in their canonical spelling**, run by run. -/
def spellCells (v : Vocabulary) (cells : List Cell) : List Cell := (runs cells).flatMap v.spellRun

section Stretches

variable (v : Vocabulary) {a b n run cells : List Cell}

lemma spellRun_of_notWord (h : ∀ cell ∈ run, isWordChar cell.char = false) : v.spellRun run = run := by
  cases run with
  | nil => rfl
  | cons cell run => simp [Vocabulary.spellRun, isFreeWord, h cell]

lemma spellRun_literal (h : ∀ cell ∈ run, cell.kind = .literal) : v.spellRun run = run := by
  cases run with
  | nil => rfl
  | cons cell run => simp [Vocabulary.spellRun, isFreeWord, h cell]

lemma runs_of_sameSide {side : Bool} (hne : n ≠ []) (hn : ∀ cell ∈ n, isWordChar cell.char = side) :
    runs n = [n] := by
  refine List.splitBy_of_isChain hne (List.Pairwise.isChain ?_)
  refine List.pairwise_iff_forall_sublist.2 fun {x y} hxy => ?_
  have hx := hn x (hxy.subset (by simp))
  have hy := hn y (hxy.subset (by simp))
  simp [sameSide, hx, hy]

/-- The runs on both sides of a stretch between words. -/
lemma spellCells_between (hn : ∀ cell ∈ n, isWordChar cell.char = false)
    (hempty : n = [] → a = [] ∨ b = [])
    (ha : ∀ cell ∈ a.getLast?, isWordChar cell.char = true)
    (hb : ∀ cell ∈ b.head?, isWordChar cell.char = true) :
    spellCells v (a ++ (n ++ b)) = spellCells v a ++ (n ++ spellCells v b) := by
  by_cases hne : n = []
  · subst hne
    rcases hempty rfl with rfl | rfl
    · rfl
    · simp [spellCells, runs]
  · have hback : runs (n ++ b) = [n] ++ runs b := by
      rw [← runs_of_sameSide hne hn]
      refine List.splitBy_append fun x hx y hy => ?_
      simp [sameSide, hn x (List.mem_of_getLast? hx), hb y hy]
    have hfront : runs (a ++ (n ++ b)) = runs a ++ runs (n ++ b) := by
      refine List.splitBy_append fun x hx y hy => ?_
      rw [List.head?_append_of_ne_nil _ hne] at hy
      simp [sameSide, ha x hx, hn y (List.mem_of_mem_head? hy)]
    rw [spellCells, hfront, hback, List.flatMap_append, List.flatMap_append, List.flatMap_singleton,
      spellRun_of_notWord v hn]
    rfl

/-- **Cells can be spelled in parts** if no word goes on across the end of the first part. -/
lemma spellCells_append (h : ∀ x ∈ a.getLast?, ∀ y ∈ b.head?,
    isWordChar x.char = false ∨ isWordChar y.char = false) :
    spellCells v (a ++ b) = spellCells v a ++ spellCells v b := by
  obtain ⟨n, ha, hn⟩ := exists_dropEndWhile (fun cell : Cell => !isWordChar cell.char) a
  obtain ⟨m, hb, hm⟩ := exists_dropWhile (fun cell : Cell => !isWordChar cell.char) b
  have hlast := getLast?_dropEndWhile (fun cell : Cell => !isWordChar cell.char) a
  have hhead := head?_dropWhile (fun cell : Cell => !isWordChar cell.char) b
  generalize dropEndWhile (fun cell : Cell => !isWordChar cell.char) a = a' at ha hlast
  generalize b.dropWhile (fun cell : Cell => !isWordChar cell.char) = b' at hb hhead
  subst ha hb
  simp only [Bool.not_eq_true', Bool.not_eq_false'] at hn hm hlast hhead
  have hnm : ∀ cell ∈ n ++ m, isWordChar cell.char = false := fun cell hcell =>
    (List.mem_append.1 hcell).elim (hn cell) (hm cell)
  -- what stands between the two words is one run, part of it in each of the stretches
  have hempty : n ++ m = [] → a' = [] ∨ b' = [] := by
    intro hnil
    obtain ⟨rfl, rfl⟩ := List.append_eq_nil_iff.1 hnil
    rw [List.append_nil, List.nil_append] at h
    by_contra hne
    obtain ⟨hx, hy⟩ := not_or.1 hne
    have hx := List.getLast?_eq_some_getLast hx
    have hy := List.head?_eq_some_head hy
    rcases h _ hx _ hy with hfalse | hfalse
    · simp [hlast _ hx] at hfalse
    · simp [hhead _ hy] at hfalse
  have hall := spellCells_between v hnm hempty hlast hhead
  have hfront := spellCells_between v (b := []) hn (fun _ => .inr rfl) hlast (by simp)
  have hback := spellCells_between v (a := []) hm (fun _ => .inl rfl) (by simp) hhead
  have hnone : spellCells v [] = [] := rfl
  simp only [List.append_nil, List.nil_append, List.append_assoc, hnone] at hall hfront hback ⊢
  rw [hall, hfront, hback, List.append_assoc]

lemma spellCells_of_notWord (hn : ∀ cell ∈ n, isWordChar cell.char = false) : spellCells v n = n := by
  have hparts := spellCells_between v (a := []) (b := []) hn (fun _ => .inl rfl) (by simp) (by simp)
  simpa [spellCells, runs] using hparts

lemma spellCells_literal (h : ∀ cell ∈ cells, cell.kind = .literal) : spellCells v cells = cells := by
  have hruns : (runs cells).flatMap v.spellRun = (runs cells).flatMap id := by
    refine List.flatMap_congr fun run hrun => spellRun_literal v fun cell hcell => h cell ?_
    rw [← flatten_runs cells]
    exact List.mem_flatten_of_mem hrun hcell
  rw [spellCells, hruns, List.flatMap_id, flatten_runs]

end Stretches

/-! ## Recased texts -/

section Recased

variable {a b mark : List Char}

lemma isPrefixOf_recased (hmark : ∀ c ∈ mark, c ∈ signs) (h : List.Forall₂ Recased a b) :
    mark.isPrefixOf b = mark.isPrefixOf a := by
  induction mark generalizing a b with
  | nil => rfl
  | cons c mark ih =>
      obtain ⟨hc, hmark⟩ := List.forall_mem_cons.1 hmark
      cases h with
      | nil => rfl
      | @cons x y _ _ hxy hrest =>
          have hsame : (c == y) = (c == x) := by
            rw [Bool.eq_iff_iff, beq_iff_eq, beq_iff_eq, eq_comm, eq_comm (a := c)]
            exact (hxy.eq_sign_iff hc).symm
          rw [List.isPrefixOf, List.isPrefixOf, hsame, ih hmark hrest]

/-- A mark of signs stands at the same place in a recased text. -/
lemma through_recased (hmark : ∀ c ∈ mark, c ∈ signs) (h : List.Forall₂ Recased a b) :
    through mark b = b.take (through mark a).length := by
  induction h with
  | nil => rfl
  | @cons x y xs ys hxy hrest ih =>
      have hsame := isPrefixOf_recased hmark (.cons hxy hrest)
      rw [through, through, hsame]
      split
      · next hstarts =>
          rw [← hsame, List.isPrefixOf_iff_prefix] at hstarts
          exact List.prefix_iff_eq_take.1 hstarts
      · rw [ih, List.length_cons, List.take_succ_cons]

lemma within_recased (mode : Mode) (h : List.Forall₂ Recased a b) :
    within mode b = b.take (within mode a).length := by
  cases mode with
  | single => exact through_recased (by decide) h
  | double => exact through_recased (by decide) h
  | block => exact through_recased (by decide) h
  | code => exact (List.take_of_length_le h.length_eq.ge).symm
  | line => exact (List.take_of_length_le h.length_eq.ge).symm

lemma head?_recased (h : List.Forall₂ Recased a b) (ha : ∀ c ∈ a.head?, isSpace c = false) :
    ∀ c ∈ b.head?, isSpace c = false := by
  cases h with
  | nil => exact ha
  | cons hxy _ => simpa [hxy.isSpace_eq] using ha

lemma getLast?_recased (h : List.Forall₂ Recased a b) (ha : ∀ c ∈ a.getLast?, isSpace c = false) :
    ∀ c ∈ b.getLast?, isSpace c = false := by
  rw [← List.head?_reverse] at ha ⊢
  exact head?_recased (List.forall₂_reverse_iff.2 h) ha

lemma notMem_recased {c : Char} (hc : c ∈ signs) (h : List.Forall₂ Recased a b) (ha : c ∉ a) : c ∉ b := by
  induction h with
  | nil => exact ha
  | cons hxy _ ih =>
      obtain ⟨hx, hxs⟩ := List.ne_and_not_mem_of_not_mem_cons ha
      exact List.not_mem_cons_of_ne_of_not_mem
        (fun hy => hx ((hxy.eq_sign_iff hc).2 hy.symm).symm) (ih hxs)

/-- **A recased text leads to the same mode.** -/
lemma modeAfter_recased (h : List.Forall₂ Recased a b) (mode : Mode) : modeAfter mode b = modeAfter mode a := by
  have hcursor (cursor : Cursor) : cursorAfter cursor b = cursorAfter cursor a := by
    induction h generalizing cursor with
    | nil => rfl
    | @cons x y xs ys hxy hrest ih =>
        have hnext : heeded ys.head? = heeded xs.head? := by
          cases hrest with
          | nil => rfl
          | @cons c d _ _ hcd _ => exact (Recast.heeded_eq (a := ⟨c, .code⟩) (b := ⟨d, .code⟩) ⟨hcd, rfl⟩).symm
        rw [cursorAfter, cursorAfter, step_congr hnext, ← step_recased hxy, ih]
  rw [modeAfter, hcursor, ← modeAfter]

end Recased

/-! ## Lines -/

/-- **A line in its canonical spelling**, if it starts in the given mode. -/
def spelledLine (v : Vocabulary) (mode : Mode) (line : List Char) : List Char :=
  chars (spellCells v (labelFrom (.ready mode) line))

/-- **A text is spelled line by line.** -/
lemma spelledLine_append_feed (v : Vocabulary) (mode : Mode) (line text : List Char) :
    spelledLine v mode (line ++ '\n' :: text)
      = spelledLine v mode line ++ '\n' :: spelledLine v (scanLine mode line).2 text := by
  have hfeed : isWordChar '\n' = false := by decide
  have hcut := (labelFrom_cut mode line (b := '\n' :: text) rfl).1
  rw [labelFrom_cons, step_afterLine] at hcut
  have hnext (kind : CharClass) (cells : List Cell) :
      spellCells v (⟨'\n', kind⟩ :: cells) = ⟨'\n', kind⟩ :: spellCells v cells := by
    rw [← List.singleton_append, spellCells_append _ fun x hx _ _ => .inl ?_,
      spellCells_of_notWord _ (by simpa using hfeed)]
    · rfl
    · obtain rfl := Option.some.inj hx
      exact hfeed
  rw [spelledLine, hcut, spellCells_append _ fun x _ y hy => .inr ?_, hnext, chars_append, chars_cons]
  · rfl
  · obtain rfl := Option.some.inj hy
    exact hfeed

/-- **A remark in its canonical spelling.**  Literals are not spelled. -/
def spelledRemark (v : Vocabulary) (r : Remark) : Remark :=
  if r.mode.kind = .literal then r else { r with text := spellWords v r.text }

@[simp] lemma mode_spelledRemark (v : Vocabulary) (r : Remark) : (spelledRemark v r).mode = r.mode := by
  rw [spelledRemark]
  split <;> rfl

/-- A mark is the end of what it closes. -/
lemma through_eq_self_or (mark text : List Char) :
    through mark text = text ∨ mark <:+ through mark text := by
  induction text with
  | nil => exact .inl rfl
  | cons c rest ih =>
      rw [through]
      split
      · exact .inr (List.suffix_refl mark)
      · rcases ih with hall | hmark
        · exact .inl (by rw [hall])
        · exact .inr (hmark.trans (List.suffix_cons c _))

lemma through_isPrefix (mark text : List Char) : through mark text <+: text := by
  induction text with
  | nil => exact List.prefix_refl []
  | cons c rest ih =>
      rw [through]
      split
      · next hmark => exact List.isPrefixOf_iff_prefix.1 hmark
      · exact (List.prefix_cons_inj c).2 ih

lemma within_isPrefix (mode : Mode) (text : List Char) : within mode text <+: text := by
  cases mode with
  | single => exact through_isPrefix _ text
  | double => exact through_isPrefix _ text
  | block => exact through_isPrefix _ text
  | code => exact List.prefix_refl text
  | line => exact List.prefix_refl text

lemma trimEnd_cons_ink {c : Char} (hc : isSpace c = false) (rest : List Char) :
    trimEnd (c :: rest) = c :: trimEnd rest := by
  obtain ⟨back, hrest, hback⟩ := exists_trimEnd rest
  have hlast : ∀ d ∈ (c :: trimEnd rest).getLast?, isSpace d = false := by
    cases hbody : trimEnd rest with
    | nil => simpa using hc
    | cons d body =>
        rw [List.getLast?_cons_cons, ← hbody]
        exact getLast?_trimEnd rest
  conv_lhs => rw [hrest, ← List.cons_append, trimEnd_append_space _ hback]
  exact trimEnd_of_getLast hlast

/-- No literal and no block comment ends before the second slash of a remark. -/
lemma trimEnd_within_slashes (mode : Mode) {rest : List Char} (hfeed : '\n' ∉ rest) :
    ∃ more, trimEnd (within mode ('/' :: '/' :: rest)) = '/' :: '/' :: more ∧ '\n' ∉ more := by
  obtain ⟨more, hmore⟩ : ∃ more, within mode ('/' :: '/' :: rest) = '/' :: '/' :: more := by
    cases mode <;> exact ⟨_, rfl⟩
  have hstarts := within_isPrefix mode ('/' :: '/' :: rest)
  obtain ⟨back, hback, -⟩ := exists_trimEnd more
  refine ⟨trimEnd more, by rw [hmore, trimEnd_cons_ink (by decide), trimEnd_cons_ink (by decide)], fun hmem => ?_⟩
  rw [hmore, List.cons_prefix_cons, List.cons_prefix_cons] at hstarts
  exact hfeed (hstarts.2.2.subset (hback ▸ List.mem_append_left back hmem))

/-- The class of a remark. -/
def remarkKind (mode : Mode) : CharClass := if mode.kind = .literal then .literal else .comment

/-- **A remark is of one class**, and what stands behind it on its line does not go on with its last word. -/
lemma labelFrom_remark {mode : Mode} (hmode : mode ≠ .line) {rest : List Char} (hfeed : '\n' ∉ rest) :
    ∃ behind, labelFrom (.ready mode) ('/' :: '/' :: rest)
        = (within mode ('/' :: '/' :: rest)).map (⟨·, remarkKind mode⟩) ++ behind
      ∧ ∀ x ∈ (within mode ('/' :: '/' :: rest)).getLast?, ∀ y ∈ behind.head?, isWordChar x = false := by
  have hclosed {mark : List Char} {last : Char} (hlast : mark.getLast? = some last)
      (hnot : isWordChar last = false) (text : List Char) :
      ∀ x ∈ (through mark text).getLast?,
        ∀ y ∈ (labelFrom (.ready .code) (text.drop (through mark text).length)).head?, isWordChar x = false := by
    intro x hx y hy
    rcases through_eq_self_or mark text with hall | ⟨front, hfront⟩
    · rw [hall, List.drop_length] at hy
      simp [labelFrom] at hy
    · rw [← hfront, List.getLast?_append, hlast] at hx
      obtain rfl := Option.some.inj hx
      exact hnot
  cases mode with
  | line => exact absurd rfl hmode
  | code =>
      have hcells := (reads_remark hfeed).labelFrom_eq
      rw [chars_map_mk] at hcells
      exact ⟨[], by rw [hcells, List.append_nil]; rfl, by simp⟩
  | single =>
      exact ⟨_, labelFrom_quoted .single '\'' (by simp [step]) _, hclosed rfl (by decide) _⟩
  | double =>
      exact ⟨_, labelFrom_quoted .double '"' (by simp [step]) _, hclosed rfl (by decide) _⟩
  | block => exact ⟨_, labelFrom_block _, hclosed rfl (by decide) _⟩

lemma notWord_of_space {w : List Char} (hw : ∀ c ∈ w, isSpace c = true) (kind : CharClass) :
    ∀ cell ∈ w.map (Cell.mk · kind), isWordChar cell.char = false := by
  intro cell hcell
  obtain ⟨c, hc, rfl⟩ := List.mem_map.1 hcell
  by_contra hword
  have hink := isSpace_of_isWordChar (Bool.eq_true_of_not_eq_false hword)
  simp [hw c hc] at hink

lemma singleClass_map_mk (text : List Char) (kind : CharClass) :
    SingleClass (runs (text.map (⟨·, kind⟩))) := by
  intro run hrun _
  refine ⟨kind, fun cell hcell => ?_⟩
  have hmem := List.mem_flatten_of_mem hrun hcell
  rw [flatten_runs] at hmem
  obtain ⟨c, -, rfl⟩ := List.mem_map.1 hmem
  rfl

section Lines

variable {commands functions : List (List Char)}
  (hwords : ∀ word ∈ commands ++ functions, ∀ c ∈ word, c.toNat < 128 ∧ isWordChar c = true)

include hwords

lemma recast_spellCells {cells : List Cell} (hclass : SingleClass (runs cells)) :
    List.Forall₂ Recast cells (spellCells (.ofLists commands functions) cells) := by
  have hcased : ∀ word ∈ (commands ++ functions).filter (·.any hasCase),
      ∀ c ∈ word, c.toNat < 128 ∧ isWordChar c = true :=
    fun word hword => hwords word (List.mem_of_mem_filter hword)
  rw [spellCells, ← spellRun_casedEntries]
  exact recast_flatMap fun run hrun => recast_spellRun hcased (hclass run hrun)

/-- **Cells in their canonical spelling stay as they are.** -/
lemma spellCells_spellCells {cells : List Cell} (hclass : SingleClass (runs cells)) :
    spellCells (.ofLists commands functions) (spellCells (.ofLists commands functions) cells)
      = spellCells (.ofLists commands functions) cells := by
  have hcased : ∀ word ∈ (commands ++ functions).filter (·.any hasCase),
      ∀ c ∈ word, c.toNat < 128 ∧ isWordChar c = true :=
    fun word hword => hwords word (List.mem_of_mem_filter hword)
  rw [spellCells, spellCells, ← spellRun_casedEntries,
    runs_flatMap fun run hrun => recast_spellRun hcased (hclass run hrun), List.flatMap_map]
  exact List.flatMap_congr fun run hrun => spellRun_spellRun hcased (hclass run hrun)

lemma recased_spellCells {cells : List Cell} (hclass : SingleClass (runs cells)) :
    List.Forall₂ Recased (chars cells) (chars (spellCells (.ofLists commands functions) cells)) := by
  rw [chars, chars, List.forall₂_map_left_iff, List.forall₂_map_right_iff]
  exact (recast_spellCells hwords hclass).imp fun _ _ => Recast.char

lemma recased_spelledLine (mode : Mode) (line : List Char) :
    List.Forall₂ Recased line (spelledLine (.ofLists commands functions) mode line) := by
  have hcells := recased_spellCells hwords (singleClass_labelFrom mode line)
  rwa [chars_labelFrom] at hcells

/-- A script is spelled like a line of code. -/
lemma spellWords_eq_spelledLine (text : List Char) :
    spellWords (.ofLists commands functions) text = spelledLine (.ofLists commands functions) .code text := by
  rw [spellWords_eq_runs hwords, spelledLine, spellCells, chars_flatMap]
  rfl

lemma recased_spelledRemark (r : Remark) :
    List.Forall₂ Recased r.text (spelledRemark (.ofLists commands functions) r).text := by
  rw [spelledRemark]
  split
  · exact List.forall₂_same.2 fun c _ => .refl c
  · rw [spellWords_eq_spelledLine hwords]
    exact recased_spelledLine hwords .code r.text

/-- White space at the end of a stretch of one class is not spelled. -/
lemma trimEnd_spellCells (kind : CharClass) (text : List Char) :
    trimEnd (chars (spellCells (.ofLists commands functions) (text.map (⟨·, kind⟩))))
      = chars (spellCells (.ofLists commands functions) ((trimEnd text).map (⟨·, kind⟩))) := by
  obtain ⟨back, htext, hback⟩ := exists_trimEnd text
  have hnot := notWord_of_space hback kind
  have hparts : spellCells (.ofLists commands functions) (text.map (⟨·, kind⟩))
      = spellCells (.ofLists commands functions) ((trimEnd text).map (⟨·, kind⟩)) ++ back.map (⟨·, kind⟩) := by
    conv_lhs => rw [htext, List.map_append]
    rw [spellCells_append _ fun _ _ y hy => .inr (hnot y (List.mem_of_mem_head? hy)),
      spellCells_of_notWord _ hnot]
  have hrecased := recased_spellCells hwords (singleClass_map_mk (trimEnd text) kind)
  rw [chars_map_mk] at hrecased
  rw [hparts, chars_append, chars_map_mk, trimEnd_append_space _ hback]
  exact trimEnd_of_getLast (getLast?_recased hrecased (getLast?_trimEnd text))

/-- A remark that is a comment is spelled like a text of its own. -/
lemma spellWords_remark {rest : List Char} (hfeed : '\n' ∉ rest) :
    spellWords (.ofLists commands functions) ('/' :: '/' :: rest)
      = chars (spellCells (.ofLists commands functions) (('/' :: '/' :: rest).map (⟨·, .comment⟩))) := by
  have hcells := (reads_remark hfeed).labelFrom_eq
  rw [chars_map_mk] at hcells
  rw [spellWords_eq_spelledLine hwords, spelledLine, hcells]

/-- What becomes of a remark in a spelled line. -/
lemma trimEnd_within_spelledLine {mode : Mode} (hmode : mode ≠ .line) {rest : List Char} (hfeed : '\n' ∉ rest) :
    trimEnd (within mode (spelledLine (.ofLists commands functions) mode ('/' :: '/' :: rest)))
      = (spelledRemark (.ofLists commands functions) ⟨mode, trimEnd (within mode ('/' :: '/' :: rest))⟩).text := by
  obtain ⟨behind, hcells, hbehind⟩ := labelFrom_remark hmode hfeed
  obtain ⟨more, hmore, hnone⟩ := trimEnd_within_slashes mode hfeed
  have hrecased := recased_spelledLine hwords mode ('/' :: '/' :: rest)
  rw [within_recased mode hrecased]
  generalize within mode ('/' :: '/' :: rest) = content at hcells hbehind hmore
  -- the remark and what follows it on the line are spelled one by one
  have hline : spelledLine (.ofLists commands functions) mode ('/' :: '/' :: rest)
      = chars (spellCells (.ofLists commands functions) (content.map (⟨·, remarkKind mode⟩)))
        ++ chars (spellCells (.ofLists commands functions) behind) := by
    rw [spelledLine, hcells, spellCells_append, chars_append]
    intro x hx y hy
    rw [List.getLast?_map] at hx
    obtain ⟨c, hc, rfl⟩ := Option.map_eq_some_iff.1 hx
    exact .inl (hbehind c hc y hy)
  have hlength : content.length
      = (chars (spellCells (.ofLists commands functions) (content.map (⟨·, remarkKind mode⟩)))).length := by
    have hlengths := (recased_spellCells hwords (singleClass_map_mk content (remarkKind mode))).length_eq
    rwa [chars_map_mk] at hlengths
  rw [hline, List.take_left' hlength.symm, trimEnd_spellCells hwords, spelledRemark, remarkKind]
  split
  · rw [spellCells_literal _ (by simp), chars_map_mk]
  · rw [hmore, spellWords_remark hwords hnone]

/-- **The remark of a spelled line.** -/
lemma remark?_spelledLine {mode : Mode} (hmode : mode ≠ .line) {line : List Char} (hfeed : '\n' ∉ line) :
    remark? mode (spelledLine (.ofLists commands functions) mode line)
      = (remark? mode line).map (spelledRemark (.ofLists commands functions)) := by
  obtain ⟨w, hline, hw⟩ := exists_dropWhile isSpace line
  have hhead := head?_trimStart line
  rw [← trimStart] at hline
  generalize trimStart line = body at hline hhead
  subst hline
  -- the white space in front of a line is not spelled
  have hspelled : spelledLine (.ofLists commands functions) mode (w ++ body)
      = w ++ spelledLine (.ofLists commands functions) mode body := by
    have hnot := notWord_of_space hw mode.kind
    rw [spelledLine, (labelFrom_space hw hmode body).1,
      spellCells_append _ fun x hx _ _ => .inl (hnot x (List.mem_of_getLast? hx)),
      spellCells_of_notWord _ hnot, chars_append, chars_map_mk, spelledLine]
  have hfront (text : List Char) : remark? mode (w ++ text) = remark? mode text := by
    simpa using remark?_trim hw (List.forall_mem_nil _) mode text
  have hrecased := recased_spelledLine hwords mode body
  have hstart := trimStart_of_head (head?_recased hrecased hhead)
  rw [hspelled, hfront, hfront, remark?, remark?, isRemark, isRemark, hstart, trimStart_of_head hhead,
    isPrefixOf_recased (by decide) hrecased]
  split
  · next hslashes =>
      obtain ⟨rest, rfl⟩ := List.isPrefixOf_iff_prefix.1 hslashes
      have hrest : '\n' ∉ rest := fun hmem => hfeed (by simp [hmem])
      have htext := trimEnd_within_spelledLine hwords hmode hrest
      rw [List.cons_append, List.singleton_append, htext, Option.map_some, spelledRemark]
      split <;> rfl
  · rfl

lemma remarksFrom_spelled {mode : Mode} (hmode : mode ≠ .line) {ls : List (List Char)} (hne : ls ≠ [])
    (hls : ∀ line ∈ ls, '\n' ∉ line) :
    remarksFrom mode (lines (spelledLine (.ofLists commands functions) mode (unlines ls)))
      = (remarksFrom mode ls).map (spelledRemark (.ofLists commands functions)) := by
  induction ls generalizing mode with
  | nil => exact absurd rfl hne
  | cons line rest ih =>
      obtain ⟨hline, hrest⟩ := List.forall_mem_cons.1 hls
      have hspelled : '\n' ∉ spelledLine (.ofLists commands functions) mode line :=
        notMem_recased (by decide) (recased_spelledLine hwords mode line) hline
      have hnext : (scanLine mode (spelledLine (.ofLists commands functions) mode line)).2
          = (scanLine mode line).2 := by
        rw [scanLine, modeAfter_recased (recased_spelledLine hwords mode line), scanLine]
      have hremark : (remark? mode (spelledLine (.ofLists commands functions) mode line)).toList
          = (remark? mode line).toList.map (spelledRemark (.ofLists commands functions)) := by
        rw [remark?_spelledLine hwords hmode hline]
        cases remark? mode line <;> rfl
      rw [remarksFrom, List.map_append, ← hremark]
      cases rest with
      | nil =>
          have htext : unlines [line] = line := rfl
          rw [htext, lines_eq_singleton hspelled]
          rfl
      | cons next rest =>
          have htext : unlines (line :: next :: rest) = line ++ '\n' :: unlines (next :: rest) := rfl
          rw [← ih (scanLine_ne_line mode line) (by simp) hrest, htext, spelledLine_append_feed,
            lines_append_feed, lines_eq_singleton hspelled, List.singleton_append, remarksFrom, hnext]

/-- **The spelling pass spells every remark.** -/
lemma remarks_spellWords (text : List Char) :
    remarks (spellWords (.ofLists commands functions) text)
      = (remarks text).map (spelledRemark (.ofLists commands functions)) := by
  have hls : ∀ line ∈ lines text, '\n' ∉ line := fun _ => feed_notMem_of_mem_lines
  have hne : lines text ≠ [] := splitWhen_ne_nil _ text
  have hremarks := remarksFrom_spelled hwords (show Mode.code ≠ .line by decide) hne hls
  rwa [unlines_lines, ← spellWords_eq_spelledLine hwords, ← remarks, ← remarks] at hremarks

end Lines

end SqfLayout.Pass
