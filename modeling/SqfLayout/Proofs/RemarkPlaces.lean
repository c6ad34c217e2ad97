import SqfLayout.Proofs.Headers
import SqfLayout.Proofs.PulledBack
import SqfLayout.Proofs.Remarks

/-!
# Where remarks begin

The layout passes change white space of code, line feeds included, and so they could move a comment to the
end of another line or away from it.  This file says when they do not.

**Same marks.**  `SameMarks a b`: wherever `a` stands, `b` may stand in its place, and the same slashes
begin remarks.  Concatenation respects this (`SameMarks.append`).  White space around a sign that is no
slash can be changed, as long as no line feed is put or taken away behind the sign (`SameMarks.around`).

**Passes.**  Braces, commas, operators, conditionals, alternatives, semicolons and parentheses keep the
marks of every text.  Loops draw their condition up to the brace, and so it must not begin with two
slashes (`LoopsClear`).  Statements are divided behind a semicolon unless a line comment follows, and it
must be seen as one (`commentsStay`).
-/

namespace SqfLayout.Pass

open SqfLayout.Text SqfLayout.Scan

/-! ## Same marks -/

/-- **Texts that may stand in each other's place** without a change to the slashes that begin remarks. -/
structure SameMarks (a b : List Char) : Prop where
  head : ∀ follow, (b.head?.or follow == some '/') = (a.head?.or follow == some '/')
  marks : ∀ fresh follow, slashMarks fresh b follow = slashMarks fresh a follow
  fresh : ∀ fresh, b.foldl staysFresh fresh = a.foldl staysFresh fresh

namespace SameMarks

variable {a b c d : List Char}

lemma refl (a : List Char) : SameMarks a a := ⟨fun _ => rfl, fun _ _ => rfl, fun _ => rfl⟩

lemma trans (hab : SameMarks a b) (hbc : SameMarks b c) : SameMarks a c :=
  ⟨fun follow => (hbc.head follow).trans (hab.head follow),
    fun fresh follow => (hbc.marks fresh follow).trans (hab.marks fresh follow),
    fun fresh => (hbc.fresh fresh).trans (hab.fresh fresh)⟩

lemma append (hab : SameMarks a b) (hcd : SameMarks c d) : SameMarks (a ++ c) (b ++ d) := by
  constructor
  · intro follow
    rw [List.head?_append, List.head?_append, Option.or_assoc, Option.or_assoc, hab.head]
    cases a with
    | nil => exact hcd.head follow
    | cons _ _ => rfl
  · intro fresh follow
    rw [slashMarks_append, slashMarks_append, slashMarks_congr (hcd.head follow), hab.marks, hab.fresh,
      hcd.marks]
  · intro fresh
    rw [List.foldl_append, List.foldl_append, hab.fresh, hcd.fresh]

lemma flatMap {α : Type} {f g : α → List Cell} (h : ∀ x, SameMarks (chars (f x)) (chars (g x))) :
    ∀ xs : List α, SameMarks (chars (xs.flatMap f)) (chars (xs.flatMap g))
  | [] => refl []
  | x :: xs => by
      rw [List.flatMap_cons, List.flatMap_cons, chars_append, chars_append]
      exact (h x).append (flatMap h xs)

/-- Within a text. -/
lemma splice (front : List Char) (hab : SameMarks a b) (back : List Char) :
    SameMarks (front ++ (a ++ back)) (front ++ (b ++ back)) :=
  (refl front).append (hab.append (refl back))

end SameMarks

/-! ## Anchors -/

/-- **A text without slashes behind which no remark can begin**: no line feed stands behind its ink. -/
structure Anchored (text : List Char) : Prop where
  slashless : '/' ∉ text
  ink : ∃ front c back, text = front ++ c :: back ∧ isSpace c = false ∧ '\n' ∉ back

/-- A sign or a word without slashes. -/
def IsSign (word : List Char) : Prop := word ≠ [] ∧ ∀ c ∈ word, isSpace c = false ∧ c ≠ '/'

instance (word : List Char) : Decidable (IsSign word) := inferInstanceAs (Decidable (_ ∧ _))

lemma slashMarks_of_notMem {text : List Char} (h : '/' ∉ text) (fresh : Bool) (follow : Option Char) :
    slashMarks fresh text follow = [] := by
  rw [List.eq_nil_iff_length_eq_zero, length_slashMarks, List.count_eq_zero]
  exact h

/-- No slash comes first. -/
lemma head_of_notMem {text : List Char} (h : '/' ∉ text) (hne : text ≠ []) (follow : Option Char) :
    (text.head?.or follow == some '/') = false := by
  obtain ⟨c, rest, rfl⟩ := List.exists_cons_of_ne_nil hne
  simpa using (List.ne_of_not_mem_cons h).symm

/-- Behind ink a line is not fresh. -/
lemma foldl_staysFresh_of_ink (front : List Char) {back : List Char} {c : Char} (hc : isSpace c = false)
    (hback : '\n' ∉ back) (fresh : Bool) : (front ++ c :: back).foldl staysFresh fresh = false := by
  have hstale : ∀ text : List Char, '\n' ∉ text → text.foldl staysFresh false = false := by
    intro text htext
    induction text with
    | nil => rfl
    | cons d text ih =>
        obtain ⟨hd, htext⟩ := List.ne_and_not_mem_of_not_mem_cons htext
        have hfalse : staysFresh false d = false := by simp [staysFresh, Ne.symm hd]
        rw [List.foldl_cons, hfalse, ih htext]
  have hfeed : c ≠ '\n' := by
    rintro rfl
    exact absurd hc (by decide)
  have hfalse : staysFresh (front.foldl staysFresh fresh) c = false := by simp [staysFresh, hc, hfeed]
  rw [List.foldl_append, List.foldl_cons, hfalse, hstale back hback]

section Anchors

variable {front front' word back back' : List Char}

lemma Anchored.ne_nil (h : Anchored word) : word ≠ [] := by
  obtain ⟨front, c, back, rfl, -⟩ := h.ink
  simp

lemma Anchored.fresh (h : Anchored word) (fresh : Bool) : word.foldl staysFresh fresh = false := by
  obtain ⟨front, c, back, rfl, hc, hback⟩ := h.ink
  exact foldl_staysFresh_of_ink _ hc hback fresh

lemma SameMarks.of_anchored {a b : List Char} (ha : Anchored a) (hb : Anchored b) : SameMarks a b where
  head follow := by rw [head_of_notMem ha.slashless ha.ne_nil, head_of_notMem hb.slashless hb.ne_nil]
  marks fresh follow := by rw [slashMarks_of_notMem ha.slashless, slashMarks_of_notMem hb.slashless]
  fresh fresh := by rw [ha.fresh, hb.fresh]

lemma anchored_sign (hfront : '/' ∉ front) (hword : IsSign word)
    (hback : ∀ c ∈ back, isSpace c = true ∧ c ≠ '\n') : Anchored (front ++ (word ++ back)) := by
  obtain ⟨hne, hink⟩ := hword
  have hslash : '/' ∉ back := slash_notMem_of_space fun c hc => (hback c hc).1
  constructor
  · simp only [List.mem_append, not_or]
    exact ⟨hfront, fun h => (hink _ h).2 rfl, hslash⟩
  · obtain ⟨c, rest, rfl⟩ := List.exists_cons_of_ne_nil hne
    refine ⟨front, c, rest ++ back, rfl, (hink c (by simp)).1, ?_⟩
    simp only [List.mem_append, not_or]
    exact ⟨fun h => absurd (hink '\n' (by simp [h])).1 (by decide), fun h => (hback _ h).2 rfl⟩

/-- **What stands around a sign can be changed**, as long as it has no slashes and there is no line feed
behind the sign. -/
lemma SameMarks.around (hfront : '/' ∉ front) (hword : IsSign word)
    (hback : ∀ c ∈ back, isSpace c = true ∧ c ≠ '\n') (hfront' : '/' ∉ front')
    (hback' : ∀ c ∈ back', isSpace c = true ∧ c ≠ '\n') :
    SameMarks (front ++ (word ++ back)) (front' ++ (word ++ back')) :=
  .of_anchored (anchored_sign hfront hword hback) (anchored_sign hfront' hword hback')

/-- White space before a sign can be changed. -/
lemma SameMarks.before {w w' : List Char} (hw : ∀ c ∈ w, isSpace c = true)
    (hw' : ∀ c ∈ w', isSpace c = true) (hword : IsSign word) : SameMarks (w ++ word) (w' ++ word) := by
  have hnone : ∀ c ∈ ([] : List Char), isSpace c = true ∧ c ≠ '\n' := by simp
  simpa using SameMarks.around (slash_notMem_of_space hw) hword hnone (slash_notMem_of_space hw') hnone

lemma isSign_chars {cells : List Cell} (hne : cells ≠ []) (h : ∀ cell ∈ cells, Inert cell) :
    IsSign (chars cells) := by
  refine ⟨by simpa [chars] using hne, fun c hc => ?_⟩
  obtain ⟨cell, hcell, rfl⟩ := List.mem_map.1 hc
  refine ⟨(h cell hcell).2, fun hslash => ?_⟩
  have hplain := (h cell hcell).1
  rw [hslash] at hplain
  exact absurd hplain (by decide)

lemma AllBlank.narrow {cells : List Cell} (h : AllBlank cells) :
    ∀ c ∈ chars cells, isSpace c = true ∧ c ≠ '\n' := by
  intro c hc
  obtain ⟨cell, hcell, rfl⟩ := List.mem_map.1 hc
  refine ⟨isSpace_of_isBlank (h cell hcell), fun hfeed => ?_⟩
  have hblank := h cell hcell
  rw [hfeed] at hblank
  exact absurd hblank (by decide)

end Anchors

/-! ## Operators and parentheses -/

lemma sameMarks_replaceFound {α : Type} {find : Finder α} (hfind : find.Fits)
    {replace : List Cell → α → List Cell} (cells : List Cell)
    (found : ∀ before taken rest what, find before (taken ++ rest) = some (taken.length, what) →
      .found taken what ∈ segments find cells → SameMarks (chars taken) (chars (replace taken what))) :
    SameMarks (chars cells) (chars (replaceFound find replace cells)) := by
  refine replaceFound_rel_of_mem (R := fun a b => SameMarks (chars a) (chars b)) hfind
    (fun cells => .refl _) (fun a b c d hab hcd => ?_) cells found
  rw [chars_append, chars_append]
  exact hab.append hcd

/-- **The parentheses pass keeps the marks.** -/
lemma sameMarks_trimParens (text : List Char) : SameMarks text (trimParens text) := by
  have hcells : SameMarks (chars (label text))
      (chars (replaceFound parenFinder (fun _ paren => [paren]) (label text))) := by
    refine sameMarks_replaceFound parenFinder_fits _ fun before taken rest paren hfound _ => ?_
    obtain ⟨blanks, hblanks, hshape⟩ := parenFinder_taken hfound
    rcases hshape with ⟨rfl, rfl⟩ | ⟨rfl, rfl⟩
    · have hparen : IsSign ['('] := by decide
      simpa using SameMarks.around List.not_mem_nil hparen hblanks.narrow List.not_mem_nil
        (List.forall_mem_nil _)
    · rw [chars_append]
      exact SameMarks.before hblanks.allSpace.chars (List.forall_mem_nil _) (by decide)
  rwa [chars_label] at hcells

lemma isSign_of_mem_operators {word : List Char} (hword : word ∈ operators) : IsSign word := by
  have hall : ∀ word ∈ operators, IsSign word := by decide
  exact hall word hword

/-- **The operators pass keeps the marks.** -/
lemma sameMarks_spaceOperators (text : List Char) : SameMarks text (spaceOperators text) := by
  have hline (line : List Cell) : SameMarks (chars line) (chars (spaceLine line)) := by
    rw [spaceLine]
    split
    · exact .refl _
    · refine sameMarks_replaceFound operatorFinder_fits _ fun before taken rest put hfound _ => ?_
      obtain ⟨lead, op, behind, rfl, hlead, hbehind, hop, hput⟩ := operatorFinder_taken hfound
      rcases hput with ⟨-, rfl⟩ | rfl
      · have hspace {cells : List Cell} (h : ∀ cell ∈ cells, cell = .code ' ') : AllBlank cells := by
          intro cell hcell
          rw [h cell hcell]
          decide
        have hbefore : AllBlank (spaceBefore before) := hspace fun _ => eq_space_of_mem_spaceBefore
        have hafter : AllBlank (spaceBehind rest.head?) := hspace fun _ => eq_space_of_mem_spaceBehind
        simpa using SameMarks.around (slash_notMem_of_space hlead.allSpace.chars)
          (isSign_of_mem_operators hop) hbehind.narrow (slash_notMem_of_space hbefore.allSpace.chars)
          hafter.narrow
      · exact .refl _
  have hlines := SameMarks.flatMap hline (splitAfter (·.char == '\n') (label text))
  rwa [List.flatMap_id', flatten_splitAfter, chars_label] at hlines

/-! ## Headers -/

/-- White space that stays within a line. -/
def isNarrow (c : Char) : Bool := isSpace c && c != '\n'

/-- Whether two slashes come next on the line. -/
def remarkNext (text : List Char) : Bool := ['/', '/'].isPrefixOf (text.dropWhile isNarrow)

lemma remarkNext_space {w : List Char} (hw : ∀ c ∈ w, isSpace c = true ∧ c ≠ '\n') (text : List Char) :
    remarkNext (w ++ text) = remarkNext text := by
  have hnarrow : ∀ c ∈ w, isNarrow c = true := fun c hc => by simp [isNarrow, hw c hc]
  rw [remarkNext, List.dropWhile_append_of_pos hnarrow, ← remarkNext]

lemma remarkNext_left {a b : List Char} (h : remarkNext (a ++ b) = false) : remarkNext a = false := by
  by_contra hremark
  rw [Bool.not_eq_false, remarkNext, List.isPrefixOf_iff_prefix] at hremark
  obtain ⟨rest, hrest⟩ := hremark
  rw [remarkNext, List.dropWhile_append, ← hrest] at h
  simp [List.isPrefixOf] at h

/-- **Where no two slashes come next, it does not matter whether the line is fresh.** -/
lemma slashMarks_of_not_remarkNext {text : List Char} (h : remarkNext text = false) {follow : Option Char}
    (hfollow : (follow == some '/') = false) (fresh : Bool) :
    slashMarks fresh text follow = slashMarks false text follow := by
  induction text generalizing fresh with
  | nil => rfl
  | cons c rest ih =>
      rw [slashMarks, slashMarks]
      by_cases hspace : isSpace c = true
      · have hslash : (c == '/') = false := by
          rw [beq_eq_false_iff_ne]
          rintro rfl
          exact absurd hspace (by decide)
        rw [hslash]
        by_cases hfeed : c = '\n'
        · simp [staysFresh, hfeed]
        · have hnarrow : isNarrow c = true := by simp [isNarrow, hspace, hfeed]
          have hrest : remarkNext rest = false := by
            rwa [remarkNext, List.dropWhile_cons_of_pos hnarrow] at h
          exact congrArg ([] ++ ·) ((ih hrest _).trans (ih hrest _).symm)
      · have hfeed : c ≠ '\n' := by
          rintro rfl
          exact hspace (by decide)
        have hstale (fresh : Bool) : staysFresh fresh c = false := by simp [staysFresh, hspace, hfeed]
        rw [hstale, hstale]
        congr 1
        split
        · next hslash =>
            -- the slash is not followed by another one
            obtain rfl := eq_of_beq hslash
            have hnext : (rest.head?.or follow == some '/') = false := by
              cases rest with
              | nil => exact hfollow
              | cons d rest =>
                  rw [remarkNext, List.dropWhile_cons_of_neg (by decide)] at h
                  have hd : d ≠ '/' := by
                    rintro rfl
                    simp [List.isPrefixOf] at h
                  simpa using hd
            rw [hnext, Bool.and_false, Bool.and_false]
        · rfl

/-- **Whatever has no slashes can stand before a text that does not begin with two slashes.** -/
lemma SameMarks.across {a a' core b b' : List Char} (ha : '/' ∉ a) (hne : a ≠ []) (ha' : '/' ∉ a')
    (hne' : a' ≠ []) (hcore : remarkNext core = false) (hb : Anchored b) (hb' : Anchored b') :
    SameMarks (a ++ (core ++ b)) (a' ++ (core ++ b')) := by
  have hhead {a : List Char} (ha : '/' ∉ a) (hne : a ≠ []) (rest : List Char) (follow : Option Char) :
      ((a ++ rest).head?.or follow == some '/') = false := by
    rw [List.head?_append, Option.or_assoc]
    exact head_of_notMem ha hne _
  have hmarks {a b : List Char} (ha : '/' ∉ a) (hb : Anchored b) (fresh : Bool) (follow : Option Char) :
      slashMarks fresh (a ++ (core ++ b)) follow = slashMarks false core none := by
    have hnext := head_of_notMem hb.slashless hb.ne_nil follow
    rw [slashMarks_append, slashMarks_append, slashMarks_of_notMem ha, slashMarks_of_notMem hb.slashless,
      List.nil_append, List.append_nil, slashMarks_of_not_remarkNext hcore hnext,
      slashMarks_congr (g := none) (hnext.trans (by rfl))]
  constructor
  · intro follow
    rw [hhead ha hne, hhead ha' hne']
  · intro fresh follow
    rw [hmarks ha hb, hmarks ha' hb']
  · intro fresh
    simp only [List.foldl_append, hb.fresh, hb'.fresh]

/-- A condition keeps to one line, and so does the white space in front of it. -/
lemma narrow_of_condition {condition front back : List Cell}
    (hcondition : condition = front ++ (trimCells condition ++ back)) (hfront : AllSpace front)
    (hline : ∀ cell ∈ condition, cell.char ≠ '\n') : ∀ c ∈ chars front, isSpace c = true ∧ c ≠ '\n' := by
  intro c hc
  obtain ⟨cell, hcell, rfl⟩ := List.mem_map.1 hc
  refine ⟨hfront cell hcell, hline cell ?_⟩
  rw [hcondition]
  simp [hcell]

lemma Conditional.Spells.sameMarks {h : Conditional} {opening closing brace : Cell}
    (hs : h.Spells opening closing brace) :
    SameMarks (chars (h.cells opening closing brace)) (chars h.canonical) := by
  obtain ⟨front, back, hcondition, hfront, hback⟩ := exists_trimCells h.condition
  obtain ⟨hne, hinert⟩ := hs.branch_inert
  have hopening : SameMarks (chars h.gap₁ ++ (['('] ++ chars front)) ([' '] ++ (['('] ++ [])) :=
    .around (slash_notMem_of_space hs.gap₁.chars) (by decide)
      (narrow_of_condition hcondition hfront hs.condition) (by decide) (by simp)
  have hclosing : SameMarks (chars back ++ [')']) ([] ++ [')']) := .before hback.chars (by simp) (by decide)
  have hbranch : SameMarks (chars h.gap₂ ++ chars h.branch) ([' '] ++ chars h.branch) :=
    .before hs.gap₂.chars isSpace_space (isSign_chars hne hinert)
  have hbrace : SameMarks (chars h.gap₃ ++ ['\x7b']) ([' '] ++ ['\x7b']) :=
    .before hs.gap₃.chars isSpace_space (by decide)
  have hparts := (SameMarks.refl (chars h.keyword)).append (hopening.append
    ((SameMarks.refl (chars (trimCells h.condition))).append (hclosing.append (hbranch.append hbrace))))
  rw [Conditional.cells, Conditional.canonical]
  conv => arg 1; rw [hcondition]
  simpa [hs.opening, hs.closing, hs.brace, codeCells] using hparts

lemma Alternative.Spells.sameMarks {h : Alternative} {closing brace : Cell} (hs : h.Spells closing brace) :
    SameMarks (chars (h.cells closing brace)) (chars h.canonical) := by
  have hword : IsSign (chars h.keyword) :=
    isSign_chars (hs.keyword.ne_nil (by simp)) (hs.keyword.inert (by decide))
  have hkeyword : SameMarks (chars h.gap₁ ++ chars h.keyword) ([' '] ++ chars h.keyword) :=
    .before hs.gap₁.chars isSpace_space hword
  have hbrace : SameMarks (chars h.gap₂ ++ ['\x7b']) ([' '] ++ ['\x7b']) :=
    .before hs.gap₂.chars isSpace_space (by decide)
  have hparts := (SameMarks.refl ['\x7d']).append (hkeyword.append hbrace)
  rw [Alternative.cells, Alternative.canonical]
  simpa [hs.closing, hs.brace, codeCells] using hparts

/-- A loop whose condition does not begin with two slashes. -/
def Loop.Clear (h : Loop) : Prop := remarkNext (chars h.condition) = false

instance : DecidablePred Loop.Clear := fun _ => inferInstanceAs (Decidable (_ = _))

lemma Loop.Spells.sameMarks {h : Loop} {opening closing brace : Cell} (hs : h.Spells opening closing brace)
    (hclear : h.Clear) : SameMarks (chars (h.cells opening closing brace)) (chars h.canonical) := by
  obtain ⟨front, back, hcondition, hfront, hback⟩ := exists_trimCells h.condition
  have hword : IsSign (chars h.body) := isSign_chars (hs.body.ne_nil (by simp)) (hs.body.inert (by decide))
  have hbody : SameMarks (chars h.gap₄ ++ chars h.body) ([' '] ++ chars h.body) :=
    .before hs.gap₄.chars isSpace_space hword
  have hbrace : SameMarks (chars h.gap₅ ++ ['\x7b']) ([' '] ++ ['\x7b']) :=
    .before hs.gap₅.chars isSpace_space (by decide)
  have hcore : remarkNext (chars (trimCells h.condition)) = false := by
    rw [Loop.Clear, chars_of_trimCells hcondition,
      remarkNext_space (narrow_of_condition hcondition hfront hs.condition)] at hclear
    exact remarkNext_left hclear
  have hlead : '/' ∉ chars h.gap₁ ++ ['\x7b'] ++ (chars h.gap₂ ++ chars front) := by
    simp only [List.mem_append, not_or]
    exact ⟨⟨slash_notMem_of_space hs.gap₁.chars, by decide⟩, slash_notMem_of_space hs.gap₂.chars,
      slash_notMem_of_space hfront.chars⟩
  have hgap : ∀ c ∈ chars back ++ chars h.gap₃, isSpace c = true :=
    List.forall_mem_append.2 ⟨hback.chars, hs.gap₃.chars⟩
  rw [Loop.cells, Loop.canonical]
  conv => arg 1; rw [hcondition]
  split
  · next hnil =>
      have hpair : SameMarks (chars h.gap₁ ++ ['\x7b'] ++ (chars h.gap₂ ++ chars front)
          ++ (chars back ++ chars h.gap₃) ++ (['\x7d'] ++ [])) ([' ', '\x7b'] ++ (['\x7d'] ++ [])) := by
        refine .around ?_ (by decide) (by simp) (by decide) (by simp)
        rw [List.mem_append, not_or]
        exact ⟨hlead, slash_notMem_of_space hgap⟩
      have hparts := (SameMarks.refl (chars h.keyword)).append (hpair.append (hbody.append hbrace))
      simpa [hs.opening, hs.closing, hs.brace, codeCells, hnil] using hparts
  · have hend (w : List Char) (hw : ∀ c ∈ w, isSpace c = true) : Anchored (w ++ (['\x7d'] ++ [])) :=
      anchored_sign (slash_notMem_of_space hw) (by decide) (by simp)
    have hcondition' : SameMarks (chars h.gap₁ ++ ['\x7b'] ++ (chars h.gap₂ ++ chars front)
        ++ (chars (trimCells h.condition) ++ (chars back ++ chars h.gap₃ ++ (['\x7d'] ++ []))))
        ([' ', '\x7b', ' '] ++ (chars (trimCells h.condition) ++ ([' '] ++ (['\x7d'] ++ [])))) :=
      .across hlead (by simp) (by decide) (by simp) hcore (hend _ hgap) (hend _ isSpace_space)
    have hparts := (SameMarks.refl (chars h.keyword)).append (hcondition'.append (hbody.append hbrace))
    simpa [hs.opening, hs.closing, hs.brace, codeCells] using hparts

/-- **Every loop of code has a condition that does not begin with two slashes.** -/
def LoopsClear (text : List Char) : Prop := AllHarmless Loop.Clear (segments loopFinder (label text))

instance (text : List Char) : Decidable (LoopsClear text) := inferInstanceAs (Decidable (AllHarmless ..))

/-- A round over a text keeps the marks if every header of code does. -/
lemma sameMarks_round {α : Type} {find : Finder α} (hfits : find.Fits) {canonical : α → List Cell}
    {text : List Char}
    (hfound : ∀ before taken rest h, find before (taken ++ rest) = some (taken.length, h) →
      .found taken h ∈ segments find (label text) → taken.head?.any (·.kind == .code) = true →
      SameMarks (chars taken) (chars (canonical h))) :
    SameMarks text (chars (replaceFound find (fun taken h => inCode taken (canonical h)) (label text))) := by
  have hcells : SameMarks (chars (label text))
      (chars (replaceFound find (fun taken h => inCode taken (canonical h)) (label text))) := by
    refine sameMarks_replaceFound hfits _ fun before taken rest h hbefore hmem => ?_
    rw [inCode]
    split
    · next hcode => exact hfound before taken rest h hbefore hmem hcode
    · exact .refl _
  rwa [chars_label] at hcells

/-- **The headers pass keeps the marks** if no condition of a loop begins with two slashes. -/
lemma sameMarks_spaceHeaders {text : List Char}
    (hloops : LoopsClear (spaceAlternatives (spaceConditionals text))) :
    SameMarks text (spaceHeaders text) := by
  have h₁ : SameMarks text (spaceConditionals text) := by
    refine sameMarks_round conditionalFinder_fits fun before taken rest h hfound _ _ => ?_
    obtain ⟨opening, closing, brace, rfl, hs⟩ := conditionalFinder_eq_some hfound
    exact hs.sameMarks
  have h₂ : SameMarks (spaceConditionals text) (spaceAlternatives (spaceConditionals text)) := by
    refine sameMarks_round alternativeFinder_fits fun before taken rest h hfound _ _ => ?_
    obtain ⟨closing, brace, rfl, hs⟩ := alternativeFinder_eq_some hfound
    exact hs.sameMarks
  have h₃ : SameMarks (spaceAlternatives (spaceConditionals text)) (spaceHeaders text) := by
    refine sameMarks_round loopFinder_fits fun before taken rest h hfound hmem hcode => ?_
    obtain ⟨opening, closing, brace, rfl, hs⟩ := loopFinder_eq_some hfound
    exact hs.sameMarks (hloops _ _ hmem hcode)
  exact (h₁.trans h₂).trans h₃

/-! ## Statements -/

/-- **Whether a semicolon keeps its line wherever two slashes follow on the line.** -/
def commentsStay : List Cell → Bool
  | [] => true
  | cell :: rest =>
    (!cell.isCode ';' || !remarkNext (chars rest) || keepsLine (rest.dropWhile fun cell => isBlank cell.char))
      && commentsStay rest

lemma commentsStay_right {a b : List Cell} (h : commentsStay (a ++ b) = true) : commentsStay b = true := by
  induction a with
  | nil => exact h
  | cons cell a ih =>
      rw [List.cons_append, commentsStay, Bool.and_eq_true] at h
      exact ih h.2

/-- A statement is divided from what follows it only if the semicolon does not keep its line. -/
lemma semicolonFinder_divides {before : Option Char} {cell : Cell} {n : Nat} {rest put : List Cell}
    (hfound : semicolonFinder before (cell :: rest) = some (n, put))
    (hkeeps : keepsLine (rest.dropWhile fun cell => isBlank cell.char) = true) :
    put = cell :: rest.takeWhile fun cell => isBlank cell.char := by
  have hdrop : rest.drop (rest.takeWhile fun cell => isBlank cell.char).length
      = rest.dropWhile fun cell => isBlank cell.char := by
    have happend := List.takeWhile_append_dropWhile (p := fun cell : Cell => isBlank cell.char) (l := rest)
    conv_lhs => arg 2; rw [← happend]
    exact List.drop_left
  simp only [semicolonFinder, hdrop, hkeeps, if_true] at hfound
  split at hfound
  · exact (Prod.mk.inj (Option.some.inj hfound)).2.symm
  · simp at hfound

/-- **A text and the text with its statements divided** have the same marks, if comments stay. -/
lemma slashMarks_statements {before : Option Char} {cells : List Cell} {segs : List (Segment (List Cell))}
    (hdivision : Division semicolonFinder before cells segs) (hstay : commentsStay cells = true) :
    (chars (segs.flatMap (Segment.replaced fun _ put => put))).head? = (chars cells).head?
      ∧ ∀ fresh, slashMarks fresh (chars (segs.flatMap (Segment.replaced fun _ put => put))) none
          = slashMarks fresh (chars cells) none := by
  induction hdivision with
  | done => exact ⟨rfl, fun _ => rfl⟩
  | @plain before cell rest segs _ _ ih =>
      obtain ⟨hhead, hmarks⟩ := ih (commentsStay_right (a := [cell]) hstay)
      refine ⟨rfl, fun fresh => ?_⟩
      rw [List.flatMap_cons, Segment.replaced, List.singleton_append, chars_cons, chars_cons, slashMarks,
        slashMarks, hhead, hmarks]
  | @found before taken rest put segs hfound _ _ ih =>
      obtain ⟨hhead, hmarks⟩ := ih (commentsStay_right hstay)
      obtain ⟨blanks, rfl, hblanks, hput⟩ := semicolonFinder_taken hfound
      rw [List.flatMap_cons, Segment.replaced]
      generalize segs.flatMap (Segment.replaced fun _ put => put) = out at hhead hmarks
      -- the same cells, or a line feed in place of the blanks
      by_cases hsame : put = .code ';' :: blanks
      · subst hsame
        refine ⟨rfl, fun fresh => ?_⟩
        rw [chars_append, chars_append, slashMarks_append, slashMarks_append, hhead, hmarks]
      · obtain rfl := hput.resolve_left hsame
        refine ⟨rfl, fun fresh => ?_⟩
        have hclear : remarkNext (chars rest) = false := by
          rw [← remarkNext_space hblanks.narrow, ← chars_append]
          rw [List.cons_append, commentsStay, Bool.and_eq_true, Bool.or_eq_true, Bool.or_eq_true] at hstay
          rcases hstay.1 with (hcode | hclear) | hkeeps
          · simp [Cell.isCode] at hcode
          · simpa using hclear
          · -- no blank is a line feed
            have hblank : [.code ';', .code '\n']
                = .code ';' :: (blanks ++ rest).takeWhile fun cell => isBlank cell.char :=
              semicolonFinder_divides hfound hkeeps
            have hfeed : Cell.code '\n' ∈ (blanks ++ rest).takeWhile fun cell => isBlank cell.char := by
              rw [← (List.cons.inj hblank).2]
              simp
            exact absurd (List.mem_takeWhile_imp hfeed) (by decide)
        have hfresh : (chars (.code ';' :: blanks)).foldl staysFresh fresh = false :=
          foldl_staysFresh_of_ink [] (by decide) (fun h => (hblanks.narrow _ h).2 rfl) fresh
        have hslash : '/' ∉ chars (.code ';' :: blanks) := by
          rw [chars_cons, List.mem_cons, not_or]
          exact ⟨by decide, slash_notMem_of_space hblanks.allSpace.chars⟩
        have hbefore : slashMarks fresh (chars (.code ';' :: blanks ++ rest)) none
            = slashMarks false (chars rest) none := by
          rw [chars_append, slashMarks_append, slashMarks_of_notMem hslash, hfresh, List.nil_append]
        have hafter : slashMarks fresh (chars ([.code ';', .code '\n'] ++ out)) none
            = slashMarks true (chars out) none := rfl
        rw [hbefore, hafter, hmarks, slashMarks_of_not_remarkNext hclear rfl]

/-! ## Commas and semicolons -/

section Runs

variable {m : Char} {also : Char → Bool}

/-- **A step of a pass that pulls a mark back** keeps the marks of what has been written and what is still
to be read. -/
lemma MarkStep.sameMarks (hm : IsSign [m]) (honly : ∀ c, also c = true → c = m) {s t : List Cell × List Cell}
    (h : MarkStep m also s t) :
    SameMarks (chars (s.1.reverse ++ s.2)) (chars (t.1.reverse ++ t.2)) := by
  have hslash : m ≠ '/' := (hm.2 m (by simp)).2
  cases h with
  | @put out rest cell _ => simpa using SameMarks.refl _
  | @pull out rest =>
      have hloose : '/' ∉ chars (out.takeWhile (isLoose also)) := by
        intro h
        obtain ⟨cell, hcell, hchar⟩ := List.mem_map.1 h
        have hcell := List.mem_takeWhile_imp hcell
        rw [isLoose, hchar, Bool.and_eq_true, Bool.or_eq_true] at hcell
        rcases hcell.2 with hspace | halso
        · exact absurd hspace (by decide)
        · exact hslash (honly _ halso).symm
      obtain ⟨stays, hpull, hstays⟩ : ∃ stays, pullBack also out = stays ++ out.dropWhile (isLoose also)
          ∧ '/' ∉ chars stays := by
        rw [pullBack]
        split
        · split
          · next feed hfeed =>
              refine ⟨[feed], rfl, fun h => hloose ?_⟩
              obtain ⟨cell, hcell, hchar⟩ := List.mem_map.1 h
              obtain rfl := List.mem_singleton.1 hcell
              exact hchar ▸ List.mem_map_of_mem (List.mem_of_getLast? hfeed)
          · exact ⟨[], rfl, by simp⟩
        · exact ⟨[], rfl, by simp⟩
      have hmark : SameMarks (chars (out.takeWhile (isLoose also)).reverse ++ ([m] ++ []))
          (chars stays.reverse ++ ([m] ++ [])) :=
        .around (by simpa using hloose) hm (by simp) (by simpa using hstays) (by simp)
      have hspliced := hmark.splice (chars (out.dropWhile (isLoose also)).reverse) (chars rest)
      have hout : chars out.reverse = chars (out.dropWhile (isLoose also)).reverse
          ++ chars (out.takeWhile (isLoose also)).reverse := by
        rw [← chars_append, ← List.reverse_append, List.takeWhile_append_dropWhile]
      simpa [hpull, hout] using hspliced
  | @skip out rest cell hblank =>
      have hnarrow : AllBlank [cell] := List.forall_mem_singleton.2 hblank
      have hmark : SameMarks ([] ++ ([m] ++ chars [cell])) ([] ++ ([m] ++ [])) :=
        .around (by simp) hm hnarrow.narrow (by simp) (by simp)
      simpa using hmark.splice (chars out.reverse) (chars rest)
  | @space out rest =>
      have hmark : SameMarks ([] ++ ([m] ++ [])) ([] ++ ([m] ++ [' '])) :=
        .around (by simp) hm (by simp) (by simp) (by decide)
      simpa using hmark.splice (chars out.reverse) (chars rest)

lemma MarkRun.sameMarks (hm : IsSign [m]) (honly : ∀ c, also c = true → c = m) {s t : List Cell × List Cell}
    (h : MarkRun m also s t) :
    SameMarks (chars (s.1.reverse ++ s.2)) (chars (t.1.reverse ++ t.2)) := by
  induction h with
  | refl => exact .refl _
  | tail _ hstep ih => exact ih.trans (hstep.sameMarks hm honly)

end Runs

/-- **The commas pass keeps the marks.** -/
lemma sameMarks_spaceCommas (text : List Char) : SameMarks text (spaceCommas text) := by
  have hrun := (run_commasFrom [] false (label text) (by simp)).sameMarks (by decide) (by simp)
  simpa [spaceCommas] using hrun

/-- **The semicolons pass keeps the marks.** -/
lemma sameMarks_joinSemicolons (text : List Char) : SameMarks text (joinSemicolons text) := by
  have hrun := (run_placeSemicolon [] (label text)).sameMarks (by decide) (by simp)
  simpa [joinSemicolons] using hrun

/-! ## Braces -/

/-- The line feed that has been crossed in the gap behind an opening brace. -/
def crossedFeed (gap : Option Bool) : List Char := if gap = some true then ['\n'] else []

/-- A closing brace starts its line. -/
lemma sameMarks_placeCell (out : List Cell) (cell : Cell) :
    SameMarks (chars (out.reverse ++ [cell])) (chars (placeCell out cell).reverse) := by
  rw [placeCell]
  split
  · next hbrace =>
      obtain rfl := isCode_iff.1 hbrace
      obtain ⟨w, hout, hw⟩ := exists_dropWhile (fun cell : Cell => isSpace cell.char) out
      have hspace : '/' ∉ chars w.reverse := slash_notMem_of_space (by simpa [chars] using hw)
      rw [closeBrace]
      generalize (out.dropWhile fun cell => isSpace cell.char) = kept at hout
      subst hout
      cases kept with
      | nil =>
          have hbrace : SameMarks (chars w.reverse ++ (['\x7d'] ++ [])) ([] ++ (['\x7d'] ++ [])) :=
            .around hspace (by decide) (by simp) (by simp) (by simp)
          simpa using hbrace
      | cons last kept =>
          have hbrace : SameMarks (chars w.reverse ++ (['\x7d'] ++ [])) (['\n'] ++ (['\x7d'] ++ [])) :=
            .around hspace (by decide) (by simp) (by decide) (by simp)
          simpa using hbrace.splice (chars (last :: kept).reverse) []
  · simpa using SameMarks.refl _

lemma isSpace_crossedFeed (gap : Option Bool) : ∀ c ∈ crossedFeed gap, isSpace c = true := by
  rw [crossedFeed]
  split <;> decide

/-- Only an opening brace opens a gap, and no line has been crossed then. -/
lemma gapAfter_cases (cell : Cell) : gapAfter cell = none ∨ gapAfter cell = some false ∧ cell = .code '\x7b' := by
  rw [gapAfter]
  split
  · next hbrace => exact .inr ⟨rfl, isCode_iff.1 hbrace⟩
  · exact .inl rfl

lemma crossedFeed_gapAfter (cell : Cell) : crossedFeed (gapAfter cell) = [] := by
  rcases gapAfter_cases cell with h | ⟨h, -⟩ <;> rw [h] <;> rfl

/-- White space in the gap goes, and only whether a line has been crossed is remembered. -/
lemma sameMarks_crossed {c : Char} (hc : isSpace c = true) (crossed : Bool) :
    SameMarks ('\x7b' :: (crossedFeed (some crossed) ++ [c]))
      ('\x7b' :: crossedFeed (some (crossed || c == '\n'))) := by
  have hslash {w : List Char} (hw : ∀ c ∈ w, isSpace c = true) : '/' ∉ '\x7b' :: w :=
    List.not_mem_cons_of_ne_of_not_mem (by decide) (slash_notMem_of_space hw)
  have hbefore := hslash (List.forall_mem_append.2
    ⟨isSpace_crossedFeed (some crossed), List.forall_mem_singleton.2 hc⟩)
  have hafter := hslash (isSpace_crossedFeed (some (crossed || c == '\n')))
  refine ⟨fun _ => rfl, fun _ _ => ?_, fun fresh => ?_⟩
  · rw [slashMarks_of_notMem hbefore, slashMarks_of_notMem hafter]
  · have hbrace : staysFresh fresh '\x7b' = false := by simp [staysFresh, isSpace]
    rw [List.foldl_cons, List.foldl_cons, hbrace]
    cases crossed with
    | true => simp [crossedFeed, staysFresh, hc]
    | false =>
        by_cases hfeed : c = '\n'
        · simp [crossedFeed, staysFresh, hfeed]
        · simp [crossedFeed, staysFresh, hfeed]

/-- What stands between an opening brace and a slash: a space keeps a line comment where it is. -/
lemma slashMarks_gapBreak (crossed : Bool) {cell : Cell} (hcell : cell.char = '/') (rest : List Cell) :
    slashMarks false ((gapBreak crossed cell rest.head?).char :: cell.char :: chars rest) none
      = slashMarks false (crossedFeed (some crossed) ++ cell.char :: chars rest) none := by
  have hnext : (rest.head?.any (·.char == '/')) = ((chars rest).head?.or none == some '/') := by
    cases rest with
    | nil => rfl
    | cons next rest => simp
  rw [gapBreak, hnext, hcell]
  cases crossed with
  | true => simp [crossedFeed]
  | false =>
      cases hslash : ((chars rest).head?.or none == some '/') with
      | true => simp [crossedFeed, slashMarks, staysFresh, isSpace]
      | false =>
          rw [Option.or_none] at hslash
          simp [crossedFeed, slashMarks, staysFresh, isSpace, hslash]

/-- **What has been written, the line feed that was crossed and what is still to be read** have the marks
of what the pass gives. -/
lemma slashMarks_bracesFrom (out : List Cell) (gap : Option Bool) (rest : List Cell)
    (hgap : gap.isSome = true → out.head? = some (.code '\x7b')) :
    slashMarks true (chars (bracesFrom out gap rest)) none
      = slashMarks true (chars out.reverse ++ (crossedFeed gap ++ chars rest)) none := by
  fun_induction bracesFrom out gap rest with
  | case1 out gap =>
      have hspace := isSpace_crossedFeed gap
      have hhead : ((crossedFeed gap).head?.or none == some '/') = (none == some '/') := by
        rw [crossedFeed]
        split <;> rfl
      rw [chars_nil, List.append_nil, slashMarks_append, slashMarks_of_notMem (slash_notMem_of_space hspace),
        List.append_nil, slashMarks_congr hhead]
  | case2 out cell rest ih =>
      have hhead : (gapAfter cell).isSome = true → (placeCell out cell).head? = some (.code '\x7b') := by
        rcases gapAfter_cases cell with h | ⟨-, rfl⟩
        · simp [h]
        · intro _
          rfl
      have hplace := (sameMarks_placeCell out cell).append (.refl (chars rest))
      rw [ih hhead, crossedFeed_gapAfter, List.nil_append, hplace.marks]
      simp [crossedFeed]
  | case3 out crossed cell rest hspace ih =>
      obtain ⟨tail, rfl⟩ := List.head?_eq_some_iff.1 (hgap rfl)
      have hcrossed := (sameMarks_crossed hspace crossed).splice (chars tail.reverse) (chars rest)
      rw [ih fun _ => rfl]
      simpa using hcrossed.marks true none
  | case4 out crossed cell rest _ hbrace ih =>
      obtain rfl := isCode_iff.1 hbrace
      have hclose : SameMarks (crossedFeed (some crossed) ++ ['\x7d']) ([] ++ ['\x7d']) :=
        .before (isSpace_crossedFeed _) (by simp) (by decide)
      have hspliced := hclose.splice (chars out.reverse) (chars rest)
      rw [ih (by simp)]
      simpa [crossedFeed] using hspliced.marks true none
  | case5 out crossed cell rest hspace _ ih =>
      have hhead : (gapAfter cell).isSome = true →
          (cell :: gapBreak crossed cell rest.head? :: out).head? = some (.code '\x7b') := by
        rcases gapAfter_cases cell with h | ⟨-, rfl⟩
        · simp [h]
        · intro _
          rfl
      rw [ih hhead, crossedFeed_gapAfter]
      by_cases hslash : cell.char = '/'
      · obtain ⟨tail, rfl⟩ := List.head?_eq_some_iff.1 (hgap rfl)
        have hbrace (text : List Char) : slashMarks true (chars (Cell.code '\x7b' :: tail).reverse ++ text) none
            = slashMarks true (chars tail.reverse) (some '\x7b') ++ slashMarks false text none := by
          rw [List.reverse_cons, chars_append, List.append_assoc, slashMarks_append]
          simp [slashMarks, staysFresh, isSpace]
        have hgapBreak := slashMarks_gapBreak crossed hslash rest
        rw [hbrace, chars_cons, ← hgapBreak, ← hbrace]
        simp
      · have hspace' : ∀ c ∈ [(gapBreak crossed cell rest.head?).char], isSpace c = true := by
          rw [List.forall_mem_singleton, gapBreak]
          split <;> decide
        have hsign : IsSign [cell.char] := ⟨by simp, by simpa [hslash] using hspace⟩
        have hbreak := (SameMarks.before (isSpace_crossedFeed (some crossed)) hspace' hsign).splice
          (chars out.reverse) (chars rest)
        simpa using hbreak.marks true none

lemma slashMarks_breakBraces (text : List Char) :
    slashMarks true (breakBraces text) none = slashMarks true text none := by
  rw [breakBraces, slashMarks_bracesFrom [] none (label text) (by simp)]
  simp [crossedFeed]

/-! ## Remarks -/

section Remarks

variable {text : List Char}

/-- What is outside code is neither white space nor a semicolon of code, and no more is a slash. -/
lemma isFirm_of_isTalk {cell : Cell} (h : isTalk cell = true) : isFirm cell = true := by
  rw [isTalk, Bool.or_eq_true, bne_iff_ne, beq_iff_eq] at h
  rcases h with hkind | hslash
  · exact semicolon_mark.firm cell hkind
  · simp [isFirm, isSolid, Cell.isCode, hslash, isSpace]

lemma isSolid_of_isTalk {cell : Cell} (h : isTalk cell = true) : isSolid cell = true :=
  semicolon_mark.solid cell (isFirm_of_isTalk h)

/-- **The braces pass keeps the remarks**, if no line comment ends in white space. -/
lemma remarks_breakBraces (h : CommentsTrimmed text) : remarks (breakBraces text) = remarks text :=
  remarks_of_sameTrail ((sameTrail_breakBraces h).narrow fun _ => isSolid_of_isTalk)
    (slashMarks_breakBraces text)

/-- **The commas pass keeps the remarks**, if every line comment is seen. -/
lemma remarks_spaceCommas (hseen : CommentsSeen ',' text) : remarks (spaceCommas text) = remarks text :=
  remarks_of_sameTrail ((sameTrail_spaceCommas hseen).narrow fun _ => isSolid_of_isTalk)
    ((sameMarks_spaceCommas text).marks true none)

/-- **The operators pass keeps the remarks.** -/
lemma remarks_spaceOperators (text : List Char) : remarks (spaceOperators text) = remarks text :=
  remarks_of_sameTrail ((sameTrail_spaceOperators text).narrow fun _ => isSolid_of_isTalk)
    ((sameMarks_spaceOperators text).marks true none)

/-- **The headers pass keeps the remarks**, if every header is harmless and no condition of a loop begins
with a remark. -/
lemma remarks_spaceHeaders (hconditionals : HarmlessConditionals text)
    (hloops : HarmlessLoops (spaceAlternatives (spaceConditionals text)))
    (hclear : LoopsClear (spaceAlternatives (spaceConditionals text))) :
    remarks (spaceHeaders text) = remarks text :=
  remarks_of_sameTrail ((sameTrail_spaceHeaders hconditionals hloops).narrow fun _ => isSolid_of_isTalk)
    ((sameMarks_spaceHeaders hclear).marks true none)

/-- **The statements pass keeps the remarks**, if comments stay. -/
lemma remarks_splitStatements (hstay : commentsStay (label text) = true) :
    remarks (splitStatements text) = remarks text := by
  refine remarks_of_sameTrail ((sameTrail_splitStatements text).narrow fun _ => isSolid_of_isTalk) ?_
  have hdivision := division_segments semicolonFinder_fits (label text)
  rw [splitStatements, replaceFound_eq, (slashMarks_statements hdivision hstay).2, chars_label]

/-- **The semicolons pass keeps the remarks**, if every line comment is seen. -/
lemma remarks_joinSemicolons (hseen : CommentsSeen ';' text) :
    remarks (joinSemicolons text) = remarks text :=
  remarks_of_sameTrail ((sameTrail_joinSemicolons hseen).narrow fun _ => isFirm_of_isTalk)
    ((sameMarks_joinSemicolons text).marks true none)

/-- **The parentheses pass keeps the remarks.** -/
lemma remarks_trimParens (text : List Char) : remarks (trimParens text) = remarks text :=
  remarks_of_sameTrail ((sameTrail_trimParens text).narrow fun _ => isSolid_of_isTalk)
    ((sameMarks_trimParens text).marks true none)

end Remarks

end SqfLayout.Pass
