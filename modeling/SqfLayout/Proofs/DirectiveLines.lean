import SqfLayout.Directive
import SqfLayout.Proofs.EncodedLines
import SqfLayout.Proofs.Keywords
import SqfLayout.Proofs.LineEndings
import SqfLayout.Proofs.SpelledRemarks

/-!
# Directive lines

**Lines.**  A directive is a line that starts with a heading: two slashes and the mark, up to case and with
white space before each (`IsHeading`).  The rest of the line are its options (`directiveOptions?_eq_some_iff`).
So white space at the ends of a line does not matter, other case does not make or unmake a directive, and a
directive without its tabs is one as well.

**Files.**  The settings of a file are those of the first directive among its lines (`findDirective?_encode`),
whatever its line endings are (`findDirective?_restoreLineEndings`).
-/

namespace SqfLayout

open SqfLayout.Text SqfLayout.Scan SqfLayout.Pass

/-! ## Headings -/

/-- What holds of ASCII, the Kelvin sign and the long s holds of all characters that fold to ASCII. -/
lemma forall_foldCase {P : Char → Prop} (hascii : ∀ n < 128, P (Char.ofNat n)) (hkelvin : P kelvinSign)
    (hlong : P longS) {c : Char} (h : (foldCase c).toNat < 128) : P c := by
  rcases ascii_of_foldCase h with hc | rfl | rfl
  · exact forall_ascii hascii hc
  · exact hkelvin
  · exact hlong

lemma eq_slash_of_foldCase {c : Char} (h : foldCase c = '/') : c = '/' := by
  have hascii : (foldCase c).toNat < 128 := by
    rw [h]
    decide
  exact forall_foldCase (P := fun c => foldCase c = '/' → c = '/') (by decide +kernel) (by decide +kernel)
    (by decide +kernel) hascii h

lemma stripFolded?_eq_some_iff {folded text rest : List Char} :
    stripFolded? folded text = some rest ↔ ∃ taken, text = taken ++ rest ∧ taken.map foldCase = folded := by
  induction folded generalizing text with
  | nil => simp [stripFolded?]
  | cons c folded ih =>
      cases text with
      | nil =>
          simp only [stripFolded?, reduceCtorEq, false_iff]
          rintro ⟨taken, hnil, hfold⟩
          obtain ⟨rfl, rfl⟩ := List.append_eq_nil_iff.1 hnil.symm
          simp at hfold
      | cons d text =>
          rw [stripFolded?]
          constructor
          · intro h
            split at h
            · next hd =>
                obtain ⟨taken, rfl, rfl⟩ := ih.1 h
                exact ⟨d :: taken, rfl, by rw [List.map_cons, eq_of_beq hd]⟩
            · simp at h
          · rintro ⟨taken, htext, hfold⟩
            cases taken with
            | nil => simp at hfold
            | cons e taken =>
                obtain ⟨rfl, rfl⟩ := List.cons.inj htext
                obtain ⟨hd, hfold⟩ := List.cons.inj hfold
                rw [if_pos (by simpa using hd)]
                exact ih.2 ⟨taken, rfl, hfold⟩

/-- **What a directive begins with**: two slashes and the mark, with white space before each. -/
def IsHeading (front : List Char) : Prop :=
  ∃ lead gap mark, front = lead ++ '/' :: '/' :: (gap ++ mark) ∧ (∀ c ∈ lead, isSpace c = true)
    ∧ (∀ c ∈ gap, isSpace c = true) ∧ mark.map foldCase = directiveMark

/-- A mark has no white space and no signs. -/
lemma ink_of_mark {mark : List Char} (h : mark.map foldCase = directiveMark) :
    mark ≠ [] ∧ ∀ c ∈ mark, isSpace c = false ∧ c ∉ ['\'', '"', '*', '\t'] := by
  constructor
  · rintro rfl
    exact absurd h (by decide)
  · intro c hc
    have hmem : foldCase c ∈ directiveMark := h ▸ List.mem_map_of_mem hc
    have hascii : ∀ d ∈ directiveMark, d.toNat < 128 := by decide +kernel
    exact forall_foldCase
      (P := fun c => foldCase c ∈ directiveMark → isSpace c = false ∧ c ∉ ['\'', '"', '*', '\t'])
      (by decide +kernel) (by decide +kernel) (by decide +kernel) (hascii _ hmem) hmem

lemma trimStart_append {w body : List Char} (hw : ∀ c ∈ w, isSpace c = true)
    (hbody : ∀ c ∈ body.head?, isSpace c = false) : trimStart (w ++ body) = body := by
  rw [trimStart, List.dropWhile_append_of_pos hw, ← trimStart, trimStart_of_head hbody]

/-- **The options of a directive are what follows its heading.** -/
lemma directiveOptions?_eq_some_iff {line options : List Char} :
    directiveOptions? line = some options ↔
      ∃ front rest, line = front ++ rest ∧ IsHeading front ∧ trim rest = options ∧ '\n' ∉ options := by
  have hif (rest : List Char) : (if (trim rest).contains '\n' then none else some (trim rest)) = some options
      ↔ trim rest = options ∧ '\n' ∉ options := by
    split
    · next h =>
        simp only [reduceCtorEq, false_iff, not_and, not_not]
        rintro rfl
        simpa using h
    · next h =>
        simp only [Option.some.injEq]
        refine ⟨?_, fun h => h.1⟩
        rintro rfl
        exact ⟨rfl, by simpa using h⟩
  simp only [directiveOptions?, Option.bind_eq_bind, Option.bind_eq_some_iff, stripFolded?_eq_some_iff, hif]
  constructor
  · rintro ⟨comment, ⟨slashes, hline, hslashes⟩, rest, ⟨mark, hcomment, hmark⟩, hrest⟩
    obtain ⟨lead, hlead, hleadSpace⟩ := exists_dropWhile isSpace line
    obtain ⟨gap, hgap, hgapSpace⟩ := exists_dropWhile isSpace comment
    rw [← trimStart] at hlead hgap
    obtain rfl : slashes = ['/', '/'] := by
      obtain ⟨c, more, rfl, hc, hmore⟩ := List.map_eq_cons_iff.1 hslashes
      obtain ⟨d, more, rfl, hd, hmore⟩ := List.map_eq_cons_iff.1 hmore
      rw [List.map_eq_nil_iff.1 hmore, eq_slash_of_foldCase hc, eq_slash_of_foldCase hd]
    refine ⟨lead ++ '/' :: '/' :: (gap ++ mark), rest, ?_, ⟨lead, gap, mark, rfl, hleadSpace, hgapSpace, hmark⟩,
      hrest⟩
    rw [hlead, hline, hgap, hcomment]
    simp
  · rintro ⟨_, rest, rfl, ⟨lead, gap, mark, rfl, hlead, hgap, hmark⟩, hrest⟩
    have hhead : ∀ c ∈ (mark ++ rest).head?, isSpace c = false := by
      obtain ⟨hne, hink⟩ := ink_of_mark hmark
      rw [List.head?_append_of_ne_nil _ hne]
      exact fun c hc => (hink c (List.mem_of_mem_head? hc)).1
    refine ⟨gap ++ (mark ++ rest), ⟨['/', '/'], ?_, by decide +kernel⟩, rest, ⟨mark, ?_, hmark⟩, hrest⟩
    · rw [List.append_assoc, trimStart_append hlead (by simp +decide)]
      simp
    · exact trimStart_append hgap hhead

section Lines

variable {line front rest options : List Char}

/-- A heading ends in its mark. -/
lemma IsHeading.getLast? (h : IsHeading front) : ∀ c ∈ front.getLast?, isSpace c = false := by
  obtain ⟨lead, gap, mark, rfl, -, -, hmark⟩ := h
  obtain ⟨hne, hink⟩ := ink_of_mark hmark
  intro c hc
  have hlast : (lead ++ '/' :: '/' :: (gap ++ mark)).getLast? = mark.getLast? := by
    rw [← List.cons_append, ← List.cons_append, ← List.append_assoc, List.getLast?_append_of_ne_nil _ hne]
  rw [hlast] at hc
  exact (hink c (List.mem_of_getLast? hc)).1

/-- A heading has no sign that closes a literal or a block comment. -/
lemma IsHeading.notMem (h : IsHeading front) {c : Char} (hc : c ∈ ['\'', '"', '*']) : c ∉ front := by
  obtain ⟨lead, gap, mark, rfl, hlead, hgap, hmark⟩ := h
  have hspace {w : List Char} (hw : ∀ c ∈ w, isSpace c = true) : c ∉ w := by
    intro hmem
    have hnone : ∀ c ∈ ['\'', '"', '*'], isSpace c = false := by decide
    exact absurd (hw c hmem) (by simp [hnone c hc])
  have hslash : c ≠ '/' := by
    rintro rfl
    exact absurd hc (by decide)
  have hink : c ∉ mark := fun hmem =>
    ((ink_of_mark hmark).2 c hmem).2 (List.mem_of_mem_take (i := 3) hc)
  simp [hspace hlead, hspace hgap, hslash, hink]

/-- **White space at its end does not matter for a directive.** -/
lemma directiveOptions?_append_space (line : List Char) {w : List Char} (hw : ∀ c ∈ w, isSpace c = true) :
    directiveOptions? (line ++ w) = directiveOptions? line := by
  refine Option.ext fun options => ?_
  simp only [directiveOptions?_eq_some_iff]
  have htrim (rest : List Char) : trim (rest ++ w) = trim rest := by
    rw [trim, trimEnd_append_space rest hw, ← trim]
  constructor
  · rintro ⟨front, rest, hline, hfront, hoptions⟩
    rcases List.append_eq_append_iff.1 hline with ⟨more, rfl, rfl⟩ | ⟨more, rfl, rfl⟩
    · -- a heading does not end in white space
      cases more.eq_nil_or_concat with
      | inl hnil =>
          subst hnil
          have hnone : trim rest = trim [] := htrim []
          rw [hnone] at hoptions
          exact ⟨line, [], by simp, by simpa using hfront, hoptions⟩
      | inr hmore =>
          obtain ⟨init, last, rfl⟩ := hmore
          have hlast := hfront.getLast? last (by simp)
          simp [hw last (by simp)] at hlast
    · refine ⟨front, more, rfl, hfront, ?_⟩
      rwa [htrim] at hoptions
  · rintro ⟨front, rest, rfl, hfront, hoptions⟩
    exact ⟨front, rest ++ w, by simp, hfront, by rwa [htrim]⟩

lemma directiveOptions?_trimEnd (line : List Char) : directiveOptions? (trimEnd line) = directiveOptions? line := by
  obtain ⟨back, hline, hback⟩ := exists_trimEnd line
  conv_rhs => rw [hline, directiveOptions?_append_space _ hback]

lemma directiveOptions?_trimStart (line : List Char) :
    directiveOptions? (trimStart line) = directiveOptions? line := by
  rw [directiveOptions?, trimStart_of_head (head?_trimStart line), ← directiveOptions?]

/-- **Within a line the heading decides.** -/
lemma isDirective_iff (hfeed : '\n' ∉ line) :
    isDirective line = true ↔ ∃ front rest, line = front ++ rest ∧ IsHeading front := by
  rw [isDirective, Option.isSome_iff_exists]
  simp only [directiveOptions?_eq_some_iff]
  constructor
  · rintro ⟨-, front, rest, hline, hfront, -⟩
    exact ⟨front, rest, hline, hfront⟩
  · rintro ⟨front, rest, rfl, hfront⟩
    refine ⟨trim rest, front, rest, rfl, hfront, rfl, fun hmem => hfeed (List.mem_append_right _ ?_)⟩
    obtain ⟨before, after, hrest, -⟩ := exists_trim rest
    rw [hrest]
    simp [hmem]

/-- A directive begins with two slashes. -/
lemma isRemark_of_isDirective (h : isDirective line = true) : isRemark line = true := by
  obtain ⟨options, hoptions⟩ := Option.isSome_iff_exists.1 h
  obtain ⟨_, rest, rfl, ⟨lead, gap, mark, rfl, hlead, -⟩, -⟩ := directiveOptions?_eq_some_iff.1 hoptions
  rw [isRemark, List.append_assoc, trimStart_append hlead (by simp +decide)]
  rfl

/-- A heading is told by the folding of its characters and by its white space. -/
lemma IsHeading.congr {front front' : List Char} (h : IsHeading front)
    (hsame : front'.map (fun c => (foldCase c, isSpace c)) = front.map fun c => (foldCase c, isSpace c)) :
    IsHeading front' := by
  have hspace {w w' : List Char} (hw : ∀ c ∈ w, isSpace c = true)
      (hsame : w'.map (fun c => (foldCase c, isSpace c)) = w.map fun c => (foldCase c, isSpace c)) :
      ∀ c ∈ w', isSpace c = true := by
    intro c hc
    have hmem := List.mem_map_of_mem (f := fun c => (foldCase c, isSpace c)) hc
    rw [hsame] at hmem
    obtain ⟨d, hd, heq⟩ := List.mem_map.1 hmem
    rw [← (Prod.mk.inj heq).2, hw d hd]
  have hslash {c : Char} (hc : (foldCase c, isSpace c) = (foldCase '/', isSpace '/')) : c = '/' :=
    eq_slash_of_foldCase ((Prod.mk.inj hc).1.trans (by decide +kernel))
  obtain ⟨lead, gap, mark, rfl, hlead, hgap, hmark⟩ := h
  rw [List.map_append, List.map_cons, List.map_cons, List.map_append] at hsame
  obtain ⟨lead', behind, rfl, hlead', hbehind⟩ := List.map_eq_append_iff.1 hsame
  obtain ⟨c, behind, rfl, hc, hbehind⟩ := List.map_eq_cons_iff.1 hbehind
  obtain ⟨d, behind, rfl, hd, hbehind⟩ := List.map_eq_cons_iff.1 hbehind
  obtain ⟨gap', mark', rfl, hgap', hmark'⟩ := List.map_eq_append_iff.1 hbehind
  refine ⟨lead', gap', mark', by rw [hslash hc, hslash hd], hspace hlead hlead', hspace hgap hgap', ?_⟩
  have hfold := congrArg (List.map Prod.fst) hmark'
  simp only [List.map_map, Function.comp_def] at hfold
  rw [hfold, hmark]

/-- **Other case neither makes nor unmakes a directive.** -/
lemma isDirective_recased {a b : List Char} (h : List.Forall₂ Recased a b) (hfeed : '\n' ∉ a) :
    isDirective b = isDirective a := by
  have hsame : a.map (fun c => (foldCase c, isSpace c)) = b.map fun c => (foldCase c, isSpace c) :=
    map_eq_of_recased (fun h => by rw [h.foldCase_eq, h.isSpace_eq]) h
  have hheading {a b : List Char}
      (hsame : a.map (fun c => (foldCase c, isSpace c)) = b.map fun c => (foldCase c, isSpace c))
      (ha : ∃ front rest, a = front ++ rest ∧ IsHeading front) :
      ∃ front rest, b = front ++ rest ∧ IsHeading front := by
    obtain ⟨front, rest, rfl, hfront⟩ := ha
    rw [List.map_append] at hsame
    obtain ⟨front', rest', rfl, hfront', -⟩ := List.map_eq_append_iff.1 hsame.symm
    exact ⟨front', rest', rfl, hfront.congr hfront'⟩
  rw [Bool.eq_iff_iff, isDirective_iff hfeed, isDirective_iff (notMem_recased (by decide) h hfeed)]
  exact ⟨hheading hsame.symm, hheading hsame⟩

/-- **A directive without its tabs is a directive.** -/
lemma isDirective_filter_tab (hfeed : '\n' ∉ line) (h : isDirective line = true) :
    isDirective (line.filter (· != '\t')) = true := by
  obtain ⟨front, rest, rfl, lead, gap, mark, rfl, hlead, hgap, hmark⟩ := (isDirective_iff hfeed).1 h
  have hkept : mark.filter (· != '\t') = mark := by
    refine List.filter_eq_self.2 fun c hc => ?_
    have htab := ((ink_of_mark hmark).2 c hc).2
    simp only [List.mem_cons, not_or] at htab
    simpa using htab.2.2.2.1
  have hspace {w : List Char} (hw : ∀ c ∈ w, isSpace c = true) : ∀ c ∈ w.filter (· != '\t'), isSpace c = true :=
    fun c hc => hw c (List.mem_of_mem_filter hc)
  refine (isDirective_iff fun hmem => hfeed (List.mem_of_mem_filter hmem)).2
    ⟨lead.filter (· != '\t') ++ '/' :: '/' :: (gap.filter (· != '\t') ++ mark), rest.filter (· != '\t'), ?_,
      _, _, mark, rfl, hspace hlead, hspace hgap, hmark⟩
  simp [hkept]

end Lines

/-! ## Remarks -/

section Remarks

variable {mode : Mode} {line : List Char}

/-- No mark that a heading lacks ends before the heading does. -/
lemma through_heading {front mark : List Char} {c : Char} (hmark : mark.head? = some c) (hc : c ∉ front)
    (rest : List Char) : through mark (front ++ rest) = front ++ through mark rest := by
  induction front with
  | nil => rfl
  | cons d front ih =>
      obtain ⟨hd, hfront⟩ := List.ne_and_not_mem_of_not_mem_cons hc
      obtain ⟨mark, rfl⟩ := List.head?_eq_some_iff.1 hmark
      have hnot : (c :: mark).isPrefixOf (d :: (front ++ rest)) = false := by
        simp [List.isPrefixOf, hd]
      rw [List.cons_append, through, if_neg (by simp [hnot]), ih hfront, List.cons_append]

lemma isDirective_through {body mark : List Char} {c : Char} (hmark : mark.head? = some c)
    (hc : c ∈ ['\'', '"', '*']) (hfeed : '\n' ∉ body) : isDirective (through mark body) = isDirective body := by
  have hstarts := through_isPrefix mark body
  have hnone : '\n' ∉ through mark body := fun hmem => hfeed (hstarts.subset hmem)
  rw [Bool.eq_iff_iff, isDirective_iff hnone, isDirective_iff hfeed]
  constructor
  · rintro ⟨front, rest, hbody, hfront⟩
    obtain ⟨behind, hbehind⟩ := hstarts
    exact ⟨front, rest ++ behind, by rw [← hbehind, hbody, List.append_assoc], hfront⟩
  · rintro ⟨front, rest, rfl, hfront⟩
    exact ⟨front, through mark rest, through_heading hmark (hfront.notMem hc) rest, hfront⟩

/-- **A line is a directive if its remark is one.** -/
lemma isDirective_within (mode : Mode) {body : List Char} (hfeed : '\n' ∉ body) :
    isDirective (within mode body) = isDirective body := by
  cases mode with
  | single => exact isDirective_through rfl (by decide) hfeed
  | double => exact isDirective_through rfl (by decide) hfeed
  | block => exact isDirective_through rfl (by decide) hfeed
  | code => rfl
  | line => rfl

lemma head?_through {mark : List Char} (hmark : mark ≠ []) (text : List Char) :
    (through mark text).head? = text.head? := by
  cases text with
  | nil => rfl
  | cons c rest =>
      rw [through]
      split
      · next hstarts =>
          obtain ⟨first, mark, rfl⟩ := List.exists_cons_of_ne_nil hmark
          obtain ⟨behind, hbehind⟩ := List.isPrefixOf_iff_prefix.1 hstarts
          rw [← hbehind]
          rfl
      · rfl

/-- A literal that ends before the text does is closed. -/
lemma modeAfter_through_quoted {quote : Char}
    (hstep : ∀ c next, step (.ready mode) c next = (.literal, .ready (if c = quote then .code else mode)))
    {text : List Char} (h : through [quote] text ≠ text) : modeAfter mode (through [quote] text) = .code := by
  induction text with
  | nil => exact absurd rfl h
  | cons c rest ih =>
      rw [through_quoted_cons] at h ⊢
      rw [modeAfter, cursorAfter, hstep]
      split
      · rfl
      · next hc =>
          rw [if_neg hc] at h
          exact ih fun hall => h (by rw [hall])

/-- So is a block comment. -/
lemma modeAfter_through_block {text : List Char} (h : through ['*', '/'] text ≠ text) :
    modeAfter .block (through ['*', '/'] text) = .code := by
  induction text with
  | nil => exact absurd rfl h
  | cons c rest ih =>
      rw [through] at h ⊢
      split
      · rfl
      · next hstarts =>
          rw [if_neg hstarts] at h
          have hstep : step (.ready .block) c (through ['*', '/'] rest).head? = (.comment, .ready .block) := by
            rw [head?_through (by simp)]
            have hclose : ¬(c = '*' ∧ rest.head? = some '/') := by
              rintro ⟨rfl, hslash⟩
              obtain ⟨rest, rfl⟩ := List.head?_eq_some_iff.1 hslash
              exact hstarts rfl
            simpa [step] using fun hstar hslash => hclose ⟨hstar, hslash⟩
          rw [modeAfter, cursorAfter, hstep]
          exact ih fun hall => h (by rw [hall])

/-- **What is not closed reaches to the end of the text.** -/
lemma within_eq_self {body : List Char} (h : modeAfter mode (within mode body) ≠ .code) :
    within mode body = body := by
  by_contra hall
  cases mode with
  | single => exact h (modeAfter_through_quoted (by simp [step]) hall)
  | double => exact h (modeAfter_through_quoted (by simp [step]) hall)
  | block => exact h (modeAfter_through_block hall)
  | code => exact hall rfl
  | line => exact hall rfl

/-- **A line and its remark choose the same settings**, if the line does not end the literal or the comment
in which it starts. -/
lemma directive_of_remark? {r : Remark} (hr : remark? mode line = some r) (hfeed : '\n' ∉ line) :
    isDirective r.text = isDirective line
      ∧ (modeAfter r.mode r.text ≠ .code → readDirective? r.text = readDirective? line) := by
  rw [remark?] at hr
  split at hr
  · obtain rfl := Option.some.inj hr
    have hbody : '\n' ∉ trimStart line := fun hmem => hfeed ((List.dropWhile_sublist isSpace).subset hmem)
    have hwithin : '\n' ∉ within mode (trimStart line) := fun hmem =>
      hbody ((within_isPrefix mode _).subset hmem)
    constructor
    · rw [isDirective, directiveOptions?_trimEnd, ← isDirective, isDirective_within mode hbody, isDirective,
        directiveOptions?_trimStart, ← isDirective]
    · intro hopen
      rw [modeAfter_trimEnd mode hwithin] at hopen
      rw [readDirective?, directiveOptions?_trimEnd, within_eq_self hopen, directiveOptions?_trimStart,
        ← readDirective?]
  · simp at hr

end Remarks

/-! ## Files -/

/-- **The settings of the first directive among lines.** -/
def directiveAmong? (ls : List (List Char)) : Option Overrides := (ls.find? isDirective).bind readDirective?

lemma findDirectiveIn?_encode (ls : List (List Char)) :
    findDirectiveIn? (ls.map encode) = directiveAmong? ls := by
  induction ls with
  | nil => rfl
  | cons line ls ih =>
      rw [List.map_cons, findDirectiveIn?, decode_encode]
      simp only [directiveAmong?, List.find?_cons]
      cases hline : isDirective line with
      | true => rfl
      | false => exact ih

/-- White space at the ends of lines does not matter. -/
lemma directiveAmong?_map_trimEnd (ls : List (List Char)) :
    directiveAmong? (ls.map trimEnd) = directiveAmong? ls := by
  induction ls with
  | nil => rfl
  | cons line ls ih =>
      simp only [directiveAmong?] at ih ⊢
      rw [List.map_cons, List.find?_cons, List.find?_cons, isDirective, directiveOptions?_trimEnd, ← isDirective]
      cases isDirective line with
      | true => exact congrArg (·.bind readDirectiveOptions?) (directiveOptions?_trimEnd line)
      | false => exact ih

lemma directiveAmong?_congr {ls ls' : List (List Char)} (h : ls.map trimEnd = ls'.map trimEnd) :
    directiveAmong? ls = directiveAmong? ls' := by
  rw [← directiveAmong?_map_trimEnd, h, directiveAmong?_map_trimEnd]

lemma directiveAmong?_append_empty (ls : List (List Char)) :
    directiveAmong? (ls ++ [[]]) = directiveAmong? ls := by
  have hempty : [[]].find? isDirective = none := rfl
  rw [directiveAmong?, List.find?_append, hempty, Option.or_none, ← directiveAmong?]

lemma splitAfter_rows {ls : List (List Char)} (hls : ∀ line ∈ ls, '\n' ∉ line) (text : List Char) :
    splitAfter (· == '\n') (rows ls ++ text) = ls.map (· ++ ['\n']) ++ splitAfter (· == '\n') text := by
  induction ls with
  | nil => rfl
  | cons line ls ih =>
      obtain ⟨hline, hls⟩ := List.forall_mem_cons.1 hls
      have hfeed : splitAfter (· == '\n') ('\n' :: (rows ls ++ text))
          = ['\n'] :: splitAfter (· == '\n') (rows ls ++ text) := rfl
      rw [rows_cons, List.append_assoc, List.cons_append, List.map_cons, List.cons_append, ← ih hls]
      by_cases hnil : line = []
      · subst hnil
        exact hfeed
      · rw [splitAfter_append hnil (by simpa using fun c hc => ne_of_mem_of_not_mem hc hline), hfeed]

/-- **The settings of a file are those of the first directive among its lines.** -/
lemma findDirective?_encode (text : List Char) : findDirective? (encode text) = directiveAmong? (lines text) := by
  rw [findDirective?, splitAfter_encode, findDirectiveIn?_encode]
  obtain ⟨init, last, rfl, hinit, hlast⟩ := exists_rows_append text
  have hfeed (line : List Char) : trimEnd (line ++ ['\n']) = trimEnd line :=
    trimEnd_append_space line (by decide)
  rw [lines_rows_append hinit hlast, splitAfter_rows hinit]
  by_cases hnil : last = []
  · subst hnil
    rw [directiveAmong?_append_empty]
    exact directiveAmong?_congr (by simp [splitAfter, hfeed])
  · have hother : ∀ c ∈ last, (c == '\n') = false := by
      simpa using fun c hc => ne_of_mem_of_not_mem hc hlast
    have hpiece : splitAfter (· == '\n') last = [last] := by
      have hsplit := splitAfter_append hnil hother []
      rwa [List.append_nil] at hsplit
    rw [hpiece]
    exact directiveAmong?_congr (by simp [hfeed])

lemma directiveAmong?_final_break (text : List Char) {w : List Char} (hw : ∀ c ∈ w, isSpace c = true)
    (hfeed : '\n' ∉ w) : directiveAmong? (lines (text ++ (w ++ ['\n']))) = directiveAmong? (lines text) := by
  obtain ⟨init, last, rfl, hinit, hlast⟩ := exists_rows_append text
  have hend : '\n' ∉ last ++ w := by simp [hlast, hfeed]
  rw [← List.append_assoc, lines_append_feed, List.append_assoc, lines_rows_append hinit hend,
    lines_rows_append hinit hlast]
  refine (directiveAmong?_append_empty _).trans (directiveAmong?_congr ?_)
  simp [trimEnd_append_space last hw]

/-- **Line endings do not matter for the settings of a file.** -/
lemma findDirective?_restoreLineEndings (source formatted : List Char) :
    findDirective? (encode (restoreLineEndings source formatted)) = findDirective? (encode formatted) := by
  have hbreaks : directiveAmong? (lines (withLineEndingsOf source formatted))
      = directiveAmong? (lines formatted) := by
    rw [withLineEndingsOf]
    split
    · exact directiveAmong?_congr (by rw [lines_toCrlf, map_trimEnd_crlfLines])
    · rfl
  rw [findDirective?_encode, findDirective?_encode, ← hbreaks, restoreLineEndings]
  split
  · rfl
  · split
    · exact directiveAmong?_final_break _ (w := ['\r']) (by decide) (by decide)
    · split
      · exact directiveAmong?_final_break _ (w := []) (by decide) (by decide)
      · rfl

end SqfLayout
