import SqfLayout.Proofs.Headers
import SqfLayout.Proofs.Pipeline
import SqfLayout.Proofs.Spelling

/-!
# White space at the ends of lines

The margins pass takes the white space off the ends of lines, and no pass behind it puts any there.

**Clean ends.**  `CleanEnds text follow` says so of a text that the given character follows: white space
other than a line feed has something other than a line feed behind it.  Such texts are put together from
parts (`cleanEnds_append`), and it is a matter of the lines of a text (`cleanEnds_iff`).

**Replaced occurrences.**  A pass that replaces occurrences is followed from the right end of the text to
the left (`cleanEnds_replaceFound`): what it makes of the rest of the text is clean, and ends a line at
once only where the rest did (`EndsKept`).

**All passes.**  `cleanEnds_textBefore` says that the text that reaches the indenter is clean.
-/

namespace SqfLayout.Pass

open SqfLayout.Text SqfLayout.Scan

/-! ## Clean ends -/

/-- Whether a line ends before the given character: at a line feed, and at the end of the text. -/
def endsLine (next : Option Char) : Bool := next.all (· == '\n')

/-- **A text no line of which ends in white space**, if the given character follows. -/
def CleanEnds : List Char → Option Char → Prop
  | [], _ => True
  | c :: rest, follow =>
    (isSpace c = true → c ≠ '\n' → endsLine (rest.head?.or follow) = false) ∧ CleanEnds rest follow

section CleanEnds

variable {a b : List Char} {c : Char} {follow follow' : Option Char}

lemma endsLine_some : endsLine (some c) = false ↔ c ≠ '\n' := by simp [endsLine]

lemma cleanEnds_append :
    CleanEnds (a ++ b) follow ↔ CleanEnds a (b.head?.or follow) ∧ CleanEnds b follow := by
  induction a with
  | nil => simp [CleanEnds]
  | cons c a ih => simp only [List.cons_append, CleanEnds, ih, List.head?_append, Option.or_assoc, and_assoc]

/-- Characters that are no white space may stand anywhere. -/
lemma cleanEnds_cons_of_ink (hc : isSpace c = false) : CleanEnds (c :: a) follow ↔ CleanEnds a follow := by
  simp [CleanEnds, hc]

lemma cleanEnds_cons_feed : CleanEnds ('\n' :: a) follow ↔ CleanEnds a follow := by
  simp [CleanEnds]

/-- A space stands before a character that ends no line. -/
lemma cleanEnds_cons_space (h : endsLine (a.head?.or follow) = false) :
    CleanEnds (' ' :: a) follow ↔ CleanEnds a follow := by
  simp [CleanEnds, h]

lemma cleanEnds_of_ink (ha : ∀ c ∈ a, isSpace c = false) : CleanEnds a follow := by
  induction a with
  | nil => trivial
  | cons c a ih =>
      obtain ⟨hc, ha⟩ := List.forall_mem_cons.1 ha
      exact (cleanEnds_cons_of_ink hc).2 (ih ha)

/-- A clean text stays clean before a character that ends no line if the one before did not. -/
lemma CleanEnds.imp (h : CleanEnds a follow) (hfollow : endsLine follow' = true → endsLine follow = true) :
    CleanEnds a follow' := by
  induction a with
  | nil => trivial
  | cons c a ih =>
      refine ⟨fun hc hfeed => ?_, ih h.2⟩
      have hnext := h.1 hc hfeed
      cases a with
      | nil => exact Bool.eq_false_iff.2 fun hend => by simp [hfollow hend] at hnext
      | cons d a => exact hnext

/-- A text that does not end in white space may stand before anything. -/
lemma CleanEnds.of_last (h : CleanEnds a follow) (hlast : ∀ c ∈ a.getLast?, isSpace c = false) :
    CleanEnds a follow' := by
  induction a with
  | nil => trivial
  | cons c a ih =>
      cases a with
      | nil => exact (cleanEnds_cons_of_ink (hlast c rfl)).2 trivial
      | cons d a => exact ⟨h.1, ih h.2 (by simpa [List.getLast?_cons_cons] using hlast)⟩

/-- A line is clean if it does not end in white space. -/
lemma cleanEnds_line (hfollow : endsLine follow = true) (hfeed : '\n' ∉ a) :
    CleanEnds a follow ↔ ∀ c ∈ a.getLast?, isSpace c = false := by
  induction a with
  | nil => simp [CleanEnds]
  | cons c a ih =>
      obtain ⟨hc, hfeed⟩ := List.ne_and_not_mem_of_not_mem_cons hfeed
      cases a with
      | nil => simp [CleanEnds, hfollow, Ne.symm hc]
      | cons d a =>
          have hd : endsLine (some d) = false := endsLine_some.2 fun heq => hfeed (by simp [heq])
          rw [List.getLast?_cons_cons, ← ih hfeed, CleanEnds, List.head?_cons, Option.some_or, hd]
          simp

end CleanEnds

lemma cleanEnds_unlines {ls : List (List Char)} (hls : ∀ line ∈ ls, '\n' ∉ line) :
    CleanEnds (unlines ls) none ↔ ∀ line ∈ ls, ∀ c ∈ line.getLast?, isSpace c = false := by
  induction ls with
  | nil => simp [unlines, joinWith, CleanEnds]
  | cons line rest ih =>
      obtain ⟨hline, hrest⟩ := List.forall_mem_cons.1 hls
      have hclean {follow : Option Char} (hfollow : endsLine follow = true) :=
        cleanEnds_line hfollow hline
      cases rest with
      | nil =>
          rw [List.forall_mem_singleton]
          exact hclean rfl
      | cons next rest =>
          have htext : unlines (line :: next :: rest) = line ++ '\n' :: unlines (next :: rest) := rfl
          rw [htext, cleanEnds_append, cleanEnds_cons_feed, ih hrest, hclean rfl,
            List.forall_mem_cons (l := next :: rest)]

/-- **A text is clean if none of its lines ends in white space.** -/
lemma cleanEnds_iff (text : List Char) :
    CleanEnds text none ↔ ∀ line ∈ lines text, ∀ c ∈ line.getLast?, isSpace c = false := by
  have hfeeds : ∀ line ∈ lines text, '\n' ∉ line := fun _ => feed_notMem_of_mem_lines
  have hunlines := cleanEnds_unlines hfeeds
  rwa [unlines_lines] at hunlines

lemma cleanEnds_stripMargins (text : List Char) : CleanEnds (stripMargins text) none := by
  refine (cleanEnds_iff _).2 fun line hline => ?_
  rw [lines_stripMargins] at hline
  obtain ⟨source, -, hstripped⟩ := exists_stripped (forall₂_stripRows none .code (lines text)) hline
  exact hstripped.last

/-! ## Replaced occurrences -/

/-- **A clean text in place of another**: it ends a line at once only where the other did. -/
structure EndsKept (follow : Option Char) (a b : List Char) : Prop where
  clean : CleanEnds b follow
  head : endsLine (b.head?.or follow) = true → endsLine (a.head?.or follow) = true

section EndsKept

variable {follow : Option Char} {a b taken : List Char}

/-- Parts may be exchanged one by one. -/
lemma EndsKept.append {c d : List Char} (hab : EndsKept (c.head?.or follow) a b) (hcd : EndsKept follow c d) :
    EndsKept follow (a ++ c) (b ++ d) := by
  refine ⟨cleanEnds_append.2 ⟨hab.clean.imp hcd.head, hcd.clean⟩, fun hend => ?_⟩
  rw [List.head?_append, Option.or_assoc] at hend ⊢
  refine hab.head ?_
  cases b with
  | nil => exact hcd.head hend
  | cons x b => exact hend

/-- What stands before the two texts may stay. -/
lemma EndsKept.behind (h : EndsKept follow a b) (htaken : CleanEnds (taken ++ a) follow) :
    EndsKept follow (taken ++ a) (taken ++ b) :=
  EndsKept.append ⟨(cleanEnds_append.1 htaken).1, id⟩ h

/-- What starts with a character that ends no line may take the place of anything. -/
lemma EndsKept.of_head {c : Char} (hc : c ≠ '\n') (hclean : CleanEnds (c :: b) follow) :
    EndsKept follow a (c :: b) :=
  ⟨hclean, fun hend => by simp [endsLine_some.2 hc] at hend⟩

/-- So may a word before a clean text, with or without a space in front. -/
lemma EndsKept.of_word {word : List Char} (hne : word ≠ []) (hword : ∀ c ∈ word, isSpace c = false)
    (hb : CleanEnds b follow) :
    EndsKept follow a (word ++ b) ∧ EndsKept follow a (' ' :: (word ++ b)) := by
  have hclean : CleanEnds (word ++ b) follow := cleanEnds_append.2 ⟨cleanEnds_of_ink hword, hb⟩
  obtain ⟨c, word, rfl⟩ := List.exists_cons_of_ne_nil hne
  have hc : c ≠ '\n' := by
    rintro rfl
    exact absurd (hword '\n' List.mem_cons_self) (by decide)
  have hnext : endsLine (((c :: word) ++ b).head?.or follow) = false := endsLine_some.2 hc
  exact ⟨.of_head hc hclean, .of_head (by decide) ((cleanEnds_cons_space hnext).2 hclean)⟩

end EndsKept

/-- **Occurrences replaced from the right end of a text to the left.** -/
lemma endsKept_replaceFound {α : Type} {find : Finder α} (hfind : find.Fits)
    {replace : List Cell → α → List Cell} {follow : Option Char}
    (found : ∀ before taken rest what, find before (taken ++ rest) = some (taken.length, what) →
      CleanEnds (chars taken ++ chars rest) follow → ∀ out, EndsKept follow (chars rest) out →
      EndsKept follow (chars taken ++ chars rest) (chars (replace taken what) ++ out))
    (cells : List Cell) (h : CleanEnds (chars cells) follow) :
    EndsKept follow (chars cells) (chars (replaceFound find replace cells)) := by
  rw [replaceFound_eq]
  have hdivision := division_segments hfind cells
  generalize (none : Option Char) = before, segments find cells = segs at hdivision ⊢
  induction hdivision with
  | done => exact ⟨trivial, id⟩
  | @plain before cell rest segs _ _ ih =>
      have hrest : CleanEnds ([cell.char] ++ chars rest) follow := h
      rw [List.flatMap_cons, chars_append]
      exact (ih h.2).behind hrest
  | @found before taken rest what segs hfound _ _ ih =>
      rw [chars_append] at h ⊢
      rw [List.flatMap_cons, chars_append]
      exact found before taken rest what hfound h _ (ih (cleanEnds_append.1 h).2)

lemma cleanEnds_replaceFound {α : Type} {find : Finder α} (hfind : find.Fits)
    {replace : List Cell → α → List Cell}
    (found : ∀ before taken rest what, find before (taken ++ rest) = some (taken.length, what) →
      CleanEnds (chars taken ++ chars rest) none → ∀ out, EndsKept none (chars rest) out →
      EndsKept none (chars taken ++ chars rest) (chars (replace taken what) ++ out))
    {text : List Char} (h : CleanEnds text none) :
    CleanEnds (chars (replaceFound find replace (label text))) none :=
  (endsKept_replaceFound hfind found (label text) (by rwa [chars_label])).clean

/-! ## Parentheses, statements and operators -/

lemma cleanEnds_trimParens {text : List Char} (h : CleanEnds text none) :
    CleanEnds (trimParens text) none := by
  refine cleanEnds_replaceFound parenFinder_fits (fun before taken rest paren hfound _ out hout => ?_) h
  have hparen {c : Char} (hc : isSpace c = false) (hfeed : c ≠ '\n') :
      EndsKept none (chars taken ++ chars rest) (c :: out) :=
    .of_head hfeed ((cleanEnds_cons_of_ink hc).2 hout.clean)
  obtain ⟨blanks, -, ⟨rfl, -⟩ | ⟨rfl, -⟩⟩ := parenFinder_taken hfound
  · exact hparen (by decide) (by decide)
  · exact hparen (by decide) (by decide)

lemma cleanEnds_splitStatements {text : List Char} (h : CleanEnds text none) :
    CleanEnds (splitStatements text) none := by
  refine cleanEnds_replaceFound semicolonFinder_fits (fun before taken rest put hfound hclean out hout => ?_) h
  obtain ⟨blanks, -, -, rfl | rfl⟩ := semicolonFinder_taken hfound
  · exact hout.behind hclean
  · exact .of_head (by decide) ((cleanEnds_cons_of_ink (by decide)).2 (cleanEnds_cons_feed.2 hout.clean))

/-- **An operator that is spaced.**  The space behind it stands before what follows on its line. -/
lemma endsKept_operator {before : Option Char} {op rest : List Cell} {a out : List Char} {follow : Option Char}
    (hop : chars op ∈ operators) (hout : EndsKept follow (chars rest) out) :
    EndsKept follow a (chars (spaceBefore before ++ op ++ spaceBehind rest.head?) ++ out) := by
  have hink := isSpace_of_mem_operators hop
  have hbehind : CleanEnds (chars (spaceBehind rest.head?) ++ out) follow := by
    cases rest with
    | nil => exact hout.clean
    | cons cell rest =>
        simp only [List.head?_cons, spaceBehind]
        split
        · exact hout.clean
        · next hfeed =>
            refine (cleanEnds_cons_space (Bool.eq_false_iff.2 fun hend => ?_)).2 hout.clean
            have hcell := hout.head hend
            simp only [chars_cons, List.head?_cons, Option.some_or, endsLine, Option.all_some] at hcell
            simp [hcell] at hfeed
  have hne : chars op ≠ [] := by simpa [chars] using ne_nil_of_mem_operators hop
  obtain ⟨hbare, hspaced⟩ := EndsKept.of_word (a := a) hne hink hbehind
  rw [chars_append, chars_append, List.append_assoc, List.append_assoc, spaceBefore]
  split
  · exact hbare
  · exact hspaced

lemma endsKept_spaceLine {line : List Cell} {follow : Option Char} (h : CleanEnds (chars line) follow) :
    EndsKept follow (chars line) (chars (spaceLine line)) := by
  rw [spaceLine]
  split
  · exact ⟨h, id⟩
  · refine endsKept_replaceFound operatorFinder_fits (fun before taken rest put hfound hclean out hout => ?_) line h
    obtain ⟨lead, op, trail, -, -, -, hop, ⟨-, rfl⟩ | rfl⟩ := operatorFinder_taken hfound
    · exact endsKept_operator hop hout
    · exact hout.behind hclean

lemma cleanEnds_spaceOperators {text : List Char} (h : CleanEnds text none) :
    CleanEnds (spaceOperators text) none := by
  have hpieces (pieces : List (List Cell)) (h : CleanEnds (chars pieces.flatten) none) :
      EndsKept none (chars pieces.flatten) (chars (pieces.flatMap spaceLine)) := by
    induction pieces with
    | nil => exact ⟨trivial, id⟩
    | cons piece pieces ih =>
        rw [List.flatten_cons, chars_append] at h ⊢
        obtain ⟨hpiece, hrest⟩ := cleanEnds_append.1 h
        rw [List.flatMap_cons, chars_append]
        exact (endsKept_spaceLine hpiece).append (ih hrest)
  have hkept := hpieces (splitAfter (·.char == '\n') (label text))
  rw [flatten_splitAfter, chars_label] at hkept
  exact (hkept h).clean

/-! ## Headers -/

section Headers

variable {follow : Option Char}

/-- The words and marks of a header hold no white space. -/
lemma isSpace_of_spelled {word : List Char} {cells : List Cell} (h : Spelled word cells)
    (hword : word.all Char.isLower = true) : ∀ c ∈ chars cells, isSpace c = false := by
  intro c hc
  obtain ⟨cell, hcell, rfl⟩ := List.mem_map.1 hc
  exact (h.inert hword cell hcell).2

/-- A condition that is trimmed may stand before anything. -/
lemma cleanEnds_trimCells {condition : List Cell} (h : CleanEnds (chars condition) follow) (follow' : Option Char) :
    CleanEnds (chars (trimCells condition)) follow' := by
  obtain ⟨front, back, hcondition, -, -⟩ := exists_trimCells condition
  rw [chars_of_trimCells hcondition] at h
  refine (cleanEnds_append.1 (cleanEnds_append.1 h).2).1.of_last fun c hc => ?_
  rw [chars, List.getLast?_map] at hc
  obtain ⟨cell, hcell, rfl⟩ := Option.mem_map.1 hc
  exact getLast?_trimCells condition cell hcell

/-- **A header that stays or takes its canonical form.** -/
lemma endsKept_inCode {taken canonical rest : List Cell} {out : List Char}
    (hclean : CleanEnds (chars taken ++ chars rest) follow) (hout : EndsKept follow (chars rest) out)
    (hcanonical : EndsKept follow (chars taken ++ chars rest) (chars canonical ++ out)) :
    EndsKept follow (chars taken ++ chars rest) (chars (inCode taken canonical) ++ out) := by
  rw [inCode]
  split
  · exact hcanonical
  · exact hout.behind hclean

lemma Conditional.Spells.cleanEnds {h : Conditional} {opening closing brace : Cell}
    (hs : h.Spells opening closing brace) {rest a out : List Char}
    (hclean : CleanEnds (chars (h.cells opening closing brace) ++ rest) follow) (hout : CleanEnds out follow) :
    EndsKept follow a (chars h.canonical ++ out) := by
  have hcells := (cleanEnds_append.1 hclean).1
  rw [Conditional.cells, chars_append, chars_append, chars_cons, chars_append] at hcells
  have hcondition := (cleanEnds_append.1 (cleanEnds_append.1 (cleanEnds_append.1 hcells).2).2.2).1
  have hbranch : ∀ c ∈ chars h.branch, isSpace c = false := by
    rcases hs.branch with hbranch | hbranch
    · exact isSpace_of_spelled hbranch (by decide)
    · exact isSpace_of_spelled hbranch (by decide)
  have hbrace : CleanEnds (' ' :: '{' :: out) follow :=
    (cleanEnds_cons_space rfl).2 ((cleanEnds_cons_of_ink (by decide)).2 hout)
  have hbehind : CleanEnds (' ' :: (chars h.branch ++ ' ' :: '{' :: out)) follow :=
    (EndsKept.of_word (a := a) (by simpa [chars] using hs.branch_inert.1) hbranch hbrace).2.clean
  have hopening : CleanEnds (' ' :: '(' :: (chars (trimCells h.condition)
      ++ ')' :: ' ' :: (chars h.branch ++ ' ' :: '{' :: out))) follow :=
    (cleanEnds_cons_space rfl).2 ((cleanEnds_cons_of_ink (by decide)).2 (cleanEnds_append.2
      ⟨cleanEnds_trimCells hcondition _, (cleanEnds_cons_of_ink (by decide)).2 hbehind⟩))
  have hkeyword := (EndsKept.of_word (a := a) (by simpa [chars] using hs.keyword.ne_nil (by simp))
    (isSpace_of_spelled hs.keyword (by decide)) hopening).1
  simpa [Conditional.canonical] using hkeyword

lemma Alternative.Spells.cleanEnds {h : Alternative} {closing brace : Cell} (hs : h.Spells closing brace)
    {a out : List Char} (hout : CleanEnds out follow) : EndsKept follow a (chars h.canonical ++ out) := by
  have hbrace : CleanEnds (' ' :: '{' :: out) follow :=
    (cleanEnds_cons_space rfl).2 ((cleanEnds_cons_of_ink (by decide)).2 hout)
  have hkeyword : CleanEnds (' ' :: (chars h.keyword ++ ' ' :: '{' :: out)) follow :=
    (EndsKept.of_word (a := a) (by simpa [chars] using hs.keyword.ne_nil (by simp))
      (isSpace_of_spelled hs.keyword (by decide)) hbrace).2.clean
  have hclosing : EndsKept follow a ('}' :: ' ' :: (chars h.keyword ++ ' ' :: '{' :: out)) :=
    .of_head (by decide) ((cleanEnds_cons_of_ink (by decide)).2 hkeyword)
  simpa [Alternative.canonical] using hclosing

lemma Loop.Spells.cleanEnds {h : Loop} {opening closing brace : Cell} (hs : h.Spells opening closing brace)
    {rest a out : List Char}
    (hclean : CleanEnds (chars (h.cells opening closing brace) ++ rest) follow) (hout : CleanEnds out follow) :
    EndsKept follow a (chars h.canonical ++ out) := by
  have hcells := (cleanEnds_append.1 hclean).1
  rw [Loop.cells, chars_append, chars_append, chars_cons, chars_append, chars_append] at hcells
  have hcondition := (cleanEnds_append.1 (cleanEnds_append.1 (cleanEnds_append.1
    (cleanEnds_append.1 hcells).2).2.2).2).1
  have hbrace : CleanEnds (' ' :: '{' :: out) follow :=
    (cleanEnds_cons_space rfl).2 ((cleanEnds_cons_of_ink (by decide)).2 hout)
  have hbody : CleanEnds ('}' :: ' ' :: (chars h.body ++ ' ' :: '{' :: out)) follow :=
    (cleanEnds_cons_of_ink (by decide)).2 (EndsKept.of_word (a := a)
      (by simpa [chars] using hs.body.ne_nil (by simp)) (isSpace_of_spelled hs.body (by decide)) hbrace).2.clean
  have hkeyword {behind : List Char} (hbehind : CleanEnds behind follow) :
      EndsKept follow a (chars h.keyword ++ ' ' :: '{' :: behind) :=
    (EndsKept.of_word (by simpa [chars] using hs.keyword.ne_nil (by simp))
      (isSpace_of_spelled hs.keyword (by decide))
      ((cleanEnds_cons_space rfl).2 ((cleanEnds_cons_of_ink (by decide)).2 hbehind))).1
  by_cases hempty : trimCells h.condition = []
  · rw [h.canonical_of_empty hempty]
    simpa using hkeyword hbody
  · -- the condition starts on the line of the brace
    obtain ⟨first, tail, htrim⟩ := List.exists_cons_of_ne_nil hempty
    have hfirst : first.char ≠ '\n' := by
      obtain ⟨front, back, heq, -, -⟩ := exists_trimCells h.condition
      refine hs.condition first ?_
      rw [heq, htrim]
      simp
    have hinner : CleanEnds (chars (trimCells h.condition)
        ++ ' ' :: '}' :: ' ' :: (chars h.body ++ ' ' :: '{' :: out)) follow :=
      cleanEnds_append.2 ⟨cleanEnds_trimCells hcondition _, (cleanEnds_cons_space rfl).2 hbody⟩
    have hnext : endsLine ((chars (trimCells h.condition)
        ++ ' ' :: '}' :: ' ' :: (chars h.body ++ ' ' :: '{' :: out)).head?.or follow) = false := by
      rw [htrim]
      exact endsLine_some.2 hfirst
    rw [h.canonical_of_ne hempty]
    simpa using hkeyword ((cleanEnds_cons_space hnext).2 hinner)

lemma cleanEnds_spaceHeaders {text : List Char} (h : CleanEnds text none) :
    CleanEnds (spaceHeaders text) none := by
  have hconditionals {t : List Char} (ht : CleanEnds t none) : CleanEnds (spaceConditionals t) none := by
    refine cleanEnds_replaceFound conditionalFinder_fits (fun before taken rest h hfound hclean out hout => ?_) ht
    obtain ⟨opening, closing, brace, rfl, hs⟩ := conditionalFinder_eq_some hfound
    exact endsKept_inCode hclean hout (hs.cleanEnds hclean hout.clean)
  have halternatives {t : List Char} (ht : CleanEnds t none) : CleanEnds (spaceAlternatives t) none := by
    refine cleanEnds_replaceFound alternativeFinder_fits (fun before taken rest h hfound hclean out hout => ?_) ht
    obtain ⟨closing, brace, rfl, hs⟩ := alternativeFinder_eq_some hfound
    exact endsKept_inCode hclean hout (hs.cleanEnds hout.clean)
  have hloops {t : List Char} (ht : CleanEnds t none) : CleanEnds (spaceLoops t) none := by
    refine cleanEnds_replaceFound loopFinder_fits (fun before taken rest h hfound hclean out hout => ?_) ht
    obtain ⟨opening, closing, brace, rfl, hs⟩ := loopFinder_eq_some hfound
    exact endsKept_inCode hclean hout (hs.cleanEnds hclean hout.clean)
  rw [spaceHeaders_eq]
  exact hloops (halternatives (hconditionals h))

end Headers

/-! ## Braces, commas and semicolons -/

lemma BraceEdit.cleanEnds {a b : List Cell} (h : BraceEdit a b) (ha : CleanEnds (chars a) none) :
    CleanEnds (chars b) none := by
  cases h with
  | @first w rest _ =>
      rw [chars_append] at ha
      exact (cleanEnds_append.1 ha).2
  | @closing front w rest hlast _ =>
      rw [chars_append, chars_append] at ha
      obtain ⟨hfront, hrest⟩ := cleanEnds_append.1 ha
      rw [chars_append]
      refine cleanEnds_append.2 ⟨hfront.of_last fun c hc => ?_, cleanEnds_cons_feed.2 (cleanEnds_append.1 hrest).2⟩
      rw [chars, List.getLast?_map] at hc
      obtain ⟨cell, hcell, rfl⟩ := Option.mem_map.1 hc
      exact hlast cell hcell
  | @behind front rest s _ =>
      rw [chars_append] at ha ⊢
      obtain ⟨hfront, -, hrest⟩ := cleanEnds_append.1 ha
      exact cleanEnds_append.2 ⟨hfront, (cleanEnds_cons_of_ink (by decide)).2 hrest.2⟩
  | @opening front rest c hc hrest =>
      obtain ⟨cell, hcell, hink⟩ := hrest
      obtain ⟨rest, rfl⟩ := List.head?_eq_some_iff.1 hcell
      rw [chars_append] at ha ⊢
      obtain ⟨hfront, -, hrest⟩ := cleanEnds_append.1 ha
      refine cleanEnds_append.2 ⟨hfront, (cleanEnds_cons_of_ink (by decide)).2 ?_⟩
      rcases hc with rfl | rfl
      · have hnext : cell.char ≠ '\n' := fun heq => by simp [heq, isSpace] at hink
        exact ⟨fun _ _ => endsLine_some.2 hnext, hrest⟩
      · exact cleanEnds_cons_feed.2 hrest

lemma cleanEnds_breakBraces {text : List Char} (h : CleanEnds text none) :
    CleanEnds (breakBraces text) none :=
  breakBraces_invariant (P := fun cells => CleanEnds (chars cells) none)
    (fun _ _ hedit ha => hedit.cleanEnds ha) (by rwa [chars_label])

/-- A mark that is no white space may be pulled back. -/
lemma cleanEnds_pulled {gone kept rest : List Cell} {c : Char} (hfeed : c ≠ '\n')
    (h : CleanEnds (chars ((gone ++ kept).reverse ++ .code c :: rest)) none) :
    CleanEnds (chars ((.code c :: kept).reverse ++ rest)) none := by
  simp only [List.reverse_append, List.append_assoc, chars_append, chars_cons, char_code] at h
  obtain ⟨hkept, hgone⟩ := cleanEnds_append.1 h
  have hall : CleanEnds (chars kept.reverse ++ c :: chars rest) none :=
    cleanEnds_append.2 ⟨hkept.imp fun hend => by simp [endsLine_some.2 hfeed] at hend, (cleanEnds_append.1 hgone).2⟩
  simpa using hall

lemma cleanEnds_placeComma {out rest : List Cell} {cell : Cell}
    (h : CleanEnds (chars (out.reverse ++ cell :: rest)) none) :
    CleanEnds (chars ((placeComma out cell).reverse ++ rest)) none := by
  rw [placeComma]
  split
  · next hcell =>
      obtain rfl := isCode_iff.1 hcell
      obtain ⟨gone, hout, -⟩ := exists_pullBack (fun _ => false) out
      rw [hout] at h
      exact cleanEnds_pulled (by decide) h
  · simpa using h

/-- Behind a comma blanks go and a space comes. -/
lemma cleanEnds_commasFrom (out : List Cell) (dropping : Bool) (rest : List Cell)
    (hdropping : dropping = true → out.head? = some (.code ','))
    (h : CleanEnds (chars (out.reverse ++ rest)) none) :
    CleanEnds (chars (commasFrom out dropping rest)) none := by
  -- a text that ends in a comma may stand before anything
  have hcomma {out : List Cell} {text next : List Char} (hout : out.head? = some (.code ','))
      (h : CleanEnds (chars out.reverse ++ text) none) (hnext : CleanEnds next none) :
      CleanEnds (chars out.reverse ++ next) none := by
    refine cleanEnds_append.2 ⟨(cleanEnds_append.1 h).1.of_last fun c hc => ?_, hnext⟩
    simp only [chars, List.getLast?_map, List.getLast?_reverse, hout, Option.map_some,
      Option.mem_some] at hc
    rw [← hc]
    decide
  fun_induction commasFrom out dropping rest with
  | case1 out dropping => simpa using h
  | case2 out cell rest ih => exact ih head?_placeComma (cleanEnds_placeComma h)
  | case3 out cell rest hblank ih =>
      rw [chars_append] at h
      refine ih (fun _ => hdropping rfl) ?_
      rw [chars_append]
      exact hcomma (hdropping rfl) h (cleanEnds_append.1 h).2.2
  | case4 out cell rest hblank ih =>
      refine ih head?_placeComma (cleanEnds_placeComma ?_)
      rw [separate]
      split
      · exact h
      · next hapart =>
          simp only [Bool.or_eq_true, beq_iff_eq, not_or] at hapart
          rw [chars_append] at h
          have hspaced : CleanEnds (' ' :: chars (cell :: rest)) none :=
            ⟨fun _ _ => endsLine_some.2 hapart.1.1, (cleanEnds_append.1 h).2⟩
          simpa using hcomma (hdropping rfl) h hspaced

lemma cleanEnds_spaceCommas {text : List Char} (h : CleanEnds text none) :
    CleanEnds (spaceCommas text) none :=
  cleanEnds_commasFrom [] false (label text) (by simp) (by simpa using h)

lemma cleanEnds_joinSemicolons {text : List Char} (h : CleanEnds text none) :
    CleanEnds (joinSemicolons text) none := by
  have hfold (out rest : List Cell) (h : CleanEnds (chars (out.reverse ++ rest)) none) :
      CleanEnds (chars (rest.foldl placeSemicolon out).reverse) none := by
    induction rest generalizing out with
    | nil => simpa using h
    | cons cell rest ih =>
        refine ih (placeSemicolon out cell) ?_
        rcases placeSemicolon_cases out cell with heq | ⟨gone, kept, rfl, rfl, heq, -⟩
        · simpa [heq] using h
        · rw [heq]
          exact cleanEnds_pulled (by decide) h
  exact hfold [] (label text) (by simpa using h)

/-! ## Spelling and all passes -/

/-- Recasing keeps white space and line feeds. -/
lemma cleanEnds_recased {a b : List Char} (h : List.Forall₂ Recased a b) (ha : CleanEnds a none) :
    CleanEnds b none := by
  induction h with
  | nil => trivial
  | @cons c d a b hcd hrest ih =>
      refine ⟨fun hd hfeed => ?_, ih ha.2⟩
      have hnext := ha.1 (hcd.isSpace_eq.trans hd) (mt (hcd.eq_sign_iff (by decide)).1 hfeed)
      cases hrest with
      | nil => exact hnext
      | cons hfirst _ =>
          exact endsLine_some.2 (mt (hfirst.eq_sign_iff (by decide)).2 (endsLine_some.1 hnext))

-- the passes are compared by name, so what is clean need not be computed
attribute [irreducible] CleanEnds

/-- **The text that reaches the indenter is clean**, with a vocabulary that recases words. -/
theorem cleanEnds_textBefore {vocabulary : Vocabulary}
    (hspell : ∀ text, List.Forall₂ Recased text (spellWords vocabulary text)) (style : Style)
    (text : List Char) : CleanEnds (textBefore style vocabulary .indent text) none := by
  have hall : LayoutPass.all = [.margins] ++ .braces ::
      ([.spelling, .commas, .operators, .headers, .statements, .semicolons, .parens] ++ .indent :: []) :=
    rfl
  refine textBefore_rel (R := fun a b => CleanEnds a none → CleanEnds b none)
    (fun _ _ _ hab hbc ha => hbc (hab ha)) (fun _ => id) text hall (fun pass hpass _ h => ?_)
    (cleanEnds_stripMargins text)
  simp only [List.mem_cons, List.not_mem_nil, or_false] at hpass
  rcases hpass with rfl | rfl | rfl | rfl | rfl | rfl | rfl | rfl
  · exact cleanEnds_breakBraces h
  · exact cleanEnds_recased (hspell _) h
  · exact cleanEnds_spaceCommas h
  · exact cleanEnds_spaceOperators h
  · exact cleanEnds_spaceHeaders h
  · exact cleanEnds_splitStatements h
  · exact cleanEnds_joinSemicolons h
  · exact cleanEnds_trimParens h

end SqfLayout.Pass
