import SqfLayout.Proofs.CommentBodies
import SqfLayout.Proofs.Content
import SqfLayout.Proofs.Occurrences

/-!
# Final line breaks

A line break at the end of a text does not change what formatting makes of the text.

**Finders.**  A line feed at the end of a text is no part of an occurrence, and an occurrence ends before
it as it does at the end of the text (`Finder.IgnoresFeed`).  So a pass that replaces occurrences puts the
line feed behind what it makes of the rest (`replaceFound_append_feed`).

**Passes.**  All passes but two keep the line feed.  Braces drop it behind an opening brace, and
indentation always does; `Fed` relates a text to itself with and without it (`fed_apply`,
`indentLines_append_feed`).

**Formatted texts.**  With or without it, all passes together give the same (`formatText_append_feed`).
-/

namespace SqfLayout

open SqfLayout.Text SqfLayout.Scan SqfLayout.Pass

/-! ## Finders -/

section Finders

variable {α : Type} {find : Finder α} {feed : Cell}

/-- **A finder that a line feed at the end of the text does not concern.** -/
def Finder.IgnoresFeed (find : Finder α) : Prop :=
  ∀ before cells feed, feed.char = '\n' → find before (cells ++ [feed]) = find before cells

/-- The line feed is a segment of its own. -/
lemma Division.append_feed (hfits : find.Fits) (h : find.IgnoresFeed) (hfeed : feed.char = '\n')
    {before : Option Char} {cells : List Cell} {segs : List (Segment α)}
    (hdivision : Division find before cells segs) :
    Division find before (cells ++ [feed]) (segs ++ [.plain feed]) := by
  induction hdivision with
  | done before =>
      refine .plain ((h before [] feed hfeed).trans ?_) (.done _)
      cases hnil : find before [] with
      | none => rfl
      | some found =>
          obtain ⟨hpos, hle⟩ := hfits before [] found.1 found.2 hnil
          simp at hle
          omega
  | plain hnone _ ih => exact .plain ((h _ _ feed hfeed).trans hnone) ih
  | @found before taken rest what segs hfound hne _ ih =>
      have hfound' := (h before (taken ++ rest) feed hfeed).trans hfound
      rw [List.append_assoc] at hfound' ⊢
      exact .found hfound' hne ih

/-- **A pass that replaces occurrences keeps a final line feed.** -/
lemma replaceFound_append_feed (hfits : find.Fits) (h : find.IgnoresFeed) (hfeed : feed.char = '\n')
    (replace : List Cell → α → List Cell) (cells : List Cell) :
    replaceFound find replace (cells ++ [feed]) = replaceFound find replace cells ++ [feed] := by
  have hdivision := (division_segments hfits cells).append_feed hfits h hfeed
  rw [replaceFound_eq, replaceFound_eq, segments, hdivision.segmentsFrom_eq, List.flatMap_append]
  rfl

end Finders

/-- The cells of a text with a line feed behind it. -/
lemma label_append_feed (text : List Char) :
    ∃ feed, feed.char = '\n' ∧ label (text ++ ['\n']) = label text ++ [feed] := by
  have hcut := (labelFrom_cut .code text (b := ['\n']) rfl).1
  exact ⟨_, rfl, hcut⟩

namespace Pass

section Finders

variable {feed : Cell}

/-- A stretch of cells ends before a cell that does not belong to it. -/
lemma while_append_feed {p : Cell → Bool} (hp : p feed = false) (cells : List Cell) :
    (cells ++ [feed]).takeWhile p = cells.takeWhile p
      ∧ (cells ++ [feed]).dropWhile p = cells.dropWhile p ++ [feed] := by
  induction cells with
  | nil => simp [hp]
  | cons cell cells ih =>
      by_cases hcell : p cell = true
      · simp [hcell, ih]
      · simp [hcell]

lemma isBlank_feed (hfeed : feed.char = '\n') : isBlank feed.char = false := by rw [hfeed]; decide

lemma isCode_feed (hfeed : feed.char = '\n') {c : Char} (hc : c ≠ '\n') : feed.isCode c = false := by
  simp [Cell.isCode, hfeed, Ne.symm hc]

/-! ### Parentheses, semicolons and operators -/

lemma parenFinder_ignoresFeed : parenFinder.IgnoresFeed := by
  intro before cells feed hfeed
  cases cells with
  | nil =>
      have hblank := isBlank_feed hfeed
      simp [parenFinder, hblank, isCode_feed hfeed (c := '(') (by decide),
        isCode_feed hfeed (c := ')') (by decide)]
  | cons cell rest =>
      have hblanks (cells : List Cell) :=
        while_append_feed (p := fun cell => isBlank cell.char) (isBlank_feed hfeed) cells
      have hdrop := (hblanks (cell :: rest)).2
      have htake := (hblanks (cell :: rest)).1
      rw [List.cons_append] at hdrop htake
      simp only [parenFinder, List.cons_append, (hblanks rest).1, hdrop, htake]
      split
      · rfl
      · cases (cell :: rest).dropWhile fun cell => isBlank cell.char with
        | nil => simp [isCode_feed hfeed (c := ')') (by decide)]
        | cons closing behind => rfl

lemma keepsLine_append_feed (hfeed : feed.char = '\n') (cells : List Cell) :
    keepsLine (cells ++ [feed]) = keepsLine cells := by
  match cells with
  | [] => simp [keepsLine, hfeed]
  | [cell] => simp [keepsLine, hfeed]
  | cell :: next :: rest => rfl

lemma semicolonFinder_ignoresFeed : semicolonFinder.IgnoresFeed := by
  intro before cells feed hfeed
  cases cells with
  | nil => simp [semicolonFinder, isCode_feed hfeed (c := ';') (by decide)]
  | cons cell rest =>
      have hblanks := while_append_feed (p := fun cell => isBlank cell.char) (isBlank_feed hfeed) rest
      have hle : (rest.takeWhile fun cell => isBlank cell.char).length ≤ rest.length :=
        (List.takeWhile_sublist _).length_le
      simp only [semicolonFinder, List.cons_append, hblanks.1, List.drop_append_of_le_length hle,
        keepsLine_append_feed hfeed]

lemma startsWith_append_feed (hfeed : feed.char = '\n') {word : List Char} (hword : '\n' ∉ word)
    (cells : List Cell) : startsWith word (cells ++ [feed]) = startsWith word cells := by
  induction word generalizing cells with
  | nil => cases cells <;> rfl
  | cons c word ih =>
      obtain ⟨hc, hword⟩ := List.ne_and_not_mem_of_not_mem_cons hword
      cases cells with
      | nil => simp [startsWith, hfeed, hc]
      | cons cell cells => simp only [List.cons_append, startsWith, ih hword]

lemma operator?_append_feed (hfeed : feed.char = '\n') (cells : List Cell) :
    operator? (cells ++ [feed]) = operator? cells := by
  have hplain : ∀ op ∈ operators, '\n' ∉ op := by decide
  have hfind : operators.find? (startsWith · (cells ++ [feed])) = operators.find? (startsWith · cells) :=
    List.find?_congr fun op hop => startsWith_append_feed hfeed (hplain op hop) cells
  rw [operator?, operator?, hfind]
  cases hop : operators.find? (startsWith · cells) with
  | none => rfl
  | some op =>
      have hstarts : startsWith op cells = true := by simpa using List.find?_some hop
      have hlength := congrArg List.length (startsWith_iff hstarts)
      rw [chars, List.length_map, List.length_take] at hlength
      rw [Option.map_some, Option.map_some, List.take_append_of_le_length (by omega)]

lemma spaceBehind_append_feed (hfeed : feed.char = '\n') (cells : List Cell) :
    spaceBehind (cells ++ [feed]).head? = spaceBehind cells.head? := by
  cases cells with
  | nil => simp [spaceBehind, hfeed]
  | cons cell cells => rfl

lemma operatorFinder_ignoresFeed : operatorFinder.IgnoresFeed := by
  intro before cells feed hfeed
  have hblanks (cells : List Cell) :=
    while_append_feed (p := fun cell => isBlank cell.char) (isBlank_feed hfeed) cells
  unfold operatorFinder
  rw [(hblanks cells).2, operator?_append_feed hfeed, (hblanks cells).1]
  refine Option.map_congr fun op hop => ?_
  obtain ⟨-, rest, hrest⟩ := operator?_eq_some hop
  have hcells := List.takeWhile_append_dropWhile (p := fun cell => isBlank cell.char) (l := cells)
  rw [hrest] at hcells
  generalize cells.takeWhile (fun cell => isBlank cell.char) = lead at hcells ⊢
  have hdrop : cells.drop (lead.length + op.length) = rest := by
    rw [← hcells, ← List.append_assoc, ← List.length_append, List.drop_left]
  have hle : lead.length + op.length ≤ cells.length := by simp [← hcells]
  have htrail : (rest.takeWhile fun cell => isBlank cell.char).length ≤ rest.length :=
    (List.takeWhile_sublist _).length_le
  have hle' : lead.length + op.length + (rest.takeWhile fun cell => isBlank cell.char).length
      ≤ cells.length := by
    simp only [← hcells, List.length_append]
    omega
  simp only [List.drop_append_of_le_length hle, hdrop, (hblanks rest).1,
    List.drop_append_of_le_length hle', List.take_append_of_le_length hle', spaceBehind_append_feed hfeed]

/-! ### Headers -/

/-- A word is read in front of the line feed or not at all. -/
lemma keyword?_append_feed (hfeed : feed.char = '\n') {word : List Char} (hword : '\n' ∉ word)
    (cells : List Cell) :
    keyword? word (cells ++ [feed]) = (keyword? word cells).map fun read => (read.1, read.2 ++ [feed]) := by
  have hfold : foldCase '\n' = '\n' := by decide +kernel
  induction word generalizing cells with
  | nil => cases cells <;> rfl
  | cons c word ih =>
      obtain ⟨hc, hword⟩ := List.ne_and_not_mem_of_not_mem_cons hword
      cases cells with
      | nil => simp [keyword?, hfeed, hfold, hc]
      | cons cell cells =>
          simp only [List.cons_append, keyword?, ih hword]
          split
          · cases keyword? word cells <;> rfl
          · rfl

lemma afterMark?_append_feed (hfeed : feed.char = '\n') {c : Char} (hc : c ≠ '\n') (cells : List Cell) :
    afterMark? c (cells ++ [feed]) = (afterMark? c cells).map (· ++ [feed]) := by
  cases cells with
  | nil => simp [afterMark?, hfeed, Ne.symm hc]
  | cons cell cells =>
      simp only [List.cons_append, afterMark?]
      split <;> rfl

/-- The line feed belongs to white space at the end of the text; other white space is read in front of
it. -/
lemma gap_append_feed (hfeed : feed.char = '\n') (cells : List Cell) :
    (∃ read read', gap cells = (read, []) ∧ gap (cells ++ [feed]) = (read', []))
      ∨ ∃ read rest, gap cells = (read, rest) ∧ gap (cells ++ [feed]) = (read, rest ++ [feed]) := by
  have hspace : isSpace feed.char = true := by rw [hfeed]; decide
  simp only [gap, List.span_eq_takeWhile_dropWhile, Prod.mk.injEq]
  by_cases hall : ∀ cell ∈ cells, isSpace cell.char = true
  · have hall' : ∀ cell ∈ cells ++ [feed], isSpace cell.char = true := by
      simpa [or_imp, forall_and, hspace] using hall
    exact .inl ⟨_, _, ⟨rfl, List.dropWhile_eq_nil_iff.2 hall⟩, rfl, List.dropWhile_eq_nil_iff.2 hall'⟩
  · have hdrop : (cells.dropWhile fun cell => isSpace cell.char) ≠ [] := mt List.dropWhile_eq_nil_iff.1 hall
    have htake : (cells.takeWhile fun cell => isSpace cell.char).length ≠ cells.length := by
      intro hlength
      have hcells := List.takeWhile_append_dropWhile (p := fun cell => isSpace cell.char) (l := cells)
      have hsum := congrArg List.length hcells
      rw [List.length_append, hlength] at hsum
      exact hdrop (List.length_eq_zero_iff.1 (by omega))
    refine .inr ⟨_, _, ⟨rfl, rfl⟩, ?_, ?_⟩
    · rw [List.takeWhile_append, if_neg htake]
    · rw [List.dropWhile_append, if_neg (by simpa using hdrop)]

/-- The shortest stretch is found in front of the line feed. -/
lemma shortest_append_feed (hfeed : feed.char = '\n') {α : Type}
    {close : Option Char → List Cell → Option α} (hnil : ∀ last, close last [] = none)
    (hclose : ∀ last cells, close last (cells ++ [feed]) = close last cells) (last : Option Char)
    (cells : List Cell) : shortest close last (cells ++ [feed]) = shortest close last cells := by
  induction cells generalizing last with
  | nil =>
      have hlast := (hclose last []).trans (hnil last)
      rw [List.nil_append] at hlast ⊢
      simp [shortest, hlast, hnil, hfeed]
  | cons cell cells ih =>
      have hcell := hclose last (cell :: cells)
      rw [List.cons_append] at hcell ⊢
      rw [shortest, shortest, hcell, ih]

/-- Behind white space the brace of a header is found in front of the line feed. -/
lemma gap_brace_append_feed (hfeed : feed.char = '\n') {α : Type} (put : List Cell → α) (cells : List Cell) :
    ((afterMark? '{' (gap (cells ++ [feed])).2).bind fun _ => some (put (gap (cells ++ [feed])).1))
      = (afterMark? '{' (gap cells).2).bind fun _ => some (put (gap cells).1) := by
  rcases gap_append_feed hfeed cells with ⟨read, read', hgap, hgap'⟩ | ⟨read, rest, hgap, hgap'⟩
  · simp [hgap, hgap', afterMark?]
  · rw [hgap, hgap', afterMark?_append_feed hfeed (by decide)]
    cases afterMark? '{' rest <;> rfl

lemma conditionalTail?_append_feed (hfeed : feed.char = '\n') (cells : List Cell) :
    conditionalTail? (cells ++ [feed]) = conditionalTail? cells := by
  rw [conditionalTail?, conditionalTail?, afterMark?_append_feed hfeed (by decide)]
  cases afterMark? ')' cells with
  | none => rfl
  | some rest =>
      simp only [Option.map_some, Option.bind_eq_bind, Option.bind_some, Option.pure_def]
      rcases gap_append_feed hfeed rest with ⟨read, read', hgap, hgap'⟩ | ⟨read, rest, hgap, hgap'⟩
      · rw [hgap, hgap']
        rfl
      · rw [hgap, hgap', keyword?_append_feed hfeed (by decide), keyword?_append_feed hfeed (by decide)]
        have hor (a b : Option (List Cell × List Cell)) :
            (a.map fun read => (read.1, read.2 ++ [feed])).or (b.map fun read => (read.1, read.2 ++ [feed]))
              = (a.or b).map fun read => (read.1, read.2 ++ [feed]) := by
          cases a <;> rfl
        rw [hor]
        cases (keyword? ['t', 'h', 'e', 'n'] rest).or (keyword? ['e', 'x', 'i', 't', 'w', 'i', 't', 'h'] rest) with
        | none => rfl
        | some word => exact gap_brace_append_feed hfeed (fun gap₃ => (read, word.1, gap₃)) word.2

lemma loopTail?_append_feed (hfeed : feed.char = '\n') (last : Option Char) (cells : List Cell) :
    loopTail? last (cells ++ [feed]) = loopTail? last cells := by
  rw [loopTail?, loopTail?]
  simp only [Option.bind_eq_bind, Option.pure_def]
  congr 1
  funext _
  rcases gap_append_feed hfeed cells with ⟨gap₃, gap₃', hgap, hgap'⟩ | ⟨gap₃, rest, hgap, hgap'⟩
  · rw [hgap, hgap']
    rfl
  · rw [hgap, hgap', afterMark?_append_feed hfeed (by decide)]
    cases afterMark? '}' rest with
    | none => rfl
    | some rest =>
        simp only [Option.map_some, Option.bind_some]
        rcases gap_append_feed hfeed rest with ⟨gap₄, gap₄', hgap, hgap'⟩ | ⟨gap₄, rest, hgap, hgap'⟩
        · rw [hgap, hgap']
          rfl
        · rw [hgap, hgap', keyword?_append_feed hfeed (by decide)]
          cases keyword? ['d', 'o'] rest with
          | none => rfl
          | some word => exact gap_brace_append_feed hfeed (fun gap₅ => (gap₃, gap₄, word.1, gap₅)) word.2

lemma alternative?_append_feed (hfeed : feed.char = '\n') (cells : List Cell) :
    alternative? (cells ++ [feed]) = alternative? cells := by
  rw [alternative?, alternative?, afterMark?_append_feed hfeed (by decide)]
  cases afterMark? '}' cells with
  | none => rfl
  | some rest =>
      simp only [Option.map_some, Option.bind_eq_bind, Option.bind_some, Option.pure_def]
      rcases gap_append_feed hfeed rest with ⟨gap₁, gap₁', hgap, hgap'⟩ | ⟨gap₁, rest, hgap, hgap'⟩
      · rw [hgap, hgap']
        rfl
      · rw [hgap, hgap', keyword?_append_feed hfeed (by decide)]
        cases keyword? ['e', 'l', 's', 'e'] rest with
        | none => rfl
        | some word => exact gap_brace_append_feed hfeed (fun gap₂ => Alternative.mk gap₁ word.1 gap₂) word.2

/-- A text that starts with a word starts so with the line feed as well. -/
lemma head?_append_of_keyword? {c : Char} {word : List Char} {cells : List Cell} {read : List Cell × List Cell}
    (h : keyword? (c :: word) cells = some read) (behind : List Cell) :
    (cells ++ behind).head? = cells.head? := by
  cases cells with
  | nil => simp [keyword?] at h
  | cons cell cells => rfl

lemma conditional?_append_feed (hfeed : feed.char = '\n') (before : Option Char) (cells : List Cell) :
    conditional? before (cells ++ [feed]) = conditional? before cells := by
  rw [conditional?, conditional?, keyword?_append_feed hfeed (by decide)]
  cases hword : keyword? ['i', 'f'] cells with
  | none => simp
  | some word =>
      simp only [head?_append_of_keyword? hword, Option.map_some, Option.bind_eq_bind, Option.bind_some,
        Option.pure_def]
      congr 1
      funext _
      rcases gap_append_feed hfeed word.2 with ⟨gap₁, gap₁', hgap, hgap'⟩ | ⟨gap₁, rest, hgap, hgap'⟩
      · rw [hgap, hgap']
        rfl
      · rw [hgap, hgap', afterMark?_append_feed hfeed (by decide)]
        cases afterMark? '(' rest with
        | none => rfl
        | some rest =>
            simp only [Option.map_some, Option.bind_some]
            rw [shortest_append_feed hfeed (fun _ => rfl) fun _ => conditionalTail?_append_feed hfeed]

lemma loop?_append_feed (hfeed : feed.char = '\n') (before : Option Char) (cells : List Cell) :
    loop? before (cells ++ [feed]) = loop? before cells := by
  have hnil (last : Option Char) : loopTail? last [] = none := by simp [loopTail?, gap, afterMark?]
  rw [loop?, loop?, keyword?_append_feed hfeed (by decide)]
  cases hword : keyword? ['w', 'h', 'i', 'l', 'e'] cells with
  | none => simp
  | some word =>
      simp only [head?_append_of_keyword? hword, Option.map_some, Option.bind_eq_bind, Option.bind_some,
        Option.pure_def]
      congr 1
      funext _
      rcases gap_append_feed hfeed word.2 with ⟨gap₁, gap₁', hgap, hgap'⟩ | ⟨gap₁, rest, hgap, hgap'⟩
      · rw [hgap, hgap']
        rfl
      · rw [hgap, hgap', afterMark?_append_feed hfeed (by decide)]
        cases afterMark? '{' rest with
        | none => rfl
        | some rest =>
            simp only [Option.map_some, Option.bind_some]
            rcases gap_append_feed hfeed rest with ⟨gap₂, gap₂', hgap, hgap'⟩ | ⟨gap₂, rest, hgap, hgap'⟩
            · rw [hgap, hgap']
              simp [shortest, hnil]
            · rw [hgap, hgap', shortest_append_feed hfeed hnil (loopTail?_append_feed hfeed)]

lemma conditionalFinder_ignoresFeed : conditionalFinder.IgnoresFeed := by
  intro before cells feed hfeed
  simp only [conditionalFinder, conditional?_append_feed hfeed]

lemma alternativeFinder_ignoresFeed : alternativeFinder.IgnoresFeed := by
  intro before cells feed hfeed
  simp only [alternativeFinder, alternative?_append_feed hfeed]

lemma loopFinder_ignoresFeed : loopFinder.IgnoresFeed := by
  intro before cells feed hfeed
  simp only [loopFinder, loop?_append_feed hfeed]

end Finders

end Pass

/-! ### Words -/

lemma Vocabulary.finder_ignoresFeed {commands functions : List (List Char)}
    (hwords : ∀ word ∈ commands ++ functions, ∀ c ∈ word, foldCase c ≠ '\n') :
    (ofLists commands functions).finder.IgnoresFeed := by
  intro before cells feed hfeed
  have hoccurs {cells : List Cell} {form : SearchForm} (h : form ∈ (ofLists commands functions).formsFor cells)
      (edge : Bool) (front : List Cell) :
      form.occursAt edge before (front ++ [feed]) = form.occursAt edge before front := by
    obtain ⟨word, hword, -, rfl⟩ := exists_word_of_mem_formsFor h
    refine SearchForm.occursAt_append ?_ ?_ edge before front
    · rintro cell hcell hmem
      obtain rfl := Option.some.inj hcell
      obtain ⟨c, hc, hfold⟩ := List.mem_map.1 hmem
      have hline : foldCase '\n' = '\n' := by decide +kernel
      exact hwords word hword c hc (by rw [hfold, hfeed, hline])
    · rintro cell hcell
      obtain rfl := Option.some.inj hcell
      rw [hfeed]
      decide +kernel
  rw [finder_eq, finder_eq]
  cases cells with
  | nil =>
      -- no form occurs in a text without words
      have hempty {cells : List Cell} {form : SearchForm} (h : form ∈ (ofLists commands functions).formsFor cells)
          (edge : Bool) : form.occursAt edge before [] = false := by
        obtain ⟨c, folded, heq⟩ := List.exists_cons_of_ne_nil (folded_ne_nil h)
        simp [SearchForm.occursAt, heq, afterFolded?]
      rw [List.nil_append, List.find?_eq_none.2 fun form hform => ?_, List.find?_eq_none.2 fun form hform => ?_]
      · exact Bool.eq_false_iff.1 (hempty hform _)
      · exact Bool.eq_false_iff.1 ((hoccurs hform _ []).trans (hempty hform _))
  | cons cell rest =>
      have hforms : (ofLists commands functions).formsFor (cell :: rest ++ [feed])
          = (ofLists commands functions).formsFor (cell :: rest) := rfl
      rw [hforms]
      congr 1
      exact List.find?_congr fun form hform => hoccurs hform _ (cell :: rest)

/-! ## Passes -/

namespace Pass

section Passes

variable {feed : Cell}

/-- An empty line has no part in the margin of a comment. -/
lemma bodyMargin_append_feed (rows : List (List Char × CommentPosition)) (position : CommentPosition) :
    bodyMargin (rows ++ [([], position)]) = bodyMargin rows := by
  have hbody : (((rows ++ [([], position)] : List (List Char × CommentPosition)).takeWhile
        (·.2 == .inside)).map fun row => trimEnd row.1).filter (!·.isEmpty)
      = ((rows.takeWhile (·.2 == .inside)).map fun row => trimEnd row.1).filter (!·.isEmpty) := by
    induction rows with
    | nil => cases position <;> rfl
    | cons row rows ih =>
        rw [List.cons_append, List.takeWhile_cons, List.takeWhile_cons]
        split
        · rw [List.map_cons, List.map_cons, List.filter_cons, List.filter_cons, ih]
        · rfl
  simp only [bodyMargin, hbody]

lemma stripRows_append_feed (body : Option Nat) (rows : List (List Char × CommentPosition))
    (position : CommentPosition) :
    stripRows body (rows ++ [([], position)]) = stripRows body rows ++ [[]] := by
  induction rows generalizing body with
  | nil =>
      have hnil (n : Nat) : stripIndent n (trimEnd []) = [] := by cases n <;> rfl
      simp only [List.nil_append, stripRows, hnil]
      split <;> rfl
  | cons row rows ih =>
      obtain ⟨line, place⟩ := row
      have hmargin := bodyMargin_append_feed ((line, place) :: rows) position
      rw [List.cons_append] at hmargin
      simp only [List.cons_append, stripRows, hmargin, ih]
      split <;> rfl

lemma stripMargins_append_feed (text : List Char) :
    stripMargins (text ++ ['\n']) = stripMargins text ++ ['\n'] := by
  have hlines : lines (text ++ ['\n']) = lines text ++ [[]] := lines_append_feed text []
  have hne : stripRows none (positions .code (lines text)) ≠ [] := by
    rw [← lines_stripMargins]
    exact splitWhen_ne_nil _ _
  rw [stripMargins, hlines, positions_append, positions, positions, stripRows_append_feed,
    unlines_append hne (by simp)]
  rfl

/-- Braces drop the line feed in the gap behind an opening brace. -/
lemma bracesFrom_append_feed (hfeed : feed.char = '\n') (out : List Cell) (gap : Option Bool)
    (rest : List Cell) :
    bracesFrom out gap (rest ++ [feed]) = bracesFrom out gap rest
      ∨ bracesFrom out gap (rest ++ [feed]) = bracesFrom out gap rest ++ [feed] := by
  have hspace : isSpace feed.char = true := by rw [hfeed]; decide
  have hbreak (crossed : Bool) (cell : Cell) (rest : List Cell) :
      gapBreak crossed cell (rest ++ [feed]).head? = gapBreak crossed cell rest.head? := by
    cases rest with
    | nil => simp [gapBreak, hfeed]
    | cons next rest => rfl
  fun_induction bracesFrom out gap rest with
  | case1 out gap =>
      cases gap with
      | none => exact .inr (by simp [bracesFrom, placeCell, isCode_feed hfeed (c := '}') (by decide)])
      | some crossed => exact .inl (by simp [bracesFrom, hspace])
  | case2 out cell rest ih => exact ih
  | case3 out crossed cell rest hcell ih => simpa only [List.cons_append, bracesFrom, if_pos hcell] using ih
  | case4 out crossed cell rest hcell hclose ih =>
      simpa only [List.cons_append, bracesFrom, if_neg hcell, if_pos hclose] using ih
  | case5 out crossed cell rest hcell hclose ih =>
      simpa only [List.cons_append, bracesFrom, if_neg hcell, if_neg hclose, hbreak] using ih

lemma commasFrom_append_feed (hfeed : feed.char = '\n') (out : List Cell) (dropping : Bool)
    (rest : List Cell) :
    commasFrom out dropping (rest ++ [feed]) = commasFrom out dropping rest ++ [feed] := by
  have hplace (out : List Cell) : placeComma out feed = feed :: out := by
    simp [placeComma, isCode_feed hfeed (c := ',') (by decide)]
  fun_induction commasFrom out dropping rest with
  | case1 out dropping =>
      cases dropping <;> simp [commasFrom, hplace, separate, hfeed, isBlank]
  | case2 out cell rest ih => exact ih
  | case3 out cell rest hblank ih => simpa only [List.cons_append, commasFrom, if_pos hblank] using ih
  | case4 out cell rest hblank ih => simpa only [List.cons_append, commasFrom, if_neg hblank] using ih

lemma spaceLine_append_feed (hfeed : feed.char = '\n') (line : List Cell) :
    spaceLine (line ++ [feed]) = spaceLine line ++ [feed] := by
  have hhead : isPreprocessor (line ++ [feed]) = isPreprocessor line := by
    have hspace : isSpace '\n' = true := by decide
    simp only [isPreprocessor, trimStart, chars_append, chars_cons, chars_nil, hfeed, List.dropWhile_append]
    split
    · next hempty => simp [List.isEmpty_iff.1 hempty, hspace]
    · next hne =>
        rw [List.head?_append_of_ne_nil]
        simpa using hne
  rw [spaceLine, spaceLine, hhead, replaceFound_append_feed operatorFinder_fits operatorFinder_ignoresFeed hfeed]
  split <;> rfl

lemma spaceOperators_append_feed (text : List Char) :
    spaceOperators (text ++ ['\n']) = spaceOperators text ++ ['\n'] := by
  obtain ⟨feed, hfeed, hlabel⟩ := label_append_feed text
  have hsingle : spaceLine [feed] = [feed] := by
    have hnil := spaceLine_append_feed hfeed []
    simpa [spaceLine, isPreprocessor, trimStart, replaceFound, segments, segmentsFrom] using hnil
  rw [spaceOperators, spaceOperators, hlabel]
  have hdivider : (feed.char == '\n') = true := by simp [hfeed]
  rcases splitAfter_append_divider (p := fun cell : Cell => cell.char == '\n') hdivider (label text) with
    h | ⟨init, last, htext, h⟩
  · rw [h, List.flatMap_append, chars_append, List.flatMap_singleton, hsingle]
    simp [hfeed]
  · rw [h, htext, List.flatMap_append, List.flatMap_append, List.flatMap_singleton, List.flatMap_singleton,
      spaceLine_append_feed hfeed]
    simp [hfeed]

/-- **Indentation drops a final line feed.** -/
lemma indentLines_append_feed (unit : IndentUnit) (text : List Char) :
    indentLines unit (text ++ ['\n']) = indentLines unit text := by
  have hlines : lines (text ++ ['\n']) = lines text ++ [[]] := lines_append_feed text []
  have hlast (s : Indenter) : s.lines [[]] = [] ∨ s.lines [[]] = [[]] := s.lines_bare rfl []
  rw [indentLines, indentLines, hlines, Indenter.lines_append]
  generalize Indenter.lines { unit } (lines text) = kept
  rcases hlast (Indenter.after { unit } (lines text)) with h | h
  · rw [h, List.append_nil]
  · rw [h]
    cases kept with
    | nil => rfl
    | cons line kept =>
        have hfront : ∀ c ∈ [], (c == '\n') = true := by simp
        have hback : ∀ c ∈ ['\n'], (c == '\n') = true := by simp
        rw [unlines_append (List.cons_ne_nil _ _) (by simp)]
        exact dropEnds_append hfront hback

end Passes

end Pass

/-! ## Formatted texts -/

/-- **A text with or without one more line feed at its end.** -/
def Fed (a b : List Char) : Prop := b = a ∨ b = a ++ ['\n']

section Fed

variable {style : Style} {vocabulary : Vocabulary}

lemma chars_append_feed {cells : List Cell} {feed : Cell} (hfeed : feed.char = '\n') :
    chars (cells ++ [feed]) = chars cells ++ ['\n'] := by
  simp [hfeed]

/-- A pass that replaces occurrences puts the line feed behind the rest. -/
lemma chars_replaceFound_append_feed {α : Type} {find : Finder α} (hfits : find.Fits) (h : find.IgnoresFeed)
    (replace : List Cell → α → List Cell) (text : List Char) :
    chars (replaceFound find replace (label (text ++ ['\n'])))
      = chars (replaceFound find replace (label text)) ++ ['\n'] := by
  obtain ⟨feed, hfeed, hlabel⟩ := label_append_feed text
  rw [hlabel, replaceFound_append_feed hfits h hfeed, chars_append_feed hfeed]

lemma spaceHeaders_append_feed (text : List Char) :
    spaceHeaders (text ++ ['\n']) = spaceHeaders text ++ ['\n'] := by
  simp only [spaceHeaders,
    chars_replaceFound_append_feed conditionalFinder_fits conditionalFinder_ignoresFeed,
    chars_replaceFound_append_feed alternativeFinder_fits alternativeFinder_ignoresFeed,
    chars_replaceFound_append_feed loopFinder_fits loopFinder_ignoresFeed]

lemma spellWords_append_feed {commands functions : List (List Char)}
    (hwords : ∀ word ∈ commands ++ functions, ∀ c ∈ word, foldCase c ≠ '\n') (text : List Char) :
    spellWords (.ofLists commands functions) (text ++ ['\n'])
      = spellWords (.ofLists commands functions) text ++ ['\n'] := by
  rw [spellWords, spellWords]
  split
  · rfl
  · exact chars_replaceFound_append_feed (Vocabulary.finder_fits commands functions)
      (Vocabulary.finder_ignoresFeed hwords) _ text

/-- **Every pass keeps a final line feed or drops it.** -/
lemma fed_apply (hspell : ∀ text, spellWords vocabulary (text ++ ['\n']) = spellWords vocabulary text ++ ['\n'])
    (pass : LayoutPass) {a b : List Char} (h : Fed a b) :
    Fed (pass.apply style vocabulary a) (pass.apply style vocabulary b) := by
  rcases h with rfl | rfl
  · exact .inl rfl
  · obtain ⟨feed, hfeed, hlabel⟩ := label_append_feed a
    cases pass with
    | margins => exact .inr (stripMargins_append_feed a)
    | braces =>
        rcases bracesFrom_append_feed hfeed [] none (label a) with h | h
        · exact .inl (by simp only [LayoutPass.apply, breakBraces, hlabel, h])
        · exact .inr (by simp only [LayoutPass.apply, breakBraces, hlabel, h, chars_append_feed hfeed])
    | spelling => exact .inr (hspell a)
    | commas =>
        refine .inr ?_
        simp only [LayoutPass.apply, spaceCommas, hlabel, commasFrom_append_feed hfeed, chars_append_feed hfeed]
    | operators => exact .inr (spaceOperators_append_feed a)
    | headers => exact .inr (spaceHeaders_append_feed a)
    | statements =>
        exact .inr (chars_replaceFound_append_feed semicolonFinder_fits semicolonFinder_ignoresFeed _ a)
    | semicolons =>
        refine .inr ?_
        simp only [LayoutPass.apply, joinSemicolons, hlabel, List.foldl_append, List.foldl_cons, List.foldl_nil,
          placeSemicolon, isCode_feed hfeed (c := ';') (by decide), Bool.false_eq_true, if_false,
          List.reverse_cons, chars_append_feed hfeed]
    | parens => exact .inr (chars_replaceFound_append_feed parenFinder_fits parenFinder_ignoresFeed _ a)
    | indent => exact .inl (indentLines_append_feed style.indent a)

/-- **A final line feed does not change what formatting makes of a text.** -/
theorem formatText_append_feed
    (hspell : ∀ text, spellWords vocabulary (text ++ ['\n']) = spellWords vocabulary text ++ ['\n'])
    (style : Style) (text : List Char) :
    formatText style vocabulary (text ++ ['\n']) = formatText style vocabulary text := by
  have hbefore : Fed (textBefore style vocabulary .indent text)
      (textBefore style vocabulary .indent (text ++ ['\n'])) :=
    List.foldl_rel (r := Fed) (.inr rfl) fun pass _ _ _ => fed_apply hspell pass
  rw [formatText_eq_indentLines, formatText_eq_indentLines]
  rcases hbefore with h | h
  · rw [h]
  · rw [h, indentLines_append_feed]

end Fed

end SqfLayout
