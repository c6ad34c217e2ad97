import Mathlib.Data.List.DropRight
import SqfLayout.Text.Lines
import SqfLayout.Text.Space

/-!
# Dividing texts

What the functions that cut a text into pieces lose: nothing but what they say.

**Ends.**  A trimmed text lacks a stretch of white space at each end (`exists_trim`,
`exists_trimEnd`); in general `dropEndWhile` and `dropWhile` lack a stretch of elements that satisfy
their test, and nothing else (`dropEnds_between`).

**Lines.**  `unlines_lines` and `flatten_splitAfter` put a divided text together again, and
`splitWhen_append_cons` cuts a division at a divider.  Lines are pieces without line feeds, and such
pieces are lines (`lines_unlines`).  `rows` writes every line with its line feed,
which makes a list of lines a plain concatenation; `unlines_append_feed` compares it with `unlines`.
-/

namespace SqfLayout.Text

/-! ## Ends -/

section Ends

variable {α : Type} (p : α → Bool)

/-- What `dropWhile` takes away satisfies the test. -/
lemma exists_dropWhile (xs : List α) :
    ∃ front, xs = front ++ xs.dropWhile p ∧ ∀ x ∈ front, p x = true :=
  ⟨xs.takeWhile p, List.takeWhile_append_dropWhile.symm, fun _ h => List.mem_takeWhile_imp h⟩

/-- What `dropEndWhile` takes away satisfies the test. -/
lemma exists_dropEndWhile (xs : List α) :
    ∃ back, xs = dropEndWhile p xs ++ back ∧ ∀ x ∈ back, p x = true :=
  ⟨xs.rtakeWhile p, List.rdropWhile_append_rtakeWhile.symm, fun _ h => List.mem_rtakeWhile_imp h⟩

/-- What `dropEndWhile` leaves ends in an element that does not satisfy the test. -/
lemma getLast?_dropEndWhile (xs : List α) : ∀ x ∈ (dropEndWhile p xs).getLast?, p x = false := by
  intro x hx
  rw [dropEndWhile, List.getLast?_reverse] at hx
  have hnot := List.head?_dropWhile_not p xs.reverse
  rw [Option.mem_def.1 hx] at hnot
  simpa using hnot

/-- What `dropWhile` leaves starts with an element that does not satisfy the test. -/
lemma head?_dropWhile (xs : List α) : ∀ x ∈ (xs.dropWhile p).head?, p x = false := by
  intro x hx
  have hnot := List.head?_dropWhile_not p xs
  rw [Option.mem_def.1 hx] at hnot
  simpa using hnot

/-- What is taken away at both ends satisfies the test. -/
lemma exists_dropEnds (xs : List α) :
    ∃ front back, xs = front ++ ((dropEndWhile p xs).dropWhile p ++ back)
      ∧ (∀ x ∈ front, p x = true) ∧ ∀ x ∈ back, p x = true := by
  obtain ⟨back, hxs, hback⟩ := exists_dropEndWhile p xs
  obtain ⟨front, hkept, hfront⟩ := exists_dropWhile p (dropEndWhile p xs)
  refine ⟨front, back, ?_, hfront, hback⟩
  rw [← List.append_assoc, ← hkept, ← hxs]

/-- What is left ends in an element that does not satisfy the test. -/
lemma getLast?_dropEnds (xs : List α) :
    ∀ x ∈ ((dropEndWhile p xs).dropWhile p).getLast?, p x = false := by
  intro x hx
  obtain ⟨init, hinit⟩ := List.getLast?_eq_some_iff.1 hx
  have hlast : (dropEndWhile p xs).getLast? = some x := by
    rw [← List.takeWhile_append_dropWhile (p := p) (l := dropEndWhile p xs), hinit]
    simp
  exact getLast?_dropEndWhile p xs x hlast

variable {p}

/-- **The part between two stretches that satisfy the test is what is left.** -/
lemma dropEnds_between {front mid back : List α} (hfront : ∀ x ∈ front, p x = true)
    (hback : ∀ x ∈ back, p x = true) (hhead : ∀ x ∈ mid.head?, p x = false)
    (hlast : ∀ x ∈ mid.getLast?, p x = false) :
    (dropEndWhile p (front ++ (mid ++ back))).dropWhile p = mid := by
  have hdropBack : dropEndWhile p (front ++ (mid ++ back)) = dropEndWhile p (front ++ mid) := by
    have hreverse : ∀ x ∈ back.reverse, p x = true := by simpa using hback
    rw [dropEndWhile, dropEndWhile, ← List.append_assoc, List.reverse_append,
      List.dropWhile_append_of_pos hreverse]
  rw [hdropBack]
  cases mid with
  | nil =>
      have hnil : dropEndWhile p (front ++ []) = [] := by
        rw [List.append_nil]
        exact List.rdropWhile_eq_nil_iff.2 hfront
      rw [hnil, List.dropWhile_nil]
  | cons x mid =>
      have hkept : dropEndWhile p (front ++ x :: mid) = front ++ x :: mid := by
        refine List.rdropWhile_eq_self_iff.2 fun hne => ?_
        rw [List.getLast_append_of_ne_nil (by simp)]
        simpa using hlast _ (List.getLast?_eq_some_getLast (List.cons_ne_nil x mid))
      rw [hkept, List.dropWhile_append_of_pos hfront, List.dropWhile_cons_of_neg (by simp [hhead x rfl])]

/-- **Nothing is left of stretches that satisfy the test** at either end. -/
lemma dropEnds_append {front mid back : List α} (hfront : ∀ x ∈ front, p x = true)
    (hback : ∀ x ∈ back, p x = true) :
    (dropEndWhile p (front ++ (mid ++ back))).dropWhile p = (dropEndWhile p mid).dropWhile p := by
  obtain ⟨front', back', hmid, hfront', hback'⟩ := exists_dropEnds p mid
  have hhead : ∀ x ∈ ((dropEndWhile p mid).dropWhile p).head?, p x = false := by
    intro x hx
    have hnot := List.head?_dropWhile_not p (dropEndWhile p mid)
    rw [Option.mem_def.1 hx] at hnot
    simpa using hnot
  have hbetween := dropEnds_between (List.forall_mem_append.2 ⟨hfront, hfront'⟩)
    (List.forall_mem_append.2 ⟨hback', hback⟩) hhead (getLast?_dropEnds p mid)
  simp only [List.append_assoc] at hbetween
  conv_lhs => rw [hmid]
  simpa only [List.append_assoc] using hbetween

end Ends

/-- A trimmed text lacks white space at its ends. -/
lemma exists_trim (line : List Char) :
    ∃ front back, line = front ++ (trim line ++ back)
      ∧ (∀ c ∈ front, isSpace c = true) ∧ ∀ c ∈ back, isSpace c = true :=
  exists_dropEnds isSpace line

/-- A text trimmed at its end lacks white space there. -/
lemma exists_trimEnd (line : List Char) :
    ∃ back, line = trimEnd line ++ back ∧ ∀ c ∈ back, isSpace c = true :=
  exists_dropEndWhile isSpace line

lemma getLast?_trimEnd (line : List Char) : ∀ c ∈ (trimEnd line).getLast?, isSpace c = false :=
  getLast?_dropEndWhile isSpace line

lemma getLast?_trim (line : List Char) : ∀ c ∈ (trim line).getLast?, isSpace c = false :=
  getLast?_dropEnds isSpace line

lemma head?_trimStart (line : List Char) : ∀ c ∈ (trimStart line).head?, isSpace c = false :=
  head?_dropWhile isSpace line

lemma trimEnd_append_space (body : List Char) {back : List Char} (hback : ∀ c ∈ back, isSpace c = true) :
    trimEnd (body ++ back) = trimEnd body := by
  have hreverse : ∀ c ∈ back.reverse, isSpace c = true := by simpa using hback
  rw [trimEnd, trimEnd, dropEndWhile, dropEndWhile, List.reverse_append,
    List.dropWhile_append_of_pos hreverse]

/-! ## Lines -/

section Lines

variable {α : Type}

lemma splitWhen_ne_nil (p : α → Bool) (xs : List α) : splitWhen p xs ≠ [] := by
  cases xs with
  | nil => simp [splitWhen]
  | cons x xs =>
      unfold splitWhen
      split
      · simp
      · split <;> simp

/-- A division is cut at every divider. -/
lemma splitWhen_append_cons {p : α → Bool} (xs ys : List α) {d : α} (hd : p d = true) :
    splitWhen p (xs ++ d :: ys) = splitWhen p xs ++ splitWhen p ys := by
  induction xs with
  | nil => simp [splitWhen, hd]
  | cons x xs ih =>
      by_cases hx : p x = true
      · simp [splitWhen, hx, ih]
      · have hne := splitWhen_ne_nil p xs
        simp only [List.cons_append, splitWhen, hx, ih, Bool.false_eq_true, if_false]
        cases hs : splitWhen p xs with
        | nil => exact absurd hs hne
        | cons piece pieces => simp

lemma joinWith_cons_cons (d x : α) (piece : List α) (pieces : List (List α)) :
    joinWith d ((x :: piece) :: pieces) = x :: joinWith d (piece :: pieces) := by
  cases pieces <;> simp [joinWith]

lemma joinWith_splitWhen [DecidableEq α] (d : α) (xs : List α) :
    joinWith d (splitWhen (· == d) xs) = xs := by
  induction xs with
  | nil => simp [splitWhen, joinWith]
  | cons x xs ih =>
      have hne := splitWhen_ne_nil (· == d) xs
      cases hs : splitWhen (· == d) xs with
      | nil => exact absurd hs hne
      | cons piece pieces =>
          rw [hs] at ih
          by_cases hx : x = d
          · subst hx
            simp [splitWhen, hs, joinWith, ih]
          · simp [splitWhen, hs, hx, joinWith_cons_cons, ih]

/-- **The lines of a text make the text.** -/
lemma unlines_lines (text : List Char) : unlines (lines text) = text := joinWith_splitWhen '\n' text

/-- No piece holds a divider. -/
lemma eq_false_of_mem_splitWhen {p : α → Bool} {xs piece : List α} (h : piece ∈ splitWhen p xs) :
    ∀ x ∈ piece, p x = false := by
  induction xs generalizing piece with
  | nil =>
      simp only [splitWhen, List.mem_singleton] at h
      simp [h]
  | cons x xs ih =>
      simp only [splitWhen] at h
      split at h
      · rcases List.mem_cons.1 h with rfl | h
        · simp
        · exact ih h
      · next hx =>
          have hx' : p x = false := by simpa using hx
          split at h
          · next hs => exact absurd hs (splitWhen_ne_nil p xs)
          · next first pieces hs =>
              rw [hs] at ih
              rcases List.mem_cons.1 h with rfl | h
              · exact List.forall_mem_cons.2 ⟨hx', ih (by simp)⟩
              · exact ih (by simp [h])

lemma feed_notMem_of_mem_lines {text line : List Char} (h : line ∈ lines text) : '\n' ∉ line := by
  intro hfeed
  simpa using eq_false_of_mem_splitWhen h _ hfeed

/-- The pieces of a list whose elements are replaced. -/
lemma map_splitWhen {β : Type} (p : β → Bool) (f : α → β) (xs : List α) :
    (splitWhen (fun x => p (f x)) xs).map (List.map f) = splitWhen p (xs.map f) := by
  induction xs with
  | nil => rfl
  | cons x xs ih =>
      rw [splitWhen, List.map_cons, splitWhen, ← ih]
      split
      · rfl
      · cases splitWhen (fun x => p (f x)) xs <;> rfl

/-- A list without dividers is one piece. -/
lemma splitWhen_eq_singleton {p : α → Bool} {xs : List α} (h : ∀ x ∈ xs, p x = false) :
    splitWhen p xs = [xs] := by
  induction xs with
  | nil => rfl
  | cons x xs ih =>
      obtain ⟨hx, hxs⟩ := List.forall_mem_cons.1 h
      simp [splitWhen, hx, ih hxs]

lemma lines_eq_singleton {line : List Char} (h : '\n' ∉ line) : lines line = [line] := by
  refine splitWhen_eq_singleton fun c hc => ?_
  rw [beq_eq_false_iff_ne]
  exact fun heq => h (heq ▸ hc)

/-- A text without line feeds belongs to the first line of what follows it. -/
lemma lines_append_of_notMem {a b first : List Char} {rest : List (List Char)} (ha : '\n' ∉ a)
    (hb : lines b = first :: rest) : lines (a ++ b) = (a ++ first) :: rest := by
  induction a with
  | nil => exact hb
  | cons c a ih =>
      obtain ⟨hc, ha⟩ := List.ne_and_not_mem_of_not_mem_cons ha
      have hrest : splitWhen (· == '\n') (a ++ b) = (a ++ first) :: rest := ih ha
      simp [lines, splitWhen, hrest, Ne.symm hc]

lemma lines_append_feed (a b : List Char) : lines (a ++ '\n' :: b) = lines a ++ lines b :=
  splitWhen_append_cons a b rfl

/-- Line feeds make empty lines. -/
lemma lines_feeds {gap : List Char} (h : ∀ c ∈ gap, c = '\n') (text : List Char) :
    lines (gap ++ text) = List.replicate gap.length [] ++ lines text := by
  induction gap with
  | nil => rfl
  | cons c gap ih =>
      obtain ⟨rfl, hgap⟩ := List.forall_mem_cons.1 h
      have hfeed := lines_append_feed [] (gap ++ text)
      rw [List.nil_append] at hfeed
      rw [List.cons_append, hfeed, ih hgap, lines_eq_singleton (by simp)]
      rfl

lemma lines_append_feeds {gap : List Char} (h : ∀ c ∈ gap, c = '\n') (text : List Char) :
    lines (text ++ gap) = lines text ++ List.replicate gap.length [] := by
  cases gap with
  | nil => simp
  | cons c gap =>
      obtain ⟨rfl, hgap⟩ := List.forall_mem_cons.1 h
      have hnil : lines [] = [[]] := rfl
      have hlines := lines_feeds hgap []
      rw [List.append_nil, hnil, ← List.replicate_succ'] at hlines
      rw [lines_append_feed, hlines, List.length_cons]

/-- **Pieces without dividers are the pieces of what they make.** -/
lemma splitWhen_joinWith [DecidableEq α] {d : α} {ps : List (List α)} (hne : ps ≠ []) (h : ∀ piece ∈ ps, d ∉ piece) :
    splitWhen (· == d) (joinWith d ps) = ps := by
  have hpiece {piece : List α} (hd : d ∉ piece) : splitWhen (· == d) piece = [piece] :=
    splitWhen_eq_singleton fun x hx => beq_eq_false_iff_ne.2 fun heq => hd (heq ▸ hx)
  induction ps with
  | nil => exact absurd rfl hne
  | cons piece rest ih =>
      obtain ⟨hfirst, hrest⟩ := List.forall_mem_cons.1 h
      cases rest with
      | nil => exact hpiece hfirst
      | cons next rest =>
          have hjoin : joinWith d (piece :: next :: rest) = piece ++ d :: joinWith d (next :: rest) := rfl
          rw [hjoin, splitWhen_append_cons (p := (· == d)) _ _ (beq_self_eq_true d), hpiece hfirst, ih (by simp) hrest]
          rfl

lemma joinWith_append (d : α) {a b : List (List α)} (ha : a ≠ []) (hb : b ≠ []) :
    joinWith d (a ++ b) = joinWith d a ++ d :: joinWith d b := by
  induction a with
  | nil => exact absurd rfl ha
  | cons piece rest ih =>
      cases rest with
      | nil =>
          obtain ⟨next, b, rfl⟩ := List.exists_cons_of_ne_nil hb
          rfl
      | cons next rest =>
          have hjoin (tail : List (List α)) :
              joinWith d (piece :: next :: tail) = piece ++ d :: joinWith d (next :: tail) := rfl
          rw [List.cons_append, List.cons_append, hjoin, hjoin, ← List.cons_append, ih (by simp)]
          simp

/-- **Lines without line feeds are the lines of their text.** -/
lemma lines_unlines {ls : List (List Char)} (hne : ls ≠ []) (h : ∀ line ∈ ls, '\n' ∉ line) :
    lines (unlines ls) = ls := splitWhen_joinWith hne h

lemma unlines_append {a b : List (List Char)} (ha : a ≠ []) (hb : b ≠ []) :
    unlines (a ++ b) = unlines a ++ '\n' :: unlines b := joinWith_append '\n' ha hb

/-- A text ends as its last line does, if that is not empty. -/
lemma getLast?_unlines {ls : List (List Char)} {line : List Char} (hlast : ls.getLast? = some line)
    (hline : line ≠ []) : (unlines ls).getLast? = line.getLast? := by
  obtain ⟨init, rfl⟩ := List.getLast?_eq_some_iff.1 hlast
  by_cases hinit : init = []
  · subst hinit
    rfl
  · rw [unlines_append hinit (List.cons_ne_nil _ _), List.getLast?_append_of_ne_nil _ (by simp)]
    have hrow : unlines [line] = line := rfl
    obtain ⟨c, rest, rfl⟩ := List.exists_cons_of_ne_nil hline
    rw [hrow, List.getLast?_cons_cons]

/-- A text that does not end in a line feed ends as one of its lines does. -/
lemma exists_line_of_append (front : List Char) {c : Char} (hc : c ≠ '\n') :
    ∃ line ∈ lines (front ++ [c]), line.getLast? = some c := by
  induction front with
  | nil => exact ⟨[c], by simp [lines_eq_singleton, Ne.symm hc], rfl⟩
  | cons d front ih =>
      obtain ⟨line, hline, hlast⟩ := ih
      simp only [lines, List.cons_append, splitWhen] at hline ⊢
      split
      · exact ⟨line, List.mem_cons_of_mem _ hline, hlast⟩
      · split
        · next hs => exact absurd hs (splitWhen_ne_nil _ _)
        · next piece pieces hs =>
            rw [hs] at hline
            rcases List.mem_cons.1 hline with rfl | hline
            · refine ⟨d :: line, by simp, ?_⟩
              rw [List.getLast?_cons, hlast]
              rfl
            · exact ⟨line, by simp [hline], hlast⟩

/-- The pieces cut behind dividers make the whole. -/
lemma flatten_splitAfter (p : α → Bool) (xs : List α) : (splitAfter p xs).flatten = xs := by
  induction xs with
  | nil => simp [splitAfter]
  | cons x xs ih =>
      unfold splitAfter
      split
      · simp [ih]
      · split
        · next hs => simpa [hs] using ih
        · next piece pieces hs =>
            rw [hs] at ih
            simp only [List.flatten_cons] at ih
            simp [ih]

/-- A divider at the end belongs to the last piece, or is a piece of its own. -/
lemma splitAfter_append_divider {p : α → Bool} {d : α} (hd : p d = true) (xs : List α) :
    splitAfter p (xs ++ [d]) = splitAfter p xs ++ [[d]]
      ∨ ∃ init last, splitAfter p xs = init ++ [last] ∧ splitAfter p (xs ++ [d]) = init ++ [last ++ [d]] := by
  induction xs with
  | nil => exact .inl (by simp [splitAfter, hd])
  | cons x xs ih =>
      by_cases hx : p x = true
      · simp only [List.cons_append, splitAfter, if_pos hx]
        rcases ih with h | ⟨init, last, hxs, h⟩
        · exact .inl (by rw [h])
        · exact .inr ⟨[x] :: init, last, by rw [hxs]; rfl, by rw [h]; rfl⟩
      · simp only [List.cons_append, splitAfter, if_neg hx]
        rcases ih with h | ⟨init, last, hxs, h⟩
        · rw [h]
          cases splitAfter p xs with
          | nil => exact .inr ⟨[], [x], rfl, rfl⟩
          | cons piece pieces => exact .inl rfl
        · rw [hxs, h]
          cases init with
          | nil => exact .inr ⟨[], x :: last, rfl, rfl⟩
          | cons piece init => exact .inr ⟨(x :: piece) :: init, last, rfl, rfl⟩

end Lines

/-- Every line with its line feed. -/
def rows (ls : List (List Char)) : List Char := ls.flatMap fun line => line ++ ['\n']

@[simp] lemma rows_nil : rows [] = [] := rfl

@[simp] lemma rows_cons (line : List Char) (ls : List (List Char)) :
    rows (line :: ls) = line ++ '\n' :: rows ls := by
  simp [rows]

/-- A text of at least one line differs from its rows by one line feed. -/
lemma unlines_append_feed {ls : List (List Char)} (h : ls ≠ []) : unlines ls ++ ['\n'] = rows ls := by
  induction ls with
  | nil => exact absurd rfl h
  | cons line rest ih =>
      cases rest with
      | nil => simp [unlines, joinWith]
      | cons next rest =>
          have := ih (by simp)
          simp only [unlines, joinWith, rows_cons] at this ⊢
          simp [this]

/-- Lines in front of a line are its rows. -/
lemma unlines_append_cons (ls : List (List Char)) (line : List Char) (rest : List (List Char)) :
    unlines (ls ++ line :: rest) = rows ls ++ unlines (line :: rest) := by
  induction ls with
  | nil => rfl
  | cons first ls ih =>
      have hcons : unlines (first :: (ls ++ line :: rest)) = first ++ '\n' :: unlines (ls ++ line :: rest) := by
        cases ls <;> rfl
      rw [List.cons_append, hcons, ih, rows_cons]
      simp

/-- The first line of a text may be cut anywhere. -/
lemma unlines_append_head (a b : List Char) (rest : List (List Char)) :
    unlines ((a ++ b) :: rest) = a ++ unlines (b :: rest) := by
  cases rest <;> simp [unlines, joinWith]

/-- Rows end in a line feed. -/
lemma eq_feed_of_mem_getLast?_rows {ls : List (List Char)} {c : Char} (hc : c ∈ (rows ls).getLast?) : c = '\n' := by
  rcases List.eq_nil_or_concat' ls with rfl | ⟨init, last, rfl⟩
  · simp at hc
  · simpa [rows, eq_comm] using hc

/-- Rows in front of a text are lines of it. -/
lemma lines_rows_text {init : List (List Char)} (hinit : ∀ line ∈ init, '\n' ∉ line) (text : List Char) :
    lines (rows init ++ text) = init ++ lines text := by
  induction init with
  | nil => rfl
  | cons line init ih =>
      obtain ⟨hline, hinit⟩ := List.forall_mem_cons.1 hinit
      rw [rows_cons, List.append_assoc, List.cons_append, lines_append_feed, lines_eq_singleton hline, ih hinit]
      rfl

/-- Rows and a line behind them are a text of those lines. -/
lemma lines_rows_append {init : List (List Char)} {last : List Char} (hinit : ∀ line ∈ init, '\n' ∉ line)
    (hlast : '\n' ∉ last) : lines (rows init ++ last) = init ++ [last] := by
  rw [lines_rows_text hinit, lines_eq_singleton hlast]

/-- **A text is rows and a last line.** -/
lemma exists_rows_append (text : List Char) :
    ∃ init last, text = rows init ++ last ∧ (∀ line ∈ init, '\n' ∉ line) ∧ '\n' ∉ last := by
  obtain ⟨init, last, hlines⟩ := (List.eq_nil_or_concat' (lines text)).resolve_left (splitWhen_ne_nil _ text)
  refine ⟨init, last, ?_, fun line hline => ?_, ?_⟩
  · rw [← unlines_lines text, hlines, unlines_append_cons]
    rfl
  · have hmem : line ∈ lines text := by simp [hlines, hline]
    exact feed_notMem_of_mem_lines hmem
  · have hmem : last ∈ lines text := by simp [hlines]
    exact feed_notMem_of_mem_lines hmem

lemma mem_of_mem_lines {text line : List Char} (hline : line ∈ lines text) {c : Char} (hc : c ∈ line) :
    c ∈ text := by
  obtain ⟨before, after, hlines⟩ := List.append_of_mem hline
  rw [← unlines_lines text, hlines, unlines_append_cons]
  refine List.mem_append_right _ ?_
  cases after with
  | nil => exact hc
  | cons next after => exact List.mem_append_left _ hc

end SqfLayout.Text
