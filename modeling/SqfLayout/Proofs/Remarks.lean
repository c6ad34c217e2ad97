import SqfLayout.Proofs.Lexemes
import SqfLayout.Proofs.LineScans
import SqfLayout.Proofs.Trails

/-!
# Remarks

A remark is a line that begins with two slashes.  In code it is a comment; inside a literal or a block
comment it only looks like one.  This file says where the remarks of a text are, in two ways.

**Line by line.**  `remarks` goes through the lines, each with the mode in which it starts.  A remark
reaches to the end of its line, or to the end of the literal or block comment in which the line starts.

**From the whole text.**  A text has a trail of everything outside code and of all slashes (`talk`), and
each slash on it is followed by the rest of the literal or comment that it is in (`spots`).  Which of the
slashes begin a remark is told by the characters alone (`slashMarks`).

The remarks are the spots that are marked (`remarks_eq_picked`).  Hence a pass that keeps the trail of a
text keeps its remarks if it keeps the marks (`remarks_of_sameTrail`).
-/

namespace SqfLayout.Pass

open SqfLayout.Text SqfLayout.Scan

/-! ## Line by line -/

/-- The part of a text that lies in the literal or the comment in which the text starts. -/
def within : Mode → List Char → List Char
  | .single => through ['\'']
  | .double => through ['"']
  | .block => through ['*', '/']
  | .code => id
  | .line => id

/-- **A line that begins with two slashes**, without the white space around it, and the mode in which it
starts. -/
structure Remark where
  mode : Mode
  text : List Char
  deriving DecidableEq, Repr

/-- Whether two slashes are the first characters of a line that are not white space. -/
def isRemark (line : List Char) : Bool := ['/', '/'].isPrefixOf (trimStart line)

/-- The remark that a line is. -/
def remark? (mode : Mode) (line : List Char) : Option Remark :=
  if isRemark line then some ⟨mode, trimEnd (within mode (trimStart line))⟩ else none

/-- The remarks among lines, the first of which starts in the given mode. -/
def remarksFrom : Mode → List (List Char) → List Remark
  | _, [] => []
  | mode, line :: rest => (remark? mode line).toList ++ remarksFrom (scanLine mode line).2 rest

/-- **The remarks of a text.** -/
def remarks (text : List Char) : List Remark := remarksFrom .code (lines text)

/-! ## Marks -/

/-- Whether only white space stands behind the last line feed, with one more character. -/
def staysFresh (fresh : Bool) (c : Char) : Bool := c == '\n' || fresh && isSpace c

/-- **For every slash, whether it begins a remark**: another one follows it and nothing but white space
stands before it on its line. -/
def slashMarks : Bool → List Char → Option Char → List Bool
  | _, [], _ => []
  | fresh, c :: rest, follow =>
    (if c == '/' then [fresh && rest.head?.or follow == some '/'] else [])
      ++ slashMarks (staysFresh fresh c) rest follow

section Marks

variable {fresh : Bool} {a b text : List Char} {follow : Option Char}

lemma slashMarks_append (fresh : Bool) (a b : List Char) (follow : Option Char) :
    slashMarks fresh (a ++ b) follow
      = slashMarks fresh a (b.head?.or follow) ++ slashMarks (a.foldl staysFresh fresh) b follow := by
  induction a generalizing fresh with
  | nil => rfl
  | cons c a ih => simp [slashMarks, ih, Option.or_assoc]

/-- Only a slash that follows matters. -/
lemma slashMarks_congr {f g : Option Char} (h : (f == some '/') = (g == some '/')) (fresh : Bool)
    (text : List Char) : slashMarks fresh text f = slashMarks fresh text g := by
  induction text generalizing fresh with
  | nil => rfl
  | cons c rest ih =>
      have hnext : (rest.head?.or f == some '/') = (rest.head?.or g == some '/') := by
        cases rest with
        | nil => exact h
        | cons _ _ => rfl
      rw [slashMarks, slashMarks, hnext, ih]

lemma slash_notMem_of_space {w : List Char} (hw : ∀ c ∈ w, isSpace c = true) : '/' ∉ w := fun hslash =>
  absurd (hw _ hslash) (by decide)

lemma slashMarks_space (h : ∀ c ∈ a, isSpace c = true) (b : List Char) (follow : Option Char) :
    slashMarks true (a ++ b) follow = slashMarks true b follow := by
  induction a with
  | nil => rfl
  | cons c a ih =>
      obtain ⟨hc, ha⟩ := List.forall_mem_cons.1 h
      have hslash : c ≠ '/' := by
        rintro rfl
        exact absurd hc (by decide)
      simp [slashMarks, hslash, staysFresh, hc, ih ha]

/-- Behind a character that is not white space no slash of the line begins a remark. -/
lemma eq_false_of_mem_slashMarks (hfeed : '\n' ∉ text) :
    ∀ mark ∈ slashMarks false text follow, mark = false := by
  induction text with
  | nil => simp [slashMarks]
  | cons c rest ih =>
      obtain ⟨hc, hrest⟩ := List.ne_and_not_mem_of_not_mem_cons hfeed
      intro mark hmark
      have hstale : staysFresh false c = false := by simp [staysFresh, Ne.symm hc]
      rw [slashMarks, hstale, List.mem_append] at hmark
      rcases hmark with hmark | hmark
      · split at hmark
        · simpa using hmark
        · simp at hmark
      · exact ih hrest mark hmark

lemma length_slashMarks (fresh : Bool) (text : List Char) (follow : Option Char) :
    (slashMarks fresh text follow).length = text.count '/' := by
  induction text generalizing fresh with
  | nil => rfl
  | cons c rest ih =>
      rw [slashMarks, List.length_append, ih, List.count_cons, Nat.add_comm]
      split <;> rfl

end Marks

/-- The marked ones. -/
def picked {α : Type} (marks : List Bool) (xs : List α) : List α :=
  ((marks.zip xs).filter Prod.fst).map Prod.snd

section Picked

variable {α : Type} {marks : List Bool} {xs : List α}

lemma picked_append (h : marks.length = xs.length) (marks' : List Bool) (xs' : List α) :
    picked (marks ++ marks') (xs ++ xs') = picked marks xs ++ picked marks' xs' := by
  simp [picked, List.zip_append h]

lemma picked_eq_nil (h : ∀ mark ∈ marks, mark = false) (xs : List α) : picked marks xs = [] := by
  rw [picked, List.map_eq_nil_iff, List.filter_eq_nil_iff]
  rintro ⟨mark, x⟩ hmem
  simp [h mark (List.of_mem_zip hmem).1]

end Picked

/-! ## Spots -/

/-- A cell outside code, or a slash. -/
def isTalk (cell : Cell) : Bool := cell.kind != .code || cell.char == '/'

/-- Everything outside code and all slashes of a text that is read from the given cursor. -/
def talk (start : Cursor) (text : List Char) : List (Cursor × Cell) :=
  trail isTalk start (labelFrom start text) none

/-- Whether a place belongs to the literal or comment before it, within its line. -/
def goesOn (place : Cursor × Cell) : Bool := place.1 != .ready .code && place.2.char != '\n'

/-- The text of the places that go on with the literal or comment before them. -/
def stretch (places : List (Cursor × Cell)) : List Char := chars ((places.takeWhile goesOn).map Prod.snd)

/-- **For every slash, the remark that it would begin.** -/
def spots : List (Cursor × Cell) → List Remark
  | [] => []
  | place :: rest =>
    if place.2.char == '/' then
      ⟨place.1.mode, trimEnd ('/' :: stretch rest)⟩ :: spots rest
    else spots rest

section Spots

variable {mode : Mode} {text : List Char} {a b : List (Cursor × Cell)}

lemma spots_append (a : List (Cursor × Cell)) (hb : ∀ place ∈ b.head?, goesOn place = false) :
    spots (a ++ b) = spots a ++ spots b := by
  have hstop : b.takeWhile goesOn = [] := by
    cases b with
    | nil => rfl
    | cons place b => exact List.takeWhile_cons_of_neg (by simp [hb place rfl])
  induction a with
  | nil => rfl
  | cons place a ih =>
      have hrest : (a ++ b).takeWhile goesOn = a.takeWhile goesOn := by
        rw [List.takeWhile_append, hstop]
        split
        · next hall => rw [List.append_nil, (List.takeWhile_prefix goesOn).eq_of_length hall]
        · rfl
      rw [List.cons_append, spots, spots, stretch, stretch, hrest, ih]
      split <;> rfl

/-- Places without slashes are no spots. -/
lemma spots_of_notSlash (ha : ∀ place ∈ a, place.2.char ≠ '/') (b : List (Cursor × Cell)) :
    spots (a ++ b) = spots b := by
  induction a with
  | nil => rfl
  | cons place a ih =>
      obtain ⟨hplace, ha⟩ := List.forall_mem_cons.1 ha
      rw [List.cons_append, spots, if_neg (by simpa using hplace), ih ha]

lemma length_spots (start : Cursor) (text : List Char) :
    (spots (talk start text)).length = text.count '/' := by
  have hlength (places : List (Cursor × Cell)) :
      (spots places).length = (places.map Prod.snd).countP (·.char == '/') := by
    induction places with
    | nil => rfl
    | cons place places ih =>
        rw [spots, List.map_cons, List.countP_cons, ← ih]
        split <;> simp
  have hkept : ((labelFrom start text).filter isTalk).countP (·.char == '/')
      = (labelFrom start text).countP (·.char == '/') := by
    rw [List.countP_filter]
    refine List.countP_congr fun cell _ => ?_
    simp +contextual [isTalk]
  conv_rhs => rw [← chars_labelFrom start text, chars, List.count, List.countP_map]
  rw [hlength, talk, map_snd_trail, hkept]
  rfl

end Spots

section Talk

variable {start next : Cursor} {c : Char} {text rest : List Char} {kind : CharClass}

lemma talk_cons (h : step start c rest.head? = (kind, next)) :
    talk start (c :: rest)
      = (if isTalk ⟨c, kind⟩ then [(start, ⟨c, kind⟩)] else []) ++ talk next rest := by
  rw [talk, labelFrom_cons, h]
  have hstep : step start c (nextChar (labelFrom next rest) none) = (kind, next) := by
    rw [nextChar_eq, chars_labelFrom, Option.or_none, h]
  exact trail_cons hstep

/-- Outside code every character is on the trail. -/
lemma talk_cons_of_ne_code (h : step start c rest.head? = (kind, next)) (hkind : kind ≠ .code) :
    talk start (c :: rest) = (start, ⟨c, kind⟩) :: talk next rest := by
  rw [talk_cons h, if_pos (by simp [isTalk, hkind])]
  rfl

/-- White space in front of a text is no slash. -/
lemma talk_space {w : List Char} (hw : ∀ c ∈ w, isSpace c = true) {mode : Mode} (hmode : mode ≠ .line)
    (b : List Char) :
    ∃ places, talk (.ready mode) (w ++ b) = places ++ talk (.ready mode) b
      ∧ ∀ place ∈ places, place.2.char ≠ '/' := by
  have hreads : Reads (.ready mode) (w.map (⟨·, mode.kind⟩))
      (nextChar (labelFrom (.ready mode) b) none) (.ready mode) :=
    (reads_space (by simpa using hw) hmode).2 ⟨rfl, by simp⟩
  refine ⟨_, by rw [talk, (labelFrom_space hw hmode b).1, trail_append _ hreads, ← talk], ?_⟩
  intro place hplace hslash
  have hcell := List.mem_map_of_mem (f := Prod.snd) hplace
  rw [map_snd_trail, List.mem_filter] at hcell
  have hchar : place.2.char ∈ chars (w.map (⟨·, mode.kind⟩)) := List.mem_map_of_mem hcell.1
  rw [chars_map_mk] at hchar
  have hspace := hw _ hchar
  rw [hslash] at hspace
  exact absurd hspace (by decide)

/-- Read from code, the first place of a trail is at code. -/
lemma cursor_of_head_talk {place : Cursor × Cell} (h : place ∈ (talk (.ready .code) text).head?) :
    place.1 = .ready .code := by
  induction text with
  | nil => simp [talk, labelFrom] at h
  | cons c rest ih =>
      cases hstep : step (.ready .code) c rest.head? with
      | mk kind next =>
          rw [talk_cons hstep] at h
          by_cases hkept : isTalk ⟨c, kind⟩ = true
          · rw [if_pos hkept] at h
            obtain rfl := Option.some.inj h
            rfl
          · -- a character of code, and the scanner stays in code
            rw [if_neg hkept, List.nil_append] at h
            obtain rfl : kind = .code := by
              simp only [isTalk, Bool.or_eq_true, bne_iff_ne] at hkept
              exact of_not_not fun hne => hkept (.inl hne)
            obtain rfl := (ready_of_code hstep).1
            exact ih h

lemma takeWhile_talk_code (text : List Char) : (talk (.ready .code) text).takeWhile goesOn = [] := by
  cases hplaces : talk (.ready .code) text with
  | nil => rfl
  | cons place places =>
      have hplace : place.1 = .ready .code := cursor_of_head_talk (by rw [hplaces]; rfl)
      exact List.takeWhile_cons_of_neg (by simp [goesOn, hplace])

/-! ## What is in a literal or a comment -/

lemma stretch_cons {place : Cursor × Cell} (h : goesOn place = true) (places : List (Cursor × Cell)) :
    stretch (place :: places) = place.2.char :: stretch places := by
  rw [stretch, List.takeWhile_cons_of_pos h]
  rfl

lemma stretch_talk_code (text : List Char) : stretch (talk (.ready .code) text) = [] := by
  rw [stretch, takeWhile_talk_code]
  rfl

/-- **A literal reaches to the next quote of its kind.** -/
lemma stretch_quoted (mode : Mode) (quote : Char) (hmode : mode ≠ .code)
    (hstep : ∀ c next, step (.ready mode) c next
      = (.literal, .ready (if c = quote then .code else mode))) (hfeed : '\n' ∉ text) :
    stretch (talk (.ready mode) text) = through [quote] text := by
  induction text with
  | nil => rfl
  | cons c rest ih =>
      obtain ⟨hc, hrest⟩ := List.ne_and_not_mem_of_not_mem_cons hfeed
      rw [talk_cons_of_ne_code (hstep c _) (by decide),
        stretch_cons (by simp [goesOn, hmode, Ne.symm hc])]
      by_cases hquote : c = quote
      · rw [if_pos hquote, stretch_talk_code]
        simp [through, hquote]
      · rw [if_neg hquote, ih hrest]
        simp [through, Ne.symm hquote]

/-- **A line comment reaches to the end of the line.** -/
lemma stretch_line (hfeed : '\n' ∉ text) : stretch (talk (.ready .line) text) = text := by
  induction text with
  | nil => rfl
  | cons c rest ih =>
      obtain ⟨hc, hrest⟩ := List.ne_and_not_mem_of_not_mem_cons hfeed
      have hstep : step (.ready .line) c rest.head? = (.comment, .ready .line) := by
        simp [step, Ne.symm hc]
      rw [talk_cons_of_ne_code hstep (by decide), stretch_cons (by simp [goesOn, Ne.symm hc]), ih hrest]

/-- **A block comment reaches to the next star and slash.** -/
lemma stretch_block (hfeed : '\n' ∉ text) :
    stretch (talk (.ready .block) text) = through ['*', '/'] text := by
  induction text with
  | nil => rfl
  | cons c rest ih =>
      obtain ⟨hc, hrest⟩ := List.ne_and_not_mem_of_not_mem_cons hfeed
      by_cases hclose : c = '*' ∧ rest.head? = some '/'
      · obtain ⟨rfl, hslash⟩ := hclose
        obtain ⟨rest, rfl⟩ := List.head?_eq_some_iff.1 hslash
        have hstar : step (.ready .block) '*' ('/' :: rest).head? = (.comment, .midway .code) := rfl
        have hmidway : step (.midway .code) '/' rest.head? = (.comment, .ready .code) := rfl
        rw [talk_cons_of_ne_code hstar (by decide), talk_cons_of_ne_code hmidway (by decide),
          stretch_cons (by decide), stretch_cons (by decide), stretch_talk_code]
        rfl
      · obtain ⟨hstep, hmark⟩ := step_block_on hclose
        rw [talk_cons_of_ne_code hstep (by decide), stretch_cons (by simp [goesOn, Ne.symm hc]), ih hrest,
          through, if_neg (by simp [hmark])]

lemma stretch_within {mode : Mode} (hmode : mode ≠ .code) (hfeed : '\n' ∉ text) :
    stretch (talk (.ready mode) text) = within mode text := by
  cases mode with
  | code => exact absurd rfl hmode
  | single => exact stretch_quoted .single '\'' (by decide) (by simp [step]) hfeed
  | double => exact stretch_quoted .double '"' (by decide) (by simp [step]) hfeed
  | line => exact stretch_line hfeed
  | block => exact stretch_block hfeed

end Talk

/-! ## The remarks of a text -/

/-- The first of two slashes begins a remark. -/
lemma spots_slashes (mode : Mode) {rest : List Char} (hfeed : '\n' ∉ rest) :
    ∃ places, spots (talk (.ready mode) ('/' :: '/' :: rest))
      = ⟨mode, trimEnd (within mode ('/' :: '/' :: rest))⟩ :: places := by
  have htail : '\n' ∉ '/' :: rest := List.not_mem_cons_of_ne_of_not_mem (by decide) hfeed
  have hall : '\n' ∉ '/' :: '/' :: rest := List.not_mem_cons_of_ne_of_not_mem (by decide) htail
  obtain ⟨kind, next, hstep, hkind⟩ : ∃ kind next,
      step (.ready mode) '/' ('/' :: rest).head? = (kind, next) ∧ kind ≠ .code := by
    cases mode with
    | code => exact ⟨.comment, .ready .line, rfl, by decide⟩
    | single => exact ⟨.literal, .ready .single, rfl, by decide⟩
    | double => exact ⟨.literal, .ready .double, rfl, by decide⟩
    | line => exact ⟨.comment, .ready .line, rfl, by decide⟩
    | block => exact ⟨.comment, .ready .block, rfl, by decide⟩
  have htalk := talk_cons_of_ne_code hstep hkind
  have hstretch : '/' :: stretch (talk next ('/' :: rest)) = within mode ('/' :: '/' :: rest) := by
    by_cases hcode : mode = .code
    · subst hcode
      obtain ⟨-, rfl⟩ : CharClass.comment = kind ∧ Cursor.ready .line = next := Prod.mk.inj hstep
      rw [stretch_line htail]
      rfl
    · rw [← stretch_within hcode hall, htalk, stretch_cons (by simp [goesOn, hcode])]
  refine ⟨spots (talk next ('/' :: rest)), ?_⟩
  rw [htalk, spots, if_pos (by rfl), hstretch]
  rfl

/-- **The remark of a line is the spot that is marked on it.** -/
lemma remark?_eq_picked {mode : Mode} (hmode : mode ≠ .line) {line : List Char} (hfeed : '\n' ∉ line) :
    (remark? mode line).toList = picked (slashMarks true line none) (spots (talk (.ready mode) line)) := by
  obtain ⟨w, hline, hw⟩ := exists_dropWhile isSpace line
  have hhead := head?_trimStart line
  -- the white space in front has no marks and no spots
  obtain ⟨places, hplaces, hslash⟩ := talk_space hw hmode (trimStart line)
  have hmarks : slashMarks true line none = slashMarks true (trimStart line) none := by
    conv_lhs => rw [hline]
    exact slashMarks_space hw _ none
  have hspots : spots (talk (.ready mode) line) = spots (talk (.ready mode) (trimStart line)) := by
    conv_lhs => rw [hline]
    rw [← trimStart, hplaces, spots_of_notSlash hslash]
  have hbody : '\n' ∉ trimStart line := fun h => hfeed ((List.dropWhile_sublist isSpace).subset h)
  rw [hmarks, hspots, remark?, isRemark]
  generalize trimStart line = body at hhead hbody
  by_cases hremark : ['/', '/'].isPrefixOf body = true
  · obtain ⟨rest, rfl⟩ := List.isPrefixOf_iff_prefix.1 hremark
    rw [if_pos hremark]
    have hrest : '\n' ∉ '/' :: rest := List.not_mem_of_not_mem_cons hbody
    obtain ⟨others, hothers⟩ := spots_slashes mode (List.not_mem_of_not_mem_cons hrest)
    -- the first slash is marked, and it is the only one
    have hnone : picked (slashMarks false ('/' :: rest) none) others = [] :=
      picked_eq_nil (eq_false_of_mem_slashMarks hrest) _
    rw [List.cons_append, List.singleton_append, hothers]
    exact congrArg (_ :: ·) hnone.symm
  · rw [if_neg hremark]
    refine (picked_eq_nil (fun mark hmark => ?_) _).symm
    cases body with
    | nil => simp [slashMarks] at hmark
    | cons c rest =>
        obtain ⟨hc, hrest⟩ := List.ne_and_not_mem_of_not_mem_cons hbody
        have hstale : staysFresh true c = false := by simp [staysFresh, Ne.symm hc, hhead c rfl]
        rw [slashMarks, hstale, List.mem_append] at hmark
        rcases hmark with hmark | hmark
        · split at hmark
          · next hslash =>
              obtain rfl := eq_of_beq hslash
              have hsecond : (rest.head? == some '/') = false := by
                rw [beq_eq_false_iff_ne]
                intro hsecond
                obtain ⟨tail, rfl⟩ := List.head?_eq_some_iff.1 hsecond
                exact hremark rfl
              simpa [hsecond] using hmark
          · simp at hmark
        · exact eq_false_of_mem_slashMarks hrest mark hmark

/-- The spots of a line and those behind it. -/
lemma spots_line (mode : Mode) (line rest : List Char) :
    spots (talk (.ready mode) (line ++ '\n' :: rest))
      = spots (talk (.ready mode) line) ++ spots (talk (.ready (scanLine mode line).2) rest) := by
  have hcut : talk (.ready mode) (line ++ '\n' :: rest)
      = talk (.ready mode) line ++ talk (.ready (modeAfter mode line)) ('\n' :: rest) := by
    have hheeded : heeded (some '\n') = heeded none := by decide
    have hreads : Reads (.ready mode) (labelFrom (.ready mode) line)
        (nextChar (labelFrom (.ready (modeAfter mode line)) ('\n' :: rest)) none)
        (.ready (modeAfter mode line)) :=
      (reads_congr hheeded).2 (reads_modeAfter mode line)
    have htrail : trail isTalk (.ready mode) (labelFrom (.ready mode) line) (some '\n')
        = talk (.ready mode) line := trail_congr hheeded _ _
    rw [talk, (labelFrom_cut mode line (b := '\n' :: rest) rfl).1, trail_append _ hreads, ← htrail]
    rfl
  have hnext := talk_cons (step_afterLine (modeAfter mode line) rest.head?)
  have hfeed : spots (talk (.ready (modeAfter mode line)) ('\n' :: rest))
      = spots (talk (.ready (scanLine mode line).2) rest) := by
    rw [hnext, spots_of_notSlash]
    · rfl
    · intro place hplace
      split at hplace
      · obtain rfl := List.mem_singleton.1 hplace
        exact (by decide : '\n' ≠ '/')
      · simp at hplace
  rw [hcut, spots_append, hfeed]
  intro place hplace
  rw [hnext] at hplace
  split at hplace
  · obtain rfl := Option.some.inj hplace
    simp [goesOn]
  · next hcode =>
      -- the line feed is code, so the scanner is in code behind it
      have hmode : (modeAfter mode line).afterLine = .code := by
        by_contra hmode
        exact hcode (by simp [isTalk, kind_ne_code hmode])
      rw [List.nil_append, hmode] at hplace
      simp [goesOn, cursor_of_head_talk hplace]

lemma remarksFrom_eq_picked {mode : Mode} (hmode : mode ≠ .line) {ls : List (List Char)}
    (hls : ∀ line ∈ ls, '\n' ∉ line) :
    remarksFrom mode ls = picked (slashMarks true (unlines ls) none) (spots (talk (.ready mode) (unlines ls))) := by
  induction ls generalizing mode with
  | nil => rfl
  | cons line rest ih =>
      obtain ⟨hline, hrest⟩ := List.forall_mem_cons.1 hls
      rw [remarksFrom, ih (scanLine_ne_line mode line) hrest, remark?_eq_picked hmode hline]
      cases rest with
      | nil => simp [unlines, joinWith, picked, slashMarks]
      | cons next rest =>
          have htext : unlines (line :: next :: rest) = line ++ '\n' :: unlines (next :: rest) := rfl
          have hmarks : slashMarks true (line ++ '\n' :: unlines (next :: rest)) none
              = slashMarks true line none ++ slashMarks true (unlines (next :: rest)) none := by
            rw [slashMarks_append, slashMarks_congr (g := none) (by rfl)]
            simp [slashMarks, staysFresh]
          rw [htext, hmarks, spots_line, picked_append]
          rw [length_slashMarks, length_spots]

/-- **The remarks of a text are the spots that are marked.** -/
lemma remarks_eq_picked (text : List Char) :
    remarks text = picked (slashMarks true text none) (spots (talk (.ready .code) text)) := by
  have hls : ∀ line ∈ lines text, '\n' ∉ line := fun _ => feed_notMem_of_mem_lines
  have hremarks := remarksFrom_eq_picked (show Mode.code ≠ .line by decide) hls
  rwa [unlines_lines] at hremarks

/-- **A text with the same trail and the same marks has the same remarks.** -/
lemma remarks_of_sameTrail {a b : List Char} (htrail : SameTrail isTalk a b)
    (hmarks : slashMarks true b none = slashMarks true a none) : remarks b = remarks a := by
  have htalk : talk (.ready .code) b = talk (.ready .code) a := htrail.1
  rw [remarks_eq_picked, remarks_eq_picked, hmarks, htalk]

end SqfLayout.Pass
