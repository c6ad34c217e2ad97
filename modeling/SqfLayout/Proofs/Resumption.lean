import SqfLayout.Proofs.Lexemes

/-!
# Scanning in parts

A text may be scanned in two parts, the second one in the mode that the first one left, unless the cut divides
a comment delimiter.

**Delimiters.**  The scanner looks ahead only to see whether a character and the next one make up a delimiter
(`step_eq_step_none_iff`).  This depends on the cursor: in code a slash before a slash or a star does, and in
a block comment a star before a slash, but not the star that has opened the comment, since the cursor is
midway there.

**Cuts.**  `lastRead` is the last character of a text with the cursor before it, so `cutsDelimiter` tells
whether that character and the one behind the cut are a delimiter.  If they are not, the scan resumes behind
the cut; if they are, it goes wrong on the first character there (`scan_resumes`).
-/

namespace SqfLayout.Scan

open SqfLayout.Text

/-! ## Delimiters -/

/-- Whether a character that is read at the cursor makes up a comment delimiter with the next one. -/
def isDelimiter : Cursor → Char → Option Char → Bool
  | .ready .code, c, next => c == '/' && (next == some '/' || next == some '*')
  | .ready .block, c, next => c == '*' && next == some '/'
  | _, _, _ => false

/-- **The next character matters only to a delimiter.** -/
lemma step_eq_step_none_iff (cursor : Cursor) (c : Char) (next : Option Char) :
    step cursor c next = step cursor c none ↔ isDelimiter cursor c next = false := by
  cases cursor with
  | midway mode => simp [step, isDelimiter]
  | ready mode =>
      cases mode with
      | code =>
          by_cases hc : c = '/'
          · subst hc
            by_cases hslash : next = some '/'
            · simp [step, isDelimiter, hslash]
            · by_cases hstar : next = some '*' <;> simp [step, isDelimiter, hslash, hstar]
          · simp [step, isDelimiter, hc]
      | block =>
          by_cases hstar : c = '*' <;> by_cases hslash : next = some '/' <;>
            simp [step, isDelimiter, hstar, hslash]
      | single => simp [step, isDelimiter]
      | double => simp [step, isDelimiter]
      | line => simp [step, isDelimiter]

lemma isDelimiter_iff {cursor : Cursor} {c : Char} {next : Option Char} :
    isDelimiter cursor c next = true ↔
      cursor = .ready .code ∧ c = '/' ∧ (next = some '/' ∨ next = some '*')
        ∨ cursor = .ready .block ∧ c = '*' ∧ next = some '/' := by
  cases cursor with
  | midway mode => simp [isDelimiter]
  | ready mode => cases mode <;> simp [isDelimiter]

/-! ## Cuts -/

/-- **The last character of a text**, with the cursor at which it is read. -/
def lastRead : Cursor → List Char → Option (Cursor × Char)
  | _, [] => none
  | cursor, [c] => some (cursor, c)
  | cursor, c :: next :: rest => lastRead (step cursor c (some next)).2 (next :: rest)

/-- **Whether the cut between two texts divides a delimiter**, if the first one is entered in the given mode. -/
def cutsDelimiter (mode : Mode) (a b : List Char) : Bool :=
  (lastRead (.ready mode) a).any fun last => isDelimiter last.1 last.2 b.head?

lemma Reads.lastRead_eq {start stop : Cursor} {cells : List Cell} {c : Char}
    (h : Reads start cells (some c) stop) : lastRead start (chars cells ++ [c]) = some (stop, c) := by
  induction cells generalizing start with
  | nil =>
      obtain rfl := reads_nil.1 h
      rfl
  | cons cell cells ih =>
      obtain ⟨mid, hstep, hcells⟩ := h
      have hrest := ih hcells
      cases cells with
      | nil =>
          obtain rfl := reads_nil.1 hcells
          simp only [chars_cons, chars_nil, List.cons_append, List.nil_append, lastRead]
          rw [nextChar_nil] at hstep
          rw [hstep]
      | cons next cells =>
          rw [nextChar_cons] at hstep
          simp only [chars_cons, List.cons_append, lastRead, hstep]
          exact hrest

/-- A text that is not empty is read up to its last character. -/
lemma exists_lastRead (mode : Mode) {a : List Char} (ha : a ≠ []) :
    ∃ cells c cursor, a = chars cells ++ [c] ∧ Reads (.ready mode) cells (some c) cursor
      ∧ ∀ b, cutsDelimiter mode a b = isDelimiter cursor c b.head? := by
  obtain ⟨front, c, rfl⟩ := (List.eq_nil_or_concat' a).resolve_left ha
  obtain ⟨cells, cursor, rfl, hcells⟩ := exists_reads (.ready mode) front (some c)
  refine ⟨cells, c, cursor, rfl, hcells, fun b => ?_⟩
  rw [cutsDelimiter, hcells.lastRead_eq, Option.any_some]

section Last

variable {mode : Mode} {cells : List Cell} {c : Char} {cursor : Cursor}

/-- The text behind the last character is read from the cursor behind that character. -/
lemma Reads.labelFrom_last (h : Reads (.ready mode) cells (some c) cursor) (b : List Char) :
    labelFrom (.ready mode) (chars cells ++ c :: b)
      = cells ++ ⟨c, (step cursor c b.head?).1⟩ :: labelFrom (step cursor c b.head?).2 b := by
  have hrest : labelFrom (.ready mode) (chars cells ++ c :: b) = cells ++ labelFrom cursor (c :: b) :=
    Reads.labelFrom_append h
  rw [hrest, labelFrom_cons]

lemma Reads.modeAfter_last (h : Reads (.ready mode) cells (some c) cursor) (b : List Char) :
    modeAfter mode (chars cells ++ c :: b) = (cursorAfter (step cursor c b.head?).2 b).mode := by
  have hrest : cursorAfter (.ready mode) (chars cells ++ c :: b) = cursorAfter cursor (c :: b) :=
    Reads.cursorAfter_append h
  rw [modeAfter, hrest, cursorAfter]

end Last

/-- **The scan of a text resumes behind a part of it**: the bytes of the rest are classed as if they were
scanned on their own, in the mode that the part leaves, and the mode at the end is the same. -/
structure Resumes (mode : Mode) (a b : List Char) : Prop where
  classes : byteClasses (labelFrom (.ready mode) (a ++ b))
    = byteClasses (labelFrom (.ready mode) a) ++ byteClasses (labelFrom (.ready (modeAfter mode a)) b)
  modes : modeAfter mode (a ++ b) = modeAfter (modeAfter mode a) b

/-- A cut that divides no delimiter is harmless. -/
lemma resumes_of_cutsDelimiter {mode : Mode} {a b : List Char} (h : cutsDelimiter mode a b = false) :
    Resumes mode a b := by
  by_cases ha : a = []
  · subst ha
    exact ⟨rfl, rfl⟩
  · obtain ⟨cells, c, cursor, rfl, hcells, hcut⟩ := exists_lastRead mode ha
    have hstep : step cursor c b.head? = step cursor c none := by
      rw [step_eq_step_none_iff, ← hcut, h]
    -- nothing follows the first part when it is scanned alone, so it leaves the cursor ready
    have hlone : step cursor c none = ((step cursor c none).1, (step cursor c none).2) := rfl
    obtain ⟨left, hleft⟩ := ready_of_step hlone heeded_none
    have hmode : modeAfter mode (chars cells ++ [c]) = left := by
      rw [hcells.modeAfter_last []]
      exact congrArg Cursor.mode hleft
    constructor
    · rw [hmode, hcells.labelFrom_last [], List.append_assoc, List.singleton_append, hcells.labelFrom_last b,
        hstep, hleft]
      simp [byteClasses, labelFrom]
    · rw [hmode, List.append_assoc, List.singleton_append, hcells.modeAfter_last b, hstep, hleft]
      rfl

/-- A cut that divides a delimiter shows on the next character. -/
lemma not_resumes_of_cutsDelimiter {mode : Mode} {a b : List Char} (h : cutsDelimiter mode a b = true) :
    ¬ Resumes mode a (b.take 1) := by
  have ha : a ≠ [] := by
    rintro rfl
    simp [cutsDelimiter, lastRead] at h
  obtain ⟨cells, c, cursor, rfl, hcells, hcut⟩ := exists_lastRead mode ha
  rw [hcut, isDelimiter_iff] at h
  intro hresumes
  rcases h with ⟨rfl, rfl, hnext⟩ | ⟨rfl, rfl, hnext⟩
  · -- alone, the slash is code
    have hclasses := hresumes.classes
    rw [List.append_assoc, List.singleton_append, hcells.labelFrom_last [], hcells.labelFrom_last (b.take 1),
      byteClasses_append, byteClasses_append, List.append_assoc] at hclasses
    have hslash := List.append_cancel_left hclasses
    have hfirst : some CharClass.comment = some CharClass.code := by
      rcases hnext with hnext | hnext
      · obtain ⟨rest, rfl⟩ := List.head?_eq_some_iff.1 hnext
        exact congrArg List.head? hslash
      · obtain ⟨rest, rfl⟩ := List.head?_eq_some_iff.1 hnext
        exact congrArg List.head? hslash
    simp at hfirst
  · -- alone, neither character closes the comment
    obtain ⟨rest, rfl⟩ := List.head?_eq_some_iff.1 hnext
    have hmodes := hresumes.modes
    rw [List.append_assoc, List.singleton_append, hcells.modeAfter_last [], hcells.modeAfter_last] at hmodes
    simp [modeAfter, cursorAfter, step, Cursor.mode] at hmodes

/-- **A scan resumes behind every cut that divides no delimiter**, whatever mode it is entered in.  Behind any
other cut it goes wrong on the first character. -/
theorem scan_resumes (mode : Mode) (a b : List Char) :
    (cutsDelimiter mode a b = false → Resumes mode a b)
      ∧ (cutsDelimiter mode a b = true → ¬ Resumes mode a (b.take 1)) :=
  ⟨resumes_of_cutsDelimiter, not_resumes_of_cutsDelimiter⟩

/-- Behind the star that opens a comment a slash is harmless, and behind another star it is not. -/
theorem scan_resumes_behind_opener :
    Resumes .code ['a', '/', '*'] ['/', 'é', '*', '/'] ∧ ¬ Resumes .code ['/', '*', '*'] ['/'] :=
  ⟨(scan_resumes .code ['a', '/', '*'] ['/', 'é', '*', '/']).1 (by decide),
    (scan_resumes .code ['/', '*', '*'] ['/', 'b']).2 (by decide)⟩

end SqfLayout.Scan
