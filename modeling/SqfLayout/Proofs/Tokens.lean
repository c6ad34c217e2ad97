import SqfLayout.Pass.Operators
import SqfLayout.Proofs.Words

/-!
# Tokens and the white space between them

**Tokens.**  `Token` — a word, a literal within a line, an operator, a single mark, or a remark that takes
the rest of its line.  A token is read as it stands unless it joins the character behind it
(`Token.joins`): words run together, some marks make operators or comments, and a remark takes in
everything but a line feed.

**Layouts.**  `Layout` — tokens with a gap of white space before each and behind the last.  A script
without block comments is the text of a layout.  `Fits` says which gaps may stand between two tokens, and
a layout that fits is read token by token (`Fitting.label_text`).

**Rules.**  Most passes give every gap a new form that depends on the gap and the tokens beside it.
`Layout.relay` applies such a rule.
-/

namespace SqfLayout

open SqfLayout.Text SqfLayout.Scan SqfLayout.Pass

/-! ## Tokens -/

/-- **A token of a script.**  An operator is one of those that are spaced; any other character that is
neither white space nor part of a word or a literal is a mark.  A remark is a comment up to the end of
its line, without the two slashes. -/
inductive Token
  | word (text : List Char)
  | literal (quote : Char) (body : List Char)
  | operator (text : List Char)
  | mark (c : Char)
  | remark (body : List Char)
  deriving DecidableEq, Repr

/-- Whether two characters in a row are read as one operator or as the start of a comment. -/
def fuses (c d : Char) : Bool := operators.contains [c, d] || (c == '/' && isHeeded d)

namespace Token

/-- The cells of a token. -/
def cells : Token → List Cell
  | word text => text.map .code
  | literal quote body => (quote :: (body ++ [quote])).map (⟨·, .literal⟩)
  | operator text => text.map .code
  | mark c => [.code c]
  | remark body => ('/' :: '/' :: body).map (⟨·, .comment⟩)

/-- The text of a token. -/
def text (t : Token) : List Char := chars t.cells

/-- Whether a token is a remark. -/
def isRemark : Token → Bool
  | remark _ => true
  | _ => false

/-- **Tokens as the scanner finds them.**  A remark is one without tabs, which the indentation takes out,
and without white space at its end. -/
def Valid : Token → Prop
  | word text => text ≠ [] ∧ ∀ c ∈ text, isWordChar c = true
  | literal quote body => (quote = '\'' ∨ quote = '"') ∧ quote ∉ body ∧ '\n' ∉ body
  | operator text => text ∈ operators
  | mark c => isSpace c = false ∧ isWordChar c = false ∧ c ≠ '\'' ∧ c ≠ '"' ∧ [c] ∉ operators
  | remark body => '\n' ∉ body ∧ '\t' ∉ body ∧ ∀ c ∈ body.getLast?, isSpace c = false

instance : (t : Token) → Decidable t.Valid
  | word _ => inferInstanceAs (Decidable (_ ∧ _))
  | literal _ _ => inferInstanceAs (Decidable (_ ∧ _ ∧ _))
  | operator _ => inferInstanceAs (Decidable (_ ∈ _))
  | mark _ => inferInstanceAs (Decidable (_ ∧ _ ∧ _ ∧ _ ∧ _))
  | remark _ => inferInstanceAs (Decidable (_ ∧ _ ∧ _))

/-- The mode behind a token. -/
def leaves : Token → Mode
  | remark _ => .line
  | _ => .code

/-- Whether a token is read differently if the given character follows it directly. -/
def joins : Token → Char → Bool
  | word _, d => isWordChar d
  | operator [c], d => fuses c d
  | mark c, d => fuses c d
  | remark _, d => d != '\n'
  | _, _ => false

end Token

/-! ## Layouts -/

/-- **Tokens with the white space before each of them and behind the last.** -/
inductive Layout
  | last (gap : List Char)
  | cons (gap : List Char) (token : Token) (rest : Layout)
  deriving DecidableEq, Repr

/-- What becomes of a gap between two tokens; at the ends of a text one of them is missing. -/
abbrev GapRule := Option Token → List Char → Option Token → List Char

namespace Layout

/-- The cells of a layout. -/
def cells : Layout → List Cell
  | last gap => gap.map .code
  | cons gap token rest => gap.map .code ++ (token.cells ++ rest.cells)

/-- **The text of a layout.** -/
def text (s : Layout) : List Char := chars s.cells

/-- **A rule applied to every gap**, behind the given token. -/
def relay (rule : GapRule) : Option Token → Layout → Layout
  | prev, last gap => last (rule prev gap none)
  | prev, cons gap token rest => cons (rule prev gap (some token)) token (rest.relay rule (some token))

end Layout

/-- **What a gap of a tidy layout is like**: blanks or line feeds, and no blanks at the ends of the
text. -/
structure Fits (prev : Option Token) (gap : List Char) (next : Option Token) : Prop where
  tidy : (∀ c ∈ gap, isBlank c = true) ∨ ∀ c ∈ gap, c = '\n'
  /-- Two tokens without a gap do not join. -/
  apart : gap = [] → ∀ a ∈ prev, ∀ b ∈ next, ∀ d ∈ b.text.head?, a.joins d = false
  edge : prev = none ∨ next = none → ∀ c ∈ gap, c = '\n'
  /-- No line can come to start with a number sign. -/
  sign : next = some (.mark '#') → '\n' ∉ gap ∧ ∃ a ∈ prev, a ≠ .mark '{' ∧ a ≠ .mark ';'
  /-- A remark ends its line. -/
  ends : next ≠ none → ∀ a ∈ prev, a.isRemark = true → '\n' ∈ gap

/-- **A layout whose tokens are valid and whose gaps fit**, behind the given token. -/
def Fitting : Option Token → Layout → Prop
  | prev, .last gap => Fits prev gap none
  | prev, .cons gap token rest => Fits prev gap (some token) ∧ token.Valid ∧ Fitting (some token) rest

/-! ## Characters of tokens -/

lemma isPlain_of_isWordChar {c : Char} (h : isWordChar c = true) : isPlain c = true :=
  isPlain_of_test (by decide) h

lemma isSpace_of_isWordChar {c : Char} (h : isWordChar c = true) : isSpace c = false := by
  by_contra hspace
  rw [isWordTest_isWordChar.space (by simpa using hspace)] at h
  contradiction

namespace Token

variable {t : Token}

lemma cells_ne_nil (ht : t.Valid) : t.cells ≠ [] := by
  cases t with
  | word text => simpa [cells] using ht.1
  | literal quote body => simp [cells]
  | operator text =>
      rintro hnil
      have hop : text ∈ operators := ht
      rw [List.map_eq_nil_iff.1 hnil] at hop
      exact absurd hop (by decide)
  | mark c => simp [cells]
  | remark body => simp [cells]

lemma isRemark_iff : t.isRemark = true ↔ ∃ body, t = .remark body := by
  cases t <;> simp [isRemark]

/-- A token is a literal, a remark, or code without white space. -/
lemma code_or_quoted (ht : t.Valid) :
    (∀ cell ∈ t.cells, cell.kind = .code ∧ isSpace cell.char = false)
      ∨ (∃ quote body, t = .literal quote body) ∨ ∃ body, t = .remark body := by
  cases t with
  | word text =>
      refine .inl fun cell hcell => ?_
      obtain ⟨c, hc, rfl⟩ := List.mem_map.1 hcell
      exact ⟨rfl, isSpace_of_isWordChar (ht.2 c hc)⟩
  | literal quote body => exact .inr (.inl ⟨quote, body, rfl⟩)
  | remark body => exact .inr (.inr ⟨body, rfl⟩)
  | operator text =>
      have hall : ∀ op ∈ operators, ∀ c ∈ op, isSpace c = false := by decide
      refine .inl fun cell hcell => ?_
      obtain ⟨c, hc, rfl⟩ := List.mem_map.1 hcell
      exact ⟨rfl, hall text ht c hc⟩
  | mark c => exact .inl (by simpa [cells] using ht.1)

lemma kind_ne_comment (ht : t.Valid) (hremark : t.isRemark = false) {cell : Cell} (hcell : cell ∈ t.cells) :
    cell.kind ≠ .comment := by
  rcases code_or_quoted ht with hcode | ⟨quote, body, rfl⟩ | ⟨body, rfl⟩
  · simp [(hcode cell hcell).1]
  · obtain ⟨c, -, rfl⟩ := List.mem_map.1 hcell
    simp
  · simp [isRemark] at hremark

lemma remark_kind {body : List Char} {cell : Cell} (hcell : cell ∈ (remark body).cells) :
    cell.kind = .comment := by
  obtain ⟨c, -, rfl⟩ := List.mem_map.1 hcell
  rfl

/-- **A token starts and ends with characters that are not white space.** -/
lemma isSpace_ends (ht : t.Valid) {cell : Cell}
    (hcell : t.cells.head? = some cell ∨ t.cells.getLast? = some cell) : isSpace cell.char = false := by
  rcases code_or_quoted ht with hcode | ⟨quote, body, rfl⟩ | ⟨body, rfl⟩
  · rcases hcell with hhead | hlast
    · exact (hcode cell (List.mem_of_head? hhead)).2
    · exact (hcode cell (List.mem_of_getLast? hlast)).2
  · have hquote : isSpace quote = false := by
      rcases ht.1 with rfl | rfl <;> decide
    have hchar : cell = ⟨quote, .literal⟩ := by
      rcases hcell with hhead | hlast
      · exact (Option.some.inj hhead).symm
      · rw [cells, ← List.cons_append, List.map_append, List.map_singleton, List.getLast?_concat] at hlast
        exact (Option.some.inj hlast).symm
    rw [hchar]
    exact hquote
  · rcases hcell with hhead | hlast
    · obtain rfl := Option.some.inj hhead
      decide
    · rw [cells, List.getLast?_map] at hlast
      obtain ⟨c, hc, rfl⟩ := Option.map_eq_some_iff.1 hlast
      cases body with
      | nil =>
          obtain rfl := Option.some.inj hc
          decide
      | cons d body => exact ht.2.2 c (by simpa using hc)

lemma isSpace_head (ht : t.Valid) (rest : List Cell) :
    ∀ cell ∈ (t.cells ++ rest).head?, isSpace cell.char = false := by
  intro cell hcell
  rw [List.head?_append_of_ne_nil _ (cells_ne_nil ht)] at hcell
  exact isSpace_ends ht (.inl hcell)

lemma isBlank_head (ht : t.Valid) (rest : List Cell) :
    ∀ cell ∈ (t.cells ++ rest).head?, isBlank cell.char = false :=
  fun cell hcell => isBlank_of_isSpace_false (isSpace_head ht rest cell hcell)

/-- Tokens lie within lines. -/
lemma char_ne_feed (ht : t.Valid) : ∀ cell ∈ t.cells, cell.char ≠ '\n' := by
  intro cell hcell
  rcases code_or_quoted ht with hcode | ⟨quote, body, rfl⟩ | ⟨body, rfl⟩
  · rintro hfeed
    have hspace := (hcode cell hcell).2
    rw [hfeed] at hspace
    exact absurd hspace (by decide)
  · obtain ⟨hquote, -, hbody⟩ := ht
    obtain ⟨c, hc, rfl⟩ := List.mem_map.1 hcell
    have hne : '\n' ≠ quote := by rcases hquote with rfl | rfl <;> decide
    rintro rfl
    simp [hne, hbody] at hc
  · obtain ⟨c, hc, rfl⟩ := List.mem_map.1 hcell
    rintro rfl
    simp [ht.1] at hc

/-- **A mark is found in no other token.** -/
lemma eq_mark_of_isCode (ht : t.Valid) {cell : Cell} (hcell : cell ∈ t.cells) {c : Char}
    (hc : isWordChar c = false ∧ ∀ op ∈ operators, c ∉ op) (h : cell.isCode c = true) : t = .mark c := by
  obtain rfl := isCode_iff.1 h
  cases t with
  | word text =>
      obtain ⟨d, hd, heq⟩ := List.mem_map.1 hcell
      obtain rfl : d = c := congrArg Cell.char heq
      simp [ht.2 d hd] at hc
  | literal quote body =>
      obtain ⟨d, -, heq⟩ := List.mem_map.1 hcell
      simpa using congrArg Cell.kind heq
  | operator text =>
      obtain ⟨d, hd, heq⟩ := List.mem_map.1 hcell
      obtain rfl : d = c := congrArg Cell.char heq
      exact absurd hd (hc.2 text ht)
  | mark d =>
      obtain rfl : c = d := congrArg Cell.char (List.mem_singleton.1 hcell)
      rfl
  | remark body => simpa [Cell.code] using remark_kind hcell

/-- Nor does another token start with it, except for quotes and slashes. -/
lemma eq_mark_of_head (ht : t.Valid) {cell : Cell} (hcell : t.cells.head? = some cell) {c : Char}
    (hc : isWordChar c = false ∧ ∀ op ∈ operators, c ∉ op) (hquote : c ≠ '\'' ∧ c ≠ '"')
    (hslash : c ≠ '/' ∨ t.isRemark = false) (h : cell.char = c) : t = .mark c := by
  rcases code_or_quoted ht with hcode | ⟨quote, body, rfl⟩ | ⟨body, rfl⟩
  · have hmem := List.mem_of_head? hcell
    exact eq_mark_of_isCode ht hmem hc (by simp [Cell.isCode, (hcode cell hmem).1, h])
  · obtain rfl := Option.some.inj hcell
    obtain rfl : quote = c := h
    rcases ht.1 with rfl | rfl
    · exact absurd rfl hquote.1
    · exact absurd rfl hquote.2
  · obtain rfl := Option.some.inj hcell
    exact absurd h.symm (hslash.resolve_right (by simp [isRemark]))

/-- **A token is read as it stands**, unless it joins what follows. -/
lemma reads (ht : t.Valid) {follow : Option Char} (h : ∀ d ∈ follow, t.joins d = false) :
    Reads (.ready .code) t.cells follow (.ready t.leaves) := by
  have hplain {text : List Char} (htext : ∀ c ∈ text, isPlain c = true) :
      Reads (.ready .code) (text.map .code) follow (.ready .code) :=
    (reads_plain (by simpa using htext) .code).2 ⟨rfl, by simp [Mode.kind]⟩
  cases t with
  | word text => exact hplain fun c hc => isPlain_of_isWordChar (ht.2 c hc)
  | operator text =>
      have hall : ∀ op ∈ operators, ∀ c ∈ op, isPlain c = true := by decide
      exact hplain (hall text ht)
  | literal quote body =>
      obtain ⟨hquote, hbody, -⟩ := ht
      obtain ⟨mode, hkind, hopen, hclose, hinside⟩ : ∃ mode : Mode, mode.kind = .literal
          ∧ (∀ next, step (.ready .code) quote next = (.literal, .ready mode))
          ∧ (∀ next, step (.ready mode) quote next = (.literal, .ready .code))
          ∧ ∀ c ∈ body, ∀ next, step (.ready mode) c next = (.literal, .ready mode) := by
        have hne {c : Char} (hc : c ∈ body) : c ≠ quote := fun heq => hbody (heq ▸ hc)
        rcases hquote with rfl | rfl
        · exact ⟨.single, rfl, fun _ => rfl, fun _ => rfl, fun c hc next => by simp [step, hne hc]⟩
        · exact ⟨.double, rfl, fun _ => rfl, fun _ => rfl, fun c hc next => by simp [step, hne hc]⟩
      rw [cells, List.map_cons, List.map_append]
      refine reads_cons.2 ⟨.ready mode, hopen _, reads_append.2 ⟨.ready mode, ?_, .ready .code, hclose _, rfl⟩⟩
      refine (reads_steady ?_).2 ⟨rfl, by simp [hkind]⟩
      simpa [hkind] using hinside
  | mark c =>
      obtain ⟨-, -, hsingle, hdouble, -⟩ := ht
      have hnot : (c == '/' && follow == some '/') = false ∧ (c == '/' && follow == some '*') = false := by
        cases follow with
        | none => simp
        | some d =>
            have hfuses : fuses c d = false := h d rfl
            simp only [fuses, isHeeded, Bool.or_eq_false_iff, Bool.and_eq_false_iff, beq_eq_false_iff_ne] at hfuses
            rcases hfuses.2 with hc | ⟨hslash, hstar⟩
            · simp [hc]
            · simp [hslash, hstar]
      refine reads_cons.2 ⟨.ready .code, ?_, rfl⟩
      rw [nextChar_nil]
      simp [step, hsingle, hdouble, hnot.1, hnot.2]
  | remark body =>
      have hinside : ∀ cell ∈ ('/' :: body).map (Cell.mk · .comment),
          ∀ next, step (.ready .line) cell.char next = (Mode.line.kind, .ready .line) := by
        intro cell hcell next
        obtain ⟨c, hc, rfl⟩ := List.mem_map.1 hcell
        have hne : c ≠ '\n' := by
          rintro rfl
          simp [ht.1] at hc
        simp [step, hne, Mode.kind]
      refine reads_cons.2 ⟨.ready .line, rfl, (reads_steady hinside).2 ⟨rfl, ?_⟩⟩
      simp [Mode.kind]

/-- **A character that no token but a remark joins**: it is in no operator, makes no comment and goes on
with no word. -/
lemma joins_eq_false {d : Char} (hremark : t.isRemark = false) (hword : ∀ text, t = .word text → isWordChar d = false)
    (hoperators : ∀ op ∈ operators, d ∉ op) (hheeded : isHeeded d = false) : t.joins d = false := by
  have hfuses (c : Char) : fuses c d = false := by
    have hop : [c, d] ∉ operators := fun hmem => hoperators _ hmem (by simp)
    simp [fuses, hop, hheeded]
  unfold joins
  split
  · exact hword _ rfl
  · exact hfuses _
  · exact hfuses _
  · simp [isRemark] at hremark
  · rfl

/-- No token joins white space, but a remark goes on up to the end of the line. -/
lemma joins_space (t : Token) {d : Char} (hd : isSpace d = true) (hfeed : t.isRemark = true → d = '\n') :
    t.joins d = false := by
  by_cases hremark : t.isRemark = true
  · obtain ⟨body, rfl⟩ := isRemark_iff.1 hremark
    simp [joins, hfeed hremark]
  refine joins_eq_false (by simpa using hremark) (fun _ _ => isWordTest_isWordChar.space hd)
    (fun op hop hmem => ?_) ?_
  · have hall : ∀ op ∈ operators, ∀ e ∈ op, isSpace e = false := by decide
    simp [hall op hop d hmem] at hd
  · by_contra hnot
    simp only [isHeeded, Bool.or_eq_true, beq_iff_eq, Bool.not_eq_false] at hnot
    rcases hnot with rfl | rfl
    · exact absurd hd (by decide)
    · exact absurd hd (by decide)

end Token

/-! ## Reading layouts -/

lemma Fits.isSpace {prev next : Option Token} {gap : List Char} (h : Fits prev gap next) :
    ∀ c ∈ gap, isSpace c = true := by
  intro c hc
  rcases h.tidy with hblank | hfeed
  · exact isSpace_of_isBlank (hblank c hc)
  · rw [hfeed c hc]
    decide

/-- Only line feeds stand behind a remark. -/
lemma Fits.feeds_of_remark {t : Token} {next : Option Token} {gap : List Char} (h : Fits (some t) gap next)
    (hremark : t.isRemark = true) : ∀ c ∈ gap, c = '\n' := by
  cases next with
  | none => exact h.edge (.inr rfl)
  | some b =>
      rcases h.tidy with hblank | hfeeds
      · have hfeed := hblank _ (h.ends (by simp) t rfl hremark)
        exact absurd hfeed (by decide)
      · exact hfeeds

/-- A token does not join what follows it in a layout. -/
lemma Fitting.joins {t : Token} {s : Layout} (h : Fitting (some t) s) :
    ∀ d ∈ nextChar s.cells none, t.joins d = false := by
  intro d hd
  cases s with
  | last gap =>
      cases gap with
      | nil => simp [Layout.cells] at hd
      | cons c gap =>
          obtain rfl := Option.some.inj hd
          exact t.joins_space (h.isSpace c List.mem_cons_self)
            fun hremark => h.feeds_of_remark hremark c List.mem_cons_self
  | cons gap token rest =>
      obtain ⟨hfits, hvalid, -⟩ := h
      cases gap with
      | nil =>
          obtain ⟨cell, cells, hcells⟩ := List.exists_cons_of_ne_nil (Token.cells_ne_nil hvalid)
          refine hfits.apart rfl t rfl token rfl d ?_
          rw [Layout.cells, List.map_nil, List.nil_append, hcells] at hd
          rw [Token.text, hcells]
          exact hd
      | cons c gap =>
          obtain rfl := Option.some.inj hd
          exact t.joins_space (hfits.isSpace c List.mem_cons_self)
            fun hremark => hfits.feeds_of_remark hremark c List.mem_cons_self

/-- The mode behind a token, or at the start of a text. -/
def modeBehind (prev : Option Token) : Mode := prev.elim .code Token.leaves

/-- A gap is read as code, and a line feed in it ends a remark. -/
lemma Fits.reads {prev next : Option Token} {gap : List Char} (h : Fits prev gap next) (follow : Option Char) :
    ∃ mode, (mode = .code ∨ mode = .line) ∧ (next ≠ none → mode = .code)
      ∧ Reads (.ready (modeBehind prev)) (gap.map .code) follow (.ready mode) := by
  have hcode {gap : List Char} (hspace : ∀ c ∈ gap, Text.isSpace c = true) :
      Reads (.ready .code) (gap.map .code) follow (.ready .code) :=
    (reads_space (by simpa using hspace) (by decide)).2 ⟨rfl, by simp [Mode.kind]⟩
  by_cases hremark : ∃ body, prev = some (.remark body)
  · obtain ⟨body, rfl⟩ := hremark
    cases gap with
    | nil =>
        refine ⟨.line, .inr rfl, fun hnext => ?_, rfl⟩
        exact absurd (h.ends hnext _ rfl rfl) (by simp)
    | cons c gap =>
        obtain rfl := h.feeds_of_remark rfl c List.mem_cons_self
        exact ⟨.code, .inl rfl, fun _ => rfl,
          reads_cons.2 ⟨.ready .code, rfl, hcode fun c hc => h.isSpace c (List.mem_cons_of_mem _ hc)⟩⟩
  · have hmode : modeBehind prev = .code := by
      rcases prev with _ | ⟨_ | _ | _ | _ | _⟩ <;> simp_all [modeBehind, Token.leaves]
    rw [hmode]
    exact ⟨.code, .inl rfl, fun _ => rfl, hcode h.isSpace⟩

lemma Fitting.reads {prev : Option Token} {s : Layout} (h : Fitting prev s) :
    ∃ mode, (mode = .code ∨ mode = .line) ∧ Reads (.ready (modeBehind prev)) s.cells none (.ready mode) := by
  induction s generalizing prev with
  | last gap =>
      obtain ⟨mode, hmode, -, hreads⟩ := Fits.reads h none
      exact ⟨mode, hmode, hreads⟩
  | cons gap token rest ih =>
      obtain ⟨hfits, hvalid, hrest⟩ := h
      obtain ⟨mode, hmode, hreads⟩ := ih hrest
      refine ⟨mode, hmode, ?_⟩
      have hblock : Reads (.ready .code) (token.cells ++ rest.cells) none (.ready mode) :=
        reads_append.2 ⟨_, token.reads hvalid hrest.joins, hreads⟩
      obtain ⟨inner, -, hinner, hgap⟩ := hfits.reads (nextChar (token.cells ++ rest.cells) none)
      obtain rfl := hinner (by simp)
      exact reads_append.2 ⟨_, hgap, hblock⟩

/-- **The scanner finds the cells of a layout in its text.** -/
lemma Fitting.label_text {s : Layout} (h : Fitting none s) : label s.text = s.cells := by
  obtain ⟨mode, -, hreads⟩ := h.reads
  exact hreads.labelFrom_eq

/-! ## Tokens that do not join -/

/-- Nothing but a remark joins a mark that is no part of an operator or a comment. -/
lemma Token.joins_mark {t : Token} (hremark : t.isRemark = false) {c : Char}
    (hc : isWordChar c = false ∧ ∀ op ∈ operators, c ∉ op) (hheeded : isHeeded c = false) : t.joins c = false :=
  Token.joins_eq_false hremark (fun _ _ => hc.1) hc.2 hheeded

/-- Nor does such a mark join anything. -/
lemma Token.mark_joins {c : Char} (hc : ∀ op ∈ operators, c ∉ op) (hslash : c ≠ '/') (d : Char) :
    (Token.mark c).joins d = false := by
  have hop : [c, d] ∉ operators := fun hmem => hc _ hmem (by simp)
  simp [Token.joins, fuses, hop, hslash]

/-! ## Gaps that fit -/

section Fits

variable {prev next : Option Token} {gap : List Char}

/-- A gap within a line is not behind a remark. -/
lemma Fits.no_remark (h : Fits prev gap next) (hfeed : '\n' ∉ gap) (hnext : next ≠ none) :
    ∀ a ∈ prev, a.isRemark = false := by
  intro a ha
  by_contra hremark
  exact hfeed (h.ends hnext a ha (by simpa using hremark))

lemma Fits.nil (h : Fits prev gap next) (hremark : ∀ a ∈ prev, a.isRemark = false)
    (hapart : ∀ a ∈ prev, ∀ b ∈ next, ∀ d ∈ b.text.head?, a.joins d = false) : Fits prev [] next where
  tidy := by simp
  apart _ := hapart
  edge := by simp
  sign hnext := ⟨by simp, (h.sign hnext).2⟩
  ends _ a ha htrue := by simp [hremark a ha] at htrue

/-- A gap beside a mark that joins nothing may be empty. -/
lemma Fits.nil_of_prev {c : Char} (h : Fits (some (.mark c)) gap next) (hc : ∀ op ∈ operators, c ∉ op)
    (hslash : c ≠ '/') : Fits (some (.mark c)) [] next := by
  refine h.nil (by simp [Token.isRemark]) fun a ha b _ d _ => ?_
  obtain rfl := Option.some.inj ha
  exact Token.mark_joins hc hslash d

lemma Fits.nil_of_next {c : Char} (h : Fits prev gap (some (.mark c))) (hremark : ∀ a ∈ prev, a.isRemark = false)
    (hc : isWordChar c = false ∧ ∀ op ∈ operators, c ∉ op) (hheeded : isHeeded c = false) :
    Fits prev [] (some (.mark c)) := by
  refine h.nil hremark fun a ha b hb d hd => ?_
  obtain rfl := Option.some.inj hb
  obtain rfl : c = d := Option.some.inj hd
  exact Token.joins_mark (hremark a ha) hc hheeded

/-- Blanks may part any two tokens, unless the first one is a remark. -/
lemma Fits.blanks (h : Fits prev gap next) {c : Char} {more : List Char} (hblank : (c :: more).all isBlank = true)
    (hprev : prev ≠ none) (hremark : ∀ a ∈ prev, a.isRemark = false) (hnext : next ≠ none) :
    Fits prev (c :: more) next where
  tidy := .inl (List.all_eq_true.1 hblank)
  apart := by simp
  edge hend := by simp [hprev, hnext] at hend
  sign hsign := by
    refine ⟨fun hfeed => ?_, (h.sign hsign).2⟩
    have hnot := List.all_eq_true.1 hblank _ hfeed
    exact absurd hnot (by decide)
  ends _ a ha htrue := by simp [hremark a ha] at htrue

/-- A line may break before every token but a number sign. -/
lemma Fits.feeds {feeds : List Char} (hne : feeds ≠ []) (hfeeds : ∀ c ∈ feeds, c = '\n')
    (hsign : next ≠ some (.mark '#')) : Fits prev feeds next where
  tidy := .inr hfeeds
  apart hnil := absurd hnil hne
  edge _ := hfeeds
  sign hnext := absurd hnext hsign
  ends _ _ _ _ := by
    obtain ⟨c, hc⟩ := List.exists_mem_of_ne_nil feeds hne
    exact hfeeds c hc ▸ hc

end Fits

/-! ## Rules -/

/-- A rule that makes gaps that fit from gaps that fit. -/
def GapRule.Keeps (rule : GapRule) : Prop :=
  ∀ prev gap next, Fits prev gap next → Fits prev (rule prev gap next) next

lemma Fitting.relay {rule : GapRule} (hrule : rule.Keeps) {prev : Option Token} {s : Layout}
    (h : Fitting prev s) : Fitting prev (s.relay rule prev) := by
  induction s generalizing prev with
  | last gap => exact hrule _ _ _ h
  | cons gap token rest ih =>
      obtain ⟨hfits, hvalid, hrest⟩ := h
      exact ⟨hrule _ _ _ hfits, hvalid, ih hrest⟩

end SqfLayout
