import SqfLayout.Proofs.SpelledRemarks
import SqfLayout.Proofs.WrittenLayouts

/-!
# The spelling of a layout

The spelling pass gives the words of a layout and of its remarks their canonical spelling and changes
nothing else.

**Layouts with other words.**  `Layout.mapWords` puts other texts in the place of words and remarks.  If
they differ from the old ones by recasing, the new layout fits, is plain and steady and has its keywords
and marks where the old one has them (`Fitting.mapWords`, `Layout.Plain.mapWords`,
`Layout.Steady.mapWords`).

**Spelling.**  `Vocabulary.spell` is the spelling of a text outside literals.  No word goes on from one
token to the next, so the pass on a layout is `spell` on each of its words and remarks (`spellWords_text`).
A second time it changes nothing (`Vocabulary.spell_spell`).
-/

namespace SqfLayout

open SqfLayout.Text SqfLayout.Scan SqfLayout.Pass

/-! ## Layouts with other words -/

/-- A token with another text in the place of a word or a remark. -/
def Token.mapWord (f : List Char → List Char) : Token → Token
  | .word text => .word (f text)
  | .remark body => .remark (f body)
  | t => t

/-- **A layout with other texts in the place of its words and remarks.** -/
def Layout.mapWords (f : List Char → List Char) : Layout → Layout
  | .last gap => .last gap
  | .cons gap token rest => .cons gap (token.mapWord f) (rest.mapWords f)

section MapWords

variable {f : List Char → List Char}

@[simp] lemma Token.mapWord_eq_mark {t : Token} {c : Char} : t.mapWord f = .mark c ↔ t = .mark c := by
  cases t <;> simp [Token.mapWord]

lemma Token.mapWord_beq_mark (t : Token) (c : Char) : (t.mapWord f == .mark c) = (t == .mark c) := by
  rw [Bool.eq_iff_iff, beq_iff_eq, beq_iff_eq, Token.mapWord_eq_mark]

lemma map_mapWord_eq_mark {t : Option Token} {c : Char} :
    t.map (Token.mapWord f) = some (.mark c) ↔ t = some (.mark c) := by
  cases t <;> simp

@[simp] lemma Token.isRemark_mapWord (t : Token) : (t.mapWord f).isRemark = t.isRemark := by
  cases t <;> rfl

lemma Token.mapWord_mapWord (hf : ∀ text, f (f text) = f text) (t : Token) :
    (t.mapWord f).mapWord f = t.mapWord f := by
  cases t <;> simp [Token.mapWord, hf]

/-- Only words and remarks join characters of words. -/
lemma Token.joins_of_isWordChar {t : Token} (ht : t.isWord = false) (hremark : t.isRemark = false) {d : Char}
    (hd : isWordChar d = true) : t.joins d = false := by
  refine Token.joins_eq_false hremark ?_ (fun op hop hmem => ?_) (isHeeded_of_isPlain (isPlain_of_isWordChar hd))
  · rintro text rfl
    simp [Token.isWord] at ht
  · have hnot : ∀ op ∈ operators, ∀ c ∈ op, isWordChar c = false := by decide
    simp [hnot op hop d hmem] at hd

namespace Layout

lemma tokens_mapWords (s : Layout) : (s.mapWords f).tokens = s.tokens.map (Token.mapWord f) := by
  induction s with
  | last gap => rfl
  | cons gap token rest ih => rw [mapWords, tokens, tokens, List.map_cons, ih]

/-- A layout whose tokens stay as they are stays as it is. -/
lemma mapWords_eq_self {s : Layout} (h : ∀ t ∈ s.tokens, t.mapWord f = t) : s.mapWords f = s := by
  induction s with
  | last gap => rfl
  | cons gap token rest ih =>
      rw [mapWords, h token List.mem_cons_self, ih fun t ht => h t (List.mem_cons_of_mem _ ht)]

/-- The rule of braces does not look at words. -/
lemma mapWords_relay_braceGap (prev : Option Token) (s : Layout) :
    (s.relay braceGap prev).mapWords f = (s.mapWords f).relay braceGap (prev.map (Token.mapWord f)) := by
  have hgap (prev : Option Token) (gap : List Char) (next : Option Token) :
      braceGap (prev.map (Token.mapWord f)) gap (next.map (Token.mapWord f)) = braceGap prev gap next := by
    simp only [braceGap, map_mapWord_eq_mark, Option.map_eq_none_iff, Option.any_map,
      Token.isRemark_mapWord]
  induction s generalizing prev with
  | last gap => rw [relay, mapWords, mapWords, relay, ← hgap prev gap none, Option.map_none]
  | cons gap token rest ih =>
      rw [relay, mapWords, mapWords, relay, ← hgap prev gap (some token), ih, Option.map_some]

lemma Clean.mapWords {s : Layout} (h : s.Clean) : (s.mapWords f).Clean := by
  have hgaps (s : Layout) (hs : s.Tabless) : (s.mapWords f).Tabless := by
    induction s with
    | last gap => exact hs
    | cons gap token rest ih => exact ⟨hs.1, ih hs.2⟩
  rw [Clean, tokens_mapWords, List.any_map, Function.comp_def]
  simp only [Token.isRemark_mapWord]
  exact fun hremark => hgaps s (h hremark)

lemma after?_mapWords (c : Char) (s : Layout) : (s.mapWords f).after? c = (s.after? c).map (mapWords f) := by
  cases s with
  | last gap => rfl
  | cons gap token rest =>
      by_cases htoken : token = .mark c <;> simp [mapWords, after?, htoken]

end Layout

end MapWords

/-! ## Recased texts -/

section Headerless

variable {a b : List Char} (h : List.Forall₂ Recased a b)

include h

/-- No word with a mark is found in a recased text if none is found in the text. -/
lemma wordMark?_recased {word : List Char} {c : Char} (hc : c ∈ signs) (hink : isSpace c = false) {kind : CharClass}
    (ha : wordMark? word c (a.map (⟨·, kind⟩)) = none) : wordMark? word c (b.map (⟨·, kind⟩)) = none := by
  refine Option.eq_none_iff_forall_ne_some.2 fun ⟨keyword, space, rest⟩ hfound => ?_
  obtain ⟨mark, hcells, hspelled, hspace, hmark⟩ := wordMark?_eq_some hfound
  obtain ⟨text, back, rfl, rfl, hback⟩ := List.map_eq_append_iff.1 hcells
  obtain ⟨blanks, tail, rfl, rfl, htail⟩ := List.map_eq_append_iff.1 hback
  obtain ⟨d, tail, rfl, rfl, -⟩ := List.map_eq_cons_iff.1 htail
  -- the parts of the other text stand at the same places
  obtain ⟨a₁, a₂, rfl, htext, hrest⟩ : ∃ a₁ a₂, a = a₁ ++ a₂ ∧ List.Forall₂ Recased a₁ text
      ∧ List.Forall₂ Recased a₂ (blanks ++ d :: tail) :=
    ⟨_, _, (List.take_append_drop text.length a).symm, List.forall₂_take_append _ _ _ h,
      List.forall₂_drop_append _ _ _ h⟩
  obtain ⟨a₂, a₃, rfl, hblanks, hrest⟩ : ∃ a₃ a₄, a₂ = a₃ ++ a₄ ∧ List.Forall₂ Recased a₃ blanks
      ∧ List.Forall₂ Recased a₄ (d :: tail) :=
    ⟨_, _, (List.take_append_drop blanks.length a₂).symm, List.forall₂_take_append _ _ _ hrest,
      List.forall₂_drop_append _ _ _ hrest⟩
  obtain ⟨e, a₃, he, -, rfl⟩ := List.forall₂_cons_right_iff.1 hrest
  have hspelled' : Spelled word (a₁.map (⟨·, kind⟩)) := by
    rw [Spelled, List.map_map] at hspelled ⊢
    rw [← hspelled]
    exact map_eq_of_recased Recased.foldCase_eq htext
  have hspace' : AllSpace (a₂.map (Cell.mk · kind)) := by
    have hall : a₂.all isSpace = blanks.all isSpace := by
      simpa [List.all_map, Function.comp_def] using
        congrArg (List.all · id) (map_eq_of_recased Recased.isSpace_eq hblanks)
    simpa [AllSpace] using hall.trans (List.all_eq_true.2 (by simpa [AllSpace] using hspace))
  have hmark' : (⟨e, kind⟩ : Cell).char = c := (he.eq_sign_iff hc).2 hmark
  rw [List.map_append, List.map_append, List.map_cons, wordMark?_of_spelled hspelled' hspace' hmark' hink] at ha
  contradiction

lemma Headerless.recased {kind : CharClass} (ha : Headerless kind a) : Headerless kind b := by
  refine ⟨notMem_recased (by decide) h ha.1, fun back hback => ?_⟩
  obtain ⟨front, rfl⟩ := (List.mem_tails back b).1 hback
  have hdrop := List.forall₂_drop_append _ _ _ h
  refine wordMark?_recased hdrop (by decide) (by decide) (ha.2 _ ?_)
  exact (List.mem_tails _ a).2 (List.drop_suffix _ _)

lemma endsOpen_recased : endsOpen b = endsOpen a := by
  have hlast {c : Char} (hc : c ∈ signs) : (b.getLast? == some c) = (a.getLast? == some c) := by
    have hsame := congrArg List.getLast? (map_eq_of_recased (f := (· == c)) (fun {x y} hxy => by
      rw [Bool.eq_iff_iff, beq_iff_eq, beq_iff_eq, hxy.eq_sign_iff hc]) h)
    rw [List.getLast?_map, List.getLast?_map] at hsame
    cases ha : a.getLast? <;> cases hb : b.getLast? <;> simp_all
  rw [endsOpen, endsOpen, hlast (by decide), hlast (by decide), map_eq_of_recased Recased.foldCase_eq h]

end Headerless

section Recased

variable {f : List Char → List Char} (hf : ∀ text, List.Forall₂ Recased text (f text))

include hf

lemma Token.Valid.mapWord {t : Token} (ht : t.Valid) : (t.mapWord f).Valid := by
  cases t with
  | word text =>
      refine ⟨fun hnil => ?_, fun c hc => ?_⟩
      · have hlength := (hf text).length_eq
        rw [hnil, List.length_nil, List.length_eq_zero_iff] at hlength
        exact ht.1 hlength
      · have hsame := map_eq_of_recased Recased.isWordChar_eq (hf text)
        have hmem : isWordChar c ∈ text.map isWordChar := hsame ▸ List.mem_map_of_mem hc
        obtain ⟨d, hd, heq⟩ := List.mem_map.1 hmem
        rw [← heq, ht.2 d hd]
  | remark body =>
      exact ⟨notMem_recased (by decide) (hf body) ht.1, notMem_recased (by decide) (hf body) ht.2.1,
        getLast?_recased (hf body) ht.2.2⟩
  | _ => exact ht

lemma Token.isKeyword_mapWord (word : List Char) (t : Token) : (t.mapWord f).isKeyword word = t.isKeyword word := by
  cases t with
  | word text =>
      rw [Token.mapWord, Token.isKeyword, Token.isKeyword, map_eq_of_recased Recased.foldCase_eq (hf text)]
  | _ => rfl

/-- Tokens that do not join do not join with recased words. -/
lemma Token.joins_mapWord {a b : Token} (hb : b.Valid) (h : ∀ d ∈ b.text.head?, a.joins d = false) :
    ∀ d ∈ (b.mapWord f).text.head?, (a.mapWord f).joins d = false := by
  intro d hd
  have hleft : (a.mapWord f).joins d = a.joins d := by cases a <;> rfl
  rw [hleft]
  cases b with
  | word text =>
      have hword : isWordChar d = true := by
        refine (hb.mapWord hf).2 d ?_
        simpa [Token.mapWord, Token.text, Token.cells, chars_map_mk] using List.mem_of_head? hd
      obtain ⟨e, text, rfl⟩ := List.exists_cons_of_ne_nil hb.1
      have he := hb.2 e List.mem_cons_self
      -- a word without a gap would join a word and a remark
      cases a with
      | word text' =>
          have hjoins : isWordChar e = false := h e rfl
          simp [he] at hjoins
      | remark body =>
          have hjoins : (e != '\n') = false := h e rfl
          obtain rfl : e = '\n' := by simpa using hjoins
          contradiction
      | _ => exact Token.joins_of_isWordChar rfl rfl hword
  | _ => exact h d hd

/-- A layout with recased words fits where the layout does. -/
lemma Fitting.mapWords {prev : Option Token} {s : Layout} (h : Fitting prev s) :
    Fitting (prev.map (Token.mapWord f)) (s.mapWords f) := by
  have hfits {prev next : Option Token} {gap : List Char} (hnext : ∀ b ∈ next, b.Valid)
      (h : Fits prev gap next) : Fits (prev.map (Token.mapWord f)) gap (next.map (Token.mapWord f)) := by
    refine ⟨h.tidy, fun hgap a ha b hb => ?_, ?_, ?_, fun hend a ha hremark => ?_⟩
    · obtain ⟨a, hprev, rfl⟩ := Option.mem_map.1 ha
      obtain ⟨b, hnext', rfl⟩ := Option.mem_map.1 hb
      exact Token.joins_mapWord hf (hnext b hnext') (h.apart hgap a hprev b hnext')
    · rw [Option.map_eq_none_iff, Option.map_eq_none_iff]
      exact h.edge
    · rw [map_mapWord_eq_mark]
      intro hsign
      obtain ⟨hfeed, a, ha, hopen, hsemicolon⟩ := h.sign hsign
      exact ⟨hfeed, _, Option.mem_map_of_mem _ ha, by simpa using hopen, by simpa using hsemicolon⟩
    · obtain ⟨a, hprev, rfl⟩ := Option.mem_map.1 ha
      rw [Token.isRemark_mapWord] at hremark
      exact h.ends (fun hnone => hend (by rw [hnone, Option.map_none])) a hprev hremark
  induction s generalizing prev with
  | last gap => exact hfits (by simp) h
  | cons gap token rest ih =>
      obtain ⟨hgap, hvalid, hrest⟩ := h
      exact ⟨hfits (by simpa using hvalid) hgap, hvalid.mapWord hf, ih hrest⟩

/-! ## Headers -/

lemma Token.isLoose_mapWord (t : Token) : (t.mapWord f).isLoose = t.isLoose := by
  simp only [Token.isLoose, Token.isHeaderWord, Token.mapWord_beq_mark, Token.isKeyword_mapWord hf]

lemma Layout.isSome_turn?_mapWords (words : List (List Char)) (c : Char) (s : Layout) :
    ((s.mapWords f).turn? words c).isSome = (s.turn? words c).isSome := by
  cases s with
  | last gap => rfl
  | cons gap token rest =>
      simp only [Layout.mapWords, Layout.turn?, Token.isKeyword_mapWord hf, Layout.after?_mapWords]
      split <;> simp

namespace HeaderForm

variable (form : HeaderForm)

lemma closes_mapWords (t : Token) (s : Layout) : form.closes (t.mapWord f) (s.mapWords f) = form.closes t s := by
  rw [closes, closes, Token.mapWord_beq_mark, Layout.isSome_turn?_mapWords hf]

lemma steadyScan_mapWords (t : Token) (loose : Bool) (s : Layout) :
    form.steadyScan (t.mapWord f) loose (s.mapWords f) = form.steadyScan t loose s := by
  induction s generalizing t loose with
  | last gap => rfl
  | cons gap token rest ih =>
      simp only [Layout.mapWords, steadyScan, closes_mapWords hf, firmGap, bne, Token.mapWord_beq_mark,
        Token.isRemark_mapWord, Token.isLoose_mapWord hf, ih]

lemma steadyAt_mapWords (t : Token) (s : Layout) :
    form.steadyAt (t.mapWord f) (s.mapWords f) = form.steadyAt t s := by
  have hcondition (s : Layout) : form.steadyCondition (s.mapWords f) = form.steadyCondition s := by
    cases s with
    | last gap => rfl
    | cons gap token rest =>
        simp only [Layout.mapWords, steadyCondition, closes_mapWords hf, Token.isRemark_mapWord,
          Token.isLoose_mapWord hf, steadyScan_mapWords hf]
  rw [steadyAt, steadyAt, Token.isKeyword_mapWord hf, Layout.after?_mapWords]
  cases s.after? form.opening with
  | none => rfl
  | some rest => simp [hcondition]

lemma every_steadyAt_mapWords (s : Layout) : (s.mapWords f).every form.steadyAt = s.every form.steadyAt := by
  induction s with
  | last gap => rfl
  | cons gap token rest ih => rw [Layout.mapWords, Layout.every, Layout.every, steadyAt_mapWords hf, ih]

end HeaderForm

lemma Layout.Steady.mapWords {s : Layout} (h : s.Steady) : (s.mapWords f).Steady := by
  rw [Layout.Steady, HeaderForm.every_steadyAt_mapWords hf, HeaderForm.every_steadyAt_mapWords hf]
  exact h

/-- Recased texts hide no more headers. -/
lemma PlainTokens.mapWord {tokens : List Token} (h : PlainTokens tokens) :
    PlainTokens (tokens.map (Token.mapWord f)) := by
  have hkey (words : List (List Char)) (t : Option Token) :
      (t.map (Token.mapWord f)).any (fun t => words.any t.isKeyword) = t.any fun t => words.any t.isKeyword := by
    cases t with
    | none => rfl
    | some t => simp only [Option.map_some, Option.any_some, Token.isKeyword_mapWord hf]
  have hmark (t : Option Token) (c : Char) : (t.map (Token.mapWord f) == some (.mark c)) = (t == some (.mark c)) := by
    rw [Bool.eq_iff_iff, beq_iff_eq, beq_iff_eq, map_mapWord_eq_mark]
  have hgoes (behind : List Token) : goesOn (behind.map (Token.mapWord f)) = goesOn behind := by
    simp only [goesOn, List.head?_map, List.getElem?_map, hmark, hkey]
  have hends (behind : List Token) : endsLoop (behind.map (Token.mapWord f)) = endsLoop behind := by
    simp only [endsLoop, List.head?_map, List.getElem?_map, hmark, hkey]
  induction tokens with
  | nil => trivial
  | cons t behind ih =>
      refine ⟨?_, ih h.2⟩
      have ht := h.1
      cases t with
      | remark body =>
          refine ⟨ht.1.recased (hf body), fun hgo => ?_, (hends behind).trans ht.2.2⟩
          rw [endsOpen_recased (hf body), ht.2.1 ((hgoes behind).symm.trans hgo)]
      | literal quote body => exact ht
      | _ => trivial

lemma Layout.Plain.mapWords {s : Layout} (h : s.Plain) : (s.mapWords f).Plain := by
  rw [Layout.Plain, Layout.tokens_mapWords]
  exact PlainTokens.mapWord hf h

end Recased

/-! ## Spelling -/

/-- **The canonical spelling of a text** outside literals, word by word. -/
def Vocabulary.spell (v : Vocabulary) (text : List Char) : List Char :=
  chars (spellCells v (text.map (⟨·, .comment⟩)))

/-- A word is replaced by its canonical spelling, in its class. -/
lemma respell_map_mk (v : Vocabulary) {kind : CharClass} (hkind : kind ≠ .literal) {text : List Char}
    (h : text ≠ []) : respell v (text.map (⟨·, kind⟩)) = ((v.canonical? text).getD text).map (⟨·, kind⟩) := by
  have hchars : chars (text.map (⟨·, kind⟩)) = text := chars_map_mk text kind
  obtain ⟨c, text, rfl⟩ := List.exists_cons_of_ne_nil h
  rw [respell, hchars, List.map_cons]
  simp only [List.head?_cons, beq_iff_eq, hkind, if_false]
  cases v.canonical? (c :: text) <;> rfl

/-- The spelling of a text of a single word. -/
lemma spellCells_word (v : Vocabulary) {kind : CharClass} (hkind : kind ≠ .literal) {text : List Char}
    (h : (Token.word text).Valid) :
    spellCells v (text.map (⟨·, kind⟩)) = ((v.canonical? text).getD text).map (⟨·, kind⟩) := by
  have hne : text.map (Cell.mk · kind) ≠ [] := by simpa using h.1
  have hfree : isFreeWord (text.map (⟨·, kind⟩)) = true := by
    simpa [isFreeWord, hkind] using h.2
  rw [spellCells, runs_of_sameSide hne (by simpa using h.2), List.flatMap_singleton, Vocabulary.spellRun,
    if_pos hfree, respell_map_mk v hkind h.1]

section Words

variable {commands functions : List (List Char)}
  (hwords : ∀ word ∈ commands ++ functions, ∀ c ∈ word, c.toNat < 128 ∧ isWordChar c = true)

include hwords

namespace Vocabulary

lemma recased_spell (text : List Char) : List.Forall₂ Recased text ((ofLists commands functions).spell text) := by
  have hrecased := recased_spellCells hwords (singleClass_map_mk text .comment)
  rwa [chars_map_mk] at hrecased

/-- A comment in its canonical spelling is a comment. -/
lemma map_spell (text : List Char) :
    ((ofLists commands functions).spell text).map (⟨·, .comment⟩)
      = spellCells (ofLists commands functions) (text.map (⟨·, .comment⟩)) := by
  have hrecast := recast_spellCells hwords (singleClass_map_mk text .comment)
  rw [List.forall₂_map_left_iff] at hrecast
  rw [spell]
  generalize spellCells (ofLists commands functions) (text.map (⟨·, .comment⟩)) = cells at hrecast
  induction hrecast with
  | nil => rfl
  | @cons c cell _ _ hcell _ ih =>
      have hkind : CharClass.comment = cell.kind := hcell.kind
      rw [chars_cons, List.map_cons, ih, hkind]

/-- **A text in its canonical spelling stays as it is.** -/
lemma spell_spell (text : List Char) :
    (ofLists commands functions).spell ((ofLists commands functions).spell text)
      = (ofLists commands functions).spell text := by
  rw [spell, map_spell hwords, spellCells_spellCells hwords (singleClass_map_mk text .comment), ← spell]

end Vocabulary

/-- A token in its canonical spelling. -/
lemma Token.spellCells_cells {t : Token} (ht : t.Valid) :
    spellCells (.ofLists commands functions) t.cells
      = (t.mapWord (Vocabulary.ofLists commands functions).spell).cells := by
  cases t with
  | word text =>
      have hspell : (Vocabulary.ofLists commands functions).spell text
          = ((Vocabulary.ofLists commands functions).canonical? text).getD text := by
        rw [Vocabulary.spell, spellCells_word _ (by decide) ht, chars_map_mk]
      rw [Token.mapWord, hspell]
      exact spellCells_word _ (by decide) ht
  | literal quote body =>
      refine spellCells_literal _ fun cell hcell => ?_
      obtain ⟨c, -, rfl⟩ := List.mem_map.1 hcell
      rfl
  | operator text =>
      have hnot : ∀ op ∈ operators, ∀ c ∈ op, isWordChar c = false := by decide
      refine spellCells_of_notWord _ fun cell hcell => ?_
      obtain ⟨c, hc, rfl⟩ := List.mem_map.1 hcell
      exact hnot text ht c hc
  | mark c => exact spellCells_of_notWord _ (by simpa [Token.cells, Cell.code] using ht.2.1)
  | remark body =>
      have hslash : isWordChar '/' = false := by decide
      have hmark : ∀ cell ∈ [(⟨'/', .comment⟩ : Cell), ⟨'/', .comment⟩], isWordChar cell.char = false := by
        simp [hslash]
      have hcut := spellCells_append (.ofLists commands functions) (a := [⟨'/', .comment⟩, ⟨'/', .comment⟩])
        (b := body.map (⟨·, .comment⟩)) fun x hx _ _ => .inl (hmark x (List.mem_of_getLast? hx))
      rw [spellCells_of_notWord _ hmark, ← Vocabulary.map_spell hwords] at hcut
      exact hcut

/-- **A layout is spelled token by token.** -/
lemma Fitting.spellCells_cells {prev : Option Token} {s : Layout} (h : Fitting prev s) :
    spellCells (.ofLists commands functions) s.cells
      = (s.mapWords (Vocabulary.ofLists commands functions).spell).cells := by
  induction s generalizing prev with
  | last gap => exact spellCells_of_notWord _ (notWord_of_space h.isSpace .code)
  | cons gap token rest ih =>
      obtain ⟨hfits, hvalid, hrest⟩ := h
      have hgap : ∀ cell ∈ gap.map Cell.code, isWordChar cell.char = false := notWord_of_space hfits.isSpace .code
      have hbetween : ∀ x ∈ token.cells.getLast?, ∀ y ∈ rest.cells.head?,
          isWordChar x.char = false ∨ isWordChar y.char = false := by
        intro x hx y hy
        cases token with
        | word text =>
            refine .inr (hrest.joins y.char ?_)
            rw [nextChar_eq, chars, List.head?_map, hy]
            rfl
        | remark body => exact .inr (hrest.head_of_remark y hy)
        | _ => exact .inl (Token.isWordChar_ends hvalid rfl (.inr ⟨rfl, hx⟩))
      rw [Layout.cells, spellCells_append _ fun x hx _ _ => .inl (hgap x (List.mem_of_getLast? hx)),
        spellCells_append _ hbetween, Token.spellCells_cells hwords hvalid, ih hrest,
        spellCells_of_notWord _ hgap]
      rfl

/-- **The spelling pass spells the words and remarks of a layout** and changes nothing else. -/
theorem spellWords_text {s : Layout} (h : Fitting none s) :
    spellWords (.ofLists commands functions) s.text
      = (s.mapWords (Vocabulary.ofLists commands functions).spell).text := by
  have hlabel : labelFrom (.ready .code) s.text = s.cells := h.label_text
  rw [spellWords_eq_spelledLine hwords, spelledLine, hlabel, h.spellCells_cells hwords, Layout.text]

end Words

end SqfLayout
