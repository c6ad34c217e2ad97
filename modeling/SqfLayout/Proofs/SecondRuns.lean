import SqfLayout.Proofs.RepeatedSemicolons
import SqfLayout.Proofs.SpelledLayouts
import SqfLayout.Proofs.WrittenLayouts

/-!
# Formatting twice

The passes read what the passes behind them have written: headers are looked for in lines that statements
and braces have broken, and comments and margins in lines that indentation has moved.

**One run.**  All passes together choose a new gap between every two tokens and spell the words and the
comments at the ends of lines (`formatText_of_stripMargins`): the result is the indented text of a layout
with the same tokens.  The margins pass finds that layout again in the indented text, so a second run starts
from it.

**Two runs.**  If the headers of the script are steady, the second run finds every header that the first
has found and no other, and formatting is idempotent (`formatText_formatText`).  Without that it is not: a
condition that statements break over two lines is no condition in the second run
(`formatText_formatText_loop`).
-/

namespace SqfLayout

open SqfLayout.Text SqfLayout.Scan SqfLayout.Pass

/-! ## Spelling -/

/-- The spelling of words that a style asks for. -/
def Style.spelling (style : Style) (v : Vocabulary) (text : List Char) : List Char :=
  if style.normalizeCase then v.spell text else text

/-- **A layout in the spelling that a style asks for.** -/
def Layout.spelled (style : Style) (v : Vocabulary) (s : Layout) : Layout := s.mapWords (style.spelling v)

/-! ## Passes in a row -/

/-- **Formatting is four steps**: margins and braces, spelling, the passes that arrange tokens, and
indentation. -/
lemma formatText_eq (style : Style) (v : Vocabulary) (text : List Char) :
    formatText style v text = indentLines style.indent (arrangeText style
      (if style.normalizeCase then spellWords v (breakBraces (stripMargins text))
        else breakBraces (stripMargins text))) := by
  have hall : LayoutPass.all.filter (·.enabled style)
      = [.margins, .braces] ++ (if style.normalizeCase then [.spelling] else [])
        ++ .commas :: (if style.operatorSpacing then [.operators] else [])
        ++ [.headers, .statements, .semicolons, .parens, .indent] := by
    obtain ⟨indent, normalizeCase, operatorSpacing⟩ := style
    cases normalizeCase <;> cases operatorSpacing <;> rfl
  rw [formatText, hall]
  cases hcase : style.normalizeCase <;> cases hspacing : style.operatorSpacing <;>
    simp [arrangeText, LayoutPass.apply, hspacing]

lemma Fitting.formed {s : Layout} (h : Fitting none s) (style : Style) : Fitting none (s.formed style) :=
  (h.arranged style).squeezed.thin fun _ => rfl

/-- The margins pass takes no line break away. -/
lemma staysFirm_tidyGap (prev : Option Token) (s : Layout) : Paired StaysFirm prev s (s.relay tidyGap prev) := by
  induction s generalizing prev with
  | last gap => exact .last _ _ _
  | cons gap token rest ih =>
      refine .cons (fun a ha hfirm => ?_) (ih _)
      by_cases hfeed : '\n' ∈ gap
      · have hkept : '\n' ∈ tidyGap prev gap (some token) := by
          rw [tidyGap, if_pos hfeed]
          exact List.mem_replicate.2 ⟨(List.count_pos_iff.2 hfeed).ne', rfl⟩
        simpa [firmGap, hfeed, hkept] using hfirm
      · simp only [firmGap, Bool.and_eq_true, Bool.or_eq_true, List.contains_iff_mem] at hfirm ⊢
        exact ⟨hfirm.1, .inl (hfirm.2.resolve_right fun hsemicolon => hfeed hsemicolon.2)⟩

section Runs

variable {commands functions : List (List Char)}
  (hwords : ∀ word ∈ commands ++ functions, ∀ c ∈ word, c.toNat < 128 ∧ isWordChar c = true) (style : Style)

include hwords

lemma Style.recased_spelling (text : List Char) :
    List.Forall₂ Recased text (style.spelling (.ofLists commands functions) text) := by
  rw [spelling]
  split
  · exact Vocabulary.recased_spell hwords text
  · exact List.forall₂_same.2 fun c _ => .refl c

lemma Style.spelling_spelling (text : List Char) :
    style.spelling (.ofLists commands functions) (style.spelling (.ofLists commands functions) text)
      = style.spelling (.ofLists commands functions) text := by
  rw [spelling, spelling]
  split
  · exact Vocabulary.spell_spell hwords text
  · rfl

lemma Fitting.spelled {s : Layout} (h : Fitting none s) :
    Fitting none (s.spelled style (.ofLists commands functions)) :=
  h.mapWords (style.recased_spelling hwords)

/-- The tokens of a spelled layout are spelled. -/
lemma Layout.mapWord_of_mem {s : Layout} {t : Token}
    (h : t ∈ (s.spelled style (.ofLists commands functions)).tokens) :
    t.mapWord (style.spelling (.ofLists commands functions)) = t := by
  rw [spelled, tokens_mapWords] at h
  obtain ⟨token, -, rfl⟩ := List.mem_map.1 h
  exact Token.mapWord_mapWord (style.spelling_spelling hwords) token

/-- The spelling pass on a layout, if the style lets it run. -/
lemma spellWords_braces {s : Layout} (h : Fitting none s) :
    (if style.normalizeCase then spellWords (.ofLists commands functions) (s.relay braceGap none).text
      else (s.relay braceGap none).text)
      = ((s.spelled style (.ofLists commands functions)).relay braceGap none).text := by
  have hcommute : ((s.spelled style (.ofLists commands functions)).relay braceGap none)
      = (s.relay braceGap none).spelled style (.ofLists commands functions) :=
    (Layout.mapWords_relay_braceGap none s).symm
  rw [hcommute, Layout.spelled]
  cases hcase : style.normalizeCase with
  | false =>
      have hspelling : style.spelling (.ofLists commands functions) = id := by
        funext text
        simp [Style.spelling, hcase]
      rw [if_neg (by simp), hspelling, Layout.mapWords_eq_self fun t _ => by cases t <;> rfl]
  | true =>
      have hspelling : style.spelling (.ofLists commands functions)
          = (Vocabulary.ofLists commands functions).spell := by
        funext text
        simp [Style.spelling, hcase]
      rw [if_pos rfl, spellWords_text hwords (h.relay keeps_braceGap), hspelling]

/-- **One run**, on a script whose text without margins is that of a layout. -/
lemma formatText_of_stripMargins {text : List Char} {s : Layout} (htext : stripMargins text = s.text)
    (h : Fitting none s) (hplain : s.Plain) {t : Layout} (ht : Fitting none t) (hclean : t.Clean)
    (harranged : (((s.spelled style (.ofLists commands functions)).relay (rulesBefore style) none).headed.single
      none).relay rulesBehind none = t.arranged style) :
    formatText style (.ofLists commands functions) text = indentLines style.indent (t.formed style).text := by
  have harrange : arrangeText style ((s.spelled style (.ofLists commands functions)).relay braceGap none).text
      = (t.arranged style).text := by
    rw [arrangeText_text (h.spelled hwords style) (hplain.mapWords (style.recased_spelling hwords)), harranged]
  rw [formatText_eq, htext, breakBraces_text h, spellWords_braces hwords style h, harrange, Layout.formed,
    indentLines_thin (ht.arranged style).squeezed,
    indentLines_squeezed (ht.arranged style) (hclean.arranged style).untabbed]

/-! ## Two runs -/

/-- **A second run changes nothing**, with a vocabulary of words. -/
lemma formatText_twice {text : List Char} {s : Layout} (htext : stripMargins text = s.text)
    (h : Fitting none s) (hclean : s.Clean) (hplain : s.Plain) (hsteady : s.Steady) :
    formatText style (.ofLists commands functions) (formatText style (.ofLists commands functions) text)
      = formatText style (.ofLists commands functions) text := by
  let t : Layout := (s.spelled style (.ofLists commands functions)).single none
  have ht : Fitting none t := (h.spelled hwords style).single
  have hclean' : t.Clean := hclean.mapWords.single none
  have hsteady' : (s.spelled style (.ofLists commands functions)).Steady :=
    hsteady.mapWords (style.recased_spelling hwords)
  have hfirst : formatText style (.ofLists commands functions) text = indentLines style.indent (t.formed style).text :=
    formatText_of_stripMargins hwords style htext h hplain ht hclean' (Layout.arranged_single style hsteady')
  -- the second run starts from the layout that the first has formed
  have hback : stripMargins (indentLines style.indent (t.formed style).text) = (t.formed style).text :=
    stripMargins_indentLines (ht.arranged style) (hclean'.arranged style).untabbed style.indent
  have hsub : (t.formed style).tokens ⊆ (s.spelled style (.ofLists commands functions)).tokens := by
    rw [Layout.tokens_formed]
    exact Layout.tokens_single_subset none _
  have hplain' : (t.formed style).Plain := by
    rw [Layout.Plain, Layout.tokens_formed]
    exact (hplain.mapWords (style.recased_spelling hwords)).single none
  have hspelled : (t.formed style).spelled style (.ofLists commands functions) = t.formed style :=
    Layout.mapWords_eq_self fun token htoken => Layout.mapWord_of_mem hwords style (hsub htoken)
  have hsingle : SingleSemicolons (t.formed style).tokens := by
    rw [Layout.tokens_formed]
    exact Layout.singleSemicolons_single none _
  have harranged := Layout.arranged_of_singleSemicolons style hsingle
  have hsecond := formatText_of_stripMargins hwords style hback (ht.formed style) hplain' (ht.formed style)
    (hclean'.formed style) (by rwa [hspelled])
  rw [hfirst, hsecond, Layout.formed_formed style hsteady'.single]

end Runs

/-- **Formatting a formatted script changes nothing**: a script whose comments end with their lines, which has
comments or tabs between the tokens of a line but not both, in whose literals and comments no header starts or
ends, and whose headers are steady. -/
theorem formatText_formatText (style : Style) {s : Layout} (h : Written none s) (hplain : s.Plain)
    (hsteady : s.Steady) :
    formatText style .builtin (formatText style .builtin s.text) = formatText style .builtin s.text := by
  have hfirm : Paired StaysFirm none s (s.relay tidyGap none) := staysFirm_tidyGap none s
  exact formatText_twice builtin_words style (stripMargins_text h.1) h.1.fitting h.2 (hplain.relay _ _)
    (hsteady.of_paired hfirm)

/-- A conditional, repeated semicolons and a loop; and the same with remarks on a line of their own, behind a
brace, behind a statement and at the end. -/
theorem formatText_formatText_conditional :
    (∃ s : Layout, Written none s ∧ s.Plain ∧ s.Steady
      ∧ s.text = "if(a )THEN\x7bHint \"b\"\x7d;; while\x7bx\x7d do\t\x7by\x7d".toList
      ∧ formatText {} .builtin (formatText {} .builtin s.text) = formatText {} .builtin s.text)
    ∧ ∃ s : Layout, Written none s ∧ s.Plain ∧ s.Steady
      ∧ s.text = ("// Start\nif(a )THEN\x7b // HINT\n\tHint \"b\"\x7d;; // x = 1;\n"
        ++ "while\x7bx\x7d do \x7by\x7d //end ").toList
      ∧ formatText {} .builtin (formatText {} .builtin s.text) = formatText {} .builtin s.text := by
  let s : Layout :=
    .cons [] (.word ['i', 'f']) <| .cons [] (.mark '(') <| .cons [] (.word ['a']) <| .cons [' '] (.mark ')') <|
    .cons [] (.word ['T', 'H', 'E', 'N']) <| .cons [] (.mark '{') <| .cons [] (.word ['H', 'i', 'n', 't']) <|
    .cons [' '] (.literal '"' ['b']) <| .cons [] (.mark '}') <| .cons [] (.mark ';') <| .cons [] (.mark ';') <|
    .cons [' '] (.word ['w', 'h', 'i', 'l', 'e']) <| .cons [] (.mark '{') <| .cons [] (.word ['x']) <|
    .cons [] (.mark '}') <| .cons [' '] (.word ['d', 'o']) <| .cons ['\t'] (.mark '{') <|
    .cons [] (.word ['y']) <| .cons [] (.mark '}') <| .last []
  let t : Layout :=
    .cons [] (.remark [' ', 'S', 't', 'a', 'r', 't']) <| .cons ['\n'] (.word ['i', 'f']) <| .cons [] (.mark '(') <|
    .cons [] (.word ['a']) <| .cons [' '] (.mark ')') <| .cons [] (.word ['T', 'H', 'E', 'N']) <|
    .cons [] (.mark '{') <| .cons [' '] (.remark [' ', 'H', 'I', 'N', 'T']) <|
    .cons ['\n', '\t'] (.word ['H', 'i', 'n', 't']) <| .cons [' '] (.literal '"' ['b']) <| .cons [] (.mark '}') <|
    .cons [] (.mark ';') <| .cons [] (.mark ';') <| .cons [' '] (.remark [' ', 'x', ' ', '=', ' ', '1', ';']) <|
    .cons ['\n'] (.word ['w', 'h', 'i', 'l', 'e']) <| .cons [] (.mark '{') <| .cons [] (.word ['x']) <|
    .cons [] (.mark '}') <| .cons [' '] (.word ['d', 'o']) <| .cons [' '] (.mark '{') <|
    .cons [] (.word ['y']) <| .cons [] (.mark '}') <| .cons [' '] (.remark ['e', 'n', 'd']) <| .last [' ']
  have hwritten : Written none s ∧ Written none t := by decide +kernel
  have hplain : s.Plain ∧ t.Plain := by decide +kernel
  have hsteady : s.Steady ∧ t.Steady := by decide +kernel
  exact ⟨⟨s, hwritten.1, hplain.1, hsteady.1, by decide +kernel,
      formatText_formatText {} hwritten.1 hplain.1 hsteady.1⟩,
    t, hwritten.2, hplain.2, hsteady.2, by decide +kernel, formatText_formatText {} hwritten.2 hplain.2 hsteady.2⟩

/-! ## A loop that a second run does not find -/

/-- What closes a bracket. -/
def closing? : Char → Option Char
  | '(' => some ')'
  | '[' => some ']'
  | '{' => some '}'
  | _ => none

/-- Whether the brackets of code nest, with those that the given ones close still open. -/
def nests : List Char → List Cell → Bool
  | pending, [] => pending.isEmpty
  | pending, cell :: rest =>
    if cell.kind != .code then nests pending rest
    else match closing? cell.char with
      | some c => nests (c :: pending) rest
      | none =>
        if [')', ']', '}'].contains cell.char then
          pending.head? == some cell.char && nests pending.tail rest
        else nests pending rest

/-- **A second run may change a well-formed script**: splitting the statements of a condition breaks its
line, so the second run does not take the braces around it for those of a condition. -/
theorem formatText_formatText_loop :
    modeAfter .code "while \x7ba; b\x7d do \x7bc\x7d".toList = .code
      ∧ nests [] (label "while \x7ba; b\x7d do \x7bc\x7d".toList) = true
      ∧ formatText { normalizeCase := false } .builtin "while \x7ba; b\x7d do \x7bc\x7d".toList
        = "while \x7b a;\nb \x7d do \x7b\n    c\n\x7d".toList
      ∧ formatText { normalizeCase := false } .builtin "while \x7b a;\nb \x7d do \x7b\n    c\n\x7d".toList
        = "while \x7b\n    a;\n    b\n\x7d do \x7b\n    c\n\x7d".toList
      ∧ formatText { normalizeCase := false } .builtin
          (formatText { normalizeCase := false } .builtin "while \x7ba; b\x7d do \x7bc\x7d".toList)
        ≠ formatText { normalizeCase := false } .builtin "while \x7ba; b\x7d do \x7bc\x7d".toList := by
  decide +kernel

end SqfLayout
