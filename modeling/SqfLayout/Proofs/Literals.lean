import SqfLayout.Proofs.Headers
import SqfLayout.Proofs.LiteralLines
import SqfLayout.Proofs.Pipeline
import SqfLayout.Proofs.PulledBack

/-!
# Literals of formatted texts

**What is kept.**  A literal within a line is kept as it is.  A literal over several lines keeps everything
but the white space around its line breaks, since margins and indentation are those of lines and not
of literals (`literalText_formatText`, `literalText_formatText_break`).

**Where passes keep to code.**  Some passes can take a literal or a comment for code, or the other way
round: the headers pass behind a condition that leaves something open, a comma or a semicolon that is
pulled back into a comment, and indentation where a tab keeps a comment mark apart.  `KeepsToCode` says
that none of this happens in the texts that reach these passes.
-/

namespace SqfLayout

open SqfLayout.Text SqfLayout.Scan SqfLayout.Pass

/-! ## Single passes -/

/-- Texts with the same literals have them up to breaks too. -/
lemma Pass.SameLiterals.upToBreaks {a b : List Char} (h : SameLiterals a b) :
    SameUpToBreaks .code a b := by
  obtain ⟨hliterals, hmode⟩ := h
  have hnext : (scanLine .code b).2 = (scanLine .code a).2 := by rw [scanLine, hmode, scanLine]
  refine ⟨hnext, .of_eq ?_⟩
  rw [label, label] at hliterals
  rw [literalsFrom, literalsFrom, hliterals]

/-- Texts with the same view have the same literals. -/
lemma sameLiterals_of_solid {a b : List Char} (hsolid : solid b = solid a)
    (hmode : modeAfter .code b = modeAfter .code a) : SameLiterals a b := by
  have hliterals (text : List Char) : literalCells (label text) = literalCells (solid text) := by
    rw [solid, solidCells, literalCells, literalCells, List.filter_filter]
    refine List.filter_congr fun cell _ => ?_
    cases hkind : cell.kind <;> simp [isSolid, hkind]
  exact ⟨by rw [hliterals, hliterals, hsolid], hmode⟩

/-! ## All passes -/

/-- **Where the passes keep to code**: what is asked of the texts that reach the headers pass, the passes
that pull marks back, and indentation. -/
structure KeepsToCode (style : Style) (text : List Char) : Prop where
  /-- Every conditional leaves nothing open behind its condition, or is canonical there. -/
  conditionals : HarmlessConditionals (textBefore style .builtin .headers text)
  /-- So does every loop. -/
  loops : HarmlessLoops (spaceAlternatives (spaceConditionals (textBefore style .builtin .headers text)))
  /-- No comma is pulled back into a line comment. -/
  commas : CommentsSeen ',' (textBefore style .builtin .commas text)
  /-- No semicolon is. -/
  semicolons : CommentsSeen ';' (textBefore style .builtin .semicolons text)
  /-- No tab that indentation takes away keeps the characters of a comment mark apart. -/
  tabs : tabsHarmless .code (lines (textBefore style .builtin .indent text)) = true

/-- **Every pass keeps the literals of the text that reaches it**, up to breaks. -/
lemma KeepsToCode.apply {style : Style} {text : List Char} (h : KeepsToCode style text)
    (pass : LayoutPass) :
    SameUpToBreaks .code (textBefore style .builtin pass text)
      (pass.apply style .builtin (textBefore style .builtin pass text)) := by
  cases pass with
  | margins => exact sameUpToBreaks_stripMargins _
  | braces => exact (sameLiterals_breakBraces _).upToBreaks
  | spelling => exact (sameLiterals_spellWords builtin_plain _).upToBreaks
  | commas => exact (sameLiterals_spaceCommas h.commas).upToBreaks
  | operators => exact (sameLiterals_spaceOperators _).upToBreaks
  | headers =>
      obtain ⟨hsolid, hmode⟩ := solid_spaceHeaders_of_harmless h.conditionals h.loops
      exact (sameLiterals_of_solid hsolid hmode).upToBreaks
  | statements => exact (sameLiterals_splitStatements _).upToBreaks
  | semicolons => exact (sameLiterals_joinSemicolons h.semicolons).upToBreaks
  | parens => exact (sameLiterals_trimParens _).upToBreaks
  | indent => exact sameUpToBreaks_indentLines style.indent h.tabs

/-- **Formatting keeps literals up to the white space around their line breaks**, and literals that lie
within lines exactly, for a text that ends in code and in which the passes keep to code. -/
theorem literalText_formatText (style : Style) (text : List Char) (hend : modeAfter .code text = .code)
    (hcode : KeepsToCode style text) :
    joinBreaks (literalText (formatText style .builtin text)) = joinBreaks (literalText text)
      ∧ ('\n' ∉ literalText text →
        literalText (formatText style .builtin text) = literalText text) := by
  have hkept : SameUpToBreaks .code text (formatText style .builtin text) :=
    formatText_rel (.refl .code) (fun _ _ _ => .trans) text hcode.apply
  have hnext : (scanLine .code text).2 = .code := by rw [scanLine, hend]; rfl
  have hliterals := hkept.literals
  rw [hnext] at hliterals
  have hbreaks : joinBreaks (literalText (formatText style .builtin text))
      = joinBreaks (literalText text) := by
    have hjoined := joinBreaks_eq hliterals
    simpa [feedIn, Mode.kind, literalsFrom, literalText, label] using hjoined.symm
  exact ⟨hbreaks, eq_of_joinBreaks hbreaks⟩

/-- A literal over three lines, and one within a condition. -/
theorem literalText_formatText_condition :
    (modeAfter .code "x=\" ; \n\n  b\" ,c".toList = .code
      ∧ KeepsToCode { normalizeCase := false } "x=\" ; \n\n  b\" ,c".toList
      ∧ joinBreaks (literalText (formatText { normalizeCase := false } .builtin
          "x=\" ; \n\n  b\" ,c".toList))
        = joinBreaks (literalText "x=\" ; \n\n  b\" ,c".toList))
    ∧ (modeAfter .code "if(a==\" ;  b\")then\x7bc\x7d".toList = .code
      ∧ KeepsToCode { normalizeCase := false } "if(a==\" ;  b\")then\x7bc\x7d".toList
      ∧ '\n' ∉ literalText "if(a==\" ;  b\")then\x7bc\x7d".toList
      ∧ literalText (formatText { normalizeCase := false } .builtin
          "if(a==\" ;  b\")then\x7bc\x7d".toList)
        = literalText "if(a==\" ;  b\")then\x7bc\x7d".toList) := by
  have hend₁ : modeAfter .code "x=\" ; \n\n  b\" ,c".toList = .code := by decide +kernel
  have hcode₁ : KeepsToCode { normalizeCase := false } "x=\" ; \n\n  b\" ,c".toList :=
    ⟨by decide +kernel, by decide +kernel, by decide +kernel, by decide +kernel, by decide +kernel⟩
  have hend₂ : modeAfter .code "if(a==\" ;  b\")then\x7bc\x7d".toList = .code := by decide +kernel
  have hcode₂ : KeepsToCode { normalizeCase := false } "if(a==\" ;  b\")then\x7bc\x7d".toList :=
    ⟨by decide +kernel, by decide +kernel, by decide +kernel, by decide +kernel, by decide +kernel⟩
  have hline : '\n' ∉ literalText "if(a==\" ;  b\")then\x7bc\x7d".toList := by decide +kernel
  exact ⟨⟨hend₁, hcode₁, (literalText_formatText _ _ hend₁ hcode₁).1⟩,
    ⟨hend₂, hcode₂, hline, (literalText_formatText _ _ hend₂ hcode₂).2 hline⟩⟩

/-- **White space of a literal is lost at a line break.** -/
theorem literalText_formatText_break :
    modeAfter .code "\"a \nb\"".toList = .code
      ∧ literalText "\"a \nb\"".toList = "\"a \nb\"".toList
      ∧ literalText (formatText { normalizeCase := false } .builtin "\"a \nb\"".toList)
        = "\"a\nb\"".toList := by
  decide +kernel

end SqfLayout
