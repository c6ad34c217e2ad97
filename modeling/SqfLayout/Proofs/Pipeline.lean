import Mathlib.Data.List.Basic
import SqfLayout.Format

/-!
# The passes in a row

`runPasses_rel` carries a relation that every pass respects through any row of passes.  `textBefore` is
the text that reaches a given pass; the text before indentation is the last but one
(`formatText_eq_indentLines`).  A relation that each pass respects on the text that reaches it holds
between a text and the formatted text (`formatText_rel`).
-/

namespace SqfLayout

open SqfLayout.Text

variable {style : Style} {vocabulary : Vocabulary}

/-- **What every pass does to a text, the passes together do**, if the relation can be chained. -/
lemma runPasses_rel {R : List Char → List Char → Prop} (refl : ∀ t, R t t)
    (trans : ∀ a b c, R a b → R b c → R a c) {passes : List LayoutPass}
    (hpass : ∀ pass ∈ passes, ∀ t, R t (pass.apply style vocabulary t)) (text : List Char) :
    R text (passes.foldl (fun t pass => pass.apply style vocabulary t) text) := by
  induction passes generalizing text with
  | nil => exact refl text
  | cons pass passes ih =>
      obtain ⟨hfirst, hrest⟩ := List.forall_mem_cons.1 hpass
      exact trans _ _ _ (hfirst text) (ih hrest _)

/-- The passes of a style that come before a given one. -/
def passesBefore (style : Style) (pass : LayoutPass) : List LayoutPass :=
  (LayoutPass.all.takeWhile (· != pass)).filter (·.enabled style)

/-- **The text that reaches a pass.** -/
def textBefore (style : Style) (vocabulary : Vocabulary) (pass : LayoutPass) (text : List Char) :
    List Char :=
  (passesBefore style pass).foldl (fun t pass => pass.apply style vocabulary t) text

lemma ne_indent_of_mem_passesBefore {pass : LayoutPass} (h : pass ∈ passesBefore style .indent) :
    pass ≠ .indent := by
  rintro rfl
  have hmem := (List.mem_filter.1 h).1
  revert hmem
  decide

/-- The passes before a given one are those that are listed before it. -/
lemma passesBefore_eq {done rest : List LayoutPass} {pass : LayoutPass}
    (hall : LayoutPass.all = done ++ pass :: rest) :
    passesBefore style pass = done.filter (·.enabled style) := by
  have hnodup : LayoutPass.all.Nodup := by decide
  rw [hall] at hnodup
  have hnot : ∀ p ∈ done, (p != pass) = true := by
    intro p hp
    rw [bne_iff_ne]
    rintro rfl
    exact (List.nodup_append.1 hnodup).2.2 p hp p List.mem_cons_self rfl
  rw [passesBefore, hall, List.takeWhile_append_of_pos hnot]
  simp

/-- **What each pass does to the text that reaches it, the formatter does**, if the relation can be
chained. -/
lemma formatText_rel {R : List Char → List Char → Prop} (refl : ∀ t, R t t)
    (trans : ∀ a b c, R a b → R b c → R a c) (text : List Char)
    (hpass : ∀ pass, R (textBefore style vocabulary pass text)
      (pass.apply style vocabulary (textBefore style vocabulary pass text))) :
    R text (formatText style vocabulary text) := by
  have hrun (done rest : List LayoutPass) (hall : LayoutPass.all = done ++ rest)
      (hdone : R text ((done.filter (·.enabled style)).foldl
        (fun t pass => pass.apply style vocabulary t) text)) :
      R text (formatText style vocabulary text) := by
    induction rest generalizing done with
    | nil =>
        rw [List.append_nil] at hall
        rwa [formatText, hall]
    | cons pass rest ih =>
        refine ih (done ++ [pass]) (by simpa using hall) ?_
        rw [List.filter_append, List.foldl_append]
        by_cases henabled : pass.enabled style = true
        · refine trans _ _ _ hdone ?_
          have hstep := hpass pass
          rw [textBefore, passesBefore_eq hall] at hstep
          simpa [henabled] using hstep
        · simpa [henabled] using hdone
  exact hrun [] LayoutPass.all rfl (refl text)

/-- The text that reaches the next pass. -/
lemma textBefore_next {done rest : List LayoutPass} {pass next : LayoutPass}
    (hall : LayoutPass.all = done ++ pass :: next :: rest) (text : List Char) :
    textBefore style vocabulary next text
      = if pass.enabled style then pass.apply style vocabulary (textBefore style vocabulary pass text)
        else textBefore style vocabulary pass text := by
  have hnext : LayoutPass.all = (done ++ [pass]) ++ next :: rest := by simpa using hall
  rw [textBefore, textBefore, passesBefore_eq hnext, passesBefore_eq hall, List.filter_append,
    List.foldl_append]
  by_cases henabled : pass.enabled style = true <;> simp [henabled]

/-- **What the passes from one to another do to the texts that reach them, they do together.** -/
lemma textBefore_rel {R : List Char → List Char → Prop} (trans : ∀ a b c, R a b → R b c → R a c)
    (refl : ∀ t, R t t) (text : List Char) {done between rest : List LayoutPass}
    {first last : LayoutPass} (hall : LayoutPass.all = done ++ first :: (between ++ last :: rest))
    (hpass : ∀ pass ∈ first :: between, pass.enabled style = true →
      R (textBefore style vocabulary pass text)
        (pass.apply style vocabulary (textBefore style vocabulary pass text))) :
    R (textBefore style vocabulary first text) (textBefore style vocabulary last text) := by
  -- one pass, which does nothing where it is switched off
  have hstep {done rest : List LayoutPass} {pass next : LayoutPass}
      (hall : LayoutPass.all = done ++ pass :: next :: rest)
      (hpass : pass.enabled style = true → R (textBefore style vocabulary pass text)
        (pass.apply style vocabulary (textBefore style vocabulary pass text))) :
      R (textBefore style vocabulary pass text) (textBefore style vocabulary next text) := by
    rw [textBefore_next hall]
    split
    · next henabled => exact hpass henabled
    · exact refl _
  induction between generalizing done first with
  | nil => exact hstep hall (hpass first (by simp))
  | cons next between ih =>
      have htail : LayoutPass.all = (done ++ [first]) ++ next :: (between ++ last :: rest) := by
        simpa using hall
      exact trans _ _ _ (hstep hall (hpass first (by simp)))
        (ih htail fun pass hmem => hpass pass (List.mem_cons_of_mem _ hmem))

/-- **Indentation comes last.** -/
lemma formatText_eq_indentLines (text : List Char) :
    formatText style vocabulary text
      = Pass.indentLines style.indent (textBefore style vocabulary .indent text) := by
  have hall : LayoutPass.all = LayoutPass.all.takeWhile (· != .indent) ++ [.indent] := by decide
  rw [formatText, hall, List.filter_append, List.foldl_append]
  rfl

end SqfLayout
