import SqfLayout.Proofs.Pieces

/-!
# Texts up to spacing

The passes move white space about, and most of what they keep does not depend on where it stands.
This file has the relation in which all of that is said once.

**The relation.**  `Respaced rule` is the least congruence of texts that holds the pairs of a rule.
What has the same value on both sides of every pair, in every surrounding, has the same value on
related texts (`Respaced.eq_of_rule`).

**Rules.**  `Spacing` lets white space come and go next to a *hinge*: a line feed, a bracket, a
separator or a character of an operator.  Two passes do more: `Joining` makes one semicolon of two, and
`Squeezing` one blank of two.  No pair of these rules has a character of a word in it, and so words are
never run together.

**Ends.**  At the ends of a text white space is free as well.  `framed` puts a line feed at each end,
which is a hinge, and so no rule of its own is needed.  `Respaced.rows_cons` goes through a text
line by line.
-/

namespace SqfLayout.Text

/-! ## The relation -/

/-- **Texts that agree up to a rule**: the pairs of the rule may be exchanged anywhere in a text, in
both directions and any number of times. -/
inductive Respaced (rule : List Char → List Char → Prop) : List Char → List Char → Prop
  | of {a b : List Char} : rule a b → Respaced rule a b
  | refl (a : List Char) : Respaced rule a a
  | symm {a b : List Char} : Respaced rule a b → Respaced rule b a
  | trans {a b c : List Char} : Respaced rule a b → Respaced rule b c → Respaced rule a c
  | append {a b c d : List Char} : Respaced rule a b → Respaced rule c d →
      Respaced rule (a ++ c) (b ++ d)

namespace Respaced

variable {rule rule' : List Char → List Char → Prop} {a b c : List Char}

lemma of_eq (h : a = b) : Respaced rule a b := h ▸ refl a

lemma append_left (c : List Char) (h : Respaced rule a b) : Respaced rule (c ++ a) (c ++ b) :=
  (refl c).append h

lemma append_right (c : List Char) (h : Respaced rule a b) : Respaced rule (a ++ c) (b ++ c) :=
  h.append (refl c)

lemma cons (x : Char) (h : Respaced rule a b) : Respaced rule (x :: a) (x :: b) :=
  h.append_left [x]

/-- More pairs relate more texts. -/
lemma mono (hrule : ∀ a b, rule a b → rule' a b) (h : Respaced rule a b) : Respaced rule' a b := by
  induction h with
  | of h => exact of (hrule _ _ h)
  | refl a => exact refl a
  | symm _ ih => exact ih.symm
  | trans _ _ ih₁ ih₂ => exact ih₁.trans ih₂
  | append _ _ ih₁ ih₂ => exact ih₁.append ih₂

/-- **What no pair of the rule changes in any surrounding is the same for related texts.** -/
lemma eq_of_rule {β : Type} {f : List Char → β}
    (hrule : ∀ a b, rule a b → ∀ left right, f (left ++ a ++ right) = f (left ++ b ++ right))
    (h : Respaced rule a b) : f a = f b := by
  -- the induction needs the surrounding, since parts of a text are related within it
  suffices hctx : ∀ left right, f (left ++ a ++ right) = f (left ++ b ++ right) by
    simpa using hctx [] []
  induction h with
  | of h => exact hrule _ _ h
  | refl a => exact fun _ _ => rfl
  | symm _ ih => exact fun left right => (ih left right).symm
  | trans _ _ ih₁ ih₂ => exact fun left right => (ih₁ left right).trans (ih₂ left right)
  | @append a b c d _ _ ih₁ ih₂ =>
      intro left right
      have h₁ := ih₁ left (c ++ right)
      have h₂ := ih₂ (left ++ b) right
      simp only [List.append_assoc] at h₁ h₂ ⊢
      exact h₁.trans h₂

/-- **A list taken piece by piece.** -/
lemma flatMap {α : Type} {f g : α → List Char} (h : ∀ x, Respaced rule (f x) (g x)) :
    ∀ xs : List α, Respaced rule (xs.flatMap f) (xs.flatMap g)
  | [] => refl []
  | x :: xs => by
      rw [List.flatMap_cons, List.flatMap_cons]
      exact (h x).append (flatMap h xs)

end Respaced

/-! ## Rules -/

/-- The brackets, separators and operator characters next to which white space has no meaning. -/
def marks : List Char := [',', ';', '(', ')', '{', '}', '=', '<', '>', '!', '&', '|']

/-- **A hinge**: a character next to which white space may come and go. -/
def isHinge (c : Char) : Bool := c == '\n' || marks.contains c

/-- White space next to a character of the given kind. -/
inductive SpacingAt (hinge : Char → Bool) : List Char → List Char → Prop
  | before {s m : Char} : isSpace s = true → hinge m = true → SpacingAt hinge [s, m] [m]
  | behind {m s : Char} : hinge m = true → isSpace s = true → SpacingAt hinge [m, s] [m]

/-- **White space next to a hinge.** -/
abbrev Spacing : List Char → List Char → Prop := SpacingAt isHinge

/-- A stretch of white space behind a hinge may go. -/
lemma Respaced.behind {hinge : Char → Bool} {m : Char} {w : List Char} (hm : hinge m = true)
    (hw : ∀ c ∈ w, isSpace c = true) : Respaced (SpacingAt hinge) (m :: w) [m] := by
  induction w with
  | nil => exact refl [m]
  | cons s w ih =>
      have hs : Respaced (SpacingAt hinge) ([m, s] ++ w) ([m] ++ w) :=
        (of (.behind hm (hw s (by simp)))).append_right w
      exact hs.trans (ih fun c hc => hw c (by simp [hc]))

/-- A stretch of white space before a hinge may go. -/
lemma Respaced.before {hinge : Char → Bool} {m : Char} {w : List Char} (hm : hinge m = true)
    (hw : ∀ c ∈ w, isSpace c = true) : Respaced (SpacingAt hinge) (w ++ [m]) [m] := by
  induction w with
  | nil => exact refl [m]
  | cons s w ih =>
      have hrest : Respaced (SpacingAt hinge) (s :: (w ++ [m])) [s, m] :=
        (ih fun c hc => hw c (by simp [hc])).cons s
      exact hrest.trans (of (.before (hw s (by simp)) hm))

/-- Spacing, and a semicolon before another one. -/
inductive Joining : List Char → List Char → Prop
  | spacing {a b : List Char} : Spacing a b → Joining a b
  | semicolons : Joining [';', ';'] [';']

/-- Spacing, and a space for two blanks. -/
inductive Squeezing : List Char → List Char → Prop
  | spacing {a b : List Char} : Spacing a b → Squeezing a b
  | blanks {s t : Char} : isBlank s = true → isBlank t = true → Squeezing [s, t] [' ']

lemma Respaced.joining {a b : List Char} (h : Respaced Spacing a b) : Respaced Joining a b :=
  h.mono fun _ _ => .spacing

lemma Respaced.squeezing {a b : List Char} (h : Respaced Spacing a b) : Respaced Squeezing a b :=
  h.mono fun _ _ => .spacing

/-! ## Ends -/

lemma isSpace_space : ∀ c ∈ [' '], isSpace c = true := List.forall_mem_singleton.2 (by decide)

lemma isSpace_feed : ∀ c ∈ ['\n'], isSpace c = true := List.forall_mem_singleton.2 (by decide)

/-- A text between two line feeds. -/
def framed (text : List Char) : List Char := '\n' :: (text ++ ['\n'])

/-- Within a frame white space at the ends is free. -/
lemma Respaced.framed_ends {front text back : List Char} (hfront : ∀ c ∈ front, isSpace c = true)
    (hback : ∀ c ∈ back, isSpace c = true) :
    Respaced Spacing (framed (front ++ (text ++ back))) (framed text) := by
  have hleft : Respaced Spacing (('\n' :: front) ++ (text ++ (back ++ ['\n'])))
      (['\n'] ++ (text ++ ['\n'])) :=
    (behind (by decide) hfront).append ((before (by decide) hback).append_left text)
  simpa [framed] using hleft

/-- Related texts are related in a frame. -/
lemma Respaced.framed {rule : List Char → List Char → Prop} {a b : List Char}
    (h : Respaced rule a b) : Respaced rule (framed a) (framed b) :=
  (h.append_right ['\n']).cons '\n'

/-- Lines that are related in their frames may be exchanged in front of other lines. -/
lemma Respaced.rows_cons {rule : List Char → List Char → Prop} {l l' rest rest' : List Char}
    (hline : Respaced rule (Text.framed l) (Text.framed l'))
    (hrest : Respaced rule ('\n' :: rest) ('\n' :: rest')) :
    Respaced rule ('\n' :: (l ++ '\n' :: rest)) ('\n' :: (l' ++ '\n' :: rest')) := by
  have h₁ : Respaced rule (('\n' :: l) ++ ('\n' :: rest)) (('\n' :: l) ++ ('\n' :: rest')) :=
    hrest.append_left ('\n' :: l)
  have h₂ : Respaced rule (Text.framed l ++ rest') (Text.framed l' ++ rest') :=
    hline.append_right rest'
  refine h₁.trans ?_
  simpa [Text.framed] using h₂

/-- The frame of a text and its rows. -/
lemma Respaced.framed_unlines (ls : List (List Char)) :
    Respaced Spacing (Text.framed (unlines ls)) ('\n' :: rows ls) := by
  cases ls with
  | nil => exact behind (by decide) isSpace_feed
  | cons l ls => exact of_eq (by rw [Text.framed, unlines_append_feed (by simp)])

/-! ## Ink -/

/-- **The ink of a text**: its characters that are not white space. -/
def ink (text : List Char) : List Char := text.filter (!isSpace ·)

@[simp] lemma ink_append (a b : List Char) : ink (a ++ b) = ink a ++ ink b := List.filter_append ..

lemma ink_eq_nil {w : List Char} (h : ∀ c ∈ w, isSpace c = true) : ink w = [] := by
  simpa [ink] using h

lemma isBare_iff {text : List Char} : isBare text = true ↔ ink text = [] := by simp [isBare, ink]

lemma count_ink {c : Char} (hc : isSpace c = false) (text : List Char) : (ink text).count c = text.count c :=
  List.count_filter (by simp [hc])

/-- What a rule keeps of the ink, related texts have in common. -/
lemma Respaced.ink_eq_of {rule : List Char → List Char → Prop} (hrule : ∀ a b, rule a b → ink a = ink b)
    {a b : List Char} (h : Respaced rule a b) : ink a = ink b := by
  refine h.eq_of_rule fun a b hab left right => ?_
  rw [ink_append, ink_append, ink_append, ink_append, hrule a b hab]

/-- White space is no ink. -/
lemma Spacing.ink_eq {a b : List Char} (h : Spacing a b) : ink a = ink b := by
  rcases h with ⟨hs, -⟩ | ⟨-, hs⟩
  · simp [ink, List.filter_cons, hs]
  · simp [ink, List.filter_cons, hs]

lemma Respaced.ink_eq {a b : List Char} (h : Respaced Spacing a b) : ink a = ink b :=
  h.ink_eq_of fun _ _ => Spacing.ink_eq

lemma ink_framed (text : List Char) : ink (framed text) = ink text := by
  have hfeed : isSpace '\n' = true := by decide
  simp [framed, ink, hfeed]

lemma ink_unlines (ls : List (List Char)) : ink (unlines ls) = ink (rows ls) := by
  have hfeed : isSpace '\n' = true := by decide
  have hrows := (Respaced.framed_unlines ls).ink_eq
  rw [ink_framed] at hrows
  simpa [ink, List.filter_cons, hfeed] using hrows

end SqfLayout.Text
