import Mathlib.Data.List.Infix
import SqfLayout.Path
import SqfLayout.Proofs.Pieces

/-!
# Paths and their components

A path is a text, and the operations on paths cut and join texts.  This file says what they do to
components, so that nothing else has to look at the text again.

**Components.**  They are the start of the path and its strides, the pieces that are neither empty nor a dot
(`components_eq`).  Both can be read off the components (`strides_eq_filterMap`, `isAbsolute_eq`).

**Steps.**  Joining puts components behind each other (`components_join`, `components_join_name`), and the
parent lacks the last one (`strides_parent`, `components_parent`).  Hence the ancestors of a path are its starts,
and no two of them have the same components (`nodup_components_ancestors`).
-/

namespace SqfLayout

open SqfLayout.Text

/-- The piece of a component that is a step. -/
def PathComponent.piece? : PathComponent → Option (List Char)
  | .root => none
  | .here => none
  | .up => some ['.', '.']
  | .name chars => some chars

namespace Path

/-! ## Pieces -/

lemma pieces_append_slash (a b : List Char) : pieces (a ++ '/' :: b) = pieces a ++ pieces b :=
  splitWhen_append_cons a b rfl

lemma slash_notMem_of_mem_pieces {chars piece : List Char} (h : piece ∈ pieces chars) : '/' ∉ piece := by
  intro hslash
  simpa using eq_false_of_mem_splitWhen h _ hslash

lemma joinWith_pieces (chars : List Char) : joinWith '/' (pieces chars) = chars := joinWith_splitWhen '/' chars

/-- **The pieces of a text that stand for steps.** -/
def stridesOf (chars : List Char) : List (List Char) := (pieces chars).filter (!isIdle ·)

/-- The strides of a path. -/
def strides (path : Path) : List (List Char) := stridesOf path.chars

lemma stridesOf_append_slash (a b : List Char) : stridesOf (a ++ '/' :: b) = stridesOf a ++ stridesOf b := by
  rw [stridesOf, pieces_append_slash, List.filter_append]
  rfl

@[simp] lemma stridesOf_slash (b : List Char) : stridesOf ('/' :: b) = stridesOf b := stridesOf_append_slash [] b

@[simp] lemma stridesOf_dot_slash (b : List Char) : stridesOf ('.' :: '/' :: b) = stridesOf b :=
  stridesOf_append_slash ['.'] b

/-- The strides of pieces put together. -/
lemma stridesOf_joinWith {ps : List (List Char)} (h : ∀ piece ∈ ps, '/' ∉ piece) :
    stridesOf (joinWith '/' ps) = ps.filter (!isIdle ·) := by
  cases ps with
  | nil => rfl
  | cons piece ps => rw [stridesOf, pieces, splitWhen_joinWith (by simp) h]

/-! ## Components -/

lemma isAbsolute_iff {path : Path} : path.isAbsolute = true ↔ ∃ body, path.chars = '/' :: body := by
  rw [isAbsolute, beq_iff_eq, List.head?_eq_some_iff]

lemma startsHere_iff {path : Path} :
    path.startsHere = true ↔ path.chars = ['.'] ∨ ∃ body, path.chars = '.' :: '/' :: body := by
  obtain ⟨chars⟩ := path
  match chars with
  | [] => simp [startsHere]
  | [c] => simp [startsHere]
  | c :: d :: body => simp [startsHere]

/-- The component of the start of a path. -/
def stem (path : Path) : List PathComponent :=
  if path.isAbsolute then [.root] else if path.startsHere then [.here] else []

/-- What is behind the start of a path has its strides. -/
lemma stridesOf_divide (path : Path) : stridesOf path.divide.2 = path.strides := by
  rw [divide, strides]
  split
  · next hstart =>
      rw [Bool.or_eq_true] at hstart
      rcases hstart with habsolute | hhere
      · obtain ⟨body, hchars⟩ := isAbsolute_iff.1 habsolute
        rw [hchars, stridesOf_slash]
        rfl
      · rcases startsHere_iff.1 hhere with hchars | ⟨body, hchars⟩
        · rw [hchars]
          rfl
        · rw [hchars, stridesOf_dot_slash]
          exact stridesOf_slash body
  · rfl

/-- **The components of a path are its start and its strides.** -/
lemma components_eq (path : Path) : path.components = path.stem ++ path.strides.map componentOf := by
  rw [← stridesOf_divide]
  rfl

lemma piece?_componentOf (piece : List Char) : (componentOf piece).piece? = some piece := by
  unfold componentOf
  split
  · next h => rw [beq_iff_eq.1 h]; rfl
  · rfl

/-- The strides of a path are the pieces of its components. -/
lemma strides_eq_filterMap (path : Path) : path.strides = path.components.filterMap PathComponent.piece? := by
  have hstem : path.stem.filterMap PathComponent.piece? = [] := by
    rw [stem]
    split
    · rfl
    · split <;> rfl
  have hstrides (ps : List (List Char)) : (ps.map componentOf).filterMap PathComponent.piece? = ps := by
    have hpiece : PathComponent.piece? ∘ componentOf = some := funext piece?_componentOf
    rw [List.filterMap_map, hpiece, List.filterMap_some]
  rw [components_eq, List.filterMap_append, hstem, hstrides, List.nil_append]

/-- A path starts at the root if its first component is the root. -/
lemma isAbsolute_eq (path : Path) : path.isAbsolute = (path.components.head? == some .root) := by
  rw [components_eq, stem]
  split
  · next h => simp [h]
  · next h =>
      split
      · simp [h]
      · cases path.strides with
        | nil => simpa using h
        | cons piece ps =>
            have hne : componentOf piece ≠ .root := by
              unfold componentOf
              split <;> simp
            simpa [beq_eq_false_iff_ne.2 hne] using h

lemma isAbsolute_congr {a b : Path} (h : a.components = b.components) : a.isAbsolute = b.isAbsolute := by
  rw [isAbsolute_eq, isAbsolute_eq, h]

/-! ## Joining -/

/-- **A name**: one piece of a path that leads further down. -/
structure IsName (name : List Char) : Prop where
  slash : '/' ∉ name
  idle : isIdle name = false
  up : name ≠ ['.', '.']

instance (name : List Char) : Decidable (IsName name) :=
  decidable_of_iff ('/' ∉ name ∧ isIdle name = false ∧ name ≠ ['.', '.'])
    ⟨fun h => ⟨h.1, h.2.1, h.2.2⟩, fun h => ⟨h.slash, h.idle, h.up⟩⟩

lemma IsName.pieces {name : List Char} (h : IsName name) : pieces name = [name] :=
  splitWhen_eq_singleton fun _ hc => beq_eq_false_iff_ne.2 fun heq => h.slash (heq ▸ hc)

lemma IsName.stridesOf {name : List Char} (h : IsName name) : stridesOf name = [name] := by
  rw [Path.stridesOf, h.pieces, List.filter_cons_of_pos (by simp [h.idle])]
  rfl

lemma IsName.componentOf {name : List Char} (h : IsName name) : componentOf name = .name name := by
  rw [Path.componentOf, if_neg]
  simpa using h.up

lemma IsName.not_absolute {name : List Char} (h : IsName name) : name.head? ≠ some '/' :=
  fun hhead => h.slash (List.mem_of_head? hhead)

/-- A name is no start of a path. -/
lemma IsName.not_here {name : List Char} (h : IsName name) : (⟨name⟩ : Path).startsHere = false := by
  rw [Bool.eq_false_iff]
  intro hhere
  rcases startsHere_iff.1 hhere with rfl | ⟨body, rfl⟩
  · exact absurd h.idle (by decide)
  · exact h.slash (by simp)

/-- The text of a path with something joined to it. -/
lemma exists_join {path : Path} (hne : path.chars ≠ []) (rest : List Char) :
    ∃ front, (path.join rest).chars = front ++ '/' :: rest ∧ (path.chars = front ∨ path.chars = front ++ ['/']) := by
  rw [join]
  split
  · next h =>
      have hlast : path.chars.getLast? = some '/' := by simpa [hne] using h
      obtain ⟨front, hchars⟩ := List.getLast?_eq_some_iff.1 hlast
      exact ⟨front, by simp [hchars], .inr hchars⟩
  · exact ⟨path.chars, rfl, .inl rfl⟩

lemma isAbsolute_join {path : Path} (hne : path.chars ≠ []) (rest : List Char) :
    (path.join rest).isAbsolute = path.isAbsolute := by
  obtain ⟨c, chars, hchars⟩ := List.exists_cons_of_ne_nil hne
  rw [join]
  split <;> simp [isAbsolute, hchars]

/-- **Joining puts strides behind each other** and keeps the start of the path. -/
lemma stem_strides_join {path : Path} {rest : List Char} (hrest : rest.head? ≠ some '/')
    (h : path.chars ≠ [] ∨ (⟨rest⟩ : Path).startsHere = false) :
    (path.join rest).stem = path.stem ∧ (path.join rest).strides = path.strides ++ stridesOf rest := by
  by_cases hne : path.chars = []
  · have hhere := h.resolve_left (not_not.2 hne)
    have habsolute : (⟨rest⟩ : Path).isAbsolute = false := by simpa [isAbsolute] using hrest
    obtain ⟨chars⟩ := path
    obtain rfl : chars = [] := hne
    refine ⟨?_, rfl⟩
    have hjoin : (⟨[]⟩ : Path).join rest = ⟨rest⟩ := rfl
    rw [hjoin, stem, habsolute, hhere]
    rfl
  · obtain ⟨front, hjoin, hpath⟩ := exists_join hne rest
    constructor
    · -- the first two characters decide, and they stay
      have hhere : (path.join rest).startsHere = path.startsHere := by
        rw [startsHere, startsHere, hjoin]
        rcases hpath with hpath | hpath
        · rw [hpath] at hne ⊢
          match front with
          | [] => exact absurd rfl hne
          | [c] => simp
          | c :: d :: front => simp
        · rw [hpath]
          match front with
          | [] => simp
          | [c] => simp
          | c :: d :: front => simp
      rw [stem, stem, isAbsolute_join hne, hhere]
    · rw [strides, strides, hjoin, stridesOf_append_slash]
      rcases hpath with hpath | hpath
      · rw [hpath]
      · rw [hpath, stridesOf_append_slash]
        simp [stridesOf, pieces, splitWhen, isIdle]

/-- **The components of a joined path.** -/
lemma components_join {path : Path} {rest : List Char} (hrest : rest.head? ≠ some '/')
    (h : path.chars ≠ [] ∨ (⟨rest⟩ : Path).startsHere = false) :
    (path.join rest).components = path.components ++ (stridesOf rest).map componentOf := by
  obtain ⟨hstem, hstrides⟩ := stem_strides_join hrest h
  rw [components_eq, components_eq, hstem, hstrides, List.map_append, List.append_assoc]

/-- The components of a name in a folder. -/
lemma components_join_name (path : Path) {name : List Char} (h : IsName name) :
    (path.join name).components = path.components ++ [.name name] := by
  rw [components_join h.not_absolute (.inr h.not_here), h.stridesOf, List.map_singleton, h.componentOf]

lemma strides_join_name (path : Path) {name : List Char} (h : IsName name) :
    (path.join name).strides = path.strides ++ [name] := by
  rw [(stem_strides_join h.not_absolute (.inr h.not_here)).2, h.stridesOf]

lemma isAbsolute_join_name (path : Path) {name : List Char} (h : IsName name) :
    (path.join name).isAbsolute = path.isAbsolute := by
  rw [isAbsolute_eq, isAbsolute_eq, components_join_name path h]
  cases path.components <;> simp

/-! ## Parents -/

/-- The strides among pieces end in the last one, if that is a stride. -/
lemma filter_dropEndWhile (ps : List (List Char)) :
    (dropEndWhile isIdle ps).filter (!isIdle ·) = ps.filter (!isIdle ·) := by
  obtain ⟨back, hps, hback⟩ := exists_dropEndWhile isIdle ps
  have hnone : back.filter (!isIdle ·) = [] := List.filter_eq_nil_iff.2 fun piece hpiece => by simp [hback piece hpiece]
  conv_rhs => rw [hps, List.filter_append, hnone, List.append_nil]

/-- **What the parent of a path keeps**: some pieces behind the start of the path, followed by one stride and
pieces that are none. -/
lemma exists_parent {path parent : Path} (h : path.parent? = some parent) :
    (path.startsHere = true ∧ path.isAbsolute = false ∧ path.strides = [] ∧ parent = ⟨[]⟩)
      ∨ ∃ kept idle last back, pieces path.divide.2 = kept ++ idle ++ last :: back
        ∧ isIdle last = false ∧ (∀ piece ∈ idle ++ back, isIdle piece = true)
        ∧ (∀ piece ∈ kept.getLast?, isIdle piece = false)
        ∧ parent = ⟨path.divide.1 ++ joinWith '/' kept⟩ := by
  obtain ⟨back, hpieces, hback⟩ := exists_dropEndWhile isIdle (pieces path.divide.2)
  simp only [parent?] at h
  split at h
  · next hnone =>
      split at h
      · next hhere =>
          refine .inl ⟨hhere, ?_, ?_, (Option.some.inj h).symm⟩
          · rw [isAbsolute]
            rcases startsHere_iff.1 hhere with hchars | ⟨body, hchars⟩ <;> rw [hchars] <;> rfl
          · have hidle := filter_dropEndWhile (pieces path.divide.2)
            rw [hnone] at hidle
            rw [← stridesOf_divide, stridesOf, ← hidle]
            rfl
      · simp at h
  · next kept hkept =>
      have hne : dropEndWhile isIdle (pieces path.divide.2) ≠ [] := hkept
      obtain ⟨idle, hfront, hidle⟩ := exists_dropEndWhile isIdle (dropEndWhile isIdle (pieces path.divide.2)).dropLast
      refine .inr ⟨_, idle, (dropEndWhile isIdle (pieces path.divide.2)).getLast hne, back, ?_, ?_,
        List.forall_mem_append.2 ⟨hidle, hback⟩, ?_, (Option.some.inj h).symm⟩
      · conv_lhs => rw [hpieces, ← List.dropLast_append_getLast hne, hfront]
        simp
      · exact getLast?_dropEndWhile isIdle _ _ (List.getLast?_eq_some_getLast hne)
      · exact getLast?_dropEndWhile isIdle _

/-- **A path cut behind some of its pieces keeps its start.** -/
lemma stem_strides_cut {path : Path} {kept rest : List (List Char)} (hpieces : pieces path.divide.2 = kept ++ rest)
    (hrest : rest ≠ []) (hend : ∀ piece ∈ kept.getLast?, isIdle piece = false) :
    stem ⟨path.divide.1 ++ joinWith '/' kept⟩ = path.stem
      ∧ strides ⟨path.divide.1 ++ joinWith '/' kept⟩ = kept.filter (!isIdle ·) := by
  have hslash : ∀ piece ∈ kept, '/' ∉ piece := fun piece hpiece =>
    slash_notMem_of_mem_pieces (hpieces ▸ List.mem_append_left rest hpiece)
  obtain ⟨chars⟩ := path
  by_cases habsolute : (⟨chars⟩ : Path).isAbsolute = true
  · obtain ⟨body, rfl⟩ := isAbsolute_iff.1 habsolute
    exact ⟨rfl, (stridesOf_slash _).trans (stridesOf_joinWith hslash)⟩
  · by_cases hhere : (⟨chars⟩ : Path).startsHere = true
    · cases kept with
      | nil =>
          rcases startsHere_iff.1 hhere with rfl | ⟨body, rfl⟩
          · exact ⟨rfl, rfl⟩
          · exact ⟨rfl, rfl⟩
      | cons piece kept =>
          rcases startsHere_iff.1 hhere with rfl | ⟨body, rfl⟩
          · obtain ⟨next, rest, rfl⟩ := List.exists_cons_of_ne_nil hrest
            have hlength := congrArg List.length hpieces
            simp [divide, isAbsolute, startsHere, pieces, splitWhen] at hlength
          · -- the first piece is the empty one behind the dot
            have hbody : pieces ('/' :: body) = piece :: (kept ++ rest) := hpieces
            obtain ⟨rfl, -⟩ := List.cons.inj ((pieces_append_slash [] body).symm.trans hbody)
            cases kept with
            | nil => exact absurd (hend [] rfl) (by decide)
            | cons next kept =>
                have hnext := stridesOf_joinWith fun piece hpiece => hslash piece (List.mem_cons_of_mem [] hpiece)
                exact ⟨rfl, (stridesOf_dot_slash _).trans hnext⟩
    · have hdivide : (⟨chars⟩ : Path).divide = ([], chars) := by rw [divide, if_neg (by simp [habsolute, hhere])]
      have hstem : stem ⟨chars⟩ = [] := by rw [stem, if_neg habsolute, if_neg hhere]
      rw [hdivide] at hpieces ⊢
      refine ⟨?_, stridesOf_joinWith hslash⟩
      cases kept with
      | nil => exact hstem.symm
      | cons piece kept =>
          -- the path goes on with a slash, so its start is the start of what is kept
          have hchars : chars = joinWith '/' (piece :: kept) ++ '/' :: joinWith '/' rest := by
            rw [← joinWith_append '/' (by simp) hrest, ← hpieces, joinWith_pieces]
          rw [hstem, List.nil_append, stem, if_neg, if_neg]
          · intro hcut
            refine hhere (startsHere_iff.2 (.inr ?_))
            rcases startsHere_iff.1 hcut with hcut | ⟨body, hcut⟩
            · exact ⟨_, hchars.trans (congrArg (· ++ _) hcut)⟩
            · exact ⟨_, hchars.trans (congrArg (· ++ _) hcut)⟩
          · intro hcut
            obtain ⟨body, hcut⟩ := isAbsolute_iff.1 hcut
            exact habsolute (isAbsolute_iff.2 ⟨_, hchars.trans (congrArg (· ++ _) hcut)⟩)

/-- **The parent of a path lacks its last stride**, unless the path is a dot. -/
lemma strides_parent {path parent : Path} (h : path.parent? = some parent) :
    path.stem = [.here] ∧ path.strides = [] ∧ parent = ⟨[]⟩
      ∨ parent.stem = path.stem ∧ ∃ last, path.strides = parent.strides ++ [last] := by
  rcases exists_parent h with
    ⟨hhere, habsolute, hstrides, rfl⟩ | ⟨kept, idle, last, back, hpieces, hlast, hidle, hend, rfl⟩
  · exact .inl ⟨by rw [stem, habsolute, hhere]; rfl, hstrides, rfl⟩
  · obtain ⟨hstem, hkept⟩ := stem_strides_cut (hpieces.trans (List.append_assoc ..)) (by simp) hend
    refine .inr ⟨hstem, last, ?_⟩
    obtain ⟨hidle, hback⟩ := List.forall_mem_append.1 hidle
    have hnone {ps : List (List Char)} (hps : ∀ piece ∈ ps, isIdle piece = true) : ps.filter (!isIdle ·) = [] :=
      List.filter_eq_nil_iff.2 fun piece hpiece => by simp [hps piece hpiece]
    rw [hkept, ← stridesOf_divide, stridesOf, hpieces, List.filter_append, List.filter_append, hnone hidle,
      List.filter_cons_of_pos (by simp [hlast]), hnone hback, List.append_nil]

lemma strides_parent_of_isAbsolute {path parent : Path} (habsolute : path.isAbsolute = true)
    (h : path.parent? = some parent) : ∃ last, path.strides = parent.strides ++ [last] := by
  rcases strides_parent h with ⟨hstem, -, -⟩ | ⟨-, hlast⟩
  · rw [stem, if_pos habsolute] at hstem
    cases hstem
  · exact hlast

/-- **The parent of a path lacks its last component.** -/
lemma components_parent {path parent : Path} (h : path.parent? = some parent) :
    path.components ≠ [] ∧ parent.components = path.components.dropLast := by
  rcases strides_parent h with ⟨hstem, hstrides, rfl⟩ | ⟨hstem, last, hstrides⟩
  · rw [components_eq path, hstem, hstrides]
    exact ⟨by simp, rfl⟩
  · have hcomponents : path.components = parent.components ++ [componentOf last] := by
      rw [components_eq, components_eq, hstem, hstrides, List.map_append, List.append_assoc]
      rfl
    exact ⟨by simp [hcomponents], by rw [hcomponents, List.dropLast_concat]⟩

/-- A path without a parent is the root or empty. -/
lemma components_of_parent_eq_none {path : Path} (h : path.parent? = none) :
    path.strides = [] ∧ (path.isAbsolute = true ∨ path.components = []) := by
  simp only [parent?] at h
  split at h
  · next hnone =>
      have hstrides : path.strides = [] := by
        rw [← stridesOf_divide, stridesOf, ← filter_dropEndWhile, hnone]
        rfl
      refine ⟨hstrides, ?_⟩
      split at h
      · simp at h
      · next hhere =>
          rw [components_eq, hstrides, stem]
          cases habsolute : path.isAbsolute with
          | true => exact .inl rfl
          | false => exact .inr (by simp [hhere])
  · simp at h

/-- The parent is a start of the text. -/
lemma chars_parent {path parent : Path} (h : path.parent? = some parent) : parent.chars <+: path.chars := by
  have hdivide : path.divide.1 ++ path.divide.2 = path.chars := by
    rw [divide]
    split
    · exact List.take_append_drop 1 path.chars
    · rfl
  rcases exists_parent h with ⟨-, -, -, rfl⟩ | ⟨kept, idle, last, back, hpieces, -, -, -, rfl⟩
  · exact List.nil_prefix
  · rw [← hdivide]
    refine (List.prefix_append_right_inj _).2 ?_
    cases kept with
    | nil => exact List.nil_prefix
    | cons piece kept =>
        rw [← joinWith_pieces path.divide.2, hpieces, List.append_assoc, joinWith_append '/' (by simp) (by simp)]
        exact List.prefix_append ..

/-- The parent is a shorter text. -/
lemma length_parent {path parent : Path} (h : path.parent? = some parent) :
    parent.chars.length < path.chars.length := by
  obtain ⟨hne, hlast⟩ := components_parent h
  refine lt_of_le_of_ne (chars_parent h).length_le fun hlength => ?_
  obtain rfl : parent = path := congrArg Path.mk ((chars_parent h).eq_of_length hlength)
  have hshorter := congrArg List.length hlast
  rw [List.length_dropLast] at hshorter
  have hpos := List.length_pos_iff.2 hne
  omega

/-! ## Ancestors -/

lemma ancestors_of_parent {path parent : Path} (h : path.parent? = some parent) :
    path.ancestors = path :: parent.ancestors := by
  rw [ancestors, h]
  exact if_pos (length_parent h)

lemma ancestors_of_none {path : Path} (h : path.parent? = none) : path.ancestors = [path] := by
  rw [ancestors, h]

/-- **The ancestors of a path, one parent at a time.** -/
lemma ancestors_induction {motive : Path → List Path → Prop}
    (top : ∀ path : Path, path.parent? = none → motive path [path])
    (step : ∀ path parent : Path, path.parent? = some parent → motive parent parent.ancestors →
      motive path (path :: parent.ancestors)) (path : Path) : motive path path.ancestors := by
  induction hn : path.chars.length using Nat.strong_induction_on generalizing path with
  | _ n ih =>
      subst hn
      cases hparent : path.parent? with
      | none =>
          rw [ancestors_of_none hparent]
          exact top path hparent
      | some parent =>
          rw [ancestors_of_parent hparent]
          exact step path parent hparent (ih _ (length_parent hparent) parent rfl)

/-- **An ancestor is a start of the path.** -/
lemma isPrefix_of_mem_ancestors {path ancestor : Path} (h : ancestor ∈ path.ancestors) :
    ancestor.components <+: path.components := by
  refine ancestors_induction (motive := fun path as => ∀ a ∈ as, a.components <+: path.components)
    (fun path _ a ha => ?_) (fun path parent hparent ih a ha => ?_) path ancestor h
  · rw [List.mem_singleton.1 ha]
  · rcases List.mem_cons.1 ha with rfl | ha
    · exact List.prefix_rfl
    · have hstart := ih a ha
      rw [(components_parent hparent).2] at hstart
      exact hstart.trans (List.dropLast_prefix _)

lemma strides_of_mem_ancestors {path ancestor : Path} (h : ancestor ∈ path.ancestors) :
    ancestor.strides <+: path.strides := by
  rw [strides_eq_filterMap, strides_eq_filterMap]
  exact (isPrefix_of_mem_ancestors h).filterMap _

/-- **No two ancestors have the same components.** -/
lemma nodup_components_ancestors (path : Path) : (path.ancestors.map components).Nodup := by
  refine ancestors_induction (motive := fun _ as => (as.map components).Nodup) (fun path _ => by simp)
    (fun path parent hparent ih => ?_) path
  rw [List.map_cons, List.nodup_cons]
  refine ⟨fun hmem => ?_, ih⟩
  obtain ⟨a, ha, hsame⟩ := List.mem_map.1 hmem
  obtain ⟨hne, hlast⟩ := components_parent hparent
  have hlength := (isPrefix_of_mem_ancestors ha).length_le
  rw [hsame, hlast, List.length_dropLast] at hlength
  have hpos := List.length_pos_iff.2 hne
  omega

lemma isAbsolute_parent {path parent : Path} (h : path.parent? = some parent) :
    parent.isAbsolute = path.isAbsolute := by
  have hroot (path : Path) : path.isAbsolute = (path.stem == [.root]) := by
    rw [stem]
    split
    · next h => rw [h]; rfl
    · next h =>
        rw [Bool.eq_false_iff.2 h]
        split <;> rfl
  rcases strides_parent h with ⟨hstem, -, rfl⟩ | ⟨hstem, -⟩
  · rw [hroot path, hstem]
    rfl
  · rw [hroot, hroot, hstem]

lemma isAbsolute_of_mem_ancestors {path ancestor : Path} (h : ancestor ∈ path.ancestors) :
    ancestor.isAbsolute = path.isAbsolute := by
  refine ancestors_induction (motive := fun path as => ∀ a ∈ as, a.isAbsolute = path.isAbsolute)
    (fun path _ a ha => ?_) (fun path parent hparent ih a ha => ?_) path ancestor h
  · rw [List.mem_singleton.1 ha]
  · rcases List.mem_cons.1 ha with rfl | ha
    · rfl
    · rw [ih a ha, isAbsolute_parent hparent]

end Path

end SqfLayout
