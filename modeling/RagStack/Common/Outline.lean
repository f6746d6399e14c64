import Mathlib.Data.List.TakeDrop
import Mathlib.Data.Nat.Notation
import Mathlib.Order.Lattice
import Mathlib.Tactic.Common

/-!
# Outlines

Headings with levels, the last one first. A heading is enclosed by the nearest heading
before it of a smaller level, by what encloses that one, and so on. A stack that is cut to
less headings than the level says, before a heading is pushed, keeps some of the others as
well.

* `enclosing`: the chain of the enclosing headings.
* `cutStack`: the stack that is cut by its length.
* `take_cutStack_eq_enclosing_iff`: the two are the same exactly if no heading that the
  stack keeps has the level of a later one, or a deeper one.
-/

namespace RagStack.Common

variable {α : Type} (level : α → ℕ)

/-- The headings, in their order, that enclose what comes next with the level `bound`: the
    nearest of a smaller level, the nearest before that one of a level that is smaller
    still, and so on. -/
def enclosing (bound : ℕ) : List α → List α
  | [] => []
  | a :: before =>
    if level a < bound then enclosing (level a) before ++ [a] else enclosing bound before

/-- The stack of headings that is cut to less than `level a` headings before `a` is pushed. -/
def cutStack : List α → List α
  | [] => []
  | a :: before => (cutStack before).take (level a - 1) ++ [a]

/-- The depth that the levels leave to the last heading: one more than that of the heading
    before it, but not more than its level. -/
def depth : List α → ℕ
  | [] => 0
  | a :: before => min (depth before + 1) (level a)

/-- No heading is deeper than the level of a later heading, or than `bound`, allows, while
    its depth is not: `after` is what comes after the heading `a`. -/
def Outlined (bound : ℕ) (headings : List α) : Prop :=
  ∀ after a before, headings = after ++ a :: before →
    depth level (a :: before) < (after.map level).foldl min bound →
    level a < (after.map level).foldl min bound

variable {level}

theorem depth_le_level (a : α) (before : List α) : depth level (a :: before) ≤ level a :=
  Nat.min_le_right _ _

theorem length_cutStack (hlevel : ∀ a, 1 ≤ level a) (headings : List α) :
    (cutStack level headings).length = depth level headings := by
  induction headings with
  | nil => rfl
  | cons a before ih =>
    have ha := hlevel a
    rw [cutStack, depth, List.length_append, List.length_take, ih, List.length_singleton]
    omega

/-- What encloses a heading, by the smallest level so far. -/
theorem enclosing_cons (bound : ℕ) (a : α) (before : List α) :
    enclosing level bound (a :: before) =
      enclosing level (min bound (level a)) before ++ if level a < bound then [a] else [] := by
  rw [enclosing]
  split_ifs with h
  · rw [min_eq_right h.le]
  · rw [min_eq_left (not_lt.mp h), List.append_nil]

/-- What is left of the stack under a bound, by the smallest level so far. -/
theorem take_cutStack_cons (hlevel : ∀ a, 1 ≤ level a) (bound : ℕ) (a : α) (before : List α) :
    (cutStack level (a :: before)).take (bound - 1) =
      (cutStack level before).take (min bound (level a) - 1) ++
        if depth level (a :: before) < bound then [a] else [] := by
  have ha := hlevel a
  have hlength := length_cutStack hlevel (a :: before)
  have hfront : ((cutStack level before).take (level a - 1)).length + 1 =
      depth level (a :: before) := by
    rw [← hlength, cutStack, List.length_append, List.length_singleton]
  split_ifs with h
  · -- the whole stack is left, so the cut before the push was not shorter
    have hwhole : (cutStack level (a :: before)).take (bound - 1) = cutStack level (a :: before) :=
      List.take_of_length_le (by omega)
    have hsame : (cutStack level before).take (min bound (level a) - 1) =
        (cutStack level before).take (level a - 1) := by
      rw [List.length_take] at hfront
      refine List.take_eq_take_iff.mpr ?_
      omega
    rw [hwhole, hsame, cutStack]
  · rw [cutStack, List.take_append_of_le_length (by omega), List.take_take, List.append_nil]
    congr 1
    omega

theorem outlined_nil (bound : ℕ) : Outlined level bound [] := by
  intro after a before h
  simp at h

theorem outlined_cons {bound : ℕ} {a : α} {before : List α} :
    Outlined level bound (a :: before) ↔
      (depth level (a :: before) < bound → level a < bound) ∧
        Outlined level (min bound (level a)) before := by
  constructor
  · intro h
    refine ⟨h [] a before rfl, fun after b rest heq => ?_⟩
    exact h (a :: after) b rest (by rw [heq, List.cons_append])
  · rintro ⟨hfirst, hrest⟩ after b rest heq
    cases after with
    | nil =>
      cases heq
      exact hfirst
    | cons c after =>
      obtain ⟨rfl, htail⟩ := List.cons.inj heq
      exact hrest after b rest htail

/-- The stack has at least the enclosing headings, and no others exactly if the levels are
    in outline. -/
theorem length_enclosing_le (hlevel : ∀ a, 1 ≤ level a) (headings : List α) :
    ∀ bound, (enclosing level bound headings).length ≤
        ((cutStack level headings).take (bound - 1)).length ∧
      ((enclosing level bound headings).length =
          ((cutStack level headings).take (bound - 1)).length ↔ Outlined level bound headings) := by
  induction headings with
  | nil =>
    intro bound
    rw [cutStack, List.take_nil]
    exact ⟨Nat.le_refl _, iff_of_true rfl (outlined_nil bound)⟩
  | cons a before ih =>
    intro bound
    obtain ⟨hle, hiff⟩ := ih (min bound (level a))
    have hdepth : depth level (a :: before) ≤ level a := depth_le_level a before
    rw [enclosing_cons, take_cutStack_cons hlevel, List.length_append, List.length_append,
      outlined_cons, ← hiff]
    by_cases hkept : level a < bound
    · rw [if_pos hkept, if_pos (hdepth.trans_lt hkept)]
      exact ⟨by omega, by rw [and_iff_right fun _ => hkept]; omega⟩
    · rw [if_neg hkept]
      split_ifs with hdeep
      · rw [List.length_singleton, List.length_nil]
        exact ⟨by omega, iff_of_false (by omega) fun h => hkept (h.1 hdeep)⟩
      · rw [List.length_nil, Nat.add_zero, Nat.add_zero]
        exact ⟨hle, (and_iff_right fun h => absurd h hdeep).symm⟩

/-- In an outline the stack is what encloses. -/
theorem take_cutStack_of_outlined (hlevel : ∀ a, 1 ≤ level a) (headings : List α) :
    ∀ bound, Outlined level bound headings →
      (cutStack level headings).take (bound - 1) = enclosing level bound headings := by
  induction headings with
  | nil =>
    intro bound _
    exact List.take_nil
  | cons a before ih =>
    intro bound h
    obtain ⟨hfirst, hrest⟩ := outlined_cons.mp h
    have hiff : depth level (a :: before) < bound ↔ level a < bound :=
      ⟨hfirst, (depth_le_level a before).trans_lt⟩
    rw [take_cutStack_cons hlevel, enclosing_cons, ih _ hrest]
    simp only [hiff]

/-- The stack shows the chain of the enclosing headings exactly if the levels are in
    outline, whatever is shown of a heading. -/
theorem take_cutStack_eq_enclosing_iff {β : Type} (hlevel : ∀ a, 1 ≤ level a) (show' : α → β)
    (bound : ℕ) (headings : List α) :
    ((cutStack level headings).take (bound - 1)).map show' =
        (enclosing level bound headings).map show' ↔ Outlined level bound headings := by
  constructor
  · intro h
    refine ((length_enclosing_le hlevel headings bound).2).mp ?_
    simpa only [List.length_map] using (congrArg List.length h).symm
  · intro h
    rw [take_cutStack_of_outlined hlevel headings bound h]

end RagStack.Common
