import Mathlib.Data.List.Induction

/-!
# Greedy selection

The elements of a list are taken one by one, and an element is kept if those kept
before it admit it.

* `greedy` — what is kept.
* `greedy_prefix`: what is kept stays, and the rest does not change it.
* `pairwise_greedy`: what holds whenever an element is admitted holds of the result.
-/

namespace RagStack.Common

variable {α : Type}

/-- Keep the element if those kept before it admit it. -/
def greedyStep (admits : List α → α → Bool) (kept : List α) (a : α) : List α :=
  if admits kept a then kept ++ [a] else kept

/-- The elements that are kept, in order. -/
def greedy (admits : List α → α → Bool) (l : List α) : List α := l.foldl (greedyStep admits) []

variable {admits : List α → α → Bool}

@[simp] theorem greedy_nil : greedy admits [] = [] := rfl

theorem greedy_concat (l : List α) (a : α) :
    greedy admits (l ++ [a]) = greedyStep admits (greedy admits l) a := by
  rw [greedy, List.foldl_append]
  rfl

theorem greedy_concat_of_admits {l : List α} {a : α} (h : admits (greedy admits l) a = true) :
    greedy admits (l ++ [a]) = greedy admits l ++ [a] := by
  rw [greedy_concat, greedyStep, if_pos h]

theorem greedy_concat_of_not {l : List α} {a : α} (h : admits (greedy admits l) a = false) :
    greedy admits (l ++ [a]) = greedy admits l := by
  rw [greedy_concat, greedyStep, if_neg (by simp [h])]

theorem sublist_greedyStep (kept : List α) (a : α) : kept.Sublist (greedyStep admits kept a) := by
  rw [greedyStep]
  split_ifs
  · exact List.sublist_append_left _ _
  · exact List.Sublist.refl _

/-- What is kept stays. -/
theorem greedy_prefix (l m : List α) : greedy admits l <+: greedy admits (l ++ m) := by
  induction m using List.reverseRecOn with
  | nil => simp
  | append_singleton m a ih =>
    rw [← List.append_assoc, greedy_concat, greedyStep]
    split_ifs
    · exact ih.trans (List.prefix_append _ _)
    · exact ih

theorem greedy_sublist (l : List α) : (greedy admits l).Sublist l := by
  induction l using List.reverseRecOn with
  | nil => simp
  | append_singleton l a ih =>
    rw [greedy_concat, greedyStep]
    split_ifs
    · exact ih.append (List.Sublist.refl [a])
    · exact ih.trans (List.sublist_append_left l [a])

/-- A relation between an admitted element and those kept before it. -/
theorem pairwise_greedy {R : α → α → Prop}
    (h : ∀ kept a, admits kept a = true → ∀ k ∈ kept, R k a) (l : List α) :
    (greedy admits l).Pairwise R := by
  induction l using List.reverseRecOn with
  | nil => simp
  | append_singleton l a ih =>
    rw [greedy_concat, greedyStep]
    split_ifs with hadmits
    · refine List.pairwise_append.mpr ⟨ih, List.pairwise_singleton R a, fun k hk b hb => ?_⟩
      rw [List.mem_singleton.mp hb]
      exact h _ a hadmits k hk
    · exact ih

/-- The first element is kept if it is admitted at first. -/
theorem head?_greedy {a : α} (h : admits [] a = true) (l : List α) :
    (greedy admits (a :: l)).head? = some a := by
  have hfirst : greedy admits ([] ++ [a]) = [] ++ [a] := greedy_concat_of_admits h
  have hstart : greedy admits ([] ++ [a]) <+: greedy admits ([] ++ [a] ++ l) := greedy_prefix _ _
  obtain ⟨rest, hrest⟩ := hstart
  rw [hfirst] at hrest
  have hcons : [] ++ [a] ++ l = a :: l := rfl
  rw [← hcons, ← hrest]
  rfl

end RagStack.Common
