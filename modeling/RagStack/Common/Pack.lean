import Mathlib.Algebra.GroupWithZero.Nat
import Mathlib.Algebra.BigOperators.Ring.List
import Mathlib.Algebra.Order.BigOperators.Group.List

/-!
# Greedy packing

`greedyPack w budget xs` cuts a list into consecutive groups: an element joins
the current group unless the group is not empty and its weight would exceed the
budget. `cutStep` is the loop body for any other condition.

* `finish_cut`: a cut by a condition keeps the list, and what a group keeps as it grows
  holds of every group.
* `greedyPack_flatten`: the groups concatenate to the list.
* `flatMap_greedyPack`: so does what is computed from their elements.
* `ne_nil_of_mem_greedyPack`: no group is empty.
* `weight_of_mem_greedyPack`: a group of two or more elements is within the
  budget.
-/

namespace RagStack.Common

variable {α : Type}

/-- The state of the packing loop: closed groups, open group and its weight. -/
structure PackState (α : Type) where
  packed : List (List α)
  current : List α
  tokens : ℕ

/-- The loop body for the element `x`. -/
def packStep (w : α → ℕ) (budget : ℕ) (s : PackState α) (x : α) : PackState α :=
  if s.current ≠ [] ∧ budget < s.tokens + w x then
    { packed := s.packed ++ [s.current], current := [x], tokens := w x }
  else { s with current := s.current ++ [x], tokens := s.tokens + w x }

/-- The groups once the loop is over: the open group is closed if it is not empty. -/
def PackState.finish (s : PackState α) : List (List α) :=
  if s.current = [] then s.packed else s.packed ++ [s.current]

/-- Cut `xs` into consecutive groups of weight at most `budget` where possible. -/
def greedyPack (w : α → ℕ) (budget : ℕ) (xs : List α) : List (List α) :=
  (xs.foldl (packStep w budget) { packed := [], current := [], tokens := 0 }).finish

variable {w : α → ℕ} {budget : ℕ}

/-! ## Cutting by a condition -/

/-- The loop body with a condition `full` of its own for closing the open group. -/
def cutStep (w : α → ℕ) (full : PackState α → α → Bool) (s : PackState α) (x : α) : PackState α :=
  if s.current ≠ [] ∧ full s x = true then
    { packed := s.packed ++ [s.current], current := [x], tokens := w x }
  else { s with current := s.current ++ [x], tokens := s.tokens + w x }

/-- The loop invariant: the elements read so far are `packed` and `current`, in order,
    `tokens` is the weight of the open group, and `P` holds of every group. -/
structure CutInv (w : α → ℕ) (P : List α → Prop) (read : List α) (s : PackState α) : Prop where
  elements : s.packed.flatten ++ s.current = read
  weight : s.tokens = (s.current.map w).sum
  closed : ∀ g ∈ s.packed, g ≠ [] ∧ P g
  open_ : s.current = [] ∨ P s.current

/-- A property that a single element has, and that a group keeps unless it is full. -/
structure CutGroup (w : α → ℕ) (full : PackState α → α → Bool) (P : List α → Prop) : Prop where
  single : ∀ x, P [x]
  join : ∀ s x, s.current ≠ [] → s.tokens = (s.current.map w).sum → full s x = false →
    P (s.current ++ [x])

variable {full : PackState α → α → Bool} {P : List α → Prop}

theorem CutInv.step (hP : CutGroup w full P) {read : List α} {s : PackState α}
    (h : CutInv w P read s) (x : α) : CutInv w P (read ++ [x]) (cutStep w full s x) := by
  unfold cutStep
  split_ifs with hc
  · -- the open group is closed and `x` starts a new one
    refine ⟨by simp [← h.elements], by simp, ?_, Or.inr (hP.single x)⟩
    intro g hg
    rcases List.mem_append.mp hg with hg | hg
    · exact h.closed g hg
    · rw [List.mem_singleton] at hg
      subst hg
      exact ⟨hc.1, h.open_.resolve_left hc.1⟩
  · refine ⟨by simp [← h.elements], by simp [h.weight], h.closed, Or.inr ?_⟩
    by_cases hcur : s.current = []
    · simpa [hcur] using hP.single x
    · exact hP.join s x hcur h.weight (by simpa [hcur] using hc)

theorem cutInv_foldl (hP : CutGroup w full P) (xs : List α) :
    ∀ {read : List α} {s : PackState α}, CutInv w P read s →
      CutInv w P (read ++ xs) (xs.foldl (cutStep w full) s) := by
  induction xs with
  | nil => intro read s h; simpa using h
  | cons x xs ih =>
    intro read s h
    simpa using ih (h.step hP x)

/-- The groups are the list, cut at some places, and `P` holds of each. -/
theorem finish_cut (hP : CutGroup w full P) (xs : List α) :
    (xs.foldl (cutStep w full) { packed := [], current := [], tokens := 0 }).finish.flatten = xs ∧
      ∀ g ∈ (xs.foldl (cutStep w full) { packed := [], current := [], tokens := 0 }).finish,
        g ≠ [] ∧ P g := by
  have hinit : CutInv w P [] { packed := [], current := [], tokens := 0 } :=
    ⟨rfl, rfl, fun g hg => absurd hg (List.not_mem_nil), Or.inl rfl⟩
  have h := cutInv_foldl hP xs hinit
  rw [List.nil_append] at h
  unfold PackState.finish
  split_ifs with hc
  · exact ⟨by simpa [hc] using h.elements, h.closed⟩
  · refine ⟨by simpa using h.elements, fun g hg => ?_⟩
    rcases List.mem_append.mp hg with hg | hg
    · exact h.closed g hg
    · rw [List.mem_singleton] at hg
      subst hg
      exact ⟨hc, h.open_.resolve_left hc⟩

/-! ## Cutting by weight -/

/-- A group that the loop may close. -/
def PackGroup (w : α → ℕ) (budget : ℕ) (g : List α) : Prop :=
  g ≠ [] ∧ ((g.map w).sum ≤ budget ∨ ∃ x, g = [x])

theorem packStep_eq (s : PackState α) (x : α) :
    packStep w budget s x = cutStep w (fun s x => budget < s.tokens + w x) s x := by
  simp [packStep, cutStep]

theorem cutGroup_packGroup :
    CutGroup w (fun s x => budget < s.tokens + w x) (PackGroup w budget) := by
  refine ⟨fun x => ⟨List.cons_ne_nil x [], Or.inr ⟨x, rfl⟩⟩, ?_⟩
  intro s x _ hweight hfull
  refine ⟨by simp, Or.inl ?_⟩
  simp only [decide_eq_false_iff_not, not_lt] at hfull
  simpa [hweight] using hfull

theorem finish_packStep (xs : List α) :
    (greedyPack w budget xs).flatten = xs ∧
      ∀ g ∈ greedyPack w budget xs, g ≠ [] ∧ PackGroup w budget g := by
  have hstep : packStep w budget = cutStep w fun s x => budget < s.tokens + w x := by
    funext s x
    exact packStep_eq s x
  rw [greedyPack, hstep]
  exact finish_cut cutGroup_packGroup xs

/-- The groups are the list, cut at some places. -/
theorem greedyPack_flatten (w : α → ℕ) (budget : ℕ) (xs : List α) :
    (greedyPack w budget xs).flatten = xs :=
  (finish_packStep xs).1

/-- What is computed element by element does not see the cuts. -/
theorem flatMap_greedyPack {β : Type} (w : α → ℕ) (budget : ℕ) (f : α → List β) (xs : List α) :
    ((greedyPack w budget xs).flatMap fun g => g.flatMap f) = xs.flatMap f := by
  conv_rhs => rw [← greedyPack_flatten w budget xs, ← List.flatMap_id', List.flatMap_assoc]

theorem packGroup_of_mem_greedyPack {xs g : List α} (hg : g ∈ greedyPack w budget xs) :
    PackGroup w budget g :=
  ((finish_packStep xs).2 g hg).2

theorem ne_nil_of_mem_greedyPack {xs g : List α} (hg : g ∈ greedyPack w budget xs) : g ≠ [] :=
  (packGroup_of_mem_greedyPack hg).1

/-- A group exceeds the budget only if it is a single element. -/
theorem weight_of_mem_greedyPack {xs g : List α} (hg : g ∈ greedyPack w budget xs) :
    (g.map w).sum ≤ budget ∨ ∃ x, g = [x] :=
  (packGroup_of_mem_greedyPack hg).2

theorem mem_of_mem_greedyPack {xs g : List α} (hg : g ∈ greedyPack w budget xs) {x : α}
    (hx : x ∈ g) : x ∈ xs := by
  rw [← greedyPack_flatten w budget xs, List.mem_flatten]
  exact ⟨g, hg, hx⟩

end RagStack.Common
