import Mathlib.Data.Nat.Notation
import Mathlib.Tactic.Common

/-!
# Ranges that partition the marked positions

Closed ranges of positions, in order. `PartitionsUpTo ranges n marked` says that
they are disjoint and increasing and cover exactly the marked positions up to `n`.

* `PartitionsUpTo.skip`: a position that is not marked is passed over.
* `PartitionsUpTo.snoc`: a run of marked positions is a range of its own.
-/

namespace RagStack.Common

/-- The ranges are disjoint and increasing, and cover the marked positions up to `n`. -/
structure PartitionsUpTo (ranges : List (ℕ × ℕ)) (n : ℕ) (marked : ℕ → Prop) : Prop where
  increasing : ranges.Pairwise fun r s => r.2 < s.1
  ordered : ∀ r ∈ ranges, r.1 ≤ r.2
  covers : ∀ m, (∃ r ∈ ranges, r.1 ≤ m ∧ m ≤ r.2) ↔ m ≤ n ∧ marked m

variable {ranges : List (ℕ × ℕ)} {n : ℕ} {marked : ℕ → Prop}

theorem partitionsUpTo_zero (h : ¬ marked 0) : PartitionsUpTo [] 0 marked := by
  refine ⟨List.Pairwise.nil, by simp, fun m => ⟨by simp, ?_⟩⟩
  rintro ⟨hm, hmarked⟩
  obtain rfl : m = 0 := by omega
  exact absurd hmarked h

theorem PartitionsUpTo.le {r : ℕ × ℕ} (h : PartitionsUpTo ranges n marked) (hr : r ∈ ranges) :
    r.2 ≤ n :=
  ((h.covers r.2).mp ⟨r, hr, h.ordered r hr, Nat.le_refl _⟩).1

theorem PartitionsUpTo.skip (h : PartitionsUpTo ranges n marked) (hmarked : ¬ marked (n + 1)) :
    PartitionsUpTo ranges (n + 1) marked := by
  refine ⟨h.increasing, h.ordered, fun m => ?_⟩
  rw [h.covers m]
  constructor
  · rintro ⟨hm, hmark⟩
    exact ⟨by omega, hmark⟩
  · rintro ⟨hm, hmark⟩
    have hne : m ≠ n + 1 := by
      rintro rfl
      exact hmarked hmark
    exact ⟨by omega, hmark⟩

theorem PartitionsUpTo.snoc (h : PartitionsUpTo ranges n marked) {k : ℕ} (hk : 0 < k)
    (hmarked : ∀ m, n < m → m ≤ n + k → marked m) :
    PartitionsUpTo (ranges ++ [(n + 1, n + k)]) (n + k) marked := by
  refine ⟨?_, ?_, fun m => ?_⟩
  · refine List.pairwise_append.mpr ⟨h.increasing, List.pairwise_singleton _ _, ?_⟩
    intro r hr s hs
    obtain rfl := List.mem_singleton.mp hs
    have := h.le hr
    show r.2 < n + 1
    omega
  · intro r hr
    rcases List.mem_append.mp hr with hr | hr
    · exact h.ordered r hr
    · obtain rfl := List.mem_singleton.mp hr
      show n + 1 ≤ n + k
      omega
  · constructor
    · rintro ⟨r, hr, hstart, hstop⟩
      rcases List.mem_append.mp hr with hr | hr
      · obtain ⟨hm, hmark⟩ := (h.covers m).mp ⟨r, hr, hstart, hstop⟩
        exact ⟨by omega, hmark⟩
      · obtain rfl := List.mem_singleton.mp hr
        have hfirst : n + 1 ≤ m := hstart
        have hlast : m ≤ n + k := hstop
        exact ⟨hlast, hmarked m (by omega) hlast⟩
    · rintro ⟨hm, hmark⟩
      rcases Nat.lt_or_ge n m with hlt | hle
      · exact ⟨(n + 1, n + k), by simp, hlt, hm⟩
      · obtain ⟨r, hr, hrange⟩ := (h.covers m).mpr ⟨hle, hmark⟩
        exact ⟨r, List.mem_append_left _ hr, hrange⟩

end RagStack.Common
