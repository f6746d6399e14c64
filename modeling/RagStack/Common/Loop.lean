import Mathlib.Data.Nat.Notation
import Mathlib.Logic.Function.Iterate
import Mathlib.Tactic.Common

/-!
# While loops

`whileLoop variant cond body s` runs `while cond: body` from the state `s`. The
variant bounds the number of iterations; the definition is by structural
recursion on that number, so a loop can be evaluated.

* `whileLoop_rule`: the proof rule. If the body keeps the invariant and
  decreases the variant, the loop ends in a state with the invariant in which
  the condition is false.
* `LoopEnds`, `loopEnds_whileLoop`: the source loop itself, without a bound on its
  iterations, ends in that state.
-/

namespace RagStack.Common

variable {σ : Type}

/-- At most `n` iterations of `while cond: body`. -/
def iterWhile (cond : σ → Bool) (body : σ → σ) : ℕ → σ → σ
  | 0, s => s
  | n + 1, s => if cond s then iterWhile cond body n (body s) else s

/-- `while cond: body`, for a loop whose body decreases `variant`. -/
def whileLoop (variant : σ → ℕ) (cond : σ → Bool) (body : σ → σ) (s : σ) : σ :=
  iterWhile cond body (variant s) s

variable {variant : σ → ℕ} {cond : σ → Bool} {body : σ → σ}

theorem iterWhile_of_not_cond {n : ℕ} {s : σ} (h : cond s = false) :
    iterWhile cond body n s = s := by
  cases n with
  | zero => rfl
  | succ n => rw [iterWhile, if_neg (by simp [h])]

theorem iterWhile_rule {Inv : σ → Prop}
    (hbody : ∀ s, Inv s → cond s = true → Inv (body s) ∧ variant (body s) < variant s) :
    ∀ {n : ℕ} {s : σ}, Inv s → variant s ≤ n →
      Inv (iterWhile cond body n s) ∧ cond (iterWhile cond body n s) = false := by
  intro n
  induction n with
  | zero =>
    intro s hs hn
    refine ⟨hs, ?_⟩
    cases hc : cond s with
    | false => exact hc
    | true =>
      have := (hbody s hs hc).2
      omega
  | succ n ih =>
    intro s hs hn
    rw [iterWhile]
    split_ifs with hc
    · obtain ⟨h1, h2⟩ := hbody s hs hc
      exact ih h1 (by omega)
    · exact ⟨hs, by simpa using hc⟩

/-- The proof rule of `while`: an invariant and a decreasing variant. -/
theorem whileLoop_rule {Inv : σ → Prop}
    (hbody : ∀ s, Inv s → cond s = true → Inv (body s) ∧ variant (body s) < variant s)
    {s : σ} (hs : Inv s) :
    Inv (whileLoop variant cond body s) ∧ cond (whileLoop variant cond body s) = false :=
  iterWhile_rule hbody hs (Nat.le_refl _)

/-- `while cond: body` runs from `s` for a number of iterations, and ends in `t`. -/
def LoopEnds (cond : σ → Bool) (body : σ → σ) (s t : σ) : Prop :=
  ∃ n, t = body^[n] s ∧ cond t = false ∧ ∀ m < n, cond (body^[m] s) = true

theorem LoopEnds.of_not_cond {s : σ} (h : cond s = false) : LoopEnds cond body s s :=
  ⟨0, rfl, h, fun m hm => absurd hm (Nat.not_lt_zero m)⟩

theorem LoopEnds.of_cond {s t : σ} (h : cond s = true) (hends : LoopEnds cond body (body s) t) :
    LoopEnds cond body s t := by
  obtain ⟨k, heq, hend, hbefore⟩ := hends
  refine ⟨k + 1, heq, hend, fun m hm => ?_⟩
  cases m with
  | zero => exact h
  | succ m => exact hbefore m (by omega)

theorem loopEnds_iterWhile {Inv : σ → Prop}
    (hbody : ∀ s, Inv s → cond s = true → Inv (body s) ∧ variant (body s) < variant s) :
    ∀ {n : ℕ} {s : σ}, Inv s → variant s ≤ n → LoopEnds cond body s (iterWhile cond body n s) := by
  intro n
  induction n with
  | zero => intro s hs hn; exact LoopEnds.of_not_cond (iterWhile_rule hbody hs hn).2
  | succ n ih =>
    intro s hs hn
    cases hc : cond s with
    | false =>
      rw [iterWhile_of_not_cond hc]
      exact LoopEnds.of_not_cond hc
    | true =>
      obtain ⟨hinv, hlt⟩ := hbody s hs hc
      rw [iterWhile, if_pos hc]
      exact LoopEnds.of_cond hc (ih hinv (by omega))

/-- With a variant the loop ends. -/
theorem loopEnds_whileLoop {Inv : σ → Prop}
    (hbody : ∀ s, Inv s → cond s = true → Inv (body s) ∧ variant (body s) < variant s)
    {s : σ} (hs : Inv s) : LoopEnds cond body s (whileLoop variant cond body s) :=
  loopEnds_iterWhile hbody hs (Nat.le_refl _)

end RagStack.Common
