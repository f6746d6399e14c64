import RagStack.Worker.Models
import Mathlib.Tactic.Linarith

/-!
# `TokenCounter`

`app/services/token_counter.py`. The `tiktoken` encoder is a third-party
package: a counter either has the number of tokens its encoder gives to a text,
or falls back to a quarter of the length.

An encoder that raises on some text makes `chunk_document` raise as well, so a
run that returns is a run with a total encoder that agrees with it on the texts
that were counted.
-/

namespace RagStack.Worker

/-- `TokenCounter`: `encode text` is `len(encoding.encode(text))`; `none` when
    `tiktoken` could not be loaded. -/
structure TokenCounter where
  encode : Option (Text → ℕ)

namespace TokenCounter

/-- The counter used when `tiktoken.get_encoding` fails. -/
def charApprox : TokenCounter := ⟨none⟩

/-- `encoding_name`. -/
def encodingName (tc : TokenCounter) : String :=
  if tc.encode.isSome then "cl100k_base" else "char_approx"

/-- `math.ceil(n / 4)`. -/
def ceilQuarter (n : ℕ) : ℕ := (n + 3) / 4

/-- `TokenCounter.count` (lines 15–20). -/
def count (tc : TokenCounter) (text : Text) : ℕ :=
  if text = [] then 0
  else
    match tc.encode with
    | some encode => encode text
    | none => max 1 (ceilQuarter text.length)

/-! ## The fallback counter -/

/-- With the fallback the count is the length divided by four, rounded up. -/
theorem count_charApprox (text : Text) : charApprox.count text = ceilQuarter text.length := by
  unfold count charApprox ceilQuarter
  split_ifs with h
  · simp [h]
  · have : 0 < text.length := List.length_pos_iff.mpr h
    simp only
    omega

theorem length_le_four_mul_count (text : Text) : text.length ≤ 4 * charApprox.count text := by
  rw [count_charApprox]
  unfold ceilQuarter
  omega

theorem count_charApprox_le_iff (text : Text) (n : ℕ) :
    charApprox.count text ≤ n ↔ text.length ≤ 4 * n := by
  rw [count_charApprox]
  unfold ceilQuarter
  omega

theorem count_pos_of_ne_nil {text : Text} (h : text ≠ []) : 0 < charApprox.count text := by
  have := length_le_four_mul_count text
  have := List.length_pos_iff.mpr h
  omega

end TokenCounter

end RagStack.Worker
