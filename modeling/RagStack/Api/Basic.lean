import Mathlib.Data.Rat.Defs
import RagStack.Common.Scan
import RagStack.Worker.Text

/-!
# Strings and exceptions of the API

A JavaScript string is a list of code points here; where the code counts UTF-16
units, `utf16Length` counts them. (An unpaired surrogate is no code point. The
first filter a question passes replaces it by a blank.) What depends on the
Unicode tables (normal forms, letters, numbers, case) is a parameter,
`EcmaUnicode`.
-/

namespace RagStack.Api

open RagStack.Common
open RagStack.Worker (Text)

/-- `\s` in a regular expression: white space and line terminators. -/
def isSpace (c : Char) : Bool :=
  let n := c.toNat
  (9 ≤ n && n ≤ 13) || n == 32 || n == 0xA0 || n == 0x1680 || (0x2000 ≤ n && n ≤ 0x200A) ||
    n == 0x2028 || n == 0x2029 || n == 0x202F || n == 0x205F || n == 0x3000 || n == 0xFEFF

/-- `text.trim()`. -/
def trim (text : Text) : Text := strip isSpace text

/-- `text.length`. -/
def utf16Length (text : Text) : ℕ := (text.map fun c => if 0x10000 ≤ c.toNat then 2 else 1).sum

theorem length_le_utf16Length (text : Text) : text.length ≤ utf16Length text := by
  induction text with
  | nil => exact Nat.le_refl _
  | cons c text ih =>
    simp only [utf16Length, List.map_cons, List.sum_cons, List.length_cons] at ih ⊢
    split_ifs <;> omega

/-- The parts of the Unicode tables that `String.prototype` and regular
    expressions use: `normalize("NFKC")`, `toLowerCase`, `\p{L}` and `\p{N}`. -/
structure EcmaUnicode where
  nfkc : Text → Text
  toLowerCase : Text → Text
  isLetter : Char → Bool
  isNumber : Char → Bool

/-- The tables for ASCII text. -/
def EcmaUnicode.ascii : EcmaUnicode where
  nfkc := id
  toLowerCase := List.map Char.toLower
  isLetter := Char.isAlpha
  isNumber := Char.isDigit

/-- What the column type `citext` compares, of ASCII letters. -/
def foldCase (text : Text) : Text := text.map Char.toLower

/-- A capital letter is 32 below its small letter. -/
theorem toNat_toLower {c : Char} (h : c.val ≥ 'A'.val ∧ c.val ≤ 'Z'.val) :
    (65 ≤ c.toNat ∧ c.toNat ≤ 90) ∧ c.toLower.toNat = c.toNat + 32 := by
  obtain ⟨hlow, hhigh⟩ : 65 ≤ c.toNat ∧ c.toNat ≤ 90 := by
    simp only [ge_iff_le, UInt32.le_iff_toNat_le] at h
    exact h
  refine ⟨⟨hlow, hhigh⟩, ?_⟩
  have hlower : c.toLower.val = c.val + ('a'.val - 'A'.val) := congrArg Char.val (dif_pos h)
  show c.toLower.val.toNat = c.val.toNat + 32
  have hval : c.val.toNat = c.toNat := rfl
  have hstep : ('a'.val - 'A'.val).toNat = 32 := rfl
  rw [hlower, UInt32.toNat_add]
  omega

theorem toLower_toLower (c : Char) : c.toLower.toLower = c.toLower := by
  by_cases hupper : c.val ≥ 'A'.val ∧ c.val ≤ 'Z'.val
  · obtain ⟨hrange, hval⟩ := toNat_toLower hupper
    refine dif_neg fun hupper' => ?_
    have hrange' := (toNat_toLower hupper').1
    omega
  · have hself : c.toLower = c := dif_neg hupper
    rw [hself, hself]

/-- `[\p{L}\p{N}]`. -/
def EcmaUnicode.isAlnum (uni : EcmaUnicode) (c : Char) : Bool := uni.isLetter c || uni.isNumber c

/-- A JSON value. -/
inductive Json
  | null
  | bool (value : Bool)
  | num (value : ℚ)
  | str (value : Text)
  | arr (items : List Json)
  | obj (entries : List (Text × Json))

/-- The exceptions of `@nestjs/common` that the services throw; `internal` is what
    becomes of an error of the database that no service catches. -/
inductive HttpException
  | badRequest (message : String)
  | forbidden (message : String)
  | notFound (message : String)
  | serviceUnavailable (message : String)
  | internal
deriving DecidableEq, Repr

end RagStack.Api
