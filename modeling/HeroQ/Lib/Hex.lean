/-
  Hexadecimal numerals, in either case.
-/
import Mathlib.Algebra.Order.Ring.Nat
import Mathlib.Data.List.Induction
import Mathlib.Tactic.Positivity
import Mathlib.Tactic.Ring

namespace Hex

/-- The value of a digit. -/
def digitValue (c : Char) : ℕ :=
  if c.toNat < 58 then c.toNat - 48 else if c.toNat < 71 then c.toNat - 55 else c.toNat - 87

/-- The value of a numeral. -/
def value (digits : List Char) : ℕ := digits.foldl (fun n c => 16 * n + digitValue c) 0

/-- The digits are `0` to `9`, `A` to `F` and `a` to `f`. -/
theorem isHexDigit_iff {c : Char} : c.isHexDigit = true ↔
    (48 ≤ c.toNat ∧ c.toNat ≤ 57) ∨ (97 ≤ c.toNat ∧ c.toNat ≤ 102) ∨
      (65 ≤ c.toNat ∧ c.toNat ≤ 70) := by
  delta Char.isHexDigit Char.isDigit
  simp only [Bool.or_eq_true, Bool.and_eq_true, decide_eq_true_eq, or_assoc, ge_iff_le,
    UInt32.le_iff_toNat_le]
  rfl

theorem digitValue_lt {c : Char} (h : c.isHexDigit = true) : digitValue c < 16 := by
  rw [isHexDigit_iff] at h
  unfold digitValue
  split_ifs <;> omega

/-- The digits are letters or digits of ASCII. -/
theorem isAlphanum_of_isHexDigit {c : Char} (h : c.isHexDigit = true) : c.isAlphanum = true := by
  rw [isHexDigit_iff] at h
  delta Char.isAlphanum Char.isAlpha Char.isUpper Char.isLower Char.isDigit
  simp only [Bool.or_eq_true, Bool.and_eq_true, decide_eq_true_eq, ge_iff_le,
    UInt32.le_iff_toNat_le]
  show ((65 ≤ c.toNat ∧ c.toNat ≤ 90) ∨ (97 ≤ c.toNat ∧ c.toNat ≤ 122)) ∨
    (48 ≤ c.toNat ∧ c.toNat ≤ 57)
  omega

/-- A numeral of n digits is below 16 ^ n. -/
theorem value_lt {digits : List Char} (h : ∀ c ∈ digits, c.isHexDigit = true) :
    value digits < 16 ^ digits.length := by
  induction digits using List.reverseRecOn with
  | nil => decide
  | append_singleton digits c ih =>
    have hdigits := ih fun c' hc' => h c' (List.mem_append_left _ hc')
    have hc := digitValue_lt (h c (by simp))
    have hvalue : value (digits ++ [c]) = 16 * value digits + digitValue c := by
      rw [value, List.foldl_append]
      rfl
    rw [hvalue, List.length_append, List.length_singleton, pow_succ]
    omega

/-- The digits at the end count for themselves, and those before them by their place. -/
theorem value_append (digits : List Char) : ∀ digits' : List Char,
    value (digits ++ digits') = 16 ^ digits'.length * value digits + value digits' := by
  intro digits'
  induction digits' using List.reverseRecOn with
  | nil => simp [value]
  | append_singleton digits' c ih =>
    have hsnoc : ∀ ds : List Char, value (ds ++ [c]) = 16 * value ds + digitValue c := by
      intro ds
      rw [value, List.foldl_append]
      rfl
    rw [← List.append_assoc, hsnoc, hsnoc, ih, List.length_append, List.length_singleton]
    ring

/-- What is left of a numeral without its last digits. -/
theorem value_append_div (digits : List Char) {digits' : List Char}
    (h : ∀ c ∈ digits', c.isHexDigit = true) :
    value (digits ++ digits') / 16 ^ digits'.length = value digits := by
  rw [value_append, Nat.mul_add_div (by positivity), Nat.div_eq_of_lt (value_lt h), Nat.add_zero]

/-- The last digits of a numeral. -/
theorem value_append_mod (digits : List Char) {digits' : List Char}
    (h : ∀ c ∈ digits', c.isHexDigit = true) :
    value (digits ++ digits') % 16 ^ digits'.length = value digits' := by
  rw [value_append, Nat.mul_add_mod, Nat.mod_eq_of_lt (value_lt h)]

end Hex
