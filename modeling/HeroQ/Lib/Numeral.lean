/-
  Decimal numerals: reading a string as an integer of 64 bits, and numerals written one after
  another, which without a separator can be read in several ways (`concat_eq_iff`).
-/
import Mathlib.Algebra.Order.Ring.Int
import Mathlib.Data.Nat.Digits.Defs

namespace Numeral

/-- The sign and the digits of a numeral. -/
def signed : List Char → Bool × List Char
  | '-' :: digits => (true, digits)
  | '+' :: digits => (false, digits)
  | digits => (false, digits)

/-- `Int(_:)` on a string: decimal digits after an optional sign, in the range of 64 bits. -/
def intOfString (s : String) : Option Int :=
  let (negative, digits) := signed s.toList
  if digits ≠ [] ∧ digits.all Char.isDigit then
    let magnitude : Int := Nat.ofDigitChars 10 digits 0
    let value := if negative then -magnitude else magnitude
    if -2 ^ 63 ≤ value ∧ value < 2 ^ 63 then some value else none
  else none

theorem signed_digits {digits : List Char} (h : digits.all Char.isDigit) :
    signed digits = (false, digits) := by
  unfold signed
  split
  · simp at h
  · simp at h
  · rfl

theorem intOfString_digits {s : String} (hne : s.toList ≠ []) (h : s.toList.all Char.isDigit) :
    intOfString s = if Nat.ofDigitChars 10 s.toList 0 < 2 ^ 63
      then some (Nat.ofDigitChars 10 s.toList 0 : Int) else none := by
  simp only [intOfString, signed_digits h, hne, h, ne_eq, not_false_eq_true, and_self, if_true,
    Bool.false_eq_true, if_false]
  generalize Nat.ofDigitChars 10 s.toList 0 = n
  refine if_congr ⟨fun hn => ?_, fun hn => ⟨?_, ?_⟩⟩ rfl rfl
  · exact_mod_cast hn.2
  · exact (by norm_num : (-2 : Int) ^ 63 ≤ 0).trans (Int.natCast_nonneg n)
  · exact_mod_cast hn

/-- The number whose numeral is the numeral of `a` followed by that of `b`. -/
def concat (a b : ℕ) : ℕ := a * 10 ^ (Nat.toDigits 10 b).length + b

/-- **Reading two numerals written one after another.** -/
theorem intOfString_concat (a b : ℕ) :
    intOfString s!"{a}{b}" = if concat a b < 2 ^ 63 then some (concat a b : Int) else none := by
  have hlist : (s!"{a}{b}").toList = Nat.toDigits 10 a ++ Nat.toDigits 10 b := by simp
  have hne : (s!"{a}{b}").toList ≠ [] := by simp [Nat.toDigits_ne_nil]
  have hdigit : (s!"{a}{b}").toList.all Char.isDigit = true := by
    rw [hlist, List.all_eq_true]
    intro c hc
    rcases List.mem_append.1 hc with hc | hc
    exacts [Nat.isDigit_of_mem_toDigits (by decide) (by decide) hc,
      Nat.isDigit_of_mem_toDigits (by decide) (by decide) hc]
  have hval : Nat.ofDigitChars 10 (s!"{a}{b}").toList 0 = concat a b := by
    rw [hlist, Nat.ofDigitChars_append, Nat.ofDigitChars_ten_toDigits,
      Nat.ofDigitChars_eq_ofDigitChars_zero, Nat.ofDigitChars_ten_toDigits, concat, Nat.mul_comm]
  rw [intOfString_digits hne hdigit, hval]

theorem concat_pos {a : ℕ} (ha : 0 < a) (b : ℕ) : 0 < concat a b :=
  Nat.add_pos_left (Nat.mul_pos ha (Nat.pow_pos (by decide))) b

/-- A numeral that starts with a positive number is not read as zero. -/
theorem getD_intOfString_concat_ne {a : ℕ} (ha : 0 < a) (b : ℕ) :
    (intOfString s!"{a}{b}").getD (-1) ≠ 0 := by
  have hpos := concat_pos ha b
  rw [intOfString_concat]
  split_ifs
  · simp only [Option.getD_some]; omega
  · decide

/-! ## When two numerals written one after another read the same -/

theorem lt_pow_length (n : ℕ) : n < 10 ^ (Nat.toDigits 10 n).length :=
  (Nat.length_toDigits_le_iff (by decide) Nat.length_toDigits_pos).1 le_rfl

theorem pow_le_of_lt_length {n k : ℕ} (hk : 0 < k) (h : k < (Nat.toDigits 10 n).length) :
    10 ^ k ≤ n := by
  by_contra hlt
  exact absurd ((Nat.length_toDigits_le_iff (by decide) hk).2 (not_le.1 hlt)) (not_le.2 h)

theorem pow_length_le {n : ℕ} (hn : 0 < n) : 10 ^ ((Nat.toDigits 10 n).length - 1) ≤ n := by
  rcases Nat.eq_zero_or_pos ((Nat.toDigits 10 n).length - 1) with hone | hmore
  · rw [hone]
    exact hn
  · exact pow_le_of_lt_length hmore (by omega)

theorem length_of_bounds {n k : ℕ} (hlo : 10 ^ k ≤ n) (hhi : n < 10 ^ (k + 1)) :
    (Nat.toDigits 10 n).length = k + 1 := by
  refine le_antisymm ((Nat.length_toDigits_le_iff (by decide) k.succ_pos).2 hhi) ?_
  rcases Nat.eq_zero_or_pos k with rfl | hk
  · exact Nat.length_toDigits_pos
  · by_contra h
    have hlt := (Nat.length_toDigits_le_iff (by decide) hk).1 (Nat.le_of_lt_succ (not_le.1 h))
    omega

theorem length_concat {a : ℕ} (ha : 0 < a) (b : ℕ) :
    (Nat.toDigits 10 (concat a b)).length =
      (Nat.toDigits 10 a).length + (Nat.toDigits 10 b).length := by
  have hlen : 0 < (Nat.toDigits 10 a).length := Nat.length_toDigits_pos
  have hexp : (Nat.toDigits 10 a).length - 1 + (Nat.toDigits 10 b).length + 1 =
      (Nat.toDigits 10 a).length + (Nat.toDigits 10 b).length := by omega
  rw [← hexp]
  refine length_of_bounds ?_ ?_
  · rw [Nat.pow_add]
    exact (Nat.mul_le_mul_right _ (pow_length_le ha)).trans (Nat.le_add_right _ b)
  · calc concat a b < (a + 1) * 10 ^ (Nat.toDigits 10 b).length := by
          rw [concat, Nat.add_mul, Nat.one_mul]
          exact Nat.add_lt_add_left (lt_pow_length b) _
      _ ≤ 10 ^ (Nat.toDigits 10 a).length * 10 ^ (Nat.toDigits 10 b).length :=
          Nat.mul_le_mul_right _ (lt_pow_length a)
      _ = _ := by rw [hexp, Nat.pow_add]

theorem concat_concat (a : ℕ) {q : ℕ} (hq : 0 < q) (b : ℕ) :
    concat (concat a q) b = concat a (concat q b) := by
  rw [concat, concat, concat, length_concat hq, concat, Nat.pow_add, Nat.add_mul, Nat.mul_assoc,
    Nat.add_assoc]

/-- The numeral of `b` begins with a numeral that `a` can end with: `a` and `b` written one after
    the other can be read as `a'` and `b'`. -/
def Regroups (a b a' b' : ℕ) : Prop := ∃ q, 0 < q ∧ a' = concat a q ∧ b = concat q b'

theorem concat_eq_of_length_lt {a b a' b' : ℕ} (h : concat a b = concat a' b')
    (hlen : (Nat.toDigits 10 b').length < (Nat.toDigits 10 b).length) : Regroups a b a' b' := by
  obtain ⟨k, hk⟩ : ∃ k, (Nat.toDigits 10 b).length = k + 1 + (Nat.toDigits 10 b').length :=
    ⟨(Nat.toDigits 10 b).length - (Nat.toDigits 10 b').length - 1, by omega⟩
  have hb' : b' < 10 ^ (Nat.toDigits 10 b').length := lt_pow_length b'
  have hb : b < 10 ^ (Nat.toDigits 10 b).length := lt_pow_length b
  have hpos : 0 < (Nat.toDigits 10 b').length := Nat.length_toDigits_pos
  have hlong : 10 ^ (k + (Nat.toDigits 10 b').length) ≤ b :=
    pow_le_of_lt_length (by omega) (by omega)
  rw [concat, concat, hk] at h
  rw [hk] at hb
  generalize hm : (Nat.toDigits 10 b').length = m at h hb' hb hlong
  have hpow : 0 < 10 ^ m := Nat.pow_pos (by decide)
  rw [Nat.pow_add, ← Nat.mul_assoc] at h
  rw [Nat.pow_add] at hb hlong
  -- the digits of `b` in front of its last `m` ones
  have hmod : b % 10 ^ m = b' := by
    have hmods := congrArg (· % 10 ^ m) h
    simpa only [Nat.mul_add_mod_self_right, Nat.mod_eq_of_lt hb'] using hmods
  have hdiv : a * 10 ^ (k + 1) + b / 10 ^ m = a' := by
    have hdivs := congrArg (· / 10 ^ m) h
    simpa only [Nat.mul_comm _ (10 ^ m), Nat.mul_add_div hpow, Nat.div_eq_of_lt hb',
      Nat.add_zero] using hdivs
  have hlo : 10 ^ k ≤ b / 10 ^ m := (Nat.le_div_iff_mul_le hpow).2 hlong
  have hhi : b / 10 ^ m < 10 ^ (k + 1) := Nat.div_lt_of_lt_mul (Nat.mul_comm _ (10 ^ m) ▸ hb)
  refine ⟨b / 10 ^ m, Nat.lt_of_lt_of_le (Nat.pow_pos (by decide)) hlo, ?_, ?_⟩
  · rw [concat, length_of_bounds hlo hhi, hdiv]
  · rw [concat, hm, ← hmod, Nat.mul_comm, Nat.div_add_mod]

/-- **Two numerals written one after another read the same** iff they are the same two, or one of
    them regroups as the other. -/
theorem concat_eq_iff {a b a' b' : ℕ} :
    concat a b = concat a' b' ↔
      (a = a' ∧ b = b') ∨ Regroups a b a' b' ∨ Regroups a' b' a b := by
  constructor
  · intro h
    rcases Nat.lt_trichotomy (Nat.toDigits 10 b').length (Nat.toDigits 10 b).length with
      hlt | heq | hgt
    · exact Or.inr (Or.inl (concat_eq_of_length_lt h hlt))
    · refine Or.inl ?_
      have hb := lt_pow_length b
      have hb' := lt_pow_length b'
      rw [concat, concat, heq] at h
      rw [heq] at hb'
      have hmods := congrArg (· % 10 ^ (Nat.toDigits 10 b).length) h
      simp only [Nat.mul_add_mod_self_right, Nat.mod_eq_of_lt hb, Nat.mod_eq_of_lt hb'] at hmods
      rw [hmods, Nat.add_left_inj] at h
      exact ⟨Nat.eq_of_mul_eq_mul_right (Nat.pow_pos (by decide)) h, hmods⟩
    · exact Or.inr (Or.inr (concat_eq_of_length_lt h.symm hgt))
  · rintro (⟨rfl, rfl⟩ | ⟨q, hq, rfl, rfl⟩ | ⟨q, hq, rfl, rfl⟩)
    · rfl
    · exact (concat_concat a hq b').symm
    · exact concat_concat a' hq b

end Numeral
