import Evalorch.Evaluators.Base
import Mathlib.Tactic.Linarith
import Mathlib.Tactic.Positivity
import Mathlib.Tactic.NormNum

/-!
# Shares

A share is a part of a whole, rounded to four digits: a number between zero and one.
-/

namespace Evalorch

open Evaluator

/-- Rounding moves a number by a half at most. -/
theorem roundHalfEven_bounds (q : ℚ) :
  q - 1 / 2 ≤ roundHalfEven q ∧ (roundHalfEven q : ℚ) ≤ q + 1 / 2
  := by
  have hle := Int.floor_le q
  have hlt := Int.lt_floor_add_one q
  unfold roundHalfEven
  split
  case isTrue hbelow => constructor <;> linarith
  case isFalse hbelow =>
    rw [not_lt] at hbelow
    split
    case isTrue habove => constructor <;> push_cast <;> linarith
    case isFalse habove =>
      rw [not_lt] at habove
      split <;> constructor <;> push_cast <;> linarith

/-- Rounding does not leave an interval between integers. -/
theorem roundHalfEven_mem {q : ℚ} {low high : ℤ} (hlow : low ≤ q) (hhigh : q ≤ high) :
  low ≤ roundHalfEven q ∧ roundHalfEven q ≤ high
  := by
  obtain ⟨hge, hle⟩ := roundHalfEven_bounds q
  have hbelow : ((low - 1 : ℤ) : ℚ) < roundHalfEven q := by
    push_cast
    linarith
  have habove : (roundHalfEven q : ℚ) < (high + 1 : ℤ) := by
    push_cast
    linarith
  rw [Int.cast_lt] at hbelow habove
  omega

/-! ### Doubles -/

/-- A number between zero and one is rounded by a part of `2 ^ 53` of it at most. -/
theorem toDouble_le {q : ℚ} (hpos : 0 < q) :
  toDouble q ≤ q + q / 2 ^ 53
  := by
  have hulp_pos : (0 : ℚ) < 2 ^ (Int.log 2 q - 52) := zpow_pos two_pos _
  have hlog : (2 : ℚ) ^ Int.log 2 q ≤ q := by
    exact_mod_cast Int.zpow_log_le_self one_lt_two hpos
  set ulp : ℚ := 2 ^ (Int.log 2 q - 52) with hulp
  have hsplit : (2 : ℚ) ^ Int.log 2 q = ulp * 2 ^ 52 := by
    rw [hulp, ← zpow_natCast, ← zpow_add₀ two_ne_zero]
    congr 1
    ring
  obtain ⟨-, hle⟩ := roundHalfEven_bounds (q / ulp)
  calc toDouble q = roundHalfEven (q / ulp) * ulp := by rw [toDouble, abs_of_pos hpos]
    _ ≤ (q / ulp + 1 / 2) * ulp := by gcongr
    _ = q + ulp / 2 := by
      field_simp
    _ ≤ q + q / 2 ^ 53 := by
      rw [hsplit] at hlog
      linarith

theorem toDouble_zero :
  toDouble 0 = 0
  := by decide +kernel

theorem toDouble_one :
  toDouble 1 = 1
  := by decide +kernel

/-- A double between zero and one is between zero and one. -/
theorem toDouble_mem {q : ℚ} (hpos : 0 ≤ q) (hle : q ≤ 1) :
  0 ≤ toDouble q ∧ toDouble q ≤ 1
  := by
  rcases hpos.eq_or_lt with rfl | hpos
  · simp [toDouble_zero]
  -- a unit in the last place divides one
  have hlog : Int.log 2 q ≤ 0 := by
    have hpow : (2 : ℚ) ^ Int.log 2 q ≤ 1 := by
      exact_mod_cast (Int.zpow_log_le_self one_lt_two hpos).trans hle
    by_contra hlog
    have hlt : (1 : ℚ) < 2 ^ Int.log 2 q := one_lt_zpow₀ one_lt_two (not_le.mp hlog)
    linarith
  obtain ⟨n, hn⟩ := Int.eq_ofNat_of_zero_le (a := 52 - Int.log 2 q) (by omega)
  have hulp : (2 : ℚ) ^ (Int.log 2 q - 52) = 1 / ((2 ^ n : ℤ) : ℚ) := by
    rw [show Int.log 2 q - 52 = -(n : ℤ) by omega, zpow_neg, zpow_natCast]
    simp
  have hscale : (0 : ℚ) < ((2 ^ n : ℤ) : ℚ) := by positivity
  rw [toDouble, abs_of_pos hpos, hulp, div_div_eq_mul_div, div_one, mul_one_div]
  have hlow : ((0 : ℤ) : ℚ) ≤ q * ((2 ^ n : ℤ) : ℚ) := by
    push_cast
    positivity
  have hhigh : q * ((2 ^ n : ℤ) : ℚ) ≤ ((2 ^ n : ℤ) : ℚ) := mul_le_of_le_one_left hscale.le hle
  obtain ⟨hlow, hhigh⟩ := roundHalfEven_mem hlow hhigh
  constructor
  · have : (0 : ℚ) ≤ roundHalfEven (q * ((2 ^ n : ℤ) : ℚ)) := by exact_mod_cast hlow
    positivity
  · rw [div_le_one hscale]
    exact_mod_cast hhigh

/-! ### Shares -/

/-- Rounding to four digits does not leave the numbers between zero and one. -/
theorem round4_mem {q : ℚ} (hpos : 0 ≤ q) (hle : q ≤ 1) :
  0 ≤ roundHalfEven (q * 10 ^ 4) ∧ roundHalfEven (q * 10 ^ 4) ≤ 10000
  := by
  apply roundHalfEven_mem
  · push_cast
    positivity
  · push_cast
    linarith

/-- Only the whole is rounded to one. -/
theorem le_of_toDouble_eq_one {n : ℤ} (hn : 0 ≤ n) (h : toDouble (n / 10 ^ 4) = 1) :
  10000 ≤ n
  := by
  rcases hn.eq_or_lt with rfl | hpos
  · simp [toDouble_zero] at h
  by_contra hlt
  have hle : (n : ℚ) ≤ 9999 := by exact_mod_cast Int.le_of_lt_add_one (not_le.mp hlt)
  have hpos : (0 : ℚ) < n / 10 ^ 4 := by
    have : (0 : ℚ) < n := by exact_mod_cast hpos
    positivity
  linarith [toDouble_le hpos]

/-- A share is between nothing and all. -/
theorem share_bounds {part whole : ℕ} (hle : part ≤ whole) :
  ∃ q : ℚ, share part whole = .finite q ∧ 0 ≤ q ∧ q ≤ 1
  := by
  refine ⟨_, rfl, ?_⟩
  have hone : (part : ℚ) / whole ≤ 1 := div_le_one_of_le₀ (by exact_mod_cast hle) (by positivity)
  obtain ⟨hpos, hone⟩ := toDouble_mem (by positivity : 0 ≤ (part : ℚ) / whole) hone
  obtain ⟨hlow, hhigh⟩ := round4_mem hpos hone
  apply toDouble_mem
  · have : (0 : ℚ) ≤ roundHalfEven (toDouble (part / whole) * 10 ^ 4) := by exact_mod_cast hlow
    positivity
  · rw [div_le_one (by norm_num)]
    norm_num
    exact_mod_cast hhigh

/-- All of something is its whole share. -/
theorem share_self {whole : ℕ} (hpos : 0 < whole) :
  share whole whole = .finite 1
  := by
  have hne : (whole : ℚ) ≠ 0 := by positivity
  have hround : toDouble (roundHalfEven (1 * 10 ^ 4) / 10 ^ 4) = 1 := by decide +kernel
  rw [share, div_self hne, toDouble_one, Float64.round, hround]

/-- The double nearest to 3/160 is below it, so the tie is rounded down. -/
example : share 3 160 = .finite (toDouble (187 / 10000)) := by decide +kernel

/-- A share that is rounded to the whole leaves out a part of twenty thousand at most, of as many as
an `Integer` column counts. -/
theorem le_of_share_eq_one {part whole : ℕ} (hpos : 0 < whole) (hle : part ≤ whole)
    (hsmall : whole < 2 ^ 32) (h : share part whole = .finite 1) :
  (whole - part) * 20000 ≤ whole
  := by
  have hwhole : (0 : ℚ) < whole := by exact_mod_cast hpos
  have hone : (part : ℚ) / whole ≤ 1 := div_le_one_of_le₀ (by exact_mod_cast hle) hwhole.le
  obtain ⟨hnonneg, hone⟩ := toDouble_mem (by positivity : 0 ≤ (part : ℚ) / whole) hone
  have hdouble : (19999 : ℚ) / 20000 ≤ toDouble (part / whole) := by
    obtain ⟨-, hround⟩ := roundHalfEven_bounds (toDouble (part / whole) * 10 ^ 4)
    have hall : (10000 : ℤ) ≤ roundHalfEven (toDouble (part / whole) * 10 ^ 4) :=
      le_of_toDouble_eq_one (round4_mem hnonneg hone).1 (Float64.finite.inj h)
    have hall : (10000 : ℚ) ≤ roundHalfEven (toDouble (part / whole) * 10 ^ 4) := by
      exact_mod_cast hall
    linarith
  have hpos' : (0 : ℚ) < part / whole := by
    apply lt_of_le_of_ne (by positivity)
    intro hnone
    rw [← hnone, toDouble_zero] at hdouble
    norm_num at hdouble
  have hpart : (19999 : ℚ) * whole < 20000 * part + 1 := by
    have hshare : (19999 : ℚ) / 20000 - 1 / 2 ^ 53 ≤ (part : ℚ) / whole := by
      linarith [toDouble_le hpos']
    rw [le_div_iff₀ hwhole] at hshare
    have hsmall : (whole : ℚ) < 2 ^ 32 := by exact_mod_cast hsmall
    linarith
  have hnat : 19999 * whole < 20000 * part + 1 := by exact_mod_cast hpart
  omega

/-! ### Numbers between zero and one -/

/-- The number is a share of something. -/
def Float64.IsShare (x : Float64) : Prop :=
  ∃ q : ℚ, x = .finite q ∧ 0 ≤ q ∧ q ≤ 1

theorem isShare_share {part whole : ℕ} (hle : part ≤ whole) :
  (share part whole).IsShare
  := share_bounds hle

theorem isShare_zero :
  (Float64.finite 0).IsShare
  := ⟨0, rfl, le_refl 0, zero_le_one⟩

theorem isShare_one :
  (Float64.finite 1).IsShare
  := ⟨1, rfl, zero_le_one, le_refl 1⟩

theorem isShare_ite {p : Prop} [Decidable p] {x y : Float64} (hx : x.IsShare) (hy : y.IsShare) :
  (if p then x else y).IsShare
  := by
  split
  · exact hx
  · exact hy

end Evalorch
