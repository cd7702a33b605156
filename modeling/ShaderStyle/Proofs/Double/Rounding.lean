import ShaderStyle.Proofs.Double.Integer

/-! How far arithmetic on nonnegative doubles is from exact arithmetic. -/
namespace ShaderStyle

theorem zpow_binaryExponent_le {x : Rat} (h : 0 < x) : (2 : Rat) ^ binaryExponent x ≤ x := by
  unfold binaryExponent
  dsimp only
  split
  · have hnum : 0 < x.num := Rat.num_pos.mpr h
    have hlow : 2 ^ x.num.natAbs.log2 ≤ x.num.natAbs := Nat.log2_self_le (by omega)
    have hhigh : x.den < 2 ^ (x.den.log2 + 1) := Nat.lt_log2_self
    have hexponent : (x.num.natAbs.log2 : Int) - x.den.log2 - 1 =
        (x.num.natAbs.log2 : Int) - (x.den.log2 + 1 : Nat) := by omega
    have hfraction : (x.num.natAbs : Rat) = x * x.den := by
      rw [Rat.mul_den_eq_num, ← Int.cast_natCast, Int.natAbs_of_nonneg hnum.le]
    rw [hexponent, zpow_sub₀ (by norm_num), Rat.zpow_natCast, Rat.zpow_natCast,
      div_le_iff₀ (by positivity)]
    calc
      (2 : Rat) ^ x.num.natAbs.log2 ≤ x.num.natAbs := by exact_mod_cast hlow
      _ = x * x.den := hfraction
      _ ≤ x * 2 ^ (x.den.log2 + 1) := by
        gcongr
        exact_mod_cast hhigh.le
  · next hle => exact not_lt.mp hle

theorem roundEven_error (x : Rat) : |(roundEven x : Rat) - x| ≤ 1 / 2 := by
  have hlow : (x.floor : Rat) ≤ x := Rat.floor_le x
  have hhigh : x < x.floor + 1 := by exact_mod_cast Rat.lt_floor_add_one x
  have hparity : (0 : Rat) ≤ (x.floor % 2 : Int) ∧ ((x.floor % 2 : Int) : Rat) ≤ 1 := by
    constructor
    · exact_mod_cast Int.emod_nonneg x.floor (show (2 : Int) ≠ 0 by decide)
    · exact_mod_cast (show x.floor % 2 ≤ 1 by omega)
  unfold roundEven
  dsimp only
  rw [abs_le]
  split_ifs
  · constructor <;> linarith
  · push_cast
    constructor <;> linarith
  · push_cast
    constructor <;> linarith

/-- Rounding does not pass an integer. -/
theorem roundEven_le {x : Rat} {k : Int} (h : x ≤ k) : roundEven x ≤ k := by
  rcases h.lt_or_eq with hlt | rfl
  · have hfloor : x.floor < k := Rat.floor_lt_iff.mpr hlt
    have hnext := roundEven_le_floor_add_one x
    omega
  · rw [roundEven_intCast]

namespace BinaryFormat

variable {x : Rat} {m : Nat}

/-- The last place of a number is no higher than that of a larger integer. -/
theorem lastPlace_le (hx : 0 < x) (hm : x ≤ m) : binary64.lastPlace x ≤ (m.log2 : Int) - 52 := by
  have hpow : (2 : Rat) ^ binaryExponent x < (2 : Rat) ^ ((m.log2 + 1 : Nat) : Int) := by
    calc
      (2 : Rat) ^ binaryExponent x ≤ x := zpow_binaryExponent_le hx
      _ ≤ m := hm
      _ < (2 : Rat) ^ ((m.log2 + 1 : Nat) : Int) := by
        rw [Rat.zpow_natCast]
        exact_mod_cast Nat.lt_log2_self
  have hexponent : binaryExponent x < (m.log2 + 1 : Nat) :=
    (zpow_lt_zpow_iff_right₀ (by norm_num)).mp hpow
  change (if binaryExponent x - 52 < -1074 then (-1074 : Int) else binaryExponent x - 52) ≤ _
  split
  · omega
  · omega

theorem nearest_error (hx : 0 < x) (hm : x ≤ m) :
    |binary64.nearest x - x| ≤ (2 : Rat) ^ m.log2 / 2 ^ 53 := by
  have hunit : (0 : Rat) < 2 ^ binary64.lastPlace x := zpow_pos (by norm_num) _
  have herror := mul_le_mul_of_nonneg_right
    (roundEven_error (x / 2 ^ binary64.lastPlace x)) hunit.le
  unfold nearest
  dsimp only
  calc
    |(roundEven (x / 2 ^ binary64.lastPlace x) : Rat) * 2 ^ binary64.lastPlace x - x| =
        |(roundEven (x / 2 ^ binary64.lastPlace x) : Rat) - x / 2 ^ binary64.lastPlace x| *
          2 ^ binary64.lastPlace x := by
      rw [← abs_of_pos hunit, ← abs_mul, abs_of_pos hunit, sub_mul, div_mul_cancel₀ x hunit.ne']
    _ ≤ 1 / 2 * 2 ^ binary64.lastPlace x := herror
    _ ≤ 1 / 2 * 2 ^ ((m.log2 : Int) - 52) := by
      gcongr
      · norm_num
      · exact lastPlace_le hx hm
    _ = (2 : Rat) ^ m.log2 / 2 ^ 53 := by
      rw [zpow_sub₀ (by norm_num), Rat.zpow_natCast]
      norm_num
      ring

theorem nearest_nonneg (hx : 0 < x) : 0 ≤ binary64.nearest x := by
  have hunit : (0 : Rat) < 2 ^ binary64.lastPlace x := zpow_pos (by norm_num) _
  have hrounded : 0 ≤ roundEven (x / 2 ^ binary64.lastPlace x) :=
    le_trans (Rat.le_floor_iff.mpr (by exact_mod_cast (div_pos hx hunit).le))
      (floor_le_roundEven _)
  unfold nearest
  exact mul_nonneg (by exact_mod_cast hrounded) hunit.le

/-- Rounding does not pass an integer that is exact. -/
theorem nearest_le (hx : 0 < x) (hm : x ≤ m) (hlt : m < 2 ^ 53) : binary64.nearest x ≤ m := by
  have hpos : m ≠ 0 := by
    rintro rfl
    exact absurd hm (not_le.mpr (by exact_mod_cast hx))
  have hlog : m.log2 < 53 := (Nat.log2_lt hpos).mpr hlt
  have hplace := lastPlace_le hx hm
  obtain ⟨k, hk⟩ : ∃ k : Nat, binary64.lastPlace x = -(k : Int) :=
    ⟨(-binary64.lastPlace x).toNat, by omega⟩
  have hunit : (0 : Rat) < 2 ^ k := by positivity
  unfold nearest
  rw [hk, Rat.zpow_neg, Rat.zpow_natCast]
  dsimp only
  have hrounded : roundEven (x / (2 ^ k)⁻¹) ≤ ((m * 2 ^ k : Nat) : Int) := by
    apply roundEven_le
    rw [div_inv_eq_mul]
    push_cast
    gcongr
  calc
    (roundEven (x / (2 ^ k)⁻¹) : Rat) * (2 ^ k)⁻¹ ≤ ((m * 2 ^ k : Nat) : Rat) * (2 ^ k)⁻¹ := by
      gcongr
      exact_mod_cast hrounded
    _ = m := by
      push_cast
      field_simp

end BinaryFormat

namespace Double

variable {x y : Rat} {m n : Nat}

theorem rounded_natCast (h : n < 2 ^ 53) : rounded false (n : Rat) = .finite n := by
  unfold rounded
  split
  · next hzero =>
    rw [hzero]
    rfl
  · exact ofInt_eq_finite (n := n) (by omega)

/-- A nonnegative number below an exact integer is rounded to a double below it, close by. -/
theorem rounded_near (hx : 0 ≤ x) (hm : x ≤ m) (hlt : m < 2 ^ 53) :
    ∃ y, rounded false x = .finite y ∧ 0 ≤ y ∧ y ≤ m ∧ |y - x| ≤ (2 : Rat) ^ m.log2 / 2 ^ 53 := by
  unfold rounded
  split
  · next hzero =>
    refine ⟨0, rfl, le_refl 0, by positivity, ?_⟩
    rw [hzero, sub_self, abs_zero]
    positivity
  · next hne =>
    have hpos : 0 < x := lt_of_le_of_ne hx (Ne.symm hne)
    have hle := BinaryFormat.nearest_le hpos hm hlt
    have hbound : ¬(2 : Rat) ^ BinaryFormat.binary64.overflowExponent ≤
        BinaryFormat.binary64.nearest x := by
      change ¬(2 : Rat) ^ ((1024 : Nat) : Int) ≤ _
      rw [Rat.zpow_natCast, not_le]
      calc
        BinaryFormat.binary64.nearest x ≤ m := hle
        _ < (2 : Rat) ^ 53 := by exact_mod_cast hlt
        _ ≤ (2 : Rat) ^ 1024 := pow_le_pow_right₀ (by norm_num) (by norm_num)
    refine ⟨BinaryFormat.binary64.nearest x, ?_, BinaryFormat.nearest_nonneg hpos, hle,
      BinaryFormat.nearest_error hpos hm⟩
    rw [ofRat, BinaryFormat.round]
    simp only [if_neg hne, if_neg (not_lt.mpr hx)]
    rw [if_neg hbound]
    split
    · next hvanished => rw [hvanished]
    · rfl

theorem isNegative_finite (hx : 0 ≤ x) : (finite x).isNegative = false :=
  decide_eq_false (not_lt.mpr hx)

theorem add_finite (hx : 0 ≤ x) :
    add (.finite x) (.finite y) = rounded false (x + y) := by
  change rounded ((finite x).isNegative && (finite y).isNegative) (x + y) = _
  rw [isNegative_finite hx, Bool.false_and]

theorem mul_finite (hx : 0 ≤ x) (hy : 0 ≤ y) :
    mul (.finite x) (.finite y) = rounded false (x * y) := by
  change rounded ((finite x).isNegative != (finite y).isNegative) (x * y) = _
  rw [isNegative_finite hx, isNegative_finite hy]
  rfl

theorem div_finite (hx : 0 ≤ x) (hy : 0 < y) :
    div (.finite x) (.finite y) = rounded false (x / y) := by
  have hzero : (finite y).isZero = false := decide_eq_false hy.ne'
  change (if (finite y).isZero then _
    else rounded ((finite x).isNegative != (finite y).isNegative) (x / y)) = _
  rw [hzero, isNegative_finite hx, isNegative_finite hy.le]
  rfl

end Double

end ShaderStyle
