import ShaderStyle.Color.Basic
import ShaderStyle.Proofs.Double.Rounding

/-! Channels of colors: rounding and clamping, exactly and on doubles. -/
namespace ShaderStyle

section RoundAway

variable {x : Rat}

theorem floor_add_half_of_near {n : Nat} (h : |x - n| < 1 / 2) : (x + 1 / 2).floor = n := by
  obtain ⟨hlow, hhigh⟩ := abs_lt.mp h
  have hfloor : (n : Int) ≤ (x + 1 / 2).floor := by
    apply Rat.le_floor_iff.mpr
    push_cast
    linarith
  have hnext : (x + 1 / 2).floor < n + 1 := by
    apply Rat.floor_lt_iff.mpr
    push_cast
    linarith
  omega

theorem roundAway_of_near {n : Nat} (hx : 0 ≤ x) (h : |x - n| < 1 / 2) : roundAway x = n := by
  rw [roundAway, if_neg (not_lt.mpr hx), floor_add_half_of_near h]

theorem roundAway_natCast (n : Nat) : roundAway (n : Rat) = n :=
  roundAway_of_near (Nat.cast_nonneg n) (by norm_num)

theorem roundAway_nonneg (hx : 0 ≤ x) : 0 ≤ roundAway x := by
  rw [roundAway, if_neg (not_lt.mpr hx)]
  apply Rat.le_floor_iff.mpr
  push_cast
  linarith

theorem roundAway_le {m : Nat} (hx : 0 ≤ x) (hm : x ≤ m) : roundAway x ≤ m := by
  have hlt : (x + 1 / 2).floor < m + 1 := by
    apply Rat.floor_lt_iff.mpr
    push_cast
    linarith
  rw [roundAway, if_neg (not_lt.mpr hx)]
  omega

end RoundAway

namespace Color

/-- The values of eight bits. -/
def IsByte (x : Rat) : Prop := ∃ n : Nat, n ≤ 255 ∧ x = n

theorem isByte_intCast {k : Int} (hlow : 0 ≤ k) (hhigh : k ≤ 255) : IsByte k := by
  refine ⟨k.toNat, by omega, ?_⟩
  rw [← Int.cast_natCast, Int.toNat_of_nonneg hlow]

section Exact

variable {x : Rat} {n : Nat}

theorem clamp_eq (low high : Nat) (x : Rat) : clamp low high x = min (max x low) high := by
  rw [min_def, max_def]
  rfl

theorem clamp_of_mem {low high : Nat} (hlow : low ≤ x) (hhigh : x ≤ high) :
    clamp low high x = x := by
  rw [clamp_eq, max_eq_left hlow, min_eq_left hhigh]

theorem le_clamp {low high : Nat} (h : low ≤ high) : (low : Rat) ≤ clamp low high x := by
  rw [clamp_eq]
  exact le_min (le_max_right _ _) (by exact_mod_cast h)

theorem clamp_le (low high : Nat) : clamp low high x ≤ (high : Rat) := by
  rw [clamp_eq]
  exact min_le_right _ _

theorem channel8_eq (x : Rat) : channel8 x = ((min (max (roundAway x) 0) 255 : Int) : Rat) := by
  change clamp 0 255 (roundAway x : Rat) = _
  rw [clamp_eq]
  push_cast
  rfl

theorem isByte_channel8 (x : Rat) : IsByte (channel8 x) := by
  rw [channel8_eq]
  apply isByte_intCast
  · omega
  · omega

theorem channel8_natCast (hn : n ≤ 255) : channel8 (n : Rat) = n := by
  rw [channel8_eq, roundAway_natCast]
  exact_mod_cast (show min (max (n : Int) 0) 255 = n by omega)

theorem alpha8_eq (x : Rat) : alpha8 x = (roundAway (clamp 0 1 x * 255) : Rat) := rfl

theorem isByte_alpha8 (x : Rat) : IsByte (alpha8 x) := by
  have hlow : 0 ≤ clamp 0 1 x * 255 := mul_nonneg (le_clamp (by decide)) (by norm_num)
  have hhigh : clamp 0 1 x * 255 ≤ (255 : Nat) := by
    have hone := clamp_le (x := x) 0 1
    push_cast at hone ⊢
    linarith
  rw [alpha8_eq]
  exact isByte_intCast (roundAway_nonneg hlow) (roundAway_le hlow hhigh)

theorem alpha8_div (hn : n ≤ 255) : alpha8 ((n : Rat) / 255) = n := by
  have hle : (n : Rat) ≤ 255 := by exact_mod_cast hn
  have hclamp : clamp 0 1 ((n : Rat) / 255) = n / 255 := by
    apply clamp_of_mem
    · push_cast
      positivity
    · push_cast
      rw [div_le_one (by norm_num)]
      exact hle
  rw [alpha8_eq, hclamp, div_mul_cancel₀ _ (by norm_num), roundAway_natCast]
  rfl

end Exact

end Color

namespace Double

theorem ofNat_eq_finite {n : Nat} (h : n < 2 ^ 53) : ofNat n = .finite n :=
  ofInt_eq_finite (n := n) (by omega)

section Order

variable (x y : Rat)

theorem lt_finite : lt (.finite x) (.finite y) = decide (x < y) := by
  change (decide (x ≤ y) && !decide (y ≤ x)) = decide (x < y)
  rw [← decide_not, ← Bool.decide_and, decide_eq_decide, not_le]
  exact ⟨And.right, fun h => ⟨h.le, h⟩⟩

theorem max_finite : max (.finite x) (.finite y) = .finite (x ⊔ y) := by
  by_cases hzero : x = 0 ∧ y = 0
  · obtain ⟨rfl, rfl⟩ := hzero
    rfl
  · have hmax : max (.finite x) (.finite y) = if decide (y < x) then finite x else finite y := by
      rw [← lt_finite]
      unfold max
      simp only [reduceCtorEq, decide_false, isNan, isZero, Bool.or_false, Bool.false_eq_true,
        if_false, ← Bool.decide_and, hzero]
    rw [hmax, max_def]
    by_cases h : y < x
    · simp [h, not_le.mpr h]
    · simp [h, not_lt.mp h]

theorem min_finite : min (.finite x) (.finite y) = .finite (x ⊓ y) := by
  by_cases hzero : x = 0 ∧ y = 0
  · obtain ⟨rfl, rfl⟩ := hzero
    rfl
  · have hmin : min (.finite x) (.finite y) = if decide (x < y) then finite x else finite y := by
      rw [← lt_finite]
      unfold min
      simp only [reduceCtorEq, decide_false, isNan, isZero, Bool.or_false, Bool.false_eq_true,
        if_false, ← Bool.decide_and, hzero]
    rw [hmin, min_def]
    rcases lt_trichotomy x y with h | rfl | h
    · simp [h, h.le]
    · simp
    · simp [not_lt.mpr h.le, not_le.mpr h]

/-- No nonnegative number is below a minus zero. -/
theorem max_negativeZero (hy : 0 ≤ y) : max .negativeZero (.finite y) = .finite y := by
  have hlt : lt (.finite y) .negativeZero = false := by
    have hle : le .negativeZero (.finite y) = true := decide_eq_true hy
    rw [lt, hle, Bool.not_true, Bool.and_false]
  unfold max
  simp only [reduceCtorEq, decide_false, isNan, isZero, isNegative, Bool.or_false,
    Bool.false_eq_true, if_false, if_true, hlt, ite_self]

theorem max_plusInfinity (x : Double) : max (.infinity false) x = .infinity false := by
  simp [max]

theorem min_plusInfinity : min (.infinity false) (.finite y) = .finite y := by
  simp [min, isNan, isZero, lt, le]

theorem max_minusInfinity : max (.infinity true) (.finite y) = .finite y := by
  simp [max, isNan, isZero, lt, le]

end Order

end Double

namespace Color

section OnDoubles

variable {x : Double} {low high n : Nat}

theorem clamp_eq_on_doubles (hlow : low < 2 ^ 53) (hhigh : high < 2 ^ 53) (x : Double) :
    clamp low high x = (x.max (.finite low)).min (.finite high) := by
  rw [← Double.ofNat_eq_finite hlow, ← Double.ofNat_eq_finite hhigh]
  rfl

theorem clamp_finite (hlow : low < 2 ^ 53) (hhigh : high < 2 ^ 53) (x : Rat) :
    clamp low high (Double.finite x) = .finite (clamp low high x) := by
  rw [clamp_eq_on_doubles hlow hhigh, Double.max_finite, Double.min_finite, clamp_eq]

theorem clamp_nan (hlow : low < 2 ^ 53) (hhigh : high < 2 ^ 53) :
    clamp low high Double.nan = .nan := by
  rw [clamp_eq_on_doubles hlow hhigh]
  simp [Double.max, Double.min, Double.isNan]

/-- Clamping makes a number of all but a NaN. -/
theorem exists_clamp (h : low ≤ high) (hhigh : high < 2 ^ 53) (hx : x ≠ .nan) :
    ∃ q : Rat, clamp low high x = .finite (clamp low high q) := by
  have hcast : (low : Rat) ≤ high := by exact_mod_cast h
  have hbelow : (Double.finite low).min (.finite high) = .finite (clamp low high (low : Rat)) := by
    rw [Double.min_finite, min_eq_left hcast, clamp_of_mem (le_refl _) hcast]
  cases x with
  | nan => exact absurd rfl hx
  | finite x => exact ⟨x, clamp_finite (by omega) hhigh x⟩
  | negativeZero =>
    refine ⟨low, ?_⟩
    rw [clamp_eq_on_doubles (by omega) hhigh, Double.max_negativeZero _ (Nat.cast_nonneg low),
      hbelow]
  | infinity negative =>
    cases negative with
    | false =>
      refine ⟨high, ?_⟩
      rw [clamp_eq_on_doubles (by omega) hhigh, Double.max_plusInfinity, Double.min_plusInfinity,
        clamp_of_mem hcast (le_refl _)]
    | true =>
      refine ⟨low, ?_⟩
      rw [clamp_eq_on_doubles (by omega) hhigh, Double.max_minusInfinity, hbelow]

/-- On finite numbers, channels are exact. -/
theorem channel8_finite (x : Rat) : channel8 (Double.finite x) = .finite (channel8 x) := by
  change clamp 0 255 (if roundAway x = 0 then Double.zero (x < 0) else .finite (roundAway x)) =
    .finite (clamp 0 255 (roundAway x : Rat))
  split
  · next hzero =>
    rw [hzero, Double.zero]
    split
    · decide +kernel
    · exact clamp_finite (by decide) (by decide) 0
  · exact clamp_finite (by decide) (by decide) _

theorem exists_channel8 (hx : x ≠ .nan) : ∃ n : Nat, n ≤ 255 ∧ channel8 x = .finite n := by
  cases x with
  | nan => exact absurd rfl hx
  | finite x =>
    obtain ⟨n, hn, hchannel⟩ := isByte_channel8 x
    exact ⟨n, hn, by rw [channel8_finite, hchannel]⟩
  | negativeZero => exact ⟨0, by decide, by decide +kernel⟩
  | infinity negative =>
    cases negative with
    | false => exact ⟨255, by decide, by decide +kernel⟩
    | true => exact ⟨0, by decide, by decide +kernel⟩

theorem channel8_nan : channel8 Double.nan = .nan := clamp_nan (by decide) (by decide)

/-- Eight bits scaled to one, on doubles. -/
theorem exists_fraction (hn : n ≤ 255) :
    ∃ y : Rat, Double.div (.ofNat n) (.ofNat 255) = .finite y ∧ 0 ≤ y ∧ y ≤ 1 ∧
      |y - n / 255| ≤ 1 / 2 ^ 53 := by
  have hle : (n : Rat) / 255 ≤ (1 : Nat) := by
    push_cast
    rw [div_le_one (by norm_num)]
    exact_mod_cast hn
  obtain ⟨y, hy, hnonneg, hone, herror⟩ :=
    Double.rounded_near (div_nonneg (Nat.cast_nonneg n) (by norm_num)) hle (by decide)
  refine ⟨y, ?_, hnonneg, by exact_mod_cast hone, herror⟩
  rw [Double.ofNat_eq_finite (by omega), Double.ofNat_eq_finite (by decide),
    Double.div_finite (Nat.cast_nonneg n) (by norm_num)]
  exact hy

/-- Two channels of eight bits make sixteen, on doubles. -/
theorem join_bytes {m : Nat} (hn : n ≤ 255) (hm : m ≤ 255) :
    Double.add (.mul (.finite n) (.ofNat 256)) (.finite m) =
      .finite ((n * 256 + m : Nat) : Rat) := by
  have hproduct : Double.mul (.finite n) (.ofNat 256) = .finite ((n * 256 : Nat) : Rat) := by
    rw [Double.ofNat_eq_finite (by decide),
      Double.mul_finite (Nat.cast_nonneg n) (by norm_num), ← Nat.cast_mul,
      Double.rounded_natCast (by omega)]
  rw [hproduct, Double.add_finite (Nat.cast_nonneg _), ← Nat.cast_add,
    Double.rounded_natCast (by omega)]

section Alpha

variable {a : Rat}

/-- The product of an alpha between zero and one with 255, as a double. -/
private theorem exists_scaled (hlow : 0 ≤ a) (hhigh : a ≤ 1) :
    ∃ y : Rat, alpha8 (Double.finite a) = .finite (roundAway y) ∧ 0 ≤ y ∧ y ≤ 255 ∧
      |y - a * 255| ≤ 1 / 2 ^ 46 := by
  have hscaled : a * 255 ≤ (255 : Nat) := by
    push_cast
    linarith
  obtain ⟨y, hy, hnonneg, hle, herror⟩ :=
    Double.rounded_near (mul_nonneg hlow (by norm_num)) hscaled (by decide)
  have hlog : Nat.log2 255 = 7 := by decide
  refine ⟨y, ?_, hnonneg, by exact_mod_cast hle, herror.trans ?_⟩
  · have hclamp : clamp 0 1 (Double.finite a) = .finite a := by
      rw [clamp_finite (by decide) (by decide), clamp_of_mem (by simpa using hlow)
        (by simpa using hhigh)]
    change Double.round (Double.mul (clamp 0 1 _) (Double.ofNat 255)) = _
    rw [hclamp, Double.ofNat_eq_finite (by decide), Double.mul_finite hlow (by norm_num)]
    push_cast
    rw [hy]
    change (if roundAway y = 0 then Double.zero (y < 0) else .finite (roundAway y)) = _
    split
    · next hzero =>
      rw [hzero, Double.zero, decide_eq_false (not_lt.mpr hnonneg)]
      rfl
    · rfl
  · rw [hlog]
    norm_num

theorem exists_alpha8 (hlow : 0 ≤ a) (hhigh : a ≤ 1) :
    ∃ n : Nat, n ≤ 255 ∧ alpha8 (Double.finite a) = .finite n := by
  obtain ⟨y, halpha, hnonneg, hle, -⟩ := exists_scaled hlow hhigh
  obtain ⟨n, hn, hbyte⟩ := isByte_intCast (roundAway_nonneg hnonneg)
    (roundAway_le (m := 255) hnonneg (by exact_mod_cast hle))
  exact ⟨n, hn, by rw [halpha, hbyte]⟩

/-- A number close to a multiple of 1/255 is taken for it. -/
theorem alpha8_of_near {n : Nat} (hlow : 0 ≤ a) (hhigh : a ≤ 1)
    (h : |a - n / 255| ≤ 1 / 2 ^ 53) : alpha8 (Double.finite a) = .finite n := by
  obtain ⟨y, halpha, hnonneg, -, herror⟩ := exists_scaled hlow hhigh
  have hnear : |y - n| < 1 / 2 := by
    rw [abs_le] at h herror
    rw [abs_lt]
    norm_num at h herror ⊢
    constructor
    · linarith
    · linarith
  rw [halpha, roundAway_of_near hnonneg hnear]
  rfl

end Alpha

end OnDoubles

end Color

end ShaderStyle
