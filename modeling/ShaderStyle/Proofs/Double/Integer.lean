import Mathlib.Data.Rat.Floor
import Mathlib.Tactic.FieldSimp
import ShaderStyle.Double.Basic

/-! Integers that are doubles. -/
namespace ShaderStyle

@[simp] theorem roundEven_intCast (k : Int) : roundEven (k : Rat) = k := by
  have hfloor : (k : Rat).floor = k := Rat.floor_intCast k
  unfold roundEven
  rw [hfloor]
  dsimp only
  rw [sub_self, if_pos (by norm_num)]

theorem floor_le_roundEven (x : Rat) : x.floor ≤ roundEven x := by
  unfold roundEven
  dsimp only
  split
  · exact Int.le_refl _
  · split
    · omega
    · have hmod := Int.emod_nonneg x.floor (show (2 : Int) ≠ 0 by decide)
      omega

theorem roundEven_le_floor_add_one (x : Rat) : roundEven x ≤ x.floor + 1 := by
  unfold roundEven
  dsimp only
  split
  · omega
  · split
    · exact Int.le_refl _
    · have hmod := Int.emod_lt_of_pos x.floor (show (0 : Int) < 2 by decide)
      omega

theorem binaryExponent_natCast {m : Nat} (h : m ≠ 0) : binaryExponent (m : Rat) = m.log2 := by
  have hle : ¬(m : Rat) < (2 : Rat) ^ (m.log2 : Int) := by
    have hpow : 2 ^ m.log2 ≤ m := (Nat.le_log2 h).mp (Nat.le_refl _)
    rw [Rat.zpow_natCast, not_lt]
    exact_mod_cast hpow
  have hlog : Nat.log2 1 = 0 := by decide
  unfold binaryExponent
  simp only [Rat.num_natCast, Int.natAbs_natCast, Rat.den_natCast, hlog, Nat.cast_zero, sub_zero]
  rw [if_neg hle]

namespace BinaryFormat

theorem lastPlace_natCast {m : Nat} (h : m ≠ 0) :
    binary64.lastPlace (m : Rat) = (m.log2 : Int) - 52 := by
  unfold lastPlace
  rw [binaryExponent_natCast h]
  change (if (m.log2 : Int) - 52 < -1074 then (-1074 : Int) else (m.log2 : Int) - 52) = _
  rw [if_neg (by omega)]

/-- An integer with no more digits than the format has is exact. -/
theorem nearest_natCast {m : Nat} (hpos : m ≠ 0) (hlt : m < 2 ^ 53) :
    binary64.nearest (m : Rat) = m := by
  have hlog : m.log2 < 53 := (Nat.log2_lt hpos).mpr hlt
  have hplace : binary64.lastPlace (m : Rat) = -((52 - m.log2 : Nat) : Int) := by
    rw [lastPlace_natCast hpos]
    omega
  have hpow : ((2 : Rat) ^ (52 - m.log2)) ≠ 0 := by positivity
  have hscaled : (m : Rat) / ((2 : Rat) ^ (52 - m.log2))⁻¹ =
      ((m * 2 ^ (52 - m.log2) : Int) : Rat) := by
    rw [div_inv_eq_mul]
    push_cast
    rfl
  unfold nearest
  rw [hplace, Rat.zpow_neg, Rat.zpow_natCast]
  dsimp only
  rw [hscaled, roundEven_intCast]
  push_cast
  field_simp

/-- Larger integers are rounded, but stay large. -/
theorem le_nearest_natCast {m : Nat} (h : 2 ^ 53 ≤ m) :
    (2 : Rat) ^ 53 ≤ binary64.nearest (m : Rat) := by
  have hpos : m ≠ 0 := by
    have htwo : 0 < 2 ^ 53 := by decide
    omega
  have hlog : 53 ≤ m.log2 := (Nat.le_log2 hpos).mpr h
  have hplace : binary64.lastPlace (m : Rat) = ((m.log2 - 52 : Nat) : Int) := by
    rw [lastPlace_natCast hpos]
    omega
  have hunit : (0 : Rat) < (2 : Rat) ^ (m.log2 - 52) := by positivity
  have hpow : (2 : Rat) ^ 52 * (2 : Rat) ^ (m.log2 - 52) ≤ m := by
    rw [← pow_add, show 52 + (m.log2 - 52) = m.log2 by omega]
    exact_mod_cast (Nat.le_log2 hpos).mp (Nat.le_refl _)
  have hscaled : (2 : Rat) ^ 52 ≤ (m : Rat) / (2 : Rat) ^ (m.log2 - 52) :=
    (le_div_iff₀ hunit).mpr hpow
  have hrounded : (2 ^ 52 : Int) ≤ roundEven ((m : Rat) / (2 : Rat) ^ (m.log2 - 52)) := by
    refine le_trans ?_ (floor_le_roundEven _)
    exact Rat.le_floor_iff.mpr (by exact_mod_cast hscaled)
  unfold nearest
  rw [hplace, Rat.zpow_natCast]
  dsimp only
  calc
    (2 : Rat) ^ 53 ≤ (2 : Rat) ^ (52 + (m.log2 - 52)) :=
      pow_le_pow_right₀ (by norm_num) (by omega)
    _ = (2 : Rat) ^ 52 * (2 : Rat) ^ (m.log2 - 52) := pow_add _ _ _
    _ ≤ _ := mul_le_mul_of_nonneg_right (by exact_mod_cast hrounded) hunit.le

/-- Rounding an integer does not lengthen it by more than one binary digit. -/
theorem nearest_natCast_le {m : Nat} (h : 2 ^ 53 ≤ m) :
    binary64.nearest (m : Rat) ≤ (2 : Rat) ^ (m.log2 + 1) := by
  have hpos : m ≠ 0 := by
    have htwo : 0 < 2 ^ 53 := by decide
    omega
  have hlog : 53 ≤ m.log2 := (Nat.le_log2 hpos).mpr h
  have hplace : binary64.lastPlace (m : Rat) = ((m.log2 - 52 : Nat) : Int) := by
    rw [lastPlace_natCast hpos]
    omega
  have hunit : (0 : Rat) < (2 : Rat) ^ (m.log2 - 52) := by positivity
  have hpow : (2 : Rat) ^ 53 * (2 : Rat) ^ (m.log2 - 52) = (2 : Rat) ^ (m.log2 + 1) := by
    rw [← pow_add, show 53 + (m.log2 - 52) = m.log2 + 1 by omega]
  have hscaled : (m : Rat) / (2 : Rat) ^ (m.log2 - 52) < (2 : Rat) ^ 53 := by
    rw [div_lt_iff₀ hunit, hpow]
    exact_mod_cast Nat.lt_log2_self
  have hfloor : ((m : Rat) / (2 : Rat) ^ (m.log2 - 52)).floor < 2 ^ 53 :=
    Rat.floor_lt_iff.mpr (by exact_mod_cast hscaled)
  have hrounded : roundEven ((m : Rat) / (2 : Rat) ^ (m.log2 - 52)) ≤ (2 ^ 53 : Int) := by
    have hle := roundEven_le_floor_add_one ((m : Rat) / (2 : Rat) ^ (m.log2 - 52))
    omega
  unfold nearest
  rw [hplace, Rat.zpow_natCast]
  dsimp only
  rw [← hpow]
  exact mul_le_mul_of_nonneg_right (by exact_mod_cast hrounded) hunit.le

end BinaryFormat

namespace Double

/-- Doubles count exactly up to a bound. -/
theorem ofInt_eq_finite {n : Int} (h : n.natAbs < 2 ^ 53) : ofInt n = .finite n := by
  have hround : BinaryFormat.binary64.round (n : Rat) = .finite n := by
    unfold BinaryFormat.round
    by_cases hzero : n = 0
    · rw [hzero]
      rfl
    · have hne : (n : Rat) ≠ 0 := by exact_mod_cast hzero
      have habs : (if (n : Rat) < 0 then -(n : Rat) else n) = (n.natAbs : Rat) := by
        rw [Nat.cast_natAbs, Int.cast_abs]
        split
        · next hneg => rw [abs_of_neg hneg]
        · next hpos => rw [abs_of_nonneg (not_lt.mp hpos)]
      have hbound : ¬(2 : Rat) ^ BinaryFormat.binary64.overflowExponent ≤ (n.natAbs : Rat) := by
        change ¬(2 : Rat) ^ ((1024 : Nat) : Int) ≤ (n.natAbs : Rat)
        rw [Rat.zpow_natCast, not_le]
        calc
          (n.natAbs : Rat) < (2 : Rat) ^ 53 := by exact_mod_cast h
          _ ≤ (2 : Rat) ^ 1024 := pow_le_pow_right₀ (by norm_num) (by norm_num)
      rw [if_neg hne, habs, BinaryFormat.nearest_natCast (Int.natAbs_ne_zero.mpr hzero) h]
      dsimp only
      rw [if_neg hbound, if_neg (by exact_mod_cast Int.natAbs_ne_zero.mpr hzero), ← habs]
      split
      · rw [neg_neg]
      · rfl
  exact hround

/-- The double of an integer is infinite only far beyond any count. -/
theorem isFinite_ofInt {m : Nat} (h : m < 2 ^ 1023) : (ofInt m).isFinite = true := by
  by_cases hsmall : m < 2 ^ 53
  · rw [ofInt_eq_finite (by simpa using hsmall)]
    rfl
  · have hpos : m ≠ 0 := by
      have htwo : 0 < 2 ^ 53 := by decide
      omega
    have hzero : ((m : Int) : Rat) ≠ 0 := by exact_mod_cast hpos
    have hsign : ¬((m : Int) : Rat) < 0 := not_lt.mpr (by exact_mod_cast Nat.zero_le m)
    have hlog : m.log2 + 1 < 1024 := by
      have hlt := (Nat.log2_lt hpos).mpr h
      omega
    have hbound : ¬(2 : Rat) ^ BinaryFormat.binary64.overflowExponent ≤
        BinaryFormat.binary64.nearest ((m : Int) : Rat) := by
      change ¬(2 : Rat) ^ ((1024 : Nat) : Int) ≤ _
      rw [Rat.zpow_natCast, not_le]
      calc
        BinaryFormat.binary64.nearest ((m : Int) : Rat) ≤ (2 : Rat) ^ (m.log2 + 1) :=
          BinaryFormat.nearest_natCast_le (Nat.le_of_not_lt hsmall)
        _ < (2 : Rat) ^ 1024 := pow_lt_pow_right₀ (by norm_num) hlog
    change (BinaryFormat.binary64.round ((m : Int) : Rat)).isFinite = true
    unfold BinaryFormat.round
    rw [if_neg hzero, if_neg hsign]
    dsimp only
    rw [if_neg hbound]
    split
    · rfl
    · rfl

theorem ofNat_ne_finite {k : Nat} (hk : 2 ^ 53 ≤ k) {m : Int} (hm : m < 2 ^ 53) :
    ofInt k ≠ .finite m := by
  have hlarge := BinaryFormat.le_nearest_natCast hk
  have hzero : ((k : Int) : Rat) ≠ 0 := by
    have htwo : 0 < 2 ^ 53 := by decide
    exact_mod_cast (show k ≠ 0 by omega)
  have hsign : ¬((k : Int) : Rat) < 0 := not_lt.mpr (by exact_mod_cast Nat.zero_le k)
  change BinaryFormat.binary64.round ((k : Int) : Rat) ≠ .finite m
  unfold BinaryFormat.round
  rw [if_neg hzero, if_neg hsign]
  dsimp only
  split
  · exact nofun
  · split
    · next hvanished =>
      have hsmall : (2 : Rat) ^ 53 ≤ 0 := hlarge.trans_eq hvanished
      exact absurd hsmall (by norm_num)
    · intro heq
      have hlow : (2 : Rat) ^ 53 ≤ m := hlarge.trans_eq (Double.finite.inj heq)
      have hcast : (2 ^ 53 : Int) ≤ m := by exact_mod_cast hlow
      omega

/-- No other integer from minus one on is rounded to an integer below the bound. -/
theorem ofInt_eq_iff {n m : Int} (hn : -1 ≤ n) (hm : -1 ≤ m) (hlt : m < 2 ^ 53) :
    ofInt n = ofInt m ↔ n = m := by
  have hbound (i : Int) (hlow : -1 ≤ i) (hhigh : i < 2 ^ 53) : i.natAbs < 2 ^ 53 := by omega
  rw [ofInt_eq_finite (hbound m hm hlt)]
  by_cases hsmall : n < 2 ^ 53
  · rw [ofInt_eq_finite (hbound n hn hsmall)]
    simp
  · obtain ⟨k, rfl⟩ := Int.eq_ofNat_of_zero_le (show 0 ≤ n by omega)
    constructor
    · intro heq
      exact absurd heq (ofNat_ne_finite (by omega) hlt)
    · omega

end Double

end ShaderStyle
