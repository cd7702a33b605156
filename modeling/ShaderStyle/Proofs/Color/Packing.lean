import ShaderStyle.Proofs.Color.Notation

/-! Rounding a color to eight bits a channel and packing it lose the same, on exact numbers and on
doubles. -/
namespace ShaderStyle.Color

/-- Numbers in which channels can be rounded to eight bits and put together two by two. -/
structure EightBit (α : Type) [Scalar α] (valid : α → Prop) : Prop where
  exists_channel8 : ∀ {x : α}, valid x → ∃ n : Nat, n ≤ 255 ∧ channel8 x = Scalar.ofNat n
  exists_alpha8 : ∀ {x : α}, valid x → ∃ n : Nat, n ≤ 255 ∧ alpha8 x = Scalar.ofNat n
  channel8_ofNat : ∀ {n : Nat}, n ≤ 255 → channel8 (Scalar.ofNat n : α) = Scalar.ofNat n
  alpha8_fraction : ∀ {n : Nat}, n ≤ 255 →
    alpha8 (Scalar.ofNat n / Scalar.ofNat 255 : α) = Scalar.ofNat n
  join : ∀ {n m : Nat}, n ≤ 255 → m ≤ 255 →
    (Scalar.ofNat n * Scalar.ofNat 256 + Scalar.ofNat m : α) = Scalar.ofNat (n * 256 + m)
  ofNat_injective : ∀ {n m : Nat}, n ≤ 65535 → m ≤ 65535 →
    (Scalar.ofNat n : α) = Scalar.ofNat m → n = m

theorem eightBit_rat : EightBit Rat fun _ => True where
  exists_channel8 {x} _ := isByte_channel8 x
  exists_alpha8 {x} _ := isByte_alpha8 x
  channel8_ofNat := channel8_natCast
  alpha8_fraction {n} hn := by
    change alpha8 ((n : Rat) / (255 : Nat)) = n
    rw [Nat.cast_ofNat, alpha8_div hn]
  join {n m} _ _ := by
    change (n : Rat) * (256 : Nat) + m = (n * 256 + m : Nat)
    push_cast
    rfl
  ofNat_injective _ _ h := Nat.cast_injective h

/-- On doubles, alpha is rounded once more before it is an integer, which does no harm. -/
theorem eightBit_double : EightBit Double (· ≠ .nan) where
  exists_channel8 {x} hx := by
    obtain ⟨n, hn, hchannel⟩ := Color.exists_channel8 hx
    exact ⟨n, hn, hchannel.trans (Double.ofNat_eq_finite (by omega)).symm⟩
  exists_alpha8 {x} hx := by
    obtain ⟨q, hq⟩ : ∃ q : Rat, clamp 0 1 x = .finite (clamp 0 1 q) :=
      exists_clamp (by decide) (by decide) hx
    have hlow : (0 : Rat) ≤ clamp 0 1 q := by exact_mod_cast le_clamp (by decide)
    have hhigh : clamp 0 1 q ≤ (1 : Rat) := by exact_mod_cast clamp_le 0 1
    have hclamped : clamp 0 1 (Double.finite (clamp 0 1 q)) = .finite (clamp 0 1 q) := by
      rw [clamp_finite (by decide) (by decide), clamp_of_mem (by simpa using hlow)
        (by simpa using hhigh)]
    have halpha : alpha8 x = alpha8 (Double.finite (clamp 0 1 q)) := by
      rw [alpha8, alpha8, hq, hclamped]
    obtain ⟨n, hn, hbyte⟩ := Color.exists_alpha8 hlow hhigh
    exact ⟨n, hn, by rw [halpha, hbyte]; exact (Double.ofNat_eq_finite (by omega)).symm⟩
  channel8_ofNat {n} hn := by
    change channel8 (Double.ofNat n) = Double.ofNat n
    rw [Double.ofNat_eq_finite (by omega), channel8_finite, channel8_natCast hn]
  alpha8_fraction {n} hn := by
    obtain ⟨y, hy, hlow, hhigh, hnear⟩ := exists_fraction hn
    change alpha8 (Double.div (.ofNat n) (.ofNat 255)) = Double.ofNat n
    rw [hy, alpha8_of_near hlow hhigh hnear, Double.ofNat_eq_finite (by omega)]
  join {n m} hn hm := by
    change Double.add (.mul (.ofNat n) (.ofNat 256)) (.ofNat m) = Double.ofNat (n * 256 + m)
    rw [Double.ofNat_eq_finite (n := n) (by omega), Double.ofNat_eq_finite (n := m) (by omega),
      join_bytes hn hm, Double.ofNat_eq_finite (by omega)]
  ofNat_injective {n m} hn hm h := by
    change Double.ofNat n = Double.ofNat m at h
    rw [Double.ofNat_eq_finite (by omega), Double.ofNat_eq_finite (by omega)] at h
    exact Nat.cast_injective (Double.finite.inj h)

/-- A color with the channels that are left of it in eight bits. -/
structure Coded {α : Type} [Scalar α] (c : Color α) (red green blue alpha : Nat) : Prop where
  red_le : red ≤ 255
  green_le : green ≤ 255
  blue_le : blue ≤ 255
  alpha_le : alpha ≤ 255
  quantize_eq : c.quantize = ofBytes red green blue alpha
  pack_eq : c.pack = ⟨Scalar.ofNat (red * 256 + green), Scalar.ofNat (blue * 256 + alpha)⟩

/-- What packing keeps of a color, against others of the same kind. -/
structure RoundTrips {α : Type} [Scalar α] (valid : α → Prop) (c : Color α) : Prop where
  words : ∃ p q : Nat, p ≤ 65535 ∧ q ≤ 65535 ∧ c.pack = ⟨Scalar.ofNat p, Scalar.ofNat q⟩
  pack_quantize : c.quantize.pack = c.pack
  quantize_quantize : c.quantize.quantize = c.quantize
  pack_eq_iff : ∀ d : Color α, (∀ x ∈ d.toList, valid x) →
    (c.pack = d.pack ↔ c.quantize = d.quantize)

namespace EightBit

variable {α : Type} [Scalar α] {valid : α → Prop} {c d : Color α} {r g b a r' g' b' a' : Nat}

theorem exists_coded (h : EightBit α valid) (hc : ∀ x ∈ c.toList, valid x) :
    ∃ r g b a, c.Coded r g b a := by
  simp only [toList, List.forall_mem_cons] at hc
  obtain ⟨hred, hgreen, hblue, halpha, -⟩ := hc
  obtain ⟨r, hr, hr8⟩ := h.exists_channel8 hred
  obtain ⟨g, hg, hg8⟩ := h.exists_channel8 hgreen
  obtain ⟨b, hb, hb8⟩ := h.exists_channel8 hblue
  obtain ⟨a, ha, ha8⟩ := h.exists_alpha8 halpha
  have hquantize : c.quantize = ofBytes r g b a := by
    rw [quantize, hr8, hg8, hb8, ha8]
    rfl
  refine ⟨r, g, b, a, hr, hg, hb, ha, hquantize, ?_⟩
  rw [pack, hquantize, ha8, ← h.join hr hg, ← h.join hb ha]
  rfl

/-- Eight bits are what is left of them. -/
theorem coded_ofBytes (h : EightBit α valid) (hr : r ≤ 255) (hg : g ≤ 255) (hb : b ≤ 255)
    (ha : a ≤ 255) : (ofBytes r g b a : Color α).Coded r g b a := by
  have hquantize : (ofBytes r g b a : Color α).quantize = ofBytes r g b a := by
    unfold quantize ofBytes
    dsimp only
    rw [h.channel8_ofNat hr, h.channel8_ofNat hg, h.channel8_ofNat hb, h.alpha8_fraction ha]
  have halpha : alpha8 (ofBytes r g b a : Color α).alpha = Scalar.ofNat a := h.alpha8_fraction ha
  refine ⟨hr, hg, hb, ha, hquantize, ?_⟩
  rw [pack, hquantize, halpha, ← h.join hr hg, ← h.join hb ha]
  rfl

theorem coded_quantize (h : EightBit α valid) (hc : c.Coded r g b a) :
    c.quantize.Coded r g b a := by
  rw [hc.quantize_eq]
  exact h.coded_ofBytes hc.red_le hc.green_le hc.blue_le hc.alpha_le

theorem bytes_eq_of_pack_eq (h : EightBit α valid) (hc : c.Coded r g b a)
    (hd : d.Coded r' g' b' a') (heq : c.pack = d.pack) : r = r' ∧ g = g' ∧ b = b' ∧ a = a' := by
  have hr := hc.red_le
  have hg := hc.green_le
  have hb := hc.blue_le
  have ha := hc.alpha_le
  have hr' := hd.red_le
  have hg' := hd.green_le
  have hb' := hd.blue_le
  have ha' := hd.alpha_le
  rw [hc.pack_eq, hd.pack_eq, Packed.mk.injEq] at heq
  obtain ⟨hfirst, hsecond⟩ := heq
  have hredGreen := h.ofNat_injective (by omega) (by omega) hfirst
  have hblueAlpha := h.ofNat_injective (by omega) (by omega) hsecond
  omega

theorem roundTrips (h : EightBit α valid) (hc : ∀ x ∈ c.toList, valid x) :
    c.RoundTrips valid := by
  obtain ⟨r, g, b, a, hcoded⟩ := h.exists_coded hc
  have hpack {e : Color α} (he : ∀ x ∈ e.toList, valid x) : e.quantize.pack = e.pack := by
    obtain ⟨r', g', b', a', hcoded'⟩ := h.exists_coded he
    rw [(h.coded_quantize hcoded').pack_eq, hcoded'.pack_eq]
  have hr := hcoded.red_le
  have hg := hcoded.green_le
  have hb := hcoded.blue_le
  have ha := hcoded.alpha_le
  refine ⟨⟨r * 256 + g, b * 256 + a, by omega, by omega, hcoded.pack_eq⟩, hpack hc, ?_, ?_⟩
  · rw [(h.coded_quantize hcoded).quantize_eq, hcoded.quantize_eq]
  · intro d hd
    obtain ⟨r', g', b', a', hcoded'⟩ := h.exists_coded hd
    constructor
    · intro heq
      obtain ⟨rfl, rfl, rfl, rfl⟩ := h.bytes_eq_of_pack_eq hcoded hcoded' heq
      rw [hcoded.quantize_eq, hcoded'.quantize_eq]
    · intro heq
      rw [← hpack hc, heq, hpack hd]

end EightBit

end ShaderStyle.Color
