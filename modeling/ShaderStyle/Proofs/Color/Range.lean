import ShaderStyle.Proofs.Color.Packing

/-! The channels of a color that is read from a text are in range, unless a component says NaN. -/
namespace ShaderStyle

/-- Whether a text says NaN, in upper or lower case. -/
def SaysNan (cs : List Char) : Prop := cs.map Char.toLower = "nan".toList

instance (cs : List Char) : Decidable (SaysNan cs) := inferInstanceAs (Decidable (_ = _))

namespace Double

theorem ofRat_ne_nan (x : Rat) : ofRat x ≠ .nan := by
  unfold ofRat BinaryFormat.round
  dsimp only
  split_ifs <;> exact nofun

theorem zero_ne_nan (negative : Bool) : zero negative ≠ .nan := by
  cases negative <;> exact nofun

theorem scaled_ne_nan (radix : Nat) (negative : Bool) (s : Numeral.Scaled) :
    s.reading radix negative ≠ .value .nan := by
  unfold Numeral.Scaled.reading
  dsimp only
  split_ifs
  · simp [zero_ne_nan]
  · exact nofun
  · simp [zero_ne_nan]
  all_goals
    split
    · exact nofun
    · simp [ofRat_ne_nan]

theorem word?_eq_nan_iff (cs : List Char) : Numeral.word? cs = some .nan ↔ SaysNan cs := by
  unfold Numeral.word? SaysNan
  dsimp only
  split
  · next hinfinity =>
    constructor
    · exact nofun
    · intro hnan
      rw [hnan] at hinfinity
      exact absurd hinfinity (by decide)
  · split
    · next hnan => exact iff_of_true rfl hnan
    · next hother => exact iff_of_false nofun hother

/-- Only the word for it is read as a NaN. -/
theorem read_eq_nan_iff (s : String) : read s = .value .nan ↔ SaysNan s.toList := by
  rw [← word?_eq_nan_iff]
  unfold read
  dsimp only
  split
  · next x hword => rw [hword, NumberReading.value.injEq, Option.some.injEq]
  · next hword =>
    rw [hword]
    split
    · exact iff_of_false nofun nofun
    · split
      · exact iff_of_false (scaled_ne_nan _ _ _) nofun
      · exact iff_of_false nofun nofun

theorem add_nan (x : Double) : add x .nan = .nan := by
  cases x <;> rfl

end Double

namespace Color

/-- Whether a number is an integer of eight bits. -/
def IsChannel (x : Double) : Prop := ∃ n : Nat, n ≤ 255 ∧ x = .finite n

/-- Whether a number is one from 0 to 1. -/
def IsAlpha (x : Double) : Prop := ∃ a : Rat, 0 ≤ a ∧ a ≤ 1 ∧ x = .finite a

/-- Whether a number is an integer of sixteen bits. -/
def IsWord (x : Double) : Prop := ∃ n : Nat, n ≤ 65535 ∧ x = .finite n

structure InRange (c : Rgba) : Prop where
  red : IsChannel c.red
  green : IsChannel c.green
  blue : IsChannel c.blue
  alpha : IsAlpha c.alpha

structure Packed.InRange (p : Packed Double) : Prop where
  redGreen : IsWord p.redGreen
  blueAlpha : IsWord p.blueAlpha

section

variable {c : Rgba} {x : Double}

theorem isChannel_channel8_iff : IsChannel (channel8 x) ↔ x ≠ .nan := by
  refine ⟨?_, exists_channel8⟩
  rintro ⟨n, -, h⟩ rfl
  rw [channel8_nan] at h
  cases h

theorem isAlpha_clamp_iff : IsAlpha (clamp 0 1 x) ↔ x ≠ .nan := by
  constructor
  · rintro ⟨a, -, -, h⟩ rfl
    rw [clamp_nan (by decide) (by decide)] at h
    cases h
  · intro hx
    obtain ⟨q, hq⟩ : ∃ q : Rat, clamp 0 1 x = .finite (clamp 0 1 q) :=
      exists_clamp (by decide) (by decide) hx
    exact ⟨clamp 0 1 q, by exact_mod_cast le_clamp (by decide), by exact_mod_cast clamp_le 0 1, hq⟩

theorem OfBytes.inRange (h : OfBytes c) : c.InRange := by
  obtain ⟨r, g, b, a, hr, hg, hb, ha, rfl⟩ := h
  have hchannel {n : Nat} (hn : n ≤ 255) : IsChannel (Double.ofNat n) :=
    ⟨n, hn, Double.ofNat_eq_finite (by omega)⟩
  obtain ⟨y, hy, hlow, hhigh, -⟩ := exists_fraction ha
  exact ⟨hchannel hr, hchannel hg, hchannel hb, y, hlow, hhigh, hy⟩

theorem pack_eq (c : Rgba) : c.pack =
    ⟨.add (.mul (channel8 c.red) (.ofNat 256)) (channel8 c.green),
      .add (.mul (channel8 c.blue) (.ofNat 256)) (alpha8 c.alpha)⟩ := rfl

theorem InRange.notMem (h : c.InRange) : Double.nan ∉ c.toList := by
  obtain ⟨⟨r, -, hr⟩, ⟨g, -, hg⟩, ⟨b, -, hb⟩, a, -, -, ha⟩ := h
  simp [Color.toList, hr, hg, hb, ha]

theorem InRange.pack (h : c.InRange) : c.pack.InRange := by
  have hvalid : ∀ x ∈ c.toList, x ≠ .nan := fun x hx hnan => h.notMem (hnan ▸ hx)
  obtain ⟨p, q, hp, hq, hpack⟩ := (eightBit_double.roundTrips hvalid).words
  rw [hpack]
  exact ⟨⟨p, hp, Double.ofNat_eq_finite (by omega)⟩, q, hq, Double.ofNat_eq_finite (by omega)⟩

/-- A NaN in a color is one in the packed color. -/
theorem Packed.InRange.notMem (h : c.pack.InRange) : Double.nan ∉ c.toList := by
  obtain ⟨⟨n, -, hredGreen⟩, m, -, hblueAlpha⟩ := h
  rw [pack_eq] at hredGreen hblueAlpha
  intro hmem
  simp only [Color.toList, List.mem_cons, List.not_mem_nil, or_false] at hmem
  rcases hmem with hnan | hnan | hnan | hnan
  · rw [← hnan, channel8_nan] at hredGreen
    cases hredGreen
  · rw [← hnan, channel8_nan, Double.add_nan] at hredGreen
    cases hredGreen
  · rw [← hnan, channel8_nan] at hblueAlpha
    cases hblueAlpha
  · have halpha : alpha8 Double.nan = .nan := by
      change Double.round (.mul (clamp 0 1 Double.nan) (.ofNat 255)) = .nan
      rw [clamp_nan (by decide) (by decide)]
      rfl
    rw [← hnan, halpha, Double.add_nan] at hblueAlpha
    cases hblueAlpha

theorem inRange_mk_iff {r g b a : Double} :
    InRange ⟨r, g, b, a⟩ ↔ IsChannel r ∧ IsChannel g ∧ IsChannel b ∧ IsAlpha a :=
  ⟨fun h => ⟨h.red, h.green, h.blue, h.alpha⟩, fun ⟨hr, hg, hb, ha⟩ => ⟨hr, hg, hb, ha⟩⟩

/-- Components come out in range, and a NaN as a NaN. -/
theorem inRange_of_components {s : String} {xs : List Double} (h : ofComponents s xs = .ok c) :
    (c.InRange ↔ .nan ∉ xs) ∧ (.nan ∈ xs → .nan ∈ c.toList) := by
  have halpha : clamp 0 1 Double.nan = .nan := clamp_nan (by decide) (by decide)
  have hsolid : IsAlpha (Scalar.ofNat 1) :=
    ⟨1, by norm_num, le_refl _, Double.ofNat_eq_finite (n := 1) (by decide)⟩
  unfold ofComponents at h
  split at h
  · cases h
    rw [inRange_mk_iff, isChannel_channel8_iff, isChannel_channel8_iff, isChannel_channel8_iff]
    constructor
    · simp [hsolid, eq_comm]
    · simp only [List.mem_cons, List.not_mem_nil, or_false, Color.toList]
      rintro (rfl | rfl | rfl) <;> simp [channel8_nan]
  · cases h
    rw [inRange_mk_iff, isChannel_channel8_iff, isChannel_channel8_iff, isChannel_channel8_iff,
      isAlpha_clamp_iff]
    constructor
    · simp [eq_comm]
    · simp only [List.mem_cons, List.not_mem_nil, or_false, Color.toList]
      rintro (rfl | rfl | rfl | rfl) <;> simp [channel8_nan, halpha]
  · cases h

/-- There is a NaN where a component says so. -/
theorem ReadFrom.nan_mem_iff {parts : List (List Char)} {xs : List Double}
    (h : ReadFrom parts xs) : .nan ∈ xs ↔ ∃ part ∈ parts, SaysNan part := by
  induction h with
  | nil => simp
  | @cons part x parts xs hpart _ ih =>
    have hfirst : x = .nan ↔ SaysNan part := by
      rw [← String.toList_ofList (l := part), ← Double.read_eq_nan_iff, hpart,
        NumberReading.value.injEq]
    simp only [List.mem_cons, exists_eq_or_imp]
    rw [ih, ← hfirst, eq_comm]

end

/-- The components of a text as it is read, trimmed and in lower case. -/
def componentsOf (s : String) : List (List Char) :=
  componentTexts (Text.lower (Text.trim s)).toList

/-- A text without components is a name or hexadecimal digits, unless nothing is read from it. -/
theorem ofBytes_of_componentsOf {s : String} {c : Rgba} (h : ofText s = .ok c)
    (hnone : componentsOf s = []) : OfBytes c := by
  rcases ofNormalized_cases h with ⟨-, hbytes⟩ | ⟨xs, hread, hcomponents⟩
  · exact hbytes
  · unfold componentsOf at hnone
    rw [hnone] at hread
    cases hread
    cases hcomponents

/-- A color that is read from a text is in range, and so is the packed color, if and only if no
component says NaN. -/
theorem ofText_inRange_iff {s : String} {c : Rgba} (h : ofText s = .ok c) :
    (c.InRange ↔ ∀ part ∈ componentsOf s, ¬SaysNan part) ∧
      (c.pack.InRange ↔ ∀ part ∈ componentsOf s, ¬SaysNan part) := by
  unfold componentsOf
  rcases ofNormalized_cases h with ⟨hnone, hbytes⟩ | ⟨xs, hread, hcomponents⟩
  · have hrange := hbytes.inRange
    rw [hnone]
    exact ⟨iff_of_true hrange (by simp), iff_of_true hrange.pack (by simp)⟩
  · obtain ⟨hrange, hkept⟩ := inRange_of_components hcomponents
    have hnan : .nan ∉ xs ↔
        ∀ part ∈ componentTexts (Text.lower (Text.trim s)).toList, ¬SaysNan part := by
      rw [hread.nan_mem_iff]
      push Not
      rfl
    rw [← hnan]
    refine ⟨hrange, fun hpacked hmem => hpacked.notMem (hkept hmem), fun hmem => ?_⟩
    exact (hrange.mpr hmem).pack

theorem ofText_eq_ok {s normal : String} {c : Rgba}
    (hnormal : Text.lower (Text.trim s) = normal) (h : (ofNormalized normal).toOption = some c) :
    ofText s = .ok c := by
  unfold ofText
  rw [hnormal]
  cases hread : ofNormalized normal with
  | error e =>
    rw [hread] at h
    cases h
  | ok color =>
    rw [hread] at h
    cases h
    rfl

/-- Large, negative and infinite components are in range. -/
theorem ofText_inRange_iff_spread :
    ∃ c, ofText "RGBA(1e9 -0x1p4,inf/.5)" = .ok c ∧
      c = ⟨.finite 255, .finite 0, .finite 255, .finite (1 / 2)⟩ ∧ c.InRange ∧ c.pack.InRange := by
  have hnormal : Text.lower (Text.trim "RGBA(1e9 -0x1p4,inf/.5)") = "rgba(1e9 -0x1p4,inf/.5)" := by
    decide +kernel
  have hread := ofText_eq_ok (c := ⟨.finite 255, .finite 0, .finite 255, .finite (1 / 2)⟩) hnormal
    (by decide +kernel)
  obtain ⟨hrange, hpacked⟩ := ofText_inRange_iff hread
  have hnone : ∀ part ∈ componentsOf "RGBA(1e9 -0x1p4,inf/.5)", ¬SaysNan part := by
    rw [componentsOf, hnormal]
    decide +kernel
  exact ⟨_, hread, rfl, hrange.mpr hnone, hpacked.mpr hnone⟩

/-- A NaN is neither rounded nor clamped. -/
theorem ofText_inRange_iff_nan :
    ∃ c, ofText "rgb(nan, 0, 0)" = .ok c ∧ c.red = .nan ∧ c.pack.redGreen = .nan ∧
      ¬c.InRange ∧ ¬c.pack.InRange := by
  have hnormal : Text.lower (Text.trim "rgb(nan, 0, 0)") = "rgb(nan, 0, 0)" := by decide +kernel
  have hread := ofText_eq_ok (c := ⟨.nan, .finite 0, .finite 0, .finite 1⟩) hnormal
    (by decide +kernel)
  refine ⟨_, hread, rfl, by decide +kernel, fun h => ?_, fun h => h.notMem (by decide)⟩
  obtain ⟨n, -, hred⟩ := h.red
  cases hred

end Color

end ShaderStyle
