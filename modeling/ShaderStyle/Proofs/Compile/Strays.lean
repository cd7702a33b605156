import ShaderStyle.Proofs.Compile.Agreement

/-! What attributes and uniforms hold where a value is not one of their type: the same as where it
is missing, save for numbers that are too large for a double. -/
namespace ShaderStyle

namespace Value

/-- Whether a value can be read as one of a type. Every value counts as true or false. -/
def Suits (v : Value) : Ty → Prop
  | .number => ∃ x, v.number? = some x
  | .string => ∃ s, v = .text s
  | .color => ∃ c, Color.ofValue v = .ok c
  | .array _ => ∃ xs, v.numbers? = some xs
  | .boolean | .invalid => True

/-- Whether a value is a number kept as a text, of a magnitude that no double has. -/
def Overflows (v : Value) (negative : Bool) : Prop :=
  ∃ s, v = .numeral s ∧ Double.read s = .overflow negative

variable {v : Value} {negative : Bool}

theorem reading_eq_overflow_iff : v.reading = .overflow negative ↔ v.Overflows negative := by
  unfold Overflows
  cases v with
  | numeral s => simp [reading]
  | _ => simp [reading]

/-- A number that overflows is refused, though its reading falls back on an infinity. -/
theorem Overflows.number?_eq_none (h : v.Overflows negative) : v.number? = none := by
  unfold number?
  rw [reading_eq_overflow_iff.mpr h]
  rfl

theorem fallback_of_number?_eq_none (refused : v.number? = none)
    (h : ∀ negative, ¬v.Overflows negative) : v.reading.fallback = .finite 0 := by
  unfold number? at refused
  cases hreading : v.reading with
  | value x =>
    rw [hreading] at refused
    cases refused
  | overflow negative => exact absurd (reading_eq_overflow_iff.mp hreading) (h negative)
  | malformed => rfl

end Value

/-- The numbers where a value of the type is missing. -/
def Ty.missing : Ty → List Double
  | .number | .boolean | .invalid => [.finite 0]
  | .string => [.finite (-1)]
  | .color => [.finite 0, .finite 0]
  | .array n => List.replicate n (.finite 0)

theorem padded_nil (n : Nat) : padded n [] = List.replicate n (.finite 0) := by
  rw [padded, List.take_nil, List.nil_append, List.length_nil, Nat.sub_zero]

section

variable {v : Value} {negative : Bool} (c : Categories)

theorem encode_none (type : Ty) : encode type c none = type.missing := by
  cases type with
  | number | boolean | color | invalid => rfl
  | string =>
    have hunknown : Double.ofInt (-1) = .finite (-1) := Double.ofInt_eq_finite (by decide)
    change [Double.ofInt (-1)] = _
    rw [hunknown]
    rfl
  | array n => exact padded_nil n

theorem encode_overflow (h : v.Overflows negative) :
    encode .number c (some v) = [.infinity negative] := by
  have hreading := Value.reading_eq_overflow_iff.mpr h
  simp only [encode, Option.getD_some, hreading, NumberReading.fallback]

/-- Whatever is tried on a value that does not suit the type comes to nothing. -/
theorem encode_stray {type : Ty} (stray : ¬v.Suits type)
    (fits : ∀ negative, type = .number → ¬v.Overflows negative) :
    encode type c (some v) = type.missing := by
  cases type with
  | boolean | invalid => exact absurd trivial stray
  | number =>
    have hrefused : v.number? = none :=
      Option.eq_none_iff_forall_ne_some.mpr fun x hx => stray ⟨x, hx⟩
    have hzero := Value.fallback_of_number?_eq_none hrefused fun negative => fits negative rfl
    simp only [encode, Option.getD_some, hzero, Ty.missing]
  | string =>
    have hunknown : c.numberOf (some v) = -1 := by
      cases v with
      | text s => exact absurd ⟨s, rfl⟩ stray
      | _ => rfl
    rw [← encode_none c, Categories.encode_string, Categories.encode_string, hunknown]
    rfl
  | color =>
    cases hcolor : Color.ofValue v with
    | ok color => exact absurd ⟨color, hcolor⟩ stray
    | error e => simp only [encode, Option.getD_some, hcolor, Ty.missing]
  | array n =>
    have hrefused : v.numbers? = none :=
      Option.eq_none_iff_forall_ne_some.mpr fun xs hxs => stray ⟨xs, hxs⟩
    simp only [encode, Option.getD_some, hrefused, Option.getD_none, padded_nil, Ty.missing]

/-- Only some arrays of integers are converted. -/
example :
    encode (.array 2) {} (some (.integers .int32 [1, 2])) = [.finite 0, .finite 0] := by decide

theorem encode_array {n : Nat} {xs : List Double} (h : v.numbers? = some xs) :
    encode (.array n) c (some v) =
      xs.take n ++ List.replicate (n - xs.length) (.finite 0) := by
  simp only [encode, Option.getD_some, h, padded]

end

/-- How numbers stand for a value, which may be missing, where one of a type is due. -/
structure Ty.Stores (type : Ty) (value : Option Value) (numbers : List Double) : Prop where
  missing : value = none → numbers = type.missing
  /-- A value that is not one of the type counts as missing if it does not overflow. -/
  stray : ∀ v, value = some v → ¬v.Suits type →
    (numbers = type.missing ↔ ¬∃ negative, type = .number ∧ v.Overflows negative)
  overflow : ∀ v negative, value = some v → type = .number → v.Overflows negative →
    ¬v.Suits type ∧ numbers = [.infinity negative]
  /-- An array is cut off or filled up with zeros. -/
  array : ∀ v n xs, value = some v → type = .array n → v.numbers? = some xs →
    numbers = xs.take n ++ List.replicate (n - xs.length) (.finite 0)

theorem stores_encode (type : Ty) (c : Categories) (value : Option Value) :
    type.Stores value (encode type c value) where
  missing := by
    rintro rfl
    exact encode_none c type
  stray := by
    rintro v rfl stray
    constructor
    · rintro hmissing ⟨negative, rfl, hoverflow⟩
      rw [encode_overflow c hoverflow] at hmissing
      cases hmissing
    · intro hfits
      exact encode_stray c stray fun negative htype hoverflow =>
        hfits ⟨negative, htype, hoverflow⟩
  overflow := by
    rintro v negative rfl rfl hoverflow
    refine ⟨?_, encode_overflow c hoverflow⟩
    rintro ⟨x, hx⟩
    rw [hoverflow.number?_eq_none] at hx
    cases hx
  array := by
    rintro v n xs rfl rfl hxs
    exact encode_array c hxs

/-- In every result, attributes hold what stands for the property of a feature, and uniforms what
stands for the variable. -/
theorem result_stores (r : Result) :
    (∀ (a : Attribute) (feature : Bindings),
        a.type.Stores (feature.get? a.name) (r.attributeValue feature a)) ∧
      ∀ u : Variable, u.type.Stores (r.vars.get? u.name) (r.uniformValue u) := by
  constructor
  · intro a feature
    exact stores_encode a.type r.categories _
  · intro u
    exact stores_encode u.type r.categories _

/-- Strokes as wide as a property says. -/
private def measuredStroke : Style where
  strokeWidth := .list [.text "get", .text "width"]

/-- A width too large for a double is not read as a number, and yet does not count as missing. -/
theorem result_stores_hugeWidth :
    ∃ r log, compile measuredStroke none = (.ok r, log) ∧
      ∃ a ∈ r.attributes, a.name = "width" ∧ a.type = .number ∧
        (Value.numeral "1e999").number? = none ∧
        r.attributeValue (.ofList [("width", .numeral "1e999")]) a = [.infinity false] ∧
        r.attributeValue .empty a = [.finite 0] := by
  have hcompile : (match (compile measuredStroke none).1 with
      | .ok r => decide (∃ a ∈ r.attributes, a.name = "width" ∧ a.type = .number ∧
          (Value.numeral "1e999").number? = none ∧
          r.attributeValue (.ofList [("width", .numeral "1e999")]) a = [.infinity false] ∧
          r.attributeValue .empty a = [.finite 0])
      | .error _ => false) = true := by decide +kernel
  rcases hrun : compile measuredStroke none with ⟨outcome, log⟩
  rw [hrun] at hcompile
  cases outcome with
  | error is => cases hcompile
  | ok r => exact ⟨r, log, rfl, of_decide_eq_true hcompile⟩

end ShaderStyle
