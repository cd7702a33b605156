import ShaderStyle.Proofs.Glsl.Spelling

/-! Number literals: a sign if any, digits, a point and digits. -/
namespace ShaderStyle

namespace Decimal

theorem positional_eq (d : Decimal) :
    d.positional =
      if d.point ≤ 0 then
        String.ofList ('0' :: '.' :: List.replicate (-d.point).toNat '0' ++ d.digits)
      else if d.digits.length ≤ d.point.toNat then
        String.ofList (d.digits ++ List.replicate (d.point.toNat - d.digits.length) '0')
      else String.ofList (d.digits.take d.point.toNat ++ '.' :: d.digits.drop d.point.toNat) :=
  rfl

theorem isDigit_of_mem_digits {d : Decimal} {c : Char} (h : c ∈ d.digits) : c.isDigit = true :=
  Nat.isDigit_of_mem_toDigits (by decide) (by decide) h

theorem digits_ne_nil (d : Decimal) : d.digits ≠ [] := Nat.toDigits_ne_nil

/-- Positional notation is a decimal, or digits alone for an integer. -/
theorem positional_cases (d : Decimal) :
    Glsl.Token.IsDecimal d.positional ∨
      (d.positional.toList ≠ [] ∧ ∀ c ∈ d.positional.toList, c.isDigit = true) := by
  have hzeros {n : Nat} : ∀ c ∈ List.replicate n '0', c.isDigit = true := by
    intro c hc
    obtain ⟨-, rfl⟩ := List.mem_replicate.mp hc
    rfl
  rw [positional_eq]
  split
  · left
    refine ⟨['0'], List.replicate (-d.point).toNat '0' ++ d.digits, by simp, ?_, ?_, ?_, by simp⟩
    · simp [d.digits_ne_nil]
    · simp [Char.isDigit]
    · intro c hc
      rcases List.mem_append.mp hc with hc | hc
      · exact hzeros c hc
      · exact isDigit_of_mem_digits hc
  · next hpoint =>
    split
    · right
      rw [String.toList_ofList]
      refine ⟨by simp [d.digits_ne_nil], fun c hc => ?_⟩
      rcases List.mem_append.mp hc with hc | hc
      · exact isDigit_of_mem_digits hc
      · exact hzeros c hc
    · next hlength =>
      left
      refine ⟨d.digits.take d.point.toNat, d.digits.drop d.point.toNat, ?_, ?_, ?_, ?_,
        String.toList_ofList⟩
      · rw [Ne, List.take_eq_nil_iff]
        have hne := d.digits_ne_nil
        have hpos : d.point.toNat ≠ 0 := by omega
        simp [hne, hpos]
      · rw [Ne, List.drop_eq_nil_iff]
        exact hlength
      · exact fun c hc => isDigit_of_mem_digits (List.mem_of_mem_take hc)
      · exact fun c hc => isDigit_of_mem_digits (List.mem_of_mem_drop hc)

end Decimal

namespace Glsl

/-- A text of digits that is given a fraction if it has none. -/
theorem isDecimal_completed {text : String}
    (h : Token.IsDecimal text ∨ (text.toList ≠ [] ∧ ∀ c ∈ text.toList, c.isDigit = true)) :
    Token.IsDecimal (if text.toList.contains '.' then text else text ++ ".0") := by
  rcases h with h | ⟨hne, hdigits⟩
  · obtain ⟨whole, fraction, -, -, -, -, htext⟩ := id h
    have hdot : text.toList.contains '.' = true := by simp [htext]
    rw [if_pos hdot]
    exact h
  · have hdot : ¬ text.toList.contains '.' = true := by
      intro hmem
      have hd := hdigits '.' (by simpa using hmem)
      cases hd
    rw [if_neg hdot]
    refine ⟨text.toList, ['0'], hne, by simp, hdigits, by simp [Char.isDigit], ?_⟩
    rw [String.toList_append]
    rfl

/-- The literal of a finite number, with a minus sign in front or without one. -/
theorem numberText_cases {x : Double} (h : x.isFinite = true) :
    Token.IsDecimal (numberText x) ∨
      ∃ digits, Token.IsDecimal digits ∧ numberText x = "-" ++ digits := by
  have hplus (d : Decimal) (hx : x.positional = d.positional) :
      Token.IsDecimal (numberText x) := by
    rw [numberText, hx]
    exact isDecimal_completed d.positional_cases
  have hminus (d : Decimal) (hx : x.positional = "-" ++ d.positional) :
      ∃ digits, Token.IsDecimal digits ∧ numberText x = "-" ++ digits := by
    refine ⟨_, isDecimal_completed d.positional_cases, ?_⟩
    have hdot : ("-" ++ d.positional).toList.contains '.' = d.positional.toList.contains '.' := by
      simp
    rw [numberText, hx]
    rw [hdot]
    split
    · rfl
    · rw [String.append_assoc]
  cases x with
  | nan => cases h
  | infinity => cases h
  | negativeZero => exact Or.inr (hminus ⟨0, 0⟩ rfl)
  | finite x =>
    by_cases hzero : x = 0
    · exact Or.inl (hplus ⟨0, 0⟩ (by simp [Double.positional, Double.textIn, hzero]))
    · by_cases hneg : x < 0
      · refine Or.inr (hminus (BinaryFormat.binary64.shortest (-x)) ?_)
        simp [Double.positional, Double.textIn, hzero, hneg]
      · refine Or.inl (hplus (BinaryFormat.binary64.shortest x) ?_)
        simp [Double.positional, Double.textIn, hzero, hneg]

/-- The nesting of a literal: a minus sign is applied to the digits. -/
def Tree.literal (x : Double) : Tree :=
  match (numberText x).toList with
  | '-' :: digits => .negate (.number (.ofList digits))
  | digits => .number (.ofList digits)

theorem Tree.literal_of_decimal {x : Double} (h : Token.IsDecimal (numberText x)) :
    Tree.literal x = .number (numberText x) := by
  obtain ⟨whole, fraction, hne, -, hdigits, -, htext⟩ := h
  unfold Tree.literal
  split
  · next digits heq =>
    rw [htext] at heq
    obtain ⟨first, rest, rfl⟩ := List.exists_cons_of_ne_nil hne
    obtain ⟨rfl, -⟩ := List.cons.inj heq
    cases hdigits '-' (by simp)
  · rw [String.ofList_toList]

theorem Tree.literal_of_negative {x : Double} {digits : String} (h : numberText x = "-" ++ digits) :
    Tree.literal x = .negate (.number digits) := by
  have hlist : (numberText x).toList = '-' :: digits.toList := by
    rw [h, String.toList_append]
    rfl
  unfold Tree.literal
  rw [hlist]
  change Tree.negate (.number (.ofList digits.toList)) = _
  rw [String.ofList_toList]

theorem Spells.literal {x : Double} (h : x.isFinite = true) :
    Spells 1 (numberText x) (.literal x) := by
  rcases numberText_cases h with hdecimal | ⟨digits, hdecimal, htext⟩
  · rw [Tree.literal_of_decimal hdecimal]
    exact (Spells.decimal hdecimal).of_le (by decide) (by decide)
  · rw [Tree.literal_of_negative htext, htext]
    exact Spells.negative hdecimal

end Glsl

end ShaderStyle
