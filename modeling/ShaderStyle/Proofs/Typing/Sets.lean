import ShaderStyle.Kind

/-! Membership in sets of kinds. -/
namespace ShaderStyle

namespace TypeSet

@[simp]
theorem has_inter (s t : TypeSet) (k : Kind) : (s.inter t).has k = (s.has k && t.has k) := by
  unfold has inter
  rw [BitVec.getLsbD_and]

@[simp]
theorem has_union (s t : TypeSet) (k : Kind) : (s.union t).has k = (s.has k || t.has k) := by
  unfold has union
  rw [BitVec.getLsbD_or]

@[simp]
theorem has_empty (k : Kind) : empty.has k = false := by
  cases k <;> rfl

@[simp]
theorem has_singleton (j k : Kind) : (singleton j).has k = decide (k = j) := by
  cases j <;> cases k <;> rfl

@[simp]
theorem has_numbers (k : Kind) : numbers.has k = decide (k = .number) := has_singleton _ _

@[simp]
theorem has_booleans (k : Kind) : booleans.has k = decide (k = .boolean) := has_singleton _ _

@[simp]
theorem has_ofList (ks : List Kind) (k : Kind) : (ofList ks).has k = decide (k ∈ ks) := by
  induction ks with
  | nil => simp [ofList]
  | cons j ks ih =>
    rw [ofList, List.foldr_cons, ← ofList, has_union, ih, has_singleton]
    simp

theorem has_vectors (k : Kind) : vectors.has k = k.isVector := by
  cases k <;> rfl

theorem has_mixable (k : Kind) : mixable.has k = (decide (k = .number) || k.isVector) := by
  cases k <;> rfl

/-- The kind of highest priority is one of the set. -/
theorem has_of_pick {s : TypeSet} {k : Kind} (h : s.pick = some k) : s.has k = true := by
  unfold pick at h
  obtain ⟨n, hn, hk⟩ := Option.bind_eq_some_iff.mp h
  have hmem : n ∈ s.codes := List.mem_of_head? hn
  have hcode : k.code = n := by
    unfold Kind.ofCode? at hk
    simpa using List.find?_some hk
  unfold codes at hmem
  rw [List.mem_filter, ← hcode] at hmem
  exact hmem.2

end TypeSet

namespace Ty

theorem kind?_ofKind (size : Nat) (k : Kind) : (ofKind size k).kind? = some k := by
  cases k <;> rfl

theorem has_set {t : Ty} {k : Kind} : t.set.has k = true ↔ t.kind? = some k := by
  cases t <;> cases k <;> simp [set, kind?]

end Ty

end ShaderStyle
