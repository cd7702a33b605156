import Mathlib.Data.List.Nodup
import ShaderStyle.Categories

/-! Numbers of texts while their table grows. -/
namespace ShaderStyle.Categories

variable {c c' : Categories} {s : String}

/-- The number of a text that no later registration changes. -/
def Settled (c : Categories) (s : String) : Prop := c.frozen = true ∨ s ∈ c.names

/-- A table with more texts at its end, and none more when it is frozen. -/
structure Grows (c c' : Categories) : Prop where
  frozen : c.frozen = true → c'.frozen = true
  names : c.names <+: c'.names
  kept : c.frozen = true → c'.names = c.names

theorem Grows.refl : Grows c c := ⟨id, List.prefix_refl _, fun _ => rfl⟩

theorem Grows.trans {c'' : Categories} (h : Grows c c') (h' : Grows c' c'') : Grows c c'' where
  frozen hf := h'.frozen (h.frozen hf)
  names := h.names.trans h'.names
  kept hf := (h'.kept (h.frozen hf)).trans (h.kept hf)

theorem grows_register (c : Categories) (s : String) : Grows c (c.register s) := by
  unfold register
  split
  · exact .refl
  · next h =>
    have hf : c.frozen = false := by
      cases hfrozen : c.frozen with
      | false => rfl
      | true => simp [hfrozen] at h
    refine ⟨id, List.prefix_append _ _, fun hf' => ?_⟩
    rw [hf] at hf'
    cases hf'

theorem grows_freeze (c : Categories) : Grows c c.freeze :=
  ⟨fun _ => rfl, List.prefix_refl _, fun _ => rfl⟩

theorem settled_register (c : Categories) (s : String) : (c.register s).Settled s := by
  unfold register
  split
  · next h => simpa [Settled] using h
  · exact Or.inr (by simp)

theorem index?_eq_none_iff : c.index? s = none ↔ s ∉ c.names := by
  simp only [index?, List.findIdx?_eq_none_iff, beq_eq_false_iff_ne]
  constructor
  · intro h hmem
    exact h s hmem rfl
  · intro h t ht heq
    exact h (heq ▸ ht)

/-- A text has a number of its own when it is in the table. -/
theorem number_nonneg_iff : 0 ≤ c.number s ↔ s ∈ c.names := by
  unfold number
  cases h : c.index? s with
  | none =>
    have hmem : s ∉ c.names := index?_eq_none_iff.mp h
    simp [hmem]
  | some i =>
    have hmem : s ∈ c.names := by
      by_contra hmem
      rw [index?_eq_none_iff.mpr hmem] at h
      cases h
    simp [hmem]

theorem Grows.settled (h : Grows c c') (hs : c.Settled s) : c'.Settled s := by
  rcases hs with hf | hmem
  · exact Or.inl (h.frozen hf)
  · exact Or.inr (h.names.subset hmem)

/-- The number of a settled text stays. -/
theorem Grows.number_eq (h : Grows c c') (hs : c.Settled s) : c'.number s = c.number s := by
  rcases hs with hf | hmem
  · rw [number, number, index?, index?, h.kept hf]
  · obtain ⟨extra, hextra⟩ := h.names
    have hsome : (c.names.findIdx? (· == s)).isSome = true := by
      rw [List.findIdx?_isSome]
      exact List.any_eq_true.mpr ⟨s, hmem, by simp⟩
    obtain ⟨i, hi⟩ := Option.isSome_iff_exists.mp hsome
    rw [number, number, index?, index?, ← hextra, List.findIdx?_append, hi]
    rfl

theorem register_of_frozen (h : c.frozen = true) (s : String) : c.register s = c := by
  simp [register, h]

theorem nodup_register (h : c.names.Nodup) (s : String) : (c.register s).names.Nodup := by
  unfold register
  split
  · exact h
  · next hs =>
    have hnew : s ∉ c.names := by
      intro hmem
      simp [hmem] at hs
    exact List.nodup_append.mpr ⟨h, List.nodup_singleton s, fun t ht u hu => by
      rw [List.mem_singleton.mp hu]
      rintro rfl
      exact hnew ht⟩

theorem frozen_register (c : Categories) (s : String) : (c.register s).frozen = c.frozen := by
  unfold register
  split
  · rfl
  · rfl

theorem mem_names_register (h : c.frozen = false) {t : String} :
    t ∈ (c.register s).names ↔ t ∈ c.names ∨ t = s := by
  unfold register
  by_cases hs : s ∈ c.names
  · rw [if_pos (by simp [hs])]
    constructor
    · exact Or.inl
    · rintro (ht | rfl)
      · exact ht
      · exact hs
  · rw [if_neg (by simp [h, hs])]
    simp

/-- The table after several registrations. -/
def registerEach (c : Categories) (texts : List String) : Categories := texts.foldl register c

theorem registerEach_append (c : Categories) (texts texts' : List String) :
    c.registerEach (texts ++ texts') = (c.registerEach texts).registerEach texts' :=
  List.foldl_append

theorem grows_registerEach (c : Categories) (texts : List String) :
    c.Grows (c.registerEach texts) := by
  induction texts generalizing c with
  | nil => exact .refl
  | cons s texts ih => exact (grows_register c s).trans (ih (c.register s))

theorem nodup_registerEach (h : c.names.Nodup) (texts : List String) :
    (c.registerEach texts).names.Nodup := by
  induction texts generalizing c with
  | nil => exact h
  | cons s texts ih => exact ih (nodup_register h s)

theorem frozen_registerEach (c : Categories) (texts : List String) :
    (c.registerEach texts).frozen = c.frozen := by
  induction texts generalizing c with
  | nil => rfl
  | cons s texts ih => exact (ih (c.register s)).trans (frozen_register c s)

theorem mem_names_registerEach (h : c.frozen = false) {texts : List String} {t : String} :
    t ∈ (c.registerEach texts).names ↔ t ∈ c.names ∨ t ∈ texts := by
  induction texts generalizing c with
  | nil => simp [registerEach]
  | cons s texts ih =>
    have hfrozen : (c.register s).frozen = false := (frozen_register c s).trans h
    rw [registerEach, List.foldl_cons, ← registerEach, ih hfrozen, mem_names_register h,
      List.mem_cons, or_assoc]

/-- The texts of a table are numbered in their order. -/
theorem number_getElem (h : c.names.Nodup) {i : Nat} (hi : i < c.names.length) :
    c.number c.names[i] = i := by
  have hindex : c.index? c.names[i] = some i := by
    rw [index?, List.findIdx?_eq_some_iff_getElem]
    refine ⟨hi, by simp, fun j hj => ?_⟩
    have hne : c.names[j] ≠ c.names[i] := fun heq =>
      absurd ((List.Nodup.getElem_inj_iff h).mp heq) (by omega)
    simpa using hne
  rw [number, hindex]

/-- A text of the table shares its number with no other text. -/
theorem number_eq_iff (hs : s ∈ c.names) {t : String} : c.number t = c.number s ↔ t = s := by
  constructor
  · intro heq
    have ht : t ∈ c.names := by
      rw [← number_nonneg_iff, heq, number_nonneg_iff]
      exact hs
    cases hindex : c.index? s with
    | none => exact absurd hs (index?_eq_none_iff.mp hindex)
    | some i =>
      cases hindex' : c.index? t with
      | none => exact absurd ht (index?_eq_none_iff.mp hindex')
      | some j =>
        rw [number, number, hindex, hindex'] at heq
        obtain rfl : j = i := Int.ofNat_inj.mp heq
        obtain ⟨_, hsame, -⟩ := List.findIdx?_eq_some_iff_getElem.mp hindex
        obtain ⟨_, hsame', -⟩ := List.findIdx?_eq_some_iff_getElem.mp hindex'
        exact (eq_of_beq hsame').symm.trans (eq_of_beq hsame)
  · rintro rfl
    rfl

end ShaderStyle.Categories
