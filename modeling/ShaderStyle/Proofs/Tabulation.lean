import Mathlib.Data.List.Induction
import Mathlib.Data.List.Nodup
import ShaderStyle.Proofs.OrderedMap

/-! Maps that list what was asked for, in the order of the first occurrences. -/
namespace ShaderStyle

section FirstOccurrences

variable {α : Type} [BEq α] [LawfulBEq α]

theorem eraseDups_concat_of_mem {xs : List α} {x : α} (h : x ∈ xs) :
    (xs ++ [x]).eraseDups = xs.eraseDups := by
  have hnone : [x].removeAll xs = [] := by simp [List.removeAll, h]
  rw [List.eraseDups_append, hnone, List.eraseDups_nil, List.append_nil]

theorem eraseDups_concat_of_notMem {xs : List α} {x : α} (h : x ∉ xs) :
    (xs ++ [x]).eraseDups = xs.eraseDups ++ [x] := by
  have hone : [x].removeAll xs = [x] := by simp [List.removeAll, h]
  rw [List.eraseDups_append, hone, List.eraseDups_cons]
  rfl

theorem nodup_eraseDups (xs : List α) : xs.eraseDups.Nodup := by
  induction xs using List.reverseRecOn with
  | nil => exact List.nodup_nil
  | append_singleton xs x ih =>
    by_cases h : x ∈ xs
    · rw [eraseDups_concat_of_mem h]
      exact ih
    · rw [eraseDups_concat_of_notMem h]
      refine List.nodup_append.mpr ⟨ih, List.nodup_singleton x, fun y hy z hz => ?_⟩
      rw [List.mem_singleton.mp hz]
      rintro rfl
      exact h (List.mem_eraseDups.mp hy)

/-- First occurrences seen through a function that tells the elements apart. -/
theorem map_eraseDups {β : Type} [BEq β] [LawfulBEq β] {f : α → β} {xs : List α}
    (inj : ∀ x ∈ xs, ∀ y ∈ xs, f x = f y → x = y) :
    xs.eraseDups.map f = (xs.map f).eraseDups := by
  induction xs using List.reverseRecOn with
  | nil => rfl
  | append_singleton xs x ih =>
    have hrest := ih fun y hy z hz => inj y (by simp [hy]) z (by simp [hz])
    rw [List.map_append, List.map_singleton]
    by_cases h : x ∈ xs
    · rw [eraseDups_concat_of_mem h, eraseDups_concat_of_mem (List.mem_map_of_mem h), hrest]
    · have hnew : f x ∉ xs.map f := by
        intro hmem
        obtain ⟨y, hy, heq⟩ := List.mem_map.mp hmem
        exact h (inj y (by simp [hy]) x (by simp) heq ▸ hy)
      rw [eraseDups_concat_of_notMem h, eraseDups_concat_of_notMem hnew, List.map_append, hrest]
      rfl

end FirstOccurrences

namespace OrderedMap

variable {α β : Type} [BEq α] [LawfulBEq α]

/-- The map has one entry for each of the uses, in the order of their first occurrences. -/
def Tabulates (m : OrderedMap String β) (key : α → String) (value : α → β) (uses : List α) : Prop :=
  m.entries = uses.eraseDups.map fun p => (key p, value p)

namespace Tabulates

variable {m : OrderedMap String β} {key : α → String} {value value' : α → β} {uses : List α} {q : α}

omit [LawfulBEq α] in
theorem values (h : m.Tabulates key value uses) : m.values = uses.eraseDups.map value := by
  rw [OrderedMap.values, h, List.map_map]
  rfl

theorem get?_eq_none (h : m.Tabulates key value uses) {k : String} :
    m.get? k = none ↔ ∀ p ∈ uses, key p ≠ k := by
  rw [get?, h, List.lookup_eq_none_iff]
  simp only [List.mem_map, List.mem_eraseDups, forall_exists_index, and_imp,
    forall_apply_eq_imp_iff₂, bne_iff_ne, ne_eq]
  constructor
  · intro hne p hp heq
    exact hne p hp heq.symm
  · intro hne p hp heq
    exact hne p hp heq.symm

theorem get?_eq_some (h : m.Tabulates key value uses) {k : String} {v : β}
    (found : m.get? k = some v) : ∃ p ∈ uses, key p = k ∧ value p = v := by
  have hmem := mem_entries_of_get? found
  rw [h] at hmem
  obtain ⟨p, hp, heq⟩ := List.mem_map.mp hmem
  cases heq
  exact ⟨p, List.mem_eraseDups.mp hp, rfl, rfl⟩

theorem get?_key (h : m.Tabulates key value uses)
    (inj : ∀ p ∈ uses, ∀ q ∈ uses, key p = key q → p = q) (hq : q ∈ uses) :
    m.get? (key q) = some (value q) := by
  cases found : m.get? (key q) with
  | none => exact absurd rfl (h.get?_eq_none.mp found q hq)
  | some v =>
    obtain ⟨p, hp, hkey, rfl⟩ := h.get?_eq_some found
    rw [inj p hp q hq hkey]

/-- What is listed already stays where it is. -/
theorem known (h : m.Tabulates key value uses) (hq : q ∈ uses) :
    m.Tabulates key value (uses ++ [q]) := by
  rw [Tabulates, eraseDups_concat_of_mem hq]
  exact h

/-- What is new comes last. -/
theorem insert (h : m.Tabulates key value uses) (new : ∀ p ∈ uses, key p ≠ key q) :
    (m.insert (key q) (value q)).Tabulates key value (uses ++ [q]) := by
  have hnone : m.get? (key q) = none := h.get?_eq_none.mpr new
  have hq : q ∉ uses := fun hq => new q hq rfl
  rw [Tabulates, entries_insert_new hnone, h, eraseDups_concat_of_notMem hq, List.map_append]
  rfl

theorem congr (h : m.Tabulates key value uses) (same : ∀ p ∈ uses, value p = value' p) :
    m.Tabulates key value' uses := by
  rw [Tabulates, h]
  refine List.map_congr_left fun p hp => ?_
  rw [same p (List.mem_eraseDups.mp hp)]

/-- A new value for something listed. -/
theorem update (h : m.Tabulates key value uses)
    (inj : ∀ p ∈ uses, ∀ q ∈ uses, key p = key q → p = q) (hq : q ∈ uses)
    (same : ∀ p ∈ uses, p ≠ q → value p = value' p) :
    (m.insert (key q) (value' q)).Tabulates key value' uses := by
  have hsome : m.contains (key q) = true := by
    rw [contains, h.get?_key inj hq]
    rfl
  rw [Tabulates, OrderedMap.insert, if_pos hsome, h, List.map_map]
  refine List.map_congr_left fun p hp => ?_
  have hp := List.mem_eraseDups.mp hp
  by_cases heq : p = q
  · subst heq
    simp
  · have hkey : key p ≠ key q := fun hkey => heq (inj p hp q hq hkey)
    simp [hkey, same p hp heq]

/-- A key that is not listed may as well be left out. -/
theorem leaveOut {others : List String} {k : String}
    (h : (m.without others).Tabulates key value uses) (hk : ∀ p ∈ uses, key p ≠ k) :
    (m.without (k :: others)).Tabulates key value uses := by
  have hentries : (m.without (k :: others)).entries =
      (m.without others).entries.filter fun e => e.1 ≠ k := by
    simp only [without, List.filter_filter, List.mem_cons, not_or, Bool.decide_and]
  rw [Tabulates, hentries, h, List.filter_eq_self]
  simpa using hk

end Tabulates

end OrderedMap

end ShaderStyle
