import ShaderStyle.OrderedMap

/-! Lookup in maps that keep the order of insertion. -/
namespace ShaderStyle.OrderedMap

variable {κ α : Type} [BEq κ] [LawfulBEq κ]

theorem lookup_map_other {entries : List (κ × α)} {k k' : κ} (v : α) (hne : k' ≠ k) :
    (entries.map fun e => if e.1 == k then (e.1, v) else e).lookup k' = entries.lookup k' := by
  induction entries with
  | nil => rfl
  | cons e entries ih =>
    obtain ⟨a, b⟩ := e
    rw [List.map_cons]
    by_cases ha : a = k
    · subst ha
      have hb : (k' == a) = false := by simpa using hne
      simp [List.lookup_cons, hb, ih]
    · have hb : (a == k) = false := by simpa using ha
      cases hk : (k' == a) with
      | true => simp [List.lookup_cons, hb, hk]
      | false => simp [List.lookup_cons, hb, hk, ih]

theorem lookup_map_self {entries : List (κ × α)} {k : κ} (v : α)
    (hk : (entries.lookup k).isSome = true) :
    (entries.map fun e => if e.1 == k then (e.1, v) else e).lookup k = some v := by
  induction entries with
  | nil => cases hk
  | cons e entries ih =>
    obtain ⟨a, b⟩ := e
    rw [List.map_cons]
    by_cases ha : a = k
    · subst ha
      simp
    · have hb : (a == k) = false := by simpa using ha
      have hb' : (k == a) = false := by simpa using Ne.symm ha
      have hrest : (entries.lookup k).isSome = true := by simpa [List.lookup_cons, hb'] using hk
      simp [List.lookup_cons, hb, hb', ih hrest]

@[simp] theorem get?_insert_self (m : OrderedMap κ α) (k : κ) (v : α) :
    (m.insert k v).get? k = some v := by
  unfold insert
  split
  · next h => exact lookup_map_self v h
  · next h =>
    have hget : m.get? k = none := by simpa [contains] using h
    have hnone : m.entries.lookup k = none := hget
    rw [get?, List.lookup_append, hnone]
    simp

theorem get?_insert_other (m : OrderedMap κ α) {k k' : κ} (v : α) (hne : k' ≠ k) :
    (m.insert k v).get? k' = m.get? k' := by
  unfold insert
  split
  · exact lookup_map_other v hne
  · have hb : (k' == k) = false := by simpa using hne
    simp [get?, List.lookup_append, List.lookup_cons, hb]

theorem get?_insert [DecidableEq κ] (m : OrderedMap κ α) (k k' : κ) (v : α) :
    (m.insert k v).get? k' = if k' = k then some v else m.get? k' := by
  by_cases h : k' = k
  · subst h
    rw [if_pos rfl, get?_insert_self]
  · rw [if_neg h, get?_insert_other m v h]

omit [LawfulBEq κ] in
theorem entries_insert_new {m : OrderedMap κ α} {k : κ} {v : α} (h : m.get? k = none) :
    (m.insert k v).entries = m.entries ++ [(k, v)] := by
  have hnone : ¬m.contains k = true := by simp [contains, h]
  rw [insert, if_neg hnone]

theorem mem_entries_of_get? {m : OrderedMap κ α} {k : κ} {v : α} (h : m.get? k = some v) :
    (k, v) ∈ m.entries := by
  obtain ⟨before, after, hentries, -⟩ := List.lookup_eq_some_iff.mp h
  rw [hentries]
  simp

theorem mem_entries_insert {m : OrderedMap κ α} {k : κ} {v : α} {e : κ × α}
    (h : e ∈ (m.insert k v).entries) : e = (k, v) ∨ e ∈ m.entries := by
  unfold insert at h
  split at h
  · obtain ⟨e', he', rfl⟩ := List.mem_map.mp h
    split
    · next hk => exact Or.inl (by rw [eq_of_beq hk])
    · exact Or.inr he'
  · rcases List.mem_append.mp h with h | h
    · exact Or.inr h
    · exact Or.inl (List.mem_singleton.mp h)

/-- The entries whose keys are not among the others. -/
def without [DecidableEq κ] (m : OrderedMap κ α) (others : List κ) : OrderedMap κ α :=
  ⟨m.entries.filter fun e => e.1 ∉ others⟩

section Without

variable [DecidableEq κ] {m : OrderedMap κ α} {others : List κ} {k : κ}

theorem get?_without (hk : k ∉ others) : (m.without others).get? k = m.get? k := by
  obtain ⟨entries⟩ := m
  change (entries.filter _).lookup k = entries.lookup k
  induction entries with
  | nil => rfl
  | cons e entries ih =>
    by_cases he : e.1 ∈ others
    · have hne : (k == e.1) = false := by
        simp only [beq_eq_false_iff_ne]
        rintro rfl
        exact hk he
      rw [List.filter_cons_of_neg (by simpa using he), ih, List.lookup_cons, hne]
    · rw [List.filter_cons_of_pos (by simpa using he), List.lookup_cons, List.lookup_cons, ih]

theorem without_insert_new (hnone : m.get? k = none) (hk : k ∉ others) (v : α) :
    (m.insert k v).without others = (m.without others).insert k v := by
  have hnone' : (m.without others).get? k = none := by rw [get?_without hk, hnone]
  have hentries : ((m.insert k v).without others).entries =
      ((m.without others).insert k v).entries := by
    rw [entries_insert_new hnone', without, entries_insert_new hnone, List.filter_append]
    simp [without, hk]
  exact congrArg OrderedMap.mk hentries

theorem without_insert_other (hnone : m.get? k = none) (hk : k ∈ others) (v : α) :
    (m.insert k v).without others = m.without others := by
  rw [without, entries_insert_new hnone, List.filter_append]
  simp [without, hk]

end Without

end ShaderStyle.OrderedMap
