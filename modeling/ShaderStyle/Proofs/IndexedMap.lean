import ShaderStyle.IndexedMap
import ShaderStyle.Proofs.OrderedMap.History

/-! The index of an ordered map agrees with its list: after any calls the keys and both tables tell
the same as the list of entries that `OrderedMap` keeps. -/
namespace ShaderStyle.IndexedMap

open OrderedMap (Call LastStored)

variable {κ α : Type} [DecidableEq κ]

/-- The list of keys and both tables answer as a list of entries. -/
structure Represents (m : IndexedMap κ α) (l : OrderedMap κ α) : Prop where
  keys : m.keys = l.keys
  positions (k : κ) : m.positions k = l.index? k
  table (k : κ) : m.table k = l.get? k

theorem represents_empty : (empty : IndexedMap κ α).Represents .empty where
  keys := rfl
  positions _ := rfl
  table _ := rfl

namespace Represents

variable {m m' : IndexedMap κ α} {l : OrderedMap κ α}

theorem isSome_table_iff (h : m.Represents l) {k : κ} :
    (m.table k).isSome = true ↔ k ∈ l.keys := by
  rw [h.table, ← OrderedMap.contains, OrderedMap.contains_iff]

theorem table_eq_none_iff (h : m.Represents l) {k : κ} : m.table k = none ↔ k ∉ l.keys := by
  rw [h.table, OrderedMap.get?_eq_none_iff]

theorem set_table (h : m.Represents l) (k : κ) (v : α) (other : κ) :
    set m.table k v other = (l.insert k v).get? other := by
  rw [OrderedMap.get?_insert, set, h.table]

theorem store (h : m.Represents l) (k : κ) (v : α) : (m.store k v).Represents (l.insert k v) := by
  by_cases hk : k ∈ l.keys
  · have hplace : m.place k = m := if_pos (h.isSome_table_iff.mpr hk)
    rw [IndexedMap.store, hplace]
    exact {
      keys := h.keys.trans (OrderedMap.keys_insert_known hk).symm
      positions := fun other => by rw [OrderedMap.index?_insert_known hk, h.positions]
      table := h.set_table k v }
  · have hplace : m.place k = { m with
        keys := m.keys ++ [k], positions := set m.positions k m.keys.length } :=
      if_neg fun hsome => hk (h.isSome_table_iff.mp hsome)
    rw [IndexedMap.store, hplace]
    exact {
      keys := by rw [OrderedMap.keys_insert_new hk, ← h.keys]
      positions := fun other => by
        rw [OrderedMap.index?_insert_new hk, ← h.keys, ← h.positions]
        rfl
      table := h.set_table k v }

/-- The map and the list give the same answer, and stay together. -/
theorem loadOrStore (h : m.Represents l) (k : κ) (v : α) :
    (m.loadOrStore k v).1 = (l.loadOrStore k v).1 ∧
      (m.loadOrStore k v).2.Represents (l.loadOrStore k v).2 := by
  cases hget : l.get? k with
  | none =>
    rw [IndexedMap.loadOrStore, h.table, hget, OrderedMap.loadOrStore_none hget]
    exact ⟨rfl, h.store k v⟩
  | some present =>
    rw [IndexedMap.loadOrStore, h.table, hget, OrderedMap.loadOrStore_some hget]
    exact ⟨rfl, h⟩

/-- The list determines the keys and both tables. -/
theorem unique (h : m.Represents l) (h' : m'.Represents l) : m = m' := by
  obtain ⟨keys, positions, table⟩ := m
  obtain ⟨keys', positions', table'⟩ := m'
  obtain rfl : keys = keys' := h.keys.trans h'.keys.symm
  obtain rfl : positions = positions' := funext fun k => (h.positions k).trans (h'.positions k).symm
  obtain rfl : table = table' := funext fun k => (h.table k).trans (h'.table k).symm
  rfl

theorem foldl_store {entries : List (κ × α)} (h : m.Represents l) :
    (entries.foldl (fun copy e => copy.store e.1 e.2) m).Represents
      (entries.foldl (fun copy e => copy.insert e.1 e.2) l) := by
  induction entries generalizing m l with
  | nil => exact h
  | cons e entries ih => exact ih (h.store e.1 e.2)

theorem index_eq (h : m.Represents l) (hnodup : l.keys.Nodup) (k : κ) (i : Nat) :
    m.index k = i ↔ m.keys[i]? = some k := by
  rw [h.keys, ← OrderedMap.index?_eq_some_iff hnodup, index, h.positions]
  cases l.index? k with
  | none => simp
  | some j => exact Int.ofNat_inj.trans Option.some_inj.symm

theorem index_eq_neg_one_iff (h : m.Represents l) (k : κ) : m.index k = -1 ↔ k ∉ m.keys := by
  rw [h.keys, ← OrderedMap.index?_eq_none_iff, index, h.positions]
  cases l.index? k with
  | none => simp
  | some j => simp

variable [Inhabited α]

theorem entries_eq (h : m.Represents l) (hnodup : l.keys.Nodup) : m.entries = l.entries := by
  have hentry (e : κ × α) (he : e ∈ l.entries) : (e.1, m.value e.1) = e := by
    rw [value, h.table, OrderedMap.get?_of_mem_entries hnodup he]
    rfl
  calc m.entries = l.entries.map fun e => (e.1, m.value e.1) := by
        rw [entries, h.keys, OrderedMap.keys, List.map_map]
        rfl
    _ = l.entries.map id := List.map_congr_left hentry
    _ = l.entries := List.map_id _

/-- Nothing is lost in a copy. -/
theorem clone_eq (h : m.Represents l) (hnodup : l.keys.Nodup) : m.clone = m := by
  have hcopy : m.clone.Represents (.ofList l.entries) := by
    rw [clone, h.entries_eq hnodup]
    exact represents_empty.foldl_store
  rw [OrderedMap.ofList_entries hnodup] at hcopy
  exact hcopy.unique h

end Represents

def perform (m : IndexedMap κ α) : Call κ α → IndexedMap κ α
  | .store k v => m.store k v
  | .loadOrStore k v => (m.loadOrStore k v).2

def after (m : IndexedMap κ α) (calls : List (Call κ α)) : IndexedMap κ α := calls.foldl perform m

theorem Represents.perform {m : IndexedMap κ α} {l : OrderedMap κ α} (h : m.Represents l)
    (call : Call κ α) : (m.perform call).Represents (l.perform call) := by
  cases call with
  | store k v => exact h.store k v
  | loadOrStore k v => exact (h.loadOrStore k v).2

theorem Represents.after {m : IndexedMap κ α} {l : OrderedMap κ α} (h : m.Represents l)
    (calls : List (Call κ α)) : (m.after calls).Represents (l.after calls) := by
  induction calls generalizing m l with
  | nil => exact h
  | cons call calls ih => exact ih (h.perform call)

variable [Inhabited α]

/-- What a map tells when it was filled by `calls`, in terms of the calls alone. -/
structure Recounts (m : IndexedMap κ α) (calls : List (Call κ α)) : Prop where
  keys_nodup : m.keys.Nodup
  keys_eq : m.keys = (calls.map Call.key).eraseDups
  load (k : κ) (v : α) : m.load? k = some v ↔ LastStored calls k v
  load_none (k : κ) : m.load? k = none ↔ k ∉ m.keys
  index (k : κ) (i : Nat) : m.index k = i ↔ m.keys[i]? = some k
  index_none (k : κ) : m.index k = -1 ↔ k ∉ m.keys
  entries_keys : m.entries.map Prod.fst = m.keys
  entries_values : m.entries.map Prod.snd = m.values
  entries_load (k : κ) (v : α) : (k, v) ∈ m.entries ↔ m.load? k = some v
  size : m.size = m.entries.length
  /-- A key that is there keeps its value, which is the answer. -/
  loadOrStore_known (k : κ) (v : α) (known : k ∈ calls.map Call.key) :
    ∃ present, LastStored calls k present ∧ m.loadOrStore k v = ((present, true), m)
  loadOrStore_new (k : κ) (v : α) (new : k ∉ calls.map Call.key) :
    m.loadOrStore k v = ((v, false), m.store k v)

/-- After any calls the keys and both tables represent the list of entries after the same calls,
with the same answers. What they tell follows from the calls, and a copy tells the same. -/
theorem after_represents (calls : List (Call κ α)) :
    let m : IndexedMap κ α := empty.after calls
    let l : OrderedMap κ α := OrderedMap.empty.after calls
    m.Represents l ∧ m.entries = l.entries ∧
      (∀ k v, (m.loadOrStore k v).1 = (l.loadOrStore k v).1) ∧ m.Recounts calls ∧ m.clone = m := by
  intro m l
  have h : m.Represents l := represents_empty.after calls
  have hnodup : l.keys.Nodup := OrderedMap.nodup_keys_after calls
  have hmem (k : κ) : k ∈ l.keys ↔ k ∈ calls.map Call.key := OrderedMap.mem_keys_after calls
  have hload (k : κ) (v : α) : m.load? k = some v ↔ LastStored calls k v := by
    rw [load?, h.table, OrderedMap.get?_after]
  have hentries : m.entries = l.entries := h.entries_eq hnodup
  refine ⟨h, hentries, fun k v => (h.loadOrStore k v).1, ?_, h.clone_eq hnodup⟩
  exact {
    keys_nodup := h.keys ▸ hnodup
    keys_eq := h.keys.trans (OrderedMap.keys_after calls)
    load := hload
    load_none := fun k => h.keys ▸ h.table_eq_none_iff
    index := h.index_eq hnodup
    index_none := h.index_eq_neg_one_iff
    entries_keys := by rw [hentries, h.keys, OrderedMap.keys]
    entries_values := by
      rw [entries, List.map_map]
      rfl
    entries_load := fun k v => by
      rw [hentries, load?, h.table, OrderedMap.get?_eq_some_iff hnodup]
    size := by rw [entries, List.length_map, size]
    loadOrStore_known := fun k v known => by
      obtain ⟨present, hpresent⟩ :=
        Option.isSome_iff_exists.mp (h.isSome_table_iff.mpr ((hmem k).mpr known))
      refine ⟨present, (hload k present).mp hpresent, ?_⟩
      rw [loadOrStore, hpresent]
    loadOrStore_new := fun k v new => by
      have hnone : m.table k = none := h.table_eq_none_iff.mpr fun hk => new ((hmem k).mp hk)
      rw [loadOrStore, hnone] }

-- A value that is replaced keeps the place of its key.
example : ((empty : IndexedMap String Nat).after
    [.store "width" 1, .loadOrStore "color" 2, .loadOrStore "width" 3, .store "width" 4]).entries =
      [("width", 4), ("color", 2)] := by
  decide

end ShaderStyle.IndexedMap
