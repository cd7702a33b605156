import ShaderStyle.Proofs.Tabulation

/-! Ordered maps as the outcome of the calls that filled them: a key has the place of its first call
and the value of the last call that stored one for it. -/
namespace ShaderStyle.OrderedMap

variable {κ α : Type}

section Keys

variable [BEq κ] [LawfulBEq κ] {m : OrderedMap κ α} {k : κ} {v : α} {i : Nat}

theorem get?_eq_none_iff : m.get? k = none ↔ k ∉ m.keys := by
  rw [get?, List.lookup_eq_none_iff, keys, List.mem_map]
  constructor
  · rintro h ⟨e, he, rfl⟩
    exact bne_iff_ne.mp (h e he) rfl
  · intro h e he
    exact bne_iff_ne.mpr fun heq => h ⟨e, he, heq.symm⟩

theorem contains_iff : m.contains k = true ↔ k ∈ m.keys := by
  rw [contains, ← Option.not_isNone, Bool.not_eq_true', Option.isNone_eq_false_iff,
    Option.isSome_iff_ne_none, Ne, get?_eq_none_iff, not_not]

theorem entries_insert_known (h : k ∈ m.keys) :
    (m.insert k v).entries = m.entries.map fun e => if e.1 == k then (e.1, v) else e := by
  rw [insert, if_pos (contains_iff.mpr h)]

theorem keys_insert_known (h : k ∈ m.keys) : (m.insert k v).keys = m.keys := by
  rw [keys, entries_insert_known h, List.map_map]
  refine List.map_congr_left fun e _ => ?_
  rw [Function.comp_apply]
  split
  · rfl
  · rfl

theorem keys_insert_new (h : k ∉ m.keys) : (m.insert k v).keys = m.keys ++ [k] := by
  rw [keys, entries_insert_new (get?_eq_none_iff.mpr h), List.map_append]
  rfl

omit [LawfulBEq κ] in
theorem index?_eq : m.index? k = m.keys.findIdx? (· == k) := by
  rw [index?, keys, List.findIdx?_map]
  rfl

theorem index?_eq_none_iff : m.index? k = none ↔ k ∉ m.keys := by
  rw [index?_eq, List.findIdx?_eq_none_iff]
  constructor
  · intro h hk
    exact beq_eq_false_iff_ne.mp (h k hk) rfl
  · intro h other hother
    exact beq_eq_false_iff_ne.mpr fun heq => h (heq ▸ hother)

/-- A key has the position at which the keys list it. -/
theorem index?_eq_some_iff (h : m.keys.Nodup) : m.index? k = some i ↔ m.keys[i]? = some k := by
  rw [index?_eq, List.findIdx?_eq_some_iff_getElem, List.getElem?_eq_some_iff]
  constructor
  · rintro ⟨hi, hk, -⟩
    exact ⟨hi, eq_of_beq hk⟩
  · rintro ⟨hi, hk⟩
    refine ⟨hi, beq_iff_eq.mpr hk, fun j hj hjk => ?_⟩
    have heq : m.keys[j] = m.keys[i] := (eq_of_beq hjk).trans hk.symm
    exact absurd ((List.Nodup.getElem_inj_iff h).mp heq) (by omega)

theorem index?_insert_known (h : k ∈ m.keys) (other : κ) :
    (m.insert k v).index? other = m.index? other := by
  rw [index?_eq, index?_eq, keys_insert_known h]

/-- A new key comes behind all others. -/
theorem index?_insert_new [DecidableEq κ] (h : k ∉ m.keys) (other : κ) :
    (m.insert k v).index? other = if other = k then some m.keys.length else m.index? other := by
  rw [index?_eq, index?_eq, keys_insert_new h, List.findIdx?_append]
  by_cases hk : other = k
  · subst hk
    rw [if_pos rfl, ← index?_eq, index?_eq_none_iff.mpr h]
    simp
  · have hnone : [k].findIdx? (· == other) = none := by simpa using Ne.symm hk
    rw [if_neg hk, hnone]
    simp

theorem nodup_insert (h : m.keys.Nodup) : (m.insert k v).keys.Nodup := by
  by_cases hk : k ∈ m.keys
  · rw [keys_insert_known hk]
    exact h
  · rw [keys_insert_new hk]
    refine List.nodup_append.mpr ⟨h, List.nodup_singleton k, fun other hother k' hk' => ?_⟩
    rw [List.mem_singleton.mp hk']
    rintro rfl
    exact hk hother

/-- Where keys are listed once, an entry holds the value of its key. -/
theorem get?_of_mem_entries (h : m.keys.Nodup) (he : (k, v) ∈ m.entries) : m.get? k = some v := by
  obtain ⟨before, after, hentries⟩ := List.append_of_mem he
  refine List.lookup_eq_some_iff.mpr ⟨before, after, hentries, fun e hmem => ?_⟩
  rw [keys, hentries, List.map_append, List.map_cons] at h
  have hapart := (List.nodup_append.mp h).2.2 e.1 (List.mem_map_of_mem hmem) k List.mem_cons_self
  exact bne_iff_ne.mpr (Ne.symm hapart)

theorem get?_eq_some_iff (h : m.keys.Nodup) : m.get? k = some v ↔ (k, v) ∈ m.entries :=
  ⟨mem_entries_of_get?, get?_of_mem_entries h⟩

/-- Storing the entries of a map one by one gives the map. -/
theorem ofList_entries (h : m.keys.Nodup) : ofList m.entries = m := by
  obtain ⟨entries⟩ := m
  induction entries using List.reverseRecOn with
  | nil => rfl
  | append_singleton entries e ih =>
    rw [keys, List.map_append, List.nodup_append] at h
    have hnew : e.1 ∉ (⟨entries⟩ : OrderedMap κ α).keys := fun he =>
      h.2.2 e.1 he e.1 List.mem_cons_self rfl
    rw [ofList, List.foldl_append, ← ofList, ih h.1]
    exact congrArg mk (entries_insert_new (get?_eq_none_iff.mpr hnew))

end Keys

/-- A call that stores a value: in any case, or only for a key without one. -/
inductive Call (κ α : Type) where
  | store (k : κ) (v : α)
  | loadOrStore (k : κ) (v : α)

namespace Call

def key : Call κ α → κ
  | .store k _ | .loadOrStore k _ => k

def value : Call κ α → α
  | .store _ v | .loadOrStore _ v => v

/-- Whether the call stores its value when it comes after `earlier` calls on an empty map. -/
def Stores (earlier : List (Call κ α)) : Call κ α → Prop
  | .store _ _ => True
  | .loadOrStore k _ => k ∉ earlier.map key

end Call

/-- One of the calls stored `v` for `k`, and no later call stored a value for `k`. -/
def LastStored (calls : List (Call κ α)) (k : κ) (v : α) : Prop :=
  ∃ earlier call later, calls = earlier ++ call :: later ∧
    call.key = k ∧ call.value = v ∧ call.Stores earlier ∧
    ∀ between next rest, later = between ++ next :: rest → next.key = k →
      ¬next.Stores (earlier ++ call :: between)

section LastStored

variable {calls : List (Call κ α)} {call : Call κ α} {k : κ} {v : α}

theorem LastStored.mem_keys (h : LastStored calls k v) : k ∈ calls.map Call.key := by
  obtain ⟨earlier, call, later, rfl, rfl, -⟩ := h
  simp

/-- An element of a list is its last one, or what is behind it ends with the last one. -/
theorem concat_eq_append_cons {β : Type} {xs ys zs : List β} {x y : β}
    (h : xs ++ [x] = ys ++ y :: zs) :
    (xs = ys ∧ x = y ∧ zs = []) ∨ ∃ between, xs = ys ++ y :: between ∧ zs = between ++ [x] := by
  rcases List.eq_nil_or_concat zs with rfl | ⟨between, last, rfl⟩
  · obtain ⟨rfl, hlast⟩ := List.append_inj' h rfl
    exact Or.inl ⟨rfl, (List.cons.inj hlast).1, rfl⟩
  · rw [List.concat_eq_append, ← List.cons_append, ← List.append_assoc] at h
    obtain ⟨rfl, hlast⟩ := List.append_inj' h rfl
    obtain rfl : x = last := (List.cons.inj hlast).1
    exact Or.inr ⟨between, rfl, List.concat_eq_append⟩

/-- The last call stores the value that is there in the end. -/
theorem lastStored_concat_self (hstores : call.Stores calls) :
    LastStored (calls ++ [call]) call.key v ↔ call.value = v := by
  constructor
  · rintro ⟨earlier, call', later, hsplit, -, hvalue, -, hlater⟩
    obtain ⟨-, rfl, -⟩ | ⟨between, rfl, hend⟩ := concat_eq_append_cons hsplit
    · exact hvalue
    · exact absurd hstores (hlater between call [] hend rfl)
  · intro hvalue
    exact ⟨calls, call, [], rfl, rfl, hvalue, hstores, fun between _ _ hnil => by simp at hnil⟩

/-- A call that stores nothing for a key leaves it with its value. -/
theorem lastStored_concat_other (hother : call.key = k → ¬call.Stores calls) :
    LastStored (calls ++ [call]) k v ↔ LastStored calls k v := by
  constructor
  · rintro ⟨earlier, call', later, hsplit, hkey, hvalue, hstores, hlater⟩
    obtain ⟨rfl, rfl, -⟩ | ⟨between, rfl, hend⟩ := concat_eq_append_cons hsplit
    · exact absurd hstores (hother hkey)
    · refine ⟨earlier, call', between, rfl, hkey, hvalue, hstores, fun b next rest h => ?_⟩
      exact hlater b next (rest ++ [call]) (by rw [hend, h]; simp)
  · rintro ⟨earlier, call', later, rfl, hkey, hvalue, hstores, hlater⟩
    refine ⟨earlier, call', later ++ [call], by simp, hkey, hvalue, hstores, ?_⟩
    intro between next rest hsplit hnext
    obtain ⟨rfl, rfl, -⟩ | ⟨rest, rfl, -⟩ := concat_eq_append_cons hsplit
    · exact hother hnext
    · exact hlater between next rest rfl hnext

end LastStored

section After

variable [BEq κ]

def perform (m : OrderedMap κ α) : Call κ α → OrderedMap κ α
  | .store k v => m.insert k v
  | .loadOrStore k v => (m.loadOrStore k v).2

def after (m : OrderedMap κ α) (calls : List (Call κ α)) : OrderedMap κ α := calls.foldl perform m

theorem after_concat (m : OrderedMap κ α) (calls : List (Call κ α)) (call : Call κ α) :
    m.after (calls ++ [call]) = (m.after calls).perform call := by
  rw [after, List.foldl_append]
  rfl

variable [LawfulBEq κ] {m : OrderedMap κ α} {k : κ} {v : α}

omit [LawfulBEq κ] in
theorem loadOrStore_some {present : α} (h : m.get? k = some present) :
    m.loadOrStore k v = ((present, true), m) := by
  have hcontains : m.contains k = true := by rw [contains, h]; rfl
  rw [loadOrStore, insertNew, if_pos hcontains, hcontains, h]
  rfl

omit [LawfulBEq κ] in
theorem loadOrStore_none (h : m.get? k = none) :
    m.loadOrStore k v = ((v, false), m.insert k v) := by
  have hcontains : m.contains k = false := by rw [contains, h]; rfl
  rw [loadOrStore, insertNew, hcontains, h]
  rfl

theorem loadOrStore_known (h : k ∈ m.keys) : (m.loadOrStore k v).2 = m := by
  cases hget : m.get? k with
  | none => exact absurd h (get?_eq_none_iff.mp hget)
  | some present => rw [loadOrStore_some hget]

theorem loadOrStore_new (h : k ∉ m.keys) : m.loadOrStore k v = ((v, false), m.insert k v) :=
  loadOrStore_none (get?_eq_none_iff.mpr h)

/-- Any call lists its key. -/
theorem keys_perform (m : OrderedMap κ α) (call : Call κ α) :
    (call.key ∈ m.keys → (m.perform call).keys = m.keys) ∧
      (call.key ∉ m.keys → (m.perform call).keys = m.keys ++ [call.key]) := by
  cases call with
  | store k v => exact ⟨keys_insert_known, keys_insert_new⟩
  | loadOrStore k v =>
    refine ⟨fun h : k ∈ m.keys => ?_, fun h : k ∉ m.keys => ?_⟩
    · rw [perform, loadOrStore_known h]
    · rw [perform, loadOrStore_new h]
      exact keys_insert_new h

variable (calls : List (Call κ α))

theorem keys_after : (empty.after calls).keys = (calls.map Call.key).eraseDups := by
  induction calls using List.reverseRecOn with
  | nil => rfl
  | append_singleton calls call ih =>
    obtain ⟨hknown, hnew⟩ := keys_perform (empty.after calls) call
    rw [ih, List.mem_eraseDups] at hknown hnew
    rw [after_concat, List.map_append, List.map_singleton]
    by_cases h : call.key ∈ calls.map Call.key
    · rw [hknown h, eraseDups_concat_of_mem h]
    · rw [hnew h, eraseDups_concat_of_notMem h]

theorem mem_keys_after : k ∈ (empty.after calls).keys ↔ k ∈ calls.map Call.key := by
  rw [keys_after, List.mem_eraseDups]

theorem nodup_keys_after : (empty.after calls).keys.Nodup := by
  rw [keys_after]
  exact nodup_eraseDups _

/-- A key has the value that was stored for it last. -/
theorem get?_after : (empty.after calls).get? k = some v ↔ LastStored calls k v := by
  induction calls using List.reverseRecOn with
  | nil =>
    constructor
    · exact nofun
    · intro h
      exact absurd h.mem_keys List.not_mem_nil
  | append_singleton calls call ih =>
    rw [after_concat]
    have hstore (hstores : call.Stores calls) :
        ((empty.after calls).insert call.key call.value).get? k = some v ↔
          LastStored (calls ++ [call]) k v := by
      by_cases hk : k = call.key
      · subst hk
        rw [get?_insert_self, lastStored_concat_self hstores, Option.some_inj]
      · rw [get?_insert_other _ _ hk, ih, lastStored_concat_other fun h => absurd h.symm hk]
    cases call with
    | store key value => exact hstore trivial
    | loadOrStore key value =>
      by_cases hkey : key ∈ calls.map Call.key
      · have hmem := (mem_keys_after calls).mpr hkey
        have hidle : ¬(Call.loadOrStore key value).Stores calls := not_not_intro hkey
        rw [perform, loadOrStore_known hmem, ih, lastStored_concat_other fun _ => hidle]
      · have hmem : key ∉ (empty.after calls).keys := fun h => hkey ((mem_keys_after calls).mp h)
        rw [perform, loadOrStore_new hmem]
        exact hstore hkey

end After

/-- The map lists the keys of `given` in the order of their first occurrences, each with the value
of that occurrence. -/
structure KeepsFirst [BEq κ] (m : OrderedMap κ α) (given : List (κ × α)) : Prop where
  keys_nodup : m.keys.Nodup
  keys_eq : m.keys = (given.map Prod.fst).eraseDups
  first : ∀ e ∈ m.entries, given.lookup e.1 = some e.2

namespace KeepsFirst

variable [BEq κ] [LawfulBEq κ] {m : OrderedMap κ α} {given : List (κ × α)} {k : κ} {v : α}

omit [LawfulBEq κ] in
theorem empty : KeepsFirst (κ := κ) (α := α) .empty [] where
  keys_nodup := List.nodup_nil
  keys_eq := rfl
  first _ he := absurd he List.not_mem_nil

theorem mem_keys_iff (h : m.KeepsFirst given) : k ∈ m.keys ↔ k ∈ given.map Prod.fst := by
  rw [h.keys_eq, List.mem_eraseDups]

theorem get?_eq (h : m.KeepsFirst given) (k : κ) : m.get? k = given.lookup k := by
  cases hget : m.get? k with
  | none =>
    have hk : k ∉ given.map Prod.fst := fun hk => get?_eq_none_iff.mp hget (h.mem_keys_iff.mpr hk)
    exact (get?_eq_none_iff (m := ⟨given⟩).mpr hk).symm
  | some v => exact (h.first _ (mem_entries_of_get? hget)).symm

/-- What is answered for a key differs from `v` where the first value that was given for it does. -/
theorem differs_iff [DecidableEq α] {β : Type} (h : m.KeepsFirst given) (f : α → β) (b : β) :
    (if (m.loadOrStore k v).1.1 = v then none else some (f (m.loadOrStore k v).1.1)) = some b ↔
      ∃ first, given.lookup k = some first ∧ first ≠ v ∧ f first = b := by
  have hanswer : (m.loadOrStore k v).1.1 = (given.lookup k).getD v := by
    rw [OrderedMap.loadOrStore, h.get?_eq]
  rw [hanswer]
  cases given.lookup k with
  | none => simp
  | some first => simp

/-- A value that is given later counts only for a new key. -/
theorem loadOrStore (h : m.KeepsFirst given) (k : κ) (v : α) :
    (m.loadOrStore k v).2.KeepsFirst (given ++ [(k, v)]) := by
  have hkeep : ∀ e ∈ m.entries, (given ++ [(k, v)]).lookup e.1 = some e.2 := fun e he => by
    rw [List.lookup_append, h.first e he]
    rfl
  by_cases hk : k ∈ m.keys
  · rw [loadOrStore_known hk]
    refine ⟨h.keys_nodup, ?_, hkeep⟩
    rw [List.map_append, List.map_singleton, eraseDups_concat_of_mem (h.mem_keys_iff.mp hk),
      h.keys_eq]
  · have hgiven : k ∉ given.map Prod.fst := fun hmem => hk (h.mem_keys_iff.mpr hmem)
    rw [loadOrStore_new hk]
    refine ⟨nodup_insert h.keys_nodup, ?_, fun e he => ?_⟩
    · rw [keys_insert_new hk, List.map_append, List.map_singleton,
        eraseDups_concat_of_notMem hgiven, h.keys_eq]
    · rcases mem_entries_insert he with rfl | he
      · rw [List.lookup_append, ← h.get?_eq, get?_eq_none_iff.mpr hk]
        simp
      · exact hkeep e he

end KeepsFirst

end ShaderStyle.OrderedMap
