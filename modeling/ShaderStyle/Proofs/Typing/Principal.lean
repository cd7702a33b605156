import ShaderStyle.Proofs.Typing.Soundness

/-! The kind of an expression follows one rule of priority, whatever its form. -/
namespace ShaderStyle

theorem Kind.ofCode?_code (k : Kind) : ofCode? k.code = some k := by
  cases k <;> rfl

namespace TypeSet

/-- The set has no bit besides those of kinds. -/
def OfKinds (s : TypeSet) : Prop := s.inter any = s

theorem singleton_inter_any (k : Kind) : (singleton k).inter any = singleton k := by
  cases k <;> rfl

theorem ofKinds_singleton (k : Kind) : (singleton k).OfKinds := singleton_inter_any k

theorem inter_comm (s t : TypeSet) : s.inter t = t.inter s := by
  unfold inter
  rw [BitVec.and_comm]

theorem union_inter (s t u : TypeSet) : (s.union t).inter u = (s.inter u).union (t.inter u) := by
  unfold union inter
  rw [mk.injEq, BitVec.eq_of_getLsbD_eq_iff]
  intro i _
  simp only [BitVec.getLsbD_and, BitVec.getLsbD_or, Bool.and_or_distrib_right]

theorem ofKinds_ofList (kinds : List Kind) : (ofList kinds).OfKinds := by
  unfold OfKinds
  induction kinds with
  | nil => rfl
  | cons k kinds ih =>
    rw [ofList, List.foldr_cons, ← ofList, union_inter, singleton_inter_any, ih]

theorem OfKinds.inter {t : TypeSet} (h : t.OfKinds) (s : TypeSet) : (s.inter t).OfKinds := by
  have hassoc : (s.inter t).inter any = s.inter (t.inter any) := by
    unfold TypeSet.inter
    rw [BitVec.and_assoc]
  unfold OfKinds at h ⊢
  rw [hassoc, h]

theorem OfKinds.any_inter {s : TypeSet} (h : s.OfKinds) : any.inter s = s := by
  rw [inter_comm]
  exact h

theorem mem_codes {s : TypeSet} {i : Nat} (h : s.bits.getLsbD i = true) : i ∈ s.codes := by
  unfold codes
  rw [List.mem_filter, List.mem_range]
  exact ⟨BitVec.lt_of_getLsbD h, h⟩

theorem codes_inter_any (s : TypeSet) :
    (s.inter any).codes = (Kind.all.map Kind.code).filter s.bits.getLsbD := by
  have hany : (List.range 8).filter any.bits.getLsbD = Kind.all.map Kind.code := by decide
  unfold codes inter
  rw [← hany, List.filter_filter]
  exact List.filter_congr fun i _ => BitVec.getLsbD_and

theorem OfKinds.codes_eq {s : TypeSet} (h : s.OfKinds) :
    s.codes = (Kind.all.map Kind.code).filter s.bits.getLsbD := by
  rw [← codes_inter_any, h]

/-- The kind that is picked is the first one of the set, in order of priority. -/
theorem OfKinds.pick_eq {s : TypeSet} (h : s.OfKinds) : s.pick = Kind.all.find? s.has := by
  have hcode : Kind.ofCode? ∘ Kind.code = some := funext Kind.ofCode?_code
  unfold pick
  rw [h.codes_eq, List.head?_filter, List.find?_map, Option.bind_map, hcode, Option.bind_fun_some]
  rfl

theorem OfKinds.isEmpty_iff {s : TypeSet} (h : s.OfKinds) :
    s.isEmpty = true ↔ ∀ k, s.has k = false := by
  unfold isEmpty
  rw [beq_iff_eq]
  constructor
  · intro hzero k
    rw [has, hzero]
    exact BitVec.getLsbD_zero
  · intro hnone
    have hcodes : s.codes = [] := by
      rw [h.codes_eq, List.filter_eq_nil_iff]
      intro i hi
      obtain ⟨k, -, rfl⟩ := List.mem_map.mp hi
      exact Bool.eq_false_iff.mp (hnone k)
    refine BitVec.eq_of_getLsbD_eq fun i _ => ?_
    refine Eq.trans (Bool.eq_false_iff.mpr fun hi => ?_) BitVec.getLsbD_zero.symm
    have hmem := mem_codes hi
    rw [hcodes] at hmem
    exact absurd hmem List.not_mem_nil

theorem OfKinds.pick_eq_none_iff {s : TypeSet} (h : s.OfKinds) :
    s.pick = none ↔ s.isEmpty = true := by
  rw [h.isEmpty_iff, h.pick_eq, List.find?_eq_none]
  constructor
  · intro hnone k
    exact Bool.eq_false_iff.mpr (hnone k (by cases k <;> decide))
  · intro hnone k _
    exact Bool.eq_false_iff.mp (hnone k)

/-- The kind that a node of the available kinds takes where a context expects others: the first
that both have, else the first vector that a number can be turned into. -/
def principal? (available expected : TypeSet) : Option Kind :=
  match Kind.all.find? fun k => available.has k && expected.has k with
  | some k => some k
  | none => if available.has .number then [.color, .array].find? expected.has else none

theorem OfKinds.pick_inter {expected : TypeSet} (h : expected.OfKinds) (available : TypeSet) :
    (available.inter expected).pick =
      Kind.all.find? fun k => available.has k && expected.has k := by
  rw [(h.inter available).pick_eq]
  congr 1
  funext k
  exact has_inter available expected k

theorem pick_inter_vectors (s : TypeSet) :
    (s.inter vectors).pick = [Kind.color, .array].find? s.has := by
  have hof : vectors.OfKinds := ofKinds_ofList [.color, .array]
  rw [hof.pick_inter]
  simp [Kind.all, List.find?_cons, has_vectors, Kind.isVector]

theorem pick_inter_singleton {s : TypeSet} {k : Kind} (h : s.has k = true) :
    (s.inter (singleton k)).pick = some k := by
  have hof := (ofKinds_singleton k).inter s
  cases hpick : (s.inter (singleton k)).pick with
  | none =>
    have hk := hof.isEmpty_iff.mp (hof.pick_eq_none_iff.mp hpick) k
    simp [h] at hk
  | some j =>
    have hj := has_of_pick hpick
    rw [has_inter, has_singleton, Bool.and_eq_true, decide_eq_true_eq] at hj
    rw [hj.2]

end TypeSet

/-- A property without a hint follows the same priority as every other node. -/
theorem Node.propertyKind?_eq {expected : TypeSet} (h : expected.OfKinds) :
    propertyKind? expected = expected.pick := by
  unfold propertyKind?
  split_ifs with hsingle hnumber
  · rfl
  · rw [h.pick_eq, Kind.all, List.find?_cons_of_pos hnumber]
  · rfl

theorem Checked.bind_ne_ok {α β : Type} {x : Checked α} {f : α → Checked β} {b : β}
    (h : ∀ a, f a ≠ .ok b) : (x >>= f) ≠ .ok b := by
  intro hbind
  obtain ⟨a, -, ha⟩ := Checked.bind_eq_ok.mp hbind
  exact h a ha

namespace Node

variable {scope : Scope} {n : Node} {expected : TypeSet} {k : Kind}

/-- Resolving looks at its context only for the kind that is picked from those available. -/
def Picks (available : TypeSet) (resolve : TypeSet → Checked Expr) : Prop :=
  ∃ (taken : Kind → Checked Expr) (refused : TypeSet → List Issue),
    ∀ expected : TypeSet, expected.OfKinds →
      resolve expected = match (available.inter expected).pick with
        | some k => taken k
        | none => .error (refused expected)

namespace Picks

variable {available : TypeSet} {resolve : TypeSet → Checked Expr}

theorem pickKind (path : Path) (available : TypeSet) (f : Kind → Checked Expr) :
    Picks available fun expected => Node.pickKind path available expected >>= f := by
  refine ⟨f, fun expected => [⟨path, .unusable available expected⟩], fun expected _ => ?_⟩
  dsimp only [Node.pickKind]
  cases (available.inter expected).pick <;> rfl

theorem discard (path : Path) (available : TypeSet) (outcome : Checked Expr) :
    Picks available fun expected =>
      Functor.discard (Node.pickKind path available expected) >>= fun _ => outcome := by
  refine ⟨fun _ => outcome, fun expected => [⟨path, .unusable available expected⟩],
    fun expected _ => ?_⟩
  dsimp only [Node.pickKind]
  cases (available.inter expected).pick <;> rfl

theorem error (available : TypeSet) (issues : List Issue) :
    Picks available fun _ => .error issues := by
  refine ⟨fun _ => .error issues, fun _ => issues, fun expected _ => ?_⟩
  cases (available.inter expected).pick <;> rfl

/-- Where a kind is picked, it makes no difference which other kinds the context takes. -/
theorem eq_singleton (h : Picks available resolve) (hof : expected.OfKinds)
    (hpick : (available.inter expected).pick = some k) :
    resolve expected = resolve (.singleton k) := by
  obtain ⟨taken, refused, hresolve⟩ := h
  have hk := TypeSet.has_of_pick hpick
  rw [TypeSet.has_inter, Bool.and_eq_true] at hk
  rw [hresolve _ hof, hresolve _ (TypeSet.ofKinds_singleton k), hpick,
    TypeSet.pick_inter_singleton hk.1]

theorem exists_error (h : Picks available resolve) (hof : expected.OfKinds)
    (hpick : (available.inter expected).pick = none) :
    ∃ issues, resolve expected = .error issues := by
  obtain ⟨taken, refused, hresolve⟩ := h
  rw [hresolve _ hof, hpick]
  exact ⟨_, rfl⟩

end Picks

theorem picks_resolveGet (scope : Scope) (path : Path) (name : String) (hint : Option Hint) :
    Picks ((Node.get path name hint).types scope) (resolveGet scope path name hint) := by
  cases hint with
  | some hint => exact .discard path hint.set _
  | none =>
    refine ⟨fun k => .ok (.get path name (.ofKind scope.arraySize k)),
      fun _ => [⟨path, .uninferable name⟩], fun expected hof => ?_⟩
    rw [types, hof.any_inter, resolveGet, propertyKind?_eq hof]
    cases expected.pick <;> rfl

theorem picks_resolveVar (scope : Scope) (path : Path) (name : String) :
    Picks ((Node.var path name).types scope) fun expected =>
      resolveVar scope path name expected := by
  simp only [types, resolveVar]
  cases scope.vars.get? name with
  | none => exact .error _ _
  | some v =>
    dsimp only
    split_ifs
    · exact .error _ _
    · exact .pickKind path _ _

theorem picks_resolve (scope : Scope) (n : Node) :
    Picks (n.types scope) fun expected => n.resolve scope expected := by
  cases n with
  | number path | bool path | builtin path =>
    simp only [resolve, types]
    exact .discard path _ _
  | text path | array path =>
    simp only [resolve]
    exact .pickKind path _ _
  | get path name hint =>
    simp only [resolve]
    exact picks_resolveGet scope path name hint
  | var path name =>
    simp only [resolve]
    exact picks_resolveVar scope path name
  | call path op args =>
    simp only [resolve, types]
    split_ifs
    · exact .error _ _
    · exact .pickKind path _ _
    · exact .discard path _ _
  | interpolate path | select path | cases path =>
    simp only [resolve, types]
    exact .pickKind path _ _

theorem vectorCall_ne_widen (path : Path) (op : Op) (args : List Expr) (x : Expr) (t : Ty) :
    vectorCall path op k args ≠ .ok (.widen x t) := by
  unfold vectorCall
  dsimp only
  split_ifs
  · exact Checked.fail_ne_ok
  · exact Checked.bind_ne_ok fun _ h => by cases h

/-- A node is widened by what surrounds it, never by its own form. -/
theorem resolve_ne_widen (n : Node) (expected : TypeSet) (x : Expr) (t : Ty) :
    n.resolve scope expected ≠ .ok (.widen x t) := by
  cases n with
  | number | bool | builtin =>
    rw [resolve]
    exact Checked.bind_ne_ok fun _ h => by cases h
  | text =>
    rw [resolve]
    refine Checked.bind_ne_ok fun k => ?_
    split
    · intro h
      cases h
    · intro h
      cases h
  | array =>
    rw [resolve]
    refine Checked.bind_ne_ok fun k => ?_
    split_ifs
    · split
      · intro h
        cases h
      · exact Checked.fail_ne_ok
    · intro h
      cases h
  | get path name hint =>
    rw [resolve, resolveGet.eq_def]
    split
    · exact Checked.bind_ne_ok fun _ h => by cases h
    · split
      · intro h
        cases h
      · exact Checked.fail_ne_ok
  | var path name =>
    rw [resolve, resolveVar]
    split
    · exact Checked.fail_ne_ok
    · split_ifs
      · exact Checked.fail_ne_ok
      · exact Checked.bind_ne_ok fun _ h => by cases h
  | call path op args =>
    simp only [resolve]
    split_ifs
    · exact Checked.fail_ne_ok
    · refine Checked.bind_ne_ok fun k => ?_
      split_ifs
      · exact Checked.bind_ne_ok fun _ h => by cases h
      · exact Checked.bind_ne_ok fun _ => vectorCall_ne_widen path op _ x t
    · refine Checked.bind_ne_ok fun _ => ?_
      split
      · exact Checked.bind_ne_ok fun _ h => by cases h
      · split
        · exact Checked.fail_ne_ok
        · exact Checked.bind_ne_ok fun _ => Checked.bind_ne_ok fun _ h => by cases h
  | interpolate | select | cases =>
    rw [resolve]
    refine Checked.bind_ne_ok fun _ => Checked.bind_ne_ok fun _ => ?_
    exact Checked.bind_ne_ok fun _ h => by cases h

theorem build_of_pick (hof : expected.OfKinds)
    (hpick : ((n.types scope).inter expected).pick = some k) :
    n.build scope expected = n.resolve scope expected := by
  have hempty : ((n.types scope).inter expected).isEmpty = false := by
    rw [Bool.eq_false_iff, ne_eq, ← (hof.inter _).pick_eq_none_iff, hpick]
    exact nofun
  have htarget : widenTarget? scope (n.types scope) expected = none := by
    rw [widenTarget?, hempty]
    rfl
  rw [build, widening, htarget]

theorem build_of_widen (hof : expected.OfKinds)
    (hpick : ((n.types scope).inter expected).pick = none)
    (hnumber : (n.types scope).has .number = true)
    (hvector : (expected.inter .vectors).pick = some k) :
    n.build scope expected =
      (n.resolve scope .numbers).map fun x => .widen x (.ofKind scope.arraySize k) := by
  have htarget : widenTarget? scope (n.types scope) expected =
      some (.ofKind scope.arraySize k) := by
    rw [widenTarget?, (hof.inter _).pick_eq_none_iff.mp hpick, hnumber, hvector]
    rfl
  rw [build, widening, htarget]

theorem principal?_eq_some (hof : expected.OfKinds) {available : TypeSet}
    (h : available.principal? expected = some k) :
    (available.inter expected).pick = some k ∨
      (available.inter expected).pick = none ∧ available.has .number = true ∧
        (expected.inter .vectors).pick = some k := by
  unfold TypeSet.principal? at h
  rw [← hof.pick_inter, ← TypeSet.pick_inter_vectors] at h
  split at h
  · rename_i j hpick
    rw [hpick]
    exact Or.inl h
  · rename_i hpick
    split_ifs at h with hnumber
    exact Or.inr ⟨hpick, hnumber, h⟩

theorem principal?_eq_none (scope : Scope) (hof : expected.OfKinds) {available : TypeSet}
    (h : available.principal? expected = none) :
    (available.inter expected).pick = none ∧ widenTarget? scope available expected = none := by
  unfold TypeSet.principal? at h
  rw [← hof.pick_inter, ← TypeSet.pick_inter_vectors] at h
  split at h
  · cases h
  · rename_i hpick
    refine ⟨hpick, ?_⟩
    rw [widenTarget?]
    split_ifs with hwiden
    · rw [if_pos (Bool.and_eq_true_iff.mp hwiden).2] at h
      rw [h]
      rfl
    · rfl

theorem exists_error_of_principal? (hof : expected.OfKinds)
    (h : (n.types scope).principal? expected = none) :
    ∃ issues, n.build scope expected = .error issues := by
  obtain ⟨hpick, htarget⟩ := principal?_eq_none scope hof h
  rw [build, widening, htarget]
  exact (picks_resolve scope n).exists_error hof hpick

/-- A context that takes several kinds and one that takes only the principal one build the same
expression, or report the same issues. -/
theorem build_eq_of_principal? (hof : expected.OfKinds)
    (h : (n.types scope).principal? expected = some k) :
    n.build scope expected = n.build scope (.singleton k) := by
  have hsingle := TypeSet.ofKinds_singleton k
  rcases principal?_eq_some hof h with hpick | ⟨hpick, hnumber, hvector⟩
  · have hk := TypeSet.has_of_pick hpick
    rw [TypeSet.has_inter, Bool.and_eq_true] at hk
    rw [build_of_pick hof hpick, build_of_pick hsingle (TypeSet.pick_inter_singleton hk.1)]
    exact (picks_resolve scope n).eq_singleton hof hpick
  · have hk := TypeSet.has_of_pick hvector
    rw [TypeSet.has_inter, Bool.and_eq_true] at hk
    -- The node cannot take the vector itself, so the smaller context widens too.
    have hdisjoint := (hof.inter (n.types scope)).isEmpty_iff.mp
      ((hof.inter _).pick_eq_none_iff.mp hpick) k
    have hnone : ((n.types scope).inter (.singleton k)).pick = none := by
      rw [(hsingle.inter _).pick_eq_none_iff, (hsingle.inter _).isEmpty_iff]
      intro j
      rw [TypeSet.has_inter, hk.1, Bool.and_true] at hdisjoint
      by_cases hj : j = k
      · rw [TypeSet.has_inter, hj, hdisjoint, Bool.false_and]
      · rw [TypeSet.has_inter, TypeSet.has_singleton, decide_eq_false hj, Bool.and_false]
    have hsame : ((TypeSet.singleton k).inter .vectors).pick = some k := by
      rw [TypeSet.inter_comm]
      exact TypeSet.pick_inter_singleton hk.2
    rw [build_of_widen hof hpick hnumber hvector, build_of_widen hsingle hnone hnumber hsame]

theorem isWiden_iff_of_principal? (hof : expected.OfKinds)
    (h : (n.types scope).principal? expected = some k) {e : Expr}
    (hbuild : n.build scope expected = .ok e) :
    (∃ x t, e = .widen x t) ↔ ∀ j, ((n.types scope).inter expected).has j = false := by
  rw [← (hof.inter _).isEmpty_iff, ← (hof.inter _).pick_eq_none_iff]
  rcases principal?_eq_some hof h with hpick | ⟨hpick, hnumber, hvector⟩
  · rw [build_of_pick hof hpick] at hbuild
    constructor
    · rintro ⟨x, t, rfl⟩
      exact absurd hbuild (resolve_ne_widen n expected x t)
    · intro hnone
      rw [hpick] at hnone
      cases hnone
  · rw [build_of_widen hof hpick hnumber hvector] at hbuild
    obtain ⟨x, -, rfl⟩ := Checked.map_eq_ok.mp hbuild
    exact ⟨fun _ => hpick, fun _ => ⟨x, _, rfl⟩⟩

/-- Every form of expression takes the principal kind, in every scope. Without one, building fails.
With one, building does what it does where only that kind is accepted, gives an expression of that
kind, and widens exactly where the context takes no kind of the node. -/
theorem build_principal {path : Path} {raw : Value} {n : Node} (hread : read path raw = .ok n)
    (scope : Scope) (kinds : List Kind) :
    ((n.types scope).principal? (.ofList kinds) = none →
      ∃ issues, n.build scope (.ofList kinds) = .error issues) ∧
    ∀ k, (n.types scope).principal? (.ofList kinds) = some k →
      n.build scope (.ofList kinds) = n.build scope (.singleton k) ∧
        ∀ e, n.build scope (.ofList kinds) = .ok e →
          e.type.kind? = some k ∧
            ((∃ x t, e = .widen x t) ↔ ∀ j ∈ kinds, (n.types scope).has j = false) := by
  have hof := TypeSet.ofKinds_ofList kinds
  refine ⟨exists_error_of_principal? hof, ?_⟩
  intro k hk
  have hsame := build_eq_of_principal? hof hk
  refine ⟨hsame, ?_⟩
  intro e he
  constructor
  · have hresolves : n.Resolves scope fun _ => True :=
      (read_wellFormed path raw hread).resolves (fun _ _ => trivial) trivial
    have hsound := widening_sound trivial hresolves (hsame.symm.trans he)
    exact TypeSet.accepts_singleton.mp hsound.accepted
  · rw [isWiden_iff_of_principal? hof hk he]
    constructor
    · intro hdisjoint j hj
      have := hdisjoint j
      simpa [hj] using this
    · intro hdisjoint j
      by_cases hj : j ∈ kinds
      · rw [TypeSet.has_inter, hdisjoint j hj, Bool.false_and]
      · rw [TypeSet.has_inter, TypeSet.has_ofList, decide_eq_false hj, Bool.and_false]

private def product : Value := .list [.text "*", .double (.finite 2), .double (.finite 3)]

private def productNode : Node :=
  .call ⟨"size"⟩ .mul [.number ⟨"size[1]"⟩ (.finite 2), .number ⟨"size[2]"⟩ (.finite 3)]

/-- A product of numbers is widened where an array is accepted, and fails where a text is. -/
theorem build_principal_product :
    read ⟨"size"⟩ product = .ok productNode ∧
      productNode.build ⟨.empty, 2⟩ (.ofList [.array, .string]) =
        productNode.build ⟨.empty, 2⟩ (.singleton .array) ∧
      (∃ e, productNode.build ⟨.empty, 2⟩ (.ofList [.array, .string]) = .ok e ∧
        e.type.kind? = some .array ∧ ∃ x t, e = .widen x t) ∧
      ∃ issues, productNode.build ⟨.empty, 2⟩ (.ofList [.string]) = .error issues := by
  have hread : read ⟨"size"⟩ product = .ok productNode := by cbv
  obtain ⟨-, hsome⟩ := build_principal hread ⟨.empty, 2⟩ [.array, .string]
  obtain ⟨hnone, -⟩ := build_principal hread ⟨.empty, 2⟩ [.string]
  obtain ⟨hsame, hshape⟩ := hsome .array (by decide)
  have hbuild : ∃ e, productNode.build ⟨.empty, 2⟩ (.ofList [.array, .string]) = .ok e :=
    ⟨_, rfl⟩
  obtain ⟨e, he⟩ := hbuild
  obtain ⟨hkind, hwiden⟩ := hshape e he
  exact ⟨hread, hsame, ⟨e, he, hkind, hwiden.mpr (by decide)⟩, hnone (by decide)⟩

end Node

end ShaderStyle
