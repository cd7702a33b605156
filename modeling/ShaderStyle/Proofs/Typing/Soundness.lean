import Mathlib.Data.List.Basic
import Mathlib.Tactic.Common
import ShaderStyle.Builder
import ShaderStyle.Proofs.Typing.WellTyped

/-! Inference is sound: what it builds has a type that the context accepts, and keeps the typing
rules at every node. -/
namespace ShaderStyle

/-- Whether a context that takes the kinds of the set takes values of the type. -/
def TypeSet.Accepts (s : TypeSet) (t : Ty) : Prop := ∃ k, t.kind? = some k ∧ s.has k = true

namespace TypeSet

theorem accepts_ofKind {s : TypeSet} {k : Kind} (size : Nat) (h : s.has k = true) :
    s.Accepts (.ofKind size k) := ⟨k, Ty.kind?_ofKind size k, h⟩

theorem accepts_singleton {k : Kind} {t : Ty} : (singleton k).Accepts t ↔ t.kind? = some k := by
  unfold Accepts
  constructor
  · rintro ⟨j, hj, hk⟩
    rw [has_singleton, decide_eq_true_eq] at hk
    rw [hj, hk]
  · intro h
    exact ⟨k, h, by simp⟩

end TypeSet

namespace Ty

theorem eq_number {t : Ty} : t.kind? = some .number ↔ t = .number := by
  cases t <;> simp [kind?]

theorem eq_boolean {t : Ty} : t.kind? = some .boolean ↔ t = .boolean := by
  cases t <;> simp [kind?]

theorem eq_string {t : Ty} : t.kind? = some .string ↔ t = .string := by
  cases t <;> simp [kind?]

theorem isVector_of_kind? {t : Ty} {k : Kind} (h : t.kind? = some k) : t.isVector = k.isVector := by
  cases t <;> cases h <;> rfl

theorem sized_ofKind {sizes : Nat → Prop} {size : Nat} (h : sizes size) (k : Kind) :
    (ofKind size k).Sized sizes := by
  cases k <;> first | exact h | trivial

end Ty

theorem Checked.discard_eq_ok {α : Type} {x : Checked α} {u : Unit} :
    discard x = .ok u ↔ ∃ a, x = .ok a := by
  cases x <;> simp [discard, Functor.discard, Functor.mapConst, Except.map]

namespace Node

theorem pickKind_eq_ok {path : Path} {available expected : TypeSet} {k : Kind}
    (h : pickKind path available expected = .ok k) :
    available.has k = true ∧ expected.has k = true := by
  unfold pickKind at h
  split at h
  · rename_i hpick
    cases h
    have hk := TypeSet.has_of_pick hpick
    rw [TypeSet.has_inter, Bool.and_eq_true] at hk
    exact hk
  · exact absurd h Checked.fail_ne_ok

theorem sameType_eq_ok {es : List Expr} {t : Ty} (h : sameType es = .ok t) :
    ∀ e ∈ es, e.type = t := by
  cases es with
  | nil => simp
  | cons e es =>
    rw [sameType] at h
    split at h
    · exact absurd h Checked.fail_ne_ok
    · rename_i hnone
      cases h
      intro x hx
      rcases List.mem_cons.mp hx with rfl | hx
      · rfl
      · simpa using List.find?_eq_none.mp hnone x hx

section

variable (scope : Scope) (sizes : Nat → Prop)

/-- What inference promises of an expression. -/
structure Sound (expected : TypeSet) (e : Expr) : Prop where
  accepted : expected.Accepts e.type
  typed : e.WellTyped sizes

/-- Resolving the node keeps the promise in every context. -/
def Resolves (n : Node) : Prop :=
  ∀ (expected : TypeSet) (e : Expr), n.resolve scope expected = .ok e → Sound sizes expected e

end

variable {scope : Scope} {sizes : Nat → Prop}

theorem widenTarget?_eq_some {available expected : TypeSet} {t : Ty} (hsize : sizes scope.arraySize)
    (h : widenTarget? scope available expected = some t) :
    expected.Accepts t ∧ t.isVector = true ∧ t.Sized sizes := by
  unfold widenTarget? at h
  split at h
  · obtain ⟨k, hpick, rfl⟩ := Option.map_eq_some_iff.mp h
    have hk := TypeSet.has_of_pick hpick
    rw [TypeSet.has_inter, Bool.and_eq_true, TypeSet.has_vectors] at hk
    refine ⟨TypeSet.accepts_ofKind _ hk.1, ?_, Ty.sized_ofKind hsize k⟩
    rw [Ty.isVector_of_kind? (Ty.kind?_ofKind _ k)]
    exact hk.2
  · cases h

theorem widening_sound {n : Node} {expected : TypeSet} {e : Expr} (hsize : sizes scope.arraySize)
    (hn : n.Resolves scope sizes)
    (h : widening scope (n.types scope) (fun s => n.resolve scope s) expected = .ok e) :
    Sound sizes expected e := by
  unfold widening at h
  split at h
  · rename_i target htarget
    obtain ⟨x, hx, rfl⟩ := Checked.map_eq_ok.mp h
    obtain ⟨hacc, hvec, hsized⟩ := widenTarget?_eq_some hsize htarget
    have hsound := hn _ _ hx
    have hnumber := Ty.eq_number.mp (TypeSet.accepts_singleton.mp hsound.accepted)
    exact ⟨hacc, .widen hsized hnumber hvec hsound.typed⟩
  · exact hn _ _ h

theorem resolveList_sound {ns : List Node} {expected : TypeSet} {es : List Expr}
    (hsize : sizes scope.arraySize) (hns : ∀ n ∈ ns, n.Resolves scope sizes)
    (h : resolveList scope ns expected = .ok es) :
    es.length = ns.length ∧ ∀ e ∈ es, Sound sizes expected e := by
  induction ns generalizing es with
  | nil =>
    rw [resolveList] at h
    cases h
    simp
  | cons n ns ih =>
    rw [resolveList] at h
    obtain ⟨⟨e, rest⟩, hboth, hpure⟩ := Checked.bind_eq_ok.mp h
    cases hpure
    obtain ⟨he, hrest⟩ := Checked.both_eq_ok.mp hboth
    obtain ⟨hlen, hall⟩ := ih (fun m hm => hns m (List.mem_cons_of_mem _ hm)) hrest
    refine ⟨by rw [List.length_cons, List.length_cons, hlen], ?_⟩
    intro x hx
    rcases List.mem_cons.mp hx with rfl | hx
    · exact widening_sound hsize (hns n List.mem_cons_self) he
    · exact hall x hx

theorem resolveFirst_eq (ns : List (Node × Node)) (expected : TypeSet) :
    resolveFirst scope ns expected = resolveList scope (ns.map Prod.fst) expected := by
  induction ns with
  | nil => rw [resolveFirst, List.map_nil, resolveList]
  | cons n ns ih => rw [resolveFirst, List.map_cons, resolveList, ih]

theorem resolveSecond_eq (ns : List (Node × Node)) (expected : TypeSet) :
    resolveSecond scope ns expected = resolveList scope (ns.map Prod.snd) expected := by
  induction ns with
  | nil => rw [resolveSecond, List.map_nil, resolveList]
  | cons n ns ih => rw [resolveSecond, List.map_cons, resolveList, ih]

/-- A node of one type takes part only where the context accepts the type. -/
theorem accepts_of_pickKind {path : Path} {t : Ty} {expected : TypeSet} {y : Checked Expr}
    {e : Expr} (h : (do discard (pickKind path t.set expected); y) = .ok e) :
    expected.Accepts t ∧ y = .ok e := by
  obtain ⟨u, hdiscard, hy⟩ := Checked.bind_eq_ok.mp h
  obtain ⟨k, hpick⟩ := Checked.discard_eq_ok.mp hdiscard
  obtain ⟨havailable, hexpected⟩ := pickKind_eq_ok hpick
  exact ⟨⟨k, Ty.has_set.mp havailable, hexpected⟩, hy⟩

theorem resolveFirst_sound {ns : List (Node × Node)} {expected : TypeSet} {es : List Expr}
    (hsize : sizes scope.arraySize) (hns : ∀ p ∈ ns, p.1.Resolves scope sizes)
    (h : resolveFirst scope ns expected = .ok es) :
    es.length = ns.length ∧ ∀ e ∈ es, Sound sizes expected e := by
  rw [resolveFirst_eq] at h
  rw [← List.length_map (f := Prod.fst)]
  refine resolveList_sound hsize ?_ h
  intro n hn
  obtain ⟨p, hp, rfl⟩ := List.mem_map.mp hn
  exact hns p hp

theorem resolveSecond_sound {ns : List (Node × Node)} {expected : TypeSet} {es : List Expr}
    (hsize : sizes scope.arraySize) (hns : ∀ p ∈ ns, p.2.Resolves scope sizes)
    (h : resolveSecond scope ns expected = .ok es) :
    es.length = ns.length ∧ ∀ e ∈ es, Sound sizes expected e := by
  rw [resolveSecond_eq] at h
  rw [← List.length_map (f := Prod.snd)]
  refine resolveList_sound hsize ?_ h
  intro n hn
  obtain ⟨p, hp, rfl⟩ := List.mem_map.mp hn
  exact hns p hp

theorem resolves_number (path : Path) (x : Double) : (Node.number path x).Resolves scope sizes := by
  intro expected e h
  obtain ⟨haccepts, hpure⟩ := accepts_of_pickKind (t := .number) h
  cases hpure
  exact ⟨haccepts, .number path x⟩

theorem resolves_bool (path : Path) (b : Bool) : (Node.bool path b).Resolves scope sizes := by
  intro expected e h
  obtain ⟨haccepts, hpure⟩ := accepts_of_pickKind (t := .boolean) h
  cases hpure
  exact ⟨haccepts, .bool path b⟩

theorem resolves_builtin (path : Path) {name : String} (known : name ∈ builtins) :
    (Node.builtin path name).Resolves scope sizes := by
  intro expected e h
  obtain ⟨haccepts, hpure⟩ := accepts_of_pickKind (t := .number) h
  cases hpure
  exact ⟨haccepts, .builtin path known⟩

theorem exists_color_of_isColorText {s : String} (h : Color.isColorText s = true) :
    ∃ c, Color.ofText s = .ok c := by
  unfold Color.isColorText at h
  cases hread : Color.ofText s with
  | error e => simp [hread, Except.toBool] at h
  | ok c => exact ⟨c, rfl⟩

theorem resolves_text (path : Path) (s : String) : (Node.text path s).Resolves scope sizes := by
  intro expected e h
  obtain ⟨k, hpick, h⟩ := Checked.bind_eq_ok.mp h
  obtain ⟨havailable, hexpected⟩ := pickKind_eq_ok hpick
  rw [types] at havailable
  by_cases hk : k = .color
  · subst hk
    have hcolor : Color.isColorText s = true := by
      by_contra hnot
      simp [hnot] at havailable
    obtain ⟨c, hc⟩ := exists_color_of_isColorText hcolor
    rw [hc] at h
    cases h
    exact ⟨⟨.color, rfl, hexpected⟩, .color path c⟩
  · have hstring : k = .string := by
      split_ifs at havailable
      · cases k with
        | string => rfl
        | color => exact absurd rfl hk
        | _ => cases havailable
      · simpa using havailable
    subst hstring
    cases h
    exact ⟨⟨.string, rfl, hexpected⟩, .text path s⟩

theorem resolves_array (hvector : ∀ n, IsVectorSize n → sizes n) (path : Path) {xs : List Double}
    (size : IsVectorSize xs.length) : (Node.array path xs).Resolves scope sizes := by
  intro expected e h
  obtain ⟨k, hpick, h⟩ := Checked.bind_eq_ok.mp h
  obtain ⟨havailable, hexpected⟩ := pickKind_eq_ok hpick
  rw [types] at havailable
  split_ifs at h with hk
  · subst hk
    split at h
    · cases h
      exact ⟨⟨.color, rfl, hexpected⟩, .color path _⟩
    · exact absurd h Checked.fail_ne_ok
  · cases h
    have harray : k = .array := by
      split_ifs at havailable
      · cases k with
        | array => rfl
        | color => exact absurd rfl hk
        | _ => cases havailable
      · simpa using havailable
    subst harray
    exact ⟨⟨.array, rfl, hexpected⟩, .array path (hvector _ size)⟩

theorem Hint.sized_type {h : Hint} (hvector : ∀ n, IsVectorSize n → sizes n)
    (hsize : sizes scope.arraySize) (sized : h.Sized) : (h.type scope.arraySize).Sized sizes := by
  cases h with
  | kind k => exact Ty.sized_ofKind hsize k
  | sized n => exact hvector n sized

theorem has_of_propertyKind? {expected : TypeSet} {k : Kind} (h : propertyKind? expected = some k) :
    expected.has k = true := by
  unfold propertyKind? at h
  split_ifs at h with hsingle hnumber
  · exact TypeSet.has_of_pick h
  · cases h
    exact hnumber
  · exact TypeSet.has_of_pick h

theorem resolves_get (hvector : ∀ n, IsVectorSize n → sizes n) (hsize : sizes scope.arraySize)
    (path : Path) (name : String) {hint : Option Hint} (sized : ∀ h ∈ hint, h.Sized) :
    (Node.get path name hint).Resolves scope sizes := by
  intro expected e h
  change resolveGet scope path name hint expected = .ok e at h
  rw [resolveGet.eq_def] at h
  cases hint with
  | some hint =>
    have hset : hint.set = (hint.type scope.arraySize).set := by
      cases hint with
      | kind k => cases k <;> rfl
      | sized n => rfl
    dsimp only at h
    rw [hset] at h
    obtain ⟨haccepts, hpure⟩ := accepts_of_pickKind h
    cases hpure
    exact ⟨haccepts, .get path name (Hint.sized_type hvector hsize (sized hint rfl))⟩
  | none =>
    dsimp only at h
    split at h
    · rename_i k hk
      cases h
      exact ⟨TypeSet.accepts_ofKind _ (has_of_propertyKind? hk),
        .get path name (Ty.sized_ofKind hsize k)⟩
    · exact absurd h Checked.fail_ne_ok

theorem resolves_var (hsize : sizes scope.arraySize) (path : Path) (name : String) :
    (Node.var path name).Resolves scope sizes := by
  intro expected e h
  change resolveVar scope path name expected = .ok e at h
  rw [resolveVar] at h
  split at h
  · exact absurd h Checked.fail_ne_ok
  · split at h
    · exact absurd h Checked.fail_ne_ok
    · obtain ⟨k, hpick, hpure⟩ := Checked.bind_eq_ok.mp h
      cases hpure
      obtain ⟨-, hexpected⟩ := pickKind_eq_ok hpick
      exact ⟨TypeSet.accepts_ofKind _ hexpected, .var path name (Ty.sized_ofKind hsize k)⟩

theorem resolveOperands_sound {k : Kind} {hasFixed : Bool} {ns : List Node} {es : List Expr}
    (hsize : sizes scope.arraySize) (hns : ∀ n ∈ ns, n.Resolves scope sizes)
    (h : resolveOperands scope k hasFixed ns = .ok es) :
    es.length = ns.length ∧
      ∀ e ∈ es, e.WellTyped sizes ∧ (e.type = .number ∨ e.type.kind? = some k) := by
  induction ns generalizing es with
  | nil =>
    rw [resolveOperands] at h
    cases h
    simp
  | cons n ns ih =>
    rw [resolveOperands] at h
    obtain ⟨⟨e, rest⟩, hboth, hpure⟩ := Checked.bind_eq_ok.mp h
    cases hpure
    obtain ⟨he, hrest⟩ := Checked.both_eq_ok.mp hboth
    obtain ⟨hlen, hall⟩ := ih (fun m hm => hns m (List.mem_cons_of_mem _ hm)) hrest
    refine ⟨by rw [List.length_cons, List.length_cons, hlen], ?_⟩
    intro x hx
    rcases List.mem_cons.mp hx with rfl | hx
    · have hsound := widening_sound hsize (hns n List.mem_cons_self) he
      refine ⟨hsound.typed, ?_⟩
      have haccepted := hsound.accepted
      unfold operandSet at haccepted
      split_ifs at haccepted
      · exact Or.inr (TypeSet.accepts_singleton.mp haccepted)
      · exact Or.inl (Ty.eq_number.mp (TypeSet.accepts_singleton.mp haccepted))
    · exact hall x hx

/-- Arithmetic gives numbers and vectors. -/
theorem mixable_of_arithmeticTypes {sets : List TypeSet} {k : Kind}
    (h : (arithmeticTypes sets).has k = true) : k = .number ∨ k.isVector = true := by
  cases k with
  | number => exact Or.inl rfl
  | color => exact Or.inr rfl
  | array => exact Or.inr rfl
  | boolean =>
    unfold arithmeticTypes at h
    simp only [TypeSet.has_union] at h
    split_ifs at h <;> simp at h
  | string =>
    unfold arithmeticTypes at h
    simp only [TypeSet.has_union] at h
    split_ifs at h <;> simp at h

theorem operandKind?_of_isArithmetic {op : Op} (h : op.isArithmetic = true) :
    op.operandKind? = none := by
  cases op <;> first | rfl | cases h

/-- Arithmetic on numbers. -/
theorem accepts_numbers {op : Op} {args : List Expr} (valid : op ∈ Op.valid)
    (arity : Arity.admits op.arity args.length = true) (harith : op.isArithmetic = true)
    (hargs : ∀ e ∈ args, e.type = .number) : op.Accepts (args.map Expr.type) .number := by
  refine ⟨valid, by rw [List.length_map]; exact arity, ?_⟩
  rw [operandKind?_of_isArithmetic harith]
  change if _ then _ else _
  rw [if_pos harith]
  refine ⟨?_, Or.inl rfl, fun hne => absurd rfl hne⟩
  intro t ht
  obtain ⟨e, he, rfl⟩ := List.mem_map.mp ht
  exact Or.inl (hargs e he)

/-- Arithmetic on vectors of one type, mixed with numbers. -/
theorem vectorCall_sound {path : Path} {op : Op} {k : Kind} {args : List Expr} {expected : TypeSet}
    {e : Expr} (valid : op ∈ Op.valid) (arity : Arity.admits op.arity args.length = true)
    (harith : op.isArithmetic = true) (hk : k.isVector = true) (hexpected : expected.has k = true)
    (hargs : ∀ e ∈ args, e.WellTyped sizes ∧ (e.type = .number ∨ e.type.kind? = some k))
    (h : vectorCall path op k args = .ok e) : Sound sizes expected e := by
  unfold vectorCall at h
  dsimp only at h
  split_ifs at h with hempty
  · exact absurd h Checked.fail_ne_ok
  · obtain ⟨t, hsame, hpure⟩ := Checked.bind_eq_ok.mp h
    cases hpure
    obtain ⟨x, hx⟩ := List.exists_mem_of_ne_nil _ (by simpa using hempty :
      args.filter (fun e => decide (e.type ≠ .number)) ≠ [])
    have hxt : x.type = t := sameType_eq_ok hsame x hx
    have hxargs : x ∈ args := (List.mem_filter.mp hx).1
    have hxn : x.type ≠ .number := by simpa using (List.mem_filter.mp hx).2
    have hkind : t.kind? = some k := by
      rw [← hxt]
      exact (hargs x hxargs).2.resolve_left hxn
    have hsized : t.Sized sizes := by
      rw [← hxt]
      exact (hargs x hxargs).1.type_sized
    refine ⟨⟨k, hkind, hexpected⟩, .call path hsized ⟨valid, ?_, ?_⟩ fun e he => (hargs e he).1⟩
    · rw [List.length_map]
      exact arity
    · rw [operandKind?_of_isArithmetic harith]
      change if _ then _ else _
      rw [if_pos harith]
      refine ⟨?_, Or.inr (by rw [Ty.isVector_of_kind? hkind, hk]), ?_⟩
      · intro u hu
        obtain ⟨y, hy, rfl⟩ := List.mem_map.mp hu
        by_cases hyn : y.type = .number
        · exact Or.inl hyn
        · exact Or.inr (sameType_eq_ok hsame y (List.mem_filter.mpr ⟨hy, by simpa using hyn⟩))
      · intro _
        rw [← hxt]
        exact List.mem_map_of_mem hxargs

/-- Operators with operands of a fixed kind. -/
theorem accepts_fixed {op : Op} {args : List Expr} {k : Kind} (valid : op ∈ Op.valid)
    (arity : Arity.admits op.arity args.length = true) (hkind : op.operandKind? = some k)
    (hargs : ∀ e ∈ args, e.type.kind? = some k) :
    op.Accepts (args.map Expr.type) (op.resultType args.length) := by
  refine ⟨valid, by rw [List.length_map]; exact arity, ?_⟩
  rw [hkind, List.length_map]
  refine ⟨?_, rfl⟩
  intro t ht
  obtain ⟨e, he, rfl⟩ := List.mem_map.mp ht
  exact hargs e he

/-- Comparisons of operands of one type. -/
theorem accepts_equal {op : Op} {args : List Expr} {t : Ty} (valid : op ∈ Op.valid)
    (arity : Arity.admits op.arity args.length = true) (hkind : op.operandKind? = none)
    (harith : op.isArithmetic = false) (hargs : ∀ e ∈ args, e.type = t) :
    op.Accepts (args.map Expr.type) (op.resultType args.length) := by
  refine ⟨valid, by rw [List.length_map]; exact arity, ?_⟩
  rw [hkind]
  change if _ then _ else _
  rw [if_neg (by simp [harith])]
  constructor
  · intro u hu v hv
    obtain ⟨x, hx, rfl⟩ := List.mem_map.mp hu
    obtain ⟨y, hy, rfl⟩ := List.mem_map.mp hv
    rw [hargs x hx, hargs y hy]
  · cases op with
    | equal | notEqual => rfl
    | mul | add | sub | div => cases harith
    | invalid => simp [Op.valid] at valid
    | _ => cases hkind

theorem sized_resultType {op : Op} {count : Nat} (hvector : ∀ n, IsVectorSize n → sizes n)
    (valid : op ∈ Op.valid) (arity : Arity.admits op.arity count = true) :
    (op.resultType count).Sized sizes := by
  cases op with
  | array =>
    have hbounds := Bool.and_eq_true_iff.mp arity
    exact hvector count ⟨of_decide_eq_true hbounds.1, of_decide_eq_true hbounds.2⟩
  | invalid => simp [Op.valid] at valid
  | _ => trivial

theorem resolves_call (hvector : ∀ n, IsVectorSize n → sizes n) (hsize : sizes scope.arraySize)
    (path : Path) {op : Op} {args : List Node} (valid : op ∈ Op.valid)
    (arity : Arity.admits op.arity args.length = true)
    (hargs : ∀ n ∈ args, n.Resolves scope sizes) : (Node.call path op args).Resolves scope sizes := by
  intro expected e h
  rw [resolve] at h
  split_ifs at h with harith
  · dsimp only at h
    split_ifs at h with hempty
    · exact absurd h Checked.fail_ne_ok
    · obtain ⟨k, hpick, h⟩ := Checked.bind_eq_ok.mp h
      obtain ⟨havailable, hexpected⟩ := pickKind_eq_ok hpick
      split_ifs at h with hk
      · obtain ⟨es, hes, hpure⟩ := Checked.bind_eq_ok.mp h
        cases hpure
        obtain ⟨hlen, hall⟩ := resolveList_sound hsize hargs hes
        subst hk
        refine ⟨⟨.number, rfl, hexpected⟩, .call path trivial ?_ fun x hx => (hall x hx).typed⟩
        refine accepts_numbers valid (by rw [hlen]; exact arity) harith ?_
        intro x hx
        exact Ty.eq_number.mp (TypeSet.accepts_singleton.mp (hall x hx).accepted)
      · obtain ⟨es, hes, h⟩ := Checked.bind_eq_ok.mp h
        obtain ⟨hlen, hall⟩ := resolveOperands_sound hsize hargs hes
        have hvec := (mixable_of_arithmeticTypes havailable).resolve_left hk
        exact vectorCall_sound valid (by rw [hlen]; exact arity) harith hvec hexpected hall h
  · obtain ⟨haccepts, h⟩ := accepts_of_pickKind h
    split at h
    · rename_i k hkind
      obtain ⟨es, hes, hpure⟩ := Checked.bind_eq_ok.mp h
      cases hpure
      obtain ⟨hlen, hall⟩ := resolveList_sound hsize hargs hes
      rw [← hlen] at arity haccepts ⊢
      refine ⟨haccepts, .call path (sized_resultType hvector valid arity) ?_
        fun x hx => (hall x hx).typed⟩
      refine accepts_fixed valid arity hkind ?_
      intro x hx
      exact TypeSet.accepts_singleton.mp (hall x hx).accepted
    · rename_i hkind
      dsimp only at h
      split at h
      · exact absurd h Checked.fail_ne_ok
      · obtain ⟨es, hes, h⟩ := Checked.bind_eq_ok.mp h
        obtain ⟨u, hsame, hpure⟩ := Checked.bind_eq_ok.mp h
        cases hpure
        obtain ⟨t, hsame⟩ := Checked.discard_eq_ok.mp hsame
        obtain ⟨hlen, hall⟩ := resolveList_sound hsize hargs hes
        rw [← hlen] at arity haccepts
        refine ⟨haccepts, .call path (sized_resultType hvector valid arity) ?_
          fun x hx => (hall x hx).typed⟩
        exact accepts_equal valid arity hkind (by simpa using harith) (sameType_eq_ok hsame)

/-- The one type of expressions of a kind is of that kind. -/
theorem sound_of_sameType {es : List Expr} {k : Kind} {t : Ty}
    (hes : ∀ e ∈ es, Sound sizes (.singleton k) e) (hsame : sameType es = .ok t) (hne : es ≠ []) :
    t.kind? = some k ∧ t.Sized sizes := by
  obtain ⟨e, he⟩ := List.exists_mem_of_ne_nil es hne
  obtain rfl := sameType_eq_ok hsame e he
  exact ⟨TypeSet.accepts_singleton.mp (hes e he).accepted, (hes e he).typed.type_sized⟩

theorem resolves_interpolate (hsize : sizes scope.arraySize) (path : Path) (exponent : Double)
    {input : Node} {stops : List (Node × Node)} (count : 2 ≤ stops.length)
    (hinput : input.Resolves scope sizes) (hstops : ∀ s ∈ stops, s.1.Resolves scope sizes)
    (houtputs : ∀ s ∈ stops, s.2.Resolves scope sizes) :
    (Node.interpolate path exponent input stops).Resolves scope sizes := by
  intro expected e h
  obtain ⟨k, hpick, h⟩ := Checked.bind_eq_ok.mp h
  obtain ⟨havailable, hexpected⟩ := pickKind_eq_ok hpick
  obtain ⟨⟨x, values, outputs⟩, hboth, h⟩ := Checked.bind_eq_ok.mp h
  obtain ⟨t, hsame, hpure⟩ := Checked.bind_eq_ok.mp h
  cases hpure
  obtain ⟨hx, hboth⟩ := Checked.both_eq_ok.mp hboth
  obtain ⟨hvalues, houts⟩ := Checked.both_eq_ok.mp hboth
  dsimp only at hx hvalues houts
  have hx := widening_sound hsize hinput hx
  obtain ⟨hvlen, hvalues⟩ := resolveFirst_sound hsize hstops hvalues
  obtain ⟨holen, houts⟩ := resolveSecond_sound hsize houtputs houts
  have htypes := sameType_eq_ok hsame
  have hne : outputs ≠ [] := List.ne_nil_of_length_pos (by omega)
  obtain ⟨hkind, hsized⟩ := sound_of_sameType houts hsame hne
  have hmixable : t = .number ∨ t.isVector = true := by
    rw [TypeSet.has_inter, Bool.and_eq_true, TypeSet.has_mixable, Bool.or_eq_true,
      decide_eq_true_eq] at havailable
    rcases havailable.2 with rfl | hvec
    · exact Or.inl (Ty.eq_number.mp hkind)
    · exact Or.inr (by rw [Ty.isVector_of_kind? hkind, hvec])
  refine ⟨⟨k, hkind, hexpected⟩, .interpolate path exponent hsized ?_ hmixable ?_ ?_ ?_ hx.typed ?_ ?_⟩
  · rw [List.length_zip]
    omega
  · exact Ty.eq_number.mp (TypeSet.accepts_singleton.mp hx.accepted)
  · intro s hs
    have hv := hvalues s.1 (List.of_mem_zip hs).1
    exact Ty.eq_number.mp (TypeSet.accepts_singleton.mp hv.accepted)
  · intro s hs
    exact htypes s.2 (List.of_mem_zip hs).2
  · intro s hs
    exact (hvalues s.1 (List.of_mem_zip hs).1).typed
  · intro s hs
    exact (houts s.2 (List.of_mem_zip hs).2).typed

/-- A label resolves to a literal of its kind. -/
theorem resolves_label {n : Node} {k : Kind} (h : n.labelKind? = some k) :
    n.Resolves scope sizes := by
  cases n with
  | number path x => exact resolves_number path x
  | bool path b => exact resolves_bool path b
  | text path s => exact resolves_text path s
  | _ => cases h

/-- The only type of the kind of a label. -/
theorem exists_labelType {n : Node} {k : Kind} (h : n.labelKind? = some k) :
    ∃ label : Ty, (label = .number ∨ label = .string ∨ label = .boolean) ∧
      ∀ t : Ty, t.kind? = some k → t = label := by
  cases n with
  | number path x =>
    cases h
    exact ⟨.number, by simp, fun t => Ty.eq_number.mp⟩
  | text path s =>
    cases h
    exact ⟨.string, by simp, fun t => Ty.eq_string.mp⟩
  | bool path b =>
    cases h
    exact ⟨.boolean, by simp, fun t => Ty.eq_boolean.mp⟩
  | _ => cases h

theorem resolves_select (hsize : sizes scope.arraySize) (path : Path) {input fallback : Node}
    {alternatives : List (Node × Node)} {k : Kind} (count : alternatives ≠ [])
    (hlabels : ∀ a ∈ alternatives, a.1.labelKind? = some k) (hinput : input.Resolves scope sizes)
    (houtputs : ∀ a ∈ alternatives, a.2.Resolves scope sizes)
    (hfallback : fallback.Resolves scope sizes) :
    (Node.select path input alternatives fallback).Resolves scope sizes := by
  obtain ⟨first, hfirst⟩ := List.exists_mem_of_ne_nil _ count
  have hhead : (alternatives.head?.bind fun a => a.1.labelKind?) = some k := by
    rw [List.head?_eq_some_head count, Option.bind_some]
    exact hlabels _ (List.head_mem count)
  obtain ⟨label, hlabel, hunique⟩ := exists_labelType (hlabels first hfirst)
  intro expected e h
  rw [resolve] at h
  dsimp only at h
  rw [hhead] at h
  obtain ⟨j, hpick, h⟩ := Checked.bind_eq_ok.mp h
  obtain ⟨-, hexpected⟩ := pickKind_eq_ok hpick
  obtain ⟨⟨x, labels, outputs, other⟩, hboth, h⟩ := Checked.bind_eq_ok.mp h
  obtain ⟨t, hsame, hpure⟩ := Checked.bind_eq_ok.mp h
  cases hpure
  obtain ⟨hx, hboth⟩ := Checked.both_eq_ok.mp hboth
  obtain ⟨hls, hboth⟩ := Checked.both_eq_ok.mp hboth
  obtain ⟨houts, hother⟩ := Checked.both_eq_ok.mp hboth
  dsimp only at hx hls houts hother
  have hx := widening_sound hsize hinput hx
  obtain ⟨hllen, hls⟩ := resolveFirst_sound hsize (fun a ha => resolves_label (hlabels a ha)) hls
  obtain ⟨holen, houts⟩ := resolveSecond_sound hsize houtputs houts
  have hother := widening_sound hsize hfallback hother
  have htypes := sameType_eq_ok hsame
  have hlast : other.type = t := htypes other (by simp)
  obtain ⟨hkind, hsized⟩ := sound_of_sameType
    (List.forall_mem_append.mpr ⟨houts, List.forall_mem_singleton.mpr hother⟩) hsame (by simp)
  refine ⟨⟨j, hkind, hexpected⟩,
    .select path hsized ?_ hlabel ?_ ?_ ?_ hlast hx.typed ?_ ?_ hother.typed⟩
  · have hpos : 0 < (labels.zip outputs).length := by
      rw [List.length_zip, hllen, holen, Nat.min_self]
      exact List.length_pos_iff.mpr count
    exact List.ne_nil_of_length_pos hpos
  · exact hunique _ (TypeSet.accepts_singleton.mp hx.accepted)
  · intro a ha
    have hl := hls a.1 (List.of_mem_zip ha).1
    exact hunique _ (TypeSet.accepts_singleton.mp hl.accepted)
  · intro a ha
    exact htypes a.2 (List.mem_append_left _ (List.of_mem_zip ha).2)
  · intro a ha
    exact (hls a.1 (List.of_mem_zip ha).1).typed
  · intro a ha
    exact (houts a.2 (List.of_mem_zip ha).2).typed

theorem resolves_cases (hsize : sizes scope.arraySize) (path : Path) {fallback : Node}
    {alternatives : List (Node × Node)} (count : alternatives ≠ [])
    (hconditions : ∀ a ∈ alternatives, a.1.Resolves scope sizes)
    (houtputs : ∀ a ∈ alternatives, a.2.Resolves scope sizes)
    (hfallback : fallback.Resolves scope sizes) :
    (Node.cases path alternatives fallback).Resolves scope sizes := by
  intro expected e h
  obtain ⟨j, hpick, h⟩ := Checked.bind_eq_ok.mp h
  obtain ⟨-, hexpected⟩ := pickKind_eq_ok hpick
  obtain ⟨⟨conditions, outputs, other⟩, hboth, h⟩ := Checked.bind_eq_ok.mp h
  obtain ⟨t, hsame, hpure⟩ := Checked.bind_eq_ok.mp h
  cases hpure
  obtain ⟨hconds, hboth⟩ := Checked.both_eq_ok.mp hboth
  obtain ⟨houts, hother⟩ := Checked.both_eq_ok.mp hboth
  dsimp only at hconds houts hother
  obtain ⟨hclen, hconds⟩ := resolveFirst_sound hsize hconditions hconds
  obtain ⟨holen, houts⟩ := resolveSecond_sound hsize houtputs houts
  have hother := widening_sound hsize hfallback hother
  have htypes := sameType_eq_ok hsame
  have hlast : other.type = t := htypes other (by simp)
  obtain ⟨hkind, hsized⟩ := sound_of_sameType
    (List.forall_mem_append.mpr ⟨houts, List.forall_mem_singleton.mpr hother⟩) hsame (by simp)
  refine ⟨⟨j, hkind, hexpected⟩, .cases path hsized ?_ ?_ ?_ hlast ?_ ?_ hother.typed⟩
  · have hpos : 0 < (conditions.zip outputs).length := by
      rw [List.length_zip, hclen, holen, Nat.min_self]
      exact List.length_pos_iff.mpr count
    exact List.ne_nil_of_length_pos hpos
  · intro a ha
    have hc := hconds a.1 (List.of_mem_zip ha).1
    exact Ty.eq_boolean.mp (TypeSet.accepts_singleton.mp hc.accepted)
  · intro a ha
    exact htypes a.2 (List.mem_append_left _ (List.of_mem_zip ha).2)
  · intro a ha
    exact (hconds a.1 (List.of_mem_zip ha).1).typed
  · intro a ha
    exact (houts a.2 (List.of_mem_zip ha).2).typed

/-- Every well-formed node resolves soundly, by induction on its form. -/
theorem WellFormed.resolves {n : Node} (hvector : ∀ n, IsVectorSize n → sizes n)
    (hsize : sizes scope.arraySize) (hn : n.WellFormed) : n.Resolves scope sizes := by
  induction hn with
  | @number path x => exact resolves_number path x
  | bool path b => exact resolves_bool path b
  | text path s => exact resolves_text path s
  | array path size => exact resolves_array hvector path size
  | get path name sized => exact resolves_get hvector hsize path name sized
  | var path name => exact resolves_var hsize path name
  | builtin path known => exact resolves_builtin path known
  | call path valid arity _ operands => exact resolves_call hvector hsize path valid arity operands
  | interpolate path exponent count _ _ _ input stops outputs =>
    exact resolves_interpolate hsize path exponent count input stops outputs
  | select path count labels _ _ _ _ input _ outputs fallback =>
    exact resolves_select hsize path count labels input outputs fallback
  | cases path count _ _ _ conditions outputs fallback =>
    exact resolves_cases hsize path count conditions outputs fallback

end Node

/-- Building is sound for every value, when the size of unsized arrays is one of the sizes. -/
theorem buildExpr_sound {scope : Scope} {sizes : Nat → Prop}
    (hvector : ∀ n, IsVectorSize n → sizes n) (hsize : sizes scope.arraySize) {path : Path}
    {raw : Value} {expected : TypeSet} {e : Expr} (h : buildExpr scope path raw expected = .ok e) :
    expected.Accepts e.type ∧ e.WellTyped sizes := by
  unfold buildExpr at h
  obtain ⟨n, hread, hbuild⟩ := Checked.bind_eq_ok.mp h
  have hwf := Node.read_wellFormed path raw hread
  have hsound := Node.widening_sound hsize (hwf.resolves hvector hsize) hbuild
  exact ⟨hsound.accepted, hsound.typed⟩

/-- An expression built at a type has that type. Unsized arrays take the size of the type. -/
theorem buildOfType_sound {vars : OrderedMap String Value} {sizes : Nat → Prop}
    (hvector : ∀ n, IsVectorSize n → sizes n) {want : Ty} (hwant : ∀ n, want = .array n → sizes n)
    {path : Path} {raw : Value} {e : Expr} (h : buildOfType vars path raw want = .ok e) :
    e.type = want ∧ e.WellTyped sizes := by
  unfold buildOfType at h
  obtain ⟨x, hbuild, h⟩ := Checked.bind_eq_ok.mp h
  split_ifs at h with htype
  · cases h
    refine ⟨htype, (buildExpr_sound hvector ?_ hbuild).2⟩
    cases want with
    | array n => exact hwant n rfl
    | _ => exact hvector 4 (by decide)
  · exact absurd h Checked.fail_ne_ok

theorem Builder.collect_eq_some {b b' : Builder} {outcome : Checked Expr} {e : Expr}
    (h : b.collect outcome = (some e, b')) : outcome = .ok e := by
  unfold Builder.collect at h
  split at h
  · cases h
    rfl
  · cases h

/-- Expressions that some builder gives, where arrays that are asked for have one of the sizes. -/
def Expr.Built (sizes : Nat → Prop) (e : Expr) : Prop :=
  ∃ (b b' : Builder) (path : Path) (raw : Value),
    (∃ expected, b.build path raw expected = (some e, b')) ∨
      ∃ want : Ty, (∀ n, want = .array n → sizes n) ∧ b.buildType path raw want = (some e, b')

theorem Expr.Built.wellTyped {sizes : Nat → Prop} {e : Expr} (h : e.Built sizes) :
    e.WellTyped fun n => IsVectorSize n ∨ sizes n := by
  obtain ⟨b, b', path, raw, ⟨expected, hbuild⟩ | ⟨want, hwant, hbuild⟩⟩ := h
  · have hdefault : IsVectorSize defaultArraySize := by decide
    exact (buildExpr_sound (fun n hn => Or.inl hn) (Or.inl hdefault)
      (Builder.collect_eq_some hbuild)).2
  · exact (buildOfType_sound (fun n hn => Or.inl hn) (fun n hn => Or.inr (hwant n hn))
      (Builder.collect_eq_some hbuild)).2

/-- A builder gives expressions that keep every typing rule: of an accepted kind where a set of
kinds is expected, and of exactly the type that is asked for. Arrays have two to four components,
or the size that is asked for. -/
theorem Builder.build_wellTyped (b b' : Builder) (path : Path) (raw : Value) (e : Expr) :
    (∀ expected, b.build path raw expected = (some e, b') →
      expected.Accepts e.type ∧ e.WellTyped IsVectorSize) ∧
    (∀ want, b.buildType path raw want = (some e, b') →
      e.type = want ∧ want.set.Accepts e.type ∧
        e.WellTyped (fun n => IsVectorSize n ∨ want = .array n) ∧
        (want.Sized IsVectorSize → e.WellTyped IsVectorSize)) := by
  constructor
  · intro expected h
    have hdefault : IsVectorSize defaultArraySize := by decide
    exact buildExpr_sound (fun n hn => hn) hdefault (Builder.collect_eq_some h)
  · intro want h
    have h := Builder.collect_eq_some h
    have hsound : e.type = want ∧ e.WellTyped (fun n => IsVectorSize n ∨ want = .array n) :=
      buildOfType_sound (fun n hn => Or.inl hn) (fun n hn => Or.inr hn) h
    obtain ⟨htype, htyped⟩ := hsound
    refine ⟨htype, ?_, htyped, ?_⟩
    · have hsized := htyped.type_sized
      rw [htype] at hsized ⊢
      cases want with
      | invalid => exact hsized.elim
      | _ => exact ⟨_, rfl, by simp [Ty.set, Ty.kind?]⟩
    · intro hwant
      refine (buildOfType_sound (fun n hn => hn) ?_ h).2
      rintro n rfl
      exact hwant

/-- A number that scales a property of two components. -/
private def scaledProperty : Value :=
  .list [.text "*", .double (.finite 2), .list [.text "get", .text "x", .text "number[2]"]]

private def scaledExpr : Expr :=
  .call ⟨"size"⟩ .mul [.number ⟨"size[1]"⟩ (.finite 2), .get ⟨"size[2]"⟩ "x" (.array 2)] (.array 2)

theorem Builder.build_wellTyped_scaled :
    Builder.build ⟨.empty, []⟩ ⟨"size"⟩ scaledProperty .any = (some scaledExpr, ⟨.empty, []⟩) ∧
      Builder.buildType ⟨.empty, []⟩ ⟨"size"⟩ scaledProperty (.array 2) =
        (some scaledExpr, ⟨.empty, []⟩) ∧
      scaledExpr.WellTyped IsVectorSize ∧ scaledExpr.type = .array 2 := by
  have hbuild : Builder.build ⟨.empty, []⟩ ⟨"size"⟩ scaledProperty .any =
      (some scaledExpr, ⟨.empty, []⟩) := by cbv
  have htype : Builder.buildType ⟨.empty, []⟩ ⟨"size"⟩ scaledProperty (.array 2) =
      (some scaledExpr, ⟨.empty, []⟩) := by cbv
  have hsound := build_wellTyped ⟨.empty, []⟩ ⟨.empty, []⟩ ⟨"size"⟩ scaledProperty scaledExpr
  exact ⟨hbuild, htype, (hsound.1 .any hbuild).2, (hsound.2 (.array 2) htype).1⟩

end ShaderStyle
