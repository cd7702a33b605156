import ShaderStyle.Proofs.Emission.Traversal
import ShaderStyle.Proofs.Typing.Soundness

/-! The leaves of built expressions: numbers and arrays are finite, and variables have one of the
kinds that their values can take. -/
namespace ShaderStyle

namespace Expr

/-- A number or an array that is finite, or a variable of a kind that its value can take, if the
node is one. -/
def ValidLeaf (vars : OrderedMap String Value) : Expr → Prop
  | .number _ x => x.isFinite = true
  | .array _ xs => ∀ x ∈ xs, x.isFinite = true
  | .var _ name type => ∃ v, vars.get? name = some v ∧ v.types.Accepts type
  | _ => True

def ValidLeaves (vars : OrderedMap String Value) (e : Expr) : Prop :=
  ∀ n ∈ e.nodes, n.ValidLeaf vars

/-- A number or an array that is finite, if the node is one. -/
def FiniteLiteral : Expr → Prop
  | .number _ x => x.isFinite = true
  | .array _ xs => ∀ x ∈ xs, x.isFinite = true
  | _ => True

def FiniteLiterals (e : Expr) : Prop := ∀ n ∈ e.nodes, n.FiniteLiteral

variable {vars : OrderedMap String Value}

theorem ValidLeaves.finiteLiterals {e : Expr} (h : e.ValidLeaves vars) : e.FiniteLiterals := by
  intro n hn
  have hleaf := h n hn
  cases n with
  | number | array => exact hleaf
  | _ => trivial

namespace ValidLeaves

variable {path : Path} {type : Ty}

theorem leaf {e : Expr} (alone : e.nodes = [e]) (h : e.ValidLeaf vars) : e.ValidLeaves vars := by
  intro n hn
  rw [alone] at hn
  rwa [List.mem_singleton.mp hn]

theorem call {op : Op} {args : List Expr} (h : ∀ e ∈ args, e.ValidLeaves vars) :
    (Expr.call path op args type).ValidLeaves vars := by
  intro n hn
  rw [nodes, nodesList_eq] at hn
  rcases List.mem_cons.mp hn with rfl | hn
  · trivial
  · obtain ⟨e, he, hn⟩ := List.mem_flatMap.mp hn
    exact h e he n hn

theorem pairs {ps : List (Expr × Expr)} (h : ∀ p ∈ ps, p.1.ValidLeaves vars ∧ p.2.ValidLeaves vars)
    {ns : List Expr} (hns : ns ∈ nodesPairs ps) : ∀ n ∈ ns, n.ValidLeaf vars := by
  rw [nodesPairs_eq] at hns
  obtain ⟨p, hp, rfl⟩ := List.mem_map.mp hns
  intro n hn
  rcases List.mem_append.mp hn with hn | hn
  · exact (h p hp).1 n hn
  · exact (h p hp).2 n hn

theorem interpolate {exponent : Double} {input : Expr} {stops : List (Expr × Expr)}
    {spare : List Expr} (hinput : input.ValidLeaves vars)
    (hstops : ∀ p ∈ stops, p.1.ValidLeaves vars ∧ p.2.ValidLeaves vars) :
    (Expr.interpolate path exponent input stops spare type).ValidLeaves vars := by
  intro n hn
  rw [nodes] at hn
  simp only [List.mem_cons, List.mem_append, List.mem_flatten] at hn
  rcases hn with rfl | hn | ⟨ns, hns, hn⟩
  · trivial
  · exact hinput n hn
  · exact pairs hstops hns n hn

theorem select {input fallback : Expr} {alternatives : List (Expr × Expr)} {spare : List Expr}
    (hinput : input.ValidLeaves vars) (hfallback : fallback.ValidLeaves vars)
    (halternatives : ∀ p ∈ alternatives, p.1.ValidLeaves vars ∧ p.2.ValidLeaves vars) :
    (Expr.select path input alternatives spare fallback type).ValidLeaves vars := by
  intro n hn
  rw [nodes] at hn
  simp only [List.mem_cons, List.mem_append, List.mem_flatten, List.mem_reverse] at hn
  rcases hn with rfl | hn | hn | ⟨ns, hns, hn⟩
  · trivial
  · exact hinput n hn
  · exact hfallback n hn
  · exact pairs halternatives hns n hn

theorem cases {fallback : Expr} {alternatives : List (Expr × Expr)}
    (hfallback : fallback.ValidLeaves vars)
    (halternatives : ∀ p ∈ alternatives, p.1.ValidLeaves vars ∧ p.2.ValidLeaves vars) :
    (Expr.cases path alternatives fallback type).ValidLeaves vars := by
  intro n hn
  rw [nodes] at hn
  simp only [List.mem_cons, List.mem_append, List.mem_flatten, List.mem_reverse] at hn
  rcases hn with rfl | hn | ⟨ns, hns, hn⟩
  · trivial
  · exact hfallback n hn
  · exact pairs halternatives hns n hn

theorem widen {x : Expr} (h : x.ValidLeaves vars) : (Expr.widen x type).ValidLeaves vars := by
  intro n hn
  rcases List.mem_cons.mp hn with rfl | hn
  · trivial
  · exact h n hn

end ValidLeaves

end Expr

namespace Checked

variable {α β : Type}

/-- Succeeds only with values that have the property. -/
def Gives (P : α → Prop) (x : Checked α) : Prop := ∀ a, x = .ok a → P a

namespace Gives

variable {P : α → Prop} {Q : β → Prop} {x : Checked α}

theorem ok {a : α} (h : P a) : Gives P (.ok a) := by
  rintro _ ⟨⟩
  exact h

theorem fail (path : Path) (cause : Cause) : Gives P (Checked.fail path cause) :=
  fun _ h => absurd h Checked.fail_ne_ok

theorem any (x : Checked α) : Gives (fun _ => True) x := fun _ _ => trivial

theorem bind {f : α → Checked β} (hx : Gives P x) (hf : ∀ a, P a → Gives Q (f a)) :
    Gives Q (x >>= f) := by
  intro b hb
  obtain ⟨a, ha, hb⟩ := bind_eq_ok.mp hb
  exact hf a (hx a ha) b hb

theorem both {y : Checked β} (hx : Gives P x) (hy : Gives Q y) :
    Gives (fun p => P p.1 ∧ Q p.2) (x.both y) := by
  intro p hp
  obtain ⟨ha, hb⟩ := both_eq_ok.mp hp
  exact ⟨hx _ ha, hy _ hb⟩

theorem map {f : α → β} (hx : Gives P x) (hf : ∀ a, P a → Q (f a)) : Gives Q (Except.map f x) := by
  intro b hb
  obtain ⟨a, ha, rfl⟩ := map_eq_ok.mp hb
  exact hf a (hx a ha)

end Gives

end Checked

open Checked (Gives)

namespace Node

variable {scope : Scope}

/-- Every expression that the node becomes has valid leaves. -/
def ResolvesValid (scope : Scope) (n : Node) : Prop :=
  ∀ expected, Gives (Expr.ValidLeaves scope.vars) (n.resolve scope expected)

theorem valid_widening {n : Node} (hn : n.ResolvesValid scope) (expected : TypeSet) :
    Gives (Expr.ValidLeaves scope.vars)
      (widening scope (n.types scope) (fun s => n.resolve scope s) expected) := by
  unfold widening
  split
  · exact (hn _).map fun _ => .widen
  · exact hn _

theorem valid_resolveList {ns : List Node} (hns : ∀ n ∈ ns, n.ResolvesValid scope)
    (expected : TypeSet) :
    Gives (fun es => ∀ e ∈ es, e.ValidLeaves scope.vars) (resolveList scope ns expected) := by
  induction ns with
  | nil =>
    rw [resolveList]
    exact .ok (by simp)
  | cons n ns ih =>
    rw [resolveList]
    have hrest := ih fun m hm => hns m (List.mem_cons_of_mem _ hm)
    refine ((valid_widening (hns n (by simp)) expected).both hrest).bind fun p hp => ?_
    exact .ok (List.forall_mem_cons.mpr hp)

theorem valid_resolveFirst {ns : List (Node × Node)} (hns : ∀ p ∈ ns, p.1.ResolvesValid scope)
    (expected : TypeSet) :
    Gives (fun es => ∀ e ∈ es, e.ValidLeaves scope.vars) (resolveFirst scope ns expected) := by
  rw [resolveFirst_eq]
  refine valid_resolveList (fun n hn => ?_) expected
  obtain ⟨p, hp, rfl⟩ := List.mem_map.mp hn
  exact hns p hp

theorem valid_resolveSecond {ns : List (Node × Node)} (hns : ∀ p ∈ ns, p.2.ResolvesValid scope)
    (expected : TypeSet) :
    Gives (fun es => ∀ e ∈ es, e.ValidLeaves scope.vars) (resolveSecond scope ns expected) := by
  rw [resolveSecond_eq]
  refine valid_resolveList (fun n hn => ?_) expected
  obtain ⟨p, hp, rfl⟩ := List.mem_map.mp hn
  exact hns p hp

theorem valid_resolveOperands {ns : List Node} (hns : ∀ n ∈ ns, n.ResolvesValid scope) (k : Kind)
    (hasFixed : Bool) :
    Gives (fun es => ∀ e ∈ es, e.ValidLeaves scope.vars) (resolveOperands scope k hasFixed ns) := by
  induction ns with
  | nil =>
    rw [resolveOperands]
    exact .ok (by simp)
  | cons n ns ih =>
    rw [resolveOperands]
    have hrest := ih fun m hm => hns m (List.mem_cons_of_mem _ hm)
    refine ((valid_widening (hns n (by simp)) _).both hrest).bind fun p hp => ?_
    exact .ok (List.forall_mem_cons.mpr hp)

theorem valid_resolve_call {path : Path} {op : Op} {args : List Node}
    (hargs : ∀ n ∈ args, n.ResolvesValid scope) : (Node.call path op args).ResolvesValid scope := by
  intro expected
  rw [resolve]
  dsimp only
  split_ifs
  · exact .fail _ _
  · refine (Gives.any _).bind fun k _ => ?_
    split_ifs
    · exact (valid_resolveList hargs _).bind fun es hes => .ok (.call hes)
    · refine (valid_resolveOperands hargs _ _).bind fun es hes => ?_
      unfold vectorCall
      dsimp only
      split
      · exact .fail _ _
      · exact (Gives.any _).bind fun _ _ => .ok (.call hes)
  · refine (Gives.any _).bind fun _ _ => ?_
    split
    · exact (valid_resolveList hargs _).bind fun es hes => .ok (.call hes)
    · split
      · exact .fail _ _
      · refine (valid_resolveList hargs _).bind fun es hes => ?_
        exact (Gives.any _).bind fun _ _ => .ok (.call hes)

theorem valid_zip {as bs : List Expr} (has : ∀ e ∈ as, e.ValidLeaves scope.vars)
    (hbs : ∀ e ∈ bs, e.ValidLeaves scope.vars) :
    ∀ p ∈ as.zip bs, p.1.ValidLeaves scope.vars ∧ p.2.ValidLeaves scope.vars := by
  intro p hp
  obtain ⟨ha, hb⟩ := List.of_mem_zip hp
  exact ⟨has _ ha, hbs _ hb⟩

/-- The leaves of a well-formed node stay valid, by induction on its form. -/
theorem WellFormed.resolvesValid {n : Node} (hn : n.WellFormed) : n.ResolvesValid scope := by
  induction hn with
  | number path finite =>
    intro expected
    rw [resolve]
    exact (Gives.any _).bind fun _ _ => .ok (.leaf rfl finite)
  | bool path b =>
    intro expected
    rw [resolve]
    exact (Gives.any _).bind fun _ _ => .ok (.leaf rfl trivial)
  | text path s =>
    intro expected
    rw [resolve]
    refine (Gives.any _).bind fun k _ => ?_
    split
    · exact .ok (.leaf rfl trivial)
    · exact .ok (.leaf rfl trivial)
  | array path size finite =>
    intro expected
    rw [resolve]
    refine (Gives.any _).bind fun k _ => ?_
    split_ifs
    · split
      · exact .ok (.leaf rfl trivial)
      · exact .fail _ _
    · exact .ok (.leaf rfl finite)
  | @get path name hint =>
    intro expected
    rw [resolve]
    unfold resolveGet
    split
    · exact (Gives.any _).bind fun _ _ => .ok (.leaf rfl trivial)
    · split
      · exact .ok (.leaf rfl trivial)
      · exact .fail _ _
  | var path name =>
    intro expected
    rw [resolve, resolveVar]
    split
    · exact .fail _ _
    · next v bound =>
      split_ifs
      · exact .fail _ _
      · have hkind : Gives (fun k => v.types.has k = true) (pickKind path v.types expected) :=
          fun _ hk => (pickKind_eq_ok hk).1
        exact hkind.bind fun k hk => .ok (.leaf rfl ⟨v, bound, TypeSet.accepts_ofKind _ hk⟩)
  | builtin path =>
    intro expected
    rw [resolve]
    exact (Gives.any _).bind fun _ _ => .ok (.leaf rfl trivial)
  | call path _ _ _ operands => exact valid_resolve_call operands
  | interpolate path exponent _ _ _ _ input stops outputs =>
    intro expected
    rw [resolve]
    refine (Gives.any _).bind fun k _ => ?_
    have hstops := (valid_resolveFirst stops .numbers).both
      (valid_resolveSecond outputs (.singleton k))
    refine ((valid_widening input _).both hstops).bind
      fun _ hparts => ?_
    obtain ⟨hinput, hvalues, houtputs⟩ := hparts
    exact (Gives.any _).bind fun _ _ => .ok (.interpolate hinput (valid_zip hvalues houtputs))
  | select path _ _ _ _ _ _ input labels outputs fallback =>
    intro expected
    rw [resolve]
    refine (Gives.any _).bind fun k _ => ?_
    refine ((valid_widening input _).both ((valid_resolveFirst labels _).both
      ((valid_resolveSecond outputs _).both (valid_widening fallback _)))).bind
      fun _ hparts => ?_
    obtain ⟨hinput, hlabels, houtputs, hfallback⟩ := hparts
    exact (Gives.any _).bind fun _ _ =>
      .ok (.select hinput hfallback (valid_zip hlabels houtputs))
  | cases path _ _ _ _ conditions outputs fallback =>
    intro expected
    rw [resolve]
    refine (Gives.any _).bind fun k _ => ?_
    refine ((valid_resolveFirst conditions _).both
      ((valid_resolveSecond outputs _).both (valid_widening fallback _))).bind
      fun _ hparts => ?_
    obtain ⟨hconditions, houtputs, hfallback⟩ := hparts
    exact (Gives.any _).bind fun _ _ => .ok (.cases hfallback (valid_zip hconditions houtputs))

end Node

theorem valid_buildExpr (scope : Scope) (path : Path) (raw : Value) (expected : TypeSet) :
    Gives (Expr.ValidLeaves scope.vars) (buildExpr scope path raw expected) := by
  have hread : Gives Node.WellFormed (Node.read path raw) := fun _ => Node.read_wellFormed path raw
  exact hread.bind fun n hn => Node.valid_widening hn.resolvesValid expected

theorem valid_buildOfType (vars : OrderedMap String Value) (path : Path) (raw : Value) (want : Ty) :
    Gives (Expr.ValidLeaves vars) (buildOfType vars path raw want) := by
  refine (valid_buildExpr ⟨vars, _⟩ path raw _).bind fun e he => ?_
  split_ifs
  · exact .ok he
  · exact .fail _ _

/-- Builders refuse numbers that are not finite. -/
theorem Expr.Built.finiteLiterals {sizes : Nat → Prop} {e : Expr} (h : e.Built sizes) :
    e.FiniteLiterals := by
  obtain ⟨b, b', path, raw, ⟨expected, hbuild⟩ | ⟨want, -, hbuild⟩⟩ := h
  · exact (valid_buildExpr _ path raw expected e (Builder.collect_eq_some hbuild)).finiteLiterals
  · exact (valid_buildOfType _ path raw want e (Builder.collect_eq_some hbuild)).finiteLiterals

end ShaderStyle
