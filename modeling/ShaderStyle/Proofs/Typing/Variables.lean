import ShaderStyle.Proofs.Typing.Reports

/-! Building depends on variables only through the kinds that their values can take. -/
namespace ShaderStyle

namespace Checked

variable {α β : Type}

/-- Outcomes that give the same value, or both fail, for whatever reasons. -/
def Alike (x y : Checked α) : Prop := x.toOption = y.toOption

namespace Alike

theorem refl (x : Checked α) : Alike x x := rfl

theorem fail (path : Path) (cause cause' : Cause) :
    Alike (Checked.fail path cause : Checked α) (Checked.fail path cause') := rfl

theorem bind {x y : Checked α} {f g : α → Checked β} (h : Alike x y)
    (h' : ∀ a, Alike (f a) (g a)) : Alike (x >>= f) (y >>= g) := by
  cases x with
  | ok a =>
    cases y with
    | ok b =>
      obtain rfl : a = b := Option.some.inj h
      exact h' a
    | error js => cases h
  | error is =>
    cases y with
    | ok b => cases h
    | error js => rfl

theorem both {x x' : Checked α} {y y' : Checked β} (h : Alike x x') (h' : Alike y y') :
    Alike (x.both y) (x'.both y') := by
  cases x <;> cases x' <;> cases h <;> cases y <;> cases y' <;> cases h' <;> rfl

theorem map {x y : Checked α} (h : Alike x y) (f : α → β) :
    Alike (Except.map f x) (Except.map f y) := by
  cases x <;> cases y <;> cases h <;> rfl

end Alike

end Checked

open Checked (Alike)

/-- A name that both stores lack, or that both bind to values of the same kinds. -/
def SameTypes (vars vars' : OrderedMap String Value) (name : String) : Prop :=
  (vars.get? name).map Value.types = (vars'.get? name).map Value.types

instance (vars vars' : OrderedMap String Value) : DecidablePred (SameTypes vars vars') :=
  fun name => inferInstanceAs
    (Decidable ((vars.get? name).map Value.types = (vars'.get? name).map Value.types))

namespace Node

mutual

/-- The style variables that a node refers to. -/
def variableNames : Node → List String
  | .var _ name => [name]
  | .call _ _ args => variableNamesList args
  | .interpolate _ _ input stops => input.variableNames ++ variableNamesPairs stops
  | .select _ input alternatives fallback =>
    input.variableNames ++ (variableNamesPairs alternatives ++ fallback.variableNames)
  | .cases _ alternatives fallback => variableNamesPairs alternatives ++ fallback.variableNames
  | _ => []

def variableNamesList : List Node → List String
  | [] => []
  | n :: ns => n.variableNames ++ variableNamesList ns

def variableNamesPairs : List (Node × Node) → List String
  | [] => []
  | (a, b) :: rest => a.variableNames ++ (b.variableNames ++ variableNamesPairs rest)

end

theorem variableNames_subset_list {ns : List Node} {n : Node} (hn : n ∈ ns) :
    n.variableNames ⊆ variableNamesList ns := by
  induction ns with
  | nil => cases hn
  | cons m ns ih =>
    rw [variableNamesList]
    rcases List.mem_cons.mp hn with rfl | hn
    · exact List.subset_append_left _ _
    · exact List.subset_append_of_subset_right _ (ih hn)

theorem variableNames_subset_pairs {ps : List (Node × Node)} {p : Node × Node} (hp : p ∈ ps) :
    p.1.variableNames ++ p.2.variableNames ⊆ variableNamesPairs ps := by
  induction ps with
  | nil => cases hp
  | cons q ps ih =>
    rw [variableNamesPairs, ← List.append_assoc]
    rcases List.mem_cons.mp hp with rfl | hp
    · exact List.subset_append_left _ _
    · exact List.subset_append_of_subset_right _ (ih hp)

theorem typesList_eq (scope : Scope) (ns : List Node) :
    typesList scope ns = ns.map (types scope) := by
  induction ns with
  | nil => rfl
  | cons n ns ih => rw [typesList, ih, List.map_cons]

theorem typesSecond_eq (scope : Scope) (ps : List (Node × Node)) :
    typesSecond scope ps = typesList scope (ps.map Prod.snd) := by
  induction ps with
  | nil => rfl
  | cons p ps ih => rw [typesSecond, ih, List.map_cons, typesList]

section Unaffected

variable {vars vars' : OrderedMap String Value} {size : Nat} {path : Path}

/-- A node that two stores of variables do not tell apart: it can take the same kinds, and it
becomes the same expression. -/
def Unaffected (vars vars' : OrderedMap String Value) (size : Nat) (n : Node) : Prop :=
  n.types ⟨vars, size⟩ = n.types ⟨vars', size⟩ ∧
    ∀ expected, Alike (n.resolve ⟨vars, size⟩ expected) (n.resolve ⟨vars', size⟩ expected)

theorem alike_widening {n : Node} (h : n.Unaffected vars vars' size) (expected : TypeSet) :
    Alike
      (widening ⟨vars, size⟩ (n.types ⟨vars, size⟩) (fun s => n.resolve ⟨vars, size⟩ s) expected)
      (widening ⟨vars', size⟩ (n.types ⟨vars', size⟩) (fun s => n.resolve ⟨vars', size⟩ s)
        expected) := by
  obtain ⟨htypes, hresolve⟩ := h
  have htarget : widenTarget? ⟨vars, size⟩ (n.types ⟨vars, size⟩) expected =
      widenTarget? ⟨vars', size⟩ (n.types ⟨vars', size⟩) expected := by
    rw [htypes]
    rfl
  rw [widening, widening, htarget]
  split
  · exact (hresolve _).map _
  · exact hresolve _

theorem typesList_congr {ns : List Node} (h : ∀ n ∈ ns, n.Unaffected vars vars' size) :
    typesList ⟨vars, size⟩ ns = typesList ⟨vars', size⟩ ns := by
  rw [typesList_eq, typesList_eq]
  exact List.map_congr_left fun n hn => (h n hn).1

theorem typesSecond_congr {ps : List (Node × Node)}
    (h : ∀ p ∈ ps, p.2.Unaffected vars vars' size) :
    typesSecond ⟨vars, size⟩ ps = typesSecond ⟨vars', size⟩ ps := by
  rw [typesSecond_eq, typesSecond_eq]
  refine typesList_congr fun n hn => ?_
  obtain ⟨p, hp, rfl⟩ := List.mem_map.mp hn
  exact h p hp

theorem alike_resolveList {ns : List Node} (h : ∀ n ∈ ns, n.Unaffected vars vars' size)
    (expected : TypeSet) :
    Alike (resolveList ⟨vars, size⟩ ns expected) (resolveList ⟨vars', size⟩ ns expected) := by
  induction ns with
  | nil =>
    rw [resolveList, resolveList]
    exact .refl _
  | cons n ns ih =>
    rw [resolveList, resolveList]
    have hrest := ih fun m hm => h m (List.mem_cons_of_mem _ hm)
    exact ((alike_widening (h n (by simp)) expected).both hrest).bind fun _ => .refl _

theorem alike_resolveFirst {ps : List (Node × Node)}
    (h : ∀ p ∈ ps, p.1.Unaffected vars vars' size) (expected : TypeSet) :
    Alike (resolveFirst ⟨vars, size⟩ ps expected) (resolveFirst ⟨vars', size⟩ ps expected) := by
  rw [resolveFirst_eq, resolveFirst_eq]
  refine alike_resolveList (fun n hn => ?_) expected
  obtain ⟨p, hp, rfl⟩ := List.mem_map.mp hn
  exact h p hp

theorem alike_resolveSecond {ps : List (Node × Node)}
    (h : ∀ p ∈ ps, p.2.Unaffected vars vars' size) (expected : TypeSet) :
    Alike (resolveSecond ⟨vars, size⟩ ps expected) (resolveSecond ⟨vars', size⟩ ps expected) := by
  rw [resolveSecond_eq, resolveSecond_eq]
  refine alike_resolveList (fun n hn => ?_) expected
  obtain ⟨p, hp, rfl⟩ := List.mem_map.mp hn
  exact h p hp

theorem alike_resolveOperands {ns : List Node} (h : ∀ n ∈ ns, n.Unaffected vars vars' size)
    (k : Kind) (hasFixed : Bool) :
    Alike (resolveOperands ⟨vars, size⟩ k hasFixed ns)
      (resolveOperands ⟨vars', size⟩ k hasFixed ns) := by
  induction ns with
  | nil =>
    rw [resolveOperands, resolveOperands]
    exact .refl _
  | cons n ns ih =>
    rw [resolveOperands, resolveOperands]
    have hrest := ih fun m hm => h m (List.mem_cons_of_mem _ hm)
    have hn := h n (by simp)
    have hfirst := alike_widening hn (operandSet k hasFixed (n.types ⟨vars, size⟩))
    dsimp only
    rw [← hn.1] at hfirst ⊢
    exact (hfirst.both hrest).bind fun _ => .refl _

theorem unaffected_var {name : String} (same : SameTypes vars vars' name) :
    (Node.var path name).Unaffected vars vars' size := by
  unfold SameTypes at same
  cases hv : vars.get? name with
  | none =>
    rw [hv] at same
    have hv' : vars'.get? name = none := Option.map_eq_none_iff.mp same.symm
    refine ⟨?_, fun expected => ?_⟩
    · simp only [types, hv, hv']
    · rw [resolve, resolve, resolveVar, resolveVar]
      simp only [hv, hv']
      exact .refl _
  | some v =>
    rw [hv] at same
    obtain ⟨v', hv', htypes⟩ := Option.map_eq_some_iff.mp same.symm
    refine ⟨?_, fun expected => ?_⟩
    · simp only [types, hv, hv', htypes]
    · rw [resolve, resolve, resolveVar, resolveVar]
      simp only [hv, hv', htypes]
      split
      · exact .fail _ _ _
      · exact .refl _

theorem unaffected_call {op : Op} {args : List Node}
    (h : ∀ n ∈ args, n.Unaffected vars vars' size) :
    (Node.call path op args).Unaffected vars vars' size := by
  have htypes := typesList_congr h
  refine ⟨by rw [types, types, htypes], fun expected => ?_⟩
  rw [resolve, resolve, htypes]
  dsimp only
  split_ifs
  · exact .refl _
  · refine (Alike.refl _).bind fun k => ?_
    split_ifs
    · exact (alike_resolveList h _).bind fun _ => .refl _
    · exact (alike_resolveOperands h _ _).bind fun _ => .refl _
  · refine (Alike.refl _).bind fun _ => ?_
    split
    · exact (alike_resolveList h _).bind fun _ => .refl _
    · split
      · exact .refl _
      · exact (alike_resolveList h _).bind fun _ => .refl _

theorem unaffected_interpolate {exponent : Double} {input : Node} {stops : List (Node × Node)}
    (hinput : input.Unaffected vars vars' size)
    (hstops : ∀ p ∈ stops, p.1.Unaffected vars vars' size)
    (houtputs : ∀ p ∈ stops, p.2.Unaffected vars vars' size) :
    (Node.interpolate path exponent input stops).Unaffected vars vars' size := by
  have htypes := typesSecond_congr houtputs
  refine ⟨by rw [types, types, htypes], fun expected => ?_⟩
  rw [resolve, resolve, htypes]
  refine (Alike.refl _).bind fun k => ?_
  have hpairs := (alike_resolveFirst hstops .numbers).both
    (alike_resolveSecond houtputs (.singleton k))
  exact ((alike_widening hinput _).both hpairs).bind fun _ => .refl _

theorem unaffected_select {input fallback : Node} {alternatives : List (Node × Node)}
    (hinput : input.Unaffected vars vars' size)
    (hlabels : ∀ p ∈ alternatives, p.1.Unaffected vars vars' size)
    (houtputs : ∀ p ∈ alternatives, p.2.Unaffected vars vars' size)
    (hfallback : fallback.Unaffected vars vars' size) :
    (Node.select path input alternatives fallback).Unaffected vars vars' size := by
  have htypes := typesSecond_congr houtputs
  refine ⟨by rw [types, types, htypes, hfallback.1], fun expected => ?_⟩
  rw [resolve, resolve, htypes]
  dsimp only
  rw [hfallback.1]
  refine (Alike.refl _).bind fun k => ?_
  have hrest := (alike_resolveSecond houtputs (.singleton k)).both
    (alike_widening hfallback (.singleton k))
  rw [hfallback.1] at hrest
  exact ((alike_widening hinput _).both ((alike_resolveFirst hlabels _).both hrest)).bind
    fun _ => .refl _

theorem unaffected_cases {fallback : Node} {alternatives : List (Node × Node)}
    (hconditions : ∀ p ∈ alternatives, p.1.Unaffected vars vars' size)
    (houtputs : ∀ p ∈ alternatives, p.2.Unaffected vars vars' size)
    (hfallback : fallback.Unaffected vars vars' size) :
    (Node.cases path alternatives fallback).Unaffected vars vars' size := by
  have htypes := typesSecond_congr houtputs
  refine ⟨by rw [types, types, htypes, hfallback.1], fun expected => ?_⟩
  rw [resolve, resolve, htypes]
  dsimp only
  rw [hfallback.1]
  refine (Alike.refl _).bind fun k => ?_
  have hrest := (alike_resolveSecond houtputs (.singleton k)).both
    (alike_widening hfallback (.singleton k))
  rw [hfallback.1] at hrest
  exact ((alike_resolveFirst hconditions .booleans).both hrest).bind fun _ => .refl _

theorem unaffected_constant {n : Node} (htypes : n.types ⟨vars, size⟩ = n.types ⟨vars', size⟩)
    (hresolve : ∀ expected, n.resolve ⟨vars, size⟩ expected = n.resolve ⟨vars', size⟩ expected) :
    n.Unaffected vars vars' size :=
  ⟨htypes, fun expected => congrArg Except.toOption (hresolve expected)⟩

/-- Only the types of the variables that a node refers to matter to it, by induction on its
form. -/
theorem WellFormed.unaffected {n : Node} (hn : n.WellFormed)
    (same : ∀ name ∈ n.variableNames, SameTypes vars vars' name) :
    n.Unaffected vars vars' size := by
  induction hn with
  | number | bool | builtin =>
    refine unaffected_constant rfl fun expected => ?_
    rw [resolve, resolve]
  | text | array =>
    refine unaffected_constant rfl fun expected => ?_
    rw [resolve, resolve]
    rfl
  | @get path name hint =>
    refine unaffected_constant (by cases hint <;> rfl) fun expected => ?_
    rw [resolve, resolve]
    rfl
  | var path name => exact unaffected_var (same name (by simp [variableNames]))
  | call path _ _ _ ih =>
    exact unaffected_call fun n hn => ih n hn fun name hname =>
      same name (variableNames_subset_list hn hname)
  | @interpolate path exponent input stops _ _ _ _ ihi ihs iho =>
    have hpairs {p : Node × Node} (hp : p ∈ stops) {name : String}
        (hname : name ∈ p.1.variableNames ++ p.2.variableNames) : SameTypes vars vars' name :=
      same name (by simp [variableNames, variableNames_subset_pairs hp hname])
    exact unaffected_interpolate (ihi fun name hname => same name (by simp [variableNames, hname]))
      (fun p hp => ihs p hp fun name hname => hpairs hp (by simp [hname]))
      fun p hp => iho p hp fun name hname => hpairs hp (by simp [hname])
  | @select path input fallback alternatives _ _ _ _ _ _ _ ihi ihl iho ihf =>
    have hpairs {p : Node × Node} (hp : p ∈ alternatives) {name : String}
        (hname : name ∈ p.1.variableNames ++ p.2.variableNames) : SameTypes vars vars' name :=
      same name (by simp [variableNames, variableNames_subset_pairs hp hname])
    exact unaffected_select (ihi fun name hname => same name (by simp [variableNames, hname]))
      (fun p hp => ihl p hp fun name hname => hpairs hp (by simp [hname]))
      (fun p hp => iho p hp fun name hname => hpairs hp (by simp [hname]))
      (ihf fun name hname => same name (by simp [variableNames, hname]))
  | @cases path fallback alternatives _ _ _ _ ihc iho ihf =>
    have hpairs {p : Node × Node} (hp : p ∈ alternatives) {name : String}
        (hname : name ∈ p.1.variableNames ++ p.2.variableNames) : SameTypes vars vars' name :=
      same name (by simp [variableNames, variableNames_subset_pairs hp hname])
    exact unaffected_cases
      (fun p hp => ihc p hp fun name hname => hpairs hp (by simp [hname]))
      (fun p hp => iho p hp fun name hname => hpairs hp (by simp [hname]))
      (ihf fun name hname => same name (by simp [variableNames, hname]))

end Unaffected

end Node

/-- The style variables that the expression of a value refers to; a value that cannot be read
refers to none. -/
def Value.variableNames (path : Path) (raw : Value) : List String :=
  match Node.read path raw with
  | .ok n => n.variableNames
  | .error _ => []

section Build

variable {vars vars' : OrderedMap String Value} {path : Path} {raw : Value}

theorem alike_buildExpr (same : ∀ name ∈ raw.variableNames path, SameTypes vars vars' name)
    (size : Nat) (expected : TypeSet) :
    Alike (buildExpr ⟨vars, size⟩ path raw expected)
      (buildExpr ⟨vars', size⟩ path raw expected) := by
  unfold Value.variableNames at same
  cases hread : Node.read path raw with
  | error is =>
    rw [buildExpr, buildExpr, hread]
    exact .refl _
  | ok n =>
    rw [hread] at same
    rw [buildExpr, buildExpr, hread]
    exact Node.alike_widening ((Node.read_wellFormed path raw hread).unaffected same) expected

theorem alike_buildOfType (same : ∀ name ∈ raw.variableNames path, SameTypes vars vars' name)
    (want : Ty) : Alike (buildOfType vars path raw want) (buildOfType vars' path raw want) :=
  (alike_buildExpr same _ _).bind fun _ => .refl _

end Build

end ShaderStyle
