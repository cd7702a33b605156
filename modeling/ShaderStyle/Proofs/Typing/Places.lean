import ShaderStyle.Proofs.Typing.Variables

/-! Where an expression stands in a style matters to nothing but the places it names. -/
namespace ShaderStyle

namespace Checked

variable {α α' β β' : Type}

/-- Outcomes that give related values, or both fail. -/
def Related (R : α → β → Prop) (x : Checked α) (y : Checked β) : Prop :=
  Option.Rel R x.toOption y.toOption

namespace Related

variable {R : α → α' → Prop} {S : β → β' → Prop} {x : Checked α} {x' : Checked α'}
  {y : Checked β} {y' : Checked β'}

theorem ok {a : α} {a' : α'} (h : R a a') : Related R (.ok a) (.ok a') := .some h

theorem error (is js : List Issue) : Related R (.error is) (.error js) := .none

theorem fail (path path' : Path) (cause cause' : Cause) :
    Related R (Checked.fail path cause) (Checked.fail path' cause') := .none

theorem refl (x : Checked α) : Related Eq x x := by
  cases x with
  | ok a => exact ok rfl
  | error is => exact error is is

theorem of_ok_iff {x y : Checked α} (h : ∀ a, x = .ok a ↔ y = .ok a) : Related Eq x y := by
  cases x with
  | ok a =>
    rw [(h a).mp rfl]
    exact ok rfl
  | error is =>
    cases y with
    | ok b => cases (h b).mpr rfl
    | error js => exact error is js

theorem mono {U : α → α' → Prop} (h : Related R x x') (h' : ∀ a a', R a a' → U a a') :
    Related U x x' := by
  cases x <;> cases x' <;> cases h
  · exact error _ _
  · exact ok (h' _ _ ‹_›)

/-- Outcomes are related through what they are related to. -/
theorem between {T : α' → β' → Prop} {U : α → β → Prop} (hx : Related R x x') (hy : Related S y y')
    (h : Related T x' y') (h' : ∀ a a' b b', R a a' → S b b' → T a' b' → U a b) :
    Related U x y := by
  cases x <;> cases x' <;> cases hx <;> cases y <;> cases y' <;> cases hy <;> cases h
  · exact error _ _
  · exact ok (h' _ _ _ _ ‹_› ‹_› ‹_›)

theorem bind {f : α → Checked β} {f' : α' → Checked β'} (h : Related R x x')
    (h' : ∀ a a', R a a' → Related S (f a) (f' a')) : Related S (x >>= f) (x' >>= f') := by
  cases x <;> cases x' <;> cases h
  · exact error _ _
  · exact h' _ _ ‹_›

theorem both (h : Related R x x') (h' : Related S y y') :
    Related (fun p p' => R p.1 p'.1 ∧ S p.2 p'.2) (x.both y) (x'.both y') := by
  cases x <;> cases x' <;> cases h <;> cases y <;> cases y' <;> cases h'
  · exact error _ _
  · exact error _ _
  · exact error _ _
  · exact ok ⟨‹_›, ‹_›⟩

theorem map {f : α → β} {f' : α' → β'} (h : Related R x x')
    (h' : ∀ a a', R a a' → S (f a) (f' a')) : Related S (Except.map f x) (Except.map f' x') := by
  cases x <;> cases x' <;> cases h
  · exact error _ _
  · exact ok (h' _ _ ‹_›)

theorem discard (h : Related R x x') :
    Related (fun _ _ => True) (Functor.discard x) (Functor.discard x') := by
  cases x <;> cases x' <;> cases h
  · exact error _ _
  · exact ok trivial

end Related

end Checked

open Checked (Related)

/-- Builders give related expressions for related outcomes. -/
theorem Builder.rel_collect {R : Expr → Expr → Prop} (b b' : Builder) {x y : Checked Expr}
    (h : Related R x y) : Option.Rel R (b.collect x).1 (b'.collect y).1 := by
  cases x <;> cases y <;> cases h
  · exact .none
  · exact .some ‹_›

namespace Node

mutual

/-- A node without the places that it and its operands stand at. -/
@[simp]
def unplaced : Node → Node
  | .number _ x => .number ⟨""⟩ x
  | .bool _ b => .bool ⟨""⟩ b
  | .text _ s => .text ⟨""⟩ s
  | .array _ xs => .array ⟨""⟩ xs
  | .get _ name hint => .get ⟨""⟩ name hint
  | .var _ name => .var ⟨""⟩ name
  | .builtin _ name => .builtin ⟨""⟩ name
  | .call _ op args => .call ⟨""⟩ op (unplacedList args)
  | .interpolate _ exponent input stops =>
    .interpolate ⟨""⟩ exponent input.unplaced (unplacedPairs stops)
  | .select _ input alternatives fallback =>
    .select ⟨""⟩ input.unplaced (unplacedPairs alternatives) fallback.unplaced
  | .cases _ alternatives fallback => .cases ⟨""⟩ (unplacedPairs alternatives) fallback.unplaced

def unplacedList : List Node → List Node
  | [] => []
  | n :: ns => n.unplaced :: unplacedList ns

def unplacedPairs : List (Node × Node) → List (Node × Node)
  | [] => []
  | (a, b) :: rest => (a.unplaced, b.unplaced) :: unplacedPairs rest

end

@[simp]
theorem unplacedList_eq (ns : List Node) : unplacedList ns = ns.map unplaced := by
  induction ns with
  | nil => rfl
  | cons n ns ih => rw [unplacedList, ih, List.map_cons]

@[simp]
theorem unplacedPairs_eq (ps : List (Node × Node)) :
    unplacedPairs ps = ps.map (Prod.map unplaced unplaced) := by
  induction ps with
  | nil => rfl
  | cons p ps ih => rw [unplacedPairs, ih, List.map_cons, Prod.map]

/-- Nodes that differ in their places only. -/
def SamePlaced (n n' : Node) : Prop := n.unplaced = n'.unplaced

def SameList (ns ns' : List Node) : Prop := ns.map unplaced = ns'.map unplaced

def SamePairs (ps ps' : List (Node × Node)) : Prop :=
  ps.map (Prod.map unplaced unplaced) = ps'.map (Prod.map unplaced unplaced)

@[simp]
theorem labelKind?_unplaced (n : Node) : n.unplaced.labelKind? = n.labelKind? := by
  cases n <;> rfl

theorem SamePlaced.labelKind?_eq {n n' : Node} (h : n.SamePlaced n') :
    n.labelKind? = n'.labelKind? := by
  rw [← labelKind?_unplaced, h, labelKind?_unplaced]

section Reading

variable (path path' : Path)

theorem related_readNumber (x : Double) :
    Related SamePlaced (readNumber path x) (readNumber path' x) := by
  unfold readNumber
  split
  · exact .ok rfl
  · exact .fail _ _ _ _

theorem related_readArray (xs : List Double) :
    Related SamePlaced (readArray path xs) (readArray path' xs) := by
  unfold readArray
  split
  · exact .fail _ _ _ _
  · split
    · exact .fail _ _ _ _
    · exact .ok rfl

theorem related_readName (form : String) (operands : List Value) :
    Related Eq (readName path form operands) (readName path' form operands) := by
  unfold readName
  split
  · exact .fail _ _ _ _
  · exact .ok rfl
  · exact .fail _ _ _ _

theorem related_readGet (operands : List Value) :
    Related SamePlaced (readGet path operands) (readGet path' operands) := by
  refine (related_readName path path' "get" operands).bind ?_
  rintro name _ rfl
  split
  · exact .ok rfl
  · split
    · exact .ok rfl
    · exact .fail _ _ _ _
  · exact .fail _ _ _ _
  · exact .fail _ _ _ _

theorem related_readVar (operands : List Value) :
    Related SamePlaced (readVar path operands) (readVar path' operands) := by
  refine (related_readName path path' "var" operands).bind ?_
  rintro name _ rfl
  split
  · exact .ok rfl
  · exact .fail _ _ _ _

theorem related_readBuiltin (name : String) (operands : List Value) :
    Related SamePlaced (readBuiltin path name operands) (readBuiltin path' name operands) := by
  unfold readBuiltin
  split
  · exact .ok rfl
  · exact .fail _ _ _ _

theorem related_readLabel (v : Value) :
    Related SamePlaced (readLabel path v) (readLabel path' v) := by
  unfold readLabel
  split
  · exact related_readNumber path path' _
  · split
    · exact .ok rfl
    · exact .ok rfl
    · exact .fail _ _ _ _

theorem related_readExponent (v : Value) :
    Related Eq (readExponent path v) (readExponent path' v) := by
  unfold readExponent
  split
  · exact .ok rfl
  · split
    · exact .ok rfl
    · exact .fail _ _ _ _
  · exact .fail _ _ _ _

theorem exists_number_of_unplaced {n : Node} {x : Double} (h : n.unplaced = .number path x) :
    ∃ p, n = .number p x := by
  cases n with
  | number p =>
    cases h
    exact ⟨p, rfl⟩
  | _ => simp [unplaced] at h

/-- Stops are compared by their values. -/
theorem related_checkStops_unplaced (stops : List (Node × Node)) :
    Related Eq (checkStops stops) (checkStops (stops.map (Prod.map unplaced unplaced))) := by
  fun_induction checkStops stops with
  | case1 previous next path output rest _ _ h =>
    rw [List.map_cons, List.map_cons, Prod.map, Prod.map, unplaced, unplaced, checkStops, if_pos h]
    exact .fail _ _ _ _
  | case2 previous next path output rest _ _ h ih =>
    rw [List.map_cons, List.map_cons, Prod.map, Prod.map, unplaced, unplaced, checkStops, if_neg h]
    exact ih
  | case3 stop rest hother ih =>
    rw [List.map_cons, checkStops]
    · exact ih
    · intro _ previous _ _ next output _ hstop hrest
      obtain ⟨hfirst, -⟩ := Prod.mk.inj hstop
      obtain ⟨p, hprevious⟩ := exists_number_of_unplaced _ hfirst
      obtain ⟨⟨n, o⟩, rest', rfl, hnext, -⟩ := List.map_eq_cons_iff.mp hrest
      obtain ⟨hsecond, -⟩ := Prod.mk.inj hnext
      obtain ⟨q, rfl⟩ := exists_number_of_unplaced _ hsecond
      exact hother p previous stop.2 q next o rest' (Prod.ext hprevious rfl) rfl
  | case4 => exact .ok rfl

theorem related_checkStops {stops stops' : List (Node × Node)} (h : SamePairs stops stops') :
    Related Eq (checkStops stops) (checkStops stops') := by
  have hstops := related_checkStops_unplaced stops
  have hstops' := related_checkStops_unplaced stops'
  rw [h] at hstops
  refine hstops.between hstops' (.refl _) ?_
  rintro _ _ _ _ rfl rfl rfl
  rfl

theorem pairs_map {α β : Type} (f : α → β) :
    ∀ xs : List α, pairs (xs.map f) = (pairs xs).map (Prod.map f f)
  | [] => rfl
  | [_] => rfl
  | a :: b :: rest => by
    rw [pairs, List.map_cons, List.map_cons, List.map_cons, pairs, pairs_map f rest, Prod.map]

theorem pairsWithLast?_map {α β : Type} (f : α → β) :
    ∀ xs : List α, pairsWithLast? (xs.map f) =
      (pairsWithLast? xs).map fun p => (p.1.map (Prod.map f f), f p.2)
  | [] => rfl
  | [_] => rfl
  | a :: b :: rest => by
    rw [pairsWithLast?, List.map_cons, List.map_cons, pairsWithLast?, pairsWithLast?_map f rest,
      Option.map_map, Option.map_map]
    rfl

theorem related_interpolateOf (exponent : Double) {args args' : List Node}
    (h : SameList args args') :
    Related SamePlaced (interpolateOf path exponent args) (interpolateOf path' exponent args') := by
  unfold SameList at h
  cases args with
  | nil =>
    obtain rfl := List.map_eq_nil_iff.mp h.symm
    exact .fail _ _ _ _
  | cons input rest =>
    obtain ⟨input', rest', rfl, hinput, hrest⟩ := List.map_eq_cons_iff.mp h.symm
    have hpairs : SamePairs (pairs rest) (pairs rest') := by
      rw [SamePairs, ← pairs_map, ← pairs_map, hrest]
    refine (related_checkStops hpairs).bind fun _ _ _ => .ok ?_
    rw [SamePlaced, unplaced, unplaced, unplacedPairs_eq, unplacedPairs_eq, hinput, hpairs]

theorem related_casesOf {args args' : List Node} (h : SameList args args') :
    Related SamePlaced (casesOf path args) (casesOf path' args') := by
  have hpairs := congrArg pairsWithLast? h
  rw [pairsWithLast?_map, pairsWithLast?_map] at hpairs
  unfold casesOf
  cases hargs : pairsWithLast? args with
  | none =>
    rw [hargs] at hpairs
    rw [Option.map_eq_none_iff.mp hpairs.symm]
    exact .fail _ _ _ _
  | some p =>
    rw [hargs] at hpairs
    obtain ⟨p', hargs', hp⟩ := Option.map_eq_some_iff.mp hpairs.symm
    obtain ⟨hfirst, hlast⟩ := Prod.mk.inj hp
    rw [hargs']
    refine .ok ?_
    rw [SamePlaced, unplaced, unplaced, unplacedPairs_eq, unplacedPairs_eq, hfirst, hlast]

/-- Reading any of the values gives the same at every place. -/
def ReadsAlike (vs : List Value) : Prop :=
  ∀ v ∈ vs, ∀ path path', Related SamePlaced (read path v) (read path' v)

theorem related_readArgs {vs : List Value} (hvs : ReadsAlike vs) (i : Nat) :
    Related SameList (readArgs path i vs) (readArgs path' i vs) := by
  induction vs generalizing i with
  | nil =>
    rw [readArgs, readArgs]
    exact .ok rfl
  | cons v vs ih =>
    rw [readArgs, readArgs]
    have hrest := ih (fun w hw => hvs w (List.mem_cons_of_mem _ hw)) (i + 1)
    refine ((hvs v (by simp) _ _).both hrest).bind fun p p' h => .ok ?_
    rw [SameList, List.map_cons, List.map_cons, h.1, h.2]

theorem related_readAlternatives : ∀ {vs : List Value}, ReadsAlike vs →
    ∀ (i : Nat) (known : Option Kind),
      Related SamePlaced (readAlternatives path i known vs).1 (readAlternatives path' i known vs).1 ∧
        Related SamePairs (readAlternatives path i known vs).2 (readAlternatives path' i known vs).2
  | [], _, i, known => by
    rw [readAlternatives, readAlternatives]
    exact ⟨.fail _ _ _ _, .ok rfl⟩
  | [v], hvs, i, known => by
    rw [readAlternatives, readAlternatives]
    exact ⟨hvs v (by simp) _ _, .ok rfl⟩
  | l :: o :: rest, hvs, i, known => by
    have hsub : ReadsAlike rest := fun w hw => hvs w (by simp [hw])
    have hrest := related_readAlternatives hsub (i + 2)
    have hlabel := related_readLabel (path.index i) (path'.index i) l
    have houtput := hvs o (by simp) (path.index (i + 1)) (path'.index (i + 1))
    have hcons (p p' : (((Node × Node) × Unit) × List (Node × Node)))
        (h : ((SamePlaced p.1.1.1 p'.1.1.1 ∧ SamePlaced p.1.1.2 p'.1.1.2) ∧ p.1.2 = p'.1.2) ∧
          SamePairs p.2 p'.2) :
        Related SamePairs (.ok ((p.1.1.1, p.1.1.2) :: p.2)) (.ok ((p'.1.1.1, p'.1.1.2) :: p'.2)) := by
      obtain ⟨⟨⟨hfirst, hsecond⟩, -⟩, hothers⟩ := h
      refine .ok ?_
      rw [SamePairs, List.map_cons, List.map_cons, hothers, Prod.map, Prod.map, hfirst, hsecond]
    unfold readAlternatives
    dsimp only
    generalize readLabel (path.index i) l = label at hlabel
    generalize readLabel (path'.index i) l = label' at hlabel
    cases label <;> cases label' <;> cases hlabel
    · refine ⟨(hrest _).1, ?_⟩
      exact ((((Related.error _ _).both houtput).both (.ok rfl)).both (hrest _).2).bind hcons
    · rename_i n n' h
      have hkind : n.labelKind? = n'.labelKind? := h.labelKind?_eq
      dsimp only
      rw [hkind]
      refine ⟨(hrest _).1, ?_⟩
      refine ((((Related.ok h).both houtput).both ?_).both (hrest _).2).bind hcons
      split
      · split
        · exact .ok rfl
        · exact .fail _ _ _ _
      · exact .ok rfl

theorem related_read_call {name : String} {operands : List Value} (hvs : ReadsAlike operands) :
    Related SamePlaced (read path (.list (.text name :: operands)))
      (read path' (.list (.text name :: operands))) := by
  unfold read
  split
  · exact .fail _ _ _ _
  · exact related_readGet path path' operands
  · exact related_readVar path path' operands
  · exact related_readBuiltin path path' name operands
  · split_ifs
    · exact .fail _ _ _ _
    · exact .fail _ _ _ _
    · cases operands with
      | nil => exact .fail _ _ _ _
      | cons type rest =>
        have hargs := related_readArgs path path' (fun w hw => hvs w (List.mem_cons_of_mem _ hw)) 2
        refine ((related_readExponent _ _ type).both hargs).bind ?_
        rintro ⟨exponent, args⟩ ⟨_, args'⟩ ⟨rfl, h⟩
        exact related_interpolateOf path path' exponent h
  · split_ifs
    · exact .fail _ _ _ _
    · cases operands with
      | nil => exact .fail _ _ _ _
      | cons v rest =>
        obtain ⟨hfallback, halternatives⟩ :=
          related_readAlternatives path path' (fun w hw => hvs w (List.mem_cons_of_mem _ hw)) 2 none
        refine (((hvs v (by simp) _ _).both hfallback).both halternatives).bind fun p p' h => .ok ?_
        obtain ⟨⟨hinput, hlast⟩, hpairs⟩ := h
        rw [SamePlaced, unplaced, unplaced, unplacedPairs_eq, unplacedPairs_eq, hinput, hlast,
          hpairs]
  · split_ifs
    · exact .fail _ _ _ _
    · exact (related_readArgs path path' hvs 1).bind fun args args' => related_casesOf path path'
  · split_ifs
    · refine (related_readArgs path path' hvs 1).bind fun args args' h => .ok ?_
      rw [SamePlaced, unplaced, unplaced, unplacedList_eq, unplacedList_eq, h]
    · exact .fail _ _ _ _

/-- A value is read alike wherever it stands. -/
theorem related_read (path path' : Path) (v : Value) :
    Related SamePlaced (read path v) (read path' v) := by
  match v with
  | .bool b | .text b =>
    rw [read, read]
    exact .ok rfl
  | .double x | .single x | .integer _ x =>
    rw [read, read]
    exact related_readNumber path path' _
  | .numeral s =>
    rw [read, read]
    split
    · exact related_readNumber path path' _
    · exact .fail _ _ _ _
  | .doubles xs | .singles xs =>
    rw [read, read]
    exact related_readArray path path' _
  | .integers _ _ =>
    rw [read, read]
    split
    · exact related_readArray path path' _
    · exact .fail _ _ _ _
  | .list [] | .null | .record _ | .timestamp _ | .table _ | .texts _ =>
    rw [read, read]
    exact .fail _ _ _ _
  | .list (v :: vs) =>
    by_cases hcall : ∃ name, v = .text name
    · obtain ⟨name, rfl⟩ := hcall
      refine related_read_call path path' fun w hw p p' => ?_
      exact related_read p p' w
    · have hfirst : ∀ name, v = .text name → False := fun name hname => hcall ⟨name, hname⟩
      rw [read, read]
      · split
        · exact related_readArray path path' _
        · exact .fail _ _ _ _
      · exact hfirst
      · exact hfirst
termination_by sizeOf v
decreasing_by
  have := List.sizeOf_lt_of_mem hw
  simp
  omega

end Reading

end Node

namespace Expr

mutual

/-- An expression without the places that it and its operands come from. -/
@[simp]
def unplaced : Expr → Expr
  | .number _ x => .number ⟨""⟩ x
  | .bool _ b => .bool ⟨""⟩ b
  | .text _ s => .text ⟨""⟩ s
  | .color _ c => .color ⟨""⟩ c
  | .array _ xs => .array ⟨""⟩ xs
  | .get _ name t => .get ⟨""⟩ name t
  | .var _ name t => .var ⟨""⟩ name t
  | .builtin _ name => .builtin ⟨""⟩ name
  | .call _ op args t => .call ⟨""⟩ op (unplacedList args) t
  | .interpolate _ exponent input stops spare t =>
    .interpolate ⟨""⟩ exponent input.unplaced (unplacedPairs stops) (unplacedList spare) t
  | .select _ input alternatives spare fallback t =>
    .select ⟨""⟩ input.unplaced (unplacedPairs alternatives) (unplacedList spare)
      fallback.unplaced t
  | .cases _ alternatives fallback t =>
    .cases ⟨""⟩ (unplacedPairs alternatives) fallback.unplaced t
  | .widen x t => .widen x.unplaced t

def unplacedList : List Expr → List Expr
  | [] => []
  | e :: es => e.unplaced :: unplacedList es

def unplacedPairs : List (Expr × Expr) → List (Expr × Expr)
  | [] => []
  | (a, b) :: rest => (a.unplaced, b.unplaced) :: unplacedPairs rest

end

@[simp]
theorem unplacedList_eq (es : List Expr) : unplacedList es = es.map unplaced := by
  induction es with
  | nil => rfl
  | cons e es ih => rw [unplacedList, ih, List.map_cons]

@[simp]
theorem unplacedPairs_eq (ps : List (Expr × Expr)) :
    unplacedPairs ps = ps.map (Prod.map unplaced unplaced) := by
  induction ps with
  | nil => rfl
  | cons p ps ih => rw [unplacedPairs, ih, List.map_cons, Prod.map]

@[simp]
theorem type_unplaced (e : Expr) : e.unplaced.type = e.type := by
  cases e <;> rfl

/-- Expressions that differ in their sources only. -/
def SameSourced (e e' : Expr) : Prop := e.unplaced = e'.unplaced

def SameList (es es' : List Expr) : Prop := es.map unplaced = es'.map unplaced

theorem SameList.length_eq {es es' : List Expr} (h : SameList es es') : es.length = es'.length := by
  simpa using congrArg List.length h

theorem SameList.append {es es' fs fs' : List Expr} (h : SameList es es') (h' : SameList fs fs') :
    SameList (es ++ fs) (es' ++ fs') := by
  rw [SameList, List.map_append, List.map_append, h, h']

theorem SameList.zip {es es' fs fs' : List Expr} (h : SameList es es') (h' : SameList fs fs') :
    (es.zip fs).map (Prod.map unplaced unplaced) = (es'.zip fs').map (Prod.map unplaced unplaced) := by
  rw [← List.zip_map, ← List.zip_map, h, h']

theorem SameList.map_type_eq {es es' : List Expr} (h : SameList es es') :
    es.map type = es'.map type := by
  have htypes := congrArg (List.map type) h
  rw [List.map_map, List.map_map] at htypes
  have hcomp : type ∘ unplaced = type := funext type_unplaced
  rwa [hcomp] at htypes

end Expr

namespace Node

variable {scope : Scope} {path : Path}

open ShaderStyle.Expr (SameSourced)

theorem sameType_eq_ok_iff {es : List Expr} {t : Ty} :
    sameType es = .ok t ↔ (es = [] ∧ t = .invalid) ∨ (es ≠ [] ∧ ∀ e ∈ es, e.type = t) := by
  cases es with
  | nil => simp [sameType, eq_comm]
  | cons e es =>
    constructor
    · intro h
      exact Or.inr ⟨List.cons_ne_nil _ _, sameType_eq_ok h⟩
    · rintro (⟨h, -⟩ | ⟨-, h⟩)
      · cases h
      · have hnone : (es.find? fun x => x.type ≠ e.type) = none := by
          rw [List.find?_eq_none]
          intro x hx
          simp [h x (List.mem_cons_of_mem _ hx), h e List.mem_cons_self]
        rw [sameType, hnone, h e List.mem_cons_self]

/-- The type that expressions share depends on their types only, in any order. -/
theorem related_sameType {es es' : List Expr} (h : (es.map Expr.type).Perm (es'.map Expr.type)) :
    Related Eq (sameType es) (sameType es') := by
  have hnil : es = [] ↔ es' = [] := by
    rw [← List.length_eq_zero_iff, ← List.length_eq_zero_iff]
    simpa using congrArg (· = 0) h.length_eq
  have hall (t : Ty) : (∀ e ∈ es, e.type = t) ↔ ∀ e ∈ es', e.type = t := by
    have hmap (xs : List Expr) : (∀ e ∈ xs, e.type = t) ↔ ∀ u ∈ xs.map Expr.type, u = t := by simp
    rw [hmap, hmap]
    exact forall_congr' fun u => by rw [h.mem_iff]
  refine .of_ok_iff fun t => ?_
  rw [sameType_eq_ok_iff, sameType_eq_ok_iff, ne_eq, ne_eq, hnil, hall]

/-- A node that is typed and resolved alike wherever it stands. -/
def PlaceFree (scope : Scope) (n : Node) : Prop :=
  n.unplaced.types scope = n.types scope ∧
    ∀ expected, Related SameSourced (n.resolve scope expected) (n.unplaced.resolve scope expected)

theorem related_widening {n : Node} (h : n.PlaceFree scope) (expected : TypeSet) :
    Related SameSourced
      (widening scope (n.types scope) (fun s => n.resolve scope s) expected)
      (widening scope (n.unplaced.types scope) (fun s => n.unplaced.resolve scope s) expected) := by
  obtain ⟨htypes, hresolve⟩ := h
  rw [widening, widening, htypes]
  split
  · refine (hresolve _).map fun e e' he => ?_
    rw [SameSourced, Expr.unplaced, Expr.unplaced, he]
  · exact hresolve _

theorem typesList_unplaced {ns : List Node} (h : ∀ n ∈ ns, n.PlaceFree scope) :
    typesList scope (ns.map unplaced) = typesList scope ns := by
  rw [typesList_eq, typesList_eq, List.map_map]
  exact List.map_congr_left fun n hn => (h n hn).1

theorem typesSecond_unplaced {ps : List (Node × Node)} (h : ∀ p ∈ ps, p.2.PlaceFree scope) :
    typesSecond scope (ps.map (Prod.map unplaced unplaced)) = typesSecond scope ps := by
  rw [typesSecond_eq, typesSecond_eq, List.map_map]
  have hseconds := typesList_unplaced (List.forall_mem_map.mpr h)
  rwa [List.map_map] at hseconds

theorem related_resolveList {ns : List Node} (h : ∀ n ∈ ns, n.PlaceFree scope)
    (expected : TypeSet) :
    Related Expr.SameList (resolveList scope ns expected)
      (resolveList scope (ns.map unplaced) expected) := by
  induction ns with
  | nil =>
    rw [List.map_nil, resolveList]
    exact .ok rfl
  | cons n ns ih =>
    rw [List.map_cons, resolveList, resolveList]
    have hrest := ih fun m hm => h m (List.mem_cons_of_mem _ hm)
    refine ((related_widening (h n (by simp)) expected).both hrest).bind fun p p' hp => .ok ?_
    rw [Expr.SameList, List.map_cons, List.map_cons, hp.1, hp.2]

theorem related_resolveFirst {ps : List (Node × Node)} (h : ∀ p ∈ ps, p.1.PlaceFree scope)
    (expected : TypeSet) :
    Related Expr.SameList (resolveFirst scope ps expected)
      (resolveFirst scope (ps.map (Prod.map unplaced unplaced)) expected) := by
  rw [resolveFirst_eq, resolveFirst_eq, List.map_map]
  have hfirsts := related_resolveList (List.forall_mem_map.mpr h) expected
  rwa [List.map_map] at hfirsts

theorem related_resolveSecond {ps : List (Node × Node)} (h : ∀ p ∈ ps, p.2.PlaceFree scope)
    (expected : TypeSet) :
    Related Expr.SameList (resolveSecond scope ps expected)
      (resolveSecond scope (ps.map (Prod.map unplaced unplaced)) expected) := by
  rw [resolveSecond_eq, resolveSecond_eq, List.map_map]
  have hseconds := related_resolveList (List.forall_mem_map.mpr h) expected
  rwa [List.map_map] at hseconds

theorem related_resolveOperands {ns : List Node} (h : ∀ n ∈ ns, n.PlaceFree scope) (k : Kind)
    (hasFixed : Bool) :
    Related Expr.SameList (resolveOperands scope k hasFixed ns)
      (resolveOperands scope k hasFixed (ns.map unplaced)) := by
  induction ns with
  | nil =>
    rw [List.map_nil, resolveOperands]
    exact .ok rfl
  | cons n ns ih =>
    rw [List.map_cons, resolveOperands, resolveOperands]
    have hrest := ih fun m hm => h m (List.mem_cons_of_mem _ hm)
    have hn := h n (by simp)
    have hfirst := related_widening hn (operandSet k hasFixed (n.types scope))
    dsimp only
    rw [hn.1] at hfirst ⊢
    refine (hfirst.both hrest).bind fun p p' hp => .ok ?_
    rw [Expr.SameList, List.map_cons, List.map_cons, hp.1, hp.2]

theorem filter_vectors_unplaced (es : List Expr) :
    (es.map Expr.unplaced).filter (fun e => decide (e.type ≠ .number)) =
      (es.filter fun e => decide (e.type ≠ .number)).map Expr.unplaced := by
  rw [List.filter_map]
  congr 1
  exact List.filter_congr fun e _ => by rw [Function.comp_apply, Expr.type_unplaced]

theorem related_call {path' : Path} {op : Op} {t : Ty} {es es' : List Expr}
    (h : Expr.SameList es es') :
    Related SameSourced (.ok (.call path op es t)) (.ok (.call path' op es' t)) := by
  refine .ok ?_
  rw [SameSourced, Expr.unplaced, Expr.unplaced, Expr.unplacedList_eq, Expr.unplacedList_eq, h]

theorem related_vectorCall {path' : Path} {op : Op} {k : Kind} {es es' : List Expr}
    (h : Expr.SameList es es') :
    Related SameSourced (vectorCall path op k es) (vectorCall path' op k es') := by
  have hvectors : Expr.SameList (es.filter fun e => decide (e.type ≠ .number))
      (es'.filter fun e => decide (e.type ≠ .number)) := by
    unfold Expr.SameList at h ⊢
    rw [← filter_vectors_unplaced, h, filter_vectors_unplaced]
  have hempty : (es.filter fun e => decide (e.type ≠ .number)).isEmpty =
      (es'.filter fun e => decide (e.type ≠ .number)).isEmpty := by
    simpa using congrArg List.isEmpty hvectors
  unfold vectorCall
  dsimp only
  rw [hempty]
  split
  · exact .fail _ _ _ _
  · refine (related_sameType (.of_eq hvectors.map_type_eq)).bind ?_
    rintro t _ rfl
    exact related_call h

theorem related_pickKind (path' : Path) (available expected : TypeSet) :
    Related Eq (pickKind path available expected) (pickKind path' available expected) := by
  unfold pickKind
  split
  · exact .ok rfl
  · exact .fail _ _ _ _

theorem placeFree_text (s : String) : (Node.text path s).PlaceFree scope := by
  refine ⟨rfl, fun expected => ?_⟩
  rw [unplaced, resolve, resolve]
  refine (related_pickKind _ _ _).bind ?_
  rintro k _ rfl
  split
  · exact .ok rfl
  · exact .ok rfl

theorem placeFree_array (xs : List Double) : (Node.array path xs).PlaceFree scope := by
  refine ⟨rfl, fun expected => ?_⟩
  rw [unplaced, resolve, resolve]
  refine (related_pickKind _ _ _).bind ?_
  rintro k _ rfl
  split_ifs
  · split
    · exact .ok rfl
    · exact .fail _ _ _ _
  · exact .ok rfl

theorem placeFree_get (name : String) (hint : Option Hint) :
    (Node.get path name hint).PlaceFree scope := by
  refine ⟨by cases hint <;> rfl, fun expected => ?_⟩
  rw [unplaced, resolve, resolve]
  unfold resolveGet
  split
  · exact (related_pickKind _ _ _).discard.bind fun _ _ _ => .ok rfl
  · split
    · exact .ok rfl
    · exact .fail _ _ _ _

theorem placeFree_var (name : String) : (Node.var path name).PlaceFree scope := by
  refine ⟨rfl, fun expected => ?_⟩
  rw [unplaced, resolve, resolve]
  unfold resolveVar
  split
  · exact .fail _ _ _ _
  · split_ifs
    · exact .fail _ _ _ _
    · refine (related_pickKind _ _ _).bind ?_
      rintro k _ rfl
      exact .ok rfl

theorem placeFree_call {op : Op} {args : List Node} (h : ∀ n ∈ args, n.PlaceFree scope) :
    (Node.call path op args).PlaceFree scope := by
  have htypes := typesList_unplaced h
  rw [PlaceFree, unplaced, unplacedList_eq]
  refine ⟨by rw [types, types, htypes, List.length_map], fun expected => ?_⟩
  rw [resolve, resolve, htypes, List.length_map]
  dsimp only
  split_ifs
  · exact .fail _ _ _ _
  · refine (related_pickKind _ _ _).bind ?_
    rintro k _ rfl
    split_ifs
    · exact (related_resolveList h _).bind fun es es' hes => related_call hes
    · exact (related_resolveOperands h _ _).bind fun es es' hes => related_vectorCall hes
  · refine (related_pickKind _ _ _).discard.bind fun _ _ _ => ?_
    split
    · exact (related_resolveList h _).bind fun es es' hes => related_call hes
    · split
      · exact .fail _ _ _ _
      · refine (related_resolveList h _).bind fun es es' hes => ?_
        refine (related_sameType (.of_eq hes.map_type_eq)).discard.bind fun _ _ _ => ?_
        rw [hes.length_eq]
        exact related_call hes

theorem placeFree_interpolate {exponent : Double} {input : Node} {stops : List (Node × Node)}
    (hinput : input.PlaceFree scope) (hstops : ∀ p ∈ stops, p.1.PlaceFree scope)
    (houtputs : ∀ p ∈ stops, p.2.PlaceFree scope) :
    (Node.interpolate path exponent input stops).PlaceFree scope := by
  have htypes := typesSecond_unplaced houtputs
  rw [PlaceFree, unplaced, unplacedPairs_eq]
  refine ⟨by rw [types, types, htypes], fun expected => ?_⟩
  rw [resolve, resolve, htypes]
  refine (related_pickKind _ _ _).bind ?_
  rintro k _ rfl
  have hpairs := (related_resolveFirst hstops .numbers).both
    (related_resolveSecond houtputs (.singleton k))
  refine ((related_widening hinput _).both hpairs).bind ?_
  rintro p p' ⟨hx, hvalues, houts⟩
  refine (related_sameType (.of_eq houts.map_type_eq)).bind ?_
  rintro t _ rfl
  refine .ok ?_
  rw [SameSourced, Expr.unplaced, Expr.unplaced, Expr.unplacedPairs_eq, Expr.unplacedPairs_eq, hx,
    hvalues.zip houts]

theorem placeFree_select {input fallback : Node} {alternatives : List (Node × Node)}
    (hinput : input.PlaceFree scope) (hlabels : ∀ p ∈ alternatives, p.1.PlaceFree scope)
    (houtputs : ∀ p ∈ alternatives, p.2.PlaceFree scope) (hfallback : fallback.PlaceFree scope) :
    (Node.select path input alternatives fallback).PlaceFree scope := by
  have htypes := typesSecond_unplaced houtputs
  have hhead : ((alternatives.map (Prod.map unplaced unplaced)).head?.bind
      fun a => a.1.labelKind?) = alternatives.head?.bind fun a => a.1.labelKind? := by
    cases alternatives with
    | nil => rfl
    | cons a rest => exact labelKind?_unplaced a.1
  rw [PlaceFree, unplaced, unplacedPairs_eq]
  refine ⟨by rw [types, types, htypes, hfallback.1], fun expected => ?_⟩
  rw [resolve, resolve, htypes, hhead]
  dsimp only
  refine .bind (R := Eq) ?_ ?_
  · rw [hfallback.1]
    exact related_pickKind _ _ _
  rintro k _ rfl
  have hrest := (related_resolveSecond houtputs (.singleton k)).both
    (related_widening hfallback (.singleton k))
  refine ((related_widening hinput _).both ((related_resolveFirst hlabels _).both hrest)).bind ?_
  rintro p p' ⟨hx, hls, houts, hother⟩
  have hlast : Expr.SameList [p.2.2.2] [p'.2.2.2] := congrArg ([·]) hother
  refine (related_sameType (.of_eq (houts.append hlast).map_type_eq)).bind ?_
  rintro t _ rfl
  refine .ok ?_
  rw [SameSourced, Expr.unplaced, Expr.unplaced, Expr.unplacedPairs_eq, Expr.unplacedPairs_eq, hx,
    hls.zip houts, hother]

theorem placeFree_cases {fallback : Node} {alternatives : List (Node × Node)}
    (hconditions : ∀ p ∈ alternatives, p.1.PlaceFree scope)
    (houtputs : ∀ p ∈ alternatives, p.2.PlaceFree scope) (hfallback : fallback.PlaceFree scope) :
    (Node.cases path alternatives fallback).PlaceFree scope := by
  have htypes := typesSecond_unplaced houtputs
  rw [PlaceFree, unplaced, unplacedPairs_eq]
  refine ⟨by rw [types, types, htypes, hfallback.1], fun expected => ?_⟩
  rw [resolve, resolve, htypes]
  dsimp only
  refine .bind (R := Eq) ?_ ?_
  · rw [hfallback.1]
    exact related_pickKind _ _ _
  rintro k _ rfl
  have hrest := (related_resolveSecond houtputs (.singleton k)).both
    (related_widening hfallback (.singleton k))
  refine ((related_resolveFirst hconditions .booleans).both hrest).bind ?_
  rintro p p' ⟨hconds, houts, hother⟩
  have hlast : Expr.SameList [p.2.2] [p'.2.2] := congrArg ([·]) hother
  refine (related_sameType (.of_eq (houts.append hlast).map_type_eq)).bind ?_
  rintro t _ rfl
  refine .ok ?_
  rw [SameSourced, Expr.unplaced, Expr.unplaced, Expr.unplacedPairs_eq, Expr.unplacedPairs_eq,
    hconds.zip houts, hother]

/-- The place of a node does not matter to inference, by induction on its form. -/
theorem WellFormed.placeFree {n : Node} (hn : n.WellFormed) : n.PlaceFree scope := by
  induction hn with
  | number | bool | builtin =>
    refine ⟨rfl, fun expected => ?_⟩
    rw [unplaced, resolve, resolve]
    exact (related_pickKind _ _ _).discard.bind fun _ _ _ => .ok rfl
  | text path s => exact placeFree_text s
  | array path => exact placeFree_array _
  | get path name => exact placeFree_get name _
  | var path name => exact placeFree_var name
  | call path _ _ _ operands => exact placeFree_call operands
  | interpolate path exponent _ _ _ _ input stops outputs =>
    exact placeFree_interpolate input stops outputs
  | select path _ _ _ _ _ _ input labels outputs fallback =>
    exact placeFree_select input labels outputs fallback
  | cases path _ _ _ _ conditions outputs fallback =>
    exact placeFree_cases conditions outputs fallback

theorem WellFormed.related_build {n : Node} (hn : n.WellFormed) (expected : TypeSet) :
    Related SameSourced (n.build scope expected) (n.unplaced.build scope expected) :=
  related_widening hn.placeFree expected

theorem SamePlaced.related_build {n n' : Node} (h : n.SamePlaced n') (hn : n.WellFormed)
    (hn' : n'.WellFormed) (expected : TypeSet) :
    Related SameSourced (n.build scope expected) (n'.build scope expected) := by
  have hbuild : Related SameSourced (n.build scope expected) (n.unplaced.build scope expected) :=
    hn.related_build expected
  rw [h] at hbuild
  refine hbuild.between (hn'.related_build expected) (.refl _) ?_
  rintro _ _ _ _ he he' rfl
  exact he.trans he'.symm

end Node

/-- A value is built alike wherever it stands, up to the places that the expression names. -/
theorem related_buildExpr (scope : Scope) (path path' : Path) (raw : Value) (expected : TypeSet) :
    Related Expr.SameSourced (buildExpr scope path raw expected)
      (buildExpr scope path' raw expected) := by
  have hread := Node.related_read path path' raw
  rw [buildExpr, buildExpr]
  cases h : Node.read path raw <;> cases h' : Node.read path' raw <;> rw [h, h'] at hread <;>
    cases hread
  · exact .error _ _
  · rename_i hsame
    exact hsame.related_build (Node.read_wellFormed path raw h)
      (Node.read_wellFormed path' raw h') expected

end ShaderStyle
