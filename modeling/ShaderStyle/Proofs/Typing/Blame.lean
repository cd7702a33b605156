import ShaderStyle.Proofs.Color.Notation
import ShaderStyle.Proofs.Typing.Rendering
import ShaderStyle.Proofs.Typing.Variables

/-! What building reports is the fault of the style, and is reported at an element that the style
has. -/
namespace ShaderStyle

/-- The place of the value, which is at `path`, or of an element inside of it. -/
def PlaceIn (path : Path) (v : Value) (place : Path) : Prop :=
  ∃ indices w, v.follow? indices = some w ∧ place = path.follow indices

namespace PlaceIn

variable {path place : Path} {v w : Value} {items : List Value} {i : Nat}

theorem whole (path : Path) (v : Value) : PlaceIn path v path := ⟨[], v, rfl, rfl⟩

theorem element (found : v.at? i = some w) (h : PlaceIn (path.index i) w place) :
    PlaceIn path v place := by
  obtain ⟨indices, u, hfollow, rfl⟩ := h
  exact ⟨i :: indices, u, (Value.follow?_cons found indices).trans hfollow, rfl⟩

theorem index (found : v.at? i = some w) : PlaceIn path v (path.index i) :=
  element found (whole _ w)

end PlaceIn

/-- Numbers of an array are elements of it. -/
theorem Value.exists_at?_of_numbers? {v : Value} {xs : List Double} (h : v.numbers? = some xs)
    {i : Nat} (hi : i < xs.length) : ∃ w, v.at? i = some w := by
  cases v with
  | doubles ys | singles ys =>
    cases h
    exact ⟨_, by rw [at?, List.getElem?_eq_getElem hi, Option.map_some]⟩
  | integers type ns =>
    rw [numbers?, Option.ite_none_right_eq_some, Option.some.injEq] at h
    obtain ⟨-, rfl⟩ := h
    rw [List.length_map] at hi
    exact ⟨_, by rw [at?, List.getElem?_eq_getElem hi, Option.map_some]⟩
  | list items =>
    rw [← (forall₂_of_mapM_eq_some.mp h).length_eq] at hi
    exact ⟨_, List.getElem?_eq_getElem hi⟩
  | _ => cases h

theorem Issue.isInternal_diagnostic (i : Issue) :
    i.diagnostic.isInternal = !i.cause.problem?.isSome := by
  unfold diagnostic
  cases i.cause.problem? with
  | none => rfl
  | some problem => rfl

namespace Checked

variable {α β : Type}

/-- The style is to blame for all issues, and each is at one of the places. -/
def Blames (places : Path → Prop) (x : Checked α) : Prop :=
  ∀ i ∈ x.issues, places i.path ∧ i.cause.problem?.isSome = true

namespace Blames

variable {places : Path → Prop}

theorem ok (a : α) : Blames places (.ok a) := List.forall_mem_nil _

theorem fail {path : Path} {cause : Cause} (place : places path)
    (problem : cause.problem?.isSome = true) :
    Blames places (Checked.fail path cause : Checked α) := by
  intro i hi
  obtain rfl := List.mem_singleton.mp hi
  exact ⟨place, problem⟩

theorem bind {x : Checked α} {f : α → Checked β} (hx : x.Blames places)
    (hf : ∀ a, x = .ok a → (f a).Blames places) : Blames places (x >>= f) := by
  cases x with
  | ok a => exact hf a rfl
  | error issues => exact hx

theorem both {x : Checked α} {y : Checked β} (hx : x.Blames places) (hy : y.Blames places) :
    (x.both y).Blames places := by
  cases x with
  | ok a =>
    cases y with
    | ok b => exact .ok _
    | error js => exact hy
  | error issues =>
    cases y with
    | ok b => exact hx
    | error js =>
      intro i hi
      rcases List.mem_append.mp hi with hi | hi
      · exact hx i hi
      · exact hy i hi

theorem map {x : Checked α} (hx : x.Blames places) (f : α → β) :
    Blames places (Except.map f x) := by
  cases x with
  | ok a => exact .ok _
  | error issues => exact hx

theorem discard {x : Checked α} (hx : x.Blames places) : Blames places (Functor.discard x) :=
  hx.map _

theorem mono {places' : Path → Prop} {x : Checked α} (hx : x.Blames places)
    (h : ∀ place, places place → places' place) : x.Blames places' :=
  fun i hi => ⟨h _ (hx i hi).1, (hx i hi).2⟩

/-- What is blamed inside of an element is blamed inside of the array. -/
theorem element {x : Checked α} {path : Path} {items : List Value} {v : Value} {i : Nat}
    (found : items[i]? = some v) (hx : x.Blames (PlaceIn (path.index i) v)) :
    x.Blames (PlaceIn path (.list items)) :=
  hx.mono fun _ place => PlaceIn.element (v := .list items) found place

end Blames

end Checked

open Checked (Blames)

namespace Node

section Reading

variable {places : Path → Prop} {path : Path} {items : List Value}

theorem blames_readNumber (place : places path) (x : Double) :
    Blames places (readNumber path x) := by
  unfold readNumber
  split
  · exact .ok _
  · exact .fail place rfl

theorem blames_readArray {v : Value} {xs : List Double} (values : v.numbers? = some xs) :
    Blames (PlaceIn path v) (readArray path xs) := by
  unfold readArray
  split
  · exact .fail (.whole path v) rfl
  · split
    · rename_i i hfound
      obtain ⟨hi, -⟩ := List.findIdx?_eq_some_iff_findIdx_eq.mp hfound
      obtain ⟨w, hw⟩ := Value.exists_at?_of_numbers? values hi
      exact .fail (.index hw) rfl
    · exact .ok _

/-- Names and operands stand in the array of their operator. -/
theorem blames_readName (head : Value) (form : String) (vs : List Value) :
    Blames (PlaceIn path (.list (head :: vs))) (readName path form vs) := by
  unfold readName
  split
  · exact .fail (.whole _ _) rfl
  · exact .ok _
  · exact .fail (.index (i := 1) rfl) rfl

theorem blames_readGet (head : Value) (vs : List Value) :
    Blames (PlaceIn path (.list (head :: vs))) (readGet path vs) := by
  refine (blames_readName head "get" vs).bind fun name _ => ?_
  split
  · exact .ok _
  · split
    · exact .ok _
    · exact .fail (.index (i := 2) rfl) rfl
  · exact .fail (.index (i := 2) rfl) rfl
  · exact .fail (.whole _ _) rfl

theorem blames_readVar (head : Value) (vs : List Value) :
    Blames (PlaceIn path (.list (head :: vs))) (readVar path vs) := by
  refine (blames_readName head "var" vs).bind fun name _ => ?_
  split
  · exact .ok _
  · exact .fail (.whole _ _) rfl

theorem blames_readBuiltin (place : places path) (name : String) (vs : List Value) :
    Blames places (readBuiltin path name vs) := by
  unfold readBuiltin
  split
  · exact .ok _
  · exact .fail place rfl

theorem blames_readLabel (place : places path) (v : Value) :
    Blames places (readLabel path v) := by
  unfold readLabel
  split
  · exact blames_readNumber place _
  · split
    · exact .ok _
    · exact .ok _
    · exact .fail place rfl

/-- The base of an exponential interpolation stands in the array of its type. -/
theorem blames_readExponent (v : Value) : Blames (PlaceIn path v) (readExponent path v) := by
  unfold readExponent
  split
  · exact .ok _
  · split
    · exact .ok _
    · exact .fail (.index (i := 1) rfl) rfl
  · exact .fail (.whole _ _) rfl

theorem blames_checkStops {stops : List (Node × Node)} (hstops : ∀ s ∈ stops, places s.1.path) :
    Blames places (checkStops stops) := by
  fun_induction checkStops stops with
  | case1 => exact .fail (hstops _ (List.mem_cons_of_mem _ List.mem_cons_self)) rfl
  | case2 _ _ _ _ _ _ _ _ ih => exact ih fun s hs => hstops s (List.mem_cons_of_mem _ hs)
  | case3 _ _ _ ih => exact ih fun s hs => hstops s (List.mem_cons_of_mem _ hs)
  | case4 => exact .ok _

theorem blames_interpolateOf {exponent : Double} {args : List Node} (place : places path)
    (hargs : ∀ a ∈ args, places a.path) : Blames places (interpolateOf path exponent args) := by
  cases args with
  | nil => exact .fail place rfl
  | cons input rest =>
    refine (blames_checkStops fun s hs => ?_).bind fun _ _ => .ok _
    exact hargs s.1 (List.mem_cons_of_mem _ (mem_pairs hs).1)

theorem blames_casesOf (place : places path) (args : List Node) :
    Blames places (casesOf path args) := by
  unfold casesOf
  split
  · exact .ok _
  · exact .fail place rfl

theorem ReadFrom.path_eq {v : Value} {n : Node} (h : ReadFrom path v n) : n.path = path := by
  cases h <;> rfl

/-- Reading any of the values blames elements of that value. -/
def ReadsBlame (vs : List Value) : Prop := ∀ v ∈ vs, ∀ path, Blames (PlaceIn path v) (read path v)

theorem drop_eq_cons {α : Type} {xs ys : List α} {x : α} {i : Nat} (h : xs.drop i = x :: ys) :
    xs[i]? = some x ∧ xs.drop (i + 1) = ys := by
  constructor
  · rw [← Nat.add_zero i, ← List.getElem?_drop, h, List.getElem?_cons_zero]
  · rw [← List.tail_drop, h, List.tail_cons]

/-- Operands from an index on are elements of the array. -/
theorem blames_readArgs {i : Nat} {vs : List Value} (hvs : ReadsBlame vs)
    (hitems : items.drop i = vs) : Blames (PlaceIn path (.list items)) (readArgs path i vs) := by
  induction vs generalizing i with
  | nil =>
    rw [readArgs]
    exact .ok _
  | cons v vs ih =>
    obtain ⟨hv, hdrop⟩ := drop_eq_cons hitems
    have hfirst := (hvs v (by simp) (path.index i)).element hv
    have hrest := ih (fun w hw => hvs w (List.mem_cons_of_mem _ hw)) hdrop
    rw [readArgs]
    exact (hfirst.both hrest).bind fun _ _ => .ok _

theorem blames_readAlternatives : ∀ {i : Nat} {vs : List Value}, ReadsBlame vs →
    items.drop i = vs → ∀ known : Option Kind,
      Blames (PlaceIn path (.list items)) (readAlternatives path i known vs).1 ∧
        Blames (PlaceIn path (.list items)) (readAlternatives path i known vs).2
  | i, [], _, _, known => by
    rw [readAlternatives]
    exact ⟨.fail (.whole _ _) rfl, .ok _⟩
  | i, [v], hvs, hitems, known => by
    rw [readAlternatives]
    exact ⟨(hvs v (by simp) _).element (drop_eq_cons hitems).1, .ok _⟩
  | i, l :: o :: rest, hvs, hitems, known => by
    obtain ⟨hl, hdrop⟩ := drop_eq_cons hitems
    obtain ⟨ho, hdrop⟩ := drop_eq_cons hdrop
    have hrest := blames_readAlternatives (fun w hw => hvs w (by simp [hw])) hdrop
    have hlabel : Blames (PlaceIn path (.list items)) (readLabel (path.index i) l) :=
      blames_readLabel (.index (v := .list items) hl) l
    have houtput := (hvs o (by simp) (path.index (i + 1 : Nat))).element ho
    unfold readAlternatives
    refine ⟨(hrest _).1, ?_⟩
    refine (((hlabel.both houtput).both ?_).both (hrest _).2).bind fun _ _ => .ok _
    split
    · split
      · exact .ok _
      · exact .fail (.index (v := .list items) hl) rfl
    · exact .ok _

theorem ReadsBlame.tail {v : Value} {vs : List Value} (h : ReadsBlame (v :: vs)) : ReadsBlame vs :=
  fun w hw => h w (List.mem_cons_of_mem _ hw)

/-- An operand was read from an element of the array. -/
theorem ReadsAt.exists_item {i : Nat} {vs : List Value} {ns : List Node}
    (reads : ReadsAt path i vs ns) (hitems : items.drop i = vs) {n : Node} (hn : n ∈ ns) :
    ∃ (j : Nat) (v : Value), items[j]? = some v ∧ read (path.index j) v = .ok n := by
  obtain ⟨j, hj⟩ := List.mem_iff_getElem?.mp hn
  have hbound : j < vs.length := by
    rw [reads.1]
    exact (List.getElem?_eq_some_iff.mp hj).1
  have hv : vs[j]? = some vs[j] := List.getElem?_eq_getElem hbound
  refine ⟨i + j, vs[j], ?_, reads.2 j _ n hv hj⟩
  rw [← List.getElem?_drop, hitems, hv]

theorem ReadsAt.placeIn {i : Nat} {vs : List Value} {ns : List Node} (reads : ReadsAt path i vs ns)
    (hitems : items.drop i = vs) : ∀ n ∈ ns, PlaceIn path (.list items) n.path := by
  intro n hn
  obtain ⟨j, v, hv, hread⟩ := reads.exists_item hitems hn
  rw [(readFrom_of_read hread).path_eq]
  exact .index (v := .list items) hv

theorem blames_read_call {name : String} {vs : List Value} (hvs : ReadsBlame vs) (path : Path) :
    Blames (PlaceIn path (.list (.text name :: vs))) (read path (.list (.text name :: vs))) := by
  have hwhole := PlaceIn.whole path (.list (.text name :: vs))
  unfold read
  split
  · exact .fail (.index (i := 0) rfl) rfl
  · exact blames_readGet _ vs
  · exact blames_readVar _ vs
  · exact blames_readBuiltin hwhole name vs
  · split_ifs
    · exact .fail hwhole rfl
    · exact .fail hwhole rfl
    · cases vs with
      | nil => exact .fail hwhole rfl
      | cons type rest =>
        have htype : Blames (PlaceIn path (.list (.text name :: type :: rest)))
            (readExponent (path.index 1) type) := .element (i := 1) rfl (blames_readExponent type)
        have hargs : Blames (PlaceIn path (.list (.text name :: type :: rest)))
            (readArgs path 2 rest) := blames_readArgs hvs.tail rfl
        refine (htype.both hargs).bind fun p hboth => ?_
        have hreads := readsAt_of_readArgs (Checked.both_eq_ok.mp hboth).2
        exact blames_interpolateOf hwhole (hreads.placeIn rfl)
  · split_ifs
    · exact .fail hwhole rfl
    · cases vs with
      | nil => exact .fail hwhole rfl
      | cons v rest =>
        have hinput : Blames (PlaceIn path (.list (.text name :: v :: rest)))
            (read (path.index 1) v) := .element (i := 1) rfl (hvs v (by simp) _)
        have hpairs : Blames (PlaceIn path (.list (.text name :: v :: rest)))
              (readAlternatives path 2 none rest).1 ∧
            Blames (PlaceIn path (.list (.text name :: v :: rest)))
              (readAlternatives path 2 none rest).2 := blames_readAlternatives hvs.tail rfl none
        obtain ⟨hfallback, halternatives⟩ := hpairs
        exact ((hinput.both hfallback).both halternatives).bind fun _ _ => .ok _
  · split_ifs
    · exact .fail hwhole rfl
    · exact (blames_readArgs hvs rfl).bind fun args _ => blames_casesOf hwhole args
  · split_ifs
    · exact (blames_readArgs hvs rfl).bind fun _ _ => .ok _
    · exact .fail hwhole rfl

/-- Reading blames the style, at its elements. -/
theorem blames_read (path : Path) (v : Value) : Blames (PlaceIn path v) (read path v) := by
  have hwhole := PlaceIn.whole path v
  match v with
  | .bool b | .text b =>
    rw [read]
    exact .ok _
  | .double x | .single x | .integer _ x =>
    rw [read]
    exact blames_readNumber hwhole _
  | .numeral s =>
    rw [read]
    split
    · exact blames_readNumber hwhole _
    · exact .fail hwhole rfl
  | .doubles xs | .singles xs =>
    rw [read]
    exact blames_readArray rfl
  | .integers _ _ =>
    rw [read]
    split
    · rename_i hnumbers
      exact blames_readArray hnumbers
    · exact .fail hwhole rfl
  | .list [] | .null | .record _ | .timestamp _ | .table _ | .texts _ =>
    rw [read]
    exact .fail hwhole rfl
  | .list (v :: vs) =>
    by_cases hcall : ∃ name, v = .text name
    · obtain ⟨name, rfl⟩ := hcall
      refine blames_read_call (fun w hw path' => ?_) path
      exact blames_read path' w
    · rw [read]
      · split
        · rename_i hnumbers
          exact blames_readArray hnumbers
        · exact .fail hwhole rfl
      · exact fun name hname => hcall ⟨name, hname⟩
termination_by sizeOf v
decreasing_by
  have := List.sizeOf_lt_of_mem hw
  simp
  omega

end Reading

section Resolving

variable {scope : Scope} {places : Path → Prop} {path : Path}

theorem blames_pickKind (place : places path) (available expected : TypeSet) :
    Blames places (pickKind path available expected) := by
  unfold pickKind
  split
  · exact .ok _
  · exact .fail place rfl

theorem blames_sameType {es : List Expr} (hes : ∀ e ∈ es, places e.source) :
    Blames places (sameType es) := by
  unfold sameType
  split
  · exact .ok _
  · split
    · rename_i hfound
      exact .fail (hes _ (List.mem_cons_of_mem _ (List.mem_of_find?_eq_some hfound))) rfl
    · exact .ok _

/-- Building the node blames the style at the places, one of which is that of the node. -/
structure BuildsBlame (scope : Scope) (places : Path → Prop) (n : Node) : Prop where
  place : places n.path
  build (expected : TypeSet) : Blames places (n.build scope expected)

theorem blames_resolveList {ns : List Node} (hns : ∀ n ∈ ns, n.BuildsBlame scope places)
    (expected : TypeSet) : Blames places (resolveList scope ns expected) := by
  induction ns with
  | nil =>
    rw [resolveList]
    exact .ok _
  | cons n ns ih =>
    rw [resolveList]
    have hrest := ih fun m hm => hns m (List.mem_cons_of_mem _ hm)
    exact (((hns n (by simp)).build expected).both hrest).bind fun _ _ => .ok _

theorem blames_resolveOperands {ns : List Node} (hns : ∀ n ∈ ns, n.BuildsBlame scope places)
    (k : Kind) (hasFixed : Bool) : Blames places (resolveOperands scope k hasFixed ns) := by
  induction ns with
  | nil =>
    rw [resolveOperands]
    exact .ok _
  | cons n ns ih =>
    rw [resolveOperands]
    have hrest := ih fun m hm => hns m (List.mem_cons_of_mem _ hm)
    exact (((hns n (by simp)).build _).both hrest).bind fun _ _ => .ok _

/-- What is built from nodes stands at their places. -/
theorem places_of_buildsTo {ns : List Node} {es : List Expr}
    (hns : ∀ n ∈ ns, n.BuildsBlame scope places) (h : List.Forall₂ (BuildsTo scope) ns es) :
    ∀ e ∈ es, places e.source := by
  induction h with
  | nil => exact nofun
  | cons hfirst _ ih =>
    obtain ⟨expected, hbuild⟩ := hfirst
    rw [List.forall_mem_cons, source_of_build hbuild]
    exact ⟨(hns _ (by simp)).place, ih fun n hn => hns n (List.mem_cons_of_mem _ hn)⟩

/-- Where arithmetic can give a vector, one of its operands can be that vector. -/
theorem exists_has_of_arithmeticTypes {sets : List TypeSet} {k : Kind}
    (h : (arithmeticTypes sets).has k = true) (hk : k ≠ .number) :
    ∃ s ∈ sets, s.has k = true := by
  -- The set is made of one part for each kind, so only the part for `k` can hold it.
  have hvector (j : Kind) (all : Bool)
      (hj : (if (sets.map fun s => s.inter .mixable).any (fun s => s.has j) && all then
        TypeSet.singleton j else .empty).has k = true) : ∃ s ∈ sets, s.has k = true := by
    split_ifs at hj with hany
    · obtain rfl : k = j := by simpa using hj
      rw [Bool.and_eq_true, List.any_map, List.any_eq_true] at hany
      obtain ⟨s, hs, hhas⟩ := hany.1
      rw [Function.comp_apply, TypeSet.has_inter, Bool.and_eq_true] at hhas
      exact ⟨s, hs, hhas.1⟩
    · simp at hj
  unfold arithmeticTypes at h
  rw [TypeSet.has_union, TypeSet.has_union, Bool.or_eq_true, Bool.or_eq_true] at h
  rcases h with hnumber | hcolor | harray
  · split_ifs at hnumber
    · exact absurd (by simpa using hnumber) hk
    · simp at hnumber
  · exact hvector _ _ hcolor
  · exact hvector _ _ harray

/-- Where arithmetic gives a vector, one of its operands is asked to be that vector. -/
theorem exists_asked_of_arithmeticTypes {sets : List TypeSet} {k : Kind}
    (h : (arithmeticTypes sets).has k = true) (hk : k ≠ .number) :
    ∃ s ∈ sets, operandSet k (hasFixedVector k sets) s = .singleton k := by
  cases hfixed : hasFixedVector k sets with
  | true =>
    obtain ⟨s, hs, hhas⟩ := List.any_eq_true.mp hfixed
    rw [Bool.and_eq_true, Bool.not_eq_true'] at hhas
    refine ⟨s, hs, ?_⟩
    rw [operandSet, hhas.1, hhas.2]
    rfl
  | false =>
    obtain ⟨s, hs, hhas⟩ := exists_has_of_arithmeticTypes h hk
    refine ⟨s, hs, ?_⟩
    rw [operandSet, hhas]
    rfl

/-- An operand that is asked to be a vector is one. -/
theorem exists_vector_of_resolveOperands {sizes : Nat → Prop} {k : Kind} {hasFixed : Bool}
    {ns : List Node} {es : List Expr} (hsize : sizes scope.arraySize)
    (hns : ∀ n ∈ ns, n.Resolves scope sizes) (h : resolveOperands scope k hasFixed ns = .ok es)
    {n : Node} (hn : n ∈ ns) (asked : operandSet k hasFixed (n.types scope) = .singleton k) :
    ∃ e ∈ es, e.type.kind? = some k := by
  induction ns generalizing es with
  | nil => cases hn
  | cons m ns ih =>
    rw [resolveOperands] at h
    obtain ⟨⟨e, rest⟩, hboth, hpure⟩ := Checked.bind_eq_ok.mp h
    cases hpure
    obtain ⟨he, hrest⟩ := Checked.both_eq_ok.mp hboth
    rcases List.mem_cons.mp hn with rfl | hn
    · have hsound := widening_sound hsize (hns n List.mem_cons_self) he
      rw [asked] at hsound
      exact ⟨e, by simp, TypeSet.accepts_singleton.mp hsound.accepted⟩
    · obtain ⟨x, hx, hkind⟩ := ih (fun m hm => hns m (List.mem_cons_of_mem _ hm)) hrest hn
      exact ⟨x, List.mem_cons_of_mem _ hx, hkind⟩

theorem blames_vectorCall {op : Op} {k : Kind} {args : List Expr}
    (hargs : ∀ e ∈ args, places e.source) (hvector : ∃ e ∈ args, e.type ≠ .number) :
    Blames places (vectorCall path op k args) := by
  unfold vectorCall
  dsimp only
  split_ifs with hempty
  · obtain ⟨e, he, htype⟩ := hvector
    rw [List.isEmpty_iff, List.filter_eq_nil_iff] at hempty
    exact absurd (decide_eq_true htype) (hempty e he)
  · refine (blames_sameType fun e he => ?_).bind fun _ _ => .ok _
    exact hargs e (List.mem_filter.mp he).1

/-- The operands of vector arithmetic leave it a vector to take its type from. -/
theorem blames_vectorOperands {op : Op} {k : Kind} {args : List Node}
    (hwf : ∀ n ∈ args, n.WellFormed) (hargs : ∀ n ∈ args, n.BuildsBlame scope places)
    (hk : k ≠ .number) (available : (arithmeticTypes (typesList scope args)).has k = true) :
    Blames places (resolveOperands scope k (hasFixedVector k (typesList scope args)) args >>=
      vectorCall path op k) := by
  refine (blames_resolveOperands hargs _ _).bind fun es hes => ?_
  refine blames_vectorCall (places_of_buildsTo hargs (buildsTo_of_resolveOperands hes)) ?_
  obtain ⟨s, hs, hasked⟩ := exists_asked_of_arithmeticTypes available hk
  rw [typesList_eq] at hs
  obtain ⟨n, hn, rfl⟩ := List.mem_map.mp hs
  have hresolves : ∀ n ∈ args, n.Resolves scope fun _ => True := fun n hn =>
    (hwf n hn).resolves (fun _ _ => trivial) trivial
  obtain ⟨e, he, hkind⟩ := exists_vector_of_resolveOperands trivial hresolves hes hn hasked
  refine ⟨e, he, fun htype => hk ?_⟩
  rw [htype] at hkind
  exact (Option.some.inj hkind).symm

theorem blames_resolve_call {op : Op} {args : List Node} (place : places path)
    (hwf : ∀ n ∈ args, n.WellFormed) (hargs : ∀ n ∈ args, n.BuildsBlame scope places)
    (expected : TypeSet) : Blames places ((Node.call path op args).resolve scope expected) := by
  rw [resolve]
  dsimp only
  split_ifs
  · exact .fail place rfl
  · refine (blames_pickKind place _ _).bind fun k hpick => ?_
    split_ifs with hk
    · exact (blames_resolveList hargs _).bind fun _ _ => .ok _
    · exact blames_vectorOperands hwf hargs hk (pickKind_eq_ok hpick).1
  · refine (blames_pickKind place _ _).discard.bind fun _ _ => ?_
    split
    · exact (blames_resolveList hargs _).bind fun _ _ => .ok _
    · split
      · exact .fail place rfl
      · refine (blames_resolveList hargs _).bind fun es hes => ?_
        have hsources := places_of_buildsTo hargs (buildsTo_of_resolveList hes)
        exact (blames_sameType hsources).discard.bind fun _ _ => .ok _

/-- Pairs of operands, and what is built from their second parts. -/
theorem blames_resolvePairs {ps : List (Node × Node)}
    (hps : ∀ n ∈ laidOut ps, n.BuildsBlame scope places) (first second : TypeSet) :
    Blames places (resolveFirst scope ps first) ∧ Blames places (resolveSecond scope ps second) ∧
      ∀ ys, resolveSecond scope ps second = .ok ys → ∀ e ∈ ys, places e.source := by
  have hfirst : ∀ n ∈ ps.map Prod.fst, n.BuildsBlame scope places := by
    intro n hn
    obtain ⟨p, hp, rfl⟩ := List.mem_map.mp hn
    exact hps p.1 (mem_laidOut.mpr ⟨p, hp, Or.inl rfl⟩)
  have hsecond : ∀ n ∈ ps.map Prod.snd, n.BuildsBlame scope places := by
    intro n hn
    obtain ⟨p, hp, rfl⟩ := List.mem_map.mp hn
    exact hps p.2 (mem_laidOut.mpr ⟨p, hp, Or.inr rfl⟩)
  rw [resolveFirst_eq, resolveSecond_eq]
  exact ⟨blames_resolveList hfirst _, blames_resolveList hsecond _, fun ys hys =>
    places_of_buildsTo hsecond (buildsTo_of_resolveList hys)⟩

/-- Outputs with a fallback after them. -/
theorem blames_outputs {outputs : List Expr} {fallback : Node} {e : Expr} {expected : TypeSet}
    (houtputs : ∀ x ∈ outputs, places x.source) (hfallback : fallback.BuildsBlame scope places)
    (he : fallback.build scope expected = .ok e) : Blames places (sameType (outputs ++ [e])) := by
  refine blames_sameType fun x hx => ?_
  rcases List.mem_append.mp hx with hx | hx
  · exact houtputs x hx
  · rw [List.mem_singleton.mp hx, source_of_build he]
    exact hfallback.place

/-- One step of resolution blames the style, if building the operands does. -/
theorem WellFormed.blames_resolve {n : Node} (hwf : n.WellFormed) (place : places n.path)
    (hoperands : ∀ m ∈ n.operands, m.BuildsBlame scope places) (expected : TypeSet) :
    Blames places (n.resolve scope expected) := by
  cases hwf with
  | number path | bool path b | builtin path =>
    rw [resolve]
    exact (blames_pickKind place _ _).discard.bind fun _ _ => .ok _
  | text path s =>
    rw [resolve]
    refine (blames_pickKind place _ _).bind fun k _ => ?_
    split
    · exact .ok _
    · exact .ok _
  | array path =>
    rw [resolve]
    refine (blames_pickKind place _ _).bind fun k _ => ?_
    split_ifs
    · split
      · exact .ok _
      · exact .fail place rfl
    · exact .ok _
  | get path name =>
    rw [resolve]
    unfold resolveGet
    split
    · exact (blames_pickKind place _ _).discard.bind fun _ _ => .ok _
    · split
      · exact .ok _
      · exact .fail place rfl
  | var path name =>
    rw [resolve, resolveVar]
    split
    · exact .fail place rfl
    · split_ifs
      · exact .fail place rfl
      · exact (blames_pickKind place _ _).bind fun _ _ => .ok _
  | call path _ _ operands => exact blames_resolve_call place operands hoperands expected
  | interpolate path exponent =>
    rw [resolve]
    refine (blames_pickKind place _ _).bind fun k _ => ?_
    obtain ⟨hinput, hstops⟩ := List.forall_mem_cons.mp hoperands
    obtain ⟨hvalues, houtputs, hsources⟩ := blames_resolvePairs hstops .numbers (.singleton k)
    refine ((hinput.build _).both (hvalues.both houtputs)).bind fun r hr => ?_
    have hys := (Checked.both_eq_ok.mp (Checked.both_eq_ok.mp hr).2).2
    exact (blames_sameType (hsources _ hys)).bind fun _ _ => .ok _
  | select path =>
    rw [resolve]
    refine (blames_pickKind place _ _).bind fun k _ => ?_
    obtain ⟨hinput, hrest⟩ := List.forall_mem_cons.mp hoperands
    rw [List.forall_mem_append, List.forall_mem_singleton] at hrest
    obtain ⟨halternatives, hfallback⟩ := hrest
    obtain ⟨hlabels, houtputs, hsources⟩ := blames_resolvePairs halternatives _ (.singleton k)
    refine ((hinput.build _).both (hlabels.both (houtputs.both (hfallback.build _)))).bind
      fun r hr => ?_
    have hlast := (Checked.both_eq_ok.mp (Checked.both_eq_ok.mp hr).2).2
    obtain ⟨hys, hy⟩ := Checked.both_eq_ok.mp hlast
    exact (blames_outputs (hsources _ hys) hfallback hy).bind fun _ _ => .ok _
  | cases path =>
    rw [resolve]
    refine (blames_pickKind place _ _).bind fun k _ => ?_
    rw [operands, List.forall_mem_append, List.forall_mem_singleton] at hoperands
    obtain ⟨halternatives, hfallback⟩ := hoperands
    obtain ⟨hconditions, houtputs, hsources⟩ :=
      blames_resolvePairs halternatives .booleans (.singleton k)
    refine (hconditions.both (houtputs.both (hfallback.build _))).bind fun r hr => ?_
    obtain ⟨hys, hy⟩ := Checked.both_eq_ok.mp (Checked.both_eq_ok.mp hr).2
    exact (blames_outputs (hsources _ hys) hfallback hy).bind fun _ _ => .ok _

theorem ReadFrom.exists_item {v : Value} {n m : Node} (h : ReadFrom path v n)
    (hm : m ∈ n.operands) :
    ∃ items, v = .list items ∧
      ∃ (i : Nat) (w : Value), items[i]? = some w ∧ read (path.index i) w = .ok m := by
  cases h with
  | call reads | interpolate _ reads | select _ reads | cases reads =>
    exact ⟨_, rfl, reads.exists_item rfl hm⟩
  | _ => cases hm

/-- Building what was read from a value blames the style, at elements of the value. -/
theorem buildsBlame_of_read (scope : Scope) {path : Path} (v : Value) {n : Node}
    (h : read path v = .ok n) : n.BuildsBlame scope (PlaceIn path v) := by
  have hfrom := readFrom_of_read h
  have hplace : PlaceIn path v n.path := by
    rw [hfrom.path_eq]
    exact .whole path v
  have hoperands : ∀ m ∈ n.operands, m.BuildsBlame scope (PlaceIn path v) := by
    intro m hm
    obtain ⟨items, rfl, i, w, hw, hread⟩ := hfrom.exists_item hm
    have hpart := buildsBlame_of_read scope w hread
    exact ⟨.element (v := .list items) hw hpart.place, fun expected =>
      (hpart.build expected).element hw⟩
  have hresolve := (read_wellFormed path v h).blames_resolve hplace hoperands
  refine ⟨hplace, fun expected => ?_⟩
  unfold build widening
  split
  · exact (hresolve _).map _
  · exact hresolve _
termination_by sizeOf v
decreasing_by
  subst v
  have := List.sizeOf_lt_of_mem (List.mem_of_getElem? hw)
  simp
  omega

end Resolving

end Node

theorem blames_buildExpr (scope : Scope) (path : Path) (raw : Value) (expected : TypeSet) :
    Blames (PlaceIn path raw) (buildExpr scope path raw expected) := by
  refine (Node.blames_read path raw).bind fun n hread => ?_
  exact (Node.buildsBlame_of_read scope raw hread).build expected

theorem blames_buildOfType (vars : OrderedMap String Value) (path : Path) (raw : Value)
    (want : Ty) : Blames (PlaceIn path raw) (buildOfType vars path raw want) := by
  refine (blames_buildExpr _ path raw _).bind fun e _ => ?_
  split
  · exact .ok _
  · exact .fail (.whole path raw) rfl

end ShaderStyle
