import ShaderStyle.Proofs.Typing.Places

/-! The order of operands does not affect how they are typed: what an operand becomes depends on the
kinds that all operands can take together, and not on its position. -/
namespace ShaderStyle

open Checked (Related)

section EachAlike

variable {α β γ : Type}

/-- Results for two lists of inputs, where what an input gives does not depend on its position. -/
def EachAlike (xs xs' : List α) (ys ys' : List β) : Prop :=
  ∃ f : α → β, ys = xs.map f ∧ ys' = xs'.map f

theorem EachAlike.perm {xs xs' : List α} {ys ys' : List β} (h : EachAlike xs xs' ys ys')
    (perm : xs.Perm xs') : ys.Perm ys' := by
  obtain ⟨f, rfl, rfl⟩ := h
  exact perm.map f

theorem EachAlike.map {xs xs' : List α} {ys ys' : List β} (h : EachAlike xs xs' ys ys')
    (g : β → γ) : EachAlike xs xs' (ys.map g) (ys'.map g) := by
  obtain ⟨f, rfl, rfl⟩ := h
  exact ⟨g ∘ f, List.map_map, List.map_map⟩

theorem EachAlike.trans {xs xs' : List α} {ys ys' : List β} {zs zs' : List γ}
    (h : EachAlike xs xs' ys ys') (h' : EachAlike ys ys' zs zs') : EachAlike xs xs' zs zs' := by
  obtain ⟨g, rfl, rfl⟩ := h'
  exact h.map g

end EachAlike

namespace Checked

variable {α β : Type}

/-- The results for all inputs, or the issues of all that fail. -/
def each (f : α → Checked β) : List α → Checked (List β)
  | [] => .ok []
  | x :: xs => do
    let (y, ys) ← (f x).both (each f xs)
    return y :: ys

variable {f : α → Checked β} {xs : List α}

theorem each_eq_ok {g : α → β} (h : ∀ x ∈ xs, f x = .ok (g x)) : each f xs = .ok (xs.map g) := by
  induction xs with
  | nil => rfl
  | cons x xs ih =>
    rw [List.forall_mem_cons] at h
    rw [each, h.1, ih h.2]
    rfl

theorem exists_error_of_each {x : α} {is : List Issue} (hx : x ∈ xs) (h : f x = .error is) :
    ∃ js, each f xs = .error js := by
  induction xs with
  | nil => cases hx
  | cons y xs ih =>
    rw [each]
    rcases List.mem_cons.mp hx with rfl | hx
    · rw [h]
      cases each f xs <;> exact ⟨_, rfl⟩
    · obtain ⟨js, hjs⟩ := ih hx
      rw [hjs]
      cases f y <;> exact ⟨_, rfl⟩

/-- In any order, all inputs give their results or some input fails. -/
theorem related_each [Inhabited β] {xs' : List α} (perm : xs.Perm xs') :
    Related (EachAlike xs xs') (each f xs) (each f xs') := by
  by_cases hall : ∀ x ∈ xs, ∃ y, f x = .ok y
  · have hvalue (x : α) (hx : x ∈ xs) : f x = .ok ((f x).toOption.getD default) := by
      obtain ⟨y, hy⟩ := hall x hx
      rw [hy]
      rfl
    rw [each_eq_ok hvalue, each_eq_ok fun x hx => hvalue x (perm.mem_iff.mpr hx)]
    exact .ok ⟨_, rfl, rfl⟩
  · obtain ⟨x, hx, hfails⟩ : ∃ x ∈ xs, ∀ y, f x ≠ .ok y := by simpa using hall
    cases h : f x with
    | ok y => exact absurd h (hfails y)
    | error is =>
      obtain ⟨js, hjs⟩ := exists_error_of_each hx h
      obtain ⟨js', hjs'⟩ := exists_error_of_each (perm.mem_iff.mp hx) h
      rw [hjs, hjs']
      exact .error js js'

end Checked

/-- Expressions for one operator with its operands in two orders. They have one type, and what an
operand becomes, up to its sources, does not depend on its position. -/
inductive Expr.Reordered {α : Type} (xs xs' : List α) : Expr → Expr → Prop
  | call {path path' : Path} {op : Op} {type : Ty} {es es' : List Expr}
      (operands : EachAlike xs xs' (es.map unplaced) (es'.map unplaced)) :
      Reordered xs xs' (.call path op es type) (.call path' op es' type)
  | widen {e e' : Expr} (type : Ty) (h : Reordered xs xs' e e') :
      Reordered xs xs' (.widen e type) (.widen e' type)

namespace Node

variable {scope : Scope} {path : Path} {ns ns' : List Node}

theorem resolveList_eq_each (expected : TypeSet) :
    resolveList scope ns expected = Checked.each (fun n => n.build scope expected) ns := by
  induction ns with
  | nil => rw [resolveList, Checked.each]
  | cons n ns ih =>
    rw [resolveList, Checked.each, ih]
    rfl

theorem resolveOperands_eq_each (k : Kind) (hasFixed : Bool) :
    resolveOperands scope k hasFixed ns =
      Checked.each (fun n => n.build scope (operandSet k hasFixed (n.types scope))) ns := by
  induction ns with
  | nil => rw [resolveOperands, Checked.each]
  | cons n ns ih =>
    rw [resolveOperands, Checked.each, ih]
    rfl

theorem related_resolveList_perm (perm : ns.Perm ns') (expected : TypeSet) :
    Related (EachAlike ns ns') (resolveList scope ns expected)
      (resolveList scope ns' expected) := by
  rw [resolveList_eq_each, resolveList_eq_each]
  exact Checked.related_each perm

theorem related_resolveOperands_perm (perm : ns.Perm ns') (k : Kind) (hasFixed : Bool) :
    Related (EachAlike ns ns') (resolveOperands scope k hasFixed ns)
      (resolveOperands scope k hasFixed ns') := by
  rw [resolveOperands_eq_each, resolveOperands_eq_each]
  exact Checked.related_each perm

theorem typesList_perm (scope : Scope) (perm : ns.Perm ns') :
    (typesList scope ns).Perm (typesList scope ns') := by
  rw [typesList_eq, typesList_eq]
  exact perm.map _

section Sets

variable {sets sets' : List TypeSet}

theorem common_perm (perm : sets.Perm sets') : common sets = common sets' := by
  refine perm.foldl_eq' (fun s _ t _ u => ?_) _
  unfold TypeSet.inter
  rw [BitVec.and_assoc, BitVec.and_assoc, BitVec.and_comm t.bits]

theorem arithmeticTypes_perm (perm : sets.Perm sets') :
    arithmeticTypes sets = arithmeticTypes sets' := by
  have hmix := perm.map fun s => s.inter .mixable
  simp only [arithmeticTypes, hmix.any_eq, hmix.all_eq]

theorem hasFixedVector_perm (k : Kind) (perm : sets.Perm sets') :
    hasFixedVector k sets = hasFixedVector k sets' :=
  perm.any_eq

end Sets

section Calls

variable {op : Op} {args args' : List Node}

theorem related_reordered_call (t : Ty) {es es' : List Expr} (h : EachAlike args args' es es') :
    Related (Expr.Reordered args args') (.ok (.call path op es t)) (.ok (.call path op es' t)) :=
  .ok (.call (h.map _))

theorem related_vectorCall_perm {k : Kind} {es es' : List Expr} (perm : args.Perm args')
    (h : EachAlike args args' es es') :
    Related (Expr.Reordered args args') (vectorCall path op k es) (vectorCall path op k es') := by
  have hvectors := (h.perm perm).filter fun e => decide (e.type ≠ .number)
  unfold vectorCall
  dsimp only
  rw [hvectors.isEmpty_eq]
  split
  · exact .fail _ _ _ _
  · refine (related_sameType (hvectors.map _)).bind ?_
    rintro t _ rfl
    exact related_reordered_call t h

/-- Reordering operands reorders what they become. -/
theorem related_resolve_perm (perm : args.Perm args') (expected : TypeSet) :
    Related (Expr.Reordered args args') ((call path op args).resolve scope expected)
      ((call path op args').resolve scope expected) := by
  have hsets := typesList_perm scope perm
  rw [resolve, resolve]
  dsimp only
  rw [arithmeticTypes_perm hsets, perm.length_eq, common_perm hsets]
  split_ifs
  · exact .fail _ _ _ _
  · refine (related_pickKind _ _ _).bind ?_
    rintro k _ rfl
    rw [hasFixedVector_perm k hsets]
    split_ifs
    · exact (related_resolveList_perm perm _).bind fun es es' h => related_reordered_call _ h
    · refine (related_resolveOperands_perm perm _ _).bind fun es es' h => ?_
      exact related_vectorCall_perm perm h
  · refine (related_pickKind _ _ _).discard.bind fun _ _ _ => ?_
    split
    · exact (related_resolveList_perm perm _).bind fun es es' h => related_reordered_call _ h
    · split
      · exact .fail _ _ _ _
      · refine (related_resolveList_perm perm _).bind fun es es' h => ?_
        have hes := h.perm perm
        rw [hes.length_eq]
        refine (related_sameType (hes.map _)).discard.bind fun _ _ _ => ?_
        exact related_reordered_call _ h

theorem related_build_perm (perm : args.Perm args') (expected : TypeSet) :
    Related (Expr.Reordered args args') ((call path op args).build scope expected)
      ((call path op args').build scope expected) := by
  have htypes : (call path op args).types scope = (call path op args').types scope := by
    rw [types, types, arithmeticTypes_perm (typesList_perm scope perm), perm.length_eq]
  rw [build, build, widening, widening, htypes]
  split
  · exact (related_resolve_perm perm _).map fun e e' h => .widen _ h
  · exact related_resolve_perm perm _

end Calls

end Node

namespace Expr

theorem SameSourced.exists_call {d : Expr} {path : Path} {op : Op} {es : List Expr} {t : Ty}
    (h : d.SameSourced (.call path op es t)) : ∃ p ds, d = .call p op ds t ∧ SameList ds es := by
  unfold SameSourced at h
  cases d with
  | call p op' ds t' =>
    simp only [unplaced, unplacedList_eq, call.injEq, true_and] at h
    obtain ⟨rfl, hds, rfl⟩ := h
    exact ⟨p, ds, rfl, hds⟩
  | _ => simp [unplaced] at h

theorem SameSourced.exists_widen {d e : Expr} {t : Ty} (h : d.SameSourced (.widen e t)) :
    ∃ x, d = .widen x t ∧ x.SameSourced e := by
  unfold SameSourced at h
  cases d with
  | widen x t' =>
    simp only [unplaced, widen.injEq] at h
    obtain ⟨hx, rfl⟩ := h
    exact ⟨x, rfl, hx⟩
  | _ => simp [unplaced] at h

namespace Reordered

variable {α β : Type} {xs xs' : List α} {e e' : Expr}

theorem type_eq (h : Reordered xs xs' e e') : e.type = e'.type := by
  cases h <;> rfl

/-- Sources do not matter to what the operands become. -/
theorem of_sameSourced {d d' : Expr} (h : Reordered xs xs' e e') (hd : d.SameSourced e)
    (hd' : d'.SameSourced e') : Reordered xs xs' d d' := by
  induction h generalizing d d' with
  | call operands =>
    obtain ⟨p, ds, rfl, hds⟩ := hd.exists_call
    obtain ⟨p', ds', rfl, hds'⟩ := hd'.exists_call
    refine .call ?_
    rw [hds, hds']
    exact operands
  | widen type _ ih =>
    obtain ⟨x, rfl, hx⟩ := hd.exists_widen
    obtain ⟨x', rfl, hx'⟩ := hd'.exists_widen
    exact .widen type (ih hx hx')

/-- Operands that come from other inputs, each from its own wherever it stands. -/
theorem comp {ys ys' : List β} (h : Reordered xs xs' e e') (hxs : EachAlike ys ys' xs xs') :
    Reordered ys ys' e e' := by
  induction h with
  | call operands => exact .call (hxs.trans operands)
  | widen type _ ih => exact .widen type ih

end Reordered

end Expr

namespace Node

section Read

variable {scope : Scope} {path : Path} {op : Op} {args args' : List Node}

/-- Values read as operands are read as they are anywhere. -/
theorem related_readArgs_each (path : Path) (i : Nat) (vs : List Value) :
    Related (fun ns us => ns.map unplaced = us) (readArgs path i vs)
      (Checked.each (fun v => (read ⟨""⟩ v).map unplaced) vs) := by
  induction vs generalizing i with
  | nil =>
    rw [readArgs]
    exact .ok rfl
  | cons v vs ih =>
    rw [readArgs, Checked.each]
    have hv : Related (fun n u => n.unplaced = u) (read (path.index i) v)
        ((read ⟨""⟩ v).map unplaced) := by
      have hread := related_read (path.index i) ⟨""⟩ v
      cases h : read (path.index i) v <;> cases h' : read ⟨""⟩ v <;> rw [h, h'] at hread <;>
        cases hread
      · exact .error _ _
      · exact .ok ‹_›
    refine (hv.both (ih (i + 1))).bind fun p p' hp => .ok ?_
    rw [List.map_cons, hp.1, hp.2]

/-- Operands that are read in another order are the same nodes in that order. -/
theorem related_readArgs_perm {vs vs' : List Value} (perm : vs.Perm vs') (path : Path) (i : Nat) :
    Related (fun ns ns' => EachAlike vs vs' (ns.map unplaced) (ns'.map unplaced))
      (readArgs path i vs) (readArgs path i vs') := by
  have hperm : Related (EachAlike vs vs')
      (Checked.each (fun v => (read ⟨""⟩ v).map unplaced) vs)
      (Checked.each (fun v => (read ⟨""⟩ v).map unplaced) vs') := Checked.related_each perm
  refine (related_readArgs_each path i vs).between (related_readArgs_each path i vs') hperm ?_
  rintro ns _ ns' _ rfl rfl h
  exact h

theorem Form.ofName?_name (op : Op) :
    Form.ofName? op.name = if op = .invalid then none else some (.operator op) := by
  cases op <;> rfl

theorem related_read_perm (op : Op) {vs vs' : List Value} (perm : vs.Perm vs') (path : Path) :
    Related (fun n n' => ∃ args args', n = call path op args ∧ n' = call path op args' ∧
        EachAlike vs vs' (args.map unplaced) (args'.map unplaced))
      (read path (.list (.text op.name :: vs))) (read path (.list (.text op.name :: vs'))) := by
  have hform := Form.ofName?_name op
  unfold read
  split_ifs at hform
  · rw [hform]
    exact .fail _ _ _ _
  · rw [hform]
    dsimp only
    rw [perm.length_eq]
    split_ifs
    · refine (related_readArgs_perm perm path 1).bind fun args args' h => ?_
      exact .ok ⟨args, args', rfl, rfl, h⟩
    · exact .fail _ _ _ _

/-- Nodes for the operands in two orders, wherever they were read, are built alike. -/
theorem related_build_eachAlike {vs vs' : List Value} (perm : vs.Perm vs')
    (hn : (call path op args).WellFormed) (hn' : (call path op args').WellFormed)
    (h : EachAlike vs vs' (args.map unplaced) (args'.map unplaced)) (expected : TypeSet) :
    Related (Expr.Reordered vs vs') ((call path op args).build scope expected)
      ((call path op args').build scope expected) := by
  have hperm : Related (Expr.Reordered (args.map unplaced) (args'.map unplaced))
      ((call path op args).unplaced.build scope expected)
      ((call path op args').unplaced.build scope expected) := by
    rw [unplaced, unplaced, unplacedList_eq, unplacedList_eq]
    exact related_build_perm (h.perm perm) expected
  refine (hn.related_build expected).between (hn'.related_build expected) hperm ?_
  intro e d e' d' he he' hd
  exact (hd.of_sameSourced he he').comp h

end Read

end Node

theorem related_buildExpr_perm (scope : Scope) (op : Op) {vs vs' : List Value}
    (perm : vs.Perm vs') (path : Path) (expected : TypeSet) :
    Related (Expr.Reordered vs vs')
      (buildExpr scope path (.list (.text op.name :: vs)) expected)
      (buildExpr scope path (.list (.text op.name :: vs')) expected) := by
  have hread := Node.related_read_perm op perm path
  rw [buildExpr, buildExpr]
  cases h : Node.read path (.list (.text op.name :: vs)) <;>
    cases h' : Node.read path (.list (.text op.name :: vs')) <;> rw [h, h'] at hread <;>
    cases hread
  · exact .error _ _
  · rename_i heach
    obtain ⟨args, args', rfl, rfl, heach⟩ := heach
    exact Node.related_build_eachAlike perm (Node.read_wellFormed path _ h)
      (Node.read_wellFormed path _ h') heach expected

/-- The order of operands affects neither whether an operator is built nor its type. Each operand
becomes the same expression up to its sources, whatever its position. -/
theorem Builder.build_perm (b : Builder) (op : Op) {vs vs' : List Value} (perm : vs.Perm vs')
    (path : Path) (expected : TypeSet) :
    Option.Rel (fun e e' => e.type = e'.type ∧ Expr.Reordered vs vs' e e')
      (b.build path (.list (.text op.name :: vs)) expected).1
      (b.build path (.list (.text op.name :: vs')) expected).1 :=
  b.rel_collect b ((related_buildExpr_perm _ op perm path expected).mono
    fun _ _ h => ⟨h.type_eq, h⟩)

private def factor : Value := .list [.text "get", .text "x"]

private def direction : Value := .doubles [.finite 1, .finite 2]

private def factorFirst : Expr :=
  .call ⟨"size"⟩ .mul [.get ⟨"size[1]"⟩ "x" .number, .array ⟨"size[2]"⟩ [.finite 1, .finite 2]]
    (.array 2)

private def factorLast : Expr :=
  .call ⟨"size"⟩ .mul [.array ⟨"size[1]"⟩ [.finite 1, .finite 2], .get ⟨"size[2]"⟩ "x" .number]
    (.array 2)

/-- The vector makes the property a number, before it as well as after it. -/
theorem Builder.build_perm_scaled :
    Builder.build ⟨.empty, []⟩ ⟨"size"⟩ (.list [.text "*", factor, direction]) .any =
        (some factorFirst, ⟨.empty, []⟩) ∧
      Builder.build ⟨.empty, []⟩ ⟨"size"⟩ (.list [.text "*", direction, factor]) .any =
        (some factorLast, ⟨.empty, []⟩) ∧
      Expr.Reordered [factor, direction] [direction, factor] factorFirst factorLast := by
  have hfirst : Builder.build ⟨.empty, []⟩ ⟨"size"⟩ (.list [.text "*", factor, direction]) .any =
      (some factorFirst, ⟨.empty, []⟩) := by cbv
  have hlast : Builder.build ⟨.empty, []⟩ ⟨"size"⟩ (.list [.text "*", direction, factor]) .any =
      (some factorLast, ⟨.empty, []⟩) := by cbv
  have hperm : [factor, direction].Perm [direction, factor] := .swap _ _ []
  have hrel := Builder.build_perm ⟨.empty, []⟩ .mul hperm ⟨"size"⟩ .any
  rw [Op.name, hfirst, hlast] at hrel
  cases hrel with
  | some h => exact ⟨hfirst, hlast, h.2⟩

end ShaderStyle
