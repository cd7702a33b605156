import Mathlib.Order.RelClasses
import Mathlib.Data.Rat.Floor
import ShaderStyle.Proofs.Emission.Leaves
import ShaderStyle.Proofs.Emission.Parts
import ShaderStyle.Proofs.Typing.Blame

/-! The stops of an interpolation increase where they are literals. Reading compares neighbors, and
building keeps literals. -/
namespace ShaderStyle

theorem Double.le_eq_decide {x y : Double} (hx : x.isFinite = true) (hy : y.isFinite = true) :
    x.le y = decide (x.toRat ≤ y.toRat) := by
  cases x with
  | nan | infinity => cases hx
  | finite | negativeZero =>
    cases y with
    | nan | infinity => cases hy
    | finite | negativeZero => rfl

namespace Node

/-- The number that a literal is. -/
def number? : Node → Option Double
  | .number _ x => some x
  | _ => none

theorem number?_eq_some {n : Node} {x : Double} (h : n.number? = some x) :
    ∃ path, n = .number path x := by
  cases n with
  | number path y =>
    cases h
    exact ⟨path, rfl⟩
  | _ => cases h

/-- Stops that pass the check, if all of them are literals, increase from one to the next. -/
theorem isChain_of_checkStops {stops : List (Node × Node)} (h : checkStops stops = .ok ())
    {xs : List Double} (literals : (stops.map fun s => s.1.number?) = xs.map some)
    (finite : ∀ x ∈ xs, x.isFinite = true) : (xs.map Double.toRat).IsChain (· < ·) := by
  induction stops generalizing xs with
  | nil =>
    obtain rfl : xs = [] := List.map_eq_nil_iff.mp literals.symm
    exact .nil
  | cons stop stops ih =>
    obtain ⟨stop, output⟩ := stop
    cases xs with
    | nil => cases literals
    | cons x xs =>
      obtain ⟨hx, hrest⟩ := List.cons.inj literals
      cases stops with
      | nil =>
        obtain rfl : xs = [] := List.map_eq_nil_iff.mp hrest.symm
        exact .singleton _
      | cons next stops =>
        obtain ⟨next, nextOutput⟩ := next
        cases xs with
        | nil => cases hrest
        | cons y ys =>
          obtain ⟨hy, -⟩ := List.cons.inj hrest
          obtain ⟨_, rfl⟩ := number?_eq_some hx
          obtain ⟨_, rfl⟩ := number?_eq_some hy
          rw [List.forall_mem_cons, List.forall_mem_cons] at finite
          rw [checkStops] at h
          split at h
          · exact absurd h Checked.fail_ne_ok
          · next hle =>
            rw [Double.le_eq_decide finite.2.1 finite.1, decide_eq_true_iff, not_le] at hle
            have hchain := ih h hrest (List.forall_mem_cons.mpr finite.2)
            exact .cons_cons hle hchain

theorem checkStops_of_interpolateOf {path : Path} {exponent : Double} {args : List Node} {n : Node}
    (h : interpolateOf path exponent args = .ok n) :
    ∃ input stops, n = .interpolate path exponent input stops ∧ checkStops stops = .ok () := by
  cases args with
  | nil => exact absurd h Checked.fail_ne_ok
  | cons input rest =>
    obtain ⟨⟨⟩, hcheck, hpure⟩ := Checked.bind_eq_ok.mp h
    cases hpure
    exact ⟨input, pairs rest, rfl, hcheck⟩

/-- Every interpolation that is read has passed the check. -/
theorem checkStops_of_read {path place : Path} {v : Value} {exponent : Double} {input : Node}
    {stops : List (Node × Node)} (h : read path v = .ok (.interpolate place exponent input stops)) :
    checkStops stops = .ok () := by
  cases readFrom_of_read h with
  | @interpolate type _ vs _ _ _ _ =>
    rw [read] at h
    have hform : Form.ofName? "interpolate" = some .interpolate := rfl
    rw [hform] at h
    dsimp only at h
    split_ifs at h
    · exact absurd h Checked.fail_ne_ok
    · exact absurd h Checked.fail_ne_ok
    · obtain ⟨⟨base, args⟩, -, h⟩ := Checked.bind_eq_ok.mp h
      obtain ⟨_, _, heq, hcheck⟩ := checkStops_of_interpolateOf h
      cases heq
      exact hcheck

theorem exists_of_buildsTo {scope : Scope} {ns : List Node} {es : List Expr}
    (h : List.Forall₂ (BuildsTo scope) ns es) {e : Expr} (he : e ∈ es) :
    ∃ n ∈ ns, BuildsTo scope n e := by
  induction h with
  | nil => cases he
  | cons hfirst _ ih =>
    rcases List.mem_cons.mp he with rfl | he
    · exact ⟨_, List.mem_cons_self, hfirst⟩
    · obtain ⟨n, hn, hbuild⟩ := ih he
      exact ⟨n, List.mem_cons_of_mem _ hn, hbuild⟩

/-- Whether an expression was resolved from a node that reading gave. -/
def IsResolved (scope : Scope) (e : Expr) : Prop :=
  ∃ path v n, read path v = .ok n ∧ Expr.ResolvedFrom scope n e

theorem parts_of_resolvedFrom {scope : Scope} {n : Node} {e : Expr}
    (h : Expr.ResolvedFrom scope n e) : e.parts = e.operands := by
  cases h <;> rfl

/-- Every node of a built expression widens another, or was resolved from a node that was read. -/
theorem isResolved_of_read (scope : Scope) {path : Path} (v : Value) {n : Node}
    (h : read path v = .ok n) {e : Expr} (built : BuildsTo scope n e) :
    ∀ m ∈ e.nodes, IsResolved scope m ∨ ∃ x type, m = .widen x type := by
  have hresolved {x : Expr} (hx : Expr.ResolvedFrom scope n x) :
      ∀ m ∈ x.nodes, IsResolved scope m ∨ ∃ y type, m = .widen y type := by
    intro m hm
    rcases Expr.mem_nodes.mp hm with rfl | ⟨part, hpart, hm⟩
    · exact Or.inl ⟨path, v, n, h, hx⟩
    · rw [parts_of_resolvedFrom hx] at hpart
      obtain ⟨k, hk, hbuild⟩ := exists_of_buildsTo hx.operands hpart
      obtain ⟨items, hitems, i, w, hw, hread⟩ := (readFrom_of_read h).exists_item hk
      exact isResolved_of_read scope w hread hbuild m hm
  obtain ⟨expected, hbuild⟩ := built
  rcases resolvedFrom_of_build hbuild with hx | ⟨x, type, rfl, hx⟩
  · exact hresolved hx
  · intro m hm
    rcases Expr.mem_nodes.mp hm with rfl | ⟨part, hpart, hm⟩
    · exact Or.inr ⟨x, type, rfl⟩
    · rw [List.mem_singleton.mp hpart] at hm
      exact hresolved hx m hm
termination_by sizeOf v
decreasing_by
  subst v
  have := List.sizeOf_lt_of_mem (List.mem_of_getElem? hw)
  simp
  omega

/-- A literal is built from the literal. -/
theorem number?_of_buildsTo {scope : Scope} {n : Node} {path : Path} {x : Double}
    (h : BuildsTo scope n (.number path x)) : n.number? = some x := by
  obtain ⟨expected, hbuild⟩ := h
  rcases resolvedFrom_of_build hbuild with hfrom | ⟨_, _, heq, -⟩
  · cases hfrom
    rfl
  · cases heq

end Node

namespace Expr

/-- The number that a literal is. -/
def number? : Expr → Option Double
  | .number _ x => some x
  | _ => none

theorem number?_eq_some {e : Expr} {x : Double} (h : e.number? = some x) :
    ∃ path, e = .number path x := by
  cases e with
  | number path y =>
    cases h
    exact ⟨path, rfl⟩
  | _ => cases h

end Expr

/-- The numbers of the stops are those of the nodes that they were built from. -/
theorem Node.number?_of_laidOut {scope : Scope} {stops : List (Node × Node)}
    {built : List (Expr × Expr)}
    (h : List.Forall₂ (BuildsTo scope) (laidOut stops) (laidOut built)) {xs : List Double}
    (literals : (built.map fun s => s.1.number?) = xs.map some) :
    (stops.map fun s => s.1.number?) = xs.map some := by
  induction stops generalizing built xs with
  | nil =>
    cases built with
    | nil => exact literals
    | cons p ps => cases h
  | cons stop stops ih =>
    cases built with
    | nil => cases h
    | cons p ps =>
      cases xs with
      | nil => cases literals
      | cons x xs =>
        obtain ⟨hx, hrest⟩ := List.cons.inj literals
        obtain ⟨path, hp⟩ := Expr.number?_eq_some hx
        cases h with
        | cons hfirst h =>
          cases h with
          | cons _ h =>
            rw [hp] at hfirst
            rw [List.map_cons, List.map_cons, number?_of_buildsTo hfirst, ih h hrest]

theorem isResolved_of_buildExpr {scope : Scope} {path : Path} {raw : Value} {expected : TypeSet}
    {e : Expr} (h : buildExpr scope path raw expected = .ok e) :
    ∀ m ∈ e.nodes, Node.IsResolved scope m ∨ ∃ x type, m = .widen x type := by
  obtain ⟨n, hread, hbuild⟩ := Checked.bind_eq_ok.mp h
  exact Node.isResolved_of_read scope raw hread ⟨expected, hbuild⟩

theorem Expr.Built.isResolved {sizes : Nat → Prop} {e : Expr} (h : e.Built sizes) :
    ∃ scope, ∀ m ∈ e.nodes, Node.IsResolved scope m ∨ ∃ x type, m = .widen x type := by
  obtain ⟨b, b', path, raw, ⟨expected, hbuild⟩ | ⟨want, -, hbuild⟩⟩ := h
  · exact ⟨_, isResolved_of_buildExpr (Builder.collect_eq_some hbuild)⟩
  · obtain ⟨x, hx, htype⟩ := Checked.bind_eq_ok.mp (Builder.collect_eq_some hbuild)
    split_ifs at htype
    · cases htype
      exact ⟨_, isResolved_of_buildExpr hx⟩
    · exact absurd htype Checked.fail_ne_ok

/-- In a built expression, the stops of every interpolation are in strictly increasing order if all
of them are literals. -/
theorem Expr.Built.stops_increase {sizes : Nat → Prop} {e : Expr} (h : e.Built sizes)
    {path : Path} {exponent : Double} {input : Expr} {stops : List (Expr × Expr)}
    {spare : List Expr} {type : Ty}
    (hn : Expr.interpolate path exponent input stops spare type ∈ e.nodes)
    {xs : List Double} (literals : (stops.map fun s => s.1.number?) = xs.map some) :
    xs.Pairwise fun x y => x.toRat < y.toRat := by
  obtain ⟨scope, hresolved⟩ := h.isResolved
  have hfinite : ∀ x ∈ xs, x.isFinite = true := by
    intro x hx
    have hmem : some x ∈ stops.map fun s => s.1.number? := by
      rw [literals]
      exact List.mem_map.mpr ⟨x, hx, rfl⟩
    obtain ⟨s, hs, hnumber⟩ := List.mem_map.mp hmem
    obtain ⟨place, hliteral⟩ := number?_eq_some hnumber
    have hpart : Expr.number place x ∈ e.nodes := by
      refine withParts_nodes _ _ hn (mem_nodes.mpr (Or.inr ⟨.number place x, ?_, mem_nodes_self _⟩))
      exact List.mem_cons_of_mem _ (mem_laidOut.mpr ⟨s, hs, Or.inl hliteral.symm⟩)
    exact h.finiteLiterals _ hpart
  rcases hresolved _ hn with ⟨place, v, n, hread, hfrom⟩ | ⟨x, _, heq⟩
  · cases hfrom with
    | interpolate _ _ _ builds =>
      cases builds with
      | cons _ builds =>
        have hchain := Node.isChain_of_checkStops (Node.checkStops_of_read hread)
          (Node.number?_of_laidOut builds literals) hfinite
        exact List.pairwise_map.mp (List.isChain_iff_pairwise.mp hchain)
  · cases heq

end ShaderStyle
