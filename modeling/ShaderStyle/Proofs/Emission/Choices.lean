import ShaderStyle.Proofs.Emission.Parts
import ShaderStyle.Proofs.Emission.Spelling
import ShaderStyle.Proofs.Glsl.Valuation

/-! Emitted choices keep the order of their alternatives: the first that applies is taken. -/
namespace ShaderStyle.Expr

open Glsl (Valuation)

/-- The code of an expression in a stage, with the numbers that the table gives to texts. -/
def code (stage : Stage) (c : Categories) (e : Expr) : String := (e.term stage c).text

section ReadsBack

variable {stage : Stage} {c : Categories} {e : Expr}

/-- The code of every node reads back with the nesting of the node. -/
def ReadsBack (stage : Stage) (c : Categories) (e : Expr) : Prop :=
  ∀ n ∈ e.nodes, Glsl.parse (n.code stage c) = some (n.tree stage c)

theorem references_subset {n : Expr} (hn : n ∈ e.nodes) : n.references ⊆ e.references := by
  intro ref href
  rw [references_eq] at href ⊢
  obtain ⟨m, hm, href⟩ := List.mem_flatMap.mp href
  exact List.mem_flatMap.mpr ⟨m, withParts_nodes e n hn hm, href⟩

theorem WellTyped.readsBack {sizes : Nat → Prop} (typed : e.WellTyped sizes)
    (finite : ∀ ref ∈ e.references, ref.Finite c) : e.ReadsBack stage c := by
  intro n hn
  have hspelled : n.IsSpelled stage c :=
    (typed.of_nodes n hn).isSpelled fun ref href => finite ref (references_subset hn href)
  exact (hspelled.spells Glsl.topLevel (by decide) (by decide)).parse_eq (Nat.le_refl _)

theorem ReadsBack.node (h : e.ReadsBack stage c) {n : Expr} (hn : n ∈ e.nodes) :
    n.ReadsBack stage c := fun m hm => h m (withParts_nodes e n hn hm)

theorem ReadsBack.part (h : e.ReadsBack stage c) {x : Expr} (hx : x ∈ e.parts) :
    Glsl.parse (x.code stage c) = some (x.tree stage c) :=
  h x (mem_nodes.mpr (Or.inr ⟨x, hx, mem_nodes_self x⟩))

end ReadsBack

variable {α : Type}

/-- The code of a choice has the value of the output that comes with the first label equal to the
input, or with the first condition that holds. Where there is none, it has that of the fallback. -/
def TakesFirst [DecidableEq α] (V : Valuation α) (code : Expr → String) : Expr → Prop
  | .select path input alternatives spare fallback type =>
    V.Takes V.test alternatives.length (code (.select path input alternatives spare fallback type))
      (code (chosen (fun label => V.read (code input) = V.read (code label)) alternatives fallback))
  | .cases path alternatives fallback type =>
    V.Takes (fun x => V.holds (V.value x)) alternatives.length
      (code (.cases path alternatives fallback type))
      (code (chosen (fun condition => (V.read (code condition)).any V.holds) alternatives fallback))
  | _ => True

theorem chosen_mem_operands (applies : Expr → Bool) (alternatives : List (Expr × Expr))
    (fallback : Expr) :
    chosen applies alternatives fallback ∈ laidOut alternatives ++ [fallback] := by
  rw [List.mem_append, List.mem_singleton, mem_laidOut]
  rcases chosen_mem applies alternatives fallback with ⟨a, ha, h⟩ | h
  · exact Or.inl ⟨a, ha, Or.inr h⟩
  · exact Or.inr h

section Takes

variable {stage : Stage} {c : Categories} {V : Valuation α}

/-- Conditionals over the code of alternatives take the first alternative whose condition holds. -/
theorem takes_chosen {test : Glsl.Tree → Bool}
    (agrees : V.Lawful → ∀ x, test x = V.holds (V.value x)) {condition : Glsl.Tree → Glsl.Tree}
    {alternatives : List (Expr × Expr)} {fallback : Expr} {text : String}
    (whole : Glsl.parse text =
      some (.alternatives condition (fallback.tree stage c) (treePairs stage c alternatives)))
    (operands : ∀ x ∈ laidOut alternatives ++ [fallback],
      Glsl.parse (x.code stage c) = some (x.tree stage c))
    {applies : Expr → Bool}
    (tests : ∀ a b, (a, b) ∈ alternatives → test (condition (a.tree stage c)) = applies a) :
    V.Takes test alternatives.length text
      ((chosen applies alternatives fallback).code stage c) := by
  rw [treePairs_eq] at whole
  rw [← List.length_map fun a : Expr × Expr => (a.1.tree stage c, a.2.tree stage c)]
  apply Valuation.takes_alternatives agrees whole
  rw [operands _ (chosen_mem_operands applies alternatives fallback), chosen_map,
    chosen_congr tests]

/-- A choice whose code reads back takes the first alternative that applies. -/
theorem ReadsBack.takesFirst [DecidableEq α] {n : Expr} (h : n.ReadsBack stage c)
    (V : Valuation α) : n.TakesFirst V (code stage c) := by
  have hwhole := h n (mem_nodes_self n)
  have hpart {x : Expr} (hx : x ∈ n.parts) :
      V.read (x.code stage c) = some (V.value (x.tree stage c)) := by
    rw [Valuation.read, h.part hx, Option.map_some]
  have hfirst {alternatives : List (Expr × Expr)} (fallback : Expr) {a b : Expr}
      (ha : (a, b) ∈ alternatives) : a ∈ laidOut alternatives ++ [fallback] :=
    List.mem_append_left _ (mem_laidOut.mpr ⟨(a, b), ha, Or.inl rfl⟩)
  cases n with
  | select path input alternatives spare fallback type =>
    refine takes_chosen (fun lawful => lawful.test_eq) hwhole
      (fun x hx => h.part (List.mem_cons_of_mem _ hx)) fun a b ha => ?_
    rw [hpart List.mem_cons_self, hpart (List.mem_cons_of_mem _ (hfirst fallback ha))]
    simp [Valuation.test]
  | cases path alternatives fallback type =>
    refine takes_chosen (fun _ _ => rfl) hwhole (fun x hx => h.part hx) fun a b ha => ?_
    rw [hpart (hfirst fallback ha)]
    rfl
  | _ => trivial

end Takes

end ShaderStyle.Expr
