import ShaderStyle.Proofs.Emission.Traversal
import ShaderStyle.Proofs.Typing.Assembly

/-! The nodes of an expression, from one level to the next. -/
namespace ShaderStyle.Expr

/-- The expressions that a node visits next: its operands, or what it widens. -/
def parts : Expr → List Expr
  | .widen x _ => [x]
  | e => e.operands

theorem mem_nodesPairs {ps : List (Expr × Expr)} {n : Expr} :
    (∃ ns ∈ nodesPairs ps, n ∈ ns) ↔ ∃ x ∈ laidOut ps, n ∈ x.nodes := by
  induction ps with
  | nil => simp [nodesPairs]
  | cons p ps ih => simp [nodesPairs, ih, or_assoc]

/-- The nodes of an expression are the expression itself and the nodes of its parts. -/
theorem mem_nodes {e n : Expr} : n ∈ e.nodes ↔ n = e ∨ ∃ x ∈ e.parts, n ∈ x.nodes := by
  cases e with
  | call path op args type => simp [nodes, parts, operands, nodesList_eq]
  | interpolate path exponent input stops spare type =>
    simp [nodes, parts, operands, mem_nodesPairs]
  | select path input alternatives spare fallback type =>
    simp [nodes, parts, operands, mem_nodesPairs, or_comm]
  | cases path alternatives fallback type =>
    simp [nodes, parts, operands, mem_nodesPairs, or_comm]
  | widen x type => simp [nodes, parts]
  | _ => simp [nodes, parts, operands]

theorem sizeOf_lt_of_mem_laidOut {ps : List (Expr × Expr)} {x : Expr} (h : x ∈ laidOut ps) :
    sizeOf x < sizeOf ps := by
  obtain ⟨⟨a, b⟩, hp, hx⟩ := mem_laidOut.mp h
  have hlt := List.sizeOf_lt_of_mem hp
  rw [Prod.mk.sizeOf_spec] at hlt
  rcases hx with rfl | rfl
  · omega
  · omega

theorem sizeOf_lt_of_mem_parts {e x : Expr} (h : x ∈ e.parts) : sizeOf x < sizeOf e := by
  cases e with
  | call path op args type =>
    have hlt := List.sizeOf_lt_of_mem (show x ∈ args from h)
    rw [call.sizeOf_spec]
    omega
  | interpolate path exponent input stops spare type =>
    rw [interpolate.sizeOf_spec]
    rcases List.mem_cons.mp h with rfl | h
    · omega
    · have hlt := sizeOf_lt_of_mem_laidOut h
      omega
  | select path input alternatives spare fallback type =>
    rw [select.sizeOf_spec]
    rcases List.mem_cons.mp h with rfl | h
    · omega
    · rcases List.mem_append.mp h with h | h
      · have hlt := sizeOf_lt_of_mem_laidOut h
        omega
      · rw [List.mem_singleton.mp h]
        omega
  | cases path alternatives fallback type =>
    rw [cases.sizeOf_spec]
    rcases List.mem_append.mp h with h | h
    · have hlt := sizeOf_lt_of_mem_laidOut h
      omega
    · rw [List.mem_singleton.mp h]
      omega
  | widen y type =>
    rw [List.mem_singleton.mp h, widen.sizeOf_spec]
    omega
  | _ => cases h

/-- What holds of an expression and passes to parts holds at every node. -/
theorem forall_nodes {P : Expr → Prop} (parts : ∀ e, P e → ∀ x ∈ e.parts, P x) {e : Expr}
    (h : P e) : ∀ n ∈ e.nodes, P n := by
  intro n hn
  rcases mem_nodes.mp hn with rfl | ⟨x, hx, hn⟩
  · exact h
  · exact forall_nodes parts (parts e h x hx) n hn
termination_by sizeOf e
decreasing_by exact sizeOf_lt_of_mem_parts hx

/-- The parts of a well-typed expression are well typed. -/
theorem WellTyped.of_parts {sizes : Nat → Prop} {e : Expr} (h : e.WellTyped sizes) :
    ∀ x ∈ e.parts, x.WellTyped sizes := by
  cases h with
  | call _ _ _ operands => exact operands
  | interpolate _ _ _ _ _ _ _ _ input stops outputs =>
    refine List.forall_mem_cons.mpr ⟨input, fun x hx => ?_⟩
    obtain ⟨s, hs, rfl | rfl⟩ := mem_laidOut.mp hx
    · exact stops s hs
    · exact outputs s hs
  | select _ _ _ _ _ _ _ _ input labels outputs fallback =>
    refine List.forall_mem_cons.mpr ⟨input, fun x hx => ?_⟩
    rcases List.mem_append.mp hx with hx | hx
    · obtain ⟨a, ha, rfl | rfl⟩ := mem_laidOut.mp hx
      · exact labels a ha
      · exact outputs a ha
    · rw [List.mem_singleton.mp hx]
      exact fallback
  | cases _ _ _ _ _ _ conditions outputs fallback =>
    intro x hx
    rcases List.mem_append.mp hx with hx | hx
    · obtain ⟨a, ha, rfl | rfl⟩ := mem_laidOut.mp hx
      · exact conditions a ha
      · exact outputs a ha
    · rw [List.mem_singleton.mp hx]
      exact fallback
  | widen _ _ _ typed =>
    intro x hx
    rw [List.mem_singleton.mp hx]
    exact typed
  | _ => exact nofun

theorem WellTyped.of_nodes {sizes : Nat → Prop} {e : Expr} (h : e.WellTyped sizes) :
    ∀ n ∈ e.nodes, n.WellTyped sizes := forall_nodes (fun _ typed => typed.of_parts) h

end ShaderStyle.Expr
