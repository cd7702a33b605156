import ShaderStyle.Proofs.Emission.Literals

/-! The order in which the parts of an expression are visited, and what they refer to. -/
namespace ShaderStyle

namespace Expr

mutual

/-- The nodes of an expression as they are visited, each before its parts. Operands go from left to
right. An interpolation goes on with its input and then stop by stop. A choice goes on with its
input, if it has one, and its fallback, and then from the last alternative to the first. -/
def nodes : Expr → List Expr
  | .call path op args type => .call path op args type :: nodesList args
  | .interpolate path exponent input stops spare type =>
    .interpolate path exponent input stops spare type :: (input.nodes ++ (nodesPairs stops).flatten)
  | .select path input alternatives spare fallback type =>
    .select path input alternatives spare fallback type ::
      (input.nodes ++ (fallback.nodes ++ (nodesPairs alternatives).reverse.flatten))
  | .cases path alternatives fallback type =>
    .cases path alternatives fallback type ::
      (fallback.nodes ++ (nodesPairs alternatives).reverse.flatten)
  | .widen x type => .widen x type :: x.nodes
  | e => [e]

def nodesList : List Expr → List Expr
  | [] => []
  | e :: es => e.nodes ++ nodesList es

/-- The nodes of each pair, the first of a pair before the second. -/
def nodesPairs : List (Expr × Expr) → List (List Expr)
  | [] => []
  | (a, b) :: rest => (a.nodes ++ b.nodes) :: nodesPairs rest

end

theorem nodesList_eq (es : List Expr) : nodesList es = es.flatMap nodes := by
  induction es with
  | nil => rfl
  | cons e es ih => rw [nodesList, ih, List.flatMap_cons]

theorem nodesPairs_eq (ps : List (Expr × Expr)) :
    nodesPairs ps = ps.map fun p => p.1.nodes ++ p.2.nodes := by
  induction ps with
  | nil => rfl
  | cons p ps ih => rw [nodesPairs, ih, List.map_cons]

/-- Nodes that come with all of their parts. -/
def WithParts (ns : List Expr) : Prop := ∀ n ∈ ns, n.nodes ⊆ ns

namespace WithParts

theorem node {e : Expr} {parts : List Expr} (hnodes : e.nodes = e :: parts)
    (h : WithParts parts) : WithParts e.nodes := by
  intro n hn
  rw [hnodes] at hn
  rcases List.mem_cons.mp hn with rfl | hn
  · exact List.Subset.refl _
  · rw [hnodes]
    exact List.subset_cons_of_subset _ (h n hn)

theorem nil : WithParts [] := nofun

theorem append {ns ns' : List Expr} (h : WithParts ns) (h' : WithParts ns') :
    WithParts (ns ++ ns') := by
  intro n hn
  rcases List.mem_append.mp hn with hn | hn
  · exact List.subset_append_of_subset_left _ (h n hn)
  · exact List.subset_append_of_subset_right _ (h' n hn)

theorem flatten {nss : List (List Expr)} (h : ∀ ns ∈ nss, WithParts ns) :
    WithParts nss.flatten := by
  intro n hn
  obtain ⟨ns, hns, hn⟩ := List.mem_flatten.mp hn
  exact fun m hm => List.mem_flatten.mpr ⟨ns, hns, h ns hns n hn hm⟩

theorem flatten_reverse {nss : List (List Expr)} (h : ∀ ns ∈ nss, WithParts ns) :
    WithParts nss.reverse.flatten :=
  flatten fun ns hns => h ns (List.mem_reverse.mp hns)

end WithParts

mutual

/-- The nodes of an expression come with their parts. -/
theorem withParts_nodes (e : Expr) : WithParts e.nodes := by
  cases e with
  | number | bool | text | color | array | get | var | builtin => exact .node rfl .nil
  | call path op args type => exact .node rfl (withParts_nodesList args)
  | interpolate path exponent input stops spare type =>
    exact .node rfl ((withParts_nodes input).append (.flatten (withParts_nodesPairs stops)))
  | select path input alternatives spare fallback type =>
    exact .node rfl ((withParts_nodes input).append ((withParts_nodes fallback).append
      (.flatten_reverse (withParts_nodesPairs alternatives))))
  | cases path alternatives fallback type =>
    exact .node rfl ((withParts_nodes fallback).append
      (.flatten_reverse (withParts_nodesPairs alternatives)))
  | widen x type => exact .node rfl (withParts_nodes x)

theorem withParts_nodesList (es : List Expr) : WithParts (nodesList es) := by
  match es with
  | [] => exact .nil
  | e :: es => exact (withParts_nodes e).append (withParts_nodesList es)

theorem withParts_nodesPairs (ps : List (Expr × Expr)) : ∀ ns ∈ nodesPairs ps, WithParts ns := by
  match ps with
  | [] => exact nofun
  | (a, b) :: rest =>
    rw [nodesPairs, List.forall_mem_cons]
    exact ⟨(withParts_nodes a).append (withParts_nodes b), withParts_nodesPairs rest⟩

end

theorem mem_nodes_self (e : Expr) : e ∈ e.nodes := by
  cases e <;> simp [nodes]

/-- The operands of an operator inside of an expression are nodes of the expression. -/
theorem mem_nodes_of_operand {e x : Expr} {path : Path} {op : Op} {args : List Expr} {type : Ty}
    (h : .call path op args type ∈ e.nodes) (hx : x ∈ args) : x ∈ e.nodes := by
  apply withParts_nodes e _ h
  rw [nodes, nodesList_eq]
  exact List.mem_cons_of_mem _ (List.mem_flatMap.mpr ⟨x, hx, mem_nodes_self x⟩)

/-- What a node itself refers to. -/
def ownReferences : Expr → List Reference
  | .number path x => [.number path x]
  | .text path s => [.text path s]
  | .color path c => c.premultiplied.map (.number path)
  | .array path xs => xs.map (.number path)
  | .get path name type => [.property path name type]
  | .var path name type => [.styleVariable path name type]
  | .interpolate path exponent _ _ _ _ => [.number path exponent]
  | _ => []

mutual

/-- The references of an expression are those of its nodes. -/
theorem references_eq (e : Expr) : e.references = e.nodes.flatMap ownReferences := by
  cases e with
  | number | bool | text | color | array | get | var | builtin =>
    simp [references, nodes, ownReferences]
  | call path op args type =>
    rw [references, nodes, List.flatMap_cons, referencesList_eq args]
    rfl
  | interpolate path exponent input stops spare type =>
    rw [references, nodes, List.flatMap_cons, List.flatMap_append, references_eq input,
      referencesPairs_eq stops]
    rfl
  | select path input alternatives spare fallback type =>
    rw [references, nodes, List.flatMap_cons, List.flatMap_append, List.flatMap_append,
      references_eq input, references_eq fallback, referencesAlternatives_eq alternatives]
    rfl
  | cases path alternatives fallback type =>
    rw [references, nodes, List.flatMap_cons, List.flatMap_append, references_eq fallback,
      referencesAlternatives_eq alternatives]
    rfl
  | widen x type =>
    rw [references, nodes, List.flatMap_cons, references_eq x]
    rfl

theorem referencesList_eq (es : List Expr) :
    referencesList es = (nodesList es).flatMap ownReferences := by
  cases es with
  | nil => rfl
  | cons e es =>
    rw [referencesList, nodesList, List.flatMap_append, references_eq e, referencesList_eq es]

theorem referencesPairs_eq (ps : List (Expr × Expr)) :
    referencesPairs ps = (nodesPairs ps).flatten.flatMap ownReferences := by
  match ps with
  | [] => rfl
  | (a, b) :: rest =>
    rw [referencesPairs, nodesPairs, List.flatten_cons, List.flatMap_append, List.flatMap_append,
      references_eq a, references_eq b, referencesPairs_eq rest, List.append_assoc]

theorem referencesAlternatives_eq (ps : List (Expr × Expr)) :
    referencesAlternatives ps = (nodesPairs ps).reverse.flatten.flatMap ownReferences := by
  match ps with
  | [] => rfl
  | (a, b) :: rest =>
    rw [referencesAlternatives, nodesPairs, List.reverse_cons, List.flatten_append,
      List.flatten_singleton, List.flatMap_append, List.flatMap_append, references_eq a,
      references_eq b, referencesAlternatives_eq rest]

end

/-- The property that a node reads, with the type it is read at. -/
def property? : Expr → Option (String × Ty)
  | .get _ name type => some (name, type)
  | _ => none

def styleVariable? : Expr → Option (String × Ty)
  | .var _ name type => some (name, type)
  | _ => none

def text? : Expr → Option String
  | .text _ s => some s
  | _ => none

/-- The properties that an expression reads, in the order of its nodes. -/
def properties (e : Expr) : List (String × Ty) := e.nodes.filterMap property?

def styleVariables (e : Expr) : List (String × Ty) := e.nodes.filterMap styleVariable?

def texts (e : Expr) : List String := e.nodes.filterMap text?

/-- The numbers that a node writes into the code. -/
def ownNumbers : Expr → List Double
  | .number _ x => [x]
  | .color _ c => c.premultiplied
  | .array _ xs => xs
  | .interpolate _ exponent _ _ _ _ => [exponent]
  | _ => []

def numbers (e : Expr) : List Double := e.nodes.flatMap ownNumbers

end Expr

namespace Reference

/-- The property that a reference registers. -/
def properties : Reference → List (String × Ty)
  | .property _ name type => [(name, type)]
  | _ => []

def styleVariables : Reference → List (String × Ty)
  | .styleVariable _ name type => [(name, type)]
  | _ => []

def numbers : Reference → List Double
  | .number _ x => [x]
  | _ => []

end Reference

namespace Expr

/-- What the references of an expression tell is what its nodes tell. -/
theorem flatMap_references {α : Type} {f : Reference → List α} {g : Expr → Option α}
    (own : ∀ e, (ownReferences e).flatMap f = (g e).toList) (e : Expr) :
    e.references.flatMap f = e.nodes.filterMap g := by
  rw [references_eq, List.flatMap_assoc, List.filterMap_eq_flatMap_toList]
  simp only [own]

theorem flatMap_numbers {α : Type} {f : Reference → List α} {path : Path} {xs : List Double}
    (none : ∀ x, f (.number path x) = []) : (xs.map (.number path)).flatMap f = [] := by
  simp [List.flatMap_map, none]

theorem properties_eq (e : Expr) : e.properties = e.references.flatMap Reference.properties := by
  refine (flatMap_references (fun e => ?_) e).symm
  cases e with
  | color | array => exact flatMap_numbers fun _ => rfl
  | _ => rfl

theorem styleVariables_eq (e : Expr) :
    e.styleVariables = e.references.flatMap Reference.styleVariables := by
  refine (flatMap_references (fun e => ?_) e).symm
  cases e with
  | color | array => exact flatMap_numbers fun _ => rfl
  | _ => rfl

theorem texts_eq (e : Expr) : e.texts = e.literals := by
  refine (flatMap_references (fun e => ?_) e).symm
  cases e with
  | color | array => exact flatMap_numbers fun _ => rfl
  | _ => rfl

theorem numbers_eq (e : Expr) : e.numbers = e.references.flatMap Reference.numbers := by
  have hown (n : Expr) : (ownReferences n).flatMap Reference.numbers = ownNumbers n := by
    cases n with
    | color | array => simp [ownReferences, ownNumbers, List.flatMap_map, Reference.numbers]
    | _ => rfl
  rw [references_eq, List.flatMap_assoc, numbers]
  simp only [hown]

end Expr

end ShaderStyle
