import ShaderStyle.Proofs.Emission.Term
import ShaderStyle.Proofs.Emission.Traversal

/-! The code of an expression in the two stages: it is the same but for the reads of properties, and
the properties that are read are those of the expression. -/
namespace ShaderStyle

open Glsl (Term Reading)

/-- Code that is made with reads of properties. Two ways of reading make the same code exactly where
they read these properties alike. -/
def DependsOn {α : Type} (code : Reading → α) (reads : String × Ty → Prop) : Prop :=
  ∀ read read' : Reading,
    code read = code read' ↔ ∀ p, reads p → read p.1 p.2 = read' p.1 p.2

namespace DependsOn

variable {α β : Type} {code : Reading → α} {reads reads' reads'' : String × Ty → Prop}
  {t t' t'' : Reading → Term}

theorem congr (h : DependsOn code reads) (same : ∀ p, reads p ↔ reads' p) :
    DependsOn code reads' := fun read read' => by
  rw [h read read']
  exact forall_congr' fun p => imp_congr_left (same p)

theorem shared (a : α) : DependsOn (fun _ => a) fun _ => False := fun read read' => by simp

theorem read (name : String) (type : Ty) :
    DependsOn (fun read => read name type) (· = (name, type)) := fun read read' => by simp

/-- What is built around code keeps it apart. -/
theorem map {f : α → β} (h : DependsOn code reads) (injective : Function.Injective f) :
    DependsOn (fun read => f (code read)) reads := fun read read' =>
  injective.eq_iff.trans (h read read')

theorem paren (h : DependsOn t reads) : DependsOn (fun read => Term.paren (t read)) reads :=
  h.map (f := Term.paren) fun _ _ => Term.paren.inj

theorem not (h : DependsOn t reads) : DependsOn (fun read => Term.not (t read)) reads :=
  h.map (f := Term.not) fun _ _ => Term.not.inj

theorem choose (h : DependsOn t reads) (h' : DependsOn t' reads') (h'' : DependsOn t'' reads'') :
    DependsOn (fun read => Term.choose (t read) (t' read) (t'' read))
      fun p => reads p ∨ reads' p ∨ reads'' p := fun read read' => by
  dsimp only
  rw [Term.choose.injEq, h read read', h' read read', h'' read read']
  simp only [or_imp, forall_and]

theorem list {codes : List (Reading → α)} {parts : List (String × Ty → Prop)}
    (h : List.Forall₂ DependsOn codes parts) :
    DependsOn (fun read => codes.map (· read)) fun p => ∃ part ∈ parts, part p :=
  fun read read' => by
    induction h with
    | nil => simp
    | @cons code part codes parts hcode hrest ih =>
      dsimp only at ih ⊢
      rw [List.map_cons, List.map_cons, List.cons.injEq, hcode read read', ih]
      simp only [List.exists_mem_cons_iff, or_imp, forall_and]

theorem call (function : String) {args : List (Reading → Term)}
    {parts : List (String × Ty → Prop)} (h : List.Forall₂ DependsOn args parts) :
    DependsOn (fun read => Term.call function (args.map (· read)))
      fun p => ∃ part ∈ parts, part p :=
  (list h).map (f := Term.call function) fun _ _ heq => (Term.call.inj heq).2

theorem chain (op : Glsl.BinaryOp) {operands : List (Reading → Term)}
    {parts : List (String × Ty → Prop)} (h : List.Forall₂ DependsOn operands parts) :
    DependsOn (fun read => Term.chain op (operands.map (· read)))
      fun p => ∃ part ∈ parts, part p :=
  (list h).map (f := Term.chain op) fun _ _ heq => (Term.chain.inj heq).2

theorem group (op : Glsl.BinaryOp) {operands : List (Reading → Term)}
    {parts : List (String × Ty → Prop)} (h : List.Forall₂ DependsOn operands parts) :
    DependsOn (fun read => Glsl.group op (operands.map (· read)))
      fun p => ∃ part ∈ parts, part p :=
  (chain op h).paren

end DependsOn

namespace Expr

section Properties

variable (path : Path) (type : Ty)

theorem properties_call (op : Op) (args : List Expr) :
    (Expr.call path op args type).properties = args.flatMap properties := by
  rw [properties, nodes, nodesList_eq, List.filterMap_cons_none rfl, List.filterMap_flatMap]
  rfl

theorem filterMap_nodesPairs (ps : List (Expr × Expr)) :
    (nodesPairs ps).flatten.filterMap property? =
      ps.flatMap fun q => q.1.properties ++ q.2.properties := by
  simp only [nodesPairs_eq, ← List.flatMap_def, List.filterMap_flatMap, List.filterMap_append]
  rfl

theorem properties_interpolate (exponent : Double) (input : Expr) (stops : List (Expr × Expr))
    (spare : List Expr) :
    (Expr.interpolate path exponent input stops spare type).properties =
      input.properties ++ stops.flatMap fun q => q.1.properties ++ q.2.properties := by
  rw [properties, nodes, List.filterMap_cons_none rfl, List.filterMap_append,
    filterMap_nodesPairs]
  rfl

theorem filterMap_reverse_nodesPairs (ps : List (Expr × Expr)) :
    (nodesPairs ps).reverse.flatten.filterMap property? =
      ps.reverse.flatMap fun q => q.1.properties ++ q.2.properties := by
  simp only [nodesPairs_eq, ← List.map_reverse, ← List.flatMap_def, List.filterMap_flatMap,
    List.filterMap_append]
  rfl

theorem properties_select (input fallback : Expr) (alternatives : List (Expr × Expr))
    (spare : List Expr) :
    (Expr.select path input alternatives spare fallback type).properties =
      input.properties ++ (fallback.properties ++
        alternatives.reverse.flatMap fun q => q.1.properties ++ q.2.properties) := by
  rw [properties, nodes, List.filterMap_cons_none rfl, List.filterMap_append,
    List.filterMap_append, filterMap_reverse_nodesPairs]
  rfl

theorem properties_cases (fallback : Expr) (alternatives : List (Expr × Expr)) :
    (Expr.cases path alternatives fallback type).properties =
      fallback.properties ++
        alternatives.reverse.flatMap fun q => q.1.properties ++ q.2.properties := by
  rw [properties, nodes, List.filterMap_cons_none rfl, List.filterMap_append,
    filterMap_reverse_nodesPairs]
  rfl

end Properties

section Terms

variable {c : Categories}

/-- The code of an expression depends on the reads of its properties. -/
def DependsOnReads (c : Categories) (e : Expr) : Prop :=
  DependsOn (fun read => e.termWith read c) (· ∈ e.properties)

theorem forall₂_dependsOn {args : List Expr} (h : ∀ e ∈ args, e.DependsOnReads c) :
    List.Forall₂ DependsOn (args.map fun e read => e.termWith read c)
      (args.map fun e => (· ∈ e.properties)) := by
  rw [List.forall₂_map_left_iff, List.forall₂_map_right_iff, List.forall₂_same]
  exact h

theorem dependsOn_rgb {rgb : List (Reading → Term)} {parts : List (String × Ty → Prop)}
    (h : List.Forall₂ DependsOn rgb parts) :
    DependsOn (fun read => Term.call "vec4" [.chain .div [.call "vec3" (rgb.map (· read)),
      .number (.finite 255)], Glsl.oneTerm]) fun p => ∃ part ∈ parts, part p := by
  have hscaled := DependsOn.chain .div
    (.cons (DependsOn.call "vec3" h) (.cons (.shared (.number (.finite 255))) .nil))
  exact (DependsOn.call "vec4" (.cons hscaled (.cons (.shared Glsl.oneTerm) .nil))).congr (by simp)

/-- The code of an accepted call. -/
theorem dependsOn_call {op : Op} {args : List Expr} {type : Ty}
    (accepts : op.Accepts (args.map Expr.type) type) (h : ∀ e ∈ args, e.DependsOnReads c) :
    ∃ t : Reading → Term, (∀ read, Glsl.callTerm op (args.map (termWith read c)) = .ok (t read)) ∧
      DependsOn t fun p => ∃ e ∈ args, p ∈ e.properties := by
  have hform := accepts.form
  rw [List.length_map] at hform
  have hall := forall₂_dependsOn h
  have hreads (p : String × Ty) : (∃ part ∈ args.map fun e => (· ∈ e.properties), part p) ↔
      ∃ e ∈ args, p ∈ e.properties := by simp
  have hterms (read : Reading) : (args.map fun e read => e.termWith read c).map (· read) =
      args.map (termWith read c) := by simp
  generalize hn : args.length = n at hform
  cases hform with
  | @chain op b n joined _ exact_two =>
    refine ⟨fun read => Glsl.group b (args.map (termWith read c)), fun read => ?_, ?_⟩
    · exact Glsl.callTerm_chain joined (by simpa [hn] using exact_two)
    · have hgroup := (DependsOn.group b hall).congr hreads
      simpa only [hterms] using hgroup
  | @function op f n called admitted =>
    refine ⟨fun read => .call f (args.map (termWith read c)), fun read => ?_, ?_⟩
    · exact Glsl.callTerm_function called (by simpa [hn] using admitted)
    · have hcall := (DependsOn.call f hall).congr hreads
      simpa only [hterms] using hcall
  | round =>
    obtain ⟨x, rfl⟩ := List.length_eq_one_iff.mp hn
    have hx := h x (by simp)
    refine ⟨_, fun read => rfl, ?_⟩
    have hsum := DependsOn.chain .add
      (.cons hx (.cons (.shared (.number (.finite (1 / 2)))) .nil))
    exact (DependsOn.call "floor" (.cons hsum .nil)).congr (by simp)
  | not =>
    obtain ⟨x, rfl⟩ := List.length_eq_one_iff.mp hn
    refine ⟨_, fun read => rfl, (h x (by simp)).not.paren.congr (by simp)⟩
  | between =>
    obtain ⟨x, low, high, rfl⟩ := List.length_eq_three.mp hn
    have hx := h x (by simp)
    have hlow := DependsOn.chain .greaterEq (.cons hx (.cons (h low (by simp)) .nil))
    have hhigh := DependsOn.chain .lessEq (.cons hx (.cons (h high (by simp)) .nil))
    refine ⟨_, fun read => rfl, (DependsOn.group .and (.cons hlow (.cons hhigh .nil))).congr ?_⟩
    intro p
    simp only [List.mem_cons, List.not_mem_nil, or_false, exists_eq_or_imp, exists_eq_left]
    tauto
  | array sized =>
    refine ⟨fun read => .vector (args.map (termWith read c)), fun read => rfl, ?_⟩
    have hcall := (DependsOn.call ("vec" ++ toString args.length) hall).congr hreads
    simpa only [hterms, Term.vector, List.length_map] using hcall
  | rgb =>
    obtain ⟨r, g, b, rfl⟩ := List.length_eq_three.mp hn
    exact ⟨_, fun read => rfl, (dependsOn_rgb hall).congr hreads⟩
  | rgba =>
    obtain ⟨r, g, b, a, rfl⟩ := List.length_eq_four.mp hn
    have hrgb := dependsOn_rgb (forall₂_dependsOn fun e (he : e ∈ [r, g, b]) => h e (by grind))
    refine ⟨_, fun read => rfl, ?_⟩
    have hscaled := DependsOn.group .mul (.cons hrgb (.cons (h a (by simp)) .nil))
    exact hscaled.congr (by simp [or_assoc])

theorem dependsOn_mix {input below start stop output : Reading → Term} (exponent : Term)
    {i b s p o : String × Ty → Prop} (hi : DependsOn input i) (hb : DependsOn below b)
    (hs : DependsOn start s) (hp : DependsOn stop p) (ho : DependsOn output o) :
    DependsOn (fun read => Glsl.mixTerm (input read) exponent (below read) (start read)
      (stop read) (output read)) fun q => b q ∨ o q ∨ i q ∨ s q ∨ p q := by
  have hrise := DependsOn.group .sub (.cons hi (.cons hs .nil))
  have hspan := DependsOn.group .sub (.cons hp (.cons hs .nil))
  have hposition := DependsOn.chain .div (.cons hrise (.cons hspan .nil))
  have hclamp := DependsOn.call "clamp"
    (.cons hposition (.cons (.shared Glsl.zeroTerm) (.cons (.shared Glsl.oneTerm) .nil)))
  have hpow := DependsOn.call "pow" (.cons hclamp (.cons (.shared exponent) .nil))
  refine (DependsOn.call "mix" (.cons hb (.cons ho (.cons hpow .nil)))).congr fun q => ?_
  simp only [List.mem_cons, List.not_mem_nil, or_false, exists_eq_or_imp, exists_eq_left]
  tauto

/-- The input and the first stop are read where there is a step. -/
theorem dependsOn_mixes {input below start : Reading → Term} (exponent : Term)
    {i b s : String × Ty → Prop} {rest : List (Expr × Expr)} (hi : DependsOn input i)
    (hb : DependsOn below b) (hs : DependsOn start s)
    (hstops : ∀ q ∈ rest, q.1.DependsOnReads c) (houtputs : ∀ q ∈ rest, q.2.DependsOnReads c) :
    DependsOn (fun read => Glsl.mixChain (input read) exponent (below read) (start read)
        (rest.map fun q => (q.1.termWith read c, q.2.termWith read c)))
      fun p => b p ∨ (rest ≠ [] ∧ (i p ∨ s p)) ∨
        ∃ q ∈ rest, p ∈ q.1.properties ∨ p ∈ q.2.properties := by
  induction rest generalizing below start b s with
  | nil => exact hb.congr (by simp)
  | cons q rest ih =>
    have hstop := hstops q (by simp)
    have hmix := dependsOn_mix exponent hi hb hs hstop (houtputs q (by simp))
    have hrest := ih hmix hstop (fun r hr => hstops r (by simp [hr]))
      fun r hr => houtputs r (by simp [hr])
    refine hrest.congr fun p => ?_
    simp only [List.mem_cons, exists_eq_or_imp, ne_eq, reduceCtorEq, not_false_eq_true, true_and]
    generalize (∃ r ∈ rest, p ∈ r.1.properties ∨ p ∈ r.2.properties) = later
    tauto

theorem dependsOn_alternatives {condition : Reading → Term → Term} {fallback : Reading → Term}
    {f : String × Ty → Prop} {test : Expr × Expr → String × Ty → Prop}
    {alternatives : List (Expr × Expr)} (hf : DependsOn fallback f)
    (htests : ∀ q ∈ alternatives,
      DependsOn (fun read => condition read (q.1.termWith read c)) (test q))
    (houtputs : ∀ q ∈ alternatives, q.2.DependsOnReads c) :
    DependsOn (fun read => alternativesTerm (condition read) (fallback read)
        (alternatives.map fun q => (q.1.termWith read c, q.2.termWith read c)))
      fun p => f p ∨ ∃ q ∈ alternatives, test q p ∨ p ∈ q.2.properties := by
  induction alternatives with
  | nil => exact hf.congr (by simp)
  | cons q rest ih =>
    have hrest := ih (fun r hr => htests r (by simp [hr])) fun r hr => houtputs r (by simp [hr])
    refine ((htests q (by simp)).choose (houtputs q (by simp)) hrest).paren.congr fun p => ?_
    simp only [List.mem_cons, exists_eq_or_imp]
    generalize (∃ r ∈ rest, test r p ∨ p ∈ r.2.properties) = later
    tauto

/-- The code of a well-typed expression has the reads of its properties, and of no others. -/
theorem WellTyped.dependsOnReads {sizes : Nat → Prop} {e : Expr} (h : e.WellTyped sizes)
    (c : Categories) : e.DependsOnReads c := by
  have hshared {e : Expr} {t : Term} (hproperties : e.properties = [])
      (hterm : ∀ read, e.termWith read c = t) : e.DependsOnReads c := by
    simp only [DependsOnReads, hterm, hproperties]
    exact (DependsOn.shared t).congr (by simp)
  induction h with
  | number | bool | text | color | array | var | builtin => exact hshared rfl fun _ => rfl
  | @get path name type =>
    exact (DependsOn.read name type).congr (by simp [properties, nodes, property?])
  | @call path op args type sized accepts operands ih =>
    obtain ⟨t, ht, hdepends⟩ := dependsOn_call accepts ih
    simp only [DependsOnReads, termWith, termsWith_eq, ht, properties_call]
    exact hdepends.congr (by simp)
  | @interpolate path exponent input stops type sized count _ _ _ _ _ _ _ ihi ihs iho =>
    simp only [DependsOnReads, termWith, termPairsWith_eq, properties_interpolate]
    obtain ⟨p, q, rest, rfl⟩ : ∃ p q rest, stops = p :: q :: rest := by
      rcases stops with _ | ⟨p, _ | ⟨q, rest⟩⟩
      · simp at count
      · simp at count
      · exact ⟨p, q, rest, rfl⟩
    have hinputs : ∀ r ∈ q :: rest, r.1.DependsOnReads c := fun r hr =>
      ihs r (List.mem_cons_of_mem _ hr)
    have hmixes := dependsOn_mixes (.number exponent) ihi (iho p (by simp)) (ihs p (by simp))
      hinputs fun r hr => iho r (List.mem_cons_of_mem _ hr)
    refine hmixes.congr fun r => ?_
    simp only [List.mem_cons, exists_eq_or_imp, ne_eq, reduceCtorEq, not_false_eq_true, true_and,
      List.mem_append, List.mem_flatMap]
    generalize (∃ s ∈ rest, r ∈ s.1.properties ∨ r ∈ s.2.properties) = later
    ac_nf
  | @select path input fallback alternatives type label sized count _ _ _ _ _ _ _ _ _
      ihi ihl iho ihf =>
    simp only [DependsOnReads, termWith, termPairsWith_eq, properties_select]
    have htests (q : Expr × Expr) (hq : q ∈ alternatives) :=
      DependsOn.chain .equal (.cons ihi (.cons (ihl q hq) .nil))
    refine (dependsOn_alternatives ihf htests iho).congr fun p => ?_
    simp only [List.exists_mem_cons_iff, List.not_mem_nil, false_and, exists_false, or_false,
      List.mem_append, List.mem_flatMap, List.mem_reverse]
    constructor
    · rintro (hp | ⟨q, hq, (hp | hp) | hp⟩)
      · exact Or.inr (Or.inl hp)
      · exact Or.inl hp
      · exact Or.inr (Or.inr ⟨q, hq, Or.inl hp⟩)
      · exact Or.inr (Or.inr ⟨q, hq, Or.inr hp⟩)
    · rintro (hp | hp | ⟨q, hq, hp | hp⟩)
      -- There is an alternative, which compares with the input.
      · obtain ⟨q, hq⟩ := List.exists_mem_of_ne_nil _ count
        exact Or.inr ⟨q, hq, Or.inl (Or.inl hp)⟩
      · exact Or.inl hp
      · exact Or.inr ⟨q, hq, Or.inl (Or.inr hp)⟩
      · exact Or.inr ⟨q, hq, Or.inr hp⟩
  | @cases path fallback alternatives type sized count _ _ _ _ _ _ ihc iho ihf =>
    simp only [DependsOnReads, termWith, termPairsWith_eq, properties_cases]
    refine (dependsOn_alternatives ihf ihc iho).congr ?_
    simp
  | @widen x type sized number vector typed ih =>
    exact (DependsOn.call _ (.cons ih .nil)).congr (by simp [properties, nodes, property?])

end Terms

end Expr

end ShaderStyle
