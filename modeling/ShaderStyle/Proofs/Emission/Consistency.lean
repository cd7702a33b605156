import ShaderStyle.Proofs.Double.Integer
import ShaderStyle.Proofs.Emission.Leaves
import ShaderStyle.Proofs.Emission.Sequence

/-! Which expressions can be emitted together. Neither their order nor the stages matter. -/
namespace ShaderStyle

/-- Expressions that can be emitted into one registry: their references go together, and so do
their numbers with the notation of shaders. -/
structure Consistent (es : List Expr) : Prop where
  properties : Coherent (es.flatMap Expr.properties)
  styleVariables : Coherent (es.flatMap Expr.styleVariables)
  exponents {path : Path} {exponent : Double} {input : Expr} {stops : List (Expr × Expr)}
    {spare : List Expr} {type : Ty}
    (node : .interpolate path exponent input stops spare type ∈ es.flatMap Expr.nodes) :
    exponent.isFinite = true
  colors {path : Path} {c : Rgba} (node : .color path c ∈ es.flatMap Expr.nodes) :
    ∀ x ∈ c.premultiplied, x.isFinite = true

/-- All the expressions are emitted into a fresh registry, in their order. -/
def Succeeds (calls : List (Stage × Expr)) : Prop :=
  ∃ ts r, (emitAll calls).run.run {} = (.ok ts, r)

theorem succeeds_iff_admissible {sizes : Nat → Prop} {calls : List (Stage × Expr)}
    (typed : ∀ call ∈ calls, call.2.WellTyped sizes) :
    Succeeds calls ↔ (Requests.ofCalls calls).Admissible := by
  have hfresh : Registry.Records [] [] {} := Registry.records_fresh fun _ => List.not_mem_nil
  have hends := hfresh.emitAll typed
  rw [List.nil_append] at hends
  rcases hrun : (emitAll calls).run.run {} with ⟨outcome, r⟩
  rw [Registry.Ends, hrun] at hends
  cases outcome with
  | ok ts =>
    constructor
    · intro _
      exact hends.admissible
    · intro _
      exact ⟨ts, r, hrun⟩
  | error i =>
    constructor
    · rintro ⟨ts, r', hok⟩
      rw [hrun] at hok
      cases hok
    · intro hadmissible
      exact absurd hadmissible hends

section

variable {es es' : List Expr}

/-- Of the numbers in the code of expressions with finite literals, those of interpolations and
colors are left to check. -/
theorem Consistent.numbers_finite (h : Consistent es) (literals : ∀ e ∈ es, e.FiniteLiterals) :
    ∀ x ∈ es.flatMap Expr.numbers, x.isFinite = true := by
  intro x hx
  obtain ⟨e, he, hx⟩ := List.mem_flatMap.mp hx
  obtain ⟨n, hn, hx⟩ := List.mem_flatMap.mp hx
  have hliteral := literals e he n hn
  have hnode : n ∈ es.flatMap Expr.nodes := List.mem_flatMap.mpr ⟨e, he, hn⟩
  cases n with
  | number path y =>
    rw [List.mem_singleton.mp hx]
    exact hliteral
  | array path ys => exact hliteral x hx
  | color path c => exact h.colors hnode x hx
  | interpolate path exponent input stops spare type =>
    rw [List.mem_singleton.mp hx]
    exact h.exponents hnode
  | _ => cases hx

theorem consistent_of_finite (properties : Coherent (es.flatMap Expr.properties))
    (styleVariables : Coherent (es.flatMap Expr.styleVariables))
    (finite : ∀ x ∈ es.flatMap Expr.numbers, x.isFinite = true) : Consistent es := by
  have hown {n : Expr} (hn : n ∈ es.flatMap Expr.nodes) {x : Double} (hx : x ∈ n.ownNumbers) :
      x.isFinite = true := by
    obtain ⟨e, he, hn⟩ := List.mem_flatMap.mp hn
    exact finite x (List.mem_flatMap.mpr ⟨e, he, List.mem_flatMap.mpr ⟨n, hn, hx⟩⟩)
  exact {
    properties
    styleVariables
    exponents := fun node => hown node (List.mem_singleton.mpr rfl)
    colors := fun node x hx => hown node hx }

end

section

variable {calls calls' : List (Stage × Expr)}

theorem admissible_iff_consistent
    (literals : ∀ call ∈ calls, call.2.FiniteLiterals)
    (counted : (calls.flatMap (·.2.texts)).eraseDups.length ≤ 2 ^ 1023) :
    (Requests.ofCalls calls).Admissible ↔ Consistent (calls.map Prod.snd) := by
  have hproperties : (calls.map Prod.snd).flatMap Expr.properties =
      (Requests.ofCalls calls).properties := by
    rw [Requests.properties_ofCalls, List.flatMap_map]
  have hvariables : (calls.map Prod.snd).flatMap Expr.styleVariables =
      (Requests.ofCalls calls).styleVariables := by
    rw [Requests.styleVariables_ofCalls, List.flatMap_map]
  have hnumbers : (calls.map Prod.snd).flatMap Expr.numbers =
      (Requests.ofCalls calls).numbers := by
    rw [Requests.numbers_ofCalls, List.flatMap_map]
  constructor
  · intro h
    refine consistent_of_finite ?_ ?_ ?_
    · rw [hproperties]
      exact h.properties
    · rw [hvariables]
      exact h.styleVariables
    · rw [hnumbers]
      exact h.numbers
  · intro h
    have hliterals : ∀ e ∈ calls.map Prod.snd, e.FiniteLiterals := by
      intro e he
      obtain ⟨call, hcall, rfl⟩ := List.mem_map.mp he
      exact literals call hcall
    refine ⟨?_, ?_, ?_, fun i hi => ?_⟩
    · rw [← hproperties]
      exact h.properties
    · rw [← hvariables]
      exact h.styleVariables
    · rw [← hnumbers]
      exact h.numbers_finite hliterals
    · rw [Requests.texts_ofCalls] at hi
      exact Double.isFinite_ofInt (Nat.lt_of_lt_of_le hi counted)

/-- Only the expressions matter to what emissions ask for, not how often, in which order and for
which stages they are emitted. -/
theorem admissible_of_exprs (same : calls'.map Prod.snd ⊆ calls.map Prod.snd)
    (h : (Requests.ofCalls calls).Admissible) : (Requests.ofCalls calls').Admissible := by
  have hsubset {α : Type} (f : Expr → List α) :
      calls'.flatMap (fun call => f call.2) ⊆ calls.flatMap fun call => f call.2 := by
    rw [← List.flatMap_map Prod.snd f calls', ← List.flatMap_map Prod.snd f calls]
    intro x hx
    obtain ⟨e, he, hx⟩ := List.mem_flatMap.mp hx
    exact List.mem_flatMap.mpr ⟨e, same he, hx⟩
  refine h.mono ?_ ?_ ?_ ?_
  · rw [Requests.properties_ofCalls, Requests.properties_ofCalls]
    exact hsubset Expr.properties
  · rw [Requests.styleVariables_ofCalls, Requests.styleVariables_ofCalls]
    exact hsubset Expr.styleVariables
  · rw [Requests.numbers_ofCalls, Requests.numbers_ofCalls]
    exact hsubset Expr.numbers
  · rw [Requests.texts_ofCalls, Requests.texts_ofCalls]
    exact hsubset Expr.texts

theorem admissible_of_perm (same : (calls'.map Prod.snd).Perm (calls.map Prod.snd))
    (h : (Requests.ofCalls calls).Admissible) : (Requests.ofCalls calls').Admissible :=
  admissible_of_exprs same.subset h

/-- Built expressions can be emitted one after the other exactly where they are consistent, for as
many texts as can be counted. So whether they can does not depend on the order and the stages. -/
theorem succeeds_iff_consistent (built : ∀ call ∈ calls, call.2.Built fun _ => True) :
    ((calls.flatMap (·.2.texts)).eraseDups.length ≤ 2 ^ 1023 →
      (Succeeds calls ↔ Consistent (calls.map Prod.snd))) ∧
    ∀ calls', (calls'.map Prod.snd).Perm (calls.map Prod.snd) →
      (Succeeds calls' ↔ Succeeds calls) := by
  have hiff := succeeds_iff_admissible fun call hcall => (built call hcall).wellTyped
  refine ⟨fun counted => ?_, fun calls' same => ?_⟩
  · rw [hiff]
    exact admissible_iff_consistent (fun call hcall => (built call hcall).finiteLiterals) counted
  · have hbuilt : ∀ call ∈ calls', call.2.Built fun _ => True := by
      intro call hcall
      obtain ⟨other, hother, heq⟩ := List.mem_map.mp (same.subset (List.mem_map_of_mem hcall))
      rw [← heq]
      exact built other hother
    rw [hiff, succeeds_iff_admissible fun call hcall => (hbuilt call hcall).wellTyped]
    exact ⟨admissible_of_perm same.symm, admissible_of_perm same⟩

end

/-- A width that grows with the zoom, and the property it grows towards. -/
private def widths : List (Stage × Expr) :=
  [(.vertex, builtFrom ⟨"stroke-width"⟩
      (.list [.text "interpolate", .list [.text "exponential", .double (.finite 2)],
        .list [.text "zoom"], .double (.finite 0), .list [.text "get", .text "near"],
        .double (.finite 9), .list [.text "get", .text "far"]]) .numbers),
    (.fragment, builtFrom ⟨"symbol.rotation"⟩ (.list [.text "get", .text "far"]) .numbers)]

private def farAsColor : Stage × Expr :=
  (.fragment, builtFrom ⟨"fill-color"⟩ (.list [.text "get", .text "far"]) (.singleton .color))

theorem succeeds_iff_consistent_widths :
    Succeeds widths ∧ Consistent (widths.map Prod.snd) ∧ Succeeds widths.reverse ∧
      ¬Succeeds (farAsColor :: widths) := by
  have hwidths : ∀ call ∈ widths, call.2.Built fun _ => True := by
    intro call hcall
    simp only [widths, List.mem_cons, List.not_mem_nil, or_false] at hcall
    rcases hcall with rfl | rfl
    · dsimp only
      exact built_builtFrom (by decide +kernel)
    · dsimp only
      exact built_builtFrom (by decide +kernel)
  have hall : ∀ call ∈ farAsColor :: widths, call.2.Built fun _ => True := by
    refine List.forall_mem_cons.mpr ⟨?_, hwidths⟩
    rw [farAsColor]
    dsimp only
    exact built_builtFrom (by decide +kernel)
  have hno : (farAsColor :: widths).flatMap (·.2.texts) = [] := by decide +kernel
  have hrun : (match (emitAll widths).run.run {} with
      | (.ok _, _) => true
      | (.error _, _) => false) = true := by decide +kernel
  have hsucceeds : Succeeds widths := by
    rcases hemit : (emitAll widths).run.run {} with ⟨outcome, r⟩
    rw [hemit] at hrun
    cases outcome with
    | error i => cases hrun
    | ok ts => exact ⟨ts, r, hemit⟩
  obtain ⟨hiff, horder⟩ := succeeds_iff_consistent hwidths
  refine ⟨hsucceeds, ?_, ?_, fun hfails => ?_⟩
  · refine (hiff ?_).mp hsucceeds
    rw [show widths.flatMap (·.2.texts) = [] by decide +kernel]
    exact Nat.zero_le _
  · refine (horder widths.reverse ?_).mpr hsucceeds
    rw [List.map_reverse]
    exact List.reverse_perm _
  · have hcounted : ((farAsColor :: widths).flatMap (·.2.texts)).eraseDups.length ≤ 2 ^ 1023 := by
      rw [hno]
      exact Nat.zero_le _
    have hconsistent := ((succeeds_iff_consistent hall).1 hcounted).mp hfails
    have hproperties : ((farAsColor :: widths).map Prod.snd).flatMap Expr.properties =
        [("far", .color), ("near", .number), ("far", .number), ("far", .number)] := by
      decide +kernel
    have hcoherent := hconsistent.properties
    rw [hproperties] at hcoherent
    have htypes : Ty.color = Ty.number :=
      hcoherent.one_type (p := ("far", .color)) (q := ("far", .number)) (by simp) (by simp) rfl
    cases htypes

end ShaderStyle
