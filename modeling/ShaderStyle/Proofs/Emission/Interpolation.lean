import ShaderStyle.Proofs.Emission.Values
import ShaderStyle.Proofs.Glsl.Interpolation
import ShaderStyle.Proofs.Typing.Stops

/-! The emitted code of an interpolation has the value of the interpolation between its stops. -/
namespace ShaderStyle

open Glsl (Meaning Piecewise Tree)

variable {K : Type} [Field K] [LinearOrder K] [FloorRing K]

/-- Whether the literals of an interpolation stand for their numbers, and the power of a weight
leaves zero and one alone. -/
structure Glsl.Meaning.Weighs (m : Meaning K) (exponent : Double) (stops : List Double) : Prop where
  reads_zero : m.Reads (.finite 0)
  reads_one : m.Reads (.finite 1)
  reads_exponent : m.Reads exponent
  reads_stops : ∀ s ∈ stops, m.Reads s
  power_zero : m.power 0 exponent.toRat = 0
  power_one : m.power 1 exponent.toRat = 1

namespace Expr

/-- An interpolation whose stops are all literals has at least two of them, in strictly increasing
order, so that no two neighbors have the difference zero. -/
def StopsIncrease : Expr → Prop
  | .interpolate _ _ _ stops spare _ =>
    ∀ numbers : List Double, (stops.map fun s => s.1.number?) = numbers.map some →
      spare = [] ∧ 2 ≤ numbers.length ∧ numbers.Pairwise fun s t => s.toRat < t.toRat
  | _ => True

/-- Whatever numbers the input and the outputs of an interpolation between literal stops have for
values, its code has a value, and this interpolates between the outputs. -/
def Interpolates (m : Meaning K) (code : Expr → String) : Expr → Prop
  | .interpolate path exponent input stops spare type =>
    ∀ numbers : List Double, (stops.map fun s => s.1.number?) = numbers.map some →
      ∀ (x : K) (outputs : List (List K)), m.Weighs exponent numbers →
        m.read (code input) = some [x] →
        stops.map (fun s => m.read (code s.2)) = outputs.map some →
        (∀ v ∈ outputs, ∀ w ∈ outputs, v.length = w.length) →
        ∃ value, m.read (code (.interpolate path exponent input stops spare type)) = some value ∧
          Piecewise (m.power · exponent.toRat)
            ((numbers.map fun s => (s.toRat : K)).zip outputs) x value
  | _ => True

section

variable {m : Meaning K} {stage : Stage} {c : Categories}

/-- Literal stops and their outputs have the values of the points. -/
theorem standsFor_treePairs {stops : List (Expr × Expr)} {numbers : List Double}
    {outputs : List (List K)} (literals : (stops.map fun s => s.1.number?) = numbers.map some)
    (reads : ∀ s ∈ numbers, m.Reads s)
    (values : stops.map (fun s => (s.2.tree stage c).value? m) = outputs.map some) :
    List.Forall₂ (Tree.StandsFor m) (treePairs stage c stops)
      ((numbers.map fun s => (s.toRat : K)).zip outputs) := by
  induction stops generalizing numbers outputs with
  | nil =>
    obtain rfl : numbers = [] := List.map_eq_nil_iff.mp literals.symm
    exact .nil
  | cons stop stops ih =>
    cases numbers with
    | nil => cases literals
    | cons s numbers =>
      cases outputs with
      | nil => cases values
      | cons v outputs =>
        obtain ⟨hs, hliterals⟩ := List.cons.inj literals
        obtain ⟨hv, hvalues⟩ := List.cons.inj values
        obtain ⟨hfirst, hreads⟩ := List.forall_mem_cons.mp reads
        obtain ⟨path, hstop⟩ := number?_eq_some hs
        refine .cons ⟨?_, hv⟩ (ih hliterals hreads hvalues)
        dsimp only
        rw [hstop]
        exact hfirst

theorem Built.stopsIncrease {e n : Expr} (built : e.Built fun _ => True) (hn : n ∈ e.nodes) :
    n.StopsIncrease := by
  cases n with
  | interpolate path exponent input stops spare type =>
    intro numbers literals
    have hnumbers : numbers.length = stops.length := by
      rw [← List.length_map some, ← literals, List.length_map]
    cases built.wellTyped.of_nodes _ hn with
    | interpolate _ _ _ count =>
      exact ⟨rfl, hnumbers.symm ▸ count, built.stops_increase hn literals⟩
  | _ => trivial

theorem ReadsBack.interpolates [IsStrictOrderedRing K] {e : Expr} (reads : e.ReadsBack stage c)
    (increases : e.StopsIncrease) : e.Interpolates m (code stage c) := by
  cases e with
  | interpolate path exponent input stops spare type =>
    intro numbers literals x outputs weighs hinput houtputs alike
    obtain ⟨-, hcount, hincreases⟩ := increases numbers literals
    have hlength : outputs.length = numbers.length := by
      rw [← List.length_map some, ← houtputs, List.length_map, ← List.length_map, literals,
        List.length_map]
    have hvalues : stops.map (fun s => (s.2.tree stage c).value? m) = outputs.map some := by
      rw [← houtputs]
      apply List.map_congr_left
      intro s hs
      have houtput : s.2 ∈ laidOut stops := mem_laidOut.mpr ⟨s, hs, Or.inr rfl⟩
      exact (reads.read_part (List.mem_cons_of_mem _ houtput)).symm
    have hstands := standsFor_treePairs literals weighs.reads_stops hvalues
    have hfirst : ((numbers.map fun s => (s.toRat : K)).zip outputs).map Prod.fst =
        numbers.map fun s => (s.toRat : K) :=
      List.map_fst_zip (by rw [List.length_map, hlength])
    have hordered : ((numbers.map fun s => (s.toRat : K)).zip outputs).Pairwise
        fun p q => p.1 < q.1 := by
      rw [← List.pairwise_map, hfirst, List.pairwise_map]
      exact hincreases.imp fun h => Rat.cast_lt.mpr h
    have hnonempty : (numbers.map fun s => (s.toRat : K)).zip outputs ≠ [] := by
      intro hempty
      have hzero := congrArg List.length hempty
      rw [List.length_zip, List.length_map, hlength, List.length_nil] at hzero
      omega
    rw [reads.read_part List.mem_cons_self] at hinput
    rw [reads.read_eq]
    exact Tree.piecewise_interpolation weighs.reads_zero weighs.reads_one weighs.power_zero
      weighs.power_one hinput weighs.reads_exponent hstands hordered hnonempty
      fun p hp q hq => alike p.2 (List.of_mem_zip hp).2 q.2 (List.of_mem_zip hq).2
  | _ => trivial

end

end Expr

/-- Interpolation is the piecewise interpolation between the stops. An interpolation that is built
has strictly increasing stops if they are all literals. In exact arithmetic the code that is emitted
for it has the first output for a value before the stops, the last output after them, and between
two neighbors the mean of their outputs, weighted by the power of the position between them. -/
theorem emit_interpolates [IsStrictOrderedRing K] (m : Meaning K) {e : Expr}
    (built : e.Built fun _ => True) :
    (∀ n ∈ e.nodes, n.StopsIncrease) ∧
      ∀ {stage : Stage} {r r' : Registry} {t : Glsl.Term}, r.Reachable →
        (emit stage e).run.run r = (.ok t, r') →
        t.text = e.code stage r'.categories ∧
          ∀ n ∈ e.nodes, n.Interpolates m (Expr.code stage r'.categories) := by
  refine ⟨fun n hn => built.stopsIncrease hn, fun {stage r r' t} reachable ran => ?_⟩
  obtain ⟨htext, reads⟩ := emit_readsBack built reachable ran
  exact ⟨htext, fun n hn => (reads.node hn).interpolates (built.stopsIncrease hn)⟩

/-- A width that grows with the zoom, and shrinks again from ten on. -/
private def zoomedWidth : Value :=
  .list [.text "interpolate", .list [.text "linear"], .list [.text "zoom"],
    .double (.finite 5), .double (.finite 1), .double (.finite 10), .double (.finite 8),
    .double (.finite 20), .double (.finite 4)]

private def zoomedWidthExpr : Expr :=
  .interpolate ⟨"width"⟩ (.finite 1) (.builtin ⟨"width[2]"⟩ "zoom")
    [(.number ⟨"width[3]"⟩ (.finite 5), .number ⟨"width[4]"⟩ (.finite 1)),
      (.number ⟨"width[5]"⟩ (.finite 10), .number ⟨"width[6]"⟩ (.finite 8)),
      (.number ⟨"width[7]"⟩ (.finite 20), .number ⟨"width[8]"⟩ (.finite 4))]
    [] .number

/-- The numbers of this width at a zoom. The power is right for an exponent of one. -/
private def zoomedTo (zoom : ℚ) : Meaning ℚ where
  digits text :=
    [("0.0", 0), ("1.0", 1), ("4.0", 4), ("5.0", 5), ("8.0", 8), ("10.0", 10), ("20.0", 20)].lookup
      text
  power w _ := w
  function _ _ := none
  other
    | .name "u_zoom" => some [zoom]
    | _ => none

private theorem zoomedTo_reads (zoom : ℚ) :
    ∀ n ∈ [0, 1, 4, 5, 8, 10, 20], (zoomedTo zoom).Reads (.finite n) := by
  simp only [List.forall_mem_cons, List.not_mem_nil, false_imp_iff, implies_true, and_true]
  exact ⟨Meaning.reads_of_digits "0.0" (by decide +kernel) (by decide) rfl,
    Meaning.reads_of_digits "1.0" (by decide +kernel) (by decide) rfl,
    Meaning.reads_of_digits "4.0" (by decide +kernel) (by decide) rfl,
    Meaning.reads_of_digits "5.0" (by decide +kernel) (by decide) rfl,
    Meaning.reads_of_digits "8.0" (by decide +kernel) (by decide) rfl,
    Meaning.reads_of_digits "10.0" (by decide +kernel) (by decide) rfl,
    Meaning.reads_of_digits "20.0" (by decide +kernel) (by decide) rfl⟩

/-- Between ten and twenty, the outputs at these stops are mixed. -/
theorem emit_interpolates_zoomedWidth :
    ∃ t, (emit .vertex zoomedWidthExpr).run.run {} = (.ok t, {}) ∧
      t.text = "mix(mix(1.0, 8.0, pow(clamp((u_zoom - 5.0) / (10.0 - 5.0), 0.0, 1.0), 1.0)), " ++
        "4.0, pow(clamp((u_zoom - 10.0) / (20.0 - 10.0), 0.0, 1.0), 1.0))" ∧
      ∀ zoom : ℚ, 10 ≤ zoom → zoom ≤ 20 → (zoomedTo zoom).read t.text =
        some [8 * (1 - (zoom - 10) / (20 - 10)) + 4 * ((zoom - 10) / (20 - 10))] := by
  have hbuild : Builder.build ⟨.empty, []⟩ ⟨"width"⟩ zoomedWidth .numbers =
      (some zoomedWidthExpr, ⟨.empty, []⟩) := by cbv
  have built : zoomedWidthExpr.Built fun _ => True := ⟨_, _, _, _, Or.inl ⟨_, hbuild⟩⟩
  have hemit : ∃ t, (emit .vertex zoomedWidthExpr).run.run {} = (.ok t, ({} : Registry)) ∧
      t.text = "mix(mix(1.0, 8.0, pow(clamp((u_zoom - 5.0) / (10.0 - 5.0), 0.0, 1.0), 1.0)), " ++
        "4.0, pow(clamp((u_zoom - 10.0) / (20.0 - 10.0), 0.0, 1.0), 1.0))" :=
    ⟨_, rfl, by decide +kernel⟩
  obtain ⟨t, hrun, htext⟩ := hemit
  refine ⟨t, hrun, htext, fun zoom hlow hhigh => ?_⟩
  obtain ⟨-, hemitted⟩ := emit_interpolates (zoomedTo zoom) built
  obtain ⟨hcode, hnodes⟩ := hemitted (.fresh {}) hrun
  obtain ⟨-, reads⟩ := emit_readsBack built (.fresh {}) hrun
  have hparts : ∀ x ∈ zoomedWidthExpr.parts, (zoomedTo zoom).read (x.code .vertex {}) =
      (x.tree .vertex {}).value? (zoomedTo zoom) := fun x hx => reads.read_part hx
  simp only [zoomedWidthExpr, Expr.parts, Expr.operands, laidOut_cons, laidOut_nil,
    List.forall_mem_cons, List.not_mem_nil, false_imp_iff, implies_true, and_true] at hparts
  obtain ⟨hinput, -, hfirst, -, hsecond, -, hthird⟩ := hparts
  have hreads := zoomedTo_reads zoom
  have hweighs : (zoomedTo zoom).Weighs (.finite 1) [.finite 5, .finite 10, .finite 20] := by
    refine ⟨hreads 0 (by simp), hreads 1 (by simp), hreads 1 (by simp), ?_, rfl, rfl⟩
    simp only [List.forall_mem_cons, List.not_mem_nil, false_imp_iff, implies_true, and_true]
    exact ⟨hreads 5 (by simp), hreads 10 (by simp), hreads 20 (by simp)⟩
  have houtputs : [(zoomedTo zoom).read (Expr.code .vertex {} (.number ⟨"width[4]"⟩ (.finite 1))),
      (zoomedTo zoom).read (Expr.code .vertex {} (.number ⟨"width[6]"⟩ (.finite 8))),
      (zoomedTo zoom).read (Expr.code .vertex {} (.number ⟨"width[8]"⟩ (.finite 4)))] =
        [some [1], some [8], some [4]] := by
    rw [hfirst, hsecond, hthird]
    exact congrArg₂ _ (hreads 1 (by simp))
      (congrArg₂ _ (hreads 8 (by simp)) (congrArg₂ _ (hreads 4 (by simp)) rfl))
  obtain ⟨value, hread, hpiecewise⟩ := hnodes zoomedWidthExpr (Expr.mem_nodes_self _)
    [.finite 5, .finite 10, .finite 20] rfl zoom [[1], [8], [4]] hweighs
    hinput houtputs (by decide)
  rw [hcode]
  refine hread.trans (congrArg some ?_)
  exact hpiecewise.between [(5, [1])] (10, [8]) (20, [4]) [] rfl hlow hhigh

end ShaderStyle
