import ShaderStyle.Proofs.Compile.Sections
import ShaderStyle.Proofs.Emission.Leaves
import ShaderStyle.Proofs.Emission.Refusals

/-! The compiler never finds a defect of its own. -/
namespace ShaderStyle

/-- Building resolved the node to the expression, or to the number that it widens. -/
def Expr.BuiltFrom (scope : Scope) (n : Node) (e : Expr) : Prop :=
  e.ResolvedFrom scope n ∨ ∃ x type, e = .widen x type ∧ x.ResolvedFrom scope n

theorem Checked.Blames.not_internal {α : Type} {places : Path → Prop} {x : Checked α}
    (h : x.Blames places) : ∀ i ∈ x.issues, i.diagnostic.isInternal = false := by
  intro i hi
  rw [Issue.isInternal_diagnostic, (h i hi).2]
  rfl

theorem Registry.Blames.not_internal {α : Type} {places : Path → Prop} {m : RegistryM α}
    (h : Blames places m) {r r' : Registry} {i : Issue} (refused : m.run.run r = (.error i, r')) :
    i.diagnostic.isInternal = false := by
  rw [Issue.isInternal_diagnostic, (h r i r' refused).2]
  rfl

/-- An answer without defects: the issues that were added are faults of the style, and so is
whatever the emission of the expression is refused for, with any registry. The code of every node
is made from operands, stops, outputs and labels that are there. -/
structure Builder.Faultless (b : Builder) (answer : Option Expr × Builder) : Prop where
  built : ∃ added, answer.2.issues = b.issues ++ added ∧
    ∀ i ∈ added, i.diagnostic.isInternal = false
  emitted {e : Expr} (expr : answer.1 = some e) {stage : Stage} {r r' : Registry} {i : Issue}
    (refused : (emit stage e).run.run r = (.error i, r')) : i.diagnostic.isInternal = false
  inRange {e : Expr} (expr : answer.1 = some e) : ∀ n ∈ e.nodes, n.InRange

theorem Builder.faultless_collect (b : Builder) {outcome : Checked Expr} {places : Path → Prop}
    (blames : outcome.Blames places) (typed : ∀ e, outcome = .ok e → e.WellTyped fun _ => True) :
    b.Faultless (b.collect outcome) := by
  cases outcome with
  | error issues => exact ⟨⟨issues, rfl, blames.not_internal⟩, nofun, nofun⟩
  | ok e =>
    have htyped := typed e rfl
    refine ⟨⟨[], (List.append_nil _).symm, List.forall_mem_nil _⟩, ?_, ?_⟩
    · rintro _ ⟨⟩ stage r r' i refused
      exact (htyped.blames_emit stage).not_internal refused
    · rintro _ ⟨⟩ n hn
      exact (htyped.of_nodes n hn).inRange

theorem Builder.build_faultless (b : Builder) (path : Path) (raw : Value) :
    (∀ expected, b.Faultless (b.build path raw expected)) ∧
      ∀ want, b.Faultless (b.buildType path raw want) := by
  constructor
  · intro expected
    exact b.faultless_collect (blames_buildExpr _ path raw expected) fun _ => buildExpr_typed
  · intro want
    exact b.faultless_collect (blames_buildOfType b.vars path raw want) fun _ => buildOfType_typed

namespace Compilation

variable {vars : Bindings}

theorem Channel.faultless (vars : Bindings) (ch : Channel) :
    Builder.Faultless { vars } (ch.build vars) := by
  unfold Channel.build
  have hbuild := Builder.build_faultless { vars } ch.path ch.raw
  cases ch.goal with
  | kinds expected => exact hbuild.1 expected
  | type want => exact hbuild.2 want

theorem Section.Reports.not_internal {failed : List Section} {r r' : Registry} {part : Section}
    {issues : List Issue} (h : part.Reports vars failed r issues r') :
    ∀ i ∈ issues, i.diagnostic.isInternal = false := by
  cases h with
  | @unbuilt ch b build =>
    obtain ⟨added, hissues, hadded⟩ := (ch.faultless vars).built
    rw [build] at hissues
    rw [show b.issues = added from hissues]
    exact hadded
  | @refused _ ch e _ i build run =>
    intro j hj
    rw [List.mem_singleton.mp hj]
    exact (ch.faultless vars).emitted (by rw [build]) run
  | shapeless =>
    intro j hj
    rw [List.mem_singleton.mp hj, Issue.isInternal_diagnostic]
    unfold shapeIssue
    dsimp only
    split
    · rfl
    · rfl
  | _ => exact List.forall_mem_nil _

theorem Reporting.not_internal {states : Registry → Prop} {failed sections : List Section}
    {r r' : Registry} {reports : List (List Issue)}
    (h : Reporting vars states failed r sections reports r') :
    ∀ i ∈ reports.flatten, i.diagnostic.isInternal = false := by
  induction h with
  | done => exact List.forall_mem_nil _
  | step _ _ report _ ih =>
    rw [List.flatten_cons, List.forall_mem_append]
    exact ⟨report.not_internal, ih⟩

end Compilation

/-- Internal errors and missing operands are unreachable. Whatever is built, for any variables and
any context, no node is assembled from an operand that failed, no issue is an internal error, and
neither is one of an emission with any registry. The emission finds all operands that it takes: code
fails for a missing operand exactly where one of its indices is out of range. So no issue of a
compilation is an internal error. -/
theorem compile_no_defects :
    (∀ path v, (Node.read path v).Gives (Node.ReadFrom path v)) ∧
      (∀ scope n expected, (Node.build scope n expected).Gives (Expr.BuiltFrom scope n)) ∧
      (∀ (b : Builder) path raw expected, b.Faultless (b.build path raw expected)) ∧
      (∀ (b : Builder) path raw want, b.Faultless (b.buildType path raw want)) ∧
      (∀ op ∈ Op.valid, ∀ ts, Glsl.callTerm op ts = .error (.missingOperands op) ↔
        ∃ i ∈ op.indices ts.length, ts.length ≤ i) ∧
      ∀ s store, ∀ i ∈ (compile s store).1.issues, i.diagnostic.isInternal = false := by
  refine ⟨fun path v n => Node.readFrom_of_read, fun scope n expected e =>
    Node.resolvedFrom_of_build, fun b path raw => (b.build_faultless path raw).1,
    fun b path raw => (b.build_faultless path raw).2, fun op => Glsl.callTerm_missing_iff,
    fun s store => ?_⟩
  obtain ⟨reports, last, hreports, hissues⟩ := Compilation.sections_report s store
  rw [hissues]
  exact hreports.not_internal

end ShaderStyle
