import Mathlib.Data.List.Forall2
import ShaderStyle.Proofs.Typing.Reports

/-! What a builder answers: a call that fails adds its issues to the list, and one that gives an
expression leaves the list as it is. -/
namespace ShaderStyle

namespace Builder

/-- The answer to a call that adds the given issues. The issues of earlier calls keep their place,
and the answer has no expression exactly if there is an issue. -/
structure Answers (b : Builder) (added : List Issue) (answer : Option Expr × Builder) : Prop where
  vars : answer.2.vars = b.vars
  issues : answer.2.issues = b.issues ++ added
  fails_iff : answer.1 = none ↔ added ≠ []

theorem answers_collect (b : Builder) {outcome : Checked Expr} (h : outcome.Reports) :
    ∃ added, b.Answers added (b.collect outcome) := by
  cases outcome with
  | ok e =>
    refine ⟨[], rfl, ?_, ?_⟩
    · rw [List.append_nil]
      rfl
    · simp [collect]
  | error issues =>
    have hne : issues ≠ [] := by
      rintro rfl
      exact h rfl
    exact ⟨issues, rfl, rfl, by simp [collect, hne]⟩

/-- A call of a builder. -/
inductive Request where
  | kinds (path : Path) (raw : Value) (expected : TypeSet)
  | type (path : Path) (raw : Value) (want : Ty)

def serve (b : Builder) : Request → Option Expr × Builder
  | .kinds path raw expected => b.build path raw expected
  | .type path raw want => b.buildType path raw want

theorem answers_serve (b : Builder) (request : Request) :
    ∃ added, b.Answers added (b.serve request) := by
  cases request with
  | kinds path raw expected => exact b.answers_collect (reports_buildExpr _ path raw expected)
  | type path raw want => exact b.answers_collect (reports_buildOfType b.vars path raw want)

/-- In every state of a builder, building where a set of kinds is accepted and building at a type
only extend the issues, and give no expression if and only if they add one. -/
theorem build_answers (b : Builder) (path : Path) (raw : Value) :
    (∀ expected, ∃ added, b.Answers added (b.build path raw expected)) ∧
      ∀ want, ∃ added, b.Answers added (b.buildType path raw want) := by
  constructor
  · intro expected
    exact b.answers_serve (.kinds path raw expected)
  · intro want
    exact b.answers_serve (.type path raw want)

/-- The answers to calls in turn, and the builder after them. -/
def serveAll (b : Builder) : List Request → List (Option Expr) × Builder
  | [] => ([], b)
  | request :: requests =>
    let (answer, next) := b.serve request
    let (answers, last) := next.serveAll requests
    (answer :: answers, last)

/-- After any calls, the issues are those there were before, followed by the share of each call in
turn. The calls with an empty share are those that gave an expression. -/
theorem issues_serveAll (b : Builder) (requests : List Request) :
    ∃ shares : List (List Issue),
      List.Forall₂ (fun answer share => answer = none ↔ share ≠ []) (b.serveAll requests).1 shares ∧
        (b.serveAll requests).2.issues = b.issues ++ shares.flatten := by
  induction requests generalizing b with
  | nil => exact ⟨[], .nil, by simp [serveAll]⟩
  | cons request requests ih =>
    obtain ⟨added, hadded⟩ := b.answers_serve request
    obtain ⟨shares, hshares, hissues⟩ := ih (b.serve request).2
    refine ⟨added :: shares, .cons hadded.fails_iff hshares, ?_⟩
    rw [List.flatten_cons, ← List.append_assoc, ← hadded.issues]
    exact hissues

/-- The list of issues decides whether all calls gave an expression. -/
theorem issues_serveAll_eq_iff (b : Builder) (requests : List Request) :
    (b.serveAll requests).2.issues = b.issues ↔
      ∀ answer ∈ (b.serveAll requests).1, answer ≠ none := by
  obtain ⟨shares, hshares, hissues⟩ := b.issues_serveAll requests
  rw [hissues, List.append_right_eq_self, List.flatten_eq_nil_iff]
  clear hissues
  generalize (b.serveAll requests).1 = answers at hshares
  induction hshares with
  | nil => simp
  | cons hshare _ ih =>
    rw [List.forall_mem_cons, List.forall_mem_cons, ih, ne_eq, hshare, not_not]

end Builder

end ShaderStyle
