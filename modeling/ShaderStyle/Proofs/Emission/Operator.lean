import Mathlib.Data.List.Basic
import ShaderStyle.Proofs.Registry.Steps
import ShaderStyle.Proofs.Typing.WellTyped

/-! The code of operators, by the few forms that it has. -/
namespace ShaderStyle

namespace Op

/-- The operator that joins the operands in shaders. -/
def binary? : Op → Option Glsl.BinaryOp
  | .mul => some .mul
  | .add => some .add
  | .sub => some .sub
  | .div => some .div
  | .greater => some .greater
  | .greaterEq => some .greaterEq
  | .less => some .less
  | .lessEq => some .lessEq
  | .equal => some .equal
  | .notEqual => some .notEqual
  | .all => some .and
  | .any => some .or
  | _ => none

/-- The function that is called with the operands in shaders. -/
def function? : Op → Option String
  | .mod => some "mod"
  | .pow => some "pow"
  | .clamp => some "clamp"
  | .abs => some "abs"
  | .floor => some "floor"
  | .ceil => some "ceil"
  | .sin => some "sin"
  | .cos => some "cos"
  | .sqrt => some "sqrt"
  | .atan => some "atan"
  | _ => none

/-- The operators by the form of their code, with the numbers of operands that they accept. -/
inductive Form : Op → Nat → Prop where
  | chain {op : Op} {b : Glsl.BinaryOp} {n : Nat} (joined : op.binary? = some b) (many : 2 ≤ n)
      (exact_two : op ∈ [mul, add, all, any] ∨ n = 2) : Form op n
  | function {op : Op} {f : String} {n : Nat} (called : op.function? = some f)
      (admitted : Node.Arity.admits op.arity n = true) : Form op n
  | round : Form .round 1
  | not : Form .not 1
  | between : Form .between 3
  | array {n : Nat} (sized : IsVectorSize n) : Form .array n
  | rgb : Form .color 3
  | rgba : Form .color 4

theorem min_le_of_admits {a : Arity} {n : Nat} (h : Node.Arity.admits a n = true) : a.min ≤ n :=
  of_decide_eq_true (Bool.and_eq_true_iff.mp h).1

theorem le_max_of_admits {a : Arity} {n m : Nat} (h : Node.Arity.admits a n = true)
    (hm : a.max = some m) : n ≤ m := by
  have hmax := (Bool.and_eq_true_iff.mp h).2
  rw [hm] at hmax
  exact of_decide_eq_true hmax

theorem eq_of_admits {a : Arity} {n m : Nat} (h : Node.Arity.admits a n = true)
    (hm : a = .exactly m) : n = m := by
  subst hm
  exact Nat.le_antisymm (le_max_of_admits h rfl) (min_le_of_admits h)

/-- Every accepted call has one of the forms. -/
theorem Accepts.form {op : Op} {operands : List Ty} {type : Ty} (h : op.Accepts operands type) :
    op.Form operands.length := by
  obtain ⟨hvalid, hadmits, -⟩ := h
  generalize operands.length = n at hadmits
  cases op with
  | invalid => simp [valid] at hvalid
  | mul | add | all | any =>
    have hn : 2 ≤ n := min_le_of_admits hadmits
    exact .chain rfl hn (Or.inl (by simp))
  | sub | div | greater | greaterEq | less | lessEq | equal | notEqual =>
    obtain rfl := eq_of_admits hadmits rfl
    exact .chain rfl (by omega) (Or.inr rfl)
  | mod | pow | clamp | abs | floor | ceil | sin | cos | sqrt | atan => exact .function rfl hadmits
  | round =>
    obtain rfl := eq_of_admits hadmits rfl
    exact .round
  | not =>
    obtain rfl := eq_of_admits hadmits rfl
    exact .not
  | between =>
    obtain rfl := eq_of_admits hadmits rfl
    exact .between
  | array =>
    exact .array ⟨min_le_of_admits hadmits, le_max_of_admits hadmits rfl⟩
  | color =>
    have hlow : 3 ≤ n := min_le_of_admits hadmits
    have hhigh : n ≤ 4 := le_max_of_admits hadmits rfl
    obtain rfl | rfl : n = 3 ∨ n = 4 := by omega
    · exact .rgb
    · exact .rgba

end Op

namespace Glsl

theorem callTerm_chain {op : Op} {b : BinaryOp} {ts : List Term} (joined : op.binary? = some b)
    (exact_two : op ∈ [Op.mul, .add, .all, .any] ∨ ts.length = 2) :
    callTerm op ts = .ok (group b ts) := by
  rcases exact_two with hop | hlength
  · simp only [List.mem_cons, List.not_mem_nil, or_false] at hop
    rcases hop with rfl | rfl | rfl | rfl <;> cases joined <;> rfl
  · obtain ⟨x, y, rfl⟩ := List.length_eq_two.mp hlength
    cases op <;> cases joined <;> rfl

theorem callTerm_function {op : Op} {f : String} {ts : List Term} (called : op.function? = some f)
    (admitted : Node.Arity.admits op.arity ts.length = true) :
    callTerm op ts = .ok (.call f ts) := by
  have htwo (h : op.arity = .exactly 2) : ∃ x y, ts = [x, y] :=
    List.length_eq_two.mp (Op.eq_of_admits admitted h)
  cases op with
  | mod | pow =>
    obtain ⟨x, y, rfl⟩ := htwo rfl
    cases called
    rfl
  | clamp | abs | floor | ceil | sin | cos | sqrt | atan =>
    cases called
    rfl
  | _ => cases called

/-- The code of an accepted call exists. -/
theorem exists_callTerm {op : Op} {ts : List Term} (h : op.Form ts.length) :
    ∃ t, callTerm op ts = .ok t := by
  generalize hn : ts.length = n at h
  cases h with
  | chain joined _ exact_two => exact ⟨_, callTerm_chain joined (hn ▸ exact_two)⟩
  | function called admitted => exact ⟨_, callTerm_function called (hn ▸ admitted)⟩
  | round | not =>
    obtain ⟨x, rfl⟩ := List.length_eq_one_iff.mp hn
    exact ⟨_, rfl⟩
  | between | rgb =>
    obtain ⟨x, y, z, rfl⟩ := List.length_eq_three.mp hn
    exact ⟨_, rfl⟩
  | array => exact ⟨_, rfl⟩
  | rgba =>
    match ts, hn with
    | [r, g, b, a], _ => exact ⟨_, rfl⟩

end Glsl

end ShaderStyle
