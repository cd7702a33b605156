import ShaderStyle.Proofs.Emission.Tree

/-! Values of expressions in the shading language, and what a chain of conditionals chooses. -/
namespace ShaderStyle

/-- The second part of the first pair that applies, or the fallback. -/
def chosen {α β : Type} (applies : α → Bool) (alternatives : List (α × β)) (fallback : β) : β :=
  ((alternatives.find? fun a => applies a.1).map Prod.snd).getD fallback

section Chosen

variable {α β : Type} {applies : α → Bool} {alternatives : List (α × β)} {fallback : β}

theorem chosen_cons (a : α) (b : β) :
    chosen applies ((a, b) :: alternatives) fallback =
      if applies a then b else chosen applies alternatives fallback := by
  by_cases h : applies a
  · simp [chosen, h]
  · simp [chosen, h]

theorem chosen_map {γ δ : Type} {applies : γ → Bool} (f : α → γ) (g : β → δ) :
    chosen applies (alternatives.map fun a => (f a.1, g a.2)) (g fallback) =
      g (chosen (fun a => applies (f a)) alternatives fallback) := by
  induction alternatives with
  | nil => rfl
  | cons first rest ih =>
    obtain ⟨a, b⟩ := first
    rw [List.map_cons, chosen_cons, chosen_cons, ih]
    split
    · rfl
    · rfl

theorem chosen_congr {other : α → Bool} (h : ∀ a b, (a, b) ∈ alternatives → applies a = other a) :
    chosen applies alternatives fallback = chosen other alternatives fallback := by
  induction alternatives with
  | nil => rfl
  | cons first rest ih =>
    obtain ⟨a, b⟩ := first
    have hrest := ih fun a b hmem => h a b (List.mem_cons_of_mem _ hmem)
    rw [chosen_cons, chosen_cons, h a b List.mem_cons_self, hrest]

/-- What is chosen is one of the outputs, or the fallback. -/
theorem chosen_mem (applies : α → Bool) (alternatives : List (α × β)) (fallback : β) :
    (∃ a ∈ alternatives, chosen applies alternatives fallback = a.2) ∨
      chosen applies alternatives fallback = fallback := by
  unfold chosen
  cases h : alternatives.find? fun a => applies a.1 with
  | none => exact Or.inr rfl
  | some a => exact Or.inl ⟨a, List.mem_of_find?_eq_some h, rfl⟩

end Chosen

namespace Glsl

/-- A value for every expression, and which values are true. -/
structure Valuation (α : Type) where
  value : Tree → α
  holds : α → Bool

namespace Valuation

variable {α : Type} (V : Valuation α)

/-- The value of a text that is an expression. -/
def read (text : String) : Option α := (parse text).map V.value

/-- Whether a condition holds, by the values of the operands where it is an equation. -/
def test [DecidableEq α] : Tree → Bool
  | .binary .equal x y => V.value x = V.value y
  | condition => V.holds (V.value condition)

/-- The value of `n` conditionals, each in the last place of the one before, by the values of what
they choose from. -/
def resolve (test : Tree → Bool) : (n : Nat) → Tree → α
  | n + 1, .choose condition yes no =>
    if test condition then V.value yes else resolve test n no
  | _, x => V.value x

/-- Values that are made by the rules: an equation holds where its sides have one value, and a
conditional has the value of the branch that its condition selects. -/
structure Lawful : Prop where
  equal (x y : Tree) : V.holds (V.value (.binary .equal x y)) = true ↔ V.value x = V.value y
  choose (condition yes no : Tree) : V.value (.choose condition yes no) =
    if V.holds (V.value condition) then V.value yes else V.value no

variable {V}

theorem Lawful.test_eq [DecidableEq α] (h : V.Lawful) (condition : Tree) :
    V.test condition = V.holds (V.value condition) := by
  unfold test
  split
  · rw [Bool.eq_iff_iff, decide_eq_true_iff, h.equal]
  · rfl

/-- By the rules, it does not matter how far conditionals are resolved. -/
theorem Lawful.resolve_eq (h : V.Lawful) {test : Tree → Bool}
    (agrees : ∀ condition, test condition = V.holds (V.value condition)) (n : Nat) (x : Tree) :
    V.resolve test n x = V.value x := by
  fun_induction resolve V test n x with
  | case1 n condition yes no holds => rw [h.choose, ← agrees, if_pos holds]
  | case2 n condition yes no fails ih => rw [h.choose, ← agrees, if_neg fails, ih]
  | case3 => rfl

/-- A chain of conditionals has the value of its first branch whose condition holds. -/
theorem resolve_alternatives (test : Tree → Bool) (condition : Tree → Tree) (fallback : Tree)
    (branches : List (Tree × Tree)) :
    V.resolve test branches.length (.alternatives condition fallback branches) =
      V.value (chosen (fun x => test (condition x)) branches fallback) := by
  induction branches with
  | nil => rfl
  | cons branch rest ih =>
    obtain ⟨a, b⟩ := branch
    rw [List.length_cons, Tree.alternatives, resolve, chosen_cons, ih]
    split
    · rfl
    · rfl

variable (V)

/-- A text of `n` conditionals has the value of the text of a part. It has this value whatever the
parts have for values, and by the rules it has it as a whole. -/
structure Takes (test : Tree → Bool) (n : Nat) (text part : String) : Prop where
  resolves : ∃ x, parse text = some x ∧ V.read part = some (V.resolve test n x)
  reads : V.Lawful → V.read text = V.read part

variable {V}

theorem takes_alternatives {test : Tree → Bool}
    (agrees : V.Lawful → ∀ condition, test condition = V.holds (V.value condition))
    {condition : Tree → Tree} {fallback : Tree} {branches : List (Tree × Tree)}
    {text part : String} (whole : parse text = some (.alternatives condition fallback branches))
    (taken : parse part = some (chosen (fun x => test (condition x)) branches fallback)) :
    V.Takes test branches.length text part := by
  have hpart : V.read part =
      some (V.resolve test branches.length (.alternatives condition fallback branches)) := by
    rw [read, taken, Option.map_some, resolve_alternatives]
  refine ⟨⟨_, whole, hpart⟩, fun lawful => ?_⟩
  rw [hpart, lawful.resolve_eq (agrees lawful), read, whole, Option.map_some]

end Valuation

end Glsl

end ShaderStyle
