import ShaderStyle.Proofs.Compile.References
import ShaderStyle.Proofs.Compile.Widths

/-! Comparing two references to texts: the numbers that stand for their values are equal where the
texts are, and where a style knows neither of them. -/
namespace ShaderStyle

open Compilation

namespace Categories

variable {c : Categories} {v w : String}

theorem number_of_notMem (h : v ∉ c.names) : c.number v = -1 := by
  have hlow := neg_one_le_number c v
  have hhigh : ¬0 ≤ c.number v := fun hpos => h (number_nonneg_iff.mp hpos)
  omega

/-- A table tells two texts apart unless it has neither. -/
theorem number_eq_number_iff :
    c.number v = c.number w ↔ v = w ∨ v ∉ c.names ∧ w ∉ c.names := by
  by_cases hw : w ∈ c.names
  · rw [number_eq_iff hw]
    simp [hw]
  · rw [number_of_notMem hw]
    by_cases hv : v ∈ c.names
    · have hpos := number_nonneg_iff.mpr hv
      have hne : v ≠ w := fun heq => hw (heq ▸ hv)
      constructor
      · intro hminus
        omega
      · rintro (heq | ⟨hnot, -⟩)
        · exact absurd heq hne
        · exact absurd hv hnot
    · simp [number_of_notMem hv, hv, hw]

/-- Numbers of a table that doubles can count are equal as doubles only if they are equal. -/
theorem ofInt_number_eq_iff (size : c.names.length ≤ 2 ^ 53) :
    Double.ofInt (c.number v) = Double.ofInt (c.number w) ↔ c.number v = c.number w := by
  refine Double.ofInt_eq_iff (neg_one_le_number c v) (neg_one_le_number c w) ?_
  by_cases hw : w ∈ c.names
  · obtain ⟨i, hi, hnumber⟩ := number_of_mem hw
    omega
  · rw [number_of_notMem hw]
    omega

end Categories

/-- Where a text comes from when shaders run. -/
inductive TextSource where
  | property (name : String)
  | styleVariable (name : String)
  deriving DecidableEq

namespace TextSource

/-- What the source holds for a feature. -/
def value? (r : Result) (feature : Bindings) : TextSource → Option Value
  | .property name => feature.get? name
  | .styleVariable name => r.vars.get? name

/-- What the shaders get for the source. -/
def numbers? (r : Result) (feature : Bindings) : TextSource → Option (List Double)
  | .property name => (r.attribute? name).map (r.attributeValue feature)
  | .styleVariable name => (r.uniform? (Glsl.uniformName name)).map r.uniformValue

end TextSource

/-- The source that an expression refers to, if it reads a text. -/
def Expr.textSource? : Expr → Option TextSource
  | .get _ name .string => some (.property name)
  | .var _ name .string => some (.styleVariable name)
  | _ => none

/-- The references to texts that a node tests for equality. -/
def Expr.textComparison? : Expr → Option (TextSource × TextSource)
  | .call _ op [x, y] _ =>
    if op = .equal ∨ op = .notEqual then do return (← x.textSource?, ← y.textSource?) else none
  | _ => none

/-- All places in an expression where two references to texts are compared. -/
def Expr.textComparisons (e : Expr) : List (TextSource × TextSource) :=
  e.nodes.filterMap textComparison?

theorem Expr.textComparison?_eq_some {n : Expr} {a b : TextSource}
    (h : n.textComparison? = some (a, b)) :
    ∃ path op x y type, n = .call path op [x, y] type ∧ x.textSource? = some a ∧
      y.textSource? = some b := by
  unfold textComparison? at h
  split at h
  · split_ifs at h
    obtain ⟨a', ha, h⟩ := Option.bind_eq_some_iff.mp h
    obtain ⟨b', hb, h⟩ := Option.bind_eq_some_iff.mp h
    cases h
    exact ⟨_, _, _, _, _, rfl, ha, hb⟩
  · cases h

/-- The texts that are known when a style is compiled: its literals, and the texts of the variables
that it reads as texts. -/
def Style.KnowsText (s : Style) (vars : Bindings) (t : String) : Prop :=
  (∃ ch ∈ s.channels, t ∈ (ch.expr vars).literals) ∨
    ∃ ch ∈ s.channels, ∃ name, (name, .string) ∈ (ch.expr vars).styleVariables ∧
      vars.get? name = some (.text t)

section

variable {s : Style} {store : Option Bindings} {r : Result} {log : List LogEntry}

theorem mem_names_iff (h : compile s store = (.ok r, log)) {t : String} :
    t ∈ r.categories.names ↔ s.KnowsText r.vars t := by
  constructor
  · intro ht
    obtain ⟨literals, others, hnames, hliterals, hothers⟩ := literals_first_of_compile h
    rw [hnames, List.mem_append] at ht
    rcases ht with ht | ht
    · exact Or.inl ((hliterals t).mp ht)
    · obtain ⟨u, hu, htype, hvalue⟩ := hothers t ht
      obtain ⟨ch, hch, ⟨name, type⟩, hp, rfl⟩ := (mem_uniforms_iff h).mp hu
      obtain rfl : type = .string := htype
      exact Or.inr ⟨ch, hch, name, hp, hvalue⟩
  · rintro (⟨ch, hch, ht⟩ | ⟨ch, hch, name, hp, hvalue⟩)
    · exact mem_names_of_literal h hch ht
    · exact mem_names_of_uniform h ((mem_uniforms_iff h).mpr ⟨ch, hch, _, hp, rfl⟩) rfl hvalue

/-- The shaders get the number of the text that a source holds, whatever was set before. -/
theorem numbers?_of_textSource? (h : compile s store = (.ok r, log)) {ch : Channel}
    (hch : ch ∈ s.channels) {x : Expr} (hx : x ∈ (ch.expr r.vars).nodes) {source : TextSource}
    (hsource : x.textSource? = some source) (uses : List Result.Use) (feature : Bindings)
    {t : String} (hvalue : source.value? (r.after uses) feature = some (.text t)) :
    source.numbers? (r.after uses) feature = some [.ofInt (r.categories.number t)] := by
  have hfrozen : r.categories.frozen = true := by
    rw [categories_of_compile h]
    rfl
  have hencode {value : Option Value} (htext : value = some (.text t)) :
      encode .string (r.after uses).categories value = [.ofInt (r.categories.number t)] := by
    rw [Result.categories_after hfrozen, Categories.encode_string, htext]
    rfl
  unfold Expr.textSource? at hsource
  split at hsource
  · rename_i path name
    cases hsource
    have hp : (name, Ty.string) ∈ (ch.expr r.vars).properties :=
      List.mem_filterMap.mpr ⟨_, hx, rfl⟩
    have hfound := attribute?_of_property h hch hp
    rw [Result.attribute?, ← Result.attributes_after r uses, ← Result.attribute?] at hfound
    rw [TextSource.numbers?, hfound]
    exact congrArg some (hencode hvalue)
  · rename_i path name
    cases hsource
    have hp : (name, Ty.string) ∈ (ch.expr r.vars).styleVariables :=
      List.mem_filterMap.mpr ⟨_, hx, rfl⟩
    have hfound := uniform?_of_styleVariable h hch hp
    rw [Result.uniform?, ← Result.uniforms_after r uses, ← Result.uniform?] at hfound
    rw [TextSource.numbers?, hfound]
    exact congrArg some (hencode hvalue)
  · cases hsource

/-- In a compiled style that compares two references to texts, the numbers that the shaders get are
equal where the texts are, and where the style knows neither of them. This holds for every feature
and whatever the variables are set to. As doubles, the numbers are told apart as long as doubles
count the texts of the style. -/
theorem compile_comparesTexts (h : compile s store = (.ok r, log)) {ch : Channel}
    (hch : ch ∈ s.channels) {a b : TextSource}
    (hcompares : (a, b) ∈ (ch.expr r.vars).textComparisons) (uses : List Result.Use)
    (feature : Bindings) {v w : String}
    (hv : a.value? (r.after uses) feature = some (.text v))
    (hw : b.value? (r.after uses) feature = some (.text w)) :
    (∃ i j : Int, a.numbers? (r.after uses) feature = some [.ofInt i] ∧
      b.numbers? (r.after uses) feature = some [.ofInt j] ∧
      (i = j ↔ v = w ∨ ¬s.KnowsText r.vars v ∧ ¬s.KnowsText r.vars w)) ∧
    (r.categories.names.length ≤ 2 ^ 53 →
      (a.numbers? (r.after uses) feature = b.numbers? (r.after uses) feature ↔
        v = w ∨ ¬s.KnowsText r.vars v ∧ ¬s.KnowsText r.vars w)) := by
  obtain ⟨n, hnode, hcomparison⟩ := List.mem_filterMap.mp hcompares
  obtain ⟨path, op, x, y, type, rfl, hx, hy⟩ := Expr.textComparison?_eq_some hcomparison
  have ha := numbers?_of_textSource? h hch (Expr.mem_nodes_of_operand hnode (by simp)) hx uses
    feature hv
  have hb := numbers?_of_textSource? h hch (Expr.mem_nodes_of_operand hnode (by simp)) hy uses
    feature hw
  have hnumbers : r.categories.number v = r.categories.number w ↔
      v = w ∨ ¬s.KnowsText r.vars v ∧ ¬s.KnowsText r.vars w := by
    rw [Categories.number_eq_number_iff, mem_names_iff h, mem_names_iff h]
  refine ⟨⟨_, _, ha, hb, hnumbers⟩, fun size => ?_⟩
  rw [ha, hb, ← hnumbers, ← Categories.ofInt_number_eq_iff size]
  simp

end

/-- Features of the town that a variable names. -/
private def homeTown : Style where
  filter := .list [.text "==", .list [.text "get", .text "town", .text "string"],
    .list [.text "var", .text "home"]]
  vars := some (.ofList [("home", .text "york")])

private def moved : List Result.Use := [.set "home" (.text "leeds")]

private def yorkFeature : Bindings := .ofList [("town", .text "york")]

/-- One of the texts is known, so the shaders tell them apart. -/
theorem compile_comparesTexts_homeTown :
    ∃ r log, compile homeTown none = (.ok r, log) ∧ r.categories.names = ["york"] ∧
      (TextSource.property "town").value? (r.after moved) yorkFeature = some (.text "york") ∧
      (TextSource.styleVariable "home").value? (r.after moved) yorkFeature =
        some (.text "leeds") ∧
      (TextSource.property "town").numbers? (r.after moved) yorkFeature ≠
        (TextSource.styleVariable "home").numbers? (r.after moved) yorkFeature := by
  have hcompile : (match (compile homeTown none).1 with
      | .ok r => decide (r.categories.names = ["york"] ∧
          ((filterChannel homeTown.filter).expr r.vars).textComparisons =
            [(.property "town", .styleVariable "home")])
      | .error _ => false) = true := by decide +kernel
  rcases hrun : compile homeTown none with ⟨outcome, log⟩
  rw [hrun] at hcompile
  cases outcome with
  | error is => cases hcompile
  | ok r =>
    obtain ⟨hnames, hcomparisons⟩ := of_decide_eq_true hcompile
    have htown : (TextSource.property "town").value? (r.after moved) yorkFeature =
        some (.text "york") := rfl
    have hhome : (TextSource.styleVariable "home").value? (r.after moved) yorkFeature =
        some (.text "leeds") := OrderedMap.get?_insert_self _ _ _
    have hequal := (compile_comparesTexts hrun List.mem_cons_self
      (hcomparisons ▸ List.mem_cons_self) moved yorkFeature htown hhome).2 (by simp [hnames])
    have hyork : homeTown.KnowsText r.vars "york" := (mem_names_iff hrun).mp (by simp [hnames])
    refine ⟨r, log, rfl, hnames, htown, hhome, fun hsame => ?_⟩
    rcases hequal.mp hsame with hsame | ⟨hunknown, -⟩
    · exact absurd hsame (by decide)
    · exact hunknown hyork

/-- Features that lead back to where they come from. -/
private def loops : Style where
  filter := .list [.text "==", .list [.text "get", .text "from", .text "string"],
    .list [.text "get", .text "to", .text "string"]]

private def oneWay : Bindings := .ofList [("from", .text "x"), ("to", .text "y")]

/-- Two texts that are not known are not told apart. -/
theorem compile_comparesTexts_loops :
    ∃ r log, compile loops none = (.ok r, log) ∧ filterChannel loops.filter ∈ loops.channels ∧
      (.property "from", .property "to") ∈
        ((filterChannel loops.filter).expr r.vars).textComparisons ∧
      (TextSource.property "from").value? r oneWay = some (.text "x") ∧
      (TextSource.property "to").value? r oneWay = some (.text "y") ∧
      ¬((TextSource.property "from").numbers? r oneWay =
        (TextSource.property "to").numbers? r oneWay ↔ "x" = "y") := by
  have hcompile : (match (compile loops none).1 with
      | .ok r => decide ((.property "from", .property "to") ∈
            ((filterChannel loops.filter).expr r.vars).textComparisons ∧
          (TextSource.property "from").numbers? r oneWay = some [.finite (-1)] ∧
          (TextSource.property "to").numbers? r oneWay = some [.finite (-1)])
      | .error _ => false) = true := by decide +kernel
  rcases hrun : compile loops none with ⟨outcome, log⟩
  rw [hrun] at hcompile
  cases outcome with
  | error is => cases hcompile
  | ok r =>
    obtain ⟨hcomparison, hfrom, hto⟩ := of_decide_eq_true hcompile
    refine ⟨r, log, rfl, List.mem_cons_self, hcomparison, rfl, rfl, fun hfaithful => ?_⟩
    rw [hfrom, hto] at hfaithful
    exact absurd (hfaithful.mp rfl) (by decide)

end ShaderStyle
