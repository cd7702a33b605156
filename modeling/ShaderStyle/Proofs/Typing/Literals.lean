import ShaderStyle.Proofs.Typing.Assembly
import ShaderStyle.Proofs.Typing.Places
import ShaderStyle.Proofs.Typing.Principal

/-! A style variable is typed like the literal of its value, so that a constant can be replaced by a
variable. Only the size of an array can differ: a literal has as many components as it has numbers,
and a variable as many as its context asks for. -/
namespace ShaderStyle

theorem TypeSet.not_isEmpty_of_has {s : TypeSet} {k : Kind} (h : s.has k = true) :
    ¬s.isEmpty = true := by
  intro hempty
  rw [isEmpty, beq_iff_eq] at hempty
  rw [has, hempty] at h
  exact absurd h (by simp)

namespace Value

/-- The values that are read as literals: finite numbers, truth values, texts, and arrays of two to
four finite numbers. -/
inductive IsLiteral : Value → Prop where
  | number {v : Value} {x : Double} (value : v.number? = some x) (finite : x.isFinite = true) :
      IsLiteral v
  | bool (b : Bool) : IsLiteral (.bool b)
  | text (s : String) : IsLiteral (.text s)
  | array {v : Value} {xs : List Double} (values : v.numbers? = some xs)
      (size : IsVectorSize xs.length) (finite : ∀ x ∈ xs, x.isFinite = true) : IsLiteral v

theorem number?_eq_none_of_numbers? {v : Value} {xs : List Double} (h : v.numbers? = some xs) :
    v.number? = none := by
  cases v with
  | list | doubles | singles | integers => rfl
  | _ => cases h

theorem types_of_number? {v : Value} {x : Double} (h : v.number? = some x) : v.types = .numbers := by
  unfold types
  rw [if_pos (by simp [h])]

theorem types_text (s : String) : (Value.text s).types =
    if Color.isColorText s then .ofList [.string, .color] else .singleton .string := by
  unfold types
  rw [if_neg (by simp [number?, reading, NumberReading.value?])]

/-- The kinds of an array are told by its length. -/
theorem types_of_numbers? {v : Value} {xs : List Double} (h : v.numbers? = some xs) :
    v.types = if xs.length = 2 then .singleton .array
      else if xs.length = 3 || xs.length = 4 then .ofList [.color, .array] else .empty := by
  have hnumber : ¬v.number?.isSome = true := by simp [number?_eq_none_of_numbers? h]
  cases v with
  | list | doubles | singles | integers =>
    unfold types
    rw [if_neg hnumber]
    simp only [h]
  | _ => cases h

end Value

namespace Node

/-- Nodes that stand for a value. -/
def isLiteral : Node → Bool
  | .number _ _ | .bool _ _ | .text _ _ | .array _ _ => true
  | _ => false

variable {path : Path} {v : Value}

theorem read_of_number? {x : Double} (h : v.number? = some x) (finite : x.isFinite = true) :
    read path v = .ok (.number path x) := by
  have hnumber : readNumber path x = .ok (.number path x) := by rw [readNumber, if_pos finite]
  cases v with
  | double | single | integer =>
    cases h
    rw [read]
    exact hnumber
  | numeral s =>
    have hread : (Double.read s).value? = some x := h
    rw [read, hread]
    exact hnumber
  | _ => cases h

theorem readArray_of_finite (path : Path) {xs : List Double} (size : IsVectorSize xs.length)
    (finite : ∀ x ∈ xs, x.isFinite = true) : readArray path xs = .ok (.array path xs) := by
  have hlength : ¬(decide (xs.length < 2) || decide (4 < xs.length)) = true := by
    simp only [IsVectorSize] at size
    simp
    omega
  have hnone : (xs.findIdx? fun x => !x.isFinite) = none := by
    rw [List.findIdx?_eq_none_iff]
    intro x hx
    simp [finite x hx]
  rw [readArray, if_neg hlength, hnone]

theorem read_of_numbers? {xs : List Double} (h : v.numbers? = some xs)
    (size : IsVectorSize xs.length) (finite : ∀ x ∈ xs, x.isFinite = true) :
    read path v = .ok (.array path xs) := by
  have harray := readArray_of_finite path size finite
  cases v with
  | doubles | singles =>
    cases h
    rw [read]
    exact harray
  | integers type ns =>
    rw [read, h]
    exact harray
  | list items =>
    cases items with
    | nil =>
      cases h
      exact absurd size (by decide)
    | cons w ws =>
      -- The first element is a number, so that the array is no call.
      have hfirst : ∀ name, w = .text name → False := by
        rintro name rfl
        cases h
      rw [read, h]
      · exact harray
      · exact hfirst
  | _ => cases h

/-- A literal is read as a node that stands for a value. The node can take the kinds that a variable
with the value can take. -/
theorem read_literal (literal : v.IsLiteral) (path : Path) :
    ∃ n, read path v = .ok n ∧ n.isLiteral = true ∧ ∀ scope, n.types scope = v.types := by
  cases literal with
  | number value finite =>
    refine ⟨_, read_of_number? value finite, rfl, fun scope => ?_⟩
    rw [types, Value.types_of_number? value]
  | bool b =>
    refine ⟨.bool path b, ?_, rfl, fun _ => rfl⟩
    rw [read]
  | text s =>
    refine ⟨.text path s, ?_, rfl, fun scope => ?_⟩
    · rw [read]
    · rw [types, Value.types_text]
  | @array _ xs values size finite =>
    refine ⟨_, read_of_numbers? values size finite, rfl, fun scope => ?_⟩
    rw [types, Value.types_of_numbers? values]
    have hlength : xs.length = 2 ∨ xs.length = 3 ∨ xs.length = 4 := by
      obtain ⟨hlow, hhigh⟩ := size
      omega
    rcases hlength with h | h | h <;> simp [h]

/-- Nothing but a literal is read as a node that stands for a value. -/
theorem isLiteral_of_read {n : Node} (h : read path v = .ok n) (literal : n.isLiteral = true) :
    v.IsLiteral := by
  have hwf := read_wellFormed path v h
  cases readFrom_of_read h with
  | number value =>
    cases hwf with
    | number _ finite => exact .number value finite
  | bool b => exact .bool b
  | text s => exact .text s
  | array values =>
    cases hwf with
    | array _ size finite => exact .array values size finite
  | _ => cases literal

section Resolve

variable {scope : Scope} {n : Node} {expected : TypeSet} {k : Kind}

theorem pickKind_of_pick {available : TypeSet} (path : Path)
    (hpick : (available.inter expected).pick = some k) :
    pickKind path available expected = .ok k := by
  rw [pickKind, hpick]

theorem pickKind_of_pick_none {available : TypeSet} (path : Path)
    (hpick : (available.inter expected).pick = none) :
    pickKind path available expected = .fail path (.unusable available expected) := by
  rw [pickKind, hpick]

theorem exists_ofList? {xs : List Double} (size : IsVectorSize xs.length) (h : 3 ≤ xs.length) :
    ∃ c, Color.ofList? xs = some c := by
  obtain ⟨-, hhigh⟩ := size
  match xs, h, hhigh with
  | [r, g, b], _, _ => exact ⟨_, rfl⟩
  | [r, g, b, a], _, _ => exact ⟨_, rfl⟩

theorem resolve_text (path : Path) (s : String)
    (hpick : (((text path s).types scope).inter expected).pick = some k) :
    ∃ e, (text path s).resolve scope expected = .ok e ∧ e.type.kind? = some k := by
  have hk := TypeSet.has_of_pick hpick
  rw [TypeSet.has_inter, Bool.and_eq_true, types] at hk
  rw [resolve, pickKind_of_pick path hpick]
  by_cases hcolor : Color.isColorText s = true
  · rw [if_pos hcolor] at hk
    obtain ⟨c, hc⟩ := exists_color_of_isColorText hcolor
    have hkinds : k = .string ∨ k = .color := by simpa using hk.1
    rcases hkinds with rfl | rfl
    · exact ⟨.text path s, rfl, rfl⟩
    · rw [hc]
      exact ⟨.color path c, rfl, rfl⟩
  · rw [if_neg hcolor] at hk
    obtain rfl : k = .string := by simpa using hk.1
    exact ⟨.text path s, rfl, rfl⟩

theorem resolve_array (path : Path) {xs : List Double} (size : IsVectorSize xs.length)
    (hpick : (((array path xs).types scope).inter expected).pick = some k) :
    ∃ e, (array path xs).resolve scope expected = .ok e ∧ e.type.kind? = some k := by
  have hk := TypeSet.has_of_pick hpick
  rw [TypeSet.has_inter, Bool.and_eq_true, types] at hk
  rw [resolve, pickKind_of_pick path hpick]
  by_cases hlength : 3 ≤ xs.length
  · rw [if_pos hlength] at hk
    obtain ⟨c, hc⟩ := exists_ofList? size hlength
    have hkinds : k = .color ∨ k = .array := by simpa using hk.1
    rcases hkinds with rfl | rfl
    · rw [hc]
      exact ⟨.color path c, rfl, rfl⟩
    · exact ⟨.array path xs, rfl, rfl⟩
  · rw [if_neg hlength] at hk
    obtain rfl : k = .array := by simpa using hk.1
    exact ⟨.array path xs, rfl, rfl⟩

/-- A literal takes the kind that its context picks. -/
theorem resolve_literal (hn : n.WellFormed) (literal : n.isLiteral = true)
    (hpick : ((n.types scope).inter expected).pick = some k) :
    ∃ e, n.resolve scope expected = .ok e ∧ e.type.kind? = some k := by
  have hk := TypeSet.has_of_pick hpick
  rw [TypeSet.has_inter, Bool.and_eq_true] at hk
  cases n with
  | number path x =>
    obtain rfl : k = .number := by simpa [types] using hk.1
    rw [types] at hpick
    rw [resolve, pickKind_of_pick path hpick]
    exact ⟨.number path x, rfl, rfl⟩
  | bool path b =>
    obtain rfl : k = .boolean := by simpa [types] using hk.1
    rw [types] at hpick
    rw [resolve, pickKind_of_pick path hpick]
    exact ⟨.bool path b, rfl, rfl⟩
  | text path s => exact resolve_text path s hpick
  | array path xs =>
    cases hn with
    | array _ size => exact resolve_array path size hpick
  | _ => cases literal

theorem resolve_literal_error (literal : n.isLiteral = true)
    (hpick : ((n.types scope).inter expected).pick = none) :
    ∃ issues, n.resolve scope expected = .error issues := by
  cases n with
  | number path | bool path =>
    rw [types] at hpick
    rw [resolve, pickKind_of_pick_none path hpick]
    exact ⟨_, rfl⟩
  | text path | array path =>
    rw [resolve, pickKind_of_pick_none path hpick]
    exact ⟨_, rfl⟩
  | _ => cases literal

/-- A variable takes the kind that its context picks among those of its value, and arrays the size of
the scope. -/
theorem resolve_var (path : Path) {name : String} {v : Value} (bound : scope.vars.get? name = some v)
    (hpick : (v.types.inter expected).pick = some k) :
    (var path name).resolve scope expected = .ok (.var path name (.ofKind scope.arraySize k)) := by
  have hk := TypeSet.has_of_pick hpick
  rw [TypeSet.has_inter, Bool.and_eq_true] at hk
  have hne : ¬v.types.isEmpty = true := TypeSet.not_isEmpty_of_has hk.1
  rw [resolve, resolveVar, bound]
  dsimp only
  rw [if_neg hne, pickKind_of_pick path hpick]
  rfl

theorem resolve_var_error (path : Path) {name : String} {v : Value}
    (bound : scope.vars.get? name = some v) (hpick : (v.types.inter expected).pick = none) :
    ∃ issues, (var path name).resolve scope expected = .error issues := by
  rw [resolve, resolveVar, bound]
  dsimp only
  split_ifs
  · exact ⟨_, rfl⟩
  · rw [pickKind_of_pick_none path hpick]
    exact ⟨_, rfl⟩

end Resolve

end Node

namespace Ty

/-- The type with the size of arrays replaced. -/
def resized (size : Nat) : Ty → Ty
  | .array _ => .array size
  | t => t

theorem resized_of_kind? {t : Ty} {k : Kind} (h : t.kind? = some k) (size : Nat) :
    t.resized size = .ofKind size k := by
  cases t <;> cases h <;> rfl

theorem resized_ofKind (size : Nat) (k : Kind) : (ofKind size k).resized size = ofKind size k :=
  resized_of_kind? (kind?_ofKind size k) size

end Ty

/-- A variable that is typed like a literal. Their types are equal except for the size of arrays,
which for the variable is `size`, and none of the two is widened without the other. -/
structure Expr.TypedLike (size : Nat) (literal reference : Expr) : Prop where
  kind : reference.type.kind? = literal.type.kind?
  type : reference.type = literal.type.resized size
  widened : (∃ x t, literal = .widen x t) ↔ ∃ x t, reference = .widen x t

namespace Node

variable {scope : Scope} {n : Node} {expected : TypeSet}

/-- Where the context picks a kind, neither a literal nor a variable is widened. -/
theorem typedLike_of_resolve {path : Path} {name : String} {literal : Expr} {k : Kind}
    (h : n.resolve scope expected = .ok literal) (hkind : literal.type.kind? = some k) :
    literal.TypedLike scope.arraySize (.var path name (.ofKind scope.arraySize k)) where
  kind := by rw [hkind, Expr.type, Ty.kind?_ofKind]
  type := by rw [Ty.resized_of_kind? hkind, Expr.type]
  widened := by
    constructor
    · rintro ⟨x, t, rfl⟩
      exact absurd h (resolve_ne_widen n expected x t)
    · rintro ⟨x, t, hwiden⟩
      cases hwiden

theorem typedLike_widen (size : Nat) (k : Kind) (literal reference : Expr) :
    (Expr.widen literal (.ofKind size k)).TypedLike size (.widen reference (.ofKind size k)) where
  kind := rfl
  type := by simp only [Expr.type, Ty.resized_ofKind]
  widened := ⟨fun _ => ⟨_, _, rfl⟩, fun _ => ⟨_, _, rfl⟩⟩

/-- A literal and a variable that can take the same kinds are built alike in every context. -/
theorem build_typedLike (scope : Scope) {path : Path} {name : String} {v : Value}
    (hn : n.WellFormed) (literal : n.isLiteral = true) (bound : scope.vars.get? name = some v)
    (same : n.types scope = v.types) (expected : TypeSet) :
    Checked.Related (Expr.TypedLike scope.arraySize) (n.build scope expected)
      ((var path name).build scope expected) := by
  have htypes : (var path name).types scope = n.types scope := by
    rw [same, types, bound]
  rw [build, build, widening, widening, htypes]
  cases htarget : widenTarget? scope (n.types scope) expected with
  | some target =>
    -- Both are resolved as numbers, and widened to the same vector.
    unfold widenTarget? at htarget
    split_ifs at htarget with hwiden
    obtain ⟨-, hnumber⟩ := Bool.and_eq_true_iff.mp hwiden
    obtain ⟨k, -, rfl⟩ := Option.map_eq_some_iff.mp htarget
    have hpick := TypeSet.pick_inter_singleton hnumber
    obtain ⟨e, he, -⟩ := resolve_literal hn literal hpick
    rw [same] at hpick
    have hvar := resolve_var path bound hpick
    dsimp only
    rw [TypeSet.numbers, he, hvar]
    exact .ok (typedLike_widen _ k _ _)
  | none =>
    dsimp only
    cases hpick : ((n.types scope).inter expected).pick with
    | some k =>
      obtain ⟨e, he, hkind⟩ := resolve_literal hn literal hpick
      rw [same] at hpick
      rw [resolve_var path bound hpick, he]
      exact .ok (typedLike_of_resolve he hkind)
    | none =>
      obtain ⟨issues, he⟩ := resolve_literal_error literal hpick
      rw [same] at hpick
      obtain ⟨issues', hvar⟩ := resolve_var_error path bound hpick
      rw [he, hvar]
      exact .error _ _

end Node

theorem Node.read_var (path : Path) (name : String) :
    read path (.list [.text "var", .text name]) = .ok (.var path name) := by
  rw [read]
  rfl

/-- A variable whose value is a literal can take the kinds of the literal, and a builder gives the
variable exactly where it gives the literal. The two are then of one kind, with types that differ in
the size of arrays only, and widened in the same contexts. The literals are the values that are read
as nodes that stand for a value. -/
theorem Builder.build_variable (b : Builder) {name : String} {v : Value} (literal : v.IsLiteral)
    (bound : b.vars.get? name = some v) (path path' : Path) :
    (∃ n, Node.read path v = .ok n ∧ n.isLiteral = true ∧ ∀ scope, n.types scope = v.types) ∧
      (∀ w n, Node.read path w = .ok n → n.isLiteral = true → w.IsLiteral) ∧
      ∀ expected, Option.Rel (Expr.TypedLike defaultArraySize) (b.build path v expected).1
        (b.build path' (.list [.text "var", .text name]) expected).1 := by
  obtain ⟨n, hread, hliteral, htypes⟩ := Node.read_literal literal path
  refine ⟨⟨n, hread, hliteral, htypes⟩, fun w m => Node.isLiteral_of_read, fun expected => ?_⟩
  have hwf := Node.read_wellFormed path v hread
  rw [build, build, buildExpr, buildExpr, hread, Node.read_var]
  exact b.rel_collect b
    (Node.build_typedLike ⟨b.vars, defaultArraySize⟩ hwf hliteral bound (htypes _) expected)

/-- The size of a symbol in two directions, as a style variable. -/
private def sizeVariable : Builder :=
  ⟨.ofList [("size", .doubles [.finite 2, .finite 3])], []⟩

theorem Builder.build_variable_array :
    sizeVariable.build ⟨"size"⟩ (.doubles [.finite 2, .finite 3]) .any =
        (some (.array ⟨"size"⟩ [.finite 2, .finite 3]), sizeVariable) ∧
      sizeVariable.build ⟨"size"⟩ (.list [.text "var", .text "size"]) .any =
        (some (.var ⟨"size"⟩ "size" (.array 4)), sizeVariable) ∧
      Expr.TypedLike 4 (.array ⟨"size"⟩ [.finite 2, .finite 3])
        (.var ⟨"size"⟩ "size" (.array 4)) := by
  have hliteral : Value.IsLiteral (.doubles [.finite 2, .finite 3]) :=
    .array rfl (by decide) (by decide)
  have hbound : sizeVariable.vars.get? "size" = some (.doubles [.finite 2, .finite 3]) := by rfl
  have hbuild : sizeVariable.build ⟨"size"⟩ (.doubles [.finite 2, .finite 3]) .any =
      (some (.array ⟨"size"⟩ [.finite 2, .finite 3]), sizeVariable) := by rfl
  have hvar : sizeVariable.build ⟨"size"⟩ (.list [.text "var", .text "size"]) .any =
      (some (.var ⟨"size"⟩ "size" (.array 4)), sizeVariable) := by rfl
  have halike := (build_variable sizeVariable hliteral hbound ⟨"size"⟩ ⟨"size"⟩).2.2 .any
  rw [hbuild, hvar] at halike
  cases halike with
  | some htyped => exact ⟨hbuild, hvar, htyped⟩

end ShaderStyle
