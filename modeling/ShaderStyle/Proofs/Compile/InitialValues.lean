import ShaderStyle.Proofs.Compile.Widths
import ShaderStyle.Proofs.Emission.Leaves
import ShaderStyle.Proofs.Typing.Literals

/-! What uniforms hold before anything is set: inference admits exactly the values that can be read
as the kind, so the variables of a compiled style are encoded as what they are. -/
namespace ShaderStyle

open Compilation (Channel)

namespace Value

variable {v : Value} {xs : List Double}

/-- Whether a value can be read as one of a kind. -/
def ReadsAs (v : Value) : Kind → Prop
  | .number => ∃ x, v.number? = some x
  | .boolean => ∃ b, v = .bool b
  | .string => ∃ s, v = .text s
  | .color => ∃ c, Color.ofValue v = .ok c
  | .array => ∃ xs, v.numbers? = some xs ∧ IsVectorSize xs.length

theorem ofValue_of_numbers? (h : v.numbers? = some xs) :
    (∃ c, Color.ofValue v = .ok c) ↔ xs.length = 3 ∨ xs.length = 4 := by
  have hlist : (∃ c, Color.ofValue v = .ok c) ↔ (Color.ofList? xs).isSome = true := by
    cases v with
    | list | doubles | singles | integers =>
      simp only [Color.ofValue, h]
      cases Color.ofList? xs <;> simp
    | _ => cases h
  rw [hlist]
  match xs with
  | [] | [_] | [_, _] | [_, _, _] | [_, _, _, _] => simp [Color.ofList?]
  | _ :: _ :: _ :: _ :: _ :: _ => simp [Color.ofList?]

theorem types_has_of_numbers? (h : v.numbers? = some xs) (k : Kind) :
    v.types.has k = true ↔ v.ReadsAs k := by
  have hother : (∀ b, v ≠ .bool b) ∧ ∀ s, v ≠ .text s := by
    cases v with
    | list | doubles | singles | integers => exact ⟨nofun, nofun⟩
    | _ => cases h
  rw [types_of_numbers? h]
  cases k with
  | number =>
    simp only [ReadsAs, number?_eq_none_of_numbers? h]
    split_ifs <;> simp
  | boolean =>
    simp only [ReadsAs, hother.1]
    split_ifs <;> simp
  | string =>
    simp only [ReadsAs, hother.2]
    split_ifs <;> simp
  | color =>
    simp only [ReadsAs, ofValue_of_numbers? h]
    split_ifs <;> simp_all
  | array =>
    simp only [ReadsAs, h, Option.some.injEq, exists_eq_left', IsVectorSize]
    split_ifs <;> simp_all <;> omega

theorem types_has_of_text (s : String) (k : Kind) :
    (text s).types.has k = true ↔ (text s).ReadsAs k := by
  have hcolor : (∃ c, Color.ofValue (text s) = .ok c) ↔ Color.isColorText s = true := by
    simp only [Color.ofValue, Color.isColorText]
    cases Color.ofText s <;> simp [Except.toBool]
  rw [types_text]
  cases k with
  | color =>
    rw [ReadsAs, hcolor]
    split_ifs with hs <;> simp [hs]
  | _ => split_ifs <;> simp [ReadsAs, number?, reading, NumberReading.value?, numbers?]

/-- Inference admits a value as one of a kind exactly where it can be read as one. -/
theorem types_has_iff (v : Value) (k : Kind) : v.types.has k = true ↔ v.ReadsAs k := by
  cases hnumbers : v.numbers? with
  | some xs => exact types_has_of_numbers? hnumbers k
  | none =>
    cases v with
    | text s => exact types_has_of_text s k
    | numeral s =>
      cases hread : (numeral s).number? <;> cases k <;>
        simp [types, ReadsAs, hread, hnumbers, Color.ofValue]
    | _ =>
      cases k <;>
        simp [types, ReadsAs, number?, reading, NumberReading.value?, Color.ofValue, hnumbers]

end Value

/-- The numbers of a value that is one of the type, as opposed to those of a missing one. -/
def Categories.Encodes (c : Categories) (v : Value) (numbers : List Double) : Ty → Prop
  | .number => ∃ x, v.number? = some x ∧ numbers = [x]
  | .boolean => ∃ b, v = .bool b ∧ numbers = [if b then .finite 1 else .finite 0]
  | .string => ∃ s, v = .text s ∧ 0 ≤ c.number s ∧ numbers = [.ofInt (c.number s)]
  | .color => ∃ color, Color.ofValue v = .ok color ∧ numbers = color.pack.toList
  /- The numbers of the array in their order; what is missing is zero. -/
  | .array n => ∃ xs, v.numbers? = some xs ∧ IsVectorSize xs.length ∧ numbers.length = n ∧
      ∀ i < n, numbers[i]? = some (xs[i]?.getD (.finite 0))
  | .invalid => False

theorem getElem?_padded {n i : Nat} (hi : i < n) (xs : List Double) :
    (padded n xs)[i]? = some (xs[i]?.getD (.finite 0)) := by
  rw [padded, List.getElem?_append, List.length_take, List.getElem?_take, List.getElem?_replicate]
  by_cases hlength : i < xs.length
  · rw [if_pos (by omega), if_pos hi, List.getElem?_eq_getElem hlength]
    rfl
  · rw [if_neg (by omega), if_pos (by omega), List.getElem?_eq_none (by omega)]
    rfl

/-- A value that inference admits is encoded as what it is. A text has to be in the table. -/
theorem encodes_encode {c : Categories} {v : Value} {type : Ty} (admitted : v.types.Accepts type)
    (known : ∀ s, type = .string → v = .text s → s ∈ c.names) :
    c.Encodes v (encode type c (some v)) type := by
  obtain ⟨k, hkind, hk⟩ := admitted
  have hreads := (v.types_has_iff k).mp hk
  cases type with
  | invalid => cases hkind
  | number =>
    cases hkind
    obtain ⟨x, hx⟩ := hreads
    refine ⟨x, hx, ?_⟩
    unfold Value.number? at hx
    cases hreading : v.reading with
    | value y =>
      rw [hreading] at hx
      cases hx
      simp [encode, hreading, NumberReading.fallback]
    | overflow | malformed =>
      rw [hreading] at hx
      cases hx
  | boolean =>
    cases hkind
    obtain ⟨b, rfl⟩ := hreads
    exact ⟨b, rfl, rfl⟩
  | string =>
    cases hkind
    obtain ⟨s, rfl⟩ := hreads
    exact ⟨s, rfl, Categories.number_nonneg_iff.mpr (known s rfl rfl), rfl⟩
  | color =>
    cases hkind
    obtain ⟨color, hcolor⟩ := hreads
    refine ⟨color, hcolor, ?_⟩
    simp [encode, hcolor]
  | array n =>
    cases hkind
    obtain ⟨xs, hxs, hlength⟩ := hreads
    have hencode : encode (.array n) c (some v) = padded n xs := by simp [encode, hxs]
    rw [hencode]
    exact ⟨xs, hxs, hlength, length_padded n xs, fun i hi => getElem?_padded hi xs⟩

/-- The leaves of a channel that can be built are valid. -/
theorem Compilation.Channel.validLeaves {vars : Bindings} {ch : Channel} {e : Expr}
    (h : ch.outcome vars = .ok e) : e.ValidLeaves vars := by
  unfold outcome at h
  split at h
  · exact valid_buildExpr ⟨vars, defaultArraySize⟩ _ _ _ e h
  · exact valid_buildOfType vars _ _ _ e h

theorem Expr.ValidLeaves.styleVariable {vars : Bindings} {e : Expr} (h : e.ValidLeaves vars)
    {p : String × Ty} (hp : p ∈ e.styleVariables) :
    ∃ v, vars.get? p.1 = some v ∧ v.types.Accepts p.2 := by
  obtain ⟨n, hn, hvariable⟩ := List.mem_filterMap.mp hp
  have hleaf := h n hn
  cases n with
  | var path name type =>
    cases hvariable
    exact hleaf
  | _ => cases hvariable

section

variable {s : Style} {store : Option Bindings} {r : Result} {log : List LogEntry}

/-- Every uniform stands for a variable that some channel refers to, at the same type. -/
theorem exists_channel_of_uniform (h : compile s store = (.ok r, log)) {u : Variable}
    (hu : u ∈ r.uniforms) :
    ∃ ch : Channel, ch.outcome r.vars = .ok (ch.expr r.vars) ∧
      (u.name, u.type) ∈ (ch.expr r.vars).styleVariables := by
  obtain ⟨registry, htrace, -, -, -, huniforms, -⟩ := compile_ok h
  rw [huniforms, htrace.records_all.tables.vars.values] at hu
  obtain ⟨p, hp, rfl⟩ := List.mem_map.mp hu
  obtain ⟨q, hq, hp⟩ := List.mem_flatMap.mp (List.mem_eraseDups.mp hp)
  obtain ⟨ch, hevent, href⟩ := Compilation.exists_emitted_of_mem_requests hq
  refine ⟨ch, htrace.outcome_eq hevent, ?_⟩
  rw [Expr.styleVariables_eq]
  exact List.mem_flatMap.mpr ⟨q.2, href, hp⟩

/-- In every compiled style the uniforms start with the values of their variables: each variable is
defined, its value is admitted at the type of the uniform, and it is encoded as what it is. -/
theorem compile_initialValues (h : compile s store = (.ok r, log)) :
    ∀ u ∈ r.uniforms, ∃ v, (store.getD (s.vars.getD .empty)).get? u.name = some v ∧
      v.types.Accepts u.type ∧ r.categories.Encodes v (r.uniformValue u) u.type := by
  intro u hu
  obtain ⟨registry, -, hvars, -⟩ := compile_ok h
  obtain ⟨ch, built, hvariable⟩ := exists_channel_of_uniform h hu
  obtain ⟨v, bound, admitted⟩ := (Channel.validLeaves built).styleVariable hvariable
  refine ⟨v, hvars ▸ bound, admitted, ?_⟩
  have hvalue : r.uniformValue u = encode u.type r.categories (some v) := by
    rw [Result.uniformValue, bound]
  rw [hvalue]
  refine encodes_encode admitted fun t htype htext => ?_
  exact mem_names_of_uniform h hu htype (htext ▸ bound)

end

/-- Symbols of a kind, a tint and a shift that can be set, shown while a switch is on. -/
private def switchboard : Style where
  filter := .list [.text "var", .text "shown"]
  symbol := some {
    symbolType := "square"
    color := .list [.text "var", .text "tint"]
    offset := .list [.text "var", .text "shift"]
    opacity := .list [.text "match", .list [.text "var", .text "kind"],
      .text "ghost", .list [.text "var", .text "faint"], .double (.finite 1)] }
  vars := some (.ofList [("shown", .bool true), ("tint", .text "red"),
    ("shift", .list [.integer .int 1, .numeral "2", .double (.finite 3)]), ("kind", .text "solid"),
    ("faint", .numeral "0.5")])

theorem compile_initialValues_switchboard :
    ∃ r log, compile switchboard none = (.ok r, log) ∧
      r.uniforms.map (fun u => (u.name, u.type, r.uniformValue u)) =
        [("shown", .boolean, [.finite 1]), ("shift", .array 2, [.finite 1, .finite 2]),
          ("tint", .color, [.finite 65280, .finite 255]), ("kind", .string, [.finite 1]),
          ("faint", .number, [.finite (1 / 2)])] ∧
      ∀ u ∈ r.uniforms, ∃ v, (switchboard.vars.getD .empty).get? u.name = some v ∧
        v.types.Accepts u.type ∧ r.categories.Encodes v (r.uniformValue u) u.type := by
  have hcompile : (match (compile switchboard none).1 with
      | .ok r => decide (r.uniforms.map (fun u => (u.name, u.type, r.uniformValue u)) =
          [("shown", .boolean, [.finite 1]), ("shift", .array 2, [.finite 1, .finite 2]),
            ("tint", .color, [.finite 65280, .finite 255]), ("kind", .string, [.finite 1]),
            ("faint", .number, [.finite (1 / 2)])])
      | .error _ => false) = true := by decide +kernel
  rcases hrun : compile switchboard none with ⟨outcome, log⟩
  rw [hrun] at hcompile
  cases outcome with
  | error is => cases hcompile
  | ok r => exact ⟨r, log, rfl, of_decide_eq_true hcompile, compile_initialValues hrun⟩

end ShaderStyle
