import ShaderStyle.Proofs.Emission.Sequence
import ShaderStyle.Proofs.Emission.Uses

/-! What a registry keeps whatever is done with it, also where an expression that no builder makes
is emitted and where uniforms are declared that belong to no variable. An expression that was
emitted once is emitted again with the same code, and nothing is registered for it. -/
namespace ShaderStyle

theorem Glsl.uniformName_ne_of_foreign {name : String} (foreign : ¬"u_var_".toList <+: name.toList)
    (other : String) : Glsl.uniformName other ≠ name := by
  rintro rfl
  rw [Glsl.uniformName, String.toList_append] at foreign
  exact foreign (List.prefix_append _ _)

namespace Registry

/-- One operation on a registry and its shader, whether it is accepted or refused. -/
inductive Operation (r : Registry) : Registry → Prop where
  | use {r' : Registry} (h : Use r r') : Operation r r'
  /-- Any expression, also one that no builder makes. -/
  | emission (stage : Stage) (e : Expr) : Operation r ((emit stage e).run.run r).2
  /-- A uniform that belongs to no variable, such as a texture. -/
  | uniform (path : Path) (name type : String) (foreign : ¬"u_var_".toList <+: name.toList) :
      Operation r ((declare path fun s => s.addUniform name type).run.run r).2

/-- Any number of operations. -/
def Operations : Registry → Registry → Prop := Relation.ReflTransGen Operation

/-- What a shader declares besides the tables does not matter. -/
theorem Kept.of_uniform {others : List String} {r : Registry} (hr : r.Tabled others)
    {name type : String} (foreign : ¬"u_var_".toList <+: name.toList) {shader : Shader}
    (declared : r.shader.addUniform name type = .ok shader) :
    Kept (name :: others) r { r with shader } where
  tabled := by
    obtain ⟨properties, passed, styleVariables, htables⟩ := hr
    have hforeign := htables.cons_other (Glsl.uniformName_ne_of_foreign foreign)
    exact ⟨_, _, _, hforeign.addUniform List.mem_cons_self declared⟩
  grows := .refl
  provided hp := by
    obtain ⟨uniforms, -, rfl⟩ := Shader.addUniform_cases declared
    exact hp

/-- A computation keeps what a registry has, however it ends. -/
def Keeping {α : Type} (m : RegistryM α) : Prop :=
  ∀ (others : List String) (r : Registry), r.Tabled others → Kept others r (m.run.run r).2

namespace Keeping

variable {α β : Type}

theorem pure (a : α) : Keeping (Pure.pure a : RegistryM α) := fun _ _ => .refl

theorem fail (path : Path) (cause : Cause) : Keeping (Registry.fail path cause : RegistryM α) :=
  fun _ _ => .refl

theorem bind {m : RegistryM α} {f : α → RegistryM β} (h : Keeping m) (h' : ∀ a, Keeping (f a)) :
    Keeping (m >>= f) := by
  intro others r hr
  have hfirst := h others r hr
  rw [run_bind]
  rcases hrun : m.run.run r with ⟨outcome, r₁⟩
  rw [hrun] at hfirst
  cases outcome with
  | ok a => exact hfirst.trans (h' a others r₁ hfirst.tabled)
  | error i => exact hfirst

theorem of_use {m : RegistryM α} (h : ∀ r, Use r (m.run.run r).2) : Keeping m :=
  fun _ r hr => (h r).kept hr

theorem unpack (stage : Stage) : Keeping (addFunction stage Glsl.unpackFunction) := by
  intro others r hr
  have hstep : Step (fun _ => True) r _ := .unpack stage
  obtain ⟨properties, passed, styleVariables, htables⟩ := hr
  exact ⟨⟨_, _, _, htables.addFunction stage _⟩, hstep.grows, hstep.provided⟩

theorem literal (path : Path) (outcome : Except Glsl.NonFinite Glsl.Term) :
    Keeping (Emission.literal path outcome) := by
  cases outcome with
  | ok t => exact .pure t
  | error e => exact .fail path _

theorem emitGet (stage : Stage) (path : Path) (name : String) (type : Ty) :
    Keeping (Emission.emitGet stage path name type) := by
  refine (of_use fun _ => .property path name type stage).bind fun ident => ?_
  split
  · exact (unpack .vertex).bind fun _ => .pure _
  · exact .pure _

theorem emitVar (stage : Stage) (path : Path) (name : String) (type : Ty) :
    Keeping (Emission.emitVar stage path name type) := by
  refine (of_use fun _ => .styleVariable path name type).bind fun ident => ?_
  split
  · exact (unpack stage).bind fun _ => .pure _
  · exact .pure _

-- What becomes of an expression that is not well typed is not known from its references, so the
-- induction follows emission itself.
mutual

theorem emit (stage : Stage) : (e : Expr) → Keeping (Emission.emit stage e)
  | .number path x => literal path _
  | .bool _ b => .pure _
  | .text path s => (of_use fun _ => .category s).bind fun _ => literal path _
  | .color path c => literal path _
  | .array path xs => literal path _
  | .get path name type => emitGet stage path name type
  | .var path name type => emitVar stage path name type
  | .builtin path name => by
    rw [Emission.emit]
    split
    · exact .pure _
    · exact .fail path _
  | .call path op args _ => (emitList stage args).bind fun ts => by
    split
    · exact .pure _
    · exact .fail path _
  | .interpolate path exponent input stops spare _ =>
    (literal path _).bind fun _ => (emit stage input).bind fun _ =>
      (emitPairs stage stops).bind fun ts => by
        cases ts with
        | nil =>
          dsimp only
          split
          · exact .fail path _
          · exact .pure _
        | cons t ts => exact .pure _
  | .select _ input alternatives _ fallback _ =>
    (emit stage input).bind fun _ => (emit stage fallback).bind fun _ =>
      emitAlternatives stage _ _ alternatives
  | .cases _ alternatives fallback _ =>
    (emit stage fallback).bind fun _ => emitAlternatives stage _ _ alternatives
  | .widen x type => (emit stage x).bind fun _ => .pure _

theorem emitList (stage : Stage) : (es : List Expr) → Keeping (Emission.emitList stage es)
  | [] => .pure _
  | e :: es => (emit stage e).bind fun _ => (emitList stage es).bind fun _ => .pure _

theorem emitPairs (stage : Stage) :
    (ps : List (Expr × Expr)) → Keeping (Emission.emitPairs stage ps)
  | [] => .pure _
  | (a, b) :: rest => (emit stage a).bind fun _ => (emit stage b).bind fun _ =>
    (emitPairs stage rest).bind fun _ => .pure _

theorem emitAlternatives (stage : Stage) (condition : Glsl.Term → Glsl.Term)
    (fallback : Glsl.Term) :
    (ps : List (Expr × Expr)) → Keeping (Emission.emitAlternatives stage condition fallback ps)
  | [] => .pure _
  | (a, b) :: rest => (emitAlternatives stage condition fallback rest).bind fun _ =>
    (emit stage a).bind fun _ => (emit stage b).bind fun _ => .pure _

end

end Keeping

variable {others : List String} {r r' : Registry}

theorem Operation.kept (h : Operation r r') (hr : r.Tabled others) :
    ∃ others, Kept others r r' := by
  cases h with
  | use h => exact ⟨others, h.kept hr⟩
  | emission stage e => exact ⟨others, Keeping.emit stage e others r hr⟩
  | uniform path name type foreign =>
    rcases hrun : (declare path fun s => s.addUniform name type).run.run r with ⟨outcome, r'⟩
    rcases declare_cases hrun with ⟨shader, hshader, -, rfl⟩ | ⟨conflict, -, -, rfl⟩
    · exact ⟨name :: others, .of_uniform hr foreign hshader⟩
    · exact ⟨others, .refl hr⟩

theorem Operations.kept (h : Operations r r') (hr : r.Tabled others) :
    ∃ others, Kept others r r' := by
  induction h with
  | refl => exact ⟨others, .refl hr⟩
  | tail _ hstep ih =>
    obtain ⟨_, hkept⟩ := ih
    obtain ⟨_, hlast⟩ := hstep.kept hkept.tabled
    exact ⟨_, hkept.trans hlast⟩

/-- Every registry that operations can reach has its tables in order. -/
theorem Operations.tabled (h : Operations {} r) : ∃ others, r.Tabled others := by
  have hfresh : Tabled [] {} := ⟨_, _, _, tables_fresh nofun⟩
  obtain ⟨others, hkept⟩ := h.kept hfresh
  exact ⟨others, hkept.tabled⟩

end Registry

open Registry (Operation Operations)

/-- An expression that was emitted is emitted with the same code at any time later, and the registry
and its shader stay as they are. -/
theorem emit_stable {stage : Stage} {e : Expr} (built : e.Built fun _ => True)
    {r r₁ r₂ : Registry} (reached : Operations {} r) {t : Glsl.Term}
    (first : (emit stage e).run.run r = (.ok t, r₁)) (further : Operations r₁ r₂) :
    (emit stage e).run.run r₂ = (.ok t, r₂) := by
  have typed := built.wellTyped
  obtain ⟨others, htabled⟩ := reached.tabled
  obtain ⟨rfl, hprovided⟩ := emit_ok typed htabled.named first
  have hfirst : Operation r r₁ := by
    have hop := Operation.emission (r := r) stage e
    rwa [first] at hop
  obtain ⟨_, hkept₁⟩ := hfirst.kept htabled
  obtain ⟨_, hkept⟩ := further.kept hkept₁.tabled
  have hnamed := hkept.tabled.named
  rw [emit, (typed.emits stage).run r₂ hnamed,
    hnamed.registerAll_again fun ref href => hkept.provided (hprovided ref href)]
  -- The numbers of the texts are still those of the first time.
  dsimp only
  rw [typed.term_eq_of_grows hkept.grows (Expr.settled_literals hprovided)]

/-- A color by kind. -/
private def tintByKind : Expr :=
  builtFrom ⟨"fill-color"⟩ (.list [.text "match", .list [.text "get", .text "kind"], .text "low",
    .list [.text "get", .text "tint"], .list [.text "get", .text "shade"]]) (.singleton .color)

/-- A texture is declared, a property is refused and the table of texts is closed. -/
private def textured (r : Registry) : Registry :=
  let texture := Registry.declare ⟨"symbol"⟩ fun s => s.addUniform "u_texture" "sampler2D"
  let refused := Registry.property ⟨"size"⟩ "kind" .number .vertex
  let r₁ := (refused.run.run (texture.run.run r).2).2
  { r₁ with categories := r₁.categories.freeze }

theorem emit_stable_tintByKind :
    ∃ t r, (emit .vertex tintByKind).run.run {} = (.ok t, r) ∧
      t.text = "(a_kind == 0.0 ? unpackColor(a_tint) : unpackColor(a_shade))" ∧
      (emit .vertex tintByKind).run.run (textured r) = (.ok t, textured r) := by
  have hbuilt : tintByKind.Built fun _ => True := built_builtFrom (by decide +kernel)
  have hemit : ((emit .vertex tintByKind).run.run {}).1.toOption.map Glsl.Term.text =
      some "(a_kind == 0.0 ? unpackColor(a_tint) : unpackColor(a_shade))" := by decide +kernel
  rcases hrun : (emit .vertex tintByKind).run.run {} with ⟨outcome, r⟩
  rw [hrun] at hemit
  cases outcome with
  | error i => cases hemit
  | ok t =>
    refine ⟨t, r, rfl, Option.some.inj hemit, emit_stable hbuilt .refl hrun ?_⟩
    have htexture := Relation.ReflTransGen.single (Operation.uniform (r := r) ⟨"symbol"⟩
      "u_texture" "sampler2D" (by decide))
    exact (htexture.tail (.use (.property ⟨"size"⟩ "kind" .number .vertex))).tail (.use .freeze)

end ShaderStyle
