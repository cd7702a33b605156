import ShaderStyle.Proofs.Emission.Context

/-! Emitted texts are read back with the nesting of their expressions, by themselves and in the
places that a compilation puts them. -/
namespace ShaderStyle

open Glsl (Tree Spells Spelled topLevel)

/-- Registries that any use of their operations leads to. The shader is shared with others, who may
change it at any time. -/
inductive Registry.Reachable : Registry → Prop where
  | fresh (shader : Shader) : Reachable { shader }
  | property {r : Registry} (h : Reachable r) (path : Path) (name : String) (type : Ty)
      (stage : Stage) : Reachable ((Registry.property path name type stage).run.run r).2
  | styleVariable {r : Registry} (h : Reachable r) (path : Path) (name : String) (type : Ty) :
      Reachable ((Registry.styleVariable path name type).run.run r).2
  | category {r : Registry} (h : Reachable r) (s : String) :
      Reachable ((Registry.category s).run.run r).2
  | freeze {r : Registry} (h : Reachable r) :
      Reachable { r with categories := r.categories.freeze }
  | shader {r : Registry} (h : Reachable r) (shader : Shader) : Reachable { r with shader }
  | emission {r : Registry} (h : Reachable r) (stage : Stage) {e : Expr}
      (built : e.Built fun _ => True) : Reachable ((emit stage e).run.run r).2

theorem Registry.Reachable.named {r : Registry} (h : r.Reachable) : r.Named := by
  induction h with
  | fresh shader => exact named_fresh shader
  | @property r h path name type stage ih =>
    rcases hrun : (Registry.property path name type stage).run.run r with ⟨outcome, r'⟩
    have hsteps : Steps (fun _ => True) r r' := (property_spec trivial hrun).1
    exact hsteps.named ih
  | @styleVariable r h path name type ih =>
    rcases hrun : (Registry.styleVariable path name type).run.run r with ⟨outcome, r'⟩
    have hsteps : Steps (fun _ => True) r r' := (styleVariable_spec trivial hrun).1
    exact hsteps.named ih
  | category h s ih => exact ⟨ih.ident_eq, ih.varying_eq, ih.uniform_eq⟩
  | freeze h ih => exact ⟨ih.ident_eq, ih.varying_eq, ih.uniform_eq⟩
  | shader h shader ih => exact ⟨ih.ident_eq, ih.varying_eq, ih.uniform_eq⟩
  | @emission r h stage e built ih =>
    rcases hrun : (emit stage e).run.run r with ⟨outcome, r'⟩
    exact (emit_steps built.wellTyped ih hrun).named ih

/-- Texts of emitted code, with the types and the nestings of the expressions. -/
def Emitted (type : Ty) (text : String) (x : Tree) : Prop :=
  ∃ (e : Expr) (stage : Stage) (r r' : Registry) (t : Glsl.Term),
    e.Built (fun _ => True) ∧ r.Reachable ∧ (emit stage e).run.run r = (.ok t, r') ∧
      e.type = type ∧ t.text = text ∧ e.tree stage r'.categories = x

theorem Emitted.spelled {type : Ty} {text : String} {x : Tree} (h : Emitted type text x) :
    Spelled type text x := by
  obtain ⟨e, stage, r, r', t, built, reachable, hemit, rfl, rfl, rfl⟩ := h
  obtain ⟨rfl, hprovided⟩ := emit_ok built.wellTyped reachable.named hemit
  exact built.wellTyped.isSpelled fun ref href => (hprovided ref href).finite

/-- Emitted text is an operand of its own: a literal, a name, a group or a call, with a sign only
where it is a number. It reads back with the nesting of its expression, and so do the texts that it
is put into: the negation of a filter, a vector of two components and its width, and the color of a
symbol that is scaled by an opacity and by the shape. -/
theorem Emitted.reads_back {type : Ty} {text : String} {x : Tree} (h : Emitted type text x) :
    (Glsl.IsOperand text ∨
      ((type = .number ∨ type = .string) ∧
        ∃ digits, Glsl.Token.IsDecimal digits ∧ text = "-" ++ digits)) ∧
    Glsl.parse text = some x ∧
    (type = .boolean → Glsl.parse ("!" ++ text) = some (.not x)) ∧
    Glsl.parse (Compilation.vec2Text text) = some (.call "vec2" [x]) ∧
    Glsl.parse (Compilation.vec2Text text ++ ".x") = some (.field (.call "vec2" [x]) "x") ∧
    (type = .color → ∀ opacity o size s sizeType shape, Emitted .number opacity o →
      Emitted sizeType size s →
      Glsl.parse (Compilation.symbolColorText text opacity
          (Compilation.shapeFilter (Compilation.vec2Text size ++ ".x") shape)) =
        some (.call "vec4" [.field x "rgb", .binary .mul (.binary .mul (.field x "a") o)
          (shape.opacity (.field (.call "vec2" [s]) "x"))])) := by
  have hspelled := h.spelled
  have htop := hspelled.spells topLevel (by decide) (by decide)
  refine ⟨?_, htop.parse_eq (by decide), ?_, (Compilation.spells_vec2 htop).parse_eq (by decide),
    (Compilation.spells_width htop).parse_eq (by decide), ?_⟩
  · cases hspelled with
    | operand form => exact Or.inl form
    | signed scalar form => exact Or.inr ⟨scalar, _, form, rfl⟩
  · intro htype
    obtain ⟨form, hspells⟩ := hspelled.plain (by simp [htype]) (by simp [htype])
    have hnot := Spells.not form.apart_bang (hspells.of_le (by decide) (by decide))
    exact hnot.parse_eq (by decide)
  · intro htype opacity o size s sizeType shape hopacity hsize
    obtain ⟨-, hcolor⟩ := hspelled.plain (by simp [htype]) (by simp [htype])
    have ho := hopacity.spelled.spells 1 (by decide) (by decide)
    have hwidth := Compilation.spells_width (hsize.spelled.spells topLevel (by decide) (by decide))
    have hshape := Compilation.spells_shapeFilter hwidth (by simp [Compilation.vec2Text]) shape
    exact (Compilation.spells_symbolColor hcolor ho (hshape.of_le (by decide) (by decide))).parse_eq
      (by decide)

/-- A switch that is turned around. -/
private def switched : Value :=
  .list [.text "!", .list [.text "get", .text "on", .text "boolean"]]

private def switchedExpr : Expr :=
  .call ⟨"filter"⟩ .not [.get ⟨"filter[1]"⟩ "on" .boolean] .boolean

theorem Emitted.reads_back_switched :
    Glsl.parse "(!(a_on > 0.0))" =
        some (.not (.binary .greater (.name "a_on") (.number "0.0"))) ∧
      Glsl.parse "!(!(a_on > 0.0))" =
        some (.not (.not (.binary .greater (.name "a_on") (.number "0.0")))) := by
  have hbuild : Builder.build ⟨.empty, []⟩ ⟨"filter"⟩ switched .booleans =
      (some switchedExpr, ⟨.empty, []⟩) := by cbv
  have h : Emitted .boolean "(!(a_on > 0.0))"
      (.not (.binary .greater (.name "a_on") (.number "0.0"))) :=
    ⟨switchedExpr, .vertex, {}, _, _, ⟨_, _, _, _, Or.inl ⟨_, hbuild⟩⟩, .fresh {}, rfl, rfl,
      by decide +kernel, by rfl⟩
  exact ⟨h.reads_back.2.1, h.reads_back.2.2.1 rfl⟩

end ShaderStyle
