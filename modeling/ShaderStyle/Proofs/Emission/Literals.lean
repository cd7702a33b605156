import ShaderStyle.Proofs.Emission.Term

/-! The texts of an expression and the table of texts: emission registers them in order. -/
namespace ShaderStyle

namespace Registry

variable {α β : Type}

/-- Leaves the table of texts as it is. -/
def KeepsTexts (m : RegistryM α) : Prop := ∀ r, (m.run.run r).2.categories = r.categories

namespace KeepsTexts

theorem pure (a : α) : KeepsTexts (Pure.pure a) := fun _ => rfl

theorem fail (path : Path) (cause : Cause) : KeepsTexts (Registry.fail path cause : RegistryM α) :=
  fun _ => rfl

theorem get : KeepsTexts (MonadState.get : RegistryM Registry) := fun _ => rfl

theorem bind {m : RegistryM α} {f : α → RegistryM β} (h : KeepsTexts m)
    (h' : ∀ a, KeepsTexts (f a)) : KeepsTexts (m >>= f) := by
  intro r
  have hfirst := h r
  rw [run_bind]
  rcases hrun : m.run.run r with ⟨outcome, r'⟩
  rw [hrun] at hfirst
  cases outcome with
  | ok a => exact (h' a r').trans hfirst
  | error i => exact hfirst

theorem claim (path : Path) (ident name : String) :
    KeepsTexts (Registry.claim path ident name) := by
  refine get.bind fun r => ?_
  cases r.idents.get? ident with
  | none => exact fun _ => rfl
  | some previous =>
    dsimp only
    split
    · exact .fail path _
    · exact .pure ()

theorem declare (path : Path) (change : Shader → Except Conflict Shader) :
    KeepsTexts (Registry.declare path change) := by
  refine get.bind fun r => ?_
  cases change r.shader with
  | ok shader => exact fun _ => rfl
  | error conflict => exact .fail path _

theorem checkType (path : Path) (what name : String) (previous type : Ty) :
    KeepsTexts (Registry.checkType path what name previous type) := by
  unfold Registry.checkType
  split
  · exact .pure ()
  · exact .fail path _

theorem registerAttribute (path : Path) (name : String) (type : Ty) :
    KeepsTexts (Registry.registerAttribute path name type) := by
  refine get.bind fun r => ?_
  cases r.attributes.get? name with
  | some known => exact (checkType path _ _ _ _).bind fun _ => .pure known
  | none =>
    refine (claim path _ _).bind fun _ => (declare path _).bind fun _ => ?_
    exact bind (fun _ => rfl) fun _ => .pure _

theorem property (path : Path) (name : String) (type : Ty) (stage : Stage) :
    KeepsTexts (Registry.property path name type stage) := by
  refine (registerAttribute path name type).bind fun known => ?_
  cases stage with
  | vertex => exact .pure _
  | fragment =>
    cases known.varying with
    | some varying => exact .pure varying
    | none =>
      refine (claim path _ _).bind fun _ => ?_
      have hlast (change : Shader → Except Conflict Shader) (f : Registry → Registry)
          (hf : ∀ r, (f r).categories = r.categories) (ident : String) :
          KeepsTexts (do Registry.declare path change; modify f; return ident) :=
        (declare path change).bind fun _ => bind (fun r => hf r) fun _ => .pure ident
      dsimp only
      split
      · refine bind (fun _ => rfl) fun _ => ?_
        apply hlast
        exact fun _ => rfl
      · apply hlast
        exact fun _ => rfl

theorem styleVariable (path : Path) (name : String) (type : Ty) :
    KeepsTexts (Registry.styleVariable path name type) := by
  refine get.bind fun r => ?_
  cases r.vars.get? name with
  | some v => exact (checkType path _ _ _ _).bind fun _ => .pure v.ident
  | none =>
    refine (claim path _ _).bind fun _ => (declare path _).bind fun _ => ?_
    exact bind (fun _ => rfl) fun _ => .pure _

theorem literal (path : Path) (outcome : Except Glsl.NonFinite Glsl.Term) :
    KeepsTexts (Emission.literal path outcome) := by
  cases outcome with
  | ok t => exact .pure t
  | error e => exact .fail path _

end KeepsTexts

end Registry

namespace Reference

/-- The text that a reference registers. -/
def literals : Reference → List String
  | .text _ s => [s]
  | _ => []

theorem emit_categories (stage : Stage) (ref : Reference) (r : Registry) :
    ((ref.emit stage).run.run r).2.categories = r.categories.registerEach ref.literals := by
  cases ref with
  | property path name type =>
    refine (Registry.KeepsTexts.property path name type stage).bind (fun ident => ?_) r
    split
    · exact Registry.KeepsTexts.bind (fun _ => rfl) fun _ => .pure _
    · exact .pure _
  | styleVariable path name type =>
    refine (Registry.KeepsTexts.styleVariable path name type).bind (fun ident => ?_) r
    split
    · exact Registry.KeepsTexts.bind (fun _ => rfl) fun _ => .pure _
    · exact .pure _
  | text path s =>
    rw [emit, Registry.run_bind_ok (Registry.category_run s r)]
    exact Registry.KeepsTexts.literal path _ _
  | number path x => exact Registry.KeepsTexts.literal path _ r

end Reference

theorem registerAll_categories {stage : Stage} {refs : List Reference} {r r' : Registry}
    (h : (registerAll stage refs).run.run r = (.ok (), r')) :
    r'.categories = r.categories.registerEach (refs.flatMap Reference.literals) := by
  induction refs generalizing r with
  | nil =>
    cases h
    rfl
  | cons ref refs ih =>
    rcases Registry.run_bind_cases h with ⟨i, -, herror⟩ | ⟨t, r₁, hfirst, hrest⟩
    · cases herror
    · have hcategories := ref.emit_categories stage r
      rw [hfirst] at hcategories
      rw [ih hrest, hcategories, List.flatMap_cons, Categories.registerEach_append]

/-- The texts of an expression, in the order in which its parts are visited. -/
def Expr.literals (e : Expr) : List String := e.references.flatMap Reference.literals

theorem Expr.mem_literals {e : Expr} {s : String} :
    s ∈ e.literals ↔ ∃ path, .text path s ∈ e.references := by
  rw [literals, List.mem_flatMap]
  constructor
  · rintro ⟨ref, href, hs⟩
    cases ref with
    | text path t =>
      obtain rfl := List.mem_singleton.mp hs
      exact ⟨path, href⟩
    | _ => cases hs
  · rintro ⟨path, href⟩
    exact ⟨_, href, List.mem_singleton.mpr rfl⟩

/-- The texts of an expression are settled once its references are registered. -/
theorem Expr.settled_literals {e : Expr} {stage : Stage} {r : Registry}
    (provided : ∀ ref ∈ e.references, ref.Provided stage r) :
    ∀ s ∈ e.literals, r.categories.Settled s := by
  intro s hs
  obtain ⟨path, href⟩ := mem_literals.mp hs
  exact (provided _ href).1

section Outcome

variable {sizes : Nat → Prop} {stage : Stage} {e : Expr} {r r' : Registry}

theorem emit_categories (typed : e.WellTyped sizes) (named : r.Named) {t : Glsl.Term}
    (h : (emit stage e).run.run r = (.ok t, r')) :
    r'.categories = r.categories.registerEach e.literals := by
  obtain ⟨registered, hall, houtcome⟩ := exists_registerAll_of_emit typed named h
  cases registered with
  | ok _ => exact registerAll_categories hall
  | error i => cases houtcome

/-- The code of an expression stays right while the table grows. -/
theorem Expr.WellTyped.term_eq_of_grows (typed : e.WellTyped sizes) {c c' : Categories}
    (grows : c.Grows c') (settled : ∀ s ∈ e.literals, c.Settled s) :
    e.term stage c' = e.term stage c :=
  (typed.emits stage).stable c c' grows fun path s href =>
    settled s (Expr.mem_literals.mpr ⟨path, href⟩)

end Outcome

end ShaderStyle
