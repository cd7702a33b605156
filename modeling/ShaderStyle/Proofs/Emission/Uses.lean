import ShaderStyle.Proofs.Emission.Copies
import ShaderStyle.Proofs.Emission.Passing
import ShaderStyle.Proofs.Typing.Soundness

/-! What a registry keeps however it is used. An expression that the vertex shader has can be copied
to the fragment shader at any time later. -/
namespace ShaderStyle

namespace Registry

/-- One use of a registry, whether it is accepted or refused. -/
inductive Use (r : Registry) : Registry → Prop where
  | property (path : Path) (name : String) (type : Ty) (stage : Stage) :
      Use r ((Registry.property path name type stage).run.run r).2
  | styleVariable (path : Path) (name : String) (type : Ty) :
      Use r ((Registry.styleVariable path name type).run.run r).2
  | category (s : String) : Use r ((Registry.category s).run.run r).2
  | freeze : Use r { r with categories := r.categories.freeze }
  | emission (stage : Stage) {e : Expr} (built : e.Built fun _ => True) :
      Use r ((emit stage e).run.run r).2

/-- Any number of uses. -/
def Uses : Registry → Registry → Prop := Relation.ReflTransGen Use

variable {others : List String} {r r' : Registry}

/-- What is refused without a trace leaves the tables, and so does what is accepted. -/
theorem Tabled.of_ends {α : Type} {m : RegistryM α} {accepted : α → Registry → Prop}
    {refused : Prop} (hends : Ends m r accepted refused)
    (htables : ∀ a r', accepted a r' → r'.Tabled others)
    (herror : ∀ i r', m.run.run r = (.error i, r') → r' = r) (hr : r.Tabled others) :
    (m.run.run r).2.Tabled others := by
  rcases hrun : m.run.run r with ⟨outcome, r'⟩
  cases outcome with
  | error i => exact herror i r' hrun ▸ hr
  | ok a =>
    rw [Ends, hrun] at hends
    exact htables a r' hends

theorem Use.tabled (h : Use r r') (hr : r.Tabled others) : r'.Tabled others := by
  obtain ⟨properties, passed, styleVariables, htables⟩ := id hr
  cases h with
  | property path name type stage =>
    exact .of_ends (htables.property path name type stage) (fun _ _ h => ⟨_, _, _, h⟩)
      (fun _ _ h => (htables.property_error h).1) hr
  | styleVariable path name type =>
    exact .of_ends (htables.styleVariable path name type) (fun _ _ h => ⟨_, _, _, h⟩)
      (fun _ _ h => (htables.styleVariable_error h).1) hr
  | category s => exact ⟨_, _, _, { htables with }⟩
  | freeze => exact ⟨_, _, _, { htables with }⟩
  | emission stage built =>
    obtain ⟨taken, -, htakes⟩ := Takes.emit others built.wellTyped htables.named rfl
    exact htakes.tabled hr

/-- A use makes some of the changes that are known, or closes the table of texts. -/
theorem Use.steps_or_freeze (h : Use r r') (hr : r.Named) :
    (∃ allowed, Steps allowed r r') ∨ r' = { r with categories := r.categories.freeze } := by
  cases h with
  | property path name type stage =>
    have hsteps : Steps (fun _ => True) r ((Registry.property path name type stage).run.run r).2 :=
      (property_spec trivial rfl).1
    exact Or.inl ⟨_, hsteps⟩
  | styleVariable path name type =>
    have hsteps : Steps (fun _ => True) r ((Registry.styleVariable path name type).run.run r).2 :=
      (styleVariable_spec trivial rfl).1
    exact Or.inl ⟨_, hsteps⟩
  | category s => exact Or.inl ⟨fun _ => True, (Step.category s).steps⟩
  | freeze => exact Or.inr rfl
  | emission stage built => exact Or.inl ⟨_, emit_steps built.wellTyped hr rfl⟩

theorem Use.grows (h : Use r r') (hr : r.Named) : r.categories.Grows r'.categories := by
  rcases h.steps_or_freeze hr with ⟨allowed, hsteps⟩ | rfl
  · exact hsteps.grows
  · exact Categories.grows_freeze _

theorem Use.provided (h : Use r r') (hr : r.Named) {stage : Stage} {ref : Reference}
    (hp : ref.Provided stage r) : ref.Provided stage r' := by
  rcases h.steps_or_freeze hr with ⟨allowed, hsteps⟩ | rfl
  · exact hsteps.provided hp
  · cases ref with
    | property | styleVariable | number => exact hp
    | text path s =>
      obtain ⟨settled, finite⟩ := hp
      have hgrows := Categories.grows_freeze r.categories
      refine ⟨hgrows.settled settled, ?_⟩
      rw [hgrows.number_eq settled]
      exact finite

/-- What uses of a registry keep: the form of its tables, the texts and what the shaders have. -/
structure Kept (others : List String) (r r' : Registry) : Prop where
  tabled : r'.Tabled others
  grows : r.categories.Grows r'.categories
  provided {stage : Stage} {ref : Reference} (hp : ref.Provided stage r) : ref.Provided stage r'

theorem Kept.refl (h : r.Tabled others) : Kept others r r := ⟨h, .refl, id⟩

theorem Kept.trans {others' : List String} {r₁ : Registry} (h : Kept others r r₁)
    (h' : Kept others' r₁ r') : Kept others' r r' where
  tabled := h'.tabled
  grows := h.grows.trans h'.grows
  provided hp := h'.provided (h.provided hp)

theorem Use.kept (h : Use r r') (hr : r.Tabled others) : Kept others r r' :=
  ⟨h.tabled hr, h.grows hr.named, h.provided hr.named⟩

theorem Uses.kept (h : Uses r r') (hr : r.Tabled others) : Kept others r r' := by
  induction h with
  | refl => exact .refl hr
  | tail _ huse ih => exact ih.trans (huse.kept ih.tabled)

/-- The copy of an expression for the fragment shader: both shaders have the code of the expression,
in which each reads properties in its own way, and only varyings and helper functions are added. -/
def CopiesTo (r : Registry) (e : Expr) (vertex : Glsl.Term) : Prop :=
  vertex = e.termWith (Reference.propertyTerm .vertex) r.categories ∧
    ∃ fragment r' added, (emit .fragment e).run.run r = (.ok fragment, r') ∧
      fragment = e.termWith (Reference.propertyTerm .fragment) r.categories ∧
        added ⊆ e.properties ∧ r.PassesOn added r'

/-- What the vertex shader has of an expression can be copied at any time later. -/
theorem Uses.copiesTo {e : Expr} (built : e.Built fun _ => True) {r r₁ r₂ : Registry}
    {t : Glsl.Term} (hr : r.Tabled others) (first : (emit .vertex e).run.run r = (.ok t, r₁))
    (further : Uses r₁ r₂) : r₂.CopiesTo e t := by
  have typed := built.wellTyped
  obtain ⟨rfl, hprovided⟩ := emit_ok typed hr.named first
  have htabled := (Use.emission .vertex built).tabled hr
  rw [first] at htabled
  have hkept := further.kept htabled
  obtain ⟨r₃, added, hrun, hadded, hpasses⟩ := PassesOn.emit hkept.tabled typed fun ref href =>
    hkept.provided (hprovided ref href)
  refine ⟨?_, _, r₃, added, hrun, rfl, hadded, hpasses⟩
  -- The numbers of the texts are still those of the vertex shader.
  exact (typed.term_eq_of_grows hkept.grows (Expr.settled_literals hprovided)).symm

end Registry

end ShaderStyle
