import Mathlib.Data.List.Perm.Subperm
import ShaderStyle.Proofs.Emission.Traversal
import ShaderStyle.Proofs.Registry.Tables

/-! What a registry holds after a sequence of references, and which sequences it accepts. -/
namespace ShaderStyle

/-- References in the order in which they are made, with their stages. -/
abbrev Requests := List (Stage × Reference)

namespace Requests

def properties (qs : Requests) : List (String × Ty) := qs.flatMap fun q => q.2.properties

/-- The properties that the fragment shader reads. -/
def passed (qs : Requests) : List (String × Ty) := properties (qs.filter fun q => q.1 = .fragment)

def styleVariables (qs : Requests) : List (String × Ty) := qs.flatMap fun q => q.2.styleVariables

def texts (qs : Requests) : List String := qs.flatMap fun q => q.2.literals

def numbers (qs : Requests) : List Double := qs.flatMap fun q => q.2.numbers

section Append

variable (qs qs' : Requests)

@[simp] theorem properties_append :
    properties (qs ++ qs') = qs.properties ++ properties qs' := List.flatMap_append

@[simp] theorem passed_append : passed (qs ++ qs') = qs.passed ++ passed qs' := by
  rw [passed, List.filter_append, properties_append]
  rfl

@[simp] theorem styleVariables_append :
    styleVariables (qs ++ qs') = qs.styleVariables ++ styleVariables qs' := List.flatMap_append

@[simp] theorem texts_append : texts (qs ++ qs') = qs.texts ++ texts qs' := List.flatMap_append

@[simp] theorem numbers_append : numbers (qs ++ qs') = qs.numbers ++ numbers qs' :=
  List.flatMap_append

end Append

section Single

variable (stage : Stage) (ref : Reference)

@[simp] theorem properties_single : properties [(stage, ref)] = ref.properties :=
  List.flatMap_singleton _ _

@[simp] theorem passed_single : passed [(stage, ref)] = stage.passedOn ref.properties := by
  cases stage with
  | vertex => rfl
  | fragment => exact properties_single .fragment ref

@[simp] theorem styleVariables_single : styleVariables [(stage, ref)] = ref.styleVariables :=
  List.flatMap_singleton _ _

@[simp] theorem texts_single : texts [(stage, ref)] = ref.literals := List.flatMap_singleton _ _

@[simp] theorem numbers_single : numbers [(stage, ref)] = ref.numbers := List.flatMap_singleton _ _

end Single

/-- Requests that a registry accepts: the names go together, and all numbers in the code are
finite, those that stand for texts included. -/
structure Admissible (qs : Requests) : Prop where
  properties : Coherent qs.properties
  styleVariables : Coherent qs.styleVariables
  numbers : ∀ x ∈ qs.numbers, x.isFinite = true
  texts : ∀ i < qs.texts.eraseDups.length, (Double.ofInt i).isFinite = true

/-- Only what is asked for matters, not how often and in which order. -/
theorem Admissible.mono {qs qs' : Requests} (h : qs.Admissible)
    (properties : qs'.properties ⊆ qs.properties)
    (styleVariables : qs'.styleVariables ⊆ qs.styleVariables) (numbers : qs'.numbers ⊆ qs.numbers)
    (texts : qs'.texts ⊆ qs.texts) : qs'.Admissible where
  properties := h.properties.mono properties
  styleVariables := h.styleVariables.mono styleVariables
  numbers x hx := h.numbers x (numbers hx)
  texts i hi := by
    have hsubset : qs'.texts.eraseDups ⊆ qs.texts.eraseDups := fun s hs =>
      List.mem_eraseDups.mpr (texts (List.mem_eraseDups.mp hs))
    have hlength := (List.subperm_of_subset (nodup_eraseDups _) hsubset).length_le
    exact h.texts i (Nat.lt_of_lt_of_le hi hlength)

theorem Admissible.of_subset {qs qs' : Requests} (h : qs.Admissible) (hsub : qs' ⊆ qs) :
    qs'.Admissible := by
  have hflat {α : Type} (f : Stage × Reference → List α) : qs'.flatMap f ⊆ qs.flatMap f := by
    intro x hx
    obtain ⟨q, hq, hx⟩ := List.mem_flatMap.mp hx
    exact List.mem_flatMap.mpr ⟨q, hsub hq, hx⟩
  exact h.mono (hflat _) (hflat _) (hflat _) (hflat _)

/-- What is accepted is accepted from its beginning on. -/
theorem Admissible.of_append {qs qs' : Requests} (h : Admissible (qs ++ qs')) : qs.Admissible :=
  h.mono (by simp) (by simp) (by simp) (by simp)

end Requests

/-- What the emission of an expression asks of the registry. -/
def Expr.requests (stage : Stage) (e : Expr) : Requests := e.references.map (Prod.mk stage)

namespace Categories

/-- A fresh table lists the texts in the order of their first occurrences. -/
theorem names_registerEach (texts : List String) :
    (({} : Categories).registerEach texts).names = texts.eraseDups := by
  induction texts using List.reverseRecOn with
  | nil => rfl
  | append_singleton texts s ih =>
    have hfrozen : (({} : Categories).registerEach texts).frozen = false :=
      frozen_registerEach _ _
    rw [registerEach_append]
    change (register _ s).names = _
    by_cases hs : s ∈ texts
    · rw [eraseDups_concat_of_mem hs, register, if_pos (by simp [ih, hs]), ih]
    · rw [eraseDups_concat_of_notMem hs, register, if_neg (by simp [ih, hs, hfrozen]), ih]

theorem number_of_mem {c : Categories} {s : String} (h : s ∈ c.names) :
    ∃ i < c.names.length, c.number s = i := by
  cases hindex : c.index? s with
  | none => exact absurd h (index?_eq_none_iff.mp hindex)
  | some i =>
    obtain ⟨hi, -⟩ := List.findIdx?_eq_some_iff_getElem.mp hindex
    exact ⟨i, hi, by rw [number, hindex]⟩

end Categories

namespace Registry

/-- What a registry holds after requests that were all accepted. -/
structure Records (others : List String) (qs : Requests) (r : Registry) : Prop where
  tables : r.Tables others qs.properties qs.passed qs.styleVariables
  categories : r.categories = ({} : Categories).registerEach qs.texts
  numbers : ∀ x ∈ qs.numbers, x.isFinite = true
  texts : ∀ i < qs.texts.eraseDups.length, (Double.ofInt i).isFinite = true

theorem records_fresh {others : List String} (apart : ∀ name, Glsl.uniformName name ∉ others) :
    Records others [] {} where
  tables := tables_fresh apart
  categories := rfl
  numbers := by simp [Requests.numbers]
  texts := by simp [Requests.texts]

theorem ends_literal (path : Path) (x : Double) (r : Registry) :
    Ends (Emission.literal path (Glsl.number x)) r (fun _ r' => r' = r ∧ x.isFinite = true)
      (x.isFinite ≠ true) := by
  unfold Glsl.number
  by_cases hx : x.isFinite = true
  · rw [if_pos hx]
    exact .of_ok rfl ⟨rfl, hx⟩
  · rw [if_neg hx]
    exact .of_error rfl hx

namespace Tables

variable {others : List String} {properties passed styleVariables : List (String × Ty)}
  {r : Registry} {stage : Stage}

theorem emitGet (h : r.Tables others properties passed styleVariables) (path : Path)
    (name : String) (type : Ty) :
    Ends (Emission.emitGet stage path name type) r
      (fun _ r' => r'.Tables others (properties ++ [(name, type)])
        (passed ++ stage.passedOn [(name, type)]) styleVariables)
      (¬Coherent (properties ++ [(name, type)])) := by
  refine (h.property path name type stage).bind fun ident r₁ _ h₁ => ?_
  split
  · exact .of_ok rfl (h₁.addFunction .vertex Glsl.unpackFunction)
  · exact .of_ok rfl h₁

theorem emitVar (h : r.Tables others properties passed styleVariables) (path : Path)
    (name : String) (type : Ty) :
    Ends (Emission.emitVar stage path name type) r
      (fun _ r' => r'.Tables others properties passed (styleVariables ++ [(name, type)]))
      (¬Coherent (styleVariables ++ [(name, type)])) := by
  refine (h.styleVariable path name type).bind fun ident r₁ _ h₁ => ?_
  split
  · exact .of_ok rfl (h₁.addFunction stage Glsl.unpackFunction)
  · exact .of_ok rfl h₁

end Tables

namespace Records

variable {others : List String} {qs : Requests} {r r' : Registry} {stage : Stage} {path : Path}

theorem admissible (h : r.Records others qs) : qs.Admissible :=
  ⟨h.tables.coherent_properties, h.tables.coherent_variables, h.numbers, h.texts⟩

/-- The number of a new text comes after those of the earlier ones. -/
theorem emitText (h : r.Records others qs) (path : Path) (s : String) :
    Ends ((Reference.text path s).emit stage) r
      (fun _ r' => r' = { r with categories := r.categories.register s } ∧
        ∀ i < (qs.texts ++ [s]).eraseDups.length, (Double.ofInt i).isFinite = true)
      (∃ i < (qs.texts ++ [s]).eraseDups.length, (Double.ofInt i).isFinite ≠ true) := by
  have hcategories : r.categories.register s =
      ({} : Categories).registerEach (qs.texts ++ [s]) := by
    rw [Categories.registerEach_append, ← h.categories]
    rfl
  have hnames : (r.categories.register s).names = (qs.texts ++ [s]).eraseDups := by
    rw [hcategories, Categories.names_registerEach]
  have hcategory : Ends (Registry.category s) r (fun n r' =>
      n = (r.categories.register s).number s ∧
        r' = { r with categories := r.categories.register s })
      (∃ i < (qs.texts ++ [s]).eraseDups.length, (Double.ofInt i).isFinite ≠ true) :=
    .of_ok (category_run s r) ⟨rfl, rfl⟩
  refine hcategory.bind fun n r₁ _ ⟨hn, hr₁⟩ => ?_
  subst hn hr₁
  refine (ends_literal path _ _).mono (fun t r₂ _ ⟨hr₂, hfinite⟩ => ?_) fun hinfinite => ?_
  · refine ⟨hr₂, fun i hi => ?_⟩
    by_cases hs : s ∈ qs.texts
    · rw [eraseDups_concat_of_mem hs] at hi
      exact h.texts i hi
    · -- The text is the last of the table, so its number is the largest.
      rw [eraseDups_concat_of_notMem hs] at hi hnames
      have hnodup : (r.categories.register s).names.Nodup := by
        rw [hcategories]
        exact Categories.nodup_registerEach List.nodup_nil _
      have hlast : (r.categories.register s).number s = qs.texts.eraseDups.length := by
        have hnumber := Categories.number_getElem hnodup (i := qs.texts.eraseDups.length)
          (by simp [hnames])
        simpa [hnames] using hnumber
      rw [List.length_append, List.length_singleton] at hi
      rcases Nat.lt_succ_iff_lt_or_eq.mp hi with hlt | rfl
      · exact h.texts i hlt
      · rwa [hlast] at hfinite
  · have hmem : s ∈ (r.categories.register s).names := by
      rw [hnames]
      simp
    obtain ⟨i, hi, hnumber⟩ := Categories.number_of_mem hmem
    rw [hnames] at hi
    rw [hnumber] at hinfinite
    exact ⟨i, hi, hinfinite⟩

/-- The records after one more reference. -/
theorem concat (h : r.Records others qs) {ref : Reference} {t : Glsl.Term}
    (hrun : (ref.emit stage).run.run r = (.ok t, r'))
    (tables : r'.Tables others (qs.properties ++ ref.properties)
      (qs.passed ++ stage.passedOn ref.properties) (qs.styleVariables ++ ref.styleVariables))
    (numbers : ∀ x ∈ ref.numbers, x.isFinite = true)
    (texts : ∀ i < (qs.texts ++ ref.literals).eraseDups.length, (Double.ofInt i).isFinite = true) :
    r'.Records others (qs ++ [(stage, ref)]) where
  tables := by simpa using tables
  categories := by
    have hemit := ref.emit_categories stage r
    rw [hrun, h.categories, ← Categories.registerEach_append] at hemit
    simpa using hemit
  numbers := by
    intro x hx
    rw [Requests.numbers_append, Requests.numbers_single, List.mem_append] at hx
    exact hx.elim (h.numbers x) (numbers x)
  texts := by simpa using texts

/-- A reference is accepted exactly where it goes together with the earlier ones. -/
theorem reference (h : r.Records others qs) (stage : Stage) (ref : Reference) :
    Ends (ref.emit stage) r (fun _ r' => r'.Records others (qs ++ [(stage, ref)]))
      (¬Requests.Admissible (qs ++ [(stage, ref)])) := by
  cases ref with
  | property path name type =>
    refine (h.tables.emitGet path name type).mono (fun t r' hrun htables => ?_)
      fun hnot hadmissible => ?_
    · exact h.concat hrun (by simpa [Reference.properties, Reference.styleVariables] using htables)
        (by simp [Reference.numbers]) (by simpa [Reference.literals] using h.texts)
    · exact hnot (by simpa [Reference.properties] using hadmissible.properties)
  | styleVariable path name type =>
    refine (h.tables.emitVar path name type).mono (fun t r' hrun htables => ?_)
      fun hnot hadmissible => ?_
    · exact h.concat hrun (by simpa [Reference.properties, Reference.styleVariables] using htables)
        (by simp [Reference.numbers]) (by simpa [Reference.literals] using h.texts)
    · exact hnot (by simpa [Reference.styleVariables] using hadmissible.styleVariables)
  | text path s =>
    refine (h.emitText path s).mono (fun t r' hrun htext => ?_) ?_
    · obtain ⟨rfl, hfinite⟩ := htext
      have htables : Tables others qs.properties qs.passed qs.styleVariables
          { r with categories := r.categories.register s } := { h.tables with }
      exact h.concat hrun (by simpa [Reference.properties, Reference.styleVariables] using htables)
        (by simp [Reference.numbers]) hfinite
    · rintro ⟨i, hi, hinfinite⟩ hadmissible
      exact hinfinite (hadmissible.texts i (by simpa [Reference.literals] using hi))
  | number path x =>
    refine (ends_literal path x r).mono (fun t r' hrun hliteral => ?_) fun hx hadmissible => ?_
    · obtain ⟨rfl, hx⟩ := hliteral
      exact h.concat hrun (by simpa [Reference.properties, Reference.styleVariables] using h.tables)
        (by simpa [Reference.numbers] using hx) (by simpa [Reference.literals] using h.texts)
    · exact hx (hadmissible.numbers x (by simp [Reference.numbers]))

/-- References are accepted up to the first that does not go together with the earlier ones. -/
theorem registerAll (h : r.Records others qs) (stage : Stage) (refs : List Reference) :
    Ends (registerAll stage refs) r
      (fun _ r' => r'.Records others (qs ++ refs.map (Prod.mk stage)))
      (¬Requests.Admissible (qs ++ refs.map (Prod.mk stage))) := by
  induction refs generalizing qs r with
  | nil => exact .of_ok rfl (by simpa using h)
  | cons ref refs ih =>
    have hsplit : qs ++ (ref :: refs).map (Prod.mk stage) =
        (qs ++ [(stage, ref)]) ++ refs.map (Prod.mk stage) := by simp
    rw [hsplit]
    have hfirst := (h.reference stage ref).mono (fun _ _ _ h₁ => h₁)
      fun hnot (hall : Requests.Admissible (_ ++ refs.map (Prod.mk stage))) => hnot hall.of_append
    exact hfirst.bind fun t r₁ _ h₁ => ih h₁

/-- An expression is accepted exactly where its references go together with the earlier ones. -/
theorem emit (h : r.Records others qs) {sizes : Nat → Prop} {e : Expr} (typed : e.WellTyped sizes)
    (stage : Stage) :
    Ends (ShaderStyle.emit stage e) r (fun _ r' => r'.Records others (qs ++ e.requests stage))
      (¬Requests.Admissible (qs ++ e.requests stage)) := by
  have hall := h.registerAll stage e.references
  have hrun := (typed.emits stage).run r h.tables.named
  rcases hreferences : (ShaderStyle.registerAll stage e.references).run.run r with ⟨outcome, r'⟩
  rw [Ends, hreferences] at hall
  rw [hreferences] at hrun
  cases outcome with
  | ok _ => exact .of_ok hrun hall
  | error i => exact .of_error hrun hall

end Records

end Registry

end ShaderStyle
