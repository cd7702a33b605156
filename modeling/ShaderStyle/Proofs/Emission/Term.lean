import ShaderStyle.Proofs.Emission.Operator
import ShaderStyle.Proofs.Registry.Reference

/-! Emission taken apart: the references of an expression are registered in order, and its code is
a function of the expression, the stage and the table of texts. -/
namespace ShaderStyle

/-- Registers references in order, up to the first that fails. -/
def registerAll (stage : Stage) : List Reference → RegistryM Unit
  | [] => return
  | ref :: refs => do
    let _ ← ref.emit stage
    registerAll stage refs

section RegisterAll

variable {allowed : Ty → Prop} {stage : Stage} {r r' : Registry}

/-- What a run of references does to a registry, and what it leaves there if none fails. -/
theorem registerAll_spec {refs : List Reference} (typed : ∀ ref ∈ refs, ref.Typed allowed)
    {outcome : Except Issue Unit} (h : (registerAll stage refs).run.run r = (outcome, r')) :
    Registry.Steps allowed r r' ∧
      (outcome = .ok () → r.Named → ∀ ref ∈ refs, ref.Provided stage r') := by
  induction refs generalizing r with
  | nil =>
    cases h
    exact ⟨.refl, fun _ _ ref href => by cases href⟩
  | cons ref refs ih =>
    have htyped : ref.Typed allowed := typed ref (by simp)
    rcases Registry.run_bind_cases h with ⟨i, hfirst, rfl⟩ | ⟨t, r₁, hfirst, hrest⟩
    · exact ⟨(Reference.emit_spec htyped hfirst).1, nofun⟩
    · obtain ⟨hsteps, hprovided⟩ := Reference.emit_spec htyped hfirst
      obtain ⟨hsteps', hprovided'⟩ := ih (fun ref href => typed ref (by simp [href])) hrest
      refine ⟨hsteps.trans hsteps', fun hok hr other hother => ?_⟩
      rcases List.mem_cons.mp hother with rfl | hother
      · exact hsteps'.provided (hprovided t rfl hr).2
      · exact hprovided' hok (hsteps.named hr) other hother

theorem registerAll_append (refs refs' : List Reference) (r : Registry) :
    (registerAll stage (refs ++ refs')).run.run r =
      (registerAll stage refs >>= fun _ => registerAll stage refs').run.run r := by
  induction refs generalizing r with
  | nil => rfl
  | cons ref refs ih =>
    rw [List.cons_append, registerAll, registerAll, bind_assoc, Registry.run_bind,
      Registry.run_bind]
    rcases (ref.emit stage).run.run r with ⟨outcome, r₁⟩
    cases outcome with
    | ok t => exact ih r₁
    | error i => rfl

end RegisterAll

/-- A computation that registers references and gives a value, which depends on the table of texts
as it is afterwards. -/
structure Emits {α : Type} (stage : Stage) (m : RegistryM α) (refs : List Reference)
    (value : Categories → α) : Prop where
  run (r : Registry) (named : r.Named) :
    m.run.run r =
      match (registerAll stage refs).run.run r with
      | (.ok _, r') => (.ok (value r'.categories), r')
      | (.error i, r') => (.error i, r')
  stable (c c' : Categories) (grows : c.Grows c')
    (settled : ∀ path s, .text path s ∈ refs → c.Settled s) : value c' = value c

namespace Emits

variable {α β : Type} {stage : Stage}

theorem pure (a : α) : Emits stage (Pure.pure a) [] fun _ => a where
  run _ _ := rfl
  stable _ _ _ _ := rfl

theorem reference (ref : Reference) : Emits stage (ref.emit stage) [ref] (ref.term stage) where
  run r named := by
    have htyped : ref.Typed fun _ => True := by cases ref <;> trivial
    rw [registerAll, Registry.run_bind]
    rcases h : (ref.emit stage).run.run r with ⟨outcome, r'⟩
    cases outcome with
    | ok t =>
      obtain ⟨ht, -⟩ := (Reference.emit_spec htyped h).2 t rfl named
      rw [ht]
      rfl
    | error i => rfl
  stable c c' grows settled :=
    Reference.term_eq_of_grows grows fun path s href => settled path s (by simp [href])

/-- Computations one after the other. The first value is still right at the end, because the
numbers it was made with are settled. -/
theorem bind {m : RegistryM α} {f : α → RegistryM β} {refs refs' : List Reference}
    {value : Categories → α} (h : Emits stage m refs value) (value' : α → Categories → β)
    (h' : ∀ c, Emits stage (f (value c)) refs' (value' (value c))) :
    Emits stage (m >>= f) (refs ++ refs') fun c => value' (value c) c where
  run r named := by
    have htyped (refs : List Reference) : ∀ ref ∈ refs, ref.Typed fun _ => True := by
      intro ref _
      cases ref <;> trivial
    rw [registerAll_append, Registry.run_bind, Registry.run_bind, h.run r named]
    rcases hfirst : (registerAll stage refs).run.run r with ⟨outcome, r₁⟩
    cases outcome with
    | error i => rfl
    | ok _ =>
      obtain ⟨hsteps, hprovided⟩ := registerAll_spec (htyped refs) hfirst
      dsimp only
      rw [(h' r₁.categories).run r₁ (hsteps.named named)]
      rcases hsecond : (registerAll stage refs').run.run r₁ with ⟨outcome, r₂⟩
      cases outcome with
      | error i => rfl
      | ok _ =>
        have hgrows := (registerAll_spec (htyped refs') hsecond).1.grows
        have hvalue : value r₂.categories = value r₁.categories :=
          h.stable _ _ hgrows fun path s href => (hprovided rfl named _ href).1
        dsimp only
        rw [hvalue]
  stable c c' grows settled := by
    have hvalue : value c' = value c :=
      h.stable c c' grows fun path s href => settled path s (by simp [href])
    rw [hvalue]
    exact (h' c).stable c c' grows fun path s href => settled path s (by simp [href])

/-- A computation whose value is changed at the end. -/
theorem map {m : RegistryM α} {refs : List Reference} {value : Categories → α}
    (h : Emits stage m refs value) (f : α → β) :
    Emits stage (m >>= fun a => Pure.pure (f a)) refs fun c => f (value c) := by
  have hbind := h.bind (f := fun a => Pure.pure (f a)) (fun a _ => f a) fun c => pure _
  rwa [List.append_nil] at hbind

end Emits

namespace Expr

mutual

/-- What an expression refers to, in the order in which its parts are visited. -/
def references : Expr → List Reference
  | .number path x => [.number path x]
  | .bool _ _ => []
  | .text path s => [.text path s]
  | .color path c => c.premultiplied.map (.number path)
  | .array path xs => xs.map (.number path)
  | .get path name type => [.property path name type]
  | .var path name type => [.styleVariable path name type]
  | .builtin _ _ => []
  | .call _ _ args _ => referencesList args
  | .interpolate path exponent input stops _ _ =>
    [.number path exponent] ++ (input.references ++ referencesPairs stops)
  | .select _ input alternatives _ fallback _ =>
    input.references ++ (fallback.references ++ referencesAlternatives alternatives)
  | .cases _ alternatives fallback _ => fallback.references ++ referencesAlternatives alternatives
  | .widen x _ => x.references

def referencesList : List Expr → List Reference
  | [] => []
  | e :: es => e.references ++ referencesList es

def referencesPairs : List (Expr × Expr) → List Reference
  | [] => []
  | (a, b) :: rest => a.references ++ (b.references ++ referencesPairs rest)

/-- Alternatives are visited from the last to the first. -/
def referencesAlternatives : List (Expr × Expr) → List Reference
  | [] => []
  | (a, b) :: rest => referencesAlternatives rest ++ (a.references ++ b.references)

end

theorem mem_referencesList {es : List Expr} {ref : Reference} :
    ref ∈ referencesList es ↔ ∃ e ∈ es, ref ∈ e.references := by
  induction es with
  | nil => simp [referencesList]
  | cons e es ih => simp [referencesList, ih]

theorem mem_referencesPairs {ps : List (Expr × Expr)} {ref : Reference} :
    ref ∈ referencesPairs ps ↔ ∃ p ∈ ps, ref ∈ p.1.references ∨ ref ∈ p.2.references := by
  induction ps with
  | nil => simp [referencesPairs]
  | cons p ps ih => simp [referencesPairs, ih, or_assoc]

theorem mem_referencesAlternatives {ps : List (Expr × Expr)} {ref : Reference} :
    ref ∈ referencesAlternatives ps ↔ ∃ p ∈ ps, ref ∈ p.1.references ∨ ref ∈ p.2.references := by
  induction ps with
  | nil => simp [referencesAlternatives]
  | cons p ps ih => simp [referencesAlternatives, ih, or_comm]

/-- An interpolation over its stops. -/
def interpolationTerm (input exponent : Glsl.Term) : List (Glsl.Term × Glsl.Term) → Glsl.Term
  | [] => .name ""
  | (start, output) :: rest => Glsl.mixChain input exponent output start rest

/-- A chain of conditionals. -/
def alternativesTerm (condition : Glsl.Term → Glsl.Term) (fallback : Glsl.Term) :
    List (Glsl.Term × Glsl.Term) → Glsl.Term
  | [] => fallback
  | (a, b) :: rest => .paren (.choose (condition a) b (alternativesTerm condition fallback rest))

mutual

/-- The code of an expression where properties are read in the given way, with the numbers that the
table gives to texts. -/
def termWith (read : Glsl.Reading) (c : Categories) : Expr → Glsl.Term
  | .number _ x => .number x
  | .bool _ b => .bool b
  | .text _ s => .number (.ofInt (c.number s))
  | .color _ rgba => .vector (rgba.premultiplied.map .number)
  | .array _ xs => .vector (xs.map .number)
  | .get _ name type => read name type
  | .var _ name type =>
    if type = .color then Glsl.unpack (.name (Glsl.uniformName name))
    else Glsl.readTerm (Glsl.uniformName name) type
  | .builtin _ name => .name ((Glsl.builtinUniform? name).getD "")
  | .call _ op args _ =>
    match Glsl.callTerm op (termsWith read c args) with
    | .ok t => t
    | .error _ => .name ""
  | .interpolate _ exponent input stops _ _ =>
    interpolationTerm (input.termWith read c) (.number exponent) (termPairsWith read c stops)
  | .select _ input alternatives _ fallback _ =>
    alternativesTerm (fun label => .chain .equal [input.termWith read c, label])
      (fallback.termWith read c) (termPairsWith read c alternatives)
  | .cases _ alternatives fallback _ =>
    alternativesTerm id (fallback.termWith read c) (termPairsWith read c alternatives)
  | .widen x type => .call ("vec" ++ toString type.components) [x.termWith read c]

def termsWith (read : Glsl.Reading) (c : Categories) : List Expr → List Glsl.Term
  | [] => []
  | e :: es => e.termWith read c :: termsWith read c es

def termPairsWith (read : Glsl.Reading) (c : Categories) :
    List (Expr × Expr) → List (Glsl.Term × Glsl.Term)
  | [] => []
  | (a, b) :: rest => (a.termWith read c, b.termWith read c) :: termPairsWith read c rest

end

/-- The code of an expression in a stage. -/
def term (stage : Stage) (c : Categories) (e : Expr) : Glsl.Term :=
  e.termWith (Reference.propertyTerm stage) c

def termPairs (stage : Stage) (c : Categories) (ps : List (Expr × Expr)) :
    List (Glsl.Term × Glsl.Term) :=
  ps.map fun p => (p.1.term stage c, p.2.term stage c)

theorem termsWith_eq (read : Glsl.Reading) (c : Categories) (es : List Expr) :
    termsWith read c es = es.map (termWith read c) := by
  induction es with
  | nil => rfl
  | cons e es ih => rw [termsWith, ih, List.map_cons]

theorem termPairsWith_eq (read : Glsl.Reading) (c : Categories) (ps : List (Expr × Expr)) :
    termPairsWith read c ps = ps.map fun p => (p.1.termWith read c, p.2.termWith read c) := by
  induction ps with
  | nil => rfl
  | cons p ps ih => rw [termPairsWith, ih, List.map_cons]

section Equations

variable (stage : Stage) (c : Categories) (path : Path) (type : Ty)

theorem term_call (op : Op) (args : List Expr) : (Expr.call path op args type).term stage c =
    match Glsl.callTerm op (args.map (term stage c)) with
    | .ok t => t
    | .error _ => .name "" := by
  rw [term, termWith, termsWith_eq]
  rfl

theorem term_interpolate (exponent : Double) (input : Expr) (stops : List (Expr × Expr))
    (spare : List Expr) : (Expr.interpolate path exponent input stops spare type).term stage c =
      interpolationTerm (input.term stage c) (.number exponent) (termPairs stage c stops) := by
  rw [term, termWith, termPairsWith_eq]
  rfl

theorem term_select (input fallback : Expr) (alternatives : List (Expr × Expr))
    (spare : List Expr) :
    (Expr.select path input alternatives spare fallback type).term stage c =
      alternativesTerm (fun label => .chain .equal [input.term stage c, label])
        (fallback.term stage c) (termPairs stage c alternatives) := by
  rw [term, termWith, termPairsWith_eq]
  rfl

theorem term_cases (fallback : Expr) (alternatives : List (Expr × Expr)) :
    (Expr.cases path alternatives fallback type).term stage c =
      alternativesTerm id (fallback.term stage c) (termPairs stage c alternatives) := by
  rw [term, termWith, termPairsWith_eq]
  rfl

end Equations

end Expr

namespace Emits

variable {stage : Stage}

theorem emitList {es : List Expr}
    (h : ∀ e ∈ es, Emits stage (Emission.emit stage e) e.references (e.term stage)) :
    Emits stage (Emission.emitList stage es) (Expr.referencesList es)
      fun c => es.map (Expr.term stage c) := by
  induction es with
  | nil => exact pure []
  | cons e es ih =>
    have he := h e (by simp)
    have hes := ih fun e he => h e (by simp [he])
    exact he.bind (fun t c => t :: es.map (Expr.term stage c)) fun c => hes.map _

theorem emitPairs {ps : List (Expr × Expr)}
    (h : ∀ p ∈ ps, Emits stage (Emission.emit stage p.1) p.1.references (p.1.term stage))
    (h' : ∀ p ∈ ps, Emits stage (Emission.emit stage p.2) p.2.references (p.2.term stage)) :
    Emits stage (Emission.emitPairs stage ps) (Expr.referencesPairs ps)
      fun c => Expr.termPairs stage c ps := by
  induction ps with
  | nil => exact pure []
  | cons p ps ih =>
    obtain ⟨a, b⟩ := p
    have ha := h (a, b) (by simp)
    have hb := h' (a, b) (by simp)
    have hps := ih (fun p hp => h p (by simp [hp])) fun p hp => h' p (by simp [hp])
    exact ha.bind (fun t c => (t, b.term stage c) :: Expr.termPairs stage c ps) fun c =>
      hb.bind (fun u c' => (a.term stage c, u) :: Expr.termPairs stage c' ps) fun c' => hps.map _

theorem emitAlternatives {ps : List (Expr × Expr)} {condition : Glsl.Term → Glsl.Term}
    {fallback : Glsl.Term}
    (h : ∀ p ∈ ps, Emits stage (Emission.emit stage p.1) p.1.references (p.1.term stage))
    (h' : ∀ p ∈ ps, Emits stage (Emission.emit stage p.2) p.2.references (p.2.term stage)) :
    Emits stage (Emission.emitAlternatives stage condition fallback ps)
      (Expr.referencesAlternatives ps)
      fun c => Expr.alternativesTerm condition fallback (Expr.termPairs stage c ps) := by
  induction ps with
  | nil => exact pure fallback
  | cons p ps ih =>
    obtain ⟨a, b⟩ := p
    have ha := h (a, b) (by simp)
    have hb := h' (a, b) (by simp)
    have hps := ih (fun p hp => h p (by simp [hp])) fun p hp => h' p (by simp [hp])
    exact hps.bind
      (fun t c => Glsl.Term.paren (.choose (condition (a.term stage c)) (b.term stage c) t))
      fun c => ha.bind
        (fun u c' => Glsl.Term.paren (.choose (condition u) (b.term stage c')
          (Expr.alternativesTerm condition fallback (Expr.termPairs stage c ps))))
        fun c' => hb.map _

theorem registerAll_numbers (path : Path) (xs : List Double) (r : Registry) :
    (registerAll stage (xs.map (.number path))).run.run r =
      match xs.mapM Glsl.number with
      | .ok _ => (.ok (), r)
      | .error e => (.error ⟨path, .unrepresentable e⟩, r) := by
  induction xs with
  | nil => rfl
  | cons x xs ih =>
    rw [List.map_cons, registerAll, List.mapM_cons, Reference.emit, Glsl.number]
    by_cases hx : x.isFinite = true
    · rw [if_pos hx, Emission.literal, Registry.run_bind_ok (Registry.run_pure _ r), ih]
      cases xs.mapM Glsl.number <;> rfl
    · rw [if_neg hx]
      rfl

theorem mapM_number {xs : List Double} {ts : List Glsl.Term} (h : xs.mapM Glsl.number = .ok ts) :
    ts = xs.map .number := by
  induction xs generalizing ts with
  | nil =>
    cases h
    rfl
  | cons x xs ih =>
    rw [List.mapM_cons, Glsl.number] at h
    by_cases hx : x.isFinite = true
    · rw [if_pos hx] at h
      cases hxs : xs.mapM Glsl.number with
      | error e =>
        rw [hxs] at h
        cases h
      | ok us =>
        rw [hxs] at h
        cases h
        rw [ih hxs, List.map_cons]
    · rw [if_neg hx] at h
      cases h

theorem array (path : Path) (xs : List Double) :
    Emits stage (Emission.literal path (Glsl.array xs)) (xs.map (.number path))
      fun _ => .vector (xs.map .number) where
  run r _ := by
    rw [registerAll_numbers, Glsl.array]
    cases h : xs.mapM Glsl.number with
    | error e => rfl
    | ok ts =>
      rw [mapM_number h]
      rfl
  stable _ _ _ _ := rfl

end Emits

/-- The code of a well-typed expression, whatever the registry holds already. -/
theorem Expr.WellTyped.emits {sizes : Nat → Prop} {e : Expr} (h : e.WellTyped sizes)
    (stage : Stage) : Emits stage (Emission.emit stage e) e.references (e.term stage) := by
  induction h with
  | number path x => exact Emits.reference (.number path x)
  | bool path b => exact Emits.pure (Glsl.Term.bool b)
  | text path s => exact Emits.reference (.text path s)
  | color path c => exact Emits.array path c.premultiplied
  | @array path xs sized => exact Emits.array path xs
  | @get path name type sized => exact Emits.reference (.property path name type)
  | @var path name type sized => exact Emits.reference (.styleVariable path name type)
  | @builtin path name known =>
    simp only [Node.builtins, List.mem_cons, List.not_mem_nil, or_false] at known
    rcases known with rfl | rfl | rfl <;> exact Emits.pure _
  | @call path op args type sized accepts operands ih =>
    have hlength (c : Categories) : op.Form (args.map (term stage c)).length := by
      simpa using accepts.form
    have hcall := (Emits.emitList ih).bind
      (f := fun ts => match Glsl.callTerm op ts with
        | .ok t => pure t
        | .error cause => Registry.fail path cause)
      (fun ts _ => match Glsl.callTerm op ts with
        | .ok t => t
        | .error _ => .name "")
      fun c => by
        obtain ⟨t, ht⟩ := Glsl.exists_callTerm (hlength c)
        rw [ht]
        exact Emits.pure t
    rw [List.append_nil] at hcall
    simp only [term_call]
    exact hcall
  | @interpolate path exponent input stops type sized count _ _ _ _ _ _ _ ihi ihs iho =>
    have hexponent : Emits stage (Emission.literal path (Glsl.number exponent)) _ _ :=
      Emits.reference (.number path exponent)
    have hne (c : Categories) : termPairs stage c stops ≠ [] := by
      rw [termPairs, Ne, List.map_eq_nil_iff]
      rintro rfl
      simp at count
    simp only [term_interpolate]
    refine hexponent.bind
      (fun t c => interpolationTerm (input.term stage c) t (termPairs stage c stops)) fun c => ?_
    refine ihi.bind
      (fun t c => interpolationTerm t (.number exponent) (termPairs stage c stops)) fun c => ?_
    have hpairs := (Emits.emitPairs ihs iho).bind
      (f := fun ts => match ts with
        | [] => Registry.fail path .missingStops
        | (start, output) :: rest =>
          pure (Glsl.mixChain (input.term stage c) (.number exponent) output start rest))
      (fun ts _ => interpolationTerm (input.term stage c) (.number exponent) ts) fun c' => by
        obtain ⟨p, rest, hp⟩ := List.exists_cons_of_ne_nil (hne c')
        rw [hp]
        exact Emits.pure _
    rw [List.append_nil] at hpairs
    exact hpairs
  | @select path input fallback alternatives type label sized _ _ _ _ _ _ _ _ _ _ ihi ihl iho ihf =>
    simp only [term_select]
    refine ihi.bind (fun t c =>
      alternativesTerm (fun label => .chain .equal [t, label]) (fallback.term stage c)
        (termPairs stage c alternatives)) fun c => ?_
    refine ihf.bind (fun t c' =>
      alternativesTerm (fun label => .chain .equal [input.term stage c, label]) t
        (termPairs stage c' alternatives)) fun c' => ?_
    exact Emits.emitAlternatives ihl iho
  | @cases path fallback alternatives type sized _ _ _ _ _ _ _ ihc iho ihf =>
    simp only [term_cases]
    refine ihf.bind (fun t c => alternativesTerm id t (termPairs stage c alternatives))
      fun c => ?_
    exact Emits.emitAlternatives ihc iho
  | @widen x type sized _ _ _ ih =>
    exact ih.map fun t => Glsl.Term.call ("vec" ++ toString type.components) [t]

theorem Expr.WellTyped.references_typed {sizes : Nat → Prop} {e : Expr} (h : e.WellTyped sizes) :
    ∀ ref ∈ e.references, ref.Typed (Ty.Sized sizes) := by
  induction h with
  | number | bool | text | builtin => simp [references, Reference.Typed]
  | color | array =>
    intro ref href
    obtain ⟨x, -, rfl⟩ := List.mem_map.mp href
    trivial
  | get _ _ sized | var _ _ sized => simpa [references, Reference.Typed] using sized
  | call _ _ _ _ ih =>
    intro ref href
    obtain ⟨e, he, href⟩ := mem_referencesList.mp href
    exact ih e he ref href
  | interpolate _ _ _ _ _ _ _ _ _ _ _ ihi ihs iho =>
    intro ref href
    simp only [references, List.mem_append, List.mem_singleton, mem_referencesPairs] at href
    rcases href with rfl | href | ⟨p, hp, href | href⟩
    · trivial
    · exact ihi ref href
    · exact ihs p hp ref href
    · exact iho p hp ref href
  | select _ _ _ _ _ _ _ _ _ _ _ _ ihi ihl iho ihf =>
    intro ref href
    simp only [references, List.mem_append, mem_referencesAlternatives] at href
    rcases href with href | href | ⟨p, hp, href | href⟩
    · exact ihi ref href
    · exact ihf ref href
    · exact ihl p hp ref href
    · exact iho p hp ref href
  | cases _ _ _ _ _ _ _ _ _ ihc iho ihf =>
    intro ref href
    simp only [references, List.mem_append, mem_referencesAlternatives] at href
    rcases href with href | ⟨p, hp, href | href⟩
    · exact ihf ref href
    · exact ihc p hp ref href
    · exact iho p hp ref href
  | widen _ _ _ _ ih => exact ih

section Outcome

variable {sizes : Nat → Prop} {stage : Stage} {e : Expr} {r r' : Registry}

/-- An expression leaves the registry as its references do, and fails where they fail. -/
theorem exists_registerAll_of_emit (typed : e.WellTyped sizes) (named : r.Named)
    {outcome : Except Issue Glsl.Term} (h : (emit stage e).run.run r = (outcome, r')) :
    ∃ registered, (registerAll stage e.references).run.run r = (registered, r') ∧
      outcome = registered.map fun _ => e.term stage r'.categories := by
  have hrun := (typed.emits stage).run r named
  rcases hall : (registerAll stage e.references).run.run r with ⟨registered, r₁⟩
  rw [hall] at hrun
  rw [emit, hrun] at h
  cases registered with
  | ok _ =>
    cases h
    exact ⟨_, rfl, rfl⟩
  | error i =>
    cases h
    exact ⟨_, rfl, rfl⟩

/-- Emission, whether it fails or not, is a sequence of the steps of a registry. -/
theorem emit_steps (typed : e.WellTyped sizes) (named : r.Named)
    {outcome : Except Issue Glsl.Term} (h : (emit stage e).run.run r = (outcome, r')) :
    Registry.Steps (Ty.Sized sizes) r r' := by
  obtain ⟨registered, hall, -⟩ := exists_registerAll_of_emit typed named h
  exact (registerAll_spec typed.references_typed hall).1

/-- Emission that succeeds gives the code of the expression, with all its references registered. -/
theorem emit_ok (typed : e.WellTyped sizes) (named : r.Named) {t : Glsl.Term}
    (h : (emit stage e).run.run r = (.ok t, r')) :
    t = e.term stage r'.categories ∧ ∀ ref ∈ e.references, ref.Provided stage r' := by
  obtain ⟨registered, hall, houtcome⟩ := exists_registerAll_of_emit typed named h
  have hprovided := (registerAll_spec typed.references_typed hall).2
  cases registered with
  | ok _ => exact ⟨Except.ok.inj houtcome, hprovided rfl named⟩
  | error i => cases houtcome

end Outcome

end ShaderStyle
