import ShaderStyle.Proofs.Emission.Operations

/-! References to properties and variables that are made one after the other. Different references
never share an identifier, and a reference that is refused leaves no trace. -/
namespace ShaderStyle.Registry

/-- What a name belongs to. The names of a family are registered in one table. -/
inductive Family where
  | property
  | styleVariable
  deriving DecidableEq

/-- What a reference is in the shaders: a property in the vertex shader, a property in the fragment
shader, or a variable. -/
inductive Role where
  | input
  | varying
  | uniform
  deriving DecidableEq

namespace Role

def family : Role → Family
  | .input | .varying => .property
  | .uniform => .styleVariable

/-- How the identifiers of a role begin. -/
def start : Role → String
  | .input => "a_"
  | .varying => "v_"
  | .uniform => "u_var_"

def ident (role : Role) (name : String) : String := role.start ++ Glsl.mangle name

theorem eq_of_ident_eq {role other : Role} {a b : String} (h : role.ident a = other.ident b) :
    role = other := by
  have hfirst (role : Role) (name : String) :
      (role.ident name).toList.head? = role.start.toList.head? := by
    rw [ident, String.toList_append, List.head?_append_of_ne_nil]
    cases role <;> decide
  have hstart : role.start.toList.head? = other.start.toList.head? := by
    rw [← hfirst role a, ← hfirst other b, h]
  revert hstart
  cases role <;> cases other <;> decide

theorem ident_eq_iff {role other : Role} {a b : String} :
    role.ident a = other.ident b ↔ role = other ∧ Glsl.mangle a = Glsl.mangle b := by
  constructor
  · intro h
    obtain rfl := eq_of_ident_eq h
    exact ⟨rfl, (String.append_right_inj _).mp h⟩
  · rintro ⟨rfl, h⟩
    rw [ident, ident, h]

theorem start_prefix_ident (role : Role) (name : String) :
    role.start.toList <+: (role.ident name).toList := by
  rw [ident, String.toList_append]
  exact List.prefix_append _ _

theorem mem_ident {role : Role} {name : String} {c : Char} (h : c ∈ (role.ident name).toList) :
    c.isAlphanum = true ∨ c = '_' := by
  have hstart : role.start.toList.all Glsl.isIdentChar = true := by cases role <;> decide
  rw [ident, String.toList_append, List.mem_append] at h
  apply Glsl.isIdentChar_iff.mp
  rcases h with h | h
  · exact List.all_eq_true.mp hstart c h
  · exact Glsl.isIdentChar_of_mem_mangle h

end Role

/-- A reference to a name at a place in a style. -/
structure Call where
  role : Role
  path : Path
  name : String
  type : Ty

namespace Call

def family (c : Call) : Family := c.role.family

def typedName (c : Call) : String × Ty := (c.name, c.type)

/-- Registers the name and gives its identifier. -/
def register (c : Call) : RegistryM String :=
  match c.role with
  | .input => Registry.property c.path c.name c.type .vertex
  | .varying => Registry.property c.path c.name c.type .fragment
  | .uniform => Registry.styleVariable c.path c.name c.type

end Call

namespace Family

/-- What errors call the names of the family. -/
def label : Family → String
  | .property => "feature property"
  | .styleVariable => "variable"

/-- The type that a name of the family is registered with. -/
def type? (r : Registry) (name : String) : Family → Option Ty
  | .property => r.propertyType? name
  | .styleVariable => r.variableType? name

/-- The identifier that a name of the family claims first. -/
def ident (name : String) : Family → String
  | .property => Glsl.attributeName name
  | .styleVariable => Glsl.uniformName name

/-- The names of the family that calls refer to. -/
def names (family : Family) (cs : List Call) : List (String × Ty) :=
  (cs.filter (·.family = family)).map Call.typedName

@[simp] theorem names_append (family : Family) (cs ds : List Call) :
    family.names (cs ++ ds) = family.names cs ++ family.names ds := by
  simp [names]

@[simp] theorem names_singleton (family : Family) (c : Call) :
    family.names [c] = if c.family = family then [c.typedName] else [] := by
  by_cases h : c.family = family <;> simp [names, h]

theorem mem_names {family : Family} {cs : List Call} {p : String × Ty} :
    p ∈ family.names cs ↔ ∃ c ∈ cs, c.family = family ∧ c.typedName = p := by
  simp [names, and_assoc]

end Family

/-- The names that calls refer to in the fragment shader. -/
def varyingNames (cs : List Call) : List (String × Ty) :=
  (cs.filter (·.role = .varying)).map Call.typedName

@[simp] theorem varyingNames_append (cs ds : List Call) :
    varyingNames (cs ++ ds) = varyingNames cs ++ varyingNames ds := by
  simp [varyingNames]

@[simp] theorem varyingNames_singleton (c : Call) :
    varyingNames [c] = if c.role = .varying then [c.typedName] else [] := by
  by_cases h : c.role = .varying <;> simp [varyingNames, h]

/-- The tables list what the calls refer to. -/
def Serving (cs : List Call) (r : Registry) : Prop :=
  r.Tables [] (Family.property.names cs) (varyingNames cs) (Family.styleVariable.names cs)

variable {cs calls : List Call} {c : Call} {i : Issue} {r r' : Registry}

theorem serving_fresh : Serving [] {} := tables_fresh nofun

/-- Why a call is refused. -/
theorem Tables.register_error {others : List String}
    {properties passed styleVariables : List (String × Ty)}
    (h : r.Tables others properties passed styleVariables)
    (refused : c.register.run.run r = (.error i, r')) :
    r' = r ∧ r.Refuses c.family.label (c.family.type? r c.name) (c.family.ident c.name) c.path
      c.name c.type i := by
  obtain ⟨role, path, name, type⟩ := c
  cases role with
  | input =>
    have hrun : (Registry.property path name type .vertex).run.run r = (.error i, r') := refused
    exact h.property_error hrun
  | varying =>
    have hrun : (Registry.property path name type .fragment).run.run r = (.error i, r') := refused
    exact h.property_error hrun
  | uniform =>
    have hrun : (Registry.styleVariable path name type).run.run r = (.error i, r') := refused
    exact h.styleVariable_error hrun

namespace Serving

/-- A call is accepted exactly where its name goes together with the earlier ones. -/
theorem register (h : r.Serving cs) (c : Call) :
    Ends c.register r (fun ident r' => ident = c.role.ident c.name ∧ r'.Serving (cs ++ [c]))
      (¬Coherent (c.family.names (cs ++ [c]))) := by
  have hnamed := Tables.named h
  have hself : c.family.names (cs ++ [c]) = c.family.names cs ++ [c.typedName] := by simp
  rw [hself]
  obtain ⟨role, path, name, type⟩ := c
  cases role with
  | input =>
    refine (Tables.property h path name type .vertex).mono (fun ident r' run htables => ?_) id
    refine ⟨hnamed.property_ident run, ?_⟩
    simpa [Serving, Call.family, Role.family, Call.typedName, Stage.passedOn] using htables
  | varying =>
    refine (Tables.property h path name type .fragment).mono (fun ident r' run htables => ?_) id
    refine ⟨hnamed.property_ident run, ?_⟩
    simpa [Serving, Call.family, Role.family, Call.typedName, Stage.passedOn] using htables
  | uniform =>
    refine (Tables.styleVariable h path name type).mono (fun ident r' run htables => ?_) id
    refine ⟨hnamed.styleVariable_ident run, ?_⟩
    simpa [Serving, Call.family, Role.family, Call.typedName] using htables

/-- What is registered was accepted in an earlier call. -/
theorem mem_names (h : r.Serving cs) {family : Family} {name : String} {type : Ty}
    (known : family.type? r name = some type) : (name, type) ∈ family.names cs := by
  cases family with
  | property =>
    obtain ⟨a, entry, rfl⟩ := Option.map_eq_some_iff.mp known
    obtain ⟨p, hp, rfl, rfl⟩ := (Tables.attributes h).get?_eq_some entry
    exact hp
  | styleVariable =>
    obtain ⟨v, entry, rfl⟩ := Option.map_eq_some_iff.mp known
    obtain ⟨p, hp, rfl, rfl⟩ := (Tables.vars h).get?_eq_some entry
    exact hp

theorem coherent (h : r.Serving cs) (family : Family) : Coherent (family.names cs) := by
  cases family with
  | property => exact Tables.coherent_properties h
  | styleVariable => exact Tables.coherent_variables h

/-- A new name is refused where its identifier is that of another name of the family. -/
theorem refused_iff (h : r.Serving cs) (fresh : ∀ d ∈ cs, d.family = c.family → d.name ≠ c.name) :
    (∃ i, (c.register.run.run r).1 = .error i) ↔
      ∃ d ∈ cs, d.family = c.family ∧ d.name ≠ c.name ∧
        Glsl.mangle d.name = Glsl.mangle c.name := by
  have hends := h.register c
  rcases hrun : c.register.run.run r with ⟨answer, r'⟩
  rw [Ends, hrun] at hends
  cases answer with
  | ok ident =>
    have hcoherent := hends.2.coherent c.family
    refine iff_of_false (by simp) ?_
    rintro ⟨d, hd, hfamily, differ, same⟩
    have hd' : d.typedName ∈ c.family.names (cs ++ [c]) :=
      Family.mem_names.mpr ⟨d, List.mem_append_left _ hd, hfamily, rfl⟩
    have hc : c.typedName ∈ c.family.names (cs ++ [c]) :=
      Family.mem_names.mpr ⟨c, by simp, rfl, rfl⟩
    exact hcoherent.apart hd' hc differ same
  | error i =>
    refine iff_of_true ⟨i, rfl⟩ ?_
    -- A name with an identifier of its own would go together with the earlier ones.
    by_contra hnone
    refine hends ?_
    rw [Family.names_append, Family.names_singleton, if_pos rfl]
    refine (h.coherent c.family).concat fun p hp same => ?_
    obtain ⟨d, hd, hfamily, rfl⟩ := Family.mem_names.mp hp
    exact hnone ⟨d, hd, hfamily, fresh d hd hfamily, same⟩

/-- A new name that is refused cannot be resolved. -/
theorem refused_fresh (h : r.Serving cs) (fresh : ∀ d ∈ cs, d.family = c.family → d.name ≠ c.name)
    (refused : c.register.run.run r = (.error i, r')) : i.cause.problem? = some .resolution := by
  obtain ⟨-, hrefuses⟩ := Tables.register_error h refused
  cases hrefuses with
  | clash => rfl
  | retyped known =>
    obtain ⟨d, hd, hfamily, hname⟩ := Family.mem_names.mp (h.mem_names known)
    exact absurd (congrArg Prod.fst hname) (fresh d hd hfamily)

end Serving

/-- The answers to calls that are made one after the other. -/
def answers (r : Registry) : List Call → List (Call × Except Issue String)
  | [] => []
  | c :: cs => (c, (c.register.run.run r).1) :: answers (c.register.run.run r).2 cs

theorem map_fst_answers (r : Registry) (calls : List Call) :
    (r.answers calls).map Prod.fst = calls := by
  induction calls generalizing r with
  | nil => rfl
  | cons c calls ih => rw [answers, List.map_cons, ih]

/-- The calls that were accepted. -/
def accepted (xs : List (Call × Except Issue String)) : List Call :=
  xs.filterMap fun
    | (c, .ok _) => some c
    | (_, .error _) => none

theorem accepted_append (xs ys : List (Call × Except Issue String)) :
    accepted (xs ++ ys) = accepted xs ++ accepted ys := List.filterMap_append

theorem mem_accepted {xs : List (Call × Except Issue String)} {c : Call} {ident : String}
    (h : (c, .ok ident) ∈ xs) : c ∈ accepted xs := List.mem_filterMap.mpr ⟨_, h, rfl⟩

/-- One more call, whether it is accepted or refused. -/
theorem Serving.step (h : r.Serving cs) (c : Call) :
    Serving (cs ++ accepted [(c, (c.register.run.run r).1)]) (c.register.run.run r).2 := by
  have hends := h.register c
  rcases hrun : c.register.run.run r with ⟨answer, r'⟩
  rw [Ends, hrun] at hends
  cases answer with
  | ok ident => exact hends.2
  | error i =>
    obtain ⟨rfl, -⟩ := Tables.register_error h hrun
    rwa [show accepted [(c, .error i)] = [] from rfl, List.append_nil]

/-- After some of the answers, the others are those of a registry that serves what was accepted. -/
theorem Serving.resume {before rest : List (Call × Except Issue String)} (h : r.Serving cs)
    (split : r.answers calls = before ++ rest) :
    ∃ r₁, Serving (cs ++ accepted before) r₁ ∧ rest = r₁.answers (rest.map Prod.fst) := by
  induction before generalizing r cs calls with
  | nil =>
    rw [List.nil_append] at split
    refine ⟨r, by simpa [accepted] using h, ?_⟩
    rw [← split, map_fst_answers]
  | cons x before ih =>
    cases calls with
    | nil => cases split
    | cons c calls =>
      rw [answers, List.cons_append, List.cons.injEq] at split
      obtain ⟨rfl, hrest⟩ := split
      obtain ⟨r₁, hserving, hanswers⟩ := ih (h.step c) hrest
      refine ⟨r₁, ?_, hanswers⟩
      rwa [List.append_assoc, ← accepted_append] at hserving

/-- An answer is that of a registry that serves what was accepted before. -/
theorem Serving.answer (h : r.Serving cs) {before after : List (Call × Except Issue String)}
    {answer : Except Issue String} (split : r.answers calls = before ++ (c, answer) :: after) :
    ∃ r₁, Serving (cs ++ accepted before) r₁ ∧ (c.register.run.run r₁).1 = answer := by
  obtain ⟨r₁, hserving, hrest⟩ := h.resume split
  rw [List.map_cons, answers, List.cons.injEq] at hrest
  exact ⟨r₁, hserving, (congrArg Prod.snd hrest.1).symm⟩

theorem Serving.ident_eq (h : r.Serving cs) {ident : String}
    (hc : (c, .ok ident) ∈ r.answers calls) : ident = c.role.ident c.name := by
  obtain ⟨before, after, split⟩ := List.append_of_mem hc
  obtain ⟨r₁, hserving, hanswer⟩ := h.answer split
  have hends := hserving.register c
  rcases hrun : c.register.run.run r₁ with ⟨outcome, r₂⟩
  rw [hrun] at hanswer
  obtain rfl : outcome = .ok ident := hanswer
  rw [Ends, hrun] at hends
  exact hends.1

/-- Names that share an identifier are one name, or they belong to different families. -/
theorem Serving.name_eq (h : r.Serving []) {d : Call} {x y : String}
    (hc : (c, .ok x) ∈ r.answers calls) (hd : (d, .ok y) ∈ r.answers calls)
    (family : c.family = d.family) (same : Glsl.mangle c.name = Glsl.mangle d.name) :
    c.name = d.name := by
  have split : r.answers calls = r.answers calls ++ [] := (List.append_nil _).symm
  obtain ⟨r₁, hserving, -⟩ := h.resume split
  rw [List.nil_append] at hserving
  have hc' : c.typedName ∈ d.family.names (accepted (r.answers calls)) :=
    Family.mem_names.mpr ⟨c, mem_accepted hc, family, rfl⟩
  have hd' : d.typedName ∈ d.family.names (accepted (r.answers calls)) :=
    Family.mem_names.mpr ⟨d, mem_accepted hd, rfl, rfl⟩
  exact congrArg Prod.fst ((hserving.coherent d.family).eq_of_mangle hc' hd' same)

/-- Answers in which different references have different identifiers. -/
structure KeepsApart (xs : List (Call × Except Issue String)) : Prop where
  wellFormed {c : Call} {ident : String} (hc : (c, .ok ident) ∈ xs) :
    (∀ char ∈ ident.toList, char.isAlphanum = true ∨ char = '_') ∧
      c.role.start.toList <+: ident.toList
  same_iff {c d : Call} {x y : String} (hc : (c, .ok x) ∈ xs) (hd : (d, .ok y) ∈ xs) :
    x = y ↔ c.name = d.name ∧ c.role = d.role
  /-- A name that is new to its family is refused where an earlier one got its identifier, and for
  no other reason. -/
  refused_iff {before after : List (Call × Except Issue String)} {c : Call}
    {answer : Except Issue String} (split : xs = before ++ (c, answer) :: after)
    (fresh : ∀ d ∈ accepted before, d.family = c.family → d.name ≠ c.name) :
    ((∃ i, answer = .error i) ↔ ∃ d ∈ accepted before, d.family = c.family ∧ d.name ≠ c.name ∧
      Glsl.mangle d.name = Glsl.mangle c.name) ∧
    ∀ i, answer = .error i → i.cause.problem? = some .resolution

/-- Whatever references are made, different ones never share an identifier. -/
theorem answers_keepApart (calls : List Call) : KeepsApart (({} : Registry).answers calls) where
  wellFormed hc := by
    rw [serving_fresh.ident_eq hc]
    exact ⟨fun _ => Role.mem_ident, Role.start_prefix_ident _ _⟩
  same_iff {c d x y} hc hd := by
    rw [serving_fresh.ident_eq hc, serving_fresh.ident_eq hd, Role.ident_eq_iff]
    constructor
    · rintro ⟨role, same⟩
      exact ⟨serving_fresh.name_eq hc hd (congrArg Role.family role) same, role⟩
    · rintro ⟨name, role⟩
      exact ⟨role, congrArg Glsl.mangle name⟩
  refused_iff split fresh := by
    obtain ⟨r, hserving, rfl⟩ := serving_fresh.answer split
    rw [List.nil_append] at hserving
    exact ⟨hserving.refused_iff fresh, fun i hi => hserving.refused_fresh fresh (Prod.ext hi rfl)⟩

-- The dash of the first name is spelled out in the second.
example : (accepted (({} : Registry).answers
    [⟨.input, ⟨"size"⟩, "a-b", .number⟩, ⟨.varying, ⟨"opacity"⟩, "a_x2Db", .number⟩,
      ⟨.uniform, ⟨"opacity"⟩, "a_x2Db", .number⟩])).map Call.role = [.input, .uniform] := by
  decide +kernel

/-- A reference that is refused has another type than before or an identifier that was made from
another name, and it changes nothing. -/
theorem refusedCall_unchanged {r r' : Registry} (reached : Operations {} r) {c : Call}
    {i : Issue} (refused : c.register.run.run r = (.error i, r')) :
    r' = r ∧ i.path = c.path ∧
      ((i.cause.problem? = some .typing ∧
          ∃ previous, c.family.type? r c.name = some previous ∧ previous ≠ c.type) ∨
        (i.cause.problem? = some .resolution ∧
          ∃ other, r.idents.get? (c.family.ident c.name) = some other ∧ other ≠ c.name)) := by
  obtain ⟨others, properties, passed, styleVariables, htables⟩ := reached.tabled
  obtain ⟨rfl, hrefuses⟩ := htables.register_error refused
  cases hrefuses with
  | retyped registered differ => exact ⟨rfl, rfl, Or.inl ⟨rfl, _, registered, differ⟩⟩
  | clash new claimed differ => exact ⟨rfl, rfl, Or.inr ⟨rfl, _, claimed, differ⟩⟩

/-- A registry that knows a texture and the property `a-b`. -/
private def withDash : Registry :=
  let texture := Registry.declare ⟨"symbol"⟩ fun s => s.addUniform "u_texture" "sampler2D"
  ((Registry.property ⟨"size"⟩ "a-b" .number .vertex).run.run (texture.run.run {}).2).2

private def dashSpelledOut : Call := ⟨.varying, ⟨"opacity"⟩, "a_x2Db", .number⟩

theorem refusedCall_unchanged_withDash :
    ∃ i, dashSpelledOut.register.run.run withDash = (.error i, withDash) ∧
      i.path = ⟨"opacity"⟩ ∧ i.cause.problem? = some .resolution := by
  have hrefused : (dashSpelledOut.register.run.run withDash).1.toOption = none := by decide +kernel
  have hunknown : dashSpelledOut.family.type? withDash dashSpelledOut.name = none := by
    decide +kernel
  have htexture := Relation.ReflTransGen.single (Operation.uniform (r := {}) ⟨"symbol"⟩
    "u_texture" "sampler2D" (by decide))
  have hreached : Operations {} withDash :=
    htexture.tail (.use (.property ⟨"size"⟩ "a-b" .number .vertex))
  rcases hrun : dashSpelledOut.register.run.run withDash with ⟨answer, r'⟩
  rw [hrun] at hrefused
  cases answer with
  | ok ident => cases hrefused
  | error i =>
    obtain ⟨rfl, hpath, ⟨-, previous, known, -⟩ | ⟨hproblem, -⟩⟩ :=
      refusedCall_unchanged hreached hrun
    · rw [hunknown] at known
      cases known
    · exact ⟨i, rfl, hpath, hproblem⟩

end ShaderStyle.Registry
