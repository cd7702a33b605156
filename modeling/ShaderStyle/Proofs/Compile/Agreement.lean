import ShaderStyle.Proofs.Compile.Result
import ShaderStyle.Proofs.Double.Integer

/-! The shaders and the tables of a result agree on the numbers that stand for texts. -/
namespace ShaderStyle

open Compilation

/-- What is done with a result. -/
inductive Result.Use where
  | set (name : String) (v : Value)
  | extract (feature : Bindings)
  | value (u : Variable)
  | category (s : String)

/-- Values are read without changing the result, and its table takes no more texts. -/
def Result.Use.apply (r : Result) : Use → Result
  | .set name v => r.setVariable name v
  | .extract _ | .value _ => r
  | .category s => { r with categories := r.categories.register s }

def Result.after (r : Result) (uses : List Result.Use) : Result := uses.foldl Result.Use.apply r

theorem Result.categories_after {r : Result} (frozen : r.categories.frozen = true)
    (uses : List Result.Use) : (r.after uses).categories = r.categories := by
  induction uses generalizing r with
  | nil => rfl
  | cons use uses ih =>
    have hstep : (use.apply r).categories = r.categories := by
      cases use with
      | set | extract | value => rfl
      | category s => exact Categories.register_of_frozen frozen s
    rw [after, List.foldl_cons, ← after, ih (by rw [hstep]; exact frozen), hstep]

namespace Categories

variable {c : Categories} {t : String}

/-- The number that stands for a value where a text is due. -/
def numberOf (c : Categories) : Option Value → Int
  | some (.text s) => c.number s
  | _ => -1

theorem encode_string (c : Categories) (value : Option Value) :
    encode .string c value = [.ofInt (c.numberOf value)] := by
  cases value with
  | none => rfl
  | some v => cases v <;> rfl

theorem numberOf_eq_iff (ht : t ∈ c.names) {value : Option Value} :
    c.numberOf value = c.number t ↔ value = some (.text t) := by
  have hpos := number_nonneg_iff.mpr ht
  unfold numberOf
  split
  · rw [number_eq_iff ht]
    simp
  · next hother =>
    constructor
    · intro hminus
      omega
    · intro htext
      exact absurd htext (hother t)

theorem neg_one_le_number (c : Categories) (s : String) : -1 ≤ c.number s := by
  unfold number
  split
  · omega
  · exact Int.le_refl _

theorem neg_one_le_numberOf (c : Categories) (value : Option Value) : -1 ≤ c.numberOf value := by
  unfold numberOf
  split
  · exact neg_one_le_number c _
  · exact Int.le_refl _

/-- Whether numbers that encode a value are the literal of a text: they are, exactly where the
value is the text. As doubles, they are told apart wherever doubles count exactly. -/
def Tells (c : Categories) (t : String) (value : Option Value) (numbers : List Double) : Prop :=
  (∃ i : Int, numbers = [.ofInt i] ∧ (i = c.number t ↔ value = some (.text t))) ∧
    (c.number t < 2 ^ 53 → (numbers = [.ofInt (c.number t)] ↔ value = some (.text t)))

theorem tells_encode (ht : t ∈ c.names) (value : Option Value) :
    c.Tells t value (encode .string c value) := by
  rw [encode_string]
  refine ⟨⟨c.numberOf value, rfl, numberOf_eq_iff ht⟩, fun exact_number => ?_⟩
  have hinj := Double.ofInt_eq_iff (neg_one_le_numberOf c value) (neg_one_le_number c t)
    exact_number
  rw [List.cons.injEq, hinj, numberOf_eq_iff ht]
  simp

end Categories

/-- How a result and its shaders agree on texts. -/
structure Result.TextsAgree (s : Style) (r : Result) : Prop where
  frozen : r.categories.frozen = true
  distinct : r.categories.names.Nodup
  numbered {i : Nat} (hi : i < r.categories.names.length) :
    r.categories.number r.categories.names[i] = i
  /-- The texts of the style come before those that only variables hold. -/
  literals_first : ∃ literals others, r.categories.names = literals ++ others ∧
    (∀ t, t ∈ literals ↔ ∃ ch ∈ s.channels, t ∈ (ch.expr r.vars).literals) ∧
    ∀ t ∈ others, ∃ u ∈ r.uniforms, u.type = .string ∧ r.vars.get? u.name = some (.text t)
  built {ch : Channel} (hch : ch ∈ s.channels) : ch.outcome r.vars = .ok (ch.expr r.vars)
  /-- Texts stand in the shaders as the numbers of the table, which has all of them. -/
  slots : r.shader.slots = s.slotText (Channel.code r.vars r.categories)
  literal_known {ch : Channel} (hch : ch ∈ s.channels) {t : String}
    (ht : t ∈ (ch.expr r.vars).literals) : 0 ≤ r.categories.number t
  uniform_known {u : Variable} (hu : u ∈ r.uniforms) (htype : u.type = .string) {t : String}
    (hvalue : r.vars.get? u.name = some (.text t)) :
    0 ≤ r.categories.number t ∧ r.uniformValue u = [.ofInt (r.categories.number t)]
  attribute_tells {ch : Channel} (hch : ch ∈ s.channels) {t : String}
    (ht : t ∈ (ch.expr r.vars).literals) (uses : List Result.Use) {a : Attribute}
    (htype : a.type = .string) (feature : Bindings) :
    r.categories.Tells t (feature.get? a.name) ((r.after uses).attributeValue feature a)
  uniform_tells {ch : Channel} (hch : ch ∈ s.channels) {t : String}
    (ht : t ∈ (ch.expr r.vars).literals) (uses : List Result.Use) {u : Variable}
    (htype : u.type = .string) :
    r.categories.Tells t ((r.after uses).vars.get? u.name) ((r.after uses).uniformValue u)

theorem Compilation.literals_events (vars : Bindings) (events : List Event) :
    events.flatMap (Event.literals vars) =
      (events.filterMap Event.channel?).flatMap fun ch => (ch.expr vars).literals := by
  induction events with
  | nil => rfl
  | cons event events ih =>
    rw [List.flatMap_cons, ih]
    cases event with
    | emitted ch => rfl
    | filled | rotated | textured => rfl

/-- The table of a result: the texts of the channels, then those of the variables. -/
theorem categories_of_compile {s : Style} {store : Option Bindings} {r : Result}
    {log : List LogEntry} (h : compile s store = (.ok r, log)) :
    r.categories = ((({} : Categories).registerEach
      (s.channels.flatMap fun ch => (ch.expr r.vars).literals)).registerEach
        (r.uniforms.filterMap (Variable.text? r.vars))).freeze := by
  obtain ⟨registry, htrace, -, -, -, huniforms, hcategories⟩ := compile_ok h
  have htexts := htrace.categories (Registry.named_fresh {})
  rw [literals_events, channels_styleEvents] at htexts
  rw [registerTexts_eq, htexts, ← huniforms] at hcategories
  exact hcategories

section

variable {s : Style} {store : Option Bindings} {r : Result} {log : List LogEntry}

theorem nodup_of_compile (h : compile s store = (.ok r, log)) : r.categories.names.Nodup := by
  rw [categories_of_compile h]
  exact Categories.nodup_registerEach (Categories.nodup_registerEach List.nodup_nil _) _

/-- Every text of a channel is in the table. -/
theorem mem_names_of_literal (h : compile s store = (.ok r, log)) {ch : Channel}
    (hch : ch ∈ s.channels) {t : String} (ht : t ∈ (ch.expr r.vars).literals) :
    t ∈ r.categories.names := by
  have hliteral : t ∈ s.channels.flatMap fun ch => (ch.expr r.vars).literals :=
    List.mem_flatMap.mpr ⟨ch, hch, ht⟩
  rw [categories_of_compile h]
  apply (Categories.grows_registerEach _ _).names.subset
  exact (Categories.mem_names_registerEach rfl).mpr (Or.inr hliteral)

/-- The text of every variable that is used as a category is in the table. -/
theorem mem_names_of_uniform (h : compile s store = (.ok r, log)) {u : Variable}
    (hu : u ∈ r.uniforms) (htype : u.type = .string) {t : String}
    (hvalue : r.vars.get? u.name = some (.text t)) : t ∈ r.categories.names := by
  have htext : t ∈ r.uniforms.filterMap (Variable.text? r.vars) :=
    List.mem_filterMap.mpr ⟨u, hu, Variable.text?_eq_some.mpr ⟨htype, hvalue⟩⟩
  rw [categories_of_compile h]
  exact (Categories.mem_names_registerEach (Categories.frozen_registerEach _ _)).mpr
    (Or.inr htext)

theorem literals_first_of_compile (h : compile s store = (.ok r, log)) :
    ∃ literals others, r.categories.names = literals ++ others ∧
      (∀ t, t ∈ literals ↔ ∃ ch ∈ s.channels, t ∈ (ch.expr r.vars).literals) ∧
      ∀ t ∈ others, ∃ u ∈ r.uniforms, u.type = .string ∧ r.vars.get? u.name = some (.text t) := by
  have hnodup := nodup_of_compile h
  have hcategories := categories_of_compile h
  generalize hfirst : ({} : Categories).registerEach
    (s.channels.flatMap fun ch => (ch.expr r.vars).literals) = first at hcategories
  have hfrozen : first.frozen = false := by
    rw [← hfirst]
    exact Categories.frozen_registerEach _ _
  obtain ⟨others, hothers⟩ :=
    (Categories.grows_registerEach first (r.uniforms.filterMap (Variable.text? r.vars))).names
  have hnames : r.categories.names = first.names ++ others := by
    rw [hcategories]
    exact hothers.symm
  refine ⟨first.names, others, hnames, fun t => ?_, fun t ht => ?_⟩
  · rw [← hfirst, Categories.mem_names_registerEach rfl, List.mem_flatMap]
    simp
  · have hnew : t ∉ first.names := by
      rw [hnames] at hnodup
      exact fun hmem => (List.nodup_append.mp hnodup).2.2 t hmem t ht rfl
    have hmem : t ∈ (first.registerEach (r.uniforms.filterMap (Variable.text? r.vars))).names := by
      rw [← hothers]
      exact List.mem_append_right _ ht
    rcases (Categories.mem_names_registerEach hfrozen).mp hmem with hold | htext
    · exact absurd hold hnew
    · obtain ⟨u, hu, hu'⟩ := List.mem_filterMap.mp htext
      exact ⟨u, hu, Variable.text?_eq_some.mp hu'⟩

/-- In every compiled style the shaders and the encoders agree on texts. The table lists distinct
texts with their numbers, the slots compare with these numbers, and whatever a property or a
variable holds later, its encoding is the number of a literal exactly where it is that text. -/
theorem compile_textsAgree (h : compile s store = (.ok r, log)) :
    r.vars = store.getD (s.vars.getD .empty) ∧ r.TextsAgree s := by
  obtain ⟨registry, htrace, hvars, hshader, -, -, -⟩ := compile_ok h
  have hfrozen : r.categories.frozen = true := by
    rw [categories_of_compile h]
    rfl
  refine ⟨hvars, {
    frozen := hfrozen
    distinct := nodup_of_compile h
    numbered := fun hi => Categories.number_getElem (nodup_of_compile h) hi
    literals_first := literals_first_of_compile h
    built := fun {ch} hch => ?_
    slots := ?_
    literal_known := fun {ch} hch {t} ht => ?_
    uniform_known := fun {u} hu htype {t} hvalue => ?_
    attribute_tells := fun {ch} hch {t} ht uses {a} htype feature => ?_
    uniform_tells := fun {ch} hch {t} ht uses {u} htype => ?_ }⟩
  · rw [← channels_styleEvents (Channel.code r.vars r.categories)] at hch
    obtain ⟨event, hevent, hchannel⟩ := List.mem_filterMap.mp hch
    cases event with
    | emitted ch' =>
      cases hchannel
      exact htrace.outcome_eq hevent
    | _ => cases hchannel
  · rw [hshader, htrace.slots (Registry.named_fresh {}), ← slots_styleEvents]
  · exact Categories.number_nonneg_iff.mpr (mem_names_of_literal h hch ht)
  · refine ⟨Categories.number_nonneg_iff.mpr (mem_names_of_uniform h hu htype hvalue), ?_⟩
    rw [Result.uniformValue, htype, hvalue]
    rfl
  · rw [Result.attributeValue, htype, Result.categories_after hfrozen]
    exact Categories.tells_encode (mem_names_of_literal h hch ht) _
  · rw [Result.uniformValue, htype, Result.categories_after hfrozen]
    exact Categories.tells_encode (mem_names_of_literal h hch ht) _

end

/-- Roads are red, everything else is blue. -/
private def roads : Style where
  fillColor := .list [.text "match", .list [.text "get", .text "kind", .text "string"],
    .text "road", .text "red", .text "blue"]

theorem compile_textsAgree_roads :
    ∃ r log, compile roads none = (.ok r, log) ∧ r.categories.names = ["road"] ∧
      r.shader.slots .fillColor =
        "(v_kind == 0.0 ? vec4(1.0, 0.0, 0.0, 1.0) : vec4(0.0, 0.0, 1.0, 1.0))" ∧
      r.vars = .empty ∧ r.TextsAgree roads := by
  have hcompile : (match (compile roads none).1 with
      | .ok r => decide (r.categories.names = ["road"] ∧ r.shader.slots .fillColor =
          "(v_kind == 0.0 ? vec4(1.0, 0.0, 0.0, 1.0) : vec4(0.0, 0.0, 1.0, 1.0))")
      | .error _ => false) = true := by decide +kernel
  rcases hrun : compile roads none with ⟨outcome, log⟩
  rw [hrun] at hcompile
  cases outcome with
  | error is => cases hcompile
  | ok r =>
    obtain ⟨hnames, hslot⟩ := of_decide_eq_true hcompile
    obtain ⟨hvars, hagree⟩ := compile_textsAgree hrun
    exact ⟨r, log, rfl, hnames, hslot, hvars, hagree⟩

end ShaderStyle
