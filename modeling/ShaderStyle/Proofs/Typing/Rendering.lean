import ShaderStyle.Proofs.Emission.Parts

/-! Building keeps the expression that a style has written. Types are added, and nothing else
changes: every node comes from the element at its own place. -/
namespace ShaderStyle

namespace Value

/-- The element of an array at an index. -/
def at? : Value → Nat → Option Value
  | .list items, i => items[i]?
  | .doubles xs, i => xs[i]?.map .double
  | .singles xs, i => xs[i]?.map .single
  | .integers type ns, i => ns[i]?.map (.integer type)
  | .texts ss, i => ss[i]?.map .text
  | _, _ => none

/-- The element that a chain of indices leads to, through nested arrays. -/
def follow? (v : Value) : List Nat → Option Value
  | [] => some v
  | i :: is => (v.at? i).bind fun w => w.follow? is

theorem follow?_cons {v w : Value} {i : Nat} (h : v.at? i = some w) (is : List Nat) :
    v.follow? (i :: is) = w.follow? is := by
  rw [follow?, h, Option.bind_some]

end Value

/-- The place that a chain of indices leads to. -/
def Path.follow (path : Path) : List Nat → Path
  | [] => path
  | i :: is => (path.index i).follow is

/-- The exponent that an interpolation type stands for: one if it is linear, else the base. -/
inductive Value.Interpolates : Value → Double → Prop where
  | linear : Interpolates (.list [.text "linear"]) (.finite 1)
  | exponential {base : Value} {x : Double} (value : base.number? = some x) :
      Interpolates (.list [.text "exponential", base]) x

theorem Node.interpolates_of_readExponent {path : Path} {type : Value} {x : Double}
    (h : readExponent path type = .ok x) : type.Interpolates x := by
  unfold readExponent at h
  split at h
  · cases h
    exact .linear
  · split at h
    · rename_i value
      cases h
      exact .exponential value
    · exact absurd h Checked.fail_ne_ok
  · exact absurd h Checked.fail_ne_ok

namespace Expr

/-- The literals that an input can be compared with. -/
def isLabel : Expr → Bool
  | .number _ _ | .text _ _ | .bool _ _ => true
  | _ => false

/-- The expression renders a value that stands at a place. But for its types, and the numbers that
are widened, it is the value: the same operators and names, and the same operands at their indices.
A text or an array of numbers is kept, or is the color that it reads as. -/
inductive Renders : Path → Value → Expr → Prop where
  | number (path : Path) {v : Value} {x : Double} (value : v.number? = some x) :
      Renders path v (.number path x)
  | bool (path : Path) (b : Bool) : Renders path (.bool b) (.bool path b)
  | text (path : Path) (s : String) : Renders path (.text s) (.text path s)
  | textColor (path : Path) {s : String} {c : Rgba} (reads : Color.ofText s = .ok c) :
      Renders path (.text s) (.color path c)
  | array (path : Path) {v : Value} {xs : List Double} (values : v.numbers? = some xs) :
      Renders path v (.array path xs)
  | arrayColor (path : Path) {v : Value} {xs : List Double} {c : Rgba}
      (values : v.numbers? = some xs) (reads : Color.ofList? xs = some c) :
      Renders path v (.color path c)
  | get (path : Path) (name : String) (type : Ty) :
      Renders path (.list [.text "get", .text name]) (.get path name type)
  | hintedGet (path : Path) (name : String) (size : Nat) {hint : String} {h : Hint}
      (known : Hint.ofName? hint = some h) :
      Renders path (.list [.text "get", .text name, .text hint]) (.get path name (h.type size))
  | var (path : Path) (name : String) (type : Ty) :
      Renders path (.list [.text "var", .text name]) (.var path name type)
  | builtin (path : Path) (name : String) : Renders path (.list [.text name]) (.builtin path name)
  | call (path : Path) (op : Op) {vs : List Value} {args : List Expr} (type : Ty)
      (count : vs.length = args.length)
      (parts : ∀ (i : Nat) (v : Value) (x : Expr), vs[i]? = some v → args[i]? = some x →
        Renders (path.index (1 + i : Nat)) v x) :
      Renders path (.list (.text op.name :: vs)) (.call path op args type)
  | interpolate (path : Path) {kind : Value} {exponent : Double} {vs : List Value} {input : Expr}
      {stops : List (Expr × Expr)} (type : Ty) (interpolates : kind.Interpolates exponent)
      (count : vs.length = (input :: laidOut stops).length)
      (parts : ∀ (i : Nat) (v : Value) (x : Expr), vs[i]? = some v →
        (input :: laidOut stops)[i]? = some x → Renders (path.index (2 + i : Nat)) v x) :
      Renders path (.list (.text "interpolate" :: kind :: vs))
        (.interpolate path exponent input stops [] type)
  | select (path : Path) {vs : List Value} {input fallback : Expr}
      {alternatives : List (Expr × Expr)} (type : Ty) (labels : ∀ a ∈ alternatives, a.1.isLabel)
      (count : vs.length = (input :: (laidOut alternatives ++ [fallback])).length)
      (parts : ∀ (i : Nat) (v : Value) (x : Expr), vs[i]? = some v →
        (input :: (laidOut alternatives ++ [fallback]))[i]? = some x →
        Renders (path.index (1 + i : Nat)) v x) :
      Renders path (.list (.text "match" :: vs)) (.select path input alternatives [] fallback type)
  | cases (path : Path) {vs : List Value} {fallback : Expr} {alternatives : List (Expr × Expr)}
      (type : Ty) (count : vs.length = (laidOut alternatives ++ [fallback]).length)
      (parts : ∀ (i : Nat) (v : Value) (x : Expr), vs[i]? = some v →
        (laidOut alternatives ++ [fallback])[i]? = some x →
        Renders (path.index (1 + i : Nat)) v x) :
      Renders path (.list (.text "case" :: vs)) (.cases path alternatives fallback type)
  | widen {path : Path} {v : Value} {x : Expr} (type : Ty) (renders : Renders path v x) :
      Renders path v (.widen x type)

theorem Renders.source {path : Path} {v : Value} {e : Expr} (h : Renders path v e) :
    e.source = path := by
  induction h with
  | widen _ _ ih => exact ih
  | _ => rfl

/-- A node renders the element that some indices lead to, and stands at its place. -/
def RendersWithin (path : Path) (v : Value) (n : Expr) : Prop :=
  ∃ indices w, v.follow? indices = some w ∧ n.source = path.follow indices ∧
    Renders (path.follow indices) w n

namespace RendersWithin

theorem whole {path : Path} {v : Value} {n : Expr} (h : Renders path v n) :
    RendersWithin path v n := ⟨[], v, rfl, h.source, h⟩

theorem element {path : Path} {v w : Value} {n : Expr} {i : Nat} (found : v.at? i = some w)
    (h : RendersWithin (path.index i) w n) : RendersWithin path v n := by
  obtain ⟨indices, u, hfollow, hsource, hrenders⟩ := h
  exact ⟨i :: indices, u, (Value.follow?_cons found indices).trans hfollow, hsource, hrenders⟩

theorem leaf {path : Path} {v : Value} {e : Expr} (none : e.parts = []) (h : Renders path v e) :
    ∀ n ∈ e.nodes, RendersWithin path v n := by
  intro n hn
  rcases mem_nodes.mp hn with rfl | ⟨x, hx, -⟩
  · exact whole h
  · rw [none] at hx
    cases hx

/-- Where an array renders as an expression, the parts of which render the elements after some
others, all nodes render elements of the array. -/
theorem nodes_of_parts {path : Path} (head : List Value) {vs : List Value} {e : Expr}
    (hwhole : Renders path (.list (head ++ vs)) e) (count : vs.length = e.parts.length)
    (h : ∀ (j : Nat) (v : Value) (x : Expr), vs[j]? = some v → e.parts[j]? = some x →
      ∀ n ∈ x.nodes, RendersWithin (path.index (head.length + j : Nat)) v n) :
    ∀ n ∈ e.nodes, RendersWithin path (.list (head ++ vs)) n := by
  intro n hn
  rcases mem_nodes.mp hn with rfl | ⟨x, hx, hpart⟩
  · exact whole hwhole
  · obtain ⟨j, hj⟩ := List.mem_iff_getElem?.mp hx
    have hbound : j < vs.length := by
      rw [count]
      exact (List.getElem?_eq_some_iff.mp hj).1
    have hv : vs[j]? = some vs[j] := List.getElem?_eq_getElem hbound
    have hitem : (head ++ vs)[head.length + j]? = some vs[j] := by
      rw [List.getElem?_append_right (Nat.le_add_right _ _), Nat.add_sub_cancel_left, hv]
    exact element hitem (h j _ x hv hj n hpart)

end RendersWithin

/-- In an expression that renders a value, every node renders the element that it comes from. -/
theorem Renders.nodes {path : Path} {v : Value} {e : Expr} (h : Renders path v e) :
    ∀ n ∈ e.nodes, RendersWithin path v n := by
  induction h with
  | number path value => exact .leaf rfl (.number path value)
  | bool path b => exact .leaf rfl (.bool path b)
  | text path s => exact .leaf rfl (.text path s)
  | textColor path reads => exact .leaf rfl (.textColor path reads)
  | array path values => exact .leaf rfl (.array path values)
  | arrayColor path values reads => exact .leaf rfl (.arrayColor path values reads)
  | get path name type => exact .leaf rfl (.get path name type)
  | hintedGet path name size known => exact .leaf rfl (.hintedGet path name size known)
  | var path name type => exact .leaf rfl (.var path name type)
  | builtin path name => exact .leaf rfl (.builtin path name)
  | call path op type count parts ih =>
    exact .nodes_of_parts [.text op.name] (.call path op type count parts) count ih
  | interpolate path type interpolates count parts ih =>
    exact .nodes_of_parts [.text "interpolate", _]
      (.interpolate path type interpolates count parts) count ih
  | select path type labels count parts ih =>
    exact .nodes_of_parts [.text "match"] (.select path type labels count parts) count ih
  | cases path type count parts ih =>
    exact .nodes_of_parts [.text "case"] (.cases path type count parts) count ih
  | widen type renders ih =>
    intro n hn
    rcases mem_nodes.mp hn with rfl | ⟨x, hx, hpart⟩
    · exact .whole (.widen type renders)
    · rw [List.mem_singleton.mp hx] at hpart
      exact ih n hpart

end Expr

/-- The first parts of pairs laid out before a last element are related to first parts. -/
theorem exists_fst_of_forall₂ {α β : Type} {R : α → β → Prop} {last : α} {last' : β} :
    ∀ {ps : List (α × α)} {xs : List (β × β)},
      List.Forall₂ R (laidOut ps ++ [last]) (laidOut xs ++ [last']) →
      ∀ x ∈ xs, ∃ p ∈ ps, R p.1 x.1
  | _, [], _ => nofun
  | [], x :: xs, h => by
    cases h with
    | cons _ h => cases h
  | p :: ps, x :: xs, h => by
    cases h with
    | cons hfirst h =>
      cases h with
      | cons _ h =>
        rw [List.forall_mem_cons]
        refine ⟨⟨p, by simp, hfirst⟩, fun y hy => ?_⟩
        obtain ⟨q, hq, hqy⟩ := exists_fst_of_forall₂ h y hy
        exact ⟨q, List.mem_cons_of_mem _ hq, hqy⟩

namespace Node

variable {scope : Scope}

/-- A label that is compared with an input is still the literal that it was. -/
theorem isLabel_of_buildsTo {sizes : Nat → Prop} {n : Node} {e : Expr}
    (label : n.labelKind?.isSome) (h : BuildsTo scope n e) (typed : e.WellTyped sizes)
    (type : e.type = .number ∨ e.type = .string ∨ e.type = .boolean) : e.isLabel := by
  obtain ⟨expected, h⟩ := h
  rcases resolvedFrom_of_build h with hfrom | ⟨x, t, rfl, hfrom⟩
  · cases hfrom with
    | number | bool | text => rfl
    | textColor => simp [Expr.type] at type
    | _ => cases label
  · cases typed with
    | widen _ _ vector =>
      rcases type with rfl | rfl | rfl <;> cases vector

/-- Whatever is built from the value renders it, at every place. -/
def RendersWell (scope : Scope) (v : Value) : Prop :=
  ∀ {path : Path} {n : Node} {e : Expr}, read path v = .ok n → BuildsTo scope n e →
    e.Renders path v

/-- The parts of an array render its elements, if reading and building gave them. -/
theorem ReadsAt.renders {path : Path} {i : Nat} {vs : List Value} {ns : List Node} {xs : List Expr}
    (reads : ReadsAt path i vs ns) (builds : List.Forall₂ (BuildsTo scope) ns xs)
    (hvs : ∀ v ∈ vs, RendersWell scope v) :
    vs.length = xs.length ∧ ∀ (j : Nat) (v : Value) (x : Expr), vs[j]? = some v → xs[j]? = some x →
      x.Renders (path.index (i + j : Nat)) v := by
  refine ⟨reads.1.trans builds.length_eq, fun j v x hv hx => ?_⟩
  have hbound : j < ns.length := by
    rw [← reads.1]
    exact (List.getElem?_eq_some_iff.mp hv).1
  have hn : ns[j]? = some ns[j] := List.getElem?_eq_getElem hbound
  have hbuild : BuildsTo scope ns[j] x := by
    have hrel := builds.get hbound (List.getElem?_eq_some_iff.mp hx).1
    rw [← (List.getElem?_eq_some_iff.mp hx).2]
    exact hrel
  exact hvs v (List.mem_of_getElem? hv) (reads.2 j v _ hv hn) hbuild

theorem renders_of_resolvedFrom {sizes : Nat → Prop} {path : Path} {v : Value} {n : Node} {e : Expr}
    (hitems : ∀ items, v = .list items → ∀ w ∈ items, RendersWell scope w)
    (hread : ReadFrom path v n) (h : Expr.ResolvedFrom scope n e) (typed : e.WellTyped sizes) :
    e.Renders path v := by
  cases hread with
  | number value =>
    cases h
    exact .number path value
  | bool b =>
    cases h
    exact .bool path b
  | text s =>
    cases h with
    | text => exact .text path s
    | textColor _ reads => exact .textColor path reads
  | array values =>
    cases h with
    | array => exact .array path values
    | arrayColor _ reads => exact .arrayColor path values reads
  | get name =>
    cases h
    exact .get path name _
  | hintedGet name known =>
    cases h with
    | get _ _ hinted =>
      rw [hinted _ rfl]
      exact .hintedGet path name _ known
  | var name =>
    cases h
    exact .var path name _
  | builtin name =>
    cases h
    exact .builtin path name
  | call reads =>
    cases h with
    | call _ _ type builds =>
      obtain ⟨count, parts⟩ := reads.renders builds fun w hw =>
        hitems _ rfl w (List.mem_cons_of_mem _ hw)
      exact .call path _ type count parts
  | interpolate exponent reads =>
    cases h with
    | interpolate _ _ type builds =>
      obtain ⟨count, parts⟩ := reads.renders builds fun w hw =>
        hitems _ rfl w (List.mem_cons_of_mem _ (List.mem_cons_of_mem _ hw))
      exact .interpolate path type (interpolates_of_readExponent exponent) count parts
  | select labels reads =>
    cases h with
    | select _ type builds =>
      obtain ⟨count, parts⟩ := reads.renders builds fun w hw =>
        hitems _ rfl w (List.mem_cons_of_mem _ hw)
      refine .select path type (fun a ha => ?_) count parts
      cases typed with
      | select _ _ _ label_kind _ label_type _ _ _ labels_typed =>
        cases builds with
        | cons _ builds =>
          obtain ⟨p, hp, hbuilds⟩ := exists_fst_of_forall₂ builds a ha
          refine isLabel_of_buildsTo (labels p hp) hbuilds (labels_typed a ha) ?_
          rw [label_type a ha]
          exact label_kind
  | cases reads =>
    cases h with
    | cases _ type builds =>
      obtain ⟨count, parts⟩ := reads.renders builds fun w hw =>
        hitems _ rfl w (List.mem_cons_of_mem _ hw)
      exact .cases path type count parts

/-- Building keeps the expression, by induction on the value: reading takes one level of it apart,
and resolution puts the same operands together again. -/
theorem rendersWell (scope : Scope) (v : Value) : RendersWell scope v := by
  intro path n e hread hbuild
  have hitems : ∀ items, v = .list items → ∀ w ∈ items, RendersWell scope w := by
    rintro items rfl w hw
    exact rendersWell scope w
  obtain ⟨expected, hbuild⟩ := hbuild
  have hwf := read_wellFormed path v hread
  have hsound : Sound (fun _ => True) expected e :=
    widening_sound trivial (hwf.resolves (fun _ _ => trivial) trivial) hbuild
  have hfrom := readFrom_of_read hread
  rcases resolvedFrom_of_build hbuild with hresolved | ⟨x, type, rfl, hresolved⟩
  · exact renders_of_resolvedFrom hitems hfrom hresolved hsound.typed
  · cases hsound.typed with
    | widen _ _ _ typed => exact .widen type (renders_of_resolvedFrom hitems hfrom hresolved typed)
termination_by sizeOf v
decreasing_by
  subst v
  have := List.sizeOf_lt_of_mem hw
  simp
  omega

end Node

theorem buildExpr_renders {scope : Scope} {path : Path} {raw : Value} {expected : TypeSet}
    {e : Expr} (h : buildExpr scope path raw expected = .ok e) : e.Renders path raw := by
  obtain ⟨n, hread, hbuild⟩ := Checked.bind_eq_ok.mp h
  exact Node.rendersWell scope raw hread ⟨expected, hbuild⟩

theorem buildOfType_renders {vars : OrderedMap String Value} {path : Path} {raw : Value} {want : Ty}
    {e : Expr} (h : buildOfType vars path raw want = .ok e) : e.Renders path raw := by
  obtain ⟨x, hbuild, h⟩ := Checked.bind_eq_ok.mp h
  split_ifs at h
  · cases h
    exact buildExpr_renders hbuild
  · exact absurd h Checked.fail_ne_ok

/-- Building keeps the expression. Forgetting types and widened numbers gives back what the style
has written, and each node stands at the place of the element that it was built from. -/
theorem Builder.build_renders (b b' : Builder) (path : Path) (raw : Value) (e : Expr)
    (built : (∃ expected, b.build path raw expected = (some e, b')) ∨
      ∃ want, b.buildType path raw want = (some e, b')) :
    e.Renders path raw ∧
      ∀ n ∈ e.nodes, ∃ indices v, raw.follow? indices = some v ∧
        n.source = path.follow indices ∧ n.Renders (path.follow indices) v := by
  have hrenders : e.Renders path raw := by
    rcases built with ⟨expected, h⟩ | ⟨want, h⟩
    · exact buildExpr_renders (collect_eq_some h)
    · exact buildOfType_renders (collect_eq_some h)
  exact ⟨hrenders, hrenders.nodes⟩

/-- Roads with two lanes get wider with the zoom, and all others have one width. -/
private def widthByLanes : Value :=
  .list [.text "match", .list [.text "get", .text "lanes"], .double (.finite 2),
    .list [.text "interpolate", .list [.text "exponential", .double (.finite 2)],
      .list [.text "zoom"], .double (.finite 5), .double (.finite 1), .double (.finite 10), .double (.finite 8)],
    .double (.finite 3)]

private def widthByLanesExpr : Expr :=
  .select ⟨"width"⟩ (.get ⟨"width[1]"⟩ "lanes" .number)
    [(.number ⟨"width[2]"⟩ (.finite 2),
      .interpolate ⟨"width[3]"⟩ (.finite 2) (.builtin ⟨"width[3][2]"⟩ "zoom")
        [(.number ⟨"width[3][3]"⟩ (.finite 5), .number ⟨"width[3][4]"⟩ (.finite 1)),
          (.number ⟨"width[3][5]"⟩ (.finite 10), .number ⟨"width[3][6]"⟩ (.finite 8))]
        [] .number)]
    [] (.number ⟨"width[4]"⟩ (.finite 3)) .number

theorem Builder.build_renders_widthByLanes :
    Builder.build ⟨.empty, []⟩ ⟨"width"⟩ widthByLanes .numbers =
        (some widthByLanesExpr, ⟨.empty, []⟩) ∧
      widthByLanesExpr.Renders ⟨"width"⟩ widthByLanes := by
  have hbuild : Builder.build ⟨.empty, []⟩ ⟨"width"⟩ widthByLanes .numbers =
      (some widthByLanesExpr, ⟨.empty, []⟩) := by cbv
  exact ⟨hbuild, (build_renders _ _ _ _ _ (Or.inl ⟨_, hbuild⟩)).1⟩

end ShaderStyle
