import ShaderStyle.Proofs.Typing.Soundness

/-! A failure always comes with an issue. -/
namespace ShaderStyle

namespace Checked

variable {α β : Type}

/-- Succeeds or says what is wrong. -/
def Reports (x : Checked α) : Prop := x ≠ .error []

namespace Reports

theorem ok (a : α) : Reports (.ok a) := nofun

theorem fail (path : Path) (cause : Cause) : Reports (Checked.fail path cause : Checked α) := nofun

theorem bind {x : Checked α} {f : α → Checked β} (hx : x.Reports)
    (hf : ∀ a, x = .ok a → (f a).Reports) : Reports (x >>= f) := by
  cases x with
  | ok a => exact hf a rfl
  | error is =>
    intro h
    cases h
    exact hx rfl

theorem both {x : Checked α} {y : Checked β} (hx : x.Reports) (hy : y.Reports) :
    (x.both y).Reports := by
  intro h
  cases x with
  | ok a =>
    cases y with
    | ok b => cases h
    | error js =>
      cases h
      exact hy rfl
  | error is =>
    have hne : is ≠ [] := by
      rintro rfl
      exact hx rfl
    cases y with
    | ok b =>
      cases h
      exact hx rfl
    | error js =>
      have hnil : is ++ js = [] := Except.error.inj h
      exact hne (List.append_eq_nil_iff.mp hnil).1

theorem map {x : Checked α} (hx : x.Reports) (f : α → β) : Reports (Except.map f x) := by
  cases x with
  | ok a => exact nofun
  | error is =>
    intro h
    cases h
    exact hx rfl

theorem discard {x : Checked α} (hx : x.Reports) : Reports (Functor.discard x) := hx.map _

end Reports

end Checked

open Checked (Reports)

namespace Node

theorem reports_readNumber (path : Path) (x : Double) : Reports (readNumber path x) := by
  unfold readNumber
  split
  · exact .ok _
  · exact .fail _ _

theorem reports_readArray (path : Path) (xs : List Double) : Reports (readArray path xs) := by
  unfold readArray
  split
  · exact .fail _ _
  · split
    · exact .fail _ _
    · exact .ok _

theorem reports_readName (path : Path) (form : String) (operands : List Value) :
    Reports (readName path form operands) := by
  unfold readName
  split
  · exact .fail _ _
  · exact .ok _
  · exact .fail _ _

theorem reports_readGet (path : Path) (operands : List Value) :
    Reports (readGet path operands) := by
  refine (reports_readName path "get" operands).bind fun name _ => ?_
  split
  · exact .ok _
  · split
    · exact .ok _
    · exact .fail _ _
  · exact .fail _ _
  · exact .fail _ _

theorem reports_readVar (path : Path) (operands : List Value) :
    Reports (readVar path operands) := by
  refine (reports_readName path "var" operands).bind fun name _ => ?_
  split
  · exact .ok _
  · exact .fail _ _

theorem reports_readBuiltin (path : Path) (name : String) (operands : List Value) :
    Reports (readBuiltin path name operands) := by
  unfold readBuiltin
  split
  · exact .ok _
  · exact .fail _ _

theorem reports_readLabel (path : Path) (v : Value) : Reports (readLabel path v) := by
  unfold readLabel
  split
  · exact reports_readNumber path _
  · split
    · exact .ok _
    · exact .ok _
    · exact .fail _ _

theorem reports_readExponent (path : Path) (v : Value) : Reports (readExponent path v) := by
  unfold readExponent
  split
  · exact .ok _
  · split
    · exact .ok _
    · exact .fail _ _
  · exact .fail _ _

theorem reports_checkStops (stops : List (Node × Node)) : Reports (checkStops stops) := by
  fun_induction checkStops stops with
  | case1 => exact .fail _ _
  | case2 _ _ _ _ _ _ _ _ ih => exact ih
  | case3 _ _ _ ih => exact ih
  | case4 => exact .ok _

theorem reports_interpolateOf (path : Path) (exponent : Double) (args : List Node) :
    Reports (interpolateOf path exponent args) := by
  cases args with
  | nil => exact .fail _ _
  | cons input rest => exact (reports_checkStops _).bind fun _ _ => .ok _

theorem reports_casesOf (path : Path) (args : List Node) : Reports (casesOf path args) := by
  unfold casesOf
  split
  · exact .ok _
  · exact .fail _ _

/-- Reading any of the values reports what is wrong. -/
def ReadsReport (vs : List Value) : Prop := ∀ v ∈ vs, ∀ path, Reports (read path v)

theorem reports_readArgs {vs : List Value} (hvs : ReadsReport vs) (path : Path) (i : Nat) :
    Reports (readArgs path i vs) := by
  induction vs generalizing i with
  | nil =>
    rw [readArgs]
    exact .ok _
  | cons v vs ih =>
    rw [readArgs]
    have hrest := ih (fun w hw => hvs w (List.mem_cons_of_mem _ hw)) (i + 1)
    exact ((hvs v (by simp) _).both hrest).bind fun _ _ => .ok _

theorem reports_readAlternatives : ∀ {vs : List Value}, ReadsReport vs →
    ∀ (path : Path) (i : Nat) (known : Option Kind),
      Reports (readAlternatives path i known vs).1 ∧ Reports (readAlternatives path i known vs).2
  | [], _, path, i, known => by
    rw [readAlternatives]
    exact ⟨.fail _ _, .ok _⟩
  | [v], hvs, path, i, known => by
    rw [readAlternatives]
    exact ⟨hvs v (by simp) _, .ok _⟩
  | l :: o :: rest, hvs, path, i, known => by
    have hsub : ReadsReport rest := fun w hw => hvs w (by simp [hw])
    have hrest := reports_readAlternatives hsub path (i + 2)
    unfold readAlternatives
    refine ⟨(hrest _).1, ?_⟩
    have hlabel := (reports_readLabel (path.index i) l).both (hvs o (by simp) (path.index (i + 1)))
    refine (((hlabel.both ?_).both (hrest _).2).bind fun _ _ => .ok _)
    split
    · split
      · exact .ok _
      · exact .fail _ _
    · exact .ok _

theorem reports_read_call {name : String} {operands : List Value} (hvs : ReadsReport operands)
    (path : Path) : Reports (read path (.list (.text name :: operands))) := by
  unfold read
  split
  · exact .fail _ _
  · exact reports_readGet path operands
  · exact reports_readVar path operands
  · exact reports_readBuiltin path name operands
  · split_ifs
    · exact .fail _ _
    · exact .fail _ _
    · cases operands with
      | nil => exact .fail _ _
      | cons type rest =>
        have hargs := reports_readArgs (fun w hw => hvs w (List.mem_cons_of_mem _ hw)) path 2
        exact ((reports_readExponent _ type).both hargs).bind fun p _ =>
          reports_interpolateOf path p.1 p.2
  · split_ifs
    · exact .fail _ _
    · cases operands with
      | nil => exact .fail _ _
      | cons v rest =>
        obtain ⟨hfallback, halternatives⟩ :=
          reports_readAlternatives (fun w hw => hvs w (List.mem_cons_of_mem _ hw)) path 2 none
        exact (((hvs v (by simp) _).both hfallback).both halternatives).bind fun _ _ => .ok _
  · split_ifs
    · exact .fail _ _
    · exact (reports_readArgs hvs path 1).bind fun args _ => reports_casesOf path args
  · split_ifs
    · exact (reports_readArgs hvs path 1).bind fun _ _ => .ok _
    · exact .fail _ _

theorem reports_read (path : Path) (v : Value) : Reports (read path v) := by
  match v with
  | .bool b | .text b =>
    rw [read]
    exact .ok _
  | .double x | .single x | .integer _ x =>
    rw [read]
    exact reports_readNumber path _
  | .numeral s =>
    rw [read]
    split
    · exact reports_readNumber path _
    · exact .fail _ _
  | .doubles xs | .singles xs =>
    rw [read]
    exact reports_readArray path _
  | .integers _ _ =>
    rw [read]
    split
    · exact reports_readArray path _
    · exact .fail _ _
  | .list [] | .null | .record _ | .timestamp _ | .table _ | .texts _ =>
    rw [read]
    exact .fail _ _
  | .list (v :: vs) =>
    by_cases hcall : ∃ name, v = .text name
    · obtain ⟨name, rfl⟩ := hcall
      refine reports_read_call (fun w hw path' => ?_) path
      exact reports_read path' w
    · rw [read]
      · split
        · exact reports_readArray path _
        · exact .fail _ _
      · exact fun name hname => hcall ⟨name, hname⟩
termination_by sizeOf v
decreasing_by
  have := List.sizeOf_lt_of_mem hw
  simp
  omega

variable {scope : Scope}

theorem reports_pickKind (path : Path) (available expected : TypeSet) :
    Reports (pickKind path available expected) := by
  unfold pickKind
  split
  · exact .ok _
  · exact .fail _ _

theorem reports_sameType (es : List Expr) : Reports (sameType es) := by
  unfold sameType
  split
  · exact .ok _
  · split
    · exact .fail _ _
    · exact .ok _

/-- Resolving the node reports what is wrong, in every context. -/
def ResolvesReport (scope : Scope) (n : Node) : Prop := ∀ expected, Reports (n.resolve scope expected)

theorem reports_widening {n : Node} (hn : n.ResolvesReport scope) (expected : TypeSet) :
    Reports (widening scope (n.types scope) (fun s => n.resolve scope s) expected) := by
  unfold widening
  split
  · exact (hn _).map _
  · exact hn _

theorem reports_resolveList {ns : List Node} (hns : ∀ n ∈ ns, n.ResolvesReport scope)
    (expected : TypeSet) : Reports (resolveList scope ns expected) := by
  induction ns with
  | nil =>
    rw [resolveList]
    exact .ok _
  | cons n ns ih =>
    rw [resolveList]
    have hrest := ih fun m hm => hns m (List.mem_cons_of_mem _ hm)
    exact ((reports_widening (hns n (by simp)) expected).both hrest).bind fun _ _ => .ok _

theorem reports_resolveFirst {ns : List (Node × Node)}
    (hns : ∀ p ∈ ns, p.1.ResolvesReport scope) (expected : TypeSet) :
    Reports (resolveFirst scope ns expected) := by
  rw [resolveFirst_eq]
  refine reports_resolveList (fun n hn => ?_) expected
  obtain ⟨p, hp, rfl⟩ := List.mem_map.mp hn
  exact hns p hp

theorem reports_resolveSecond {ns : List (Node × Node)}
    (hns : ∀ p ∈ ns, p.2.ResolvesReport scope) (expected : TypeSet) :
    Reports (resolveSecond scope ns expected) := by
  rw [resolveSecond_eq]
  refine reports_resolveList (fun n hn => ?_) expected
  obtain ⟨p, hp, rfl⟩ := List.mem_map.mp hn
  exact hns p hp

theorem reports_resolveOperands {ns : List Node} (hns : ∀ n ∈ ns, n.ResolvesReport scope)
    (k : Kind) (hasFixed : Bool) : Reports (resolveOperands scope k hasFixed ns) := by
  induction ns with
  | nil =>
    rw [resolveOperands]
    exact .ok _
  | cons n ns ih =>
    rw [resolveOperands]
    have hrest := ih fun m hm => hns m (List.mem_cons_of_mem _ hm)
    exact ((reports_widening (hns n (by simp)) _).both hrest).bind fun _ _ => .ok _

theorem reports_vectorCall (path : Path) (op : Op) (k : Kind) (args : List Expr) :
    Reports (vectorCall path op k args) := by
  unfold vectorCall
  dsimp only
  split
  · exact .fail _ _
  · exact (reports_sameType _).bind fun _ _ => .ok _

theorem reports_resolve_call {path : Path} {op : Op} {args : List Node}
    (hargs : ∀ n ∈ args, n.ResolvesReport scope) : (Node.call path op args).ResolvesReport scope := by
  intro expected
  rw [resolve]
  dsimp only
  split_ifs
  · exact .fail _ _
  · refine (reports_pickKind _ _ _).bind fun k _ => ?_
    split_ifs
    · exact (reports_resolveList hargs _).bind fun _ _ => .ok _
    · exact (reports_resolveOperands hargs _ _).bind fun _ _ => reports_vectorCall _ _ _ _
  · refine (reports_pickKind _ _ _).discard.bind fun _ _ => ?_
    split
    · exact (reports_resolveList hargs _).bind fun _ _ => .ok _
    · split
      · exact .fail _ _
      · refine (reports_resolveList hargs _).bind fun es _ => ?_
        exact (reports_sameType es).discard.bind fun _ _ => .ok _

theorem reports_resolve_literal {n : Node} {k : Kind} (h : n.labelKind? = some k) :
    n.ResolvesReport scope := by
  intro expected
  cases n with
  | number | bool =>
    rw [resolve]
    exact (reports_pickKind _ _ _).discard.bind fun _ _ => .ok _
  | text path s =>
    rw [resolve]
    refine (reports_pickKind _ _ _).bind fun k _ => ?_
    split
    · exact .ok _
    · exact .ok _
  | _ => cases h

/-- Resolving a well-formed node succeeds or says why not, by induction on its form. -/
theorem WellFormed.resolvesReport {n : Node} (hn : n.WellFormed) : n.ResolvesReport scope := by
  induction hn with
  | number path => exact reports_resolve_literal rfl
  | bool path b => exact reports_resolve_literal rfl
  | text path s => exact reports_resolve_literal rfl
  | array path =>
    intro expected
    rw [resolve]
    refine (reports_pickKind _ _ _).bind fun k _ => ?_
    split_ifs
    · split
      · exact .ok _
      · exact .fail _ _
    · exact .ok _
  | @get path name hint =>
    intro expected
    rw [resolve]
    unfold resolveGet
    split
    · exact (reports_pickKind _ _ _).discard.bind fun _ _ => .ok _
    · split
      · exact .ok _
      · exact .fail _ _
  | var path name =>
    intro expected
    rw [resolve, resolveVar]
    split
    · exact .fail _ _
    · split_ifs
      · exact .fail _ _
      · exact (reports_pickKind _ _ _).bind fun _ _ => .ok _
  | builtin path =>
    intro expected
    rw [resolve]
    exact (reports_pickKind _ _ _).discard.bind fun _ _ => .ok _
  | call path _ _ _ operands => exact reports_resolve_call operands
  | interpolate path exponent _ _ _ _ input stops outputs =>
    intro expected
    rw [resolve]
    refine (reports_pickKind _ _ _).bind fun k _ => ?_
    have hstops := (reports_resolveFirst stops .numbers).both
      (reports_resolveSecond outputs (.singleton k))
    refine ((reports_widening input _).both hstops).bind fun _ _ => ?_
    exact (reports_sameType _).bind fun _ _ => .ok _
  | @select path input fallback alternatives _ _ labels _ _ _ _ input _ outputs fallback =>
    intro expected
    rw [resolve]
    refine (reports_pickKind _ _ _).bind fun k _ => ?_
    have hlabels (set : TypeSet) : Reports (resolveFirst scope alternatives set) :=
      reports_resolveFirst (fun p hp => reports_resolve_literal (labels p hp)) set
    refine ((reports_widening input _).both ((hlabels _).both
      ((reports_resolveSecond outputs _).both (reports_widening fallback _)))).bind fun _ _ => ?_
    exact (reports_sameType _).bind fun _ _ => .ok _
  | cases path _ _ _ _ conditions outputs fallback =>
    intro expected
    rw [resolve]
    refine (reports_pickKind _ _ _).bind fun k _ => ?_
    refine ((reports_resolveFirst conditions _).both
      ((reports_resolveSecond outputs _).both (reports_widening fallback _))).bind fun _ _ => ?_
    exact (reports_sameType _).bind fun _ _ => .ok _

end Node

/-- An expression is built, or something is wrong with it. -/
theorem reports_buildExpr (scope : Scope) (path : Path) (raw : Value) (expected : TypeSet) :
    Reports (buildExpr scope path raw expected) := by
  refine (Node.reports_read path raw).bind fun n hread => ?_
  exact Node.reports_widening (Node.read_wellFormed path raw hread).resolvesReport expected

theorem reports_buildOfType (vars : OrderedMap String Value) (path : Path) (raw : Value)
    (want : Ty) : Reports (buildOfType vars path raw want) := by
  refine (reports_buildExpr _ path raw _).bind fun e _ => ?_
  split
  · exact .ok _
  · exact .fail _ _

end ShaderStyle
