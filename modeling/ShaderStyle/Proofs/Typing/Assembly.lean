import Mathlib.Data.List.Forall2
import ShaderStyle.Proofs.Typing.Soundness

/-! How nodes and expressions are put together, one level at a time: an operand is always what
reading or building its own part gave. -/
namespace ShaderStyle

/-- Pairs laid out one after the other. -/
def laidOut {α : Type} (ps : List (α × α)) : List α := ps.flatMap fun p => [p.1, p.2]

section LaidOut

variable {α β : Type}

@[simp] theorem laidOut_nil : laidOut ([] : List (α × α)) = [] := rfl

@[simp] theorem laidOut_cons (p : α × α) (ps : List (α × α)) :
    laidOut (p :: ps) = p.1 :: p.2 :: laidOut ps := rfl

theorem mem_laidOut {ps : List (α × α)} {a : α} :
    a ∈ laidOut ps ↔ ∃ p ∈ ps, a = p.1 ∨ a = p.2 := by
  simp [laidOut]

theorem laidOut_pairs : ∀ {xs : List α}, xs.length % 2 = 0 → laidOut (Node.pairs xs) = xs
  | [], _ => rfl
  | [_], h => by simp at h
  | a :: b :: rest, h => by
    have hrest : rest.length % 2 = 0 := by
      simp only [List.length_cons] at h
      omega
    rw [Node.pairs, laidOut_cons, laidOut_pairs hrest]

theorem eq_of_pairsWithLast? {ps : List (α × α)} {last : α} :
    ∀ {xs : List α}, Node.pairsWithLast? xs = some (ps, last) → xs = laidOut ps ++ [last]
  | [a], h => by
    cases h
    rfl
  | a :: b :: rest, h => by
    obtain ⟨⟨qs, l⟩, hrest, heq⟩ := Option.map_eq_some_iff.mp h
    cases heq
    rw [laidOut_cons, List.cons_append, List.cons_append, ← eq_of_pairsWithLast? hrest]

/-- What holds between the parts of pairs holds between the pairs laid out. -/
theorem forall₂_laidOut {R : α → β → Prop} {ps : List (α × α)} {xs ys : List β}
    (hfirst : List.Forall₂ R (ps.map Prod.fst) xs) (hsecond : List.Forall₂ R (ps.map Prod.snd) ys) :
    List.Forall₂ R (laidOut ps) (laidOut (xs.zip ys)) := by
  induction ps generalizing xs ys with
  | nil =>
    cases hfirst
    exact .nil
  | cons p ps ih =>
    cases hfirst with
    | cons hx hxs =>
      cases hsecond with
      | cons hy hys => exact .cons hx (.cons hy (ih hxs hys))

end LaidOut

namespace Op

theorem name_of_ofName? {name : String} {op : Op} (h : Op.ofName? name = some op) :
    op.name = name := by
  simpa using List.find?_some h

end Op

namespace Node

/-- The operands of a node, in the order in which styles write them. -/
def operands : Node → List Node
  | .call _ _ args => args
  | .interpolate _ _ input stops => input :: laidOut stops
  | .select _ input alternatives fallback => input :: (laidOut alternatives ++ [fallback])
  | .cases _ alternatives fallback => laidOut alternatives ++ [fallback]
  | _ => []

/-- Nodes that were read from the values of an array, the first of which stands at index `i`. Each
is what reading the value at its own place gave. -/
def ReadsAt (path : Path) (i : Nat) (vs : List Value) (ns : List Node) : Prop :=
  vs.length = ns.length ∧
    ∀ (j : Nat) (v : Value) (n : Node), vs[j]? = some v → ns[j]? = some n →
      read (path.index (i + j : Nat)) v = .ok n

theorem ReadsAt.nil (path : Path) (i : Nat) : ReadsAt path i [] [] := ⟨rfl, nofun⟩

theorem ReadsAt.cons {path : Path} {i : Nat} {v : Value} {vs : List Value} {n : Node}
    {ns : List Node} (h : read (path.index i) v = .ok n) (hs : ReadsAt path (i + 1) vs ns) :
    ReadsAt path i (v :: vs) (n :: ns) := by
  refine ⟨by rw [List.length_cons, List.length_cons, hs.1], ?_⟩
  intro j w m hw hm
  cases j with
  | zero =>
    cases hw
    cases hm
    exact h
  | succ j =>
    have hrest := hs.2 j w m hw hm
    rwa [Nat.add_right_comm] at hrest

/-- The node that reading assembles from a value. The operands of an operator stand where the style
has them, and reading each of them succeeded. -/
inductive ReadFrom (path : Path) : Value → Node → Prop where
  | number {v : Value} {x : Double} (value : v.number? = some x) : ReadFrom path v (.number path x)
  | bool (b : Bool) : ReadFrom path (.bool b) (.bool path b)
  | text (s : String) : ReadFrom path (.text s) (.text path s)
  | array {v : Value} {xs : List Double} (values : v.numbers? = some xs) :
      ReadFrom path v (.array path xs)
  | get (name : String) : ReadFrom path (.list [.text "get", .text name]) (.get path name none)
  | hintedGet (name : String) {hint : String} {h : Hint} (known : Hint.ofName? hint = some h) :
      ReadFrom path (.list [.text "get", .text name, .text hint]) (.get path name (some h))
  | var (name : String) : ReadFrom path (.list [.text "var", .text name]) (.var path name)
  | builtin (name : String) : ReadFrom path (.list [.text name]) (.builtin path name)
  | call {op : Op} {vs : List Value} {args : List Node} (reads : ReadsAt path 1 vs args) :
      ReadFrom path (.list (.text op.name :: vs)) (.call path op args)
  | interpolate {type : Value} {exponent : Double} {vs : List Value} {input : Node}
      {stops : List (Node × Node)} (typed : readExponent (path.index 1) type = .ok exponent)
      (reads : ReadsAt path 2 vs (input :: laidOut stops)) :
      ReadFrom path (.list (.text "interpolate" :: type :: vs))
        (.interpolate path exponent input stops)
  | select {vs : List Value} {input fallback : Node} {alternatives : List (Node × Node)}
      (labels : ∀ a ∈ alternatives, a.1.labelKind?.isSome)
      (reads : ReadsAt path 1 vs (input :: (laidOut alternatives ++ [fallback]))) :
      ReadFrom path (.list (.text "match" :: vs)) (.select path input alternatives fallback)
  | cases {vs : List Value} {fallback : Node} {alternatives : List (Node × Node)}
      (reads : ReadsAt path 1 vs (laidOut alternatives ++ [fallback])) :
      ReadFrom path (.list (.text "case" :: vs)) (.cases path alternatives fallback)

variable {path : Path}

theorem readNumber_eq_ok {x : Double} {n : Node} (h : readNumber path x = .ok n) :
    n = .number path x := by
  unfold readNumber at h
  split at h
  · exact (Except.ok.inj h).symm
  · exact absurd h Checked.fail_ne_ok

theorem readArray_eq_ok {xs : List Double} {n : Node} (h : readArray path xs = .ok n) :
    n = .array path xs := by
  unfold readArray at h
  split at h
  · exact absurd h Checked.fail_ne_ok
  · split at h
    · exact absurd h Checked.fail_ne_ok
    · exact (Except.ok.inj h).symm

theorem readName_eq_ok {form name : String} {vs : List Value}
    (h : readName path form vs = .ok name) : ∃ rest, vs = .text name :: rest := by
  unfold readName at h
  split at h
  · exact absurd h Checked.fail_ne_ok
  · cases h
    exact ⟨_, rfl⟩
  · exact absurd h Checked.fail_ne_ok

theorem readFrom_of_readGet {vs : List Value} {n : Node} (h : readGet path vs = .ok n) :
    ReadFrom path (.list (.text "get" :: vs)) n := by
  obtain ⟨name, hname, hread⟩ := Checked.bind_eq_ok.mp h
  obtain ⟨rest, rfl⟩ := readName_eq_ok hname
  clear h hname
  split at hread
  · rename_i heq
    cases heq
    cases hread
    exact .get name
  · rename_i heq
    cases heq
    split at hread
    · rename_i known
      cases hread
      exact .hintedGet name known
    · exact absurd hread Checked.fail_ne_ok
  · exact absurd hread Checked.fail_ne_ok
  · exact absurd hread Checked.fail_ne_ok

theorem readFrom_of_readVar {vs : List Value} {n : Node} (h : readVar path vs = .ok n) :
    ReadFrom path (.list (.text "var" :: vs)) n := by
  unfold readVar at h
  obtain ⟨name, hname, h⟩ := Checked.bind_eq_ok.mp h
  obtain ⟨rest, rfl⟩ := readName_eq_ok hname
  split_ifs at h with hlength
  · cases h
    obtain rfl : rest = [] := by simpa using hlength
    exact .var name
  · exact absurd h Checked.fail_ne_ok

theorem readFrom_of_readBuiltin {name : String} {vs : List Value} {n : Node}
    (h : readBuiltin path name vs = .ok n) : ReadFrom path (.list (.text name :: vs)) n := by
  unfold readBuiltin at h
  split_ifs at h with hempty
  · cases h
    obtain rfl := List.isEmpty_iff.mp hempty
    exact .builtin name
  · exact absurd h Checked.fail_ne_ok

/-- A label is read as any other literal is. -/
theorem read_of_readLabel {v : Value} {n : Node} (h : readLabel path v = .ok n) :
    read path v = .ok n := by
  unfold readLabel at h
  cases v with
  | double x | single x | integer _ x =>
    rw [read]
    exact h
  | numeral s =>
    have hnumber : (Value.numeral s).number? = (Double.read s).value? := rfl
    rw [hnumber] at h
    rw [read]
    cases hx : (Double.read s).value? with
    | some x =>
      rw [hx] at h
      exact h
    | none =>
      rw [hx] at h
      exact absurd h Checked.fail_ne_ok
  | text s | bool b =>
    rw [read]
    exact h
  | _ => exact absurd h Checked.fail_ne_ok

theorem readsAt_of_readArgs {i : Nat} {vs : List Value} {ns : List Node}
    (h : readArgs path i vs = .ok ns) : ReadsAt path i vs ns := by
  induction vs generalizing i ns with
  | nil =>
    rw [readArgs] at h
    cases h
    exact .nil path i
  | cons v vs ih =>
    rw [readArgs] at h
    obtain ⟨⟨n, rest⟩, hboth, hpure⟩ := Checked.bind_eq_ok.mp h
    cases hpure
    obtain ⟨hn, hrest⟩ := Checked.both_eq_ok.mp hboth
    exact .cons hn (ih hrest)

/-- Labels and outputs come by turns, and the fallback comes last. -/
theorem readsAt_of_readAlternatives : ∀ {i : Nat} {known : Option Kind} {vs : List Value}
    {alternatives : List (Node × Node)} {fallback : Node},
    (readAlternatives path i known vs).1 = .ok fallback →
    (readAlternatives path i known vs).2 = .ok alternatives →
    (∀ a ∈ alternatives, a.1.labelKind?.isSome) ∧
      ReadsAt path i vs (laidOut alternatives ++ [fallback])
  | i, known, [], alternatives, fallback, hfallback, _ => by
    rw [readAlternatives] at hfallback
    exact absurd hfallback Checked.fail_ne_ok
  | i, known, [v], alternatives, fallback, hfallback, halternatives => by
    rw [readAlternatives] at hfallback halternatives
    cases halternatives
    exact ⟨List.forall_mem_nil _, .cons hfallback (.nil path _)⟩
  | i, known, l :: o :: rest, alternatives, fallback, hfallback, halternatives => by
    obtain ⟨label, output, others, k, rfl, hk, hknown, hlabel, houtput, hothers⟩ :=
      readAlternatives_cons_ok halternatives
    have hsame : (readAlternatives path (i + 2) (some k) rest).1 = .ok fallback := by
      unfold readAlternatives at hfallback
      dsimp only at hfallback
      rw [hlabel] at hfallback
      dsimp only at hfallback
      rw [hk] at hfallback
      have hor : known.or (some k) = some k := by
        cases known with
        | none => rfl
        | some j => rw [hknown j rfl, Option.some_or]
      rwa [hor] at hfallback
    obtain ⟨hlabels, hreads⟩ := readsAt_of_readAlternatives hsame hothers
    refine ⟨?_, .cons (read_of_readLabel hlabel) (.cons houtput hreads)⟩
    rw [List.forall_mem_cons]
    exact ⟨by simp [hk], hlabels⟩

/-- The name that a form is written with, where it has only one. -/
def Form.name? : Form → Option String
  | .get => some "get"
  | .var => some "var"
  | .interpolate => some "interpolate"
  | .select => some "match"
  | .cases => some "case"
  | .builtin => none
  | .operator op => some op.name

theorem Form.eq_of_ofName? {name written : String} {form : Form}
    (h : Form.ofName? name = some form) (hwritten : form.name? = some written) :
    name = written := by
  unfold Form.ofName? at h
  split at h
  any_goals
    cases h
    cases hwritten
    rfl
  split at h
  · cases h
    cases hwritten
  · obtain ⟨op, hop, rfl⟩ := Option.map_eq_some_iff.mp h
    cases hwritten
    exact (Op.name_of_ofName? hop).symm

theorem readFrom_of_interpolateOf {type : Value} {exponent : Double} {vs : List Value}
    {args : List Node} {n : Node} (heven : vs.length % 2 = 1)
    (typed : readExponent (path.index 1) type = .ok exponent)
    (reads : readArgs path 2 vs = .ok args) (h : interpolateOf path exponent args = .ok n) :
    ReadFrom path (.list (.text "interpolate" :: type :: vs)) n := by
  have hreads := readsAt_of_readArgs reads
  cases args with
  | nil => exact absurd h Checked.fail_ne_ok
  | cons input rest =>
    unfold interpolateOf at h
    obtain ⟨-, -, h⟩ := Checked.bind_eq_ok.mp h
    cases h
    have hrest : rest.length % 2 = 0 := by
      have hlength := hreads.1
      rw [List.length_cons] at hlength
      omega
    refine .interpolate typed ?_
    rw [laidOut_pairs hrest]
    exact hreads

theorem readFrom_of_casesOf {vs : List Value} {args : List Node} {n : Node}
    (reads : readArgs path 1 vs = .ok args) (h : casesOf path args = .ok n) :
    ReadFrom path (.list (.text "case" :: vs)) n := by
  unfold casesOf at h
  split at h
  · rename_i hpairs
    cases h
    refine .cases ?_
    rw [← eq_of_pairsWithLast? hpairs]
    exact readsAt_of_readArgs reads
  · exact absurd h Checked.fail_ne_ok

theorem readFrom_of_read_call {name : String} {vs : List Value} {n : Node}
    (h : read path (.list (.text name :: vs)) = .ok n) :
    ReadFrom path (.list (.text name :: vs)) n := by
  unfold read at h
  split at h
  · exact absurd h Checked.fail_ne_ok
  · rename_i hform
    obtain rfl := Form.eq_of_ofName? hform rfl
    exact readFrom_of_readGet h
  · rename_i hform
    obtain rfl := Form.eq_of_ofName? hform rfl
    exact readFrom_of_readVar h
  · exact readFrom_of_readBuiltin h
  · rename_i hform
    obtain rfl := Form.eq_of_ofName? hform rfl
    split_ifs at h with hlength hpairs
    · exact absurd h Checked.fail_ne_ok
    · exact absurd h Checked.fail_ne_ok
    · cases vs with
      | nil => exact absurd h Checked.fail_ne_ok
      | cons type rest =>
        obtain ⟨⟨exponent, args⟩, hboth, h⟩ := Checked.bind_eq_ok.mp h
        obtain ⟨htype, hargs⟩ := Checked.both_eq_ok.mp hboth
        refine readFrom_of_interpolateOf ?_ htype hargs h
        rw [List.length_cons] at hpairs
        omega
  · rename_i hform
    obtain rfl := Form.eq_of_ofName? hform rfl
    split_ifs at h with hlength
    · exact absurd h Checked.fail_ne_ok
    · cases vs with
      | nil => exact absurd h Checked.fail_ne_ok
      | cons v rest =>
        obtain ⟨⟨⟨input, fallback⟩, alternatives⟩, hboth, hpure⟩ := Checked.bind_eq_ok.mp h
        obtain ⟨hhead, halternatives⟩ := Checked.both_eq_ok.mp hboth
        obtain ⟨hinput, hfallback⟩ := Checked.both_eq_ok.mp hhead
        cases hpure
        obtain ⟨hlabels, hreads⟩ := readsAt_of_readAlternatives hfallback halternatives
        exact .select hlabels (.cons hinput hreads)
  · rename_i hform
    obtain rfl := Form.eq_of_ofName? hform rfl
    split_ifs at h with hlength
    · exact absurd h Checked.fail_ne_ok
    · obtain ⟨args, hread, h⟩ := Checked.bind_eq_ok.mp h
      exact readFrom_of_casesOf hread h
  · rename_i op hform
    obtain rfl := Form.eq_of_ofName? hform rfl
    split_ifs at h with harity
    · obtain ⟨args, hread, hpure⟩ := Checked.bind_eq_ok.mp h
      cases hpure
      exact .call (readsAt_of_readArgs hread)
    · exact absurd h Checked.fail_ne_ok

/-- Reading never assembles a node from operands that failed. -/
theorem readFrom_of_read {v : Value} {n : Node} (h : read path v = .ok n) :
    ReadFrom path v n := by
  match v with
  | .bool b =>
    rw [read] at h
    cases h
    exact .bool b
  | .text s =>
    rw [read] at h
    cases h
    exact .text s
  | .double x | .single x | .integer _ x =>
    rw [read] at h
    obtain rfl := readNumber_eq_ok h
    exact .number rfl
  | .numeral s =>
    rw [read] at h
    split at h
    · rename_i hread
      obtain rfl := readNumber_eq_ok h
      exact .number hread
    · exact absurd h Checked.fail_ne_ok
  | .doubles xs | .singles xs =>
    rw [read] at h
    obtain rfl := readArray_eq_ok h
    exact .array rfl
  | .integers _ _ =>
    rw [read] at h
    split at h
    · rename_i hvalues
      obtain rfl := readArray_eq_ok h
      exact .array hvalues
    · exact absurd h Checked.fail_ne_ok
  | .list [] | .null | .record _ | .timestamp _ | .table _ | .texts _ =>
    rw [read] at h
    exact absurd h Checked.fail_ne_ok
  | .list (v :: vs) =>
    by_cases hcall : ∃ name, v = .text name
    · obtain ⟨name, rfl⟩ := hcall
      exact readFrom_of_read_call h
    · rw [read] at h
      · split at h
        · rename_i hvalues
          obtain rfl := readArray_eq_ok h
          exact .array hvalues
        · exact absurd h Checked.fail_ne_ok
      · exact fun name hname => hcall ⟨name, hname⟩

/-- Building the node in some context gives the expression. -/
def BuildsTo (scope : Scope) (n : Node) (e : Expr) : Prop :=
  ∃ expected, n.build scope expected = .ok e

end Node

namespace Expr

open Node (BuildsTo)

/-- The operands of an expression, in the order in which styles write them. -/
def operands : Expr → List Expr
  | .call _ _ args _ => args
  | .interpolate _ _ input stops _ _ => input :: laidOut stops
  | .select _ input alternatives _ fallback _ => input :: (laidOut alternatives ++ [fallback])
  | .cases _ alternatives fallback _ => laidOut alternatives ++ [fallback]
  | _ => []

/-- The expression that resolution makes of a node. The operands are those of the node in their
order, and building each of them succeeded. -/
inductive ResolvedFrom (scope : Scope) : Node → Expr → Prop where
  | number (path : Path) (x : Double) : ResolvedFrom scope (.number path x) (.number path x)
  | bool (path : Path) (b : Bool) : ResolvedFrom scope (.bool path b) (.bool path b)
  | text (path : Path) (s : String) : ResolvedFrom scope (.text path s) (.text path s)
  | textColor (path : Path) {s : String} {c : Rgba} (reads : Color.ofText s = .ok c) :
      ResolvedFrom scope (.text path s) (.color path c)
  | array (path : Path) (xs : List Double) : ResolvedFrom scope (.array path xs) (.array path xs)
  | arrayColor (path : Path) {xs : List Double} {c : Rgba} (reads : Color.ofList? xs = some c) :
      ResolvedFrom scope (.array path xs) (.color path c)
  | get (path : Path) (name : String) {hint : Option Hint} {type : Ty}
      (hinted : ∀ h ∈ hint, type = h.type scope.arraySize) :
      ResolvedFrom scope (.get path name hint) (.get path name type)
  | var (path : Path) (name : String) (type : Ty) :
      ResolvedFrom scope (.var path name) (.var path name type)
  | builtin (path : Path) (name : String) :
      ResolvedFrom scope (.builtin path name) (.builtin path name)
  | call (path : Path) (op : Op) {args : List Node} {xs : List Expr} (type : Ty)
      (builds : List.Forall₂ (BuildsTo scope) args xs) :
      ResolvedFrom scope (.call path op args) (.call path op xs type)
  | interpolate (path : Path) (exponent : Double) {input : Node} {stops : List (Node × Node)}
      {x : Expr} {xs : List (Expr × Expr)} (type : Ty)
      (builds : List.Forall₂ (BuildsTo scope) (input :: laidOut stops) (x :: laidOut xs)) :
      ResolvedFrom scope (.interpolate path exponent input stops)
        (.interpolate path exponent x xs [] type)
  | select (path : Path) {input fallback : Node} {alternatives : List (Node × Node)}
      {x y : Expr} {xs : List (Expr × Expr)} (type : Ty)
      (builds : List.Forall₂ (BuildsTo scope) (input :: (laidOut alternatives ++ [fallback]))
        (x :: (laidOut xs ++ [y]))) :
      ResolvedFrom scope (.select path input alternatives fallback) (.select path x xs [] y type)
  | cases (path : Path) {fallback : Node} {alternatives : List (Node × Node)} {y : Expr}
      {xs : List (Expr × Expr)} (type : Ty)
      (builds : List.Forall₂ (BuildsTo scope) (laidOut alternatives ++ [fallback])
        (laidOut xs ++ [y])) :
      ResolvedFrom scope (.cases path alternatives fallback) (.cases path xs y type)

theorem ResolvedFrom.source {scope : Scope} {n : Node} {e : Expr} (h : ResolvedFrom scope n e) :
    e.source = n.path := by
  cases h <;> rfl

theorem ResolvedFrom.operands {scope : Scope} {n : Node} {e : Expr} (h : ResolvedFrom scope n e) :
    List.Forall₂ (BuildsTo scope) n.operands e.operands := by
  cases h with
  | call _ _ _ builds | interpolate _ _ _ builds | select _ _ builds | cases _ _ builds =>
    exact builds
  | _ => exact .nil

end Expr

namespace Node

open ShaderStyle.Expr (ResolvedFrom)

variable {scope : Scope}

theorem buildsTo_of_resolveList {ns : List Node} {expected : TypeSet} {es : List Expr}
    (h : resolveList scope ns expected = .ok es) : List.Forall₂ (BuildsTo scope) ns es := by
  induction ns generalizing es with
  | nil =>
    rw [resolveList] at h
    cases h
    exact .nil
  | cons n ns ih =>
    rw [resolveList] at h
    obtain ⟨⟨e, rest⟩, hboth, hpure⟩ := Checked.bind_eq_ok.mp h
    cases hpure
    obtain ⟨he, hrest⟩ := Checked.both_eq_ok.mp hboth
    exact .cons ⟨expected, he⟩ (ih hrest)

theorem buildsTo_of_resolveOperands {k : Kind} {hasFixed : Bool} {ns : List Node} {es : List Expr}
    (h : resolveOperands scope k hasFixed ns = .ok es) :
    List.Forall₂ (BuildsTo scope) ns es := by
  induction ns generalizing es with
  | nil =>
    rw [resolveOperands] at h
    cases h
    exact .nil
  | cons n ns ih =>
    rw [resolveOperands] at h
    obtain ⟨⟨e, rest⟩, hboth, hpure⟩ := Checked.bind_eq_ok.mp h
    cases hpure
    obtain ⟨he, hrest⟩ := Checked.both_eq_ok.mp hboth
    exact .cons ⟨_, he⟩ (ih hrest)

/-- Pairs that are resolved part by part. -/
theorem buildsTo_of_resolvePairs {ps : List (Node × Node)} {expected expected' : TypeSet}
    {xs ys : List Expr} (hfirst : resolveFirst scope ps expected = .ok xs)
    (hsecond : resolveSecond scope ps expected' = .ok ys) :
    List.Forall₂ (BuildsTo scope) (laidOut ps) (laidOut (xs.zip ys)) := by
  rw [resolveFirst_eq] at hfirst
  rw [resolveSecond_eq] at hsecond
  exact forall₂_laidOut (buildsTo_of_resolveList hfirst) (buildsTo_of_resolveList hsecond)

theorem vectorCall_eq_ok {path : Path} {op : Op} {k : Kind} {args : List Expr} {e : Expr}
    (h : vectorCall path op k args = .ok e) : ∃ type, e = .call path op args type := by
  unfold vectorCall at h
  dsimp only at h
  split_ifs at h
  · exact absurd h Checked.fail_ne_ok
  · obtain ⟨type, -, hpure⟩ := Checked.bind_eq_ok.mp h
    cases hpure
    exact ⟨type, rfl⟩

theorem resolvedFrom_of_resolve_call {path : Path} {op : Op} {args : List Node}
    {expected : TypeSet} {e : Expr} (h : (Node.call path op args).resolve scope expected = .ok e) :
    ResolvedFrom scope (.call path op args) e := by
  rw [resolve] at h
  dsimp only at h
  split_ifs at h
  · exact absurd h Checked.fail_ne_ok
  · obtain ⟨k, -, h⟩ := Checked.bind_eq_ok.mp h
    split_ifs at h
    · obtain ⟨es, hes, hpure⟩ := Checked.bind_eq_ok.mp h
      cases hpure
      exact .call path op _ (buildsTo_of_resolveList hes)
    · obtain ⟨es, hes, hcall⟩ := Checked.bind_eq_ok.mp h
      obtain ⟨type, rfl⟩ := vectorCall_eq_ok hcall
      exact .call path op type (buildsTo_of_resolveOperands hes)
  · obtain ⟨-, -, h⟩ := Checked.bind_eq_ok.mp h
    split at h
    · obtain ⟨es, hes, hpure⟩ := Checked.bind_eq_ok.mp h
      cases hpure
      exact .call path op _ (buildsTo_of_resolveList hes)
    · split at h
      · exact absurd h Checked.fail_ne_ok
      · obtain ⟨es, hes, h⟩ := Checked.bind_eq_ok.mp h
        obtain ⟨-, -, hpure⟩ := Checked.bind_eq_ok.mp h
        cases hpure
        exact .call path op _ (buildsTo_of_resolveList hes)

theorem resolvedFrom_of_resolveGet {path : Path} {name : String} {hint : Option Hint}
    {expected : TypeSet} {e : Expr} (h : resolveGet scope path name hint expected = .ok e) :
    ResolvedFrom scope (.get path name hint) e := by
  unfold resolveGet at h
  cases hint with
  | some hint =>
    obtain ⟨-, -, hpure⟩ := Checked.bind_eq_ok.mp h
    cases hpure
    refine .get path name ?_
    rintro _ ⟨⟩
    rfl
  | none =>
    dsimp only at h
    split at h
    · cases h
      exact .get path name nofun
    · exact absurd h Checked.fail_ne_ok

theorem resolvedFrom_of_resolveVar {path : Path} {name : String} {expected : TypeSet} {e : Expr}
    (h : resolveVar scope path name expected = .ok e) :
    ResolvedFrom scope (.var path name) e := by
  unfold resolveVar at h
  split at h
  · exact absurd h Checked.fail_ne_ok
  · split_ifs at h
    · exact absurd h Checked.fail_ne_ok
    · obtain ⟨k, -, hpure⟩ := Checked.bind_eq_ok.mp h
      cases hpure
      exact .var path name _

/-- Resolution never makes an expression of operands that failed. -/
theorem resolvedFrom_of_resolve {n : Node} {expected : TypeSet} {e : Expr}
    (h : n.resolve scope expected = .ok e) : ResolvedFrom scope n e := by
  cases n with
  | number path x =>
    rw [resolve] at h
    obtain ⟨-, -, hpure⟩ := Checked.bind_eq_ok.mp h
    cases hpure
    exact .number path x
  | bool path b =>
    rw [resolve] at h
    obtain ⟨-, -, hpure⟩ := Checked.bind_eq_ok.mp h
    cases hpure
    exact .bool path b
  | builtin path name =>
    rw [resolve] at h
    obtain ⟨-, -, hpure⟩ := Checked.bind_eq_ok.mp h
    cases hpure
    exact .builtin path name
  | text path s =>
    rw [resolve] at h
    obtain ⟨k, -, h⟩ := Checked.bind_eq_ok.mp h
    split at h
    · rename_i hcolor
      cases h
      exact .textColor path hcolor
    · cases h
      exact .text path s
  | array path xs =>
    rw [resolve] at h
    obtain ⟨k, -, h⟩ := Checked.bind_eq_ok.mp h
    split_ifs at h
    · split at h
      · rename_i hcolor
        cases h
        exact .arrayColor path hcolor
      · exact absurd h Checked.fail_ne_ok
    · cases h
      exact .array path xs
  | get path name hint => exact resolvedFrom_of_resolveGet h
  | var path name => exact resolvedFrom_of_resolveVar h
  | call path op args => exact resolvedFrom_of_resolve_call h
  | interpolate path exponent input stops =>
    rw [resolve] at h
    obtain ⟨k, -, h⟩ := Checked.bind_eq_ok.mp h
    obtain ⟨⟨x, values, outputs⟩, hboth, h⟩ := Checked.bind_eq_ok.mp h
    obtain ⟨type, -, hpure⟩ := Checked.bind_eq_ok.mp h
    cases hpure
    obtain ⟨hx, hboth⟩ := Checked.both_eq_ok.mp hboth
    obtain ⟨hvalues, houtputs⟩ := Checked.both_eq_ok.mp hboth
    exact .interpolate path exponent type
      (.cons ⟨_, hx⟩ (buildsTo_of_resolvePairs hvalues houtputs))
  | select path input alternatives fallback =>
    rw [resolve] at h
    obtain ⟨k, -, h⟩ := Checked.bind_eq_ok.mp h
    obtain ⟨⟨x, labels, outputs, y⟩, hboth, h⟩ := Checked.bind_eq_ok.mp h
    obtain ⟨type, -, hpure⟩ := Checked.bind_eq_ok.mp h
    cases hpure
    obtain ⟨hx, hboth⟩ := Checked.both_eq_ok.mp hboth
    obtain ⟨hlabels, hboth⟩ := Checked.both_eq_ok.mp hboth
    obtain ⟨houtputs, hy⟩ := Checked.both_eq_ok.mp hboth
    have hpairs := buildsTo_of_resolvePairs hlabels houtputs
    exact .select path type (.cons ⟨_, hx⟩ (List.rel_append hpairs (.cons ⟨_, hy⟩ .nil)))
  | cases path alternatives fallback =>
    rw [resolve] at h
    obtain ⟨k, -, h⟩ := Checked.bind_eq_ok.mp h
    obtain ⟨⟨conditions, outputs, y⟩, hboth, h⟩ := Checked.bind_eq_ok.mp h
    obtain ⟨type, -, hpure⟩ := Checked.bind_eq_ok.mp h
    cases hpure
    obtain ⟨hconditions, hboth⟩ := Checked.both_eq_ok.mp hboth
    obtain ⟨houtputs, hy⟩ := Checked.both_eq_ok.mp hboth
    have hpairs := buildsTo_of_resolvePairs hconditions houtputs
    exact .cases path type (List.rel_append hpairs (.cons ⟨_, hy⟩ .nil))

/-- Building resolves a node, and may widen what it resolves to. -/
theorem resolvedFrom_of_build {n : Node} {expected : TypeSet} {e : Expr}
    (h : n.build scope expected = .ok e) :
    ResolvedFrom scope n e ∨ ∃ x type, e = .widen x type ∧ ResolvedFrom scope n x := by
  unfold build widening at h
  split at h
  · rename_i target _
    obtain ⟨x, hx, rfl⟩ := Checked.map_eq_ok.mp h
    exact Or.inr ⟨x, target, rfl, resolvedFrom_of_resolve hx⟩
  · exact Or.inl (resolvedFrom_of_resolve h)

theorem source_of_build {n : Node} {expected : TypeSet} {e : Expr}
    (h : n.build scope expected = .ok e) : e.source = n.path := by
  rcases resolvedFrom_of_build h with hfrom | ⟨x, type, rfl, hfrom⟩
  · exact hfrom.source
  · exact hfrom.source

end Node

end ShaderStyle
