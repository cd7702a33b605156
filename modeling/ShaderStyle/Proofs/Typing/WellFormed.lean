import Mathlib.Tactic.SplitIfs
import ShaderStyle.Node.Reading

/-! What reading checks: every node it gives has the operands that its form takes. -/
namespace ShaderStyle

namespace Checked

variable {α β : Type}

theorem bind_eq_ok {x : Checked α} {f : α → Checked β} {b : β} :
    (x >>= f) = .ok b ↔ ∃ a, x = .ok a ∧ f a = .ok b := by
  cases x with
  | error is => simp [bind, Except.bind]
  | ok a => simp [bind, Except.bind]

theorem map_eq_ok {x : Checked α} {f : α → β} {b : β} :
    Except.map f x = .ok b ↔ ∃ a, x = .ok a ∧ f a = b := by
  cases x with
  | error is => simp [Except.map]
  | ok a => simp [Except.map]

theorem both_eq_ok {x : Checked α} {y : Checked β} {p : α × β} :
    x.both y = .ok p ↔ x = .ok p.1 ∧ y = .ok p.2 := by
  cases x <;> cases y <;> simp [both, Prod.ext_iff]

theorem fail_ne_ok {path : Path} {cause : Cause} {a : α} : fail path cause ≠ .ok a := by
  unfold fail
  exact nofun

end Checked

/-- The sizes of vectors in shaders. -/
def IsVectorSize (n : Nat) : Prop := 2 ≤ n ∧ n ≤ 4

instance : DecidablePred IsVectorSize := fun n => inferInstanceAs (Decidable (2 ≤ n ∧ n ≤ 4))

/-- A hint for an array names a size that vectors have, or none. -/
def Hint.Sized : Hint → Prop
  | .kind _ => True
  | .sized n => IsVectorSize n

theorem Hint.sized_of_ofName? {s : String} {h : Hint} (hs : Hint.ofName? s = some h) :
    h.Sized := by
  unfold Hint.ofName? at hs
  split at hs <;> cases hs <;> trivial

namespace Node

/-- Nodes with as many operands as their forms take, finite literals, and labels of one kind. -/
inductive WellFormed : Node → Prop where
  | number (path : Path) {x : Double} (finite : x.isFinite = true) : WellFormed (.number path x)
  | bool (path : Path) (b : Bool) : WellFormed (.bool path b)
  | text (path : Path) (s : String) : WellFormed (.text path s)
  | array (path : Path) {xs : List Double} (size : IsVectorSize xs.length)
      (finite : ∀ x ∈ xs, x.isFinite = true) : WellFormed (.array path xs)
  | get (path : Path) (name : String) {hint : Option Hint} (sized : ∀ h ∈ hint, h.Sized) :
      WellFormed (.get path name hint)
  | var (path : Path) (name : String) : WellFormed (.var path name)
  | builtin (path : Path) {name : String} (known : name ∈ builtins) :
      WellFormed (.builtin path name)
  | call (path : Path) {op : Op} {args : List Node} (valid : op ∈ Op.valid)
      (arity : Arity.admits op.arity args.length = true) (operands : ∀ n ∈ args, WellFormed n) :
      WellFormed (.call path op args)
  | interpolate (path : Path) (exponent : Double) {input : Node} {stops : List (Node × Node)}
      (count : 2 ≤ stops.length) (input_wf : WellFormed input)
      (stops_wf : ∀ s ∈ stops, WellFormed s.1) (outputs_wf : ∀ s ∈ stops, WellFormed s.2) :
      WellFormed (.interpolate path exponent input stops)
  | select (path : Path) {input fallback : Node} {alternatives : List (Node × Node)} {k : Kind}
      (count : alternatives ≠ []) (label_kind : ∀ a ∈ alternatives, a.1.labelKind? = some k)
      (input_wf : WellFormed input) (labels_wf : ∀ a ∈ alternatives, WellFormed a.1)
      (outputs_wf : ∀ a ∈ alternatives, WellFormed a.2) (fallback_wf : WellFormed fallback) :
      WellFormed (.select path input alternatives fallback)
  | cases (path : Path) {fallback : Node} {alternatives : List (Node × Node)}
      (count : alternatives ≠ []) (conditions_wf : ∀ a ∈ alternatives, WellFormed a.1)
      (outputs_wf : ∀ a ∈ alternatives, WellFormed a.2) (fallback_wf : WellFormed fallback) :
      WellFormed (.cases path alternatives fallback)

theorem wellFormed_of_readNumber {path : Path} {x : Double} {n : Node}
    (h : readNumber path x = .ok n) : n.WellFormed := by
  unfold readNumber at h
  split at h
  · next hfinite =>
    cases h
    exact .number path hfinite
  · exact absurd h Checked.fail_ne_ok

theorem wellFormed_of_readArray {path : Path} {xs : List Double} {n : Node}
    (h : readArray path xs = .ok n) : n.WellFormed := by
  unfold readArray at h
  split at h
  · exact absurd h Checked.fail_ne_ok
  · rename_i hlen
    split at h
    · exact absurd h Checked.fail_ne_ok
    · next hfinite =>
      cases h
      refine .array path (by simp [IsVectorSize] at hlen ⊢; omega) fun x hx => ?_
      simpa using List.findIdx?_eq_none_iff.mp hfinite x hx

theorem wellFormed_of_readGet {path : Path} {operands : List Value} {n : Node}
    (h : readGet path operands = .ok n) : n.WellFormed := by
  unfold readGet at h
  obtain ⟨name, -, h⟩ := Checked.bind_eq_ok.mp h
  split at h
  · cases h
    exact .get path name nofun
  · split at h
    · rename_i hint hh
      cases h
      refine .get path name ?_
      rintro _ ⟨⟩
      exact Hint.sized_of_ofName? hh
    · exact absurd h Checked.fail_ne_ok
  · exact absurd h Checked.fail_ne_ok
  · exact absurd h Checked.fail_ne_ok

theorem wellFormed_of_readVar {path : Path} {operands : List Value} {n : Node}
    (h : readVar path operands = .ok n) : n.WellFormed := by
  unfold readVar at h
  obtain ⟨name, -, h⟩ := Checked.bind_eq_ok.mp h
  split at h
  · cases h
    exact .var path name
  · exact absurd h Checked.fail_ne_ok

theorem readLabel_labelKind {path : Path} {v : Value} {n : Node} (h : readLabel path v = .ok n) :
    ∃ k, n.labelKind? = some k := by
  unfold readLabel at h
  split at h
  · unfold readNumber at h
    split at h
    · cases h
      exact ⟨.number, rfl⟩
    · exact absurd h Checked.fail_ne_ok
  · split at h
    · cases h
      exact ⟨.string, rfl⟩
    · cases h
      exact ⟨.boolean, rfl⟩
    · exact absurd h Checked.fail_ne_ok

theorem wellFormed_of_readLabel {path : Path} {v : Value} {n : Node}
    (h : readLabel path v = .ok n) : n.WellFormed := by
  unfold readLabel at h
  split at h
  · exact wellFormed_of_readNumber h
  · split at h
    · cases h
      exact .text path _
    · cases h
      exact .bool path _
    · exact absurd h Checked.fail_ne_ok

theorem length_pairs {α : Type} : ∀ xs : List α, (pairs xs).length = xs.length / 2
  | [] => by simp [pairs]
  | [_] => by simp [pairs]
  | _ :: _ :: rest => by
    rw [pairs, List.length_cons, length_pairs rest, List.length_cons, List.length_cons]
    omega

theorem mem_pairs {α : Type} {p : α × α} : ∀ {xs : List α}, p ∈ pairs xs → p.1 ∈ xs ∧ p.2 ∈ xs
  | a :: b :: rest, h => by
    rw [pairs, List.mem_cons] at h
    rcases h with rfl | h
    · simp
    · have := mem_pairs h
      simp [this]

theorem mem_pairsWithLast? {α : Type} {ps : List (α × α)} {last : α} :
    ∀ {xs : List α}, pairsWithLast? xs = some (ps, last) →
      last ∈ xs ∧ ∀ p ∈ ps, p.1 ∈ xs ∧ p.2 ∈ xs
  | [a], h => by
    cases h
    simp
  | a :: b :: rest, h => by
    obtain ⟨⟨qs, l⟩, hr, heq⟩ := Option.map_eq_some_iff.mp h
    cases heq
    obtain ⟨hl, hq⟩ := mem_pairsWithLast? hr
    refine ⟨by simp [hl], ?_⟩
    intro p hp
    rcases List.mem_cons.mp hp with rfl | hp
    · simp
    · have := hq p hp
      simp [this]

theorem ne_nil_of_pairsWithLast? {α : Type} {ps : List (α × α)} {last : α} {xs : List α}
    (h : pairsWithLast? xs = some (ps, last)) (hlen : 2 ≤ xs.length) : ps ≠ [] := by
  match xs, h, hlen with
  | a :: b :: rest, h, _ =>
    obtain ⟨⟨qs, l⟩, -, heq⟩ := Option.map_eq_some_iff.mp h
    cases heq
    exact List.cons_ne_nil _ _

theorem length_readArgs {path : Path} {i : Nat} {vs : List Value} {ns : List Node}
    (h : readArgs path i vs = .ok ns) : ns.length = vs.length := by
  induction vs generalizing i ns with
  | nil =>
    rw [readArgs] at h
    cases h
    rfl
  | cons v vs ih =>
    rw [readArgs] at h
    obtain ⟨⟨n, rest⟩, hboth, hn⟩ := Checked.bind_eq_ok.mp h
    cases hn
    rw [List.length_cons, List.length_cons, ih (Checked.both_eq_ok.mp hboth).2]

theorem mem_builtins_of_ofName? {name : String} (h : Form.ofName? name = some .builtin) :
    name ∈ builtins := by
  unfold Form.ofName? at h
  split at h
  any_goals cases h
  split at h
  · assumption
  · obtain ⟨op, -, hop⟩ := Option.map_eq_some_iff.mp h
    cases hop

theorem mem_valid_of_ofName? {name : String} {op : Op}
    (h : Form.ofName? name = some (.operator op)) : op ∈ Op.valid := by
  unfold Form.ofName? at h
  split at h
  any_goals cases h
  split at h
  · cases h
  · obtain ⟨op', hfind, hop⟩ := Option.map_eq_some_iff.mp h
    cases hop
    exact List.mem_of_find?_eq_some hfind

theorem wellFormed_of_readBuiltin {path : Path} {name : String} {operands : List Value} {n : Node}
    (hname : name ∈ builtins) (h : readBuiltin path name operands = .ok n) : n.WellFormed := by
  unfold readBuiltin at h
  split at h
  · cases h
    exact .builtin path hname
  · exact absurd h Checked.fail_ne_ok

theorem wellFormed_of_interpolateOf {path : Path} {exponent : Double} {args : List Node} {n : Node}
    (hargs : ∀ a ∈ args, a.WellFormed) (hlen : 5 ≤ args.length)
    (h : interpolateOf path exponent args = .ok n) : n.WellFormed := by
  cases args with
  | nil => exact absurd h Checked.fail_ne_ok
  | cons input rest =>
    unfold interpolateOf at h
    obtain ⟨-, -, h⟩ := Checked.bind_eq_ok.mp h
    cases h
    have hcount : 2 ≤ (pairs rest).length := by
      rw [List.length_cons] at hlen
      rw [length_pairs]
      omega
    refine .interpolate path exponent hcount (hargs input List.mem_cons_self) ?_ ?_
    · intro s hs
      exact hargs s.1 (List.mem_cons_of_mem _ (mem_pairs hs).1)
    · intro s hs
      exact hargs s.2 (List.mem_cons_of_mem _ (mem_pairs hs).2)

theorem wellFormed_of_casesOf {path : Path} {args : List Node} {n : Node}
    (hargs : ∀ a ∈ args, a.WellFormed) (hlen : 3 ≤ args.length)
    (h : casesOf path args = .ok n) : n.WellFormed := by
  unfold casesOf at h
  split at h
  · rename_i alternatives fallback hpairs
    cases h
    obtain ⟨hlast, hmem⟩ := mem_pairsWithLast? hpairs
    refine .cases path (ne_nil_of_pairsWithLast? hpairs (by omega)) ?_ ?_ (hargs _ hlast)
    · intro a ha
      exact hargs a.1 (hmem a ha).1
    · intro a ha
      exact hargs a.2 (hmem a ha).2
  · exact absurd h Checked.fail_ne_ok

/-- The outcome for an alternative and those after it. -/
theorem readAlternatives_cons_ok {path : Path} {i : Nat} {known : Option Kind} {l o : Value}
    {rest : List Value} {alternatives : List (Node × Node)}
    (h : (readAlternatives path i known (l :: o :: rest)).2 = .ok alternatives) :
    ∃ label output others k, alternatives = (label, output) :: others ∧
      label.labelKind? = some k ∧ (∀ j ∈ known, j = k) ∧
      readLabel (path.index i) l = .ok label ∧ read (path.index (i + 1)) o = .ok output ∧
      (readAlternatives path (i + 2) (some k) rest).2 = .ok others := by
  unfold readAlternatives at h
  obtain ⟨⟨⟨⟨label, output⟩, _⟩, others⟩, hboth, hpure⟩ := Checked.bind_eq_ok.mp h
  obtain ⟨hhead, hothers⟩ := Checked.both_eq_ok.mp hboth
  obtain ⟨hpair, hagree⟩ := Checked.both_eq_ok.mp hhead
  obtain ⟨hlabel, houtput⟩ := Checked.both_eq_ok.mp hpair
  dsimp only at hlabel houtput hagree hothers hpure
  rw [hlabel] at hagree hothers
  dsimp only at hagree hothers
  obtain ⟨k, hk⟩ := readLabel_labelKind hlabel
  rw [hk] at hagree hothers
  cases hpure
  have hknown : ∀ j ∈ known, j = k := by
    rintro j rfl
    dsimp only at hagree
    split at hagree
    · rename_i heq
      exact heq.symm
    · exact absurd hagree Checked.fail_ne_ok
  have hor : known.or (some k) = some k := by
    cases known with
    | none => rfl
    | some j => rw [hknown j rfl, Option.some_or]
  rw [hor] at hothers
  exact ⟨label, output, others, k, rfl, hk, hknown, hlabel, houtput, hothers⟩

/-- The outcome for the fallback does not depend on the alternatives before it. -/
theorem readAlternatives_cons_fst {path : Path} {i : Nat} {known : Option Kind} {l o : Value}
    {rest : List Value} : ∃ known',
    (readAlternatives path i known (l :: o :: rest)).1 =
      (readAlternatives path (i + 2) known' rest).1 := by
  rw [readAlternatives.eq_def]
  exact ⟨_, rfl⟩

/-- Reading any of the values gives a well-formed node, if it gives one. -/
def ReadsWell (vs : List Value) : Prop :=
  ∀ v ∈ vs, ∀ (path : Path) (n : Node), read path v = .ok n → n.WellFormed

theorem readArgs_wellFormed {path : Path} {i : Nat} {vs : List Value} {ns : List Node}
    (hvs : ReadsWell vs) (h : readArgs path i vs = .ok ns) : ∀ n ∈ ns, n.WellFormed := by
  induction vs generalizing i ns with
  | nil =>
    rw [readArgs] at h
    cases h
    simp
  | cons v vs ih =>
    rw [readArgs] at h
    obtain ⟨⟨m, ms⟩, hboth, hpure⟩ := Checked.bind_eq_ok.mp h
    cases hpure
    obtain ⟨hm, hms⟩ := Checked.both_eq_ok.mp hboth
    intro n hn
    rcases List.mem_cons.mp hn with rfl | hn
    · exact hvs v List.mem_cons_self _ _ hm
    · exact ih (fun w hw => hvs w (List.mem_cons_of_mem _ hw)) hms n hn

theorem readAlternatives_wellFormed : ∀ {path : Path} {i : Nat} {known : Option Kind}
    {vs : List Value} {alternatives : List (Node × Node)}, ReadsWell vs →
    (readAlternatives path i known vs).2 = .ok alternatives →
    ∃ k, (∀ j ∈ known, j = k) ∧ (∀ a ∈ alternatives, a.1.labelKind? = some k) ∧
      ∀ a ∈ alternatives, a.1.WellFormed ∧ a.2.WellFormed
  | path, i, known, [], alternatives, _, h | path, i, known, [_], alternatives, _, h => by
    rw [readAlternatives] at h
    cases h
    exact ⟨known.getD .number, by rintro j rfl; rfl, by simp, by simp⟩
  | path, i, known, l :: o :: rest, alternatives, hvs, h => by
    obtain ⟨label, output, others, k, rfl, hk, hknown, hlabel, houtput, hothers⟩ :=
      readAlternatives_cons_ok h
    have hrest : ReadsWell rest := fun w hw => hvs w (by simp [hw])
    obtain ⟨k', hk', hlabels, hwf⟩ := readAlternatives_wellFormed hrest hothers
    obtain rfl := hk' k rfl
    refine ⟨k, hknown, ?_, ?_⟩
    · intro a ha
      rcases List.mem_cons.mp ha with rfl | ha
      · exact hk
      · exact hlabels a ha
    · intro a ha
      rcases List.mem_cons.mp ha with rfl | ha
      · exact ⟨wellFormed_of_readLabel hlabel, hvs o (by simp) _ _ houtput⟩
      · exact hwf a ha

theorem readAlternatives_ne_nil {path : Path} {i : Nat} {known : Option Kind} {vs : List Value}
    {alternatives : List (Node × Node)} (hlen : 2 ≤ vs.length)
    (h : (readAlternatives path i known vs).2 = .ok alternatives) : alternatives ≠ [] := by
  match vs, hlen with
  | l :: o :: rest, _ =>
    obtain ⟨label, output, others, k, rfl, -⟩ := readAlternatives_cons_ok h
    exact List.cons_ne_nil _ _

theorem readFallback_wellFormed : ∀ {path : Path} {i : Nat} {known : Option Kind}
    {vs : List Value} {fallback : Node}, ReadsWell vs →
    (readAlternatives path i known vs).1 = .ok fallback → fallback.WellFormed
  | path, i, known, [], fallback, _, h => by
    rw [readAlternatives] at h
    exact absurd h Checked.fail_ne_ok
  | path, i, known, [v], fallback, hvs, h => by
    rw [readAlternatives] at h
    exact hvs v (by simp) _ _ h
  | path, i, known, l :: o :: rest, fallback, hvs, h => by
    obtain ⟨known', heq⟩ := readAlternatives_cons_fst
    rw [heq] at h
    exact readFallback_wellFormed (fun w hw => hvs w (by simp [hw])) h

theorem wellFormed_of_readInterpolate {path : Path} {type : Value} {rest : List Value} {n : Node}
    (hvs : ReadsWell rest) (hlen : 5 ≤ rest.length)
    (h : ((readExponent (path.index 1) type).both (readArgs path 2 rest) >>= fun p =>
      interpolateOf path p.1 p.2) = .ok n) : n.WellFormed := by
  obtain ⟨⟨exponent, args⟩, hboth, h⟩ := Checked.bind_eq_ok.mp h
  have hread := (Checked.both_eq_ok.mp hboth).2
  refine wellFormed_of_interpolateOf (readArgs_wellFormed hvs hread) ?_ h
  rw [length_readArgs hread]
  exact hlen

/-- A call is well formed if its operands are. -/
theorem read_call_wellFormed {path : Path} {name : String} {operands : List Value} {n : Node}
    (hvs : ReadsWell operands) (h : read path (.list (.text name :: operands)) = .ok n) :
    n.WellFormed := by
  unfold read at h
  split at h
  · exact absurd h Checked.fail_ne_ok
  · exact wellFormed_of_readGet h
  · exact wellFormed_of_readVar h
  · rename_i hform
    exact wellFormed_of_readBuiltin (mem_builtins_of_ofName? hform) h
  · split_ifs at h with hlen hpairs
    · exact absurd h Checked.fail_ne_ok
    · exact absurd h Checked.fail_ne_ok
    · cases operands with
      | nil => exact absurd h Checked.fail_ne_ok
      | cons type rest =>
        refine wellFormed_of_readInterpolate (fun w hw => hvs w (List.mem_cons_of_mem _ hw)) ?_ h
        rw [List.length_cons] at hlen
        omega
  · split_ifs at h with hlen
    · exact absurd h Checked.fail_ne_ok
    · cases operands with
      | nil => exact absurd h Checked.fail_ne_ok
      | cons v rest =>
        have hrest : ReadsWell rest := fun w hw => hvs w (List.mem_cons_of_mem _ hw)
        obtain ⟨⟨⟨input, fallback⟩, alternatives⟩, hboth, hpure⟩ := Checked.bind_eq_ok.mp h
        obtain ⟨hhead, halternatives⟩ := Checked.both_eq_ok.mp hboth
        obtain ⟨hinput, hfallback⟩ := Checked.both_eq_ok.mp hhead
        cases hpure
        obtain ⟨k, -, hlabels, hwf⟩ := readAlternatives_wellFormed hrest halternatives
        have hcount : 2 ≤ rest.length := by
          simp at hlen
          omega
        exact .select path (readAlternatives_ne_nil hcount halternatives) hlabels
          (hvs v List.mem_cons_self _ _ hinput) (fun a ha => (hwf a ha).1)
          (fun a ha => (hwf a ha).2) (readFallback_wellFormed hrest hfallback)
  · split_ifs at h with hlen
    · exact absurd h Checked.fail_ne_ok
    · obtain ⟨args, hread, h⟩ := Checked.bind_eq_ok.mp h
      refine wellFormed_of_casesOf (readArgs_wellFormed hvs hread) ?_ h
      rw [length_readArgs hread]
      simp at hlen
      omega
  · rename_i op hform
    split_ifs at h with harity
    · obtain ⟨args, hread, hpure⟩ := Checked.bind_eq_ok.mp h
      cases hpure
      rw [← length_readArgs hread] at harity
      exact .call path (mem_valid_of_ofName? hform) harity (readArgs_wellFormed hvs hread)
    · exact absurd h Checked.fail_ne_ok

/-- Whatever reading accepts is well formed. -/
theorem read_wellFormed (path : Path) (v : Value) {n : Node} (h : read path v = .ok n) :
    n.WellFormed := by
  match v with
  | .bool b =>
    rw [read] at h
    cases h
    exact .bool path b
  | .text s =>
    rw [read] at h
    cases h
    exact .text path s
  | .double x | .single x | .integer _ x =>
    rw [read] at h
    exact wellFormed_of_readNumber h
  | .numeral s =>
    rw [read] at h
    split at h
    · exact wellFormed_of_readNumber h
    · exact absurd h Checked.fail_ne_ok
  | .doubles xs | .singles xs =>
    rw [read] at h
    exact wellFormed_of_readArray h
  | .integers _ _ =>
    rw [read] at h
    split at h
    · exact wellFormed_of_readArray h
    · exact absurd h Checked.fail_ne_ok
  | .list [] | .null | .record _ | .timestamp _ | .table _ | .texts _ =>
    rw [read] at h
    exact absurd h Checked.fail_ne_ok
  | .list (v :: vs) =>
    by_cases hcall : ∃ name, v = .text name
    · obtain ⟨name, rfl⟩ := hcall
      refine read_call_wellFormed ?_ h
      intro w hw path' n' h'
      exact read_wellFormed path' w h'
    · rw [read] at h
      · split at h
        · exact wellFormed_of_readArray h
        · exact absurd h Checked.fail_ne_ok
      · exact fun name hname => hcall ⟨name, hname⟩
termination_by sizeOf v
decreasing_by
  have := List.sizeOf_lt_of_mem hw
  simp
  omega

end Node

end ShaderStyle
