import ShaderStyle.Proofs.Emission.Tree
import ShaderStyle.Proofs.Glsl.Name
import ShaderStyle.Proofs.Typing.Soundness

/-! The code of an expression stands as one operand wherever it is put, and reads back with the
nesting of the expression. -/
namespace ShaderStyle

namespace Glsl

/-- Texts that nothing around them can take apart. -/
inductive IsOperand : String → Prop where
  | decimal {text : String} (form : Token.IsDecimal text) : IsOperand text
  | bool (b : Bool) : IsOperand (if b then "true" else "false")
  | name {text : String} (form : Token.isName text.toList = true) : IsOperand text
  | group {function body : String} (ident : function.toList.all isIdentChar = true)
      (inside : Balanced body) : IsOperand (function ++ "(" ++ body ++ ")")

/-- An operand with its nesting. Only numbers, which also stand for texts, may have a sign. -/
inductive Spelled (type : Ty) : String → Tree → Prop where
  | operand {text : String} {x : Tree} (form : IsOperand text) (spells : Spells 0 text x) :
      Spelled type text x
  | signed {digits : String} (scalar : type = .number ∨ type = .string)
      (form : Token.IsDecimal digits) : Spelled type ("-" ++ digits) (.negate (.number digits))

namespace Spelled

variable {type : Ty} {text : String} {x : Tree}

theorem spells (h : Spelled type text x) (level : Nat) (hpos : 1 ≤ level)
    (htop : level ≤ topLevel) : Spells level text x := by
  cases h with
  | operand _ hspells => exact hspells.of_le (by omega) htop
  | signed _ form => exact (Spells.negative form).of_le hpos htop

theorem plain (h : Spelled type text x) (hn : type ≠ .number) (hs : type ≠ .string) :
    IsOperand text ∧ Spells 0 text x := by
  cases h with
  | operand form hspells => exact ⟨form, hspells⟩
  | signed scalar _ =>
    rcases scalar with h | h
    · exact absurd h hn
    · exact absurd h hs

theorem literal {n : Double} (hfinite : n.isFinite = true)
    (scalar : type = .number ∨ type = .string) :
    Spelled type (Term.number n).text (.literal n) := by
  change Spelled type (numberText n) _
  rcases numberText_cases hfinite with hdecimal | ⟨digits, hdecimal, htext⟩
  · rw [Tree.literal_of_decimal hdecimal]
    exact .operand (.decimal hdecimal) (.decimal hdecimal)
  · rw [Tree.literal_of_negative htext, htext]
    exact .signed scalar hdecimal

theorem paren {level : Nat} (h : Spells level text x) (hle : level ≤ topLevel) :
    Spelled type ("(" ++ text ++ ")") x := by
  have hform : IsOperand ("" ++ "(" ++ text ++ ")") := .group rfl h.balanced
  exact .operand (by simpa using hform) (h.paren hle)

theorem call {f : String} {texts : List String} {xs : List Tree}
    (hf : Token.isName f.toList = true) (h : List.Forall₂ (Spells topLevel) texts xs) :
    Spelled type (f ++ "(" ++ ", ".intercalate texts ++ ")") (.call f xs) := by
  refine .operand (.group ?_ (Spells.balanced_args h)) (Spells.call hf h)
  exact List.all_eq_true.mpr (Token.isIdentChar_of_isName hf)

end Spelled

@[simp] theorem Term.texts_eq (ts : List Term) : Term.texts ts = ts.map Term.text := by
  induction ts with
  | nil => rfl
  | cons t ts ih => rw [Term.texts, ih, List.map_cons]

theorem Term.text_call (f : String) (ts : List Term) :
    (Term.call f ts).text = f ++ "(" ++ ", ".intercalate (ts.map Term.text) ++ ")" := by
  rw [Term.text, Term.texts_eq]

theorem Term.text_chain (op : BinaryOp) (ts : List Term) :
    (Term.chain op ts).text = (" " ++ op.symbol ++ " ").intercalate (ts.map Term.text) := by
  rw [Term.text, Term.texts_eq]

theorem Spells.chain_terms (op : BinaryOp) {ts : List Term} {xs : List Tree} (hne : ts ≠ [])
    (h : List.Forall₂ (fun t x => Spells (op.level - 1) t.text x) ts xs) :
    Spells op.level (Term.chain op ts).text (.chain op xs) := by
  rw [Term.text_chain]
  cases h with
  | nil => exact absurd rfl hne
  | @cons t x ts xs hx hxs =>
    have hlevel := op.two_le_level
    have htop : op.level ≤ topLevel := by cases op <;> decide
    have hrest : List.Forall₂ (Spells (op.level - 1)) (ts.map Term.text) xs :=
      List.forall₂_map_left_iff.mpr hxs
    exact Spells.chain op (hx.of_le (by omega) htop) hrest

theorem Spelled.group {type : Ty} (op : BinaryOp) {ts : List Term} {xs : List Tree}
    (hne : ts ≠ []) (h : List.Forall₂ (fun t x => Spells (op.level - 1) t.text x) ts xs) :
    Spelled type (group op ts).text (.chain op xs) := by
  have hchain := Spells.chain_terms op hne h
  exact Spelled.paren hchain (by cases op <;> decide)

theorem Spelled.call_terms {type : Ty} {f : String} {ts : List Term} {xs : List Tree}
    (hf : Token.isName f.toList = true)
    (h : List.Forall₂ (fun t x => Spells topLevel t.text x) ts xs) :
    Spelled type (Term.call f ts).text (.call f xs) := by
  rw [Term.text_call]
  exact Spelled.call hf (List.forall₂_map_left_iff.mpr h)

theorem apart_bang {text : String} {first : Char} {rest : List Char}
    (htext : text.toList = first :: rest) (h : isIdentChar first = true ∨ first = '(') :
    Token.Apart "!".toList text.toList := by
  rw [htext]
  right
  rcases h with h | rfl
  · exact Token.symbol_joins rfl (by decide) h
  · rfl

theorem IsOperand.apart_bang {text : String} (h : IsOperand text) :
    Token.Apart "!".toList text.toList := by
  cases h with
  | decimal form =>
    obtain ⟨whole, fraction, hne, -, hdigits, -, htext⟩ := form
    obtain ⟨first, rest, rfl⟩ := List.exists_cons_of_ne_nil hne
    exact Glsl.apart_bang htext (Or.inl (Token.isIdentChar_of_isDigit (hdigits first (by simp))))
  | bool b =>
    cases b with
    | false => exact Or.inr rfl
    | true => exact Or.inr rfl
  | name form =>
    cases htext : text.toList with
    | nil => trivial
    | cons first rest =>
      rw [htext] at form
      rw [← htext]
      exact Glsl.apart_bang htext (Or.inl (Token.isName_cons.mp form).1)
  | @group function body ident _ =>
    cases hf : function.toList with
    | nil =>
      have htext : (function ++ "(" ++ body ++ ")").toList = '(' :: (body ++ ")").toList := by
        simp [hf]
      exact Glsl.apart_bang htext (Or.inr rfl)
    | cons first rest =>
      have hfirst : isIdentChar first = true := by
        rw [hf] at ident
        exact List.all_eq_true.mp ident first (by simp)
      have htext : (function ++ "(" ++ body ++ ")").toList =
          first :: (rest ++ ("(" ++ body ++ ")").toList) := by
        simp [hf]
      exact Glsl.apart_bang htext (Or.inl hfirst)

theorem isFinite_finite (x : Rat) : (Double.finite x).isFinite = true := rfl

theorem Spells.number_literal (x : Rat) (level : Nat) (hpos : 1 ≤ level)
    (htop : level ≤ topLevel) :
    Spells level (Term.number (.finite x)).text (.literal (.finite x)) :=
  (Spells.literal (isFinite_finite x)).of_le hpos htop

theorem Spelled.ident {type : Ty} {ident : String} (h : Token.isName ident.toList = true)
    (hword : ident.toList[1]? = some '_') : Spelled type (Term.name ident).text (.name ident) :=
  .operand (.name h) (Spells.ident h hword)

theorem Spelled.vector {type : Ty} {ts : List Term} {xs : List Tree}
    (h : List.Forall₂ (fun t x => Spells topLevel t.text x) ts xs) :
    Spelled type (Term.vector ts).text (.vector xs) := by
  rw [Term.vector, Tree.vector, h.length_eq]
  exact Spelled.call_terms (isName_vector _) h

theorem Spelled.literals {type : Ty} {xs : List Double} (h : ∀ x ∈ xs, x.isFinite = true) :
    Spelled type (Term.vector (xs.map .number)).text (.vector (xs.map .literal)) := by
  apply Spelled.vector
  rw [List.forall₂_map_left_iff, List.forall₂_map_right_iff, List.forall₂_same]
  intro x hx
  exact (Spells.literal (h x hx)).of_le (by decide) (by decide)

theorem Spelled.stored {type : Ty} {ident : String} (h : Token.isName ident.toList = true)
    (hword : ident.toList[1]? = some '_') :
    Spelled type (readTerm ident type).text (.stored ident type) := by
  have hname := Spells.ident h hword
  cases type with
  | boolean =>
    refine Spelled.group .greater (by simp) (.cons ?_ (.cons ?_ .nil))
    · exact hname.of_le (by decide) (by decide)
    · exact Spells.number_literal 0 _ (by decide) (by decide)
  | _ => exact Spelled.ident h hword

theorem Spelled.unpacked {type : Ty} {ident : String} (h : Token.isName ident.toList = true)
    (hword : ident.toList[1]? = some '_') :
    Spelled type (unpack (.name ident)).text (.unpacked ident) := by
  have hname := Spells.ident h hword
  exact Spelled.call_terms (by decide) (.cons (hname.of_le (by decide) (by decide)) .nil)

end Glsl

open Glsl (Term Tree Spells Spelled topLevel)

theorem Reference.isName_propertyIdent (name : String) (stage : Stage) :
    Glsl.Token.isName (propertyIdent name stage).toList = true := by
  cases stage with
  | vertex => exact Glsl.isName_attributeName name
  | fragment => exact Glsl.isName_varyingName name

theorem Reference.getElem_propertyIdent (name : String) (stage : Stage) :
    (propertyIdent name stage).toList[1]? = some '_' := by
  cases stage with
  | vertex => exact Glsl.getElem_attributeName name
  | fragment => exact Glsl.getElem_varyingName name

/-- The literals that a reference needs can be written. -/
def Reference.Finite (c : Categories) : Reference → Prop
  | .text _ s => (Double.ofInt (c.number s)).isFinite = true
  | .number _ x => x.isFinite = true
  | .property _ _ _ | .styleVariable _ _ _ => True

theorem Reference.Provided.finite {stage : Stage} {r : Registry} {ref : Reference}
    (h : ref.Provided stage r) : ref.Finite r.categories := by
  cases ref with
  | text => exact h.2
  | number => exact h
  | property | styleVariable => trivial

namespace Expr

variable {stage : Stage} {c : Categories}

/-- The code of an expression is spelled with its nesting. -/
def IsSpelled (stage : Stage) (c : Categories) (e : Expr) : Prop :=
  Spelled e.type (e.term stage c).text (e.tree stage c)

theorem forall₂_spells {es : List Expr} (h : ∀ e ∈ es, e.IsSpelled stage c) (level : Nat)
    (hpos : 1 ≤ level) (htop : level ≤ topLevel) :
    List.Forall₂ (fun t x => Spells level t.text x) (es.map (term stage c))
      (es.map (tree stage c)) := by
  rw [List.forall₂_map_left_iff, List.forall₂_map_right_iff, List.forall₂_same]
  exact fun e he => (h e he).spells level hpos htop

theorem spelled_rgb {type : Ty} {rgb : List Term} {xs : List Tree}
    (h : List.Forall₂ (fun t x => Spells topLevel t.text x) rgb xs) :
    Spelled type
      (Term.call "vec4" [.chain .div [.call "vec3" rgb, .number (.finite 255)], Glsl.oneTerm]).text
      (.call "vec4" [.binary .div (.call "vec3" xs) (.literal (.finite 255)),
        .literal (.finite 1)]) := by
  have hvector : Spelled .color _ _ := Spelled.call_terms (f := "vec3") (by decide) h
  have hscaled := Spells.chain_terms .div (by simp)
    (.cons (hvector.spells 1 (by decide) (by decide))
      (.cons (Spells.number_literal 255 _ (by decide) (by decide)) .nil))
  refine Spelled.call_terms (by decide) (.cons ?_ (.cons ?_ .nil))
  · exact hscaled.of_le (by decide) (by decide)
  · exact Spells.number_literal 1 _ (by decide) (by decide)

theorem isSpelled_call {op : Op} {args : List Expr} {type : Ty}
    (accepts : op.Accepts (args.map Expr.type) type) (h : ∀ e ∈ args, e.IsSpelled stage c) :
    ∃ t, Glsl.callTerm op (args.map (term stage c)) = .ok t ∧
      Spelled type t.text (op.tree (args.map (tree stage c))) := by
  have hform := accepts.form
  rw [List.length_map] at hform
  have htop := forall₂_spells h topLevel (by decide) (by decide)
  generalize hn : args.length = n at hform
  cases hform with
  | @chain op b n joined many exact_two =>
    have hlength : op ∈ [Op.mul, .add, .all, .any] ∨ (args.map (term stage c)).length = 2 := by
      rw [List.length_map, hn]
      exact exact_two
    have hne : args.map (term stage c) ≠ [] := by
      rw [Ne, List.map_eq_nil_iff, ← List.length_eq_zero_iff]
      omega
    refine ⟨_, Glsl.callTerm_chain joined hlength, ?_⟩
    rw [Op.tree_chain joined]
    have hlevel := b.two_le_level
    exact Spelled.group b hne (forall₂_spells h _ (by omega) (by cases b <;> decide))
  | @function op f n called admitted =>
    refine ⟨_, Glsl.callTerm_function called (by rw [List.length_map, hn]; exact admitted), ?_⟩
    rw [Op.tree_function called]
    exact Spelled.call_terms (by cases op <;> cases called <;> decide) htop
  | round =>
    obtain ⟨e, rfl⟩ := List.length_eq_one_iff.mp hn
    have hx := (h e (by simp)).spells 2 (by decide) (by decide)
    refine ⟨_, rfl, ?_⟩
    have hsum := Spells.chain_terms .add (by simp) (.cons hx
      (.cons (Spells.number_literal (1 / 2) _ (by decide) (by decide)) .nil))
    exact Spelled.call_terms (by decide) (.cons (hsum.of_le (by decide) (by decide)) .nil)
  | not =>
    obtain ⟨e, rfl⟩ := List.length_eq_one_iff.mp hn
    have hkind : ∀ t ∈ [e.type], t.kind? = some .boolean := accepts.2.2.1
    have htype : e.type = .boolean := Ty.eq_boolean.mp (hkind e.type (by simp))
    obtain ⟨hoperand, hspells⟩ := (h e (by simp)).plain (by simp [htype]) (by simp [htype])
    refine ⟨_, rfl, ?_⟩
    have hnot := Spells.not hoperand.apart_bang (hspells.of_le (by decide) (by decide))
    exact Spelled.paren hnot (by decide)
  | between =>
    obtain ⟨x, low, high, rfl⟩ := List.length_eq_three.mp hn
    have hoperand (e : Expr) (he : e ∈ [x, low, high]) :
        Spells 3 (e.term stage c).text (e.tree stage c) := (h e he).spells 3 (by decide) (by decide)
    have hlow := Spells.chain_terms .greaterEq (by simp)
      (.cons (hoperand x (by simp)) (.cons (hoperand low (by simp)) .nil))
    have hhigh := Spells.chain_terms .lessEq (by simp)
      (.cons (hoperand x (by simp)) (.cons (hoperand high (by simp)) .nil))
    refine ⟨_, rfl, Spelled.group .and (by simp) (.cons ?_ (.cons ?_ .nil))⟩
    · exact hlow.of_le (by decide) (by decide)
    · exact hhigh.of_le (by decide) (by decide)
  | array sized => exact ⟨_, rfl, Spelled.vector htop⟩
  | rgb =>
    obtain ⟨r, g, b, rfl⟩ := List.length_eq_three.mp hn
    exact ⟨_, rfl, spelled_rgb htop⟩
  | rgba =>
    match args, hn with
    | [r, g, b, a], _ =>
      have hthree : ∀ e ∈ [r, g, b], e.IsSpelled stage c := fun e he => h e (by grind)
      have hrgb : Spelled .color _ _ :=
        spelled_rgb (forall₂_spells hthree topLevel (by decide) (by decide))
      refine ⟨_, rfl, Spelled.group .mul (by simp) (.cons ?_ (.cons ?_ .nil))⟩
      · exact hrgb.spells 1 (by decide) (by decide)
      · exact (h a (by simp)).spells 1 (by decide) (by decide)

theorem spelled_mix {type : Ty} {input exponent below start stop output : Term}
    {i x b s p o : Tree} (hi : Spells 2 input.text i) (hx : Spells topLevel exponent.text x)
    (hb : Spells topLevel below.text b) (hs : Spells 2 start.text s) (hp : Spells 2 stop.text p)
    (ho : Spells topLevel output.text o) :
    Spelled type (Glsl.mixTerm input exponent below start stop output).text
      (.mix i x b s p o) := by
  have hrise : Spelled .number _ _ := Spelled.group .sub (by simp) (.cons hi (.cons hs .nil))
  have hspan : Spelled .number _ _ := Spelled.group .sub (by simp) (.cons hp (.cons hs .nil))
  have hposition := Spells.chain_terms .div (by simp)
    (.cons (hrise.spells 1 (by decide) (by decide))
      (.cons (hspan.spells 1 (by decide) (by decide)) .nil))
  have hclamp : Spelled .number _ _ := Spelled.call_terms (f := "clamp") (by decide)
    (.cons (hposition.of_le (by decide) (by decide))
      (.cons (Spells.number_literal 0 _ (by decide) (by decide))
        (.cons (Spells.number_literal 1 _ (by decide) (by decide)) .nil)))
  have hpow : Spelled .number _ _ := Spelled.call_terms (f := "pow") (by decide)
    (.cons (hclamp.spells _ (by decide) (by decide)) (.cons hx .nil))
  exact Spelled.call_terms (by decide)
    (.cons hb (.cons ho (.cons (hpow.spells _ (by decide) (by decide)) .nil)))

theorem spelled_mixes {type : Ty} {input exponent below start : Term} {i x b s : Tree}
    {rest : List (Term × Term)} {xs : List (Tree × Tree)} (hi : Spells 2 input.text i)
    (hx : Spells topLevel exponent.text x) (hb : Spelled type below.text b)
    (hs : Spells 2 start.text s)
    (h : List.Forall₂ (fun p q => Spells 2 p.1.text q.1 ∧ Spelled type p.2.text q.2) rest xs) :
    Spelled type (Glsl.mixChain input exponent below start rest).text (.mixes i x b s xs) := by
  induction h generalizing below start b s with
  | nil => exact hb
  | @cons p q rest xs hpq _ ih =>
    obtain ⟨hstop, houtput⟩ := hpq
    have hmix : Spelled type _ _ := spelled_mix hi hx (hb.spells _ (by decide) (by decide)) hs hstop
      (houtput.spells _ (by decide) (by decide))
    exact ih hmix hstop

theorem spelled_alternatives {type : Ty} {condition : Term → Term} {test : Tree → Tree}
    {fallback : Term} {f : Tree} {ps : List (Term × Term)} {xs : List (Tree × Tree)}
    (hf : Spelled type fallback.text f)
    (h : List.Forall₂ (fun p q =>
      Spells (topLevel - 1) (condition p.1).text (test q.1) ∧ Spelled type p.2.text q.2) ps xs) :
    Spelled type (alternativesTerm condition fallback ps).text
      (.alternatives test f xs) := by
  induction h with
  | nil => exact hf
  | @cons p q rest xs hpq _ ih =>
    obtain ⟨hcondition, houtput⟩ := hpq
    have hchoose := Spells.choose hcondition (houtput.spells _ (by decide) (by decide))
      (ih.spells _ (by decide) (by decide))
    exact Spelled.paren hchoose (by decide)

/-- The code of a well-typed expression whose literals can be written. -/
theorem WellTyped.isSpelled {sizes : Nat → Prop} {e : Expr} (h : e.WellTyped sizes)
    (finite : ∀ ref ∈ e.references, ref.Finite c) : e.IsSpelled stage c := by
  induction h with
  | number path x =>
    have hfinite : x.isFinite = true := finite (.number path x) (by simp [references])
    exact Spelled.literal hfinite (Or.inl rfl)
  | bool path b => exact .operand (.bool b) (Spells.bool b)
  | text path s =>
    have hfinite : (Double.ofInt (c.number s)).isFinite = true :=
      finite (.text path s) (by simp [references])
    exact Spelled.literal hfinite (Or.inr rfl)
  | color path rgba =>
    apply Spelled.literals
    exact fun x hx => finite (.number path x) (List.mem_map_of_mem hx)
  | @array path xs =>
    apply Spelled.literals
    exact fun x hx => finite (.number path x) (List.mem_map_of_mem hx)
  | @get path name type =>
    have hname := Reference.isName_propertyIdent name stage
    have hword := Reference.getElem_propertyIdent name stage
    rw [IsSpelled, term, termWith, tree, Reference.propertyTerm]
    split
    · exact Spelled.unpacked hname hword
    · exact Spelled.stored hname hword
  | @var path name type =>
    have hname := Glsl.isName_uniformName name
    have hword := Glsl.getElem_uniformName name
    rw [IsSpelled, term, termWith, tree]
    split
    · exact Spelled.unpacked hname hword
    · exact Spelled.stored hname hword
  | @builtin path name known =>
    simp only [Node.builtins, List.mem_cons, List.not_mem_nil, or_false] at known
    rcases known with rfl | rfl | rfl <;> exact Spelled.ident (by decide) (by decide)
  | @call path op args type sized accepts operands ih =>
    have hargs : ∀ e ∈ args, e.IsSpelled stage c := fun e he =>
      ih e he fun ref href => finite ref (mem_referencesList.mpr ⟨e, he, href⟩)
    obtain ⟨t, ht, hspelled⟩ := isSpelled_call accepts hargs
    rw [IsSpelled, term_call, tree, treeList_eq, ht]
    exact hspelled
  | @interpolate path exponent input stops type sized count _ _ _ output_type _ _ _ ihi ihs iho =>
    have hexponent : exponent.isFinite = true :=
      finite (.number path exponent) (by simp [references])
    have hinput : input.IsSpelled stage c :=
      ihi fun ref href => finite ref (by simp [references, href])
    have hstop (p : Expr × Expr) (hp : p ∈ stops) : p.1.IsSpelled stage c := by
      refine ihs p hp fun ref href => finite ref ?_
      simp only [references, List.mem_append, mem_referencesPairs]
      exact Or.inr (Or.inr ⟨p, hp, Or.inl href⟩)
    have houtput (p : Expr × Expr) (hp : p ∈ stops) :
        Spelled type (p.2.term stage c).text (p.2.tree stage c) := by
      rw [← output_type p hp]
      refine iho p hp fun ref href => finite ref ?_
      simp only [references, List.mem_append, mem_referencesPairs]
      exact Or.inr (Or.inr ⟨p, hp, Or.inr href⟩)
    rw [IsSpelled, term_interpolate, termPairs, tree, treePairs_eq]
    cases stops with
    | nil => exact absurd count (by decide)
    | cons p rest =>
      refine spelled_mixes (hinput.spells 2 (by decide) (by decide))
        ((Spells.literal hexponent).of_le (by decide) (by decide)) (houtput p (by simp))
        ((hstop p (by simp)).spells 2 (by decide) (by decide)) ?_
      rw [List.forall₂_map_left_iff, List.forall₂_map_right_iff, List.forall₂_same]
      intro q hq
      exact ⟨(hstop q (by simp [hq])).spells 2 (by decide) (by decide), houtput q (by simp [hq])⟩
  | @select path input fallback alternatives type label sized count _ _ _ output_type
      fallback_type _ _ _ _ ihi ihl iho ihf =>
    have hinput : input.IsSpelled stage c :=
      ihi fun ref href => finite ref (by simp [references, href])
    have hfallback : Spelled type (fallback.term stage c).text (fallback.tree stage c) := by
      rw [← fallback_type]
      exact ihf fun ref href => finite ref (by simp [references, href])
    rw [IsSpelled, term_select, termPairs, tree, treePairs_eq]
    apply spelled_alternatives hfallback
    rw [List.forall₂_map_left_iff, List.forall₂_map_right_iff, List.forall₂_same]
    intro p hp
    have hmem (ref : Reference) (href : ref ∈ p.1.references ∨ ref ∈ p.2.references) :
        ref.Finite c := by
      apply finite ref
      simp only [references, List.mem_append, mem_referencesAlternatives]
      exact Or.inr (Or.inr ⟨p, hp, href⟩)
    have hlabel := ihl p hp fun ref href => hmem ref (Or.inl href)
    have hequal := Spells.chain_terms .equal (by simp)
      (.cons (hinput.spells 4 (by decide) (by decide))
        (.cons (hlabel.spells 4 (by decide) (by decide)) .nil))
    constructor
    · exact hequal.of_le (by decide) (by decide)
    · rw [← output_type p hp]
      exact iho p hp fun ref href => hmem ref (Or.inr href)
  | @cases path fallback alternatives type sized count _ output_type fallback_type _ _ _
      ihc iho ihf =>
    have hfallback : Spelled type (fallback.term stage c).text (fallback.tree stage c) := by
      rw [← fallback_type]
      exact ihf fun ref href => finite ref (by simp [references, href])
    rw [IsSpelled, term_cases, termPairs, tree, treePairs_eq]
    apply spelled_alternatives hfallback
    rw [List.forall₂_map_left_iff, List.forall₂_map_right_iff, List.forall₂_same]
    intro p hp
    have hmem (ref : Reference) (href : ref ∈ p.1.references ∨ ref ∈ p.2.references) :
        ref.Finite c := by
      apply finite ref
      simp only [references, List.mem_append, mem_referencesAlternatives]
      exact Or.inr ⟨p, hp, href⟩
    constructor
    · exact (ihc p hp fun ref href => hmem ref (Or.inl href)).spells _ (by decide) (by decide)
    · rw [← output_type p hp]
      exact iho p hp fun ref href => hmem ref (Or.inr href)
  | @widen x type sized number vector typed ih =>
    have hx := (ih finite).spells topLevel (by decide) (by decide)
    exact Spelled.call_terms (Glsl.isName_vector _) (.cons hx .nil)

end Expr

end ShaderStyle
