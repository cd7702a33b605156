import ShaderStyle.Proofs.Glsl.Parser

/-! How texts of expressions are put together from texts of smaller ones. -/
namespace ShaderStyle.Glsl

theorem Derives.of_le {level other : Nat} {ts : List Token} {x : Tree} (h : Derives level ts x)
    (hle : level ≤ other) (htop : other ≤ topLevel) : Derives other ts x := by
  induction hle with
  | refl => exact h
  | step _ ih => exact .weaken htop (ih (Nat.le_of_succ_le htop))

theorem openAfter_intercalate {args : List (List Token)}
    (h : ∀ ts ∈ args, ∀ n, openAfter .lparen .rparen n ts = some n) (n : Nat) :
    openAfter .lparen .rparen n ([Token.comma].intercalate args) = some n := by
  induction args with
  | nil => rfl
  | cons ts args ih =>
    have hts := h ts (by simp) n
    have hargs := ih fun ts hts => h ts (by simp [hts])
    cases args with
    | nil => simpa using hts
    | cons us args =>
      rw [List.intercalate_cons_cons, openAfter_append, openAfter_append, hts]
      exact hargs

/-- Parentheses of an expression match. -/
theorem Derives.balanced {level : Nat} {ts : List Token} {x : Tree} (h : Derives level ts x)
    (n : Nat) : openAfter .lparen .rparen n ts = some n := by
  induction h generalizing n with
  | number s => simp [openAfter]
  | word ident => simp [openAfter]
  | @call f args _ ih =>
    have hargs : ∀ m, openAfter .lparen .rparen m
        ([Token.comma].intercalate (args.map Prod.fst)) = some m := by
      apply openAfter_intercalate
      intro ts hts
      obtain ⟨a, ha, rfl⟩ := List.mem_map.mp hts
      exact ih a ha
    simp [openAfter, openAfter_append, hargs]
  | paren _ ih => simp [openAfter, openAfter_append, ih]
  | field name _ ih => simp [openAfter, openAfter_append, ih]
  | negate _ ih => simp [openAfter, ih]
  | not _ ih => simp [openAfter, ih]
  | binary op _ _ ihl ihr => simp [openAfter, openAfter_append, ihl, ihr]
  | choose _ _ _ ihc ihy ihn => simp [openAfter, openAfter_append, ihc, ihy, ihn]
  | weaken _ _ ih => exact ih n

/-- A text is an expression of a level, with the given nesting. -/
def Spells (level : Nat) (text : String) (x : Tree) : Prop :=
  ∃ ts, Token.lex text = some ts ∧ Derives level ts x

namespace Spells

variable {level : Nat} {text : String} {x : Tree}

theorem of_le {other : Nat} (h : Spells level text x) (hle : level ≤ other)
    (htop : other ≤ topLevel) : Spells other text x := by
  obtain ⟨ts, hl, hd⟩ := h
  exact ⟨ts, hl, hd.of_le hle htop⟩

theorem parse_eq (h : Spells level text x) (hle : level ≤ topLevel) : parse text = some x := by
  obtain ⟨ts, hl, hd⟩ := h
  exact parse_of_derives hl (hd.of_le hle (Nat.le_refl _))

theorem balanced (h : Spells level text x) : Balanced text := by
  obtain ⟨ts, hl, hd⟩ := h
  intro n
  rw [← hd.balanced n, ← Token.openAfter_lexFrom n hl, List.nil_append]

theorem decimal (h : Token.IsDecimal text) : Spells 0 text (.number text) :=
  ⟨_, Token.lex_decimal h, .number text⟩

theorem negative (h : Token.IsDecimal text) : Spells 1 ("-" ++ text) (.negate (.number text)) := by
  have hapart : Token.Apart "-".toList text.toList := by
    obtain ⟨whole, fraction, hne, -, hw, -, htext⟩ := h
    obtain ⟨first, rest, rfl⟩ := List.exists_cons_of_ne_nil hne
    have hfirst : first.isDigit = true := hw first (by simp)
    rw [htext]
    right
    exact Token.symbol_joins rfl (by decide) (Token.isIdentChar_of_isDigit hfirst)
  exact ⟨_, Token.lex_append hapart rfl (Token.lex_decimal h),
    .negate (.weaken (by decide) (.number text))⟩

theorem word (h : Token.isName text.toList = true) : Spells 0 text (.word text) :=
  ⟨_, Token.lex_name h, .word text⟩

theorem bool (b : Bool) : Spells 0 (if b then "true" else "false") (.bool b) := by
  cases b with
  | false => exact word (by decide)
  | true => exact word (by decide)

theorem paren (h : Spells level text x) (hle : level ≤ topLevel) :
    Spells 0 ("(" ++ text ++ ")") x := by
  obtain ⟨ts, hl, hd⟩ := h
  exact ⟨_, Token.lex_enclose (by decide) (by decide) rfl hl rfl,
    .paren (hd.of_le hle (Nat.le_refl _))⟩

/-- The arguments of a call, as tokens. -/
theorem args {texts : List String} {xs : List Tree} (h : List.Forall₂ (Spells topLevel) texts xs) :
    ∃ args : List (List Token × Tree),
      Token.lex (", ".intercalate texts) = some ([Token.comma].intercalate (args.map Prod.fst)) ∧
        (∀ a ∈ args, Derives topLevel a.1 a.2) ∧ args.map Prod.snd = xs := by
  obtain ⟨args, htexts, hderived, hxs⟩ : ∃ args : List (List Token × Tree),
      List.Forall₂ (fun text ts => Token.lex text = some ts) texts (args.map Prod.fst) ∧
        (∀ a ∈ args, Derives topLevel a.1 a.2) ∧ args.map Prod.snd = xs := by
    induction h with
    | nil => exact ⟨[], .nil, by simp, rfl⟩
    | @cons text x texts xs hx _ ih =>
      obtain ⟨ts, hl, hd⟩ := hx
      obtain ⟨args, htexts, hderived, rfl⟩ := ih
      exact ⟨(ts, x) :: args, .cons hl htexts, by simpa [hd] using hderived, rfl⟩
  have hcomma : Token.lex ", " = some [.comma] := rfl
  exact ⟨args, Token.lex_intercalate (by decide) (by decide) hcomma htexts, hderived, hxs⟩

theorem balanced_args {texts : List String} {xs : List Tree}
    (h : List.Forall₂ (Spells topLevel) texts xs) : Balanced (", ".intercalate texts) := by
  obtain ⟨args, hl, hderived, -⟩ := Spells.args h
  intro n
  have hopen : openAfter .lparen .rparen n
      ([Token.comma].intercalate (args.map Prod.fst)) = some n := by
    apply openAfter_intercalate
    intro ts hts
    obtain ⟨a, ha, rfl⟩ := List.mem_map.mp hts
    exact (hderived a ha).balanced
  rw [← hopen, ← Token.openAfter_lexFrom n hl, List.nil_append]

theorem call {f : String} {texts : List String} {xs : List Tree}
    (hf : Token.isName f.toList = true) (h : List.Forall₂ (Spells topLevel) texts xs) :
    Spells 0 (f ++ "(" ++ ", ".intercalate texts ++ ")") (.call f xs) := by
  obtain ⟨args, hl, hderived, rfl⟩ := Spells.args h
  have hopen : Token.lex (f ++ "(") = some [.ident f, .lparen] :=
    Token.lex_append (Token.apart_of_head (by decide)) (Token.lex_name hf) rfl
  have hlast : (f ++ "(").toList.getLast?.any Token.isSeparator = true := by
    rw [String.toList_append, List.getLast?_append]
    rfl
  exact ⟨_, Token.lex_enclose hlast (by decide) hopen hl rfl, .call f hderived⟩

theorem binary (op : BinaryOp) {left right : String} {y : Tree} (hl : Spells op.level left x)
    (hr : Spells (op.level - 1) right y) :
    Spells op.level (left ++ (" " ++ op.symbol ++ " ") ++ right) (.binary op x y) := by
  obtain ⟨ts, hlt, hlx⟩ := hl
  obtain ⟨us, hru, hry⟩ := hr
  have hop : Token.lex (" " ++ op.symbol ++ " ") = some [.op op] := by cases op <;> decide
  have hfirst : (" " ++ op.symbol ++ " ").toList.head?.any Token.isSeparator = true := by
    cases op <;> decide
  have hlast : (" " ++ op.symbol ++ " ").toList.getLast?.any Token.isSeparator = true := by
    cases op <;> decide
  have hlex := Token.lex_join hfirst hlast hlt hop hru
  rw [List.append_assoc] at hlex
  exact ⟨_, hlex, .binary op hlx hry⟩

theorem choose {condition yes no : String} {c y n : Tree}
    (hc : Spells (topLevel - 1) condition c) (hy : Spells topLevel yes y)
    (hn : Spells topLevel no n) :
    Spells topLevel (condition ++ " ? " ++ yes ++ " : " ++ no) (.choose c y n) := by
  obtain ⟨ts, hlc, hdc⟩ := hc
  obtain ⟨us, hly, hdy⟩ := hy
  obtain ⟨vs, hln, hdn⟩ := hn
  have hyes := Token.lex_join (by decide) (by decide) hlc (rfl : Token.lex " ? " = _) hly
  have hno := Token.lex_join (by decide) (by decide) hyes (rfl : Token.lex " : " = _) hln
  refine ⟨_, hno, ?_⟩
  have := Derives.choose hdc hdy hdn
  simpa using this

theorem not (happart : Token.Apart "!".toList text.toList) (h : Spells 1 text x) :
    Spells 1 ("!" ++ text) (.not x) := by
  obtain ⟨ts, hl, hd⟩ := h
  exact ⟨_, Token.lex_append happart rfl hl, .not hd⟩

theorem field (name : String) (hname : Token.isName name.toList = true) (h : Spells 0 text x) :
    Spells 0 (text ++ ("." ++ name)) (.field x name) := by
  obtain ⟨ts, hl, hd⟩ := h
  have hdot : Token.lex "." = some [.dot] := rfl
  have hfield : Token.lex ("." ++ name) = some [.dot, .ident name] := by
    refine Token.lex_append ?_ hdot (Token.lex_name hname)
    cases hcs : name.toList with
    | nil => trivial
    | cons first rest =>
      rw [hcs] at hname
      obtain ⟨-, hdigit, -⟩ := Token.isName_cons.mp hname
      exact Or.inr hdigit
  refine ⟨_, Token.lex_append ?_ hl hfield, .field name hd⟩
  obtain ⟨us, hus⟩ := Token.ofLexeme_openLexeme hl
  rw [String.toList_append]
  by_cases hne : Token.openLexeme [] text.toList = []
  · exact Or.inl hne
  · exact Or.inr (Token.ofLexeme_joins_dot hus hne)

/-- Operands joined by one operator associate to the left. -/
theorem chain (op : BinaryOp) {first : String} {texts : List String} {xs : List Tree}
    (hfirst : Spells op.level first x) (h : List.Forall₂ (Spells (op.level - 1)) texts xs) :
    Spells op.level ((" " ++ op.symbol ++ " ").intercalate (first :: texts))
      (xs.foldl (.binary op) x) := by
  induction h generalizing first x with
  | nil => simpa using hfirst
  | @cons text y texts ys hy _ ih =>
    rw [String.intercalate_cons_cons, List.foldl_cons]
    have hjoined := ih (binary op hfirst hy)
    rwa [String.intercalate_cons_append] at hjoined

end Spells

end ShaderStyle.Glsl
