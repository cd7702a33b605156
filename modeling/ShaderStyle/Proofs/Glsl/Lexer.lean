import Mathlib.Data.List.Forall2
import ShaderStyle.Glsl.Name
import ShaderStyle.Glsl.Term

/-! Tokens of the shading language. A lexeme grows as long as the next character can belong to it. -/
namespace ShaderStyle.Glsl

/-- What expressions are written with. -/
inductive Token where
  | number (text : String)
  | ident (name : String)
  | op (op : BinaryOp)
  | bang | lparen | rparen | comma | dot | question | colon
  deriving DecidableEq

namespace Token

/-- A character that stands for itself next to any other one. -/
def isSeparator (c : Char) : Bool := "(),?: ".toList.contains c

/-- The two characters that belong together where they meet: operators, and marks of comments. -/
def pairs : List (Char × Char) := [
  ('+', '+'), ('-', '-'), ('+', '='), ('-', '='), ('*', '='), ('/', '='), ('%', '='), ('/', '/'),
  ('/', '*'), ('<', '='), ('>', '='), ('<', '<'), ('>', '>'), ('=', '='), ('!', '='), ('&', '='),
  ('|', '='), ('^', '='), ('&', '&'), ('|', '|'), ('^', '^')]

/-- Whether a character continues a lexeme. -/
def joins : List Char → Char → Bool
  | [], _ => true
  | ['.'], c => c.isDigit
  | first :: rest, c =>
    if first.isDigit then isIdentChar c || (c == '.' && !rest.contains '.')
    else if first == '.' || isIdentChar first then isIdentChar c
    else rest.isEmpty && pairs.contains (first, c)

/-- A number has a point with digits on one side of it or on both. -/
def isNumber (lexeme : List Char) : Bool :=
  match lexeme.dropWhile Char.isDigit with
  | '.' :: fraction => fraction.all Char.isDigit && 2 ≤ lexeme.length
  | _ => false

/-- A name consists of the characters of identifiers, without a digit in front. -/
def isName : List Char → Bool
  | [] => false
  | first :: rest => isIdentChar first && !first.isDigit && rest.all isIdentChar

/-- The token of a lexeme, which for a blank is none. Operators that only statements and integers
use are refused. -/
def ofLexeme : List Char → Option (List Token)
  | [] | [' '] => some []
  | ['('] => some [.lparen]
  | [')'] => some [.rparen]
  | [','] => some [.comma]
  | ['.'] => some [.dot]
  | ['?'] => some [.question]
  | [':'] => some [.colon]
  | ['!'] => some [.bang]
  | ['*'] => some [.op .mul]
  | ['+'] => some [.op .add]
  | ['-'] => some [.op .sub]
  | ['/'] => some [.op .div]
  | ['>'] => some [.op .greater]
  | ['>', '='] => some [.op .greaterEq]
  | ['<'] => some [.op .less]
  | ['<', '='] => some [.op .lessEq]
  | ['=', '='] => some [.op .equal]
  | ['!', '='] => some [.op .notEqual]
  | ['&', '&'] => some [.op .and]
  | ['|', '|'] => some [.op .or]
  | lexeme =>
    if isNumber lexeme then some [.number (.ofList lexeme)]
    else if isName lexeme then some [.ident (.ofList lexeme)]
    else none

/-- The tokens of a lexeme and of the characters after it. -/
def lexFrom (lexeme : List Char) : List Char → Option (List Token)
  | [] => ofLexeme lexeme
  | c :: cs =>
    if joins lexeme c then lexFrom (lexeme ++ [c]) cs
    else do
      let first ← ofLexeme lexeme
      let rest ← lexFrom [c] cs
      return first ++ rest

/-- The tokens of a text. -/
def lex (text : String) : Option (List Token) := lexFrom [] text.toList

/-- The lexeme that is open at the end of a text. -/
def openLexeme (lexeme : List Char) : List Char → List Char
  | [] => lexeme
  | c :: cs => if joins lexeme c then openLexeme (lexeme ++ [c]) cs else openLexeme [c] cs

/-- Whether no lexeme crosses from one text into the next. -/
def Apart (a b : List Char) : Prop :=
  match b with
  | [] => True
  | c :: _ => openLexeme [] a = [] ∨ joins (openLexeme [] a) c = false

theorem lexFrom_append {a b : List Char} {c : Char} {lexeme : List Char}
    (ends : joins (openLexeme lexeme a) c = false) :
    lexFrom lexeme (a ++ c :: b) = do
      let first ← lexFrom lexeme a
      let rest ← lexFrom [c] b
      return first ++ rest := by
  induction a generalizing lexeme with
  | nil =>
    have h : joins lexeme c = false := ends
    simp only [List.nil_append, lexFrom, h]
    rfl
  | cons d a ih =>
    rw [List.cons_append, lexFrom, lexFrom]
    rw [openLexeme] at ends
    by_cases h : joins lexeme d = true
    · rw [if_pos h] at ends
      rw [if_pos h, if_pos h, ih ends]
    · rw [if_neg h] at ends
      rw [if_neg h, if_neg h, ih ends]
      cases ofLexeme lexeme with
      | none => rfl
      | some first =>
        cases lexFrom [d] a with
        | none => rfl
        | some middle =>
          cases lexFrom [c] b with
          | none => rfl
          | some rest => simp

theorem openLexeme_ne_nil {a lexeme : List Char} (h : lexeme ≠ []) : openLexeme lexeme a ≠ [] := by
  induction a generalizing lexeme with
  | nil => exact h
  | cons c a ih =>
    rw [openLexeme]
    by_cases hj : joins lexeme c = true
    · rw [if_pos hj]
      exact ih (by simp)
    · rw [if_neg hj]
      exact ih (by simp)

theorem eq_nil_of_openLexeme_eq_nil {a : List Char} (h : openLexeme [] a = []) : a = [] := by
  cases a with
  | nil => rfl
  | cons c a =>
    have hne : openLexeme [c] a ≠ [] := openLexeme_ne_nil (by simp)
    exact absurd h hne

/-- Texts that stand apart are read one after the other. -/
theorem lex_append {a b : String} {x y : List Token} (apart : Apart a.toList b.toList)
    (ha : lex a = some x) (hb : lex b = some y) : lex (a ++ b) = some (x ++ y) := by
  unfold lex at ha hb ⊢
  rw [String.toList_append]
  cases hcs : b.toList with
  | nil =>
    rw [hcs] at hb
    obtain rfl : [] = y := Option.some.inj hb
    rw [List.append_nil, List.append_nil, ha]
  | cons c cs =>
    rw [hcs] at apart hb
    have hc : lexFrom [c] cs = some y := hb
    rcases apart with h | h
    · rw [eq_nil_of_openLexeme_eq_nil h] at ha ⊢
      obtain rfl : [] = x := Option.some.inj ha
      exact hc
    · rw [lexFrom_append h, ha, hc]
      rfl

theorem isIdentChar_of_isDigit {c : Char} (h : c.isDigit = true) : isIdentChar c = true := by
  simp only [Char.isDigit, Bool.and_eq_true, decide_eq_true_eq] at h
  have hc : '0' ≤ c ∧ c ≤ '9' := h
  simp [isIdentChar, hc]

theorem isSeparator_cases {c : Char} (h : isSeparator c = true) :
    c = '(' ∨ c = ')' ∨ c = ',' ∨ c = '?' ∨ c = ':' ∨ c = ' ' := by
  simpa [isSeparator] using h

theorem joins_separator {lexeme : List Char} {c : Char} (h : isSeparator c = true)
    (hne : lexeme ≠ []) : joins lexeme c = false := by
  have hd : c.isDigit = false := by
    rcases isSeparator_cases h with rfl | rfl | rfl | rfl | rfl | rfl <;> rfl
  have hi : isIdentChar c = false := by
    rcases isSeparator_cases h with rfl | rfl | rfl | rfl | rfl | rfl <;> rfl
  have hp (d : Char) : (d, c) ∉ pairs := by
    rcases isSeparator_cases h with rfl | rfl | rfl | rfl | rfl | rfl <;> simp [pairs]
  have hdot : (c == '.') = false := by
    rcases isSeparator_cases h with rfl | rfl | rfl | rfl | rfl | rfl <;> rfl
  unfold joins
  split
  · exact absurd rfl hne
  · exact hd
  · simp [hi, hp, hdot]

theorem separator_joins {c : Char} (h : isSeparator c = true) (d : Char) :
    joins [c] d = false := by
  have hp : (c, d) ∉ pairs := by
    rcases isSeparator_cases h with rfl | rfl | rfl | rfl | rfl | rfl <;> simp [pairs]
  rcases isSeparator_cases h with rfl | rfl | rfl | rfl | rfl | rfl <;>
    simpa [joins, isIdentChar] using hp

theorem openLexeme_separator {a lexeme : List Char} {c : Char} (h : isSeparator c = true) :
    openLexeme lexeme (a ++ [c]) = [c] := by
  induction a generalizing lexeme with
  | nil =>
    rw [List.nil_append, openLexeme]
    by_cases hne : lexeme = []
    · subst hne
      rfl
    · simp [joins_separator h hne, openLexeme]
  | cons d a ih =>
    rw [List.cons_append, openLexeme, ih, ih, ite_self]

/-- A separator at the end keeps a text apart from what follows. -/
theorem apart_of_getLast {a b : List Char} (h : a.getLast?.any isSeparator = true) :
    Apart a b := by
  obtain ⟨c, hlast, hc⟩ := (Option.any_eq_true _ _).mp h
  obtain ⟨a', rfl⟩ := List.getLast?_eq_some_iff.mp hlast
  cases b with
  | nil => trivial
  | cons d b =>
    right
    rw [openLexeme_separator hc]
    exact separator_joins hc d

/-- A separator at the start keeps a text apart from what precedes. -/
theorem apart_of_head {a b : List Char} (h : b.head?.any isSeparator = true) : Apart a b := by
  cases b with
  | nil => trivial
  | cons d b =>
    have hd : isSeparator d = true := h
    by_cases hne : openLexeme [] a = []
    · exact Or.inl hne
    · exact Or.inr (joins_separator hd hne)

theorem symbol_joins {c d : Char} (hc : isIdentChar c = false) (hdot : c ≠ '.')
    (hd : isIdentChar d = true) : joins [c] d = false := by
  have hpairs : ∀ p ∈ pairs, isIdentChar p.2 = false := by decide
  have hdigit : c.isDigit = false := by
    cases h : c.isDigit with
    | false => rfl
    | true =>
      rw [isIdentChar_of_isDigit h] at hc
      cases hc
  have hp : (c, d) ∉ pairs := by
    intro hmem
    have := hpairs _ hmem
    rw [hd] at this
    cases this
  unfold joins
  split
  · next heq => cases heq
  · next heq => exact absurd (List.cons.inj heq).1 hdot
  · next heq =>
    obtain ⟨rfl, rfl⟩ := List.cons.inj heq
    simp [hdigit, hdot, hc, hp]

/-- Two texts with one between them that starts and ends with a separator. -/
theorem lex_join {a s b : String} {x z y : List Token}
    (first : s.toList.head?.any isSeparator = true)
    (last : s.toList.getLast?.any isSeparator = true)
    (ha : lex a = some x) (hs : lex s = some z) (hb : lex b = some y) :
    lex (a ++ s ++ b) = some (x ++ z ++ y) := by
  have has : lex (a ++ s) = some (x ++ z) := lex_append (apart_of_head first) ha hs
  refine lex_append (apart_of_getLast ?_) has hb
  obtain ⟨c, hlast, hc⟩ := (Option.any_eq_true _ _).mp last
  rw [String.toList_append, List.getLast?_append, hlast]
  exact hc

/-- A text between two others that end and start with a separator. -/
theorem lex_enclose {l a r : String} {x z y : List Token}
    (first : l.toList.getLast?.any isSeparator = true)
    (last : r.toList.head?.any isSeparator = true)
    (hl : lex l = some x) (ha : lex a = some z) (hr : lex r = some y) :
    lex (l ++ a ++ r) = some (x ++ z ++ y) :=
  lex_append (apart_of_head last) (lex_append (apart_of_getLast first) hl ha) hr

/-- Texts of several parts, with a separating text between them. -/
theorem lex_intercalate {s : String} {z : List Token} {texts : List String}
    {tokens : List (List Token)} (first : s.toList.head?.any isSeparator = true)
    (last : s.toList.getLast?.any isSeparator = true) (hs : lex s = some z)
    (h : List.Forall₂ (fun text ts => lex text = some ts) texts tokens) :
    lex (s.intercalate texts) = some (z.intercalate tokens) := by
  induction h with
  | nil => rfl
  | @cons text ts texts tokens ht hrest ih =>
    cases hrest with
    | nil => simpa using ht
    | cons _ _ =>
      rw [String.intercalate_cons_cons, List.intercalate_cons_cons]
      exact lex_join first last ht hs ih

theorem lexFrom_of_joins {lexeme cs : List Char}
    (h : ∀ l c r, cs = l ++ c :: r → joins (lexeme ++ l) c = true) :
    lexFrom lexeme cs = ofLexeme (lexeme ++ cs) := by
  induction cs generalizing lexeme with
  | nil => rw [lexFrom, List.append_nil]
  | cons c cs ih =>
    have hc : joins lexeme c = true := by simpa using h [] c cs rfl
    rw [lexFrom, if_pos hc, ih, List.append_assoc, List.singleton_append]
    intro l d r hcs
    have hd := h (c :: l) d r (by rw [hcs, List.cons_append])
    simpa using hd

theorem joins_of_name {first c : Char} {rest : List Char} (hf : isIdentChar first = true)
    (hd : first.isDigit = false) (hc : isIdentChar c = true) : joins (first :: rest) c = true := by
  unfold joins
  split
  · rfl
  · next heq =>
    obtain ⟨rfl, rfl⟩ := List.cons.inj heq
    cases hf
  · next heq =>
    obtain ⟨rfl, rfl⟩ := List.cons.inj heq
    simp [hf, hd, hc]

theorem isName_cons {first : Char} {rest : List Char} :
    isName (first :: rest) = true ↔
      isIdentChar first = true ∧ first.isDigit = false ∧ ∀ c ∈ rest, isIdentChar c = true := by
  simp [isName, and_assoc]

theorem not_isNumber_of_isName {lexeme : List Char} (h : isName lexeme = true) :
    isNumber lexeme = false := by
  cases lexeme with
  | nil => rfl
  | cons first rest =>
    obtain ⟨hf, hd, -⟩ := isName_cons.mp h
    unfold isNumber
    rw [List.dropWhile_cons, hd]
    split
    · next heq =>
      obtain ⟨rfl, rfl⟩ := List.cons.inj heq
      cases hf
    · rfl

theorem ofLexeme_name {lexeme : List Char} (h : isName lexeme = true) :
    ofLexeme lexeme = some [.ident (.ofList lexeme)] := by
  have hn := not_isNumber_of_isName h
  unfold ofLexeme
  split
  case h_22 => simp [hn, h]
  all_goals cases h

/-- A name is read as one identifier. -/
theorem lex_name {name : String} (h : isName name.toList = true) :
    lex name = some [.ident name] := by
  cases hn : name.toList with
  | nil => simp [hn, isName] at h
  | cons first rest =>
    rw [hn] at h
    obtain ⟨hf, hd, hrest⟩ := isName_cons.mp h
    have hjoin : lexFrom [first] rest = ofLexeme ([first] ++ rest) := by
      apply lexFrom_of_joins
      intro l c r hcs
      exact joins_of_name hf hd (hrest c (by simp [hcs]))
    have hname : String.ofList (first :: rest) = name := by rw [← hn, String.ofList_toList]
    unfold lex
    rw [hn]
    calc lexFrom [] (first :: rest) = ofLexeme (first :: rest) := hjoin
      _ = some [.ident name] := by rw [ofLexeme_name h, hname]

/-- Digits, a point and digits. -/
def IsDecimal (text : String) : Prop :=
  ∃ whole fraction : List Char, whole ≠ [] ∧ fraction ≠ [] ∧
    (∀ c ∈ whole, c.isDigit = true) ∧ (∀ c ∈ fraction, c.isDigit = true) ∧
    text.toList = whole ++ '.' :: fraction

theorem joins_of_digit {first c : Char} {rest : List Char} (hf : first.isDigit = true)
    (hc : c.isDigit = true ∨ c = '.' ∧ '.' ∉ rest) : joins (first :: rest) c = true := by
  unfold joins
  split
  · rfl
  · next heq =>
    obtain ⟨rfl, rfl⟩ := List.cons.inj heq
    cases hf
  · next heq =>
    obtain ⟨rfl, rfl⟩ := List.cons.inj heq
    rw [if_pos hf]
    rcases hc with hc | ⟨rfl, hrest⟩
    · simp [isIdentChar_of_isDigit hc]
    · simp [hrest]

theorem isNumber_decimal {whole fraction : List Char} (hne : fraction ≠ [])
    (hw : ∀ c ∈ whole, c.isDigit = true) (hf : ∀ c ∈ fraction, c.isDigit = true) :
    isNumber (whole ++ '.' :: fraction) = true := by
  have hlen : 0 < fraction.length := List.length_pos_iff.mpr hne
  unfold isNumber
  rw [List.dropWhile_append_of_pos hw, List.dropWhile_cons]
  simp only [List.length_append, List.length_cons]
  have hall : fraction.all Char.isDigit = true := List.all_eq_true.mpr hf
  have htwo : 2 ≤ whole.length + (fraction.length + 1) := by omega
  simp [hall, htwo, Char.isDigit]

theorem ofLexeme_number {lexeme : List Char} (h : isNumber lexeme = true) :
    ofLexeme lexeme = some [.number (.ofList lexeme)] := by
  unfold ofLexeme
  split
  case h_22 => simp [h]
  all_goals cases h

/-- A decimal is read as one number. -/
theorem lex_decimal {text : String} (h : IsDecimal text) : lex text = some [.number text] := by
  obtain ⟨whole, fraction, hwne, hfne, hw, hf, htext⟩ := h
  obtain ⟨first, rest, rfl⟩ := List.exists_cons_of_ne_nil hwne
  have hfirst : first.isDigit = true := hw first (by simp)
  have hdot : '.' ∉ rest := by
    intro hmem
    have := hw '.' (by simp [hmem])
    cases this
  have hdot' : '.' ∉ fraction := by
    intro hmem
    have := hf '.' hmem
    cases this
  have hjoin : lexFrom [first] (rest ++ '.' :: fraction) =
      ofLexeme ([first] ++ (rest ++ '.' :: fraction)) := by
    apply lexFrom_of_joins
    intro l c r hcs
    apply joins_of_digit hfirst
    rcases List.append_eq_append_iff.mp hcs with ⟨m, rfl, hm⟩ | ⟨m, rfl, hm⟩
    · cases m with
      | nil =>
        obtain ⟨rfl, rfl⟩ := List.cons.inj hm
        exact Or.inr ⟨rfl, by simpa using hdot⟩
      | cons d m =>
        obtain ⟨rfl, rfl⟩ := List.cons.inj hm
        exact Or.inl (hf c (by simp))
    · cases m with
      | nil =>
        obtain ⟨rfl, rfl⟩ := List.cons.inj hm
        exact Or.inr ⟨rfl, by simpa using hdot⟩
      | cons d m =>
        obtain ⟨rfl, rfl⟩ := List.cons.inj hm
        exact Or.inl (hw c (by simp))
  have hnum := isNumber_decimal hfne hw hf
  have hname : String.ofList (first :: rest ++ '.' :: fraction) = text := by
    rw [← htext, String.ofList_toList]
  unfold lex
  rw [htext]
  calc lexFrom [] (first :: rest ++ '.' :: fraction)
      = ofLexeme (first :: rest ++ '.' :: fraction) := hjoin
    _ = some [.number text] := by rw [ofLexeme_number hnum, hname]

theorem ofLexeme_openLexeme {lexeme cs : List Char} {ts : List Token}
    (h : lexFrom lexeme cs = some ts) : ∃ us, ofLexeme (openLexeme lexeme cs) = some us := by
  induction cs generalizing lexeme ts with
  | nil => exact ⟨ts, h⟩
  | cons c cs ih =>
    rw [lexFrom] at h
    rw [openLexeme]
    by_cases hj : joins lexeme c = true
    · rw [if_pos hj] at h ⊢
      exact ih h
    · rw [if_neg hj] at h ⊢
      obtain ⟨first, -, h⟩ := Option.bind_eq_some_iff.mp h
      obtain ⟨rest, hrest, -⟩ := Option.bind_eq_some_iff.mp h
      exact ih hrest

theorem isNumber_of_ofLexeme {first : Char} {rest : List Char} {ts : List Token}
    (h : ofLexeme (first :: rest) = some ts) (hd : first.isDigit = true) :
    isNumber (first :: rest) = true := by
  unfold ofLexeme at h
  split at h
  case h_22 =>
    split at h
    · assumption
    · split at h
      · next hname =>
        obtain ⟨-, hnot, -⟩ := isName_cons.mp hname
        rw [hd] at hnot
        cases hnot
      · cases h
  all_goals
    next heq =>
      cases heq
      try cases hd

theorem dot_mem_of_isNumber {lexeme : List Char} (h : isNumber lexeme = true) : '.' ∈ lexeme := by
  unfold isNumber at h
  split at h
  · next fraction heq =>
    have hsub := (List.dropWhile_suffix (l := lexeme) Char.isDigit).subset
    rw [heq] at hsub
    exact hsub (by simp)
  · cases h

/-- A complete lexeme takes no point. -/
theorem ofLexeme_joins_dot {lexeme : List Char} {ts : List Token} (h : ofLexeme lexeme = some ts)
    (hne : lexeme ≠ []) : joins lexeme '.' = false := by
  have hpairs : ∀ p ∈ pairs, p.2 ≠ '.' := by decide
  unfold joins
  split
  · exact absurd rfl hne
  · rfl
  · next first rest _ =>
    by_cases hd : first.isDigit = true
    · have hmem := dot_mem_of_isNumber (isNumber_of_ofLexeme h hd)
      have hrest : '.' ∈ rest := by
        rcases List.mem_cons.mp hmem with rfl | hrest
        · cases hd
        · exact hrest
      simp [hd, hrest, isIdentChar]
    · have hp : (first, '.') ∉ pairs := fun hmem => hpairs _ hmem rfl
      simp [hd, hp, isIdentChar]

end Token

/-- How many brackets are open after a list that starts with `n` open ones, unless it closes more
than that. -/
def openAfter {α : Type} [DecidableEq α] (opening closing : α) : Nat → List α → Option Nat
  | n, [] => some n
  | n, x :: xs =>
    if x = opening then openAfter opening closing (n + 1) xs
    else if x = closing then if n = 0 then none else openAfter opening closing (n - 1) xs
    else openAfter opening closing n xs

section Brackets

variable {α : Type} [DecidableEq α] {opening closing : α}

theorem openAfter_append (n : Nat) (xs ys : List α) :
    openAfter opening closing n (xs ++ ys) =
      (openAfter opening closing n xs).bind fun m => openAfter opening closing m ys := by
  induction xs generalizing n with
  | nil => rfl
  | cons x xs ih =>
    rw [List.cons_append, openAfter, openAfter]
    by_cases ho : x = opening
    · rw [if_pos ho, if_pos ho, ih]
    · rw [if_neg ho, if_neg ho]
      by_cases hc : x = closing
      · rw [if_pos hc, if_pos hc]
        by_cases hn : n = 0
        · rw [if_pos hn, if_pos hn]
          rfl
        · rw [if_neg hn, if_neg hn, ih]
      · rw [if_neg hc, if_neg hc, ih]

theorem openAfter_of_not_mem {xs : List α} (n : Nat) (ho : opening ∉ xs) (hc : closing ∉ xs) :
    openAfter opening closing n xs = some n := by
  induction xs with
  | nil => rfl
  | cons x xs ih =>
    obtain ⟨hox, ho⟩ := List.ne_and_not_mem_of_not_mem_cons ho
    obtain ⟨hcx, hc⟩ := List.ne_and_not_mem_of_not_mem_cons hc
    rw [openAfter, if_neg (Ne.symm hox), if_neg (Ne.symm hcx), ih ho hc]

end Brackets

/-- Every parenthesis of the text closes or is closed within it. -/
def Balanced (text : String) : Prop := ∀ n, openAfter '(' ')' n text.toList = some n

namespace Token

theorem isDigit_or_dot_of_isNumber {lexeme : List Char} (h : isNumber lexeme = true) :
    ∀ c ∈ lexeme, c.isDigit = true ∨ c = '.' := by
  intro c hc
  have hsplit : lexeme.takeWhile Char.isDigit ++ lexeme.dropWhile Char.isDigit = lexeme :=
    List.takeWhile_append_dropWhile
  rw [← hsplit] at hc
  rcases List.mem_append.mp hc with hc | hc
  · exact Or.inl (List.all_eq_true.mp List.all_takeWhile c hc)
  · unfold isNumber at h
    split at h
    · next fraction heq =>
      rw [heq] at hc
      rcases List.mem_cons.mp hc with rfl | hc
      · exact Or.inr rfl
      · rw [Bool.and_eq_true] at h
        exact Or.inl (List.all_eq_true.mp h.1 c hc)
    · cases h

theorem isIdentChar_of_isName {lexeme : List Char} (h : isName lexeme = true) :
    ∀ c ∈ lexeme, isIdentChar c = true := by
  cases lexeme with
  | nil => simp
  | cons first rest =>
    obtain ⟨hf, -, hrest⟩ := isName_cons.mp h
    simpa [hf] using hrest

/-- Parentheses of a lexeme are those of its token. -/
theorem openAfter_ofLexeme {lexeme : List Char} {ts : List Token} (n : Nat)
    (h : ofLexeme lexeme = some ts) :
    openAfter '(' ')' n lexeme = openAfter .lparen .rparen n ts := by
  unfold ofLexeme at h
  split at h
  case h_22 =>
    split at h
    · next hnum =>
      obtain rfl := Option.some.inj h
      have hchar (c : Char) (hd : c.isDigit = false) (hdot : c ≠ '.') : c ∉ lexeme := by
        intro hmem
        rcases isDigit_or_dot_of_isNumber hnum c hmem with hc | hc
        · rw [hd] at hc
          cases hc
        · exact hdot hc
      rw [openAfter_of_not_mem n (hchar '(' rfl (by decide)) (hchar ')' rfl (by decide))]
      simp [openAfter]
    · split at h
      · next hname =>
        obtain rfl := Option.some.inj h
        have hchar (c : Char) (hi : isIdentChar c = false) : c ∉ lexeme := by
          intro hmem
          have hc := isIdentChar_of_isName hname c hmem
          rw [hi] at hc
          cases hc
        rw [openAfter_of_not_mem n (hchar '(' rfl) (hchar ')' rfl)]
        simp [openAfter]
      · cases h
  all_goals
    obtain rfl := Option.some.inj h
    rfl

theorem openAfter_lexFrom {lexeme cs : List Char} {ts : List Token} (n : Nat)
    (h : lexFrom lexeme cs = some ts) :
    openAfter '(' ')' n (lexeme ++ cs) = openAfter .lparen .rparen n ts := by
  induction cs generalizing lexeme ts n with
  | nil =>
    rw [List.append_nil]
    exact openAfter_ofLexeme n h
  | cons c cs ih =>
    rw [lexFrom] at h
    by_cases hj : joins lexeme c = true
    · rw [if_pos hj] at h
      rw [← ih n h, List.append_assoc, List.singleton_append]
    · rw [if_neg hj] at h
      obtain ⟨first, hfirst, h⟩ := Option.bind_eq_some_iff.mp h
      obtain ⟨rest, hrest, h⟩ := Option.bind_eq_some_iff.mp h
      obtain rfl := Option.some.inj h
      rw [openAfter_append, openAfter_append, openAfter_ofLexeme n hfirst]
      congr 1
      funext m
      exact ih m hrest

end Token

end ShaderStyle.Glsl
