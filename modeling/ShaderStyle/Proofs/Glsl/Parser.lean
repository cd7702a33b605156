import Mathlib.Tactic.Common
import ShaderStyle.Proofs.Glsl.Lexer

/-! Parsing of shader expressions by recursive descent, and the grammar that it implements. -/
namespace ShaderStyle.Glsl

/-- The precedence of an operator; a smaller one binds tighter. Zero is for operands that end by
themselves, one for signs, eight for conditionals. -/
def BinaryOp.level : BinaryOp → Nat
  | .mul | .div => 2
  | .add | .sub => 3
  | .greater | .greaterEq | .less | .lessEq => 4
  | .equal | .notEqual => 5
  | .and => 6
  | .or => 7

/-- The level of whole expressions. -/
def topLevel : Nat := 8

theorem BinaryOp.two_le_level (op : BinaryOp) : 2 ≤ op.level := by
  cases op <;> decide

/-- The nesting of an expression, in which parentheses have no part. -/
inductive Tree where
  | number (text : String)
  | bool (b : Bool)
  | name (ident : String)
  | call (function : String) (args : List Tree)
  | field (x : Tree) (name : String)
  | negate (x : Tree)
  | not (x : Tree)
  | binary (op : BinaryOp) (x y : Tree)
  | choose (condition yes no : Tree)
  deriving Inhabited

/-- What a name stands for where it is not called. -/
def Tree.word (ident : String) : Tree :=
  if ident = "true" then .bool true
  else if ident = "false" then .bool false
  else .name ident

namespace Parser

/-- The fields selected from an operand. -/
def readFields (x : Tree) : List Token → Tree × List Token
  | .dot :: .ident name :: rest => readFields (.field x name) rest
  | rest => (x, rest)

/-- The tokens that are left of `ts`. A reader adds none, and so the recursion of the parser ends. -/
def leftOf (ts rest : List Token) : Option {us : List Token // us.length ≤ ts.length} :=
  if h : rest.length ≤ ts.length then some ⟨rest, h⟩ else none

@[simp] theorem leftOf_append (ts rest : List Token) :
    leftOf (ts ++ rest) rest = some ⟨rest, (List.suffix_append ts rest).length_le⟩ :=
  dif_pos (List.suffix_append ts rest).length_le

mutual

def readPrimary (ts : List Token) : Option (Tree × List Token) :=
  match ts with
  | .number s :: rest => some (.number s, rest)
  | .ident f :: .lparen :: .rparen :: rest => some (.call f [], rest)
  | .ident f :: .lparen :: rest => do
    let (args, rest) ← readArgs rest
    return (.call f args, rest)
  | .ident x :: rest => some (.word x, rest)
  | .lparen :: rest => do
    let (x, rest) ← readLevel topLevel rest
    match rest with
    | .rparen :: rest => some (x, rest)
    | _ => none
  | _ => none
termination_by (ts.length, 0)

/-- The arguments of a call, with the parenthesis after them. -/
def readArgs (ts : List Token) : Option (List Tree × List Token) := do
  let (x, rest) ← readLevel topLevel ts
  match ← leftOf ts rest with
  | ⟨.comma :: rest, _⟩ => do
    let (xs, rest) ← readArgs rest
    return (x :: xs, rest)
  | ⟨.rparen :: rest, _⟩ => some ([x], rest)
  | _ => none
termination_by (ts.length, topLevel + 3)

def readUnary (ts : List Token) : Option (Tree × List Token) :=
  match ts with
  | .op .sub :: rest => do
    let (x, rest) ← readUnary rest
    return (.negate x, rest)
  | .bang :: rest => do
    let (x, rest) ← readUnary rest
    return (.not x, rest)
  | ts => do
    let (x, rest) ← readPrimary ts
    return readFields x rest
termination_by (ts.length, 1)

/-- An operand of the level below, with the operators of the level after it. -/
def readLevel (level : Nat) (ts : List Token) : Option (Tree × List Token) :=
  if level ≤ 1 then readUnary ts
  else do
    let (x, rest) ← readLevel (level - 1) ts
    let ⟨rest, _⟩ ← leftOf ts rest
    readTail level x rest
termination_by (ts.length, level + 2)
decreasing_by all_goals simp [Prod.lex_def] <;> omega

/-- Continues an operand with the operators of a level, from left to right. -/
def readTail (level : Nat) (x : Tree) (ts : List Token) : Option (Tree × List Token) :=
  match ts with
  | .op op :: rest =>
    if op.level = level then do
      let (y, after) ← readLevel (level - 1) rest
      let ⟨after, _⟩ ← leftOf rest after
      readTail level (.binary op x y) after
    else some (x, ts)
  | .question :: rest =>
    if level = topLevel then do
      let (yes, after) ← readLevel topLevel rest
      match ← leftOf rest after with
      | ⟨.colon :: after, _⟩ => do
        let (no, after) ← readLevel topLevel after
        return (.choose x yes no, after)
      | _ => none
    else some (x, ts)
  | _ => some (x, ts)
termination_by (ts.length, 0)
decreasing_by all_goals simp_all [Prod.lex_def] <;> omega

end

end Parser

/-- The nesting of a text that is an expression. -/
def parse (text : String) : Option Tree := do
  match ← Parser.readLevel topLevel (← Token.lex text) with
  | (x, []) => some x
  | _ => none

/-- The grammar of expressions: tokens that form an expression of a level. -/
inductive Derives : Nat → List Token → Tree → Prop where
  | number (s : String) : Derives 0 [.number s] (.number s)
  | word (ident : String) : Derives 0 [.ident ident] (.word ident)
  | call (f : String) {args : List (List Token × Tree)}
      (derived : ∀ a ∈ args, Derives topLevel a.1 a.2) :
      Derives 0 (.ident f :: .lparen :: [Token.comma].intercalate (args.map Prod.fst) ++ [.rparen])
        (.call f (args.map Prod.snd))
  | paren {ts : List Token} {x : Tree} (derived : Derives topLevel ts x) :
      Derives 0 (.lparen :: ts ++ [.rparen]) x
  | field (name : String) {ts : List Token} {x : Tree} (derived : Derives 0 ts x) :
      Derives 0 (ts ++ [.dot, .ident name]) (.field x name)
  | negate {ts : List Token} {x : Tree} (derived : Derives 1 ts x) :
      Derives 1 (.op .sub :: ts) (.negate x)
  | not {ts : List Token} {x : Tree} (derived : Derives 1 ts x) :
      Derives 1 (.bang :: ts) (.not x)
  | binary (op : BinaryOp) {ts us : List Token} {x y : Tree} (left : Derives op.level ts x)
      (right : Derives (op.level - 1) us y) :
      Derives op.level (ts ++ .op op :: us) (.binary op x y)
  | choose {ts us vs : List Token} {condition yes no : Tree}
      (condition_derived : Derives (topLevel - 1) ts condition)
      (yes_derived : Derives topLevel us yes) (no_derived : Derives topLevel vs no) :
      Derives topLevel (ts ++ .question :: us ++ .colon :: vs) (.choose condition yes no)
  | weaken {level : Nat} {ts : List Token} {x : Tree} (below : level < topLevel)
      (derived : Derives level ts x) : Derives (level + 1) ts x

namespace Parser

/-- Tokens that do not continue an expression of any level below the given one, and conditionals
not at their own level either, as these are read from the right. -/
def Ends (level : Nat) : List Token → Prop
  | .op op :: _ => level ≤ op.level
  | .question :: _ => level < topLevel
  | .lparen :: _ | .dot :: _ => False
  | _ => True

theorem Ends.of_le {level other : Nat} {rest : List Token} (h : Ends level rest)
    (hle : other ≤ level) : Ends other rest := by
  unfold Ends at h ⊢
  split at h
  · exact Nat.le_trans hle h
  · exact Nat.lt_of_le_of_lt hle h
  · exact h
  · exact h
  · trivial

/-- Nothing is taken where the operators are of a higher level. -/
theorem readTail_of_ends {level : Nat} {x : Tree} {rest : List Token} (h : Ends (level + 1) rest) :
    readTail level x rest = some (x, rest) := by
  rw [readTail.eq_def]
  split
  · next op rest =>
    have hop : level + 1 ≤ op.level := h
    rw [if_neg (by omega)]
  · have hq : level + 1 < topLevel := h
    rw [if_neg (by omega)]
  · rfl

theorem readTail_one {x : Tree} {rest : List Token} (h : Ends 1 rest) :
    readTail 1 x rest = some (x, rest) := by
  rw [readTail.eq_def]
  split
  · next op rest =>
    have := op.two_le_level
    rw [if_neg (by omega)]
  · rw [if_neg (by decide)]
  · rfl

theorem readTail_of_ends_top {level : Nat} {x : Tree} {rest : List Token}
    (h : Ends topLevel rest) : readTail level x rest = some (x, rest) := by
  rw [readTail.eq_def]
  split
  · next op rest =>
    have hop : topLevel ≤ op.level := h
    cases op <;> exact absurd hop (by decide)
  · exact absurd h (Nat.lt_irrefl topLevel)
  · rfl

/-- What the parser does with the tokens of an expression and with any others after them. -/
def Reads (level : Nat) (ts : List Token) (x : Tree) : Prop :=
  if level = 0 then
    ∀ rest, rest.head? ≠ some .lparen → readUnary (ts ++ rest) = some (readFields x rest)
  else ∀ rest, Ends level rest → readLevel level (ts ++ rest) = readTail level x rest

theorem Reads.zero {ts : List Token} {x : Tree} (h : Reads 0 ts x) {rest : List Token}
    (hrest : rest.head? ≠ some .lparen) : readUnary (ts ++ rest) = some (readFields x rest) := by
  rw [Reads, if_pos rfl] at h
  exact h rest hrest

theorem Reads.pos {level : Nat} {ts : List Token} {x : Tree} (h : Reads level ts x)
    (hpos : 0 < level) {rest : List Token} (hrest : Ends level rest) :
    readLevel level (ts ++ rest) = readTail level x rest := by
  rw [Reads, if_neg (by omega)] at h
  exact h rest hrest

theorem Reads.unary {ts : List Token} {x : Tree} (h : Reads 1 ts x) {rest : List Token}
    (hrest : Ends 1 rest) : readUnary (ts ++ rest) = some (x, rest) := by
  have hlevel := h.pos (by omega) hrest
  rw [readLevel, if_pos (by omega), readTail_one hrest] at hlevel
  exact hlevel

/-- Before tokens that end the next level, all of an expression is taken. -/
theorem Reads.whole {level : Nat} {ts : List Token} {x : Tree} (h : Reads level ts x)
    (hpos : 0 < level) {rest : List Token} (hrest : Ends (level + 1) rest) :
    readLevel level (ts ++ rest) = some (x, rest) := by
  rw [h.pos hpos (hrest.of_le (by omega)), readTail_of_ends hrest]

theorem Reads.top {ts : List Token} {x : Tree} (h : Reads topLevel ts x) (rest : List Token)
    (hrest : Ends topLevel rest) : readLevel topLevel (ts ++ rest) = some (x, rest) := by
  rw [h.pos (by decide) hrest, readTail_of_ends_top hrest]

theorem readFields_of_ends {x : Tree} {rest : List Token} (h : Ends 1 rest) :
    readFields x rest = (x, rest) := by
  unfold readFields
  split
  · cases h
  · rfl

theorem head_ne_lparen_of_ends {level : Nat} {rest : List Token} (h : Ends level rest) :
    rest.head? ≠ some .lparen := by
  cases rest with
  | nil => simp
  | cons t rest =>
    intro ht
    obtain rfl : t = .lparen := Option.some.inj ht
    exact h

theorem Reads.succ {level : Nat} {ts : List Token} {x : Tree} (h : Reads level ts x) :
    Reads (level + 1) ts x := by
  rw [Reads, if_neg (by omega)]
  intro rest hrest
  by_cases hz : level = 0
  · subst hz
    rw [readLevel, if_pos (by omega), h.zero (head_ne_lparen_of_ends hrest),
      readFields_of_ends hrest, readTail_one hrest]
  · rw [readLevel, if_neg (by omega), Nat.add_sub_cancel, h.whole (by omega) hrest]
    simp

theorem readArgs_intercalate {args : List (List Token × Tree)} (hne : args ≠ [])
    (h : ∀ a ∈ args, Reads topLevel a.1 a.2) (rest : List Token) :
    readArgs ([Token.comma].intercalate (args.map Prod.fst) ++ .rparen :: rest) =
      some (args.map Prod.snd, rest) := by
  induction args with
  | nil => exact absurd rfl hne
  | cons a args ih =>
    have ha : Reads topLevel a.1 a.2 := h a (by simp)
    cases args with
    | nil =>
      have hread := ha.top (.rparen :: rest) trivial
      rw [readArgs, List.map_singleton, List.intercalate_singleton, hread]
      simp
    | cons b args =>
      have hrest := ih (by simp) fun a ha => h a (by simp [ha])
      have hread := ha.top (.comma :: ([Token.comma].intercalate ((b :: args).map Prod.fst) ++
        .rparen :: rest)) trivial
      rw [readArgs, List.map_cons, List.map_cons, List.intercalate_cons_cons, ← List.map_cons,
        List.append_assoc, List.append_assoc, List.singleton_append, hread]
      simp only [Option.bind_eq_bind, Option.bind_some, leftOf_append, hrest]
      rfl

theorem readUnary_of_primary {ts rest : List Token} {x : Tree}
    (h : readPrimary ts = some (x, rest)) : readUnary ts = some (readFields x rest) := by
  rw [readUnary.eq_def]
  split
  · rw [readPrimary.eq_def] at h
    cases h
  · rw [readPrimary.eq_def] at h
    cases h
  · rw [h]
    rfl

theorem reads_of_primary {ts : List Token} {x : Tree}
    (h : ∀ rest, rest.head? ≠ some .lparen → readPrimary (ts ++ rest) = some (x, rest)) :
    Reads 0 ts x := by
  rw [Reads, if_pos rfl]
  intro rest hrest
  exact readUnary_of_primary (h rest hrest)

theorem reads_number (s : String) : Reads 0 [.number s] (.number s) := by
  apply reads_of_primary
  intro rest _
  rw [List.singleton_append, readPrimary]

theorem reads_word (ident : String) : Reads 0 [.ident ident] (.word ident) := by
  apply reads_of_primary
  intro rest hrest
  rw [List.singleton_append, readPrimary.eq_def]
  split
  · next heq => cases heq
  · next heq =>
    obtain ⟨-, rfl⟩ := List.cons.inj heq
    exact absurd rfl hrest
  · next heq =>
    obtain ⟨-, rfl⟩ := List.cons.inj heq
    exact absurd rfl hrest
  · next heq =>
    cases heq
    rfl
  · next heq => cases heq
  · next hword _ => exact absurd rfl (hword ident rest)

theorem readLevel_rparen (level : Nat) (ts : List Token) : readLevel level (.rparen :: ts) = none := by
  induction level with
  | zero =>
    rw [readLevel, if_pos (by omega), readUnary.eq_def]
    dsimp only
    rw [readPrimary.eq_def]
    rfl
  | succ level ih =>
    by_cases h : level + 1 ≤ 1
    · obtain rfl : level = 0 := by omega
      rw [readLevel, if_pos (by omega)] at ih
      rw [readLevel, if_pos h, ih]
    · rw [readLevel, if_neg h, Nat.add_sub_cancel, ih]
      rfl

theorem reads_call (f : String) {args : List (List Token × Tree)}
    (h : ∀ a ∈ args, Reads topLevel a.1 a.2) :
    Reads 0 (.ident f :: .lparen :: [Token.comma].intercalate (args.map Prod.fst) ++ [.rparen])
      (.call f (args.map Prod.snd)) := by
  apply reads_of_primary
  intro rest _
  rw [List.append_assoc, List.singleton_append, List.cons_append, List.cons_append]
  cases args with
  | nil =>
    rw [readPrimary.eq_def]
    rfl
  | cons a args =>
    have hargs := readArgs_intercalate (by simp) h rest
    rw [readPrimary, hargs]
    · rfl
    · -- No argument starts with a closing parenthesis.
      intro rest' hrest'
      rw [hrest', readArgs, readLevel_rparen] at hargs
      cases hargs

theorem reads_paren {ts : List Token} {x : Tree} (h : Reads topLevel ts x) :
    Reads 0 (.lparen :: ts ++ [.rparen]) x := by
  apply reads_of_primary
  intro rest _
  rw [List.append_assoc, List.singleton_append, List.cons_append, readPrimary,
    h.top (.rparen :: rest) trivial]
  rfl

theorem reads_field (name : String) {ts : List Token} {x : Tree} (h : Reads 0 ts x) :
    Reads 0 (ts ++ [.dot, .ident name]) (.field x name) := by
  rw [Reads, if_pos rfl]
  intro rest _
  have hdot : (Token.dot :: .ident name :: rest).head? ≠ some .lparen := by simp
  rw [List.append_assoc]
  exact h.zero hdot

theorem reads_negate {ts : List Token} {x : Tree} (h : Reads 1 ts x) :
    Reads 1 (.op .sub :: ts) (.negate x) := by
  rw [Reads, if_neg (by omega)]
  intro rest hrest
  rw [List.cons_append, readLevel, if_pos (by omega), readUnary, h.unary hrest, readTail_one hrest]
  rfl

theorem reads_not {ts : List Token} {x : Tree} (h : Reads 1 ts x) :
    Reads 1 (.bang :: ts) (.not x) := by
  rw [Reads, if_neg (by omega)]
  intro rest hrest
  rw [List.cons_append, readLevel, if_pos (by omega), readUnary, h.unary hrest, readTail_one hrest]
  rfl

theorem reads_binary (op : BinaryOp) {ts us : List Token} {x y : Tree}
    (left : Reads op.level ts x) (right : Reads (op.level - 1) us y) :
    Reads op.level (ts ++ .op op :: us) (.binary op x y) := by
  have hlevel := op.two_le_level
  rw [Reads, if_neg (by omega)]
  intro rest hrest
  have hends : Ends (op.level - 1 + 1) rest := hrest.of_le (by omega)
  have hop : Ends op.level (.op op :: (us ++ rest)) := Nat.le_refl _
  rw [List.append_assoc, List.cons_append, left.pos (by omega) hop, readTail, if_pos rfl,
    right.whole (by omega) hends]
  simp

theorem reads_choose {ts us vs : List Token} {condition yes no : Tree}
    (hc : Reads (topLevel - 1) ts condition) (hy : Reads topLevel us yes)
    (hn : Reads topLevel vs no) :
    Reads topLevel (ts ++ .question :: us ++ .colon :: vs) (.choose condition yes no) := by
  rw [Reads, if_neg (by decide)]
  intro rest hrest
  have hq : Ends (topLevel - 1) (.question :: (us ++ .colon :: (vs ++ rest))) := by
    change topLevel - 1 < topLevel
    decide
  have hcond : readLevel (topLevel - 1) (ts ++ .question :: (us ++ .colon :: (vs ++ rest))) =
      some (condition, .question :: (us ++ .colon :: (vs ++ rest))) := by
    rw [hc.pos (by decide) hq, readTail, if_neg (by decide)]
  have hyes := hy.top (.colon :: (vs ++ rest)) trivial
  have hno := hn.top rest hrest
  have hlist : ts ++ .question :: us ++ .colon :: vs ++ rest =
      ts ++ .question :: (us ++ .colon :: (vs ++ rest)) := by simp
  rw [hlist, readLevel, if_neg (by decide), hcond, readTail_of_ends_top hrest]
  simp only [Option.bind_eq_bind, Option.bind_some, leftOf_append]
  rw [readTail, if_pos rfl, hyes]
  simp [hno]

/-- Whatever the grammar derives, the parser reads. -/
theorem reads_of_derives {level : Nat} {ts : List Token} {x : Tree} (h : Derives level ts x) :
    Reads level ts x := by
  induction h with
  | number s => exact reads_number s
  | word ident => exact reads_word ident
  | call f _ ih => exact reads_call f ih
  | paren _ ih => exact reads_paren ih
  | field name _ ih => exact reads_field name ih
  | negate _ ih => exact reads_negate ih
  | not _ ih => exact reads_not ih
  | binary op _ _ ihl ihr => exact reads_binary op ihl ihr
  | choose _ _ _ ihc ihy ihn => exact reads_choose ihc ihy ihn
  | weaken _ _ ih => exact ih.succ

end Parser

/-- A text has at most one nesting by the grammar, the one that the parser finds. -/
theorem parse_of_derives {text : String} {ts : List Token} {x : Tree}
    (hl : Token.lex text = some ts) (h : Derives topLevel ts x) : parse text = some x := by
  have hread := (Parser.reads_of_derives h).top [] trivial
  rw [List.append_nil] at hread
  unfold parse
  rw [hl]
  simp only [Option.bind_eq_bind, Option.bind_some, hread]

end ShaderStyle.Glsl
