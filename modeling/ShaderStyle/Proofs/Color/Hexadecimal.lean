import ShaderStyle.Proofs.Color.Notation

/-! Hexadecimal colors. A reader that counts and cuts bytes, and takes channels from their positions,
agrees with the one that takes characters: it never leaves the text, since what it counts wrong has a
byte that is no digit. Both accept three, four, six or eight digits and nothing else. -/
namespace ShaderStyle

namespace Numeral

/-- The character is the hexadecimal digit of a value, in lower or upper case. -/
def IsHexDigit (c : Char) (v : Nat) : Prop :=
  "0123456789abcdef".toList[v]? = some c ∨ "0123456789ABCDEF".toList[v]? = some c

instance (c : Char) (v : Nat) : Decidable (IsHexDigit c v) :=
  inferInstanceAs (Decidable (_ = _ ∨ _ = _))

theorem digitValue?_ascii {c : Char} {v : Nat} (h : digitValue? 16 c = some v) :
    c.toNat < 128 := by
  unfold digitValue? at h
  dsimp only [Char.reduceToNat] at h
  split_ifs at h <;> omega

theorem isHexDigit_of_digitValue? {c : Char} {v : Nat} (h : digitValue? 16 c = some v) :
    IsHexDigit c v := by
  have hall : ∀ n < 128, ∀ v ∈ digitValue? 16 (Char.ofNat n), IsHexDigit (Char.ofNat n) v := by
    decide +kernel
  have hcase := hall c.toNat (digitValue?_ascii h) v
  rw [Char.ofNat_toNat] at hcase
  exact hcase h

theorem digitValue?_of_isHexDigit {c : Char} {v : Nat} (h : IsHexDigit c v) :
    digitValue? 16 c = some v := by
  have hlower : ∀ v (hv : v < "0123456789abcdef".toList.length),
      digitValue? 16 "0123456789abcdef".toList[v] = some v := by decide
  have hupper : ∀ v (hv : v < "0123456789ABCDEF".toList.length),
      digitValue? 16 "0123456789ABCDEF".toList[v] = some v := by decide
  rcases h with h | h <;> obtain ⟨hv, rfl⟩ := List.getElem?_eq_some_iff.mp h
  · exact hlower v hv
  · exact hupper v hv

theorem digitValue?_eq_some_iff {c : Char} {v : Nat} :
    digitValue? 16 c = some v ↔ IsHexDigit c v :=
  ⟨isHexDigit_of_digitValue?, digitValue?_of_isHexDigit⟩

end Numeral

open Numeral (digitValue? IsHexDigit)

/-- The bytes of characters. -/
def utf8 (cs : List Char) : List UInt8 := cs.flatMap String.utf8EncodeChar

/-- The value of a byte that is a hexadecimal digit. -/
def byteDigit? (b : UInt8) : Option Nat := digitValue? 16 (Char.ofUInt8 b)

section Bytes

variable {c : Char}

theorem utf8EncodeChar_ascii (h : c.toNat < 128) :
    String.utf8EncodeChar c = [UInt8.ofNat c.toNat] ∧ Char.ofUInt8 (UInt8.ofNat c.toNat) = c := by
  have hall : ∀ n < 128, String.utf8EncodeChar (Char.ofNat n) = [UInt8.ofNat (Char.ofNat n).toNat] ∧
      Char.ofUInt8 (UInt8.ofNat (Char.ofNat n).toNat) = Char.ofNat n := by decide +kernel
  have hcase := hall c.toNat h
  rwa [Char.ofNat_toNat] at hcase

/-- A character of several bytes starts with one that is no digit. -/
theorem utf8EncodeChar_wide (h : 128 ≤ c.toNat) :
    ∃ b bs, String.utf8EncodeChar c = b :: bs ∧ byteDigit? b = none := by
  have hhigh : ∀ n < 64, byteDigit? (UInt8.ofNat (n + 192)) = none := by decide +kernel
  have hc : c.val.toNat = c.toNat := rfl
  unfold String.utf8EncodeChar
  dsimp only
  rw [hc]
  split_ifs
  · omega
  · exact ⟨_, _, rfl, hhigh _ (by omega)⟩
  · have hlead := hhigh (c.toNat / 4096 % 16 + 32) (by omega)
    exact ⟨_, _, rfl, hlead⟩
  · have hlead := hhigh (c.toNat / 262144 % 8 + 48) (by omega)
    exact ⟨_, _, rfl, hlead⟩

theorem byteDigits_utf8EncodeChar (c : Char) :
    (String.utf8EncodeChar c).mapM byteDigit? = (digitValue? 16 c).map fun v => [v] := by
  by_cases h : c.toNat < 128
  · obtain ⟨hbytes, hback⟩ := utf8EncodeChar_ascii h
    rw [hbytes, List.mapM_cons, List.mapM_nil, byteDigit?, hback]
    cases digitValue? 16 c <;> rfl
  · obtain ⟨b, bs, hbytes, hnone⟩ := utf8EncodeChar_wide (Nat.le_of_not_lt h)
    have hdigit : digitValue? 16 c = none := by
      rw [Option.eq_none_iff_forall_not_mem]
      intro v hv
      exact h (Numeral.digitValue?_ascii hv)
    rw [hbytes, List.mapM_cons, hnone, hdigit]
    rfl

/-- The bytes of a text are digits exactly where its characters are. -/
theorem byteDigits_utf8 (cs : List Char) :
    (utf8 cs).mapM byteDigit? = cs.mapM (digitValue? 16) := by
  induction cs with
  | nil => rfl
  | cons c cs ih =>
    have hcons : utf8 (c :: cs) = String.utf8EncodeChar c ++ utf8 cs := rfl
    rw [hcons, List.mapM_append, List.mapM_cons, byteDigits_utf8EncodeChar, ih]
    cases digitValue? 16 c <;> rfl

/-- Digits take a byte each. -/
theorem length_utf8_of_digits {cs : List Char} {vs : List Nat}
    (h : cs.mapM (digitValue? 16) = some vs) : (utf8 cs).length = vs.length :=
  (forall₂_of_mapM_eq_some.mp ((byteDigits_utf8 cs).trans h)).length_eq

end Bytes

namespace Color

/-- How reading by positions ends without a color. -/
inductive PositionFault where
  /-- There are too few or too many bytes, or one that is no digit. -/
  | refused
  /-- A position is not there. -/
  | outOfRange
  deriving DecidableEq

section Positions

variable {α : Type}

/-- The element at a position. -/
def elementAt (xs : List α) (i : Nat) : Except PositionFault α :=
  match xs[i]? with
  | some x => .ok x
  | none => .error .outOfRange

/-- The elements from one position up to another. -/
def slice (xs : List α) (first last : Nat) : Except PositionFault (List α) :=
  if first ≤ last ∧ last ≤ xs.length then .ok ((xs.take last).drop first)
  else .error .outOfRange

end Positions

/-- The texts of the channels. Three or four bytes are taken for as many characters, each of which
is doubled, and six or eight bytes are cut in pairs. -/
def channelTexts (cs : List Char) : Except PositionFault (List (List UInt8)) :=
  let bytes := utf8 cs
  if bytes.length = 3 ∨ bytes.length = 4 then .ok (cs.map fun c => utf8 [c, c])
  else if bytes.length = 6 ∨ bytes.length = 8 then
    (List.range (bytes.length / 2)).mapM fun i => slice bytes (2 * i) (2 * i + 2)
  else .error .refused

/-- The number of eight bits that hexadecimal digits write. -/
def channelValue (text : List UInt8) : Except PositionFault Nat :=
  match text.mapM byteDigit? with
  | none | some [] => .error .refused
  | some digits =>
    let n := digits.foldl (fun n d => 16 * n + d) 0
    if n ≤ 255 then .ok n else .error .refused

/-- Takes the channels from the values at their indices, however many values there are. -/
def colorOfValues (values : List Nat) : Except PositionFault Rgba := do
  let red ← elementAt values 0
  let green ← elementAt values 1
  let blue ← elementAt values 2
  if values.length = 4 then
    let alpha ← elementAt values 3
    return { solid red green blue with alpha := .div (.ofNat alpha) (.ofNat 255) }
  else return solid red green blue

/-- The values of the channels, read from the texts at their positions. -/
def channelValues (cs : List Char) : Except PositionFault (List Nat) := do
  let texts ← channelTexts cs
  texts.mapM channelValue

/-- Reads hexadecimal digits by positions. -/
def readPositions (cs : List Char) : Except PositionFault Rgba :=
  channelValues cs >>= colorOfValues

theorem channelValue_pair (x y : UInt8) :
    channelValue [x, y] =
      match byteDigit? x, byteDigit? y with
      | some u, some v => .ok (16 * u + v)
      | _, _ => .error .refused := by
  unfold channelValue
  rw [List.mapM_cons, List.mapM_cons, List.mapM_nil]
  cases hx : byteDigit? x with
  | none => rfl
  | some u =>
    cases hy : byteDigit? y with
    | none => rfl
    | some v =>
      have hu := Numeral.digitValue?_lt hx
      have hv := Numeral.digitValue?_lt hy
      have hn : 16 * (16 * 0 + u) + v ≤ 255 := by omega
      change (if 16 * (16 * 0 + u) + v ≤ 255 then _ else _) = _
      rw [if_pos hn]
      simp

theorem channelValue_doubled (c : Char) :
    channelValue (utf8 [c, c]) =
      match digitValue? 16 c with
      | some v => .ok (17 * v)
      | none => .error .refused := by
  unfold channelValue
  rw [byteDigits_utf8, List.mapM_cons, List.mapM_cons, List.mapM_nil]
  cases hc : digitValue? 16 c with
  | none => rfl
  | some v =>
    have hv := Numeral.digitValue?_lt hc
    have hn : 16 * (16 * 0 + v) + v ≤ 255 := by omega
    change (if 16 * (16 * 0 + v) + v ≤ 255 then Except.ok (16 * (16 * 0 + v) + v) else _) = _
    rw [if_pos hn]
    congr 1
    omega

/-- Doubled characters are read if all of them are digits. -/
theorem channelValues_doubled (cs : List Char) :
    (cs.map fun c => utf8 [c, c]).mapM channelValue =
      match cs.mapM (digitValue? 16) with
      | some vs => .ok (vs.map (17 * ·))
      | none => .error .refused := by
  induction cs with
  | nil => rfl
  | cons c cs ih =>
    rw [List.map_cons, List.mapM_cons, channelValue_doubled, ih, List.mapM_cons]
    cases digitValue? 16 c with
    | none => rfl
    | some v => cases cs.mapM (digitValue? 16) <;> rfl

/-- Bytes two by two. -/
def bytePairs : List UInt8 → List (List UInt8)
  | x :: y :: bytes => [x, y] :: bytePairs bytes
  | _ => []

/-- The values of digits two by two. -/
def pairValues : List Nat → List Nat
  | u :: v :: digits => (16 * u + v) :: pairValues digits
  | _ => []

/-- The positions between six or eight bytes are all there. -/
theorem slice_pairs {bytes : List UInt8} (h : bytes.length = 6 ∨ bytes.length = 8) :
    ((List.range (bytes.length / 2)).mapM fun i => slice bytes (2 * i) (2 * i + 2)) =
      .ok (bytePairs bytes) := by
  match bytes, h with
  | [_, _, _, _, _, _], _ =>
    simp [List.range_succ, slice]
    rfl
  | [_, _, _, _, _, _, _, _], _ =>
    simp [List.range_succ, slice]
    rfl

/-- Pairs of bytes are read if all of them are digits. -/
theorem channelValues_pairs : ∀ {bytes : List UInt8}, bytes.length % 2 = 0 →
    (bytePairs bytes).mapM channelValue =
      match bytes.mapM byteDigit? with
      | some vs => .ok (pairValues vs)
      | none => .error .refused
  | [], _ => rfl
  | [_], h => by simp at h
  | x :: y :: bytes, h => by
    have heven : bytes.length % 2 = 0 := by
      rw [List.length_cons, List.length_cons] at h
      omega
    rw [bytePairs, List.mapM_cons, channelValue_pair, channelValues_pairs heven, List.mapM_cons,
      List.mapM_cons]
    cases byteDigit? x with
    | none => rfl
    | some u =>
      cases byteDigit? y with
      | none => rfl
      | some v => cases bytes.mapM byteDigit? <;> rfl

/-- Counting bytes makes no difference: where characters and bytes differ in number, one of them is
no digit. -/
theorem channelValues_eq (cs : List Char) :
    channelValues cs =
      match cs.mapM (digitValue? 16) with
      | some vs =>
        if vs.length = 3 ∨ vs.length = 4 then .ok (vs.map (17 * ·))
        else if vs.length = 6 ∨ vs.length = 8 then .ok (pairValues vs)
        else .error .refused
      | none => .error .refused := by
  have hpairs (h : (utf8 cs).length = 6 ∨ (utf8 cs).length = 8) :
      (bytePairs (utf8 cs)).mapM channelValue =
        match cs.mapM (digitValue? 16) with
        | some vs => .ok (pairValues vs)
        | none => .error .refused := by
    rw [← byteDigits_utf8]
    exact channelValues_pairs (by omega)
  unfold channelValues channelTexts
  dsimp only
  cases hdigits : cs.mapM (digitValue? 16) with
  | none =>
    split_ifs with hshort hlong
    · exact (channelValues_doubled cs).trans (by rw [hdigits])
    · rw [slice_pairs hlong]
      exact (hpairs hlong).trans (by rw [hdigits])
    · rfl
  | some vs =>
    dsimp only
    rw [← length_utf8_of_digits hdigits]
    split_ifs with hshort hlong
    · exact (channelValues_doubled cs).trans (by rw [hdigits])
    · rw [slice_pairs hlong]
      exact (hpairs hlong).trans (by rw [hdigits])
    · rfl

/-- Reading by positions gives what reading by characters gives, and never leaves the text. -/
theorem readPositions_eq (cs : List Char) :
    readPositions cs =
      match ofHex? cs with
      | some c => .ok c
      | none => .error .refused := by
  unfold readPositions ofHex?
  dsimp only
  rw [channelValues_eq]
  cases hdigits : cs.mapM (digitValue? 16) with
  | none => rfl
  | some vs =>
    match vs with
    | [] | [_] | [_, _] | [_, _, _] | [_, _, _, _] | [_, _, _, _, _] | [_, _, _, _, _, _]
    | [_, _, _, _, _, _, _] | [_, _, _, _, _, _, _, _] => rfl
    | _ :: _ :: _ :: _ :: _ :: _ :: _ :: _ :: _ :: rest =>
      dsimp only
      rw [if_neg (by simp), if_neg (by simp)]
      rfl

/-- What hexadecimal digits say. A single digit stands for two of its kind, and a color without
digits for alpha is opaque. -/
inductive WrittenInHex : List Char → Rgba → Prop where
  | short {x y z : Char} {r g b : Nat} (red : IsHexDigit x r) (green : IsHexDigit y g)
      (blue : IsHexDigit z b) :
      WrittenInHex [x, y, z] ⟨.ofNat (17 * r), .ofNat (17 * g), .ofNat (17 * b), .ofNat 1⟩
  | shortAlpha {x y z w : Char} {r g b a : Nat} (red : IsHexDigit x r) (green : IsHexDigit y g)
      (blue : IsHexDigit z b) (alpha : IsHexDigit w a) :
      WrittenInHex [x, y, z, w]
        ⟨.ofNat (17 * r), .ofNat (17 * g), .ofNat (17 * b), .div (.ofNat (17 * a)) (.ofNat 255)⟩
  | long {x x' y y' z z' : Char} {r r' g g' b b' : Nat} (red : IsHexDigit x r)
      (red' : IsHexDigit x' r') (green : IsHexDigit y g) (green' : IsHexDigit y' g')
      (blue : IsHexDigit z b) (blue' : IsHexDigit z' b') :
      WrittenInHex [x, x', y, y', z, z']
        ⟨.ofNat (16 * r + r'), .ofNat (16 * g + g'), .ofNat (16 * b + b'), .ofNat 1⟩
  | longAlpha {x x' y y' z z' w w' : Char} {r r' g g' b b' a a' : Nat} (red : IsHexDigit x r)
      (red' : IsHexDigit x' r') (green : IsHexDigit y g) (green' : IsHexDigit y' g')
      (blue : IsHexDigit z b) (blue' : IsHexDigit z' b') (alpha : IsHexDigit w a)
      (alpha' : IsHexDigit w' a') :
      WrittenInHex [x, x', y, y', z, z', w, w']
        ⟨.ofNat (16 * r + r'), .ofNat (16 * g + g'), .ofNat (16 * b + b'),
          .div (.ofNat (16 * a + a')) (.ofNat 255)⟩

theorem digits_eq_some_iff {cs : List Char} {vs : List Nat} :
    cs.mapM (digitValue? 16) = some vs ↔ List.Forall₂ IsHexDigit cs vs := by
  rw [forall₂_of_mapM_eq_some]
  simp only [Numeral.digitValue?_eq_some_iff]

theorem writtenInHex_of_ofHex? {cs : List Char} {c : Rgba} (h : ofHex? cs = some c) :
    WrittenInHex cs c := by
  unfold ofHex? at h
  dsimp only at h
  cases hdigits : cs.mapM (digitValue? 16) with
  | none =>
    rw [hdigits] at h
    cases h
  | some vs =>
    have hcs := digits_eq_some_iff.mp hdigits
    rw [hdigits] at h
    split at h
    · next heq =>
      cases heq
      cases h
      match cs, hcs with
      | _, .cons red (.cons green (.cons blue .nil)) => exact .short red green blue
    · next heq =>
      cases heq
      cases h
      match cs, hcs with
      | _, .cons red (.cons green (.cons blue (.cons alpha .nil))) =>
        exact .shortAlpha red green blue alpha
    · next heq =>
      cases heq
      cases h
      match cs, hcs with
      | _, .cons red (.cons red' (.cons green (.cons green' (.cons blue (.cons blue' .nil))))) =>
        exact .long red red' green green' blue blue'
    · next heq =>
      cases heq
      cases h
      match cs, hcs with
      | _, .cons red (.cons red' (.cons green (.cons green' (.cons blue (.cons blue'
          (.cons alpha (.cons alpha' .nil))))))) =>
        exact .longAlpha red red' green green' blue blue' alpha alpha'
    · cases h

theorem ofHex?_of_writtenInHex {cs : List Char} {c : Rgba} (h : WrittenInHex cs c) :
    ofHex? cs = some c := by
  have hdigits {vs : List Nat} (hvs : List.Forall₂ IsHexDigit cs vs) : cs.mapM (digitValue? 16) =
    some vs := digits_eq_some_iff.mpr hvs
  unfold ofHex?
  cases h with
  | short red green blue =>
    rw [hdigits (.cons red (.cons green (.cons blue .nil)))]
    rfl
  | shortAlpha red green blue alpha =>
    rw [hdigits (.cons red (.cons green (.cons blue (.cons alpha .nil))))]
    rfl
  | long red red' green green' blue blue' =>
    rw [hdigits (.cons red (.cons red' (.cons green (.cons green' (.cons blue
      (.cons blue' .nil))))))]
    rfl
  | longAlpha red red' green green' blue blue' alpha alpha' =>
    rw [hdigits (.cons red (.cons red' (.cons green (.cons green' (.cons blue (.cons blue'
      (.cons alpha (.cons alpha' .nil))))))))]
    rfl

theorem exists_digits_iff {cs : List Char} :
    (∃ vs, cs.mapM (digitValue? 16) = some vs) ↔ ∀ x ∈ cs, ∃ v, IsHexDigit x v := by
  simp only [digits_eq_some_iff]
  induction cs with
  | nil => simp
  | cons x cs ih =>
    rw [List.forall_mem_cons, ← ih]
    constructor
    · rintro ⟨vs, h⟩
      cases h with
      | cons hx hcs => exact ⟨⟨_, hx⟩, _, hcs⟩
    · rintro ⟨⟨_, hx⟩, _, hcs⟩
      exact ⟨_, .cons hx hcs⟩

/-- Three, four, six or eight digits say a color, and nothing else does. -/
theorem exists_ofHex?_iff {cs : List Char} :
    (∃ c, ofHex? cs = some c) ↔
      (cs.length = 3 ∨ cs.length = 4 ∨ cs.length = 6 ∨ cs.length = 8) ∧
        ∀ x ∈ cs, ∃ v, IsHexDigit x v := by
  rw [← exists_digits_iff]
  constructor
  · rintro ⟨c, h⟩
    constructor
    · cases writtenInHex_of_ofHex? h <;> simp
    · unfold ofHex? at h
      cases hdigits : cs.mapM (digitValue? 16) with
      | none =>
        rw [hdigits] at h
        cases h
      | some vs => exact ⟨vs, rfl⟩
  · rintro ⟨hlength, vs, hdigits⟩
    rw [(forall₂_of_mapM_eq_some.mp hdigits).length_eq] at hlength
    unfold ofHex?
    rw [hdigits]
    match vs, hlength with
    | [_, _, _], _ | [_, _, _, _], _ | [_, _, _, _, _, _], _ | [_, _, _, _, _, _, _, _], _ =>
      exact ⟨_, rfl⟩

/-- Every character twice. -/
def doubled (cs : List Char) : List Char := cs.flatMap fun c => [c, c]

theorem digits_doubled (cs : List Char) :
    (doubled cs).mapM (digitValue? 16) =
      (cs.mapM (digitValue? 16)).map fun vs => vs.flatMap fun v => [v, v] := by
  induction cs with
  | nil => rfl
  | cons c cs ih =>
    have hcons : doubled (c :: cs) = c :: c :: doubled cs := rfl
    rw [hcons, List.mapM_cons, List.mapM_cons, List.mapM_cons, ih]
    cases digitValue? 16 c with
    | none => rfl
    | some v => cases cs.mapM (digitValue? 16) <;> rfl

/-- A short form says what the long form with all digits doubled says. -/
theorem ofHex?_doubled {cs : List Char} (h : cs.length = 3 ∨ cs.length = 4) :
    ofHex? (doubled cs) = ofHex? cs := by
  have htwice (v : Nat) : 16 * v + v = 17 * v := by omega
  unfold ofHex?
  rw [digits_doubled]
  cases hdigits : cs.mapM (digitValue? 16) with
  | none => rfl
  | some vs =>
    have hlength := (forall₂_of_mapM_eq_some.mp hdigits).length_eq
    rw [hlength] at h
    match vs, h with
    | [r, g, b], _ => simp [htwice]
    | [r, g, b, a], _ => simp [htwice]

/-- A color without digits for alpha is the one with the highest alpha. -/
theorem ofHex?_opaque {cs : List Char} (h : cs.length = 6) :
    ofHex? (cs ++ ['f', 'f']) = ofHex? cs := by
  have hlast : ['f', 'f'].mapM (digitValue? 16) = some [15, 15] := by decide
  unfold ofHex?
  rw [List.mapM_append, hlast]
  cases hdigits : cs.mapM (digitValue? 16) with
  | none => rfl
  | some vs =>
    have hlength := (forall₂_of_mapM_eq_some.mp hdigits).length_eq
    rw [hlength] at h
    match vs, h with
    | [r, r', g, g', b, b'], _ =>
      exact congrArg some (solid_eq_ofBytes (16 * r + r') (16 * g + g') (16 * b + b')).symm

/-- A text is read as hexadecimal digits if it starts with their mark. -/
theorem toOption_ofText {s : String} {cs : List Char}
    (mark : (Text.lower (Text.trim s)).toList = '#' :: cs) :
    (ofText s).toOption = ofHex? cs := by
  have hname : Text.lower (Text.trim s) ≠ "transparent" := by
    intro h
    rw [h] at mark
    exact absurd (List.head_eq_of_cons_eq mark) (by decide)
  unfold ofText ofNormalized
  dsimp only
  rw [if_neg hname, mark, List.head?_cons, if_pos rfl, List.tail_cons]
  cases ofHex? cs <;> rfl

/-- Hexadecimal colors are read from exactly three, four, six or eight digits, and every digit counts.
Reading them by positions in their bytes gives the same, and never looks for a position that is not
there. Short forms are long forms with all digits doubled, and alpha is one unless digits say it. -/
theorem ofText_hexadecimal {s : String} {cs : List Char}
    (mark : (Text.lower (Text.trim s)).toList = '#' :: cs) :
    (readPositions cs ≠ .error .outOfRange ∧
      ∀ c, readPositions cs = .ok c ↔ ofText s = .ok c) ∧
    (∀ c, ofText s = .ok c ↔ WrittenInHex cs c) ∧
    ((∃ c, ofText s = .ok c) ↔
      (cs.length = 3 ∨ cs.length = 4 ∨ cs.length = 6 ∨ cs.length = 8) ∧
        ∀ x ∈ cs, ∃ v, IsHexDigit x v) ∧
    (∀ s', (Text.lower (Text.trim s')).toList = '#' :: doubled cs →
      cs.length = 3 ∨ cs.length = 4 → (ofText s').toOption = (ofText s).toOption) ∧
    (∀ s', (Text.lower (Text.trim s')).toList = '#' :: (cs ++ ['f', 'f']) →
      cs.length = 6 → (ofText s').toOption = (ofText s).toOption) := by
  have hread := toOption_ofText mark
  have hok (c : Rgba) : ofText s = .ok c ↔ ofHex? cs = some c := by
    rw [← hread]
    cases ofText s <;> simp [Except.toOption]
  have hwritten (c : Rgba) : ofText s = .ok c ↔ WrittenInHex cs c := by
    rw [hok]
    exact ⟨writtenInHex_of_ofHex?, ofHex?_of_writtenInHex⟩
  refine ⟨⟨?_, ?_⟩, hwritten, ?_, ?_, ?_⟩
  · rw [readPositions_eq]
    cases ofHex? cs <;> simp
  · intro c
    rw [hok, readPositions_eq]
    cases ofHex? cs <;> simp
  · simp only [hok]
    exact exists_ofHex?_iff
  · intro s' mark' hlength
    rw [toOption_ofText mark', hread, ofHex?_doubled hlength]
  · intro s' mark' hlength
    rw [toOption_ofText mark', hread, ofHex?_opaque hlength]

/-- Digits in upper case are digits. Three bytes that are two characters are refused. -/
theorem ofText_hexadecimal_mixed :
    ofText " #8Fa " = .ok ⟨.finite 136, .finite 255, .finite 170, .finite 1⟩ ∧
      utf8 ['1', 'é'] = [0x31, 0xC3, 0xA9] ∧ readPositions ['1', 'é'] = .error .refused ∧
      ¬∃ c, ofText "#1é" = .ok c := by
  have hmark : (Text.lower (Text.trim " #8Fa ")).toList = '#' :: ['8', 'f', 'a'] := by
    decide +kernel
  have hwide : (Text.lower (Text.trim "#1é")).toList = '#' :: ['1', 'é'] := by decide +kernel
  obtain ⟨-, hwritten, -⟩ := ofText_hexadecimal hmark
  obtain ⟨-, -, hexists, -⟩ := ofText_hexadecimal hwide
  have hcolor : ofText " #8Fa " =
      .ok ⟨.ofNat (17 * 8), .ofNat (17 * 15), .ofNat (17 * 10), .ofNat 1⟩ :=
    (hwritten _).mpr (.short (by decide) (by decide) (by decide))
  have hchannels : (⟨.ofNat (17 * 8), .ofNat (17 * 15), .ofNat (17 * 10), .ofNat 1⟩ : Rgba) =
      ⟨.finite 136, .finite 255, .finite 170, .finite 1⟩ := by decide +kernel
  refine ⟨hcolor.trans (congrArg _ hchannels), by decide, by decide +kernel, ?_⟩
  intro hread
  exact absurd (hexists.mp hread).1 (by decide)

end Color

end ShaderStyle
