import Mathlib.Data.List.Forall2
import ShaderStyle.Color.Reading
import ShaderStyle.Proofs.Color.Channels

/-! What the notations of a color say: names and hexadecimal digits give eight bits to each channel,
and functional notations give any numbers. -/
namespace ShaderStyle

theorem Numeral.digitValue?_lt {base v : Nat} {c : Char} (h : digitValue? base c = some v) :
    v < base := by
  unfold digitValue? at h
  dsimp only at h
  rw [Option.ite_none_right_eq_some] at h
  obtain ⟨hlt, hv⟩ := h
  exact Option.some.inj hv ▸ hlt

theorem forall₂_of_mapM_eq_some {α β : Type} {f : α → Option β} {xs : List α} {ys : List β} :
    xs.mapM f = some ys ↔ List.Forall₂ (fun x y => f x = some y) xs ys := by
  induction xs generalizing ys with
  | nil => cases ys <;> simp
  | cons x xs ih =>
    rw [List.mapM_cons]
    cases hx : f x with
    | none => cases ys <;> simp [hx]
    | some y =>
      cases hxs : xs.mapM f with
      | none =>
        rw [hxs] at ih
        cases ys <;> simp [hx, ← ih]
      | some rest =>
        rw [hxs] at ih
        cases ys <;> simp [hx, ← ih]

theorem Numeral.digits_lt {base : Nat} {cs : List Char} {vs : List Nat}
    (h : cs.mapM (digitValue? base) = some vs) : ∀ v ∈ vs, v < base := by
  have hdigits := forall₂_of_mapM_eq_some.mp h
  clear h
  induction hdigits with
  | nil => simp
  | cons hc _ ih => exact List.forall_mem_cons.mpr ⟨digitValue?_lt hc, ih⟩

theorem forall₂_of_mapM_ok {α β ε : Type} {f : α → Except ε β} {xs : List α} {ys : List β}
    (h : xs.mapM f = .ok ys) : List.Forall₂ (fun x y => f x = .ok y) xs ys := by
  induction xs generalizing ys with
  | nil =>
    cases h
    exact .nil
  | cons x xs ih =>
    rw [List.mapM_cons] at h
    cases hx : f x with
    | error e =>
      rw [hx] at h
      cases h
    | ok y =>
      rw [hx] at h
      cases hxs : xs.mapM f with
      | error e =>
        rw [hxs] at h
        cases h
      | ok rest =>
        rw [hxs] at h
        cases h
        exact .cons hx (ih hxs)

namespace Color

/-- Whether a color is one of eight bits a channel. -/
def OfBytes (c : Rgba) : Prop :=
  ∃ red green blue alpha : Nat, red ≤ 255 ∧ green ≤ 255 ∧ blue ≤ 255 ∧ alpha ≤ 255 ∧
    c = ofBytes red green blue alpha

theorem solid_eq_ofBytes (red green blue : Nat) :
    (solid red green blue : Rgba) = ofBytes red green blue 255 := by
  have halpha : Double.ofNat 1 = .div (.ofNat 255) (.ofNat 255) := by decide +kernel
  exact congrArg (Color.mk (Double.ofNat red) (.ofNat green) (.ofNat blue)) halpha

theorem ofBytes_transparent : OfBytes transparent := by
  have halpha : Double.ofNat 0 = .div (.ofNat 0) (.ofNat 255) := by decide +kernel
  exact ⟨0, 0, 0, 0, by decide, by decide, by decide, by decide,
    congrArg (Color.mk (Double.ofNat 0) (.ofNat 0) (.ofNat 0)) halpha⟩

theorem ofBytes_ofHex? {cs : List Char} {c : Rgba} (h : ofHex? cs = some c) : OfBytes c := by
  unfold ofHex? at h
  dsimp only at h
  cases hdigits : cs.mapM (Numeral.digitValue? 16) with
  | none =>
    rw [hdigits] at h
    cases h
  | some vs =>
    have hlt := Numeral.digits_lt hdigits
    rw [hdigits] at h
    split at h
    · next r g b heq =>
      cases heq
      cases h
      simp only [List.forall_mem_cons] at hlt
      obtain ⟨hr, hg, hb, -⟩ := hlt
      exact ⟨17 * r, 17 * g, 17 * b, 255, by omega, by omega, by omega, by omega,
        solid_eq_ofBytes _ _ _⟩
    · next r g b a heq =>
      cases heq
      cases h
      simp only [List.forall_mem_cons] at hlt
      obtain ⟨hr, hg, hb, ha, -⟩ := hlt
      exact ⟨17 * r, 17 * g, 17 * b, 17 * a, by omega, by omega, by omega, by omega, rfl⟩
    · next r r' g g' b b' heq =>
      cases heq
      cases h
      simp only [List.forall_mem_cons] at hlt
      obtain ⟨hr, hr', hg, hg', hb, hb', -⟩ := hlt
      exact ⟨16 * r + r', 16 * g + g', 16 * b + b', 255, by omega, by omega, by omega, by omega,
        solid_eq_ofBytes _ _ _⟩
    · next r r' g g' b b' a a' heq =>
      cases heq
      cases h
      simp only [List.forall_mem_cons] at hlt
      obtain ⟨hr, hr', hg, hg', hb, hb', ha, ha', -⟩ := hlt
      exact ⟨16 * r + r', 16 * g + g', 16 * b + b', 16 * a + a', by omega, by omega, by omega,
        by omega, rfl⟩
    · cases h

theorem named_lt : ∀ p ∈ named, p.2 < 0x100000000 := by decide +kernel

theorem ofBytes_ofNamed {s : String} {n : Nat} (h : named.lookup s = some n) :
    OfBytes (ofNamed n) := by
  obtain ⟨before, after, hnamed, -⟩ := List.lookup_eq_some_iff.mp h
  have hn : n < 0x100000000 := named_lt (s, n) (by simp [hnamed])
  exact ⟨n / 0x1000000, n / 0x10000 % 0x100, n / 0x100 % 0x100, n % 0x100, by omega, by omega,
    by omega, by omega, rfl⟩

/-- The texts of the components of a functional notation. The other notations have none. -/
def componentTexts (cs : List Char) : List (List Char) :=
  (((enclosed? "rgba(" cs).or (enclosed? "rgb(" cs)).map
    (fields fun c => c == ',' || c == ' ' || c == '/')).getD []

/-- Numbers that are read from texts one by one. -/
def ReadFrom (parts : List (List Char)) (xs : List Double) : Prop :=
  List.Forall₂ (fun part x => Double.read (String.ofList part) = .value x) parts xs

theorem readFrom_of_components {s : String} {args : List Char} {want : Nat} {xs : List Double}
    (h : components s args want = .ok xs) :
    ReadFrom (fields (fun c => c == ',' || c == ' ' || c == '/') args) xs := by
  unfold components at h
  dsimp only at h
  split at h
  · refine (forall₂_of_mapM_ok h).imp fun part x hpart => ?_
    cases hread : Double.read (String.ofList part) with
    | value y =>
      rw [hread] at hpart
      cases hpart
      rfl
    | overflow | malformed =>
      rw [hread] at hpart
      cases hpart
  · cases h

/-- A text has components only if it starts like a functional notation. -/
theorem componentTexts_of_head {cs : List Char} (h : cs.head? ≠ some 'r') :
    componentTexts cs = [] := by
  have hclosed (opening : String) (hopening : opening.toList.head? = some 'r') :
      enclosed? opening cs = none := by
    unfold enclosed?
    rw [if_neg]
    intro henclosed
    obtain ⟨hstarts, -⟩ := Bool.and_eq_true_iff.mp henclosed
    obtain ⟨rest, rfl⟩ := List.isPrefixOf_iff_prefix.mp hstarts
    rw [List.head?_append, hopening] at h
    exact h rfl
  rw [componentTexts, hclosed "rgba(" (by decide), hclosed "rgb(" (by decide)]
  rfl

/-- A color is read from a text without components with eight bits a channel, and otherwise from the
numbers that the components say. -/
theorem ofNormalized_cases {s : String} {c : Rgba} (h : ofNormalized s = .ok c) :
    (componentTexts s.toList = [] ∧ OfBytes c) ∨
      ∃ xs, ReadFrom (componentTexts s.toList) xs ∧ ofComponents s xs = .ok c := by
  have hfunctional {args : List Char} {want : Nat}
      (hargs : (enclosed? "rgba(" s.toList).or (enclosed? "rgb(" s.toList) = some args)
      (hread : components s args want >>= ofComponents s = .ok c) :
      ∃ xs, ReadFrom (componentTexts s.toList) xs ∧ ofComponents s xs = .ok c := by
    rw [componentTexts, hargs]
    cases hxs : components s args want with
    | error e =>
      rw [hxs] at hread
      cases hread
    | ok xs =>
      rw [hxs] at hread
      exact ⟨xs, readFrom_of_components hxs, hread⟩
  unfold ofNormalized at h
  dsimp only at h
  split at h
  · next htransparent =>
    cases h
    left
    exact ⟨componentTexts_of_head (by rw [htransparent]; decide), ofBytes_transparent⟩
  · split at h
    · next hhash =>
      left
      refine ⟨componentTexts_of_head (by rw [hhash]; decide), ?_⟩
      split at h
      · next color hcolor =>
        cases h
        exact ofBytes_ofHex? hcolor
      · cases h
    · split at h
      · next args hargs => exact Or.inr (hfunctional (by rw [hargs, Option.some_or]) h)
      · next hrgba =>
        split at h
        · next args hargs => exact Or.inr (hfunctional (by rw [hrgba, hargs, Option.none_or]) h)
        · next hrgb =>
          left
          refine ⟨by rw [componentTexts, hrgba, hrgb]; rfl, ?_⟩
          split at h
          · next n hnamed =>
            cases h
            exact ofBytes_ofNamed hnamed
          · cases h

end Color

end ShaderStyle
