import Mathlib.Tactic.FieldSimp
import Mathlib.Tactic.Linarith
import ShaderStyle.Proofs.Glsl.Arithmetic

/-! A chain of mixes with clamped weights is the interpolation between the stops next to the
input. -/
namespace ShaderStyle.Glsl

variable {K : Type} [Field K]

section Mixed

variable {xs ys : List K}

theorem length_mixed (weight : K) (h : xs.length = ys.length) :
    (mixed weight xs ys).length = xs.length := by
  rw [mixed, List.length_zipWith, h, min_self]

theorem mixed_zero (h : xs.length = ys.length) : mixed 0 xs ys = xs :=
  List.ext_getElem (length_mixed 0 h) fun i _ _ => by simp [mixed]

theorem mixed_one (h : xs.length = ys.length) : mixed 1 xs ys = ys :=
  List.ext_getElem ((length_mixed 1 h).trans h) fun i _ _ => by simp [mixed]

end Mixed

variable [LinearOrder K]

/-- How far a number is on the way between two others, which it is not let out of. -/
def progress (x start stop : K) : K := min (max ((x - start) / (stop - start)) 0) 1

/-- Mixes outputs, one after the other, into what is below the stops after `start`. -/
def mixedSteps (weight : K → K) (x : K) :
    (start : K) → (below : List K) → List (K × List K) → List K
  | _, below, [] => below
  | start, below, (stop, output) :: rest =>
    mixedSteps weight x stop (mixed (weight (progress x start stop)) below output) rest

/-- A value at a number that interpolates between points: the first output before the points, the
last one after them, and a mean of two neighbors between them. -/
structure Piecewise (weight : K → K) (points : List (K × List K)) (x : K) (value : List K) :
    Prop where
  below : ∀ p, points.head? = some p → x ≤ p.1 → value = p.2
  above : ∀ p, points.getLast? = some p → p.1 ≤ x → value = p.2
  between : ∀ before p q after, points = before ++ p :: q :: after → p.1 ≤ x → x ≤ q.1 →
    value = mixed (weight ((x - p.1) / (q.1 - p.1))) p.2 q.2

namespace Tree

variable [FloorRing K] {m : Meaning K} {input exponent : Tree} {x e : K}

/-- A step has a value if the stops that it lies between are different. -/
theorem value?_mix (zero : m.Reads (.finite 0)) (one : m.Reads (.finite 1))
    (hinput : input.value? m = some [x]) (hexponent : exponent.value? m = some [e])
    {below start stop output : Tree} {bs os : List K} {s t : K}
    (hbelow : below.value? m = some bs) (hstart : start.value? m = some [s])
    (hstop : stop.value? m = some [t]) (houtput : output.value? m = some os) (ordered : s < t)
    (alike : bs.length = os.length) :
    (mix input exponent below start stop output).value? m =
      some (mixed (m.power (progress x s t) e) bs os) := by
  have hzero : (literal (.finite 0)).value? m = some [0] := by
    rw [zero, Double.toRat, Rat.cast_zero]
  have hone : (literal (.finite 1)).value? m = some [1] := by
    rw [one, Double.toRat, Rat.cast_one]
  have hpart : (binary .sub input start).value? m = some [x - s] :=
    value?_binary .sub rfl hinput hstart
  have hwhole : (binary .sub stop start).value? m = some [t - s] :=
    value?_binary .sub rfl hstop hstart
  have hratio : (binary .div (binary .sub input start) (binary .sub stop start)).value? m =
      some [(x - s) / (t - s)] := by
    rw [value?_binary .div rfl hpart hwhole]
    have hne : (0 : K) ∉ [t - s] := by
      rw [List.mem_singleton, eq_comm, sub_eq_zero]
      exact ordered.ne'
    exact if_neg hne
  have hclamp := value?_call "clamp"
    (values?_cons hratio (values?_cons hzero (values?_cons hone values?_nil)))
  have hpower := value?_call "pow" (values?_cons hclamp (values?_cons hexponent values?_nil))
  have hmix := value?_call "mix"
    (values?_cons hbelow (values?_cons houtput (values?_cons hpower values?_nil)))
  unfold mix
  rw [hmix]
  exact if_pos alike

/-- Whether a stop and its output have the values of a point. -/
def StandsFor (m : Meaning K) (stop : Tree × Tree) (point : K × List K) : Prop :=
  stop.1.value? m = some [point.1] ∧ stop.2.value? m = some point.2

/-- The steps over increasing stops have a value: no divisor is zero. -/
theorem value?_mixes (zero : m.Reads (.finite 0)) (one : m.Reads (.finite 1))
    (hinput : input.value? m = some [x]) (hexponent : exponent.value? m = some [e])
    {below start : Tree} {stops : List (Tree × Tree)} {s : K} {bs : List K}
    {points : List (K × List K)} (hstart : start.value? m = some [s])
    (hbelow : below.value? m = some bs) (hstops : List.Forall₂ (StandsFor m) stops points)
    (ordered : ((s, bs) :: points).Pairwise fun p q => p.1 < q.1)
    (alike : ∀ p ∈ points, p.2.length = bs.length) :
    (mixes input exponent below start stops).value? m =
      some (mixedSteps (m.power · e) x s bs points) := by
  induction hstops generalizing below start s bs with
  | nil => exact hbelow
  | @cons stop point stops points hstop _ ih =>
    obtain ⟨hfirst, hrest⟩ := List.pairwise_cons.mp ordered
    have hlength : bs.length = point.2.length := (alike point List.mem_cons_self).symm
    have hstep := value?_mix zero one hinput hexponent hbelow hstart hstop.1 hstop.2
      (hfirst point List.mem_cons_self) hlength
    have hmixed := length_mixed (m.power (progress x s point.1) e) hlength
    exact ih hstop.1 hstep (List.pairwise_cons.mpr (List.pairwise_cons.mp hrest))
      fun p hp => (alike p (List.mem_cons_of_mem _ hp)).trans hmixed.symm

end Tree

variable [IsStrictOrderedRing K]

section Progress

variable {x start stop : K}

theorem progress_before (ordered : start < stop) (h : x ≤ start) : progress x start stop = 0 := by
  have hnonpos : (x - start) / (stop - start) ≤ 0 :=
    div_nonpos_of_nonpos_of_nonneg (by linarith) (by linarith)
  rw [progress, max_eq_right hnonpos, min_eq_left zero_le_one]

theorem progress_after (ordered : start < stop) (h : stop ≤ x) : progress x start stop = 1 := by
  have hone : 1 ≤ (x - start) / (stop - start) := by
    rw [one_le_div (by linarith)]
    linarith
  rw [progress, max_eq_left (by linarith), min_eq_right hone]

theorem progress_between (ordered : start < stop) (hlow : start ≤ x) (hhigh : x ≤ stop) :
    progress x start stop = (x - start) / (stop - start) := by
  have hzero : 0 ≤ (x - start) / (stop - start) := div_nonneg (by linarith) (by linarith)
  have hone : (x - start) / (stop - start) ≤ 1 := by
    rw [div_le_one (by linarith)]
    linarith
  rw [progress, max_eq_left hzero, min_eq_left hone]

end Progress

/-- The steps interpolate between the points, if these are in strictly increasing order. Before a
stop its step leaves what is below, and after it nothing is left of what was below. -/
theorem piecewise_mixedSteps {weight : K → K} (weight_zero : weight 0 = 0)
    (weight_one : weight 1 = 1) (x : K) {start : K} {below : List K} {rest : List (K × List K)}
    (ordered : ((start, below) :: rest).Pairwise fun p q => p.1 < q.1)
    (alike : ∀ p ∈ rest, p.2.length = below.length) :
    Piecewise weight ((start, below) :: rest) x (mixedSteps weight x start below rest) := by
  induction rest generalizing start below with
  | nil =>
    refine ⟨?_, ?_, ?_⟩
    · rintro p hp -
      cases hp
      rfl
    · rintro p hp -
      cases hp
      rfl
    · intro before p q after h
      have hlength := congrArg List.length h
      simp only [List.length_cons, List.length_nil, List.length_append] at hlength
      omega
  | cons point rest ih =>
    obtain ⟨stop, output⟩ := point
    obtain ⟨hfirst, hrest⟩ := List.pairwise_cons.mp ordered
    have hstep : start < stop := hfirst (stop, output) List.mem_cons_self
    have hlength : below.length = output.length := (alike (stop, output) List.mem_cons_self).symm
    have hmixed := length_mixed (weight (progress x start stop)) hlength
    -- The step takes the place of the output at its stop.
    have hordered : ((stop, mixed (weight (progress x start stop)) below output) :: rest).Pairwise
        fun p q => p.1 < q.1 := List.pairwise_cons.mpr (List.pairwise_cons.mp hrest)
    have hsteps := ih hordered fun p hp =>
      (alike p (List.mem_cons_of_mem _ hp)).trans hmixed.symm
    have hafter (h : stop ≤ x) : mixed (weight (progress x start stop)) below output = output := by
      rw [progress_after hstep h, weight_one, mixed_one hlength]
    refine ⟨?_, ?_, ?_⟩
    · intro p hp hx
      cases hp
      have hbefore : mixedSteps weight x start below ((stop, output) :: rest) =
          mixed (weight (progress x start stop)) below output :=
        hsteps.below _ rfl (hx.trans hstep.le)
      rw [hbefore, progress_before hstep hx, weight_zero, mixed_zero hlength]
    · intro p hp hx
      rw [List.getLast?_cons_cons] at hp
      cases rest with
      | nil =>
        cases hp
        exact hafter hx
      | cons next others =>
        exact hsteps.above p (by rw [List.getLast?_cons_cons] at hp ⊢; exact hp) hx
    · intro before p q after h hlow hhigh
      cases before with
      | nil =>
        cases h
        have hbefore : mixedSteps weight x start below ((stop, output) :: rest) =
            mixed (weight (progress x start stop)) below output :=
          hsteps.below _ rfl hhigh
        rw [hbefore, progress_between hstep hlow hhigh]
      | cons first before =>
        have htail := (List.cons.inj h).2
        cases before with
        | nil =>
          obtain ⟨rfl, rfl⟩ := List.cons.inj htail
          rw [hafter hlow] at hsteps
          rw [mixedSteps, hafter hlow]
          exact hsteps.between [] _ q after rfl hlow hhigh
        | cons second before =>
          obtain ⟨rfl, rfl⟩ := List.cons.inj htail
          exact hsteps.between (_ :: before) p q after rfl hlow hhigh

/-- An interpolation over increasing stops has a value, which interpolates between them. -/
theorem Tree.piecewise_interpolation [FloorRing K] {m : Meaning K} {input exponent : Tree} {x e : K}
    (zero : m.Reads (.finite 0)) (one : m.Reads (.finite 1)) (power_zero : m.power 0 e = 0)
    (power_one : m.power 1 e = 1) (hinput : input.value? m = some [x])
    (hexponent : exponent.value? m = some [e]) {stops : List (Tree × Tree)}
    {points : List (K × List K)} (hstops : List.Forall₂ (StandsFor m) stops points)
    (ordered : points.Pairwise fun p q => p.1 < q.1) (nonempty : points ≠ [])
    (alike : ∀ p ∈ points, ∀ q ∈ points, p.2.length = q.2.length) :
    ∃ value, (interpolation input exponent stops).value? m = some value ∧
      Piecewise (m.power · e) points x value := by
  cases hstops with
  | nil => exact absurd rfl nonempty
  | @cons stop point stops points hstop hrest =>
    have hlength : ∀ p ∈ points, p.2.length = point.2.length := fun p hp =>
      alike p (List.mem_cons_of_mem _ hp) point List.mem_cons_self
    exact ⟨_, value?_mixes zero one hinput hexponent hstop.1 hstop.2 hrest ordered hlength,
      piecewise_mixedSteps power_zero power_one x ordered hlength⟩

end ShaderStyle.Glsl
