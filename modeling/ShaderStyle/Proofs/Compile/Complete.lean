import ShaderStyle.Proofs.Compile.Result

/-! A style is compiled completely, or an issue is recorded. -/
namespace ShaderStyle

namespace Compilation

variable {α β : Type}

/-- Leaves the builder and its issues as they are. -/
def KeepsBuilder (m : CompileM α) : Prop := ∀ c, (m.run c).2.builder = c.builder

namespace KeepsBuilder

theorem pure (a : α) : KeepsBuilder (Pure.pure a) := fun _ => rfl

theorem debug (message : String) (fields : List (String × String)) :
    KeepsBuilder (Compilation.debug message fields) := fun _ => rfl

theorem bind {m : CompileM α} {f : α → CompileM β} (h : KeepsBuilder m)
    (h' : ∀ a, KeepsBuilder (f a)) : KeepsBuilder (m >>= f) := by
  intro c
  exact (h' (m.run c).1 (m.run c).2).trans (h c)

theorem forIn (xs : List α) {f : α → PUnit → CompileM (ForInStep PUnit)}
    (h : ∀ a u, KeepsBuilder (f a u)) : KeepsBuilder (ForIn.forIn xs PUnit.unit f) := by
  induction xs with
  | nil => exact pure _
  | cons x xs ih =>
    rw [List.forIn_cons]
    refine (h x _).bind fun step => ?_
    cases step with
    | done u => exact pure u
    | yield u => exact ih

theorem result (s : Style) : KeepsBuilder (Compilation.result s) := by
  have hstart : KeepsBuilder (MonadState.get : CompileM Compilation) := fun _ => rfl
  refine hstart.bind fun c => ?_
  refine (forIn _ fun a _ => (debug _ _).bind fun _ => pure _).bind fun _ => ?_
  refine (forIn _ fun u _ => (debug _ _).bind fun _ => pure _).bind fun _ => ?_
  exact (debug _ _).bind fun _ => pure _

end KeepsBuilder

/-- How a channel was compiled: it was built, and emitted where it comes among the events, with the
given text. -/
def Channel.Compiled (vars : Bindings) (events : List Event) (last : Registry) (ch : Channel)
    (text : String) : Prop :=
  ∃ e before after r₁ r₂ t, ch.outcome vars = .ok e ∧
    events = before ++ .emitted ch :: after ∧ Trace vars {} before r₁ ∧
    (emit ch.stage e).run.run r₁ = (.ok t, r₂) ∧ Trace vars r₂ after last ∧ t.text = text

theorem Trace.compiled {vars : Bindings} {events : List Event} {last : Registry}
    (h : Trace vars {} events last) {ch : Channel} (hch : .emitted ch ∈ events)
    {final : Categories} (grows : last.categories.Grows final) :
    ch.Compiled vars events last (ch.code vars final) := by
  obtain ⟨before, after, rfl⟩ := List.append_of_mem hch
  obtain ⟨r₁, r₂, hbefore, hevent, hafter⟩ := h.split
  have named := hbefore.named (Registry.named_fresh {})
  have hgrows := hafter.grows (hevent.named named)
  cases hevent with
  | @emitted _ e t _ built ran =>
    have hcode := Channel.code_eq built named ran (hgrows.trans grows)
    exact ⟨e, before, after, r₁, r₂, t, built, rfl, hbefore, ran, hafter, hcode.symm⟩

theorem emitted_mem_styleEvents {s : Style} {ch : Channel} (hch : ch ∈ s.channels)
    (code : Channel → String) : .emitted ch ∈ styleEvents code s := by
  rw [← channels_styleEvents code] at hch
  obtain ⟨event, hevent, hchannel⟩ := List.mem_filterMap.mp hch
  cases event with
  | emitted ch' =>
    cases hchannel
    exact hevent
  | filled | rotated | textured => cases hchannel

end Compilation

open Compilation

end ShaderStyle
