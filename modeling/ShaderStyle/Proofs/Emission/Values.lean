import ShaderStyle.Proofs.Emission.Choices
import ShaderStyle.Proofs.Emission.ReadBack
import ShaderStyle.Proofs.Glsl.Arithmetic

/-! Emitted code has the value of the nesting of its expression, and so has the code of every
part. -/
namespace ShaderStyle

open Glsl (Meaning)

/-- Code that is emitted is read back, in all its parts. -/
theorem emit_readsBack {e : Expr} {stage : Stage} {r r' : Registry} {t : Glsl.Term}
    (built : e.Built fun _ => True) (reachable : r.Reachable)
    (ran : (emit stage e).run.run r = (.ok t, r')) :
    t.text = e.code stage r'.categories ∧ e.ReadsBack stage r'.categories := by
  obtain ⟨rfl, hprovided⟩ := emit_ok built.wellTyped reachable.named ran
  exact ⟨rfl, built.wellTyped.readsBack fun ref href => (hprovided ref href).finite⟩

namespace Expr.ReadsBack

variable {K : Type} [Field K] [LinearOrder K] [FloorRing K] {m : Meaning K}
variable {e x : Expr} {stage : Stage} {c : Categories}

theorem read_eq (h : e.ReadsBack stage c) :
    m.read (e.code stage c) = (e.tree stage c).value? m := by
  rw [Meaning.read, h e e.mem_nodes_self, Option.bind_some]

theorem read_part (h : e.ReadsBack stage c) (hx : x ∈ e.parts) :
    m.read (x.code stage c) = (x.tree stage c).value? m := by
  rw [Meaning.read, h.part hx, Option.bind_some]

end Expr.ReadsBack

end ShaderStyle
