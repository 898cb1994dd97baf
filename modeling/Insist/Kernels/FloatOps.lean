/-
**The float operations of the kernels.**

The kernels are generic in what their `float`s are. `FloatOps` has the operations that they share, `FloatInf`
and `FloatScale` what only the softmax or only the attention kernels use besides. With exact real arithmetic the
first are read in `EReal`, where `⊥` is the identity of `fmaxf`, and the second in `ℝ`.
-/
import Mathlib.Analysis.SpecialFunctions.Log.ENNRealLogExp
import Mathlib.Data.EReal.Operations

namespace Insist.Kernels

/-- What both the softmax and the attention kernels use. -/
class FloatOps (α : Type*) where
  zero : α
  add : α → α → α
  sub : α → α → α
  div : α → α → α
  /-- `fmaxf`. -/
  fmax : α → α → α
  /-- `expf` or `__expf`. -/
  exp : α → α

/-- The softmax kernels. -/
class FloatInf (α : Type*) extends FloatOps α where
  /-- `-CUDART_INF_F`. -/
  negInf : α

/-- The attention kernels. -/
class FloatScale (α : Type*) extends FloatOps α where
  /-- `-FLT_MAX`. -/
  negFltMax : α
  mul : α → α → α
  /-- `rsqrtf`. -/
  rsqrt : α → α
  /-- `(float)n`. -/
  ofInt : ℤ → α

noncomputable instance : FloatInf EReal where
  zero := 0
  add := (· + ·)
  sub := (· - ·)
  div := (· / ·)
  fmax := max
  exp value := (EReal.exp value : ENNReal)
  negInf := ⊥

noncomputable instance : FloatScale ℝ where
  zero := 0
  add := (· + ·)
  sub := (· - ·)
  div := (· / ·)
  fmax := max
  exp := Real.exp
  negFltMax := -((2 - 2 ^ (-23 : ℤ)) * 2 ^ 127)
  mul := (· * ·)
  rsqrt value := 1 / √value
  ofInt value := value

instance : Std.Commutative (FloatOps.fmax : EReal → EReal → EReal) := ⟨max_comm⟩

instance : Std.Associative (FloatOps.fmax : EReal → EReal → EReal) := ⟨max_assoc⟩

instance : Std.Commutative (FloatOps.add : EReal → EReal → EReal) := ⟨add_comm⟩

instance : Std.Associative (FloatOps.add : EReal → EReal → EReal) := ⟨add_assoc⟩

section

variable (first second : ℝ)

theorem add_coe : FloatOps.add (first : EReal) second = (first + second : ℝ) := (EReal.coe_add _ _).symm

theorem sub_coe : FloatOps.sub (first : EReal) second = (first - second : ℝ) := (EReal.coe_sub _ _).symm

theorem div_coe : FloatOps.div (first : EReal) second = (first / second : ℝ) := (EReal.coe_div _ _).symm

theorem exp_coe : FloatOps.exp (first : EReal) = Real.exp first := by
  show ((EReal.exp first : ENNReal) : EReal) = _
  rw [EReal.exp_coe, EReal.coe_ennreal_ofReal, max_eq_left (Real.exp_pos first).le]

end

end Insist.Kernels
