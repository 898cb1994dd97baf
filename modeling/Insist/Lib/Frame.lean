/-
**Statements that keep to a part of the memory.**

* `Framed` — a statement that changes nothing elsewhere, and depends on nothing there;
* `Framed.of_own`, `skip`, `comp`, `lanewise` — statements on a block's own memory are framed, and so are two
  framed statements one after the other and a framed statement that every lane of a warp carries out;
* `FramedBlocks.keeps_outside`, `block_of_ends`, `ends_of_block` — a launch of framed blocks leaves alone what
  is elsewhere for all of them, and what is inside for one of them is what this block makes of it by itself.
-/
import Insist.Lib.Grid

namespace Insist.Lib.Simt

variable {β γ δ τ υ : Type*}

/-- The statement changes nothing of what is seen elsewhere, and what it makes of the inside and of the block's
own memory depends on these two alone. -/
structure Framed (inside : γ → τ) (elsewhere : γ → υ) (statement : γ × δ → γ × δ) : Prop where
  keeps : ∀ memory, elsewhere (statement memory).1 = elsewhere memory.1
  depends : ∀ first second : γ × δ, inside first.1 = inside second.1 → first.2 = second.2 →
    inside (statement first).1 = inside (statement second).1 ∧ (statement first).2 = (statement second).2

namespace Framed

variable {inside : γ → τ} {elsewhere : γ → υ} {statement other : γ × δ → γ × δ}

/-- A statement that neither changes nor reads the memory of the device. -/
theorem of_own (device : ∀ memory, (statement memory).1 = memory.1)
    (own : ∀ memory device, (statement (device, memory.2)).2 = (statement memory).2) :
    Framed inside elsewhere statement where
  keeps memory := congrArg elsewhere (device memory)
  depends first second seen same := by
    rw [device, device]
    refine ⟨seen, ?_⟩
    calc (statement first).2 = (statement (first.1, first.2)).2 := rfl
      _ = (statement (first.1, second.2)).2 := by rw [same]
      _ = (statement second).2 := own second first.1

theorem skip : Framed inside elsewhere fun memory : γ × δ => memory where
  keeps _ := rfl
  depends _ _ seen same := ⟨seen, same⟩

theorem congr (same : ∀ memory, statement memory = other memory) (framed : Framed inside elsewhere other) :
    Framed inside elsewhere statement :=
  (funext same : statement = other) ▸ framed

/-- One statement after another. -/
theorem comp (framed : Framed inside elsewhere statement) (before : Framed inside elsewhere other) :
    Framed inside elsewhere fun memory => statement (other memory) where
  keeps memory := (framed.keeps _).trans (before.keeps memory)
  depends first second seen same := by
    obtain ⟨seen', same'⟩ := before.depends first second seen same
    exact framed.depends _ _ seen' same'

/-- A statement that every lane of a warp carries out. -/
theorem lanewise {width threads : ℕ} {operation : ℕ → γ × δ → γ × δ}
    (framed : ∀ thread < threads, Framed inside elsewhere (operation thread)) (warp : ℕ) :
    Framed inside elsewhere (Simt.lanewise width threads operation warp) where
  keeps memory := lanewise_keeps (fun now : γ × δ => elsewhere now.1 = elsewhere memory.1)
    (fun thread bound now before => ((framed thread bound).keeps now).trans before) warp rfl
  depends _ _ seen same := lanewise_related
    (fun first second : γ × δ => inside first.1 = inside second.1 ∧ first.2 = second.2)
    (fun thread bound first second before => (framed thread bound).depends first second before.1 before.2) warp
    ⟨seen, same⟩

end Framed

/-! ### Launches of framed blocks -/

variable {τ υ : β → Type*}

/-- Every instruction of every block is framed. -/
def FramedBlocks (phases : β → List (Phase (γ × δ))) (inside : ∀ index, γ → τ index)
    (elsewhere : ∀ index, γ → υ index) : Prop :=
  ∀ index instruction, InCode (phases index) instruction → ∀ warp,
    Framed (inside index) (elsewhere index) (instruction warp)

section Launch

variable [DecidableEq β] {count : ℕ} {phases : β → List (Phase (γ × δ))} {inside : ∀ index, γ → τ index}
  {elsewhere : ∀ index, γ → υ index} (framed : FramedBlocks phases inside elsewhere)

include framed

/-- **A launch leaves alone what is elsewhere for all of its blocks.** -/
theorem FramedBlocks.keeps_outside {device device' : γ} (ends : Ends count phases device device') {ω : Type*}
    (view : γ → ω)
    (outside : ∀ index first second, elsewhere index first = elsewhere index second →
      view first = view second) :
    view device' = view device :=
  ends.keeps (fun now => view now = view device)
    (fun index instruction inCode warp now own before =>
      (outside index _ _ ((framed index instruction inCode warp).keeps (now, own))).trans before) rfl

variable {index : β}
  (apart : ∀ other, other ≠ index → ∀ first second, elsewhere other first = elsewhere other second →
    inside index first = inside index second)

include apart

/-- **What is inside for a block evolves as if the block ran alone**, if it is elsewhere for the others. -/
theorem FramedBlocks.block_of_ends {device device' : γ} (ends : Ends count phases device device') :
    ∃ own memory', Runs count (phases index) (device, own) memory' ∧
      inside index memory'.1 = inside index device' := by
  obtain ⟨before, after, alone, ran, same⟩ := block_of_grid ends index (inside index)
    (fun instruction inCode warp first second own seen =>
      (framed index instruction inCode warp).depends (first, own) (second, own) seen rfl)
    (fun other different instruction inCode warp device own =>
      apart other different _ _ ((framed other instruction inCode warp).keeps (device, own)))
  exact ⟨before, (alone, after), ran, same⟩

/-- What a block can do by itself, it can do in a launch. -/
theorem FramedBlocks.ends_of_block [Fintype β] {device : γ} {own : δ} {memory' : γ × δ}
    (ran : Runs count (phases index) (device, own) memory') :
    ∃ device', Ends count phases device device' ∧ inside index device' = inside index memory'.1 :=
  Simt.ends_of_block phases index (fun _ => own) ran (inside index)
    fun other different instruction inCode warp device own =>
      apart other different _ _ ((framed other instruction inCode warp).keeps (device, own))

end Launch

end Insist.Lib.Simt
