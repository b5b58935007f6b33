import Aether.Lib.Wp

/-!
# What programs do to the state

`Program.Keeps R x` says that every run of `x` leads from a state to one that is related to it by
`R`; a preorder is kept by a program when its parts keep it. `Program.Erases x y` says that `y` does
whatever `x` does: `x` is `y` with checks that may fail. `Program.Commutes f x` says that it makes
no difference whether `f` changes the state before or after `x`.
-/

namespace Program

variable {σ α β : Type}

/-! ## Relations between the states before and after -/

/-- Every run of `x` leads from a state to a related one. -/
def Keeps (R : σ → σ → Prop) (x : StateT σ Option α) : Prop :=
  ∀ s a s', x.run s = some (a, s') → R s s'

section Keeps

variable {R : σ → σ → Prop}

/-- A program that changes the state by a function keeps what the function does. -/
theorem Keeps.modify {f : σ → σ} (h : ∀ s, R s (f s)) :
    Keeps R (modify f : StateT σ Option PUnit) := by
  intro s a s' hrun
  cases hrun
  exact h s

/-- A program that fails keeps everything. -/
theorem Keeps.fail {x : StateT σ Option α} (h : ∀ s, x.run s = none) : Keeps R x := by
  intro s a s' hrun
  cases (h s).symm.trans hrun

theorem Keeps.ite {c : Prop} [Decidable c] {x y : StateT σ Option α} (hx : Keeps R x)
    (hy : Keeps R y) : Keeps R (if c then x else y) := by
  split
  · exact hx
  · exact hy

theorem Keeps.bind (htrans : ∀ s t u, R s t → R t u → R s u) {x : StateT σ Option α}
    {f : α → StateT σ Option β} (hx : Keeps R x) (hf : ∀ a, Keeps R (f a)) : Keeps R (x >>= f) := by
  intro s b u hrun
  obtain ⟨a, t, hfirst, hrest⟩ := run_bind_eq_some.mp hrun
  exact htrans s t u (hx s a t hfirst) (hf a t b u hrest)

theorem Keeps.pure (hrefl : ∀ s, R s s) (a : α) : Keeps R (Pure.pure a : StateT σ Option α) := by
  intro s b s' hrun
  cases hrun
  exact hrefl s

theorem Keeps.get (hrefl : ∀ s, R s s) : Keeps R (MonadState.get : StateT σ Option σ) := by
  intro s t s' hrun
  cases hrun
  exact hrefl s

end Keeps

/-! ## Checks that may fail -/

/-- Whatever `x` does, `y` does. -/
def Erases (x y : StateT σ Option α) : Prop := ∀ s r, x.run s = some r → y.run s = some r

theorem Erases.refl (x : StateT σ Option α) : Erases x x := fun _ _ h ↦ h

theorem Erases.bind {x y : StateT σ Option α} {f g : α → StateT σ Option β} (h : Erases x y)
    (hfg : ∀ a, Erases (f a) (g a)) : Erases (x >>= f) (y >>= g) := by
  intro s r hrun
  obtain ⟨a, s', hx, hf⟩ := run_bind_eq_some.mp hrun
  exact run_bind_eq_some.mpr ⟨a, s', h s _ hx, hfg a s' r hf⟩

theorem Erases.ite {c : Prop} [Decidable c] {x x' y y' : StateT σ Option α} (h : Erases x y)
    (h' : Erases x' y') : Erases (if c then x else x') (if c then y else y') := by
  split
  · exact h
  · exact h'

/-! ## Changes that make no difference -/

/-- `x` does to the state changed by `f` what it does to the state itself. -/
def Commutes (f : σ → σ) (x : StateT σ Option α) : Prop :=
  ∀ s, x.run (f s) = (x.run s).map fun r ↦ (r.1, f r.2)

section Commutes

variable {f : σ → σ}

theorem Commutes.pure (a : α) : Commutes f (Pure.pure a : StateT σ Option α) := fun _ ↦ rfl

theorem Commutes.fail {x : StateT σ Option α} (h : ∀ s, x.run s = none) : Commutes f x := by
  intro s
  rw [h, h, Option.map_none]

theorem Commutes.bind {x : StateT σ Option α} {y : α → StateT σ Option β} (hx : Commutes f x)
    (hy : ∀ a, Commutes f (y a)) : Commutes f (x >>= y) := by
  intro s
  rw [StateT.run_bind, StateT.run_bind, hx s]
  cases x.run s with
  | none => rfl
  | some r => exact hy r.1 r.2

theorem Commutes.modify {g : σ → σ} (h : ∀ s, g (f s) = f (g s)) :
    Commutes f (modify g : StateT σ Option PUnit) := by
  intro s
  show some (PUnit.unit, g (f s)) = some (PUnit.unit, f (g s))
  rw [h]

/-- A program that begins with a look at the state, of which the change leaves alone what matters.
-/
theorem Commutes.reads {k : σ → StateT σ Option α} (hk : ∀ s, k (f s) = k s)
    (h : ∀ s, Commutes f (k s)) : Commutes f (MonadState.get >>= k) := by
  intro s
  show (k (f s)).run (f s) = ((k s).run s).map _
  rw [hk]
  exact h s s

end Commutes

end Program
