import Aether.Lib.Effects

/-!
# Programs with checks of their own

A program over a program that may fail can end in two ways without a result: the program below
fails, or one of its own checks does. `Passes I y x` says that `y` is `x` with checks, and that in
states with `I` they hold: `y` does what `x` does and stays in such states.
-/

namespace Program

variable {σ α β : Type}

/-- A program with checks. -/
abbrev Checked (σ α : Type) := OptionT (StateT σ Option) α

/-- A check of the state. -/
def check (p : σ → Prop) [DecidablePred p] : Checked σ Unit := do
  if p (← get) then pure () else failure

/-- Started in `s`, the program ends because a check does not hold. -/
def Trips (y : Checked σ α) (s : σ) : Prop := ∃ s', y.run.run s = some (none, s')

/-- In states with `I` the checks of `y` hold, and it does what `x` does. -/
def Passes (I : σ → Prop) (y : Checked σ α) (x : StateT σ Option α) : Prop :=
  ∀ s, I s → y.run.run s = (x.run s).map (fun r ↦ (some r.1, r.2)) ∧
    ∀ a s', x.run s = some (a, s') → I s'

section Checks

variable {I : σ → Prop} {p : σ → Prop} [DecidablePred p]

/-- What follows runs if no check failed. -/
theorem run_checked_bind (y : Checked σ α) (g : α → Checked σ β) (s : σ) :
    (y >>= g).run.run s = (y.run.run s).bind fun r ↦
      (r.1.elim (pure none) fun a ↦ (g a).run : StateT σ Option (Option β)).run r.2 := by
  rw [OptionT.run_bind, Option.elimM, StateT.run_bind]
  rfl

theorem run_check (s : σ) :
    (check p).run.run s = some (if p s then some () else none, s) := by
  show ((if p s then pure () else failure : Checked σ Unit)).run.run s = _
  split
  · rfl
  · rfl

theorem Trips.bind {y : Checked σ α} {s : σ} (h : Trips y s) (f : α → Checked σ β) :
    Trips (y >>= f) s := by
  obtain ⟨s', hrun⟩ := h
  exact ⟨s', by rw [run_checked_bind, hrun]; rfl⟩

/-- The first check decides. -/
theorem trips_check {s : σ} (h : ¬ p s) (f : Unit → Checked σ α) : Trips (check p >>= f) s :=
  Trips.bind ⟨s, by rw [run_check, if_neg h]⟩ f

theorem Passes.not_trips {y : Checked σ α} {x : StateT σ Option α} (h : Passes I y x) {s : σ}
    (hs : I s) : ¬ Trips y s := by
  intro htrips
  obtain ⟨s', hrun⟩ := htrips
  rw [(h s hs).1] at hrun
  obtain ⟨r, -, hr⟩ := Option.map_eq_some_iff.mp hrun
  cases hr

/-- A program without checks. -/
theorem Passes.lift {x : StateT σ Option α} (h : Keeps (fun s s' ↦ I s → I s') x) :
    Passes I (OptionT.lift x) x := by
  intro s hs
  constructor
  · show (x >>= fun a ↦ pure (some a)).run s = _
    rw [StateT.run_bind]
    cases x.run s with
    | none => rfl
    | some r => rfl
  · intro a s' hrun
    exact h s a s' hrun hs

theorem Passes.bind {y : Checked σ α} {x : StateT σ Option α} {g : α → Checked σ β}
    {f : α → StateT σ Option β} (h : Passes I y x) (hfg : ∀ a, Passes I (g a) (f a)) :
    Passes I (y >>= g) (x >>= f) := by
  intro s hs
  obtain ⟨hrun, hkeeps⟩ := h s hs
  constructor
  · rw [run_checked_bind, hrun, StateT.run_bind]
    cases hx : x.run s with
    | none => rfl
    | some r =>
        obtain ⟨a, s'⟩ := r
        exact (hfg a s' (hkeeps a s' hx)).1
  · intro b s'' hx
    obtain ⟨a, s', hfirst, hrest⟩ := run_bind_eq_some.mp hx
    exact (hfg a s' (hkeeps a s' hfirst)).2 b s'' hrest

theorem Passes.check {y : Checked σ α} {x : StateT σ Option α} (hp : ∀ s, I s → p s)
    (h : Passes I y x) : Passes I (Program.check p >>= fun _ ↦ y) x := by
  intro s hs
  have hrun : (Program.check p >>= fun _ ↦ y).run.run s = y.run.run s := by
    rw [run_checked_bind, run_check, if_pos (hp s hs)]
    rfl
  rw [hrun]
  exact h s hs

theorem Passes.ite {c : Prop} [Decidable c] {y y' : Checked σ α} {x x' : StateT σ Option α}
    (h : Passes I y x) (h' : Passes I y' x') :
    Passes I (if c then y else y') (if c then x else x') := by
  split
  · exact h
  · exact h'

end Checks

end Program
