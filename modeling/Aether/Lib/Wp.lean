import Mathlib.Logic.Basic

/-!
# Total correctness of stateful programs

A program is a function of a state that may fail. `Program.wp x post s` says that `x`, started in
`s`, does not fail and ends with a result and a state in `post`. The rules decompose a program
along its syntax; `wp_mono` replaces a call by the specification of the function called.
-/

namespace Program

variable {σ α β : Type}

/-- `x` started in `s` returns, and its result and final state satisfy `post`. -/
def wp (x : StateT σ Option α) (post : α → σ → Prop) (s : σ) : Prop :=
  ∃ a s', x.run s = some (a, s') ∧ post a s'

/-- A weaker postcondition is met too. -/
theorem wp_mono {x : StateT σ Option α} {post post' : α → σ → Prop} {s : σ} (h : wp x post s)
    (hpost : ∀ a s', post a s' → post' a s') : wp x post' s := by
  obtain ⟨a, s', hrun, ha⟩ := h
  exact ⟨a, s', hrun, hpost a s' ha⟩

/-- The result of a run satisfies what was proved of the program. -/
theorem wp_run {x : StateT σ Option α} {post : α → σ → Prop} {s s' : σ} {a : α} (h : wp x post s)
    (hrun : x.run s = some (a, s')) : post a s' := by
  obtain ⟨b, t, hrun', hb⟩ := h
  obtain ⟨rfl, rfl⟩ : b = a ∧ t = s' := by simpa [hrun'] using hrun
  exact hb

/-- A program with a known run meets exactly what its result meets. -/
theorem wp_of_run {x : StateT σ Option α} {post : α → σ → Prop} {s s' : σ} {a : α}
    (hrun : x.run s = some (a, s')) : wp x post s ↔ post a s' :=
  ⟨fun h ↦ wp_run h hrun, fun h ↦ ⟨a, s', hrun, h⟩⟩

/-- After a program with a known run comes what follows. -/
theorem run_bind_of_run {x : StateT σ Option α} {f : α → StateT σ Option β} {s s' : σ} {a : α}
    (hrun : x.run s = some (a, s')) : (x >>= f).run s = (f a).run s' := by
  rw [StateT.run_bind, hrun]
  rfl

/-- A program that returns did so in both of its parts. -/
theorem run_bind_eq_some {x : StateT σ Option α} {f : α → StateT σ Option β} {s : σ}
    {r : β × σ} : (x >>= f).run s = some r ↔
      ∃ a s', x.run s = some (a, s') ∧ (f a).run s' = some r := by
  rw [StateT.run_bind]
  show Option.bind (x.run s) _ = _ ↔ _
  rw [Option.bind_eq_some_iff]
  exact ⟨fun ⟨⟨a, s'⟩, hx, hf⟩ ↦ ⟨a, s', hx, hf⟩, fun ⟨a, s', hx, hf⟩ ↦ ⟨(a, s'), hx, hf⟩⟩

theorem run_get_bind {f : σ → StateT σ Option α} {s : σ} : (get >>= f).run s = (f s).run s :=
  rfl

theorem run_modify_bind {g : σ → σ} {f : PUnit → StateT σ Option α} {s : σ} :
    (modify g >>= f).run s = (f ⟨⟩).run (g s) :=
  rfl

@[simp] theorem wp_pure {a : α} {post : α → σ → Prop} {s : σ} :
    wp (pure a) post s ↔ post a s :=
  wp_of_run rfl

@[simp] theorem wp_bind {x : StateT σ Option α} {f : α → StateT σ Option β}
    {post : β → σ → Prop} {s : σ} :
    wp (x >>= f) post s ↔ wp x (fun a s' ↦ wp (f a) post s') s := by
  simp only [wp, StateT.run_bind, Option.bind_eq_bind, Option.bind_eq_some_iff, Prod.exists]
  constructor
  · rintro ⟨b, t, ⟨a, s', hx, hf⟩, hpost⟩
    exact ⟨a, s', hx, b, t, hf, hpost⟩
  · rintro ⟨a, s', hx, b, t, hf, hpost⟩
    exact ⟨b, t, ⟨a, s', hx, hf⟩, hpost⟩

@[simp] theorem wp_get {post : σ → σ → Prop} {s : σ} :
    wp (get : StateT σ Option σ) post s ↔ post s s :=
  wp_of_run rfl

@[simp] theorem wp_set {t : σ} {post : PUnit → σ → Prop} {s : σ} :
    wp (set t : StateT σ Option PUnit) post s ↔ post ⟨⟩ t :=
  wp_of_run rfl

@[simp] theorem wp_modify {f : σ → σ} {post : PUnit → σ → Prop} {s : σ} :
    wp (modify f : StateT σ Option PUnit) post s ↔ post ⟨⟩ (f s) :=
  wp_of_run rfl

@[simp] theorem wp_map {f : α → β} {x : StateT σ Option α} {post : β → σ → Prop} {s : σ} :
    wp (f <$> x) post s ↔ wp x (fun a s' ↦ post (f a) s') s := by
  rw [← bind_pure_comp, wp_bind]
  simp

/-- A choice between two programs returns the choice between their results. -/
theorem wp_ite_eq {c : Prop} [Decidable c] {x y : StateT σ Option α} {a b : α} {s t : σ}
    (hx : c → wp x (fun r s' ↦ r = a ∧ s' = t) s) (hy : ¬c → wp y (fun r s' ↦ r = b ∧ s' = t) s) :
    wp (if c then x else y) (fun r s' ↦ r = (if c then a else b) ∧ s' = t) s := by
  by_cases hc : c
  · simpa only [if_pos hc] using hx hc
  · simpa only [if_neg hc] using hy hc

end Program
