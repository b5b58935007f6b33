import Mathlib.Data.Finite.Prod
import Mathlib.Data.Fintype.Card
import Mathlib.Logic.Relation
import Mathlib.Order.WellFounded

/-!
# Chains of pointers

A loop that goes from a position to the next one until there is none. Over finitely many positions
it ends exactly when the chain does not lead from a position back to it.
-/

namespace Chains

open Relation

variable {α : Type*} (next : α → Option α)

/-- The positions from `p` on, `none` when the walk outlasts its fuel. -/
def visits : Nat → α → Option (List α)
  | 0, _ => none
  | fuel + 1, p =>
      match next p with
      | none => some [p]
      | some q => (visits fuel q).map (p :: ·)

/-- The walk from `p` ends. -/
def Ends (p : α) : Prop := ∃ fuel, (visits next fuel p).isSome

/-- The next position. -/
def Hop (p q : α) : Prop := next p = some q

/-- The walk from `p` comes back to a position. -/
def Returns (p : α) : Prop := ∃ q, ReflTransGen (Hop next) p q ∧ TransGen (Hop next) q q

variable {next}

theorem visits_stop {p : α} (h : next p = none) (fuel : Nat) :
    visits next (fuel + 1) p = some [p] := by
  rw [visits, h]

theorem visits_hop {p q : α} (h : next p = some q) (fuel : Nat) :
    visits next (fuel + 1) p = (visits next fuel q).map (p :: ·) := by
  rw [visits, h]

/-- A walk that ends has visited where it began. -/
theorem visits_ne_nil {fuel : Nat} {p : α} {list : List α} (h : visits next fuel p = some list) :
    list ≠ [] := by
  rintro rfl
  cases fuel with
  | zero => cases h
  | succ fuel =>
      cases hnext : next p with
      | none => cases (visits_stop hnext fuel).symm.trans h
      | some q =>
          obtain ⟨_, -, hcons⟩ := Option.map_eq_some_iff.mp ((visits_hop hnext fuel).symm.trans h)
          cases hcons

/-- The walk ends exactly from the positions where induction along the chain is sound. -/
theorem ends_iff_acc {p : α} : Ends next p ↔ Acc (Function.swap (Hop next)) p := by
  constructor
  · rintro ⟨fuel, hfuel⟩
    induction fuel generalizing p with
    | zero => cases hfuel
    | succ fuel ih =>
        refine .intro p fun q hq ↦ ih ?_
        rw [visits_hop hq, Option.isSome_map] at hfuel
        exact hfuel
  · intro hacc
    induction hacc with
    | intro p _ ih =>
        cases hnext : next p with
        | none => exact ⟨1, by rw [visits_stop hnext]; rfl⟩
        | some q =>
            obtain ⟨fuel, hfuel⟩ := ih q hnext
            refine ⟨fuel + 1, ?_⟩
            rw [visits_hop hnext, Option.isSome_map]
            exact hfuel

/-- The positions after an accessible one are accessible. -/
theorem acc_of_reach {p q : α} (h : Acc (Function.swap (Hop next)) p)
    (hreach : ReflTransGen (Hop next) p q) : Acc (Function.swap (Hop next)) q := by
  induction hreach with
  | refl => exact h
  | tail _ hhop ih => exact ih.inv hhop

/-- Nothing accessible comes back to itself. -/
theorem not_returns_of_acc {q : α} (h : Acc (Function.swap (Hop next)) q) :
    ¬ TransGen (Hop next) q q := by
  have htrans := h.transGen
  induction htrans with
  | intro q _ ih =>
      intro hreturn
      exact ih q (transGen_swap.mpr hreturn) h hreturn

/-- Over finitely many positions the walk ends if and only if it does not come back. -/
theorem ends_iff [Finite α] {p : α} : Ends next p ↔ ¬ Returns next p := by
  rw [ends_iff_acc]
  constructor
  · rintro hacc ⟨q, hreach, hreturn⟩
    exact not_returns_of_acc (acc_of_reach hacc hreach) hreturn
  · intro hno
    -- among the positions after `p`, "later than" is a strict order
    let later (a b : { q // ReflTransGen (Hop next) p q }) : Prop :=
      TransGen (Hop next) b.1 a.1
    have htrans : IsTrans _ later := ⟨fun _ _ _ hab hbc ↦ hbc.trans hab⟩
    have hirrefl : Std.Irrefl later := ⟨fun a ha ↦ hno ⟨a.1, a.2, ha⟩⟩
    have hwf : WellFounded later := Finite.wellFounded_of_trans_of_irrefl later
    have hacc : ∀ a, Acc later a → Acc (Function.swap (Hop next)) a.1 := by
      intro a ha
      induction ha with
      | intro a _ ih =>
          refine .intro a.1 fun q hq ↦ ?_
          exact ih ⟨q, a.2.tail hq⟩ (.single hq)
    exact hacc ⟨p, .refl⟩ (hwf.apply _)

end Chains
