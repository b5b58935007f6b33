import Aether.Lib.Transition
import Mathlib.Data.UInt

/-!
# The timer interrupt

`timer.c` and the interrupt handler of `exception.c`, with the generic timer and the interrupt
controller between them: the counter goes on at every point of the handler, and other interrupts
come in at any time. `uptime_tracks` relates the uptime to the counter, and says that no interrupt
of the timer is lost or served twice.
-/

namespace Aether.Kernel

open Transition

/-! ## The machine -/

/-- `TIMER_IRQ_ID`. -/
def timerIrqId : UInt32 := 30

/-- What the core is at: the kernel itself, or a line of `handle_irq_exception`, with what the
acknowledge register read as. -/
inductive IrqPoint where
  | kernel
  | acknowledge
  | dispatch (iar : UInt32)
  | count (iar : UInt32)
  | reload (iar : UInt32)
  | finish (iar : UInt32)
  deriving DecidableEq

/-- The timer with its counter and its compare value; the controller with its pending interrupts and
whether that of the timer is active; and the kernel, with interrupts let through or not. `ticks`
and `late` are for the record: how often the uptime was increased, and by how much the counter was
past the compare value when it was set anew, all in all. -/
structure Clock where
  freq : UInt32
  counter : Nat
  cval : Nat
  pending : Bool
  active : Bool
  others : List UInt32
  unmasked : Bool
  uptimeMs : UInt64
  point : IrqPoint
  ticks : Nat
  late : Nat

namespace Clock

/-- The timer asks for an interrupt. -/
def Due (s : Clock) : Prop := s.cval ≤ s.counter

instance (s : Clock) : Decidable s.Due := inferInstanceAs (Decidable (_ ≤ _))

/-- The number that is written to `cntp_tval_el0`, of which the timer takes the low word. -/
def interval (s : Clock) : Nat := (s.freq.toUInt64 / 100).toUInt32.toNat

/-- The compare value is set relative to the counter. -/
def setTval (s : Clock) : Clock := { s with cval := s.counter + s.interval }

/-- `timer_init`. -/
def timerInit (s : Clock) : Clock := s.setTval

/-- The counter goes on. The controller is told on the edge. -/
def tick (s : Clock) : Clock :=
  { s with
    counter := s.counter + 1
    pending := s.pending || decide (¬ s.Due ∧ s.cval ≤ s.counter + 1) }

/-- The first line of `handle_timer_irq`. -/
def countUptime (s : Clock) : Clock :=
  { s with uptimeMs := s.uptimeMs + 10, ticks := s.ticks + 1 }

/-- Its last one. -/
def reload (s : Clock) : Clock := { s.setTval with late := s.late + (s.counter - s.cval) }

/-- One step: of the counter, of another device, of the kernel, or of the interrupt handler. -/
inductive Step : Clock → Clock → Prop where
  | tick (s : Clock) : Step s s.tick
  | raise (s : Clock) (id : UInt32) : id ≠ timerIrqId → id < 1020 →
      Step s { s with others := id :: s.others }
  | mask (s : Clock) (unmasked : Bool) : s.point = .kernel → Step s { s with unmasked := unmasked }
  | interrupt (s : Clock) : s.point = .kernel → s.unmasked = true →
      (s.pending = true ∧ s.active = false ∨ s.others ≠ []) →
      Step s { s with point := .acknowledge }
  | acknowledgeTimer (s : Clock) : s.point = .acknowledge → s.pending = true → s.active = false →
      Step s { s with pending := false, active := true, point := .dispatch timerIrqId }
  | acknowledgeOther (s : Clock) (id : UInt32) : s.point = .acknowledge → id ∈ s.others →
      Step s { s with others := s.others.erase id, point := .dispatch id }
  | dispatch (s : Clock) (iar : UInt32) : s.point = .dispatch iar → Step s
      { s with point := if iar &&& 0x3FF = timerIrqId then .count iar else .finish iar }
  | count (s : Clock) (iar : UInt32) : s.point = .count iar →
      Step s { s.countUptime with point := .reload iar }
  | reload (s : Clock) (iar : UInt32) : s.point = .reload iar →
      Step s { s.reload with point := .finish iar }
  | finish (s : Clock) (iar : UInt32) : s.point = .finish iar →
      Step s { s with point := .kernel, active := s.active && decide (iar ≠ timerIrqId) }

/-- The kernel has just started the timer at the given reading of the counter, with no interrupt
underway. -/
structure Starts (start : Nat) (s : Clock) : Prop where
  init : ∃ s₀ : Clock, s = s₀.timerInit
  counter : s.counter = start
  pending : s.pending = false
  active : s.active = false
  others : s.others = []
  point : s.point = .kernel
  uptimeMs : s.uptimeMs = 0
  ticks : s.ticks = 0
  late : s.late = 0

/-- The reachable states. -/
def Reaches (start : Nat) : Clock → Prop := Reachable (Starts start) Step

/-! ## What holds in every state -/

/-- The interrupt of the timer is being served, and the timer not yet set anew. -/
def Serving (s : Clock) : Prop := s.active = true ∧ s.point ≠ .finish timerIrqId

/-- What the handler knows at each of its lines. -/
def AtPoint (s : Clock) : Prop :=
  match s.point with
  | .kernel => s.active = false
  | .acknowledge => s.active = false ∧ (s.pending = true ∨ s.others ≠ [])
  | .dispatch iar | .finish iar => iar < 1020 ∧ (iar = timerIrqId ↔ s.active = true)
  | .count iar | .reload iar => iar = timerIrqId ∧ s.active = true

/-- The invariant: the uptime and the compare value as functions of the ticks, and the interrupt of
the timer pending whenever it is due and not being served. -/
structure Sound (start : Nat) (s : Clock) : Prop where
  atPoint : s.AtPoint
  others : ∀ id ∈ s.others, id ≠ timerIrqId ∧ id < 1020
  uptime : s.uptimeMs = UInt64.ofNat (10 * s.ticks)
  told : ¬ s.Serving → (s.Due ↔ s.pending = true)
  serving : s.Serving → s.Due ∧ s.pending = false
  recent : s.cval ≤ s.counter + s.interval
  deadline : s.cval + (if s.point = .reload timerIrqId then s.interval else 0) =
    start + (s.ticks + 1) * s.interval + s.late

section Invariant

variable {start : Nat} {s s' : Clock}

theorem interval_eq (s : Clock) : s.interval = s.freq.toNat / 100 := by
  have hlt := s.freq.toNat_lt
  rw [interval, UInt64.toNat_toUInt32, UInt64.toNat_div, UInt32.toNat_toUInt64]
  exact Nat.mod_eq_of_lt (by simp only [UInt64.reduceToNat]; omega)

theorem interval_pos (hfreq : 100 ≤ s.freq.toNat) : 0 < s.interval := by
  rw [interval_eq]
  exact Nat.div_pos hfreq (by decide)

/-- The numbers of interrupts fit into the bits that the handler looks at. -/
theorem and_mask_eq {iar : UInt32} (h : iar < 1020) : iar &&& 0x3FF = iar := by
  have hnat : iar.toNat < 1020 := h
  refine UInt32.toNat_inj.mp ?_
  rw [UInt32.toNat_and]
  exact (Nat.and_two_pow_sub_one_eq_mod iar.toNat 10).trans (Nat.mod_eq_of_lt (by omega))

theorem Starts.sound (h : Starts start s) (hfreq : 100 ≤ s.freq.toNat) : s.Sound start := by
  have hpos := interval_pos hfreq
  have hactive : ¬ s.Serving := fun hserving ↦
    Bool.false_ne_true (h.active.symm.trans hserving.1)
  have hcval : s.cval = s.counter + s.interval := by
    obtain ⟨s₀, rfl⟩ := h.init
    rfl
  constructor
  · rw [AtPoint, h.point]
    exact h.active
  · simp [h.others]
  · rw [h.uptimeMs, h.ticks]
    rfl
  · intro _
    rw [Due, h.pending, hcval]
    simp only [Bool.false_eq_true, iff_false]
    omega
  · exact fun hserving ↦ absurd hserving hactive
  · exact hcval.le
  · rw [h.point, if_neg nofun, h.ticks, h.late, hcval, h.counter]
    omega

theorem not_serving (hactive : s.active = false) : ¬ s.Serving := fun h ↦
  Bool.false_ne_true (hactive.symm.trans h.1)

/-- What the handler knows stays true while interrupts come in. -/
theorem AtPoint.congr (h : s.AtPoint) (hpoint : s'.point = s.point) (hactive : s'.active = s.active)
    (hwaits : s.pending = true ∨ s.others ≠ [] → s'.pending = true ∨ s'.others ≠ []) :
    s'.AtPoint := by
  unfold AtPoint at h ⊢
  rw [hpoint, hactive]
  cases hat : s.point with
  | acknowledge =>
      simp only [hat] at h ⊢
      exact ⟨h.1, hwaits h.2⟩
  | _ => simpa only [hat] using h

/-- The counter keeps the invariant: the interrupt gets pending when it gets due. -/
theorem Sound.tick (hs : s.Sound start) : s.tick.Sound start := by
  have hdue : s.tick.Due ↔ s.cval ≤ s.counter + 1 := Iff.rfl
  have hpending : s.tick.pending = (s.pending || decide (¬ s.Due ∧ s.cval ≤ s.counter + 1)) := rfl
  constructor
  · refine hs.atPoint.congr rfl rfl (Or.imp_left fun h ↦ ?_)
    rw [hpending, h, Bool.true_or]
  · exact hs.others
  · exact hs.uptime
  · intro hserving
    have htold := hs.told hserving
    rw [hdue, hpending, Bool.or_eq_true, decide_eq_true_eq, ← htold]
    unfold Due
    omega
  · intro hserving
    obtain ⟨hdue, hclear⟩ := hs.serving hserving
    refine ⟨Nat.le_succ_of_le hdue, ?_⟩
    rw [hpending, hclear, decide_eq_false fun h ↦ h.1 hdue, Bool.or_false]
  · exact hs.recent.trans (Nat.add_le_add_right (Nat.le_succ s.counter) s.interval)
  · exact hs.deadline

/-- Every step keeps the invariant. -/
theorem Step.sound (h : Step s s') (hs : s.Sound start) (hfreq : 100 ≤ s.freq.toNat) :
    s'.Sound start := by
  have hatPoint := hs.atPoint
  have hdeadline := hs.deadline
  cases h with
  | tick => exact hs.tick
  | raise id hid hlt =>
      exact ⟨hatPoint.congr rfl rfl fun _ ↦ .inr (List.cons_ne_nil id s.others),
        List.forall_mem_cons.mpr ⟨⟨hid, hlt⟩, hs.others⟩, hs.uptime, hs.told, hs.serving, hs.recent,
        hdeadline⟩
  | mask unmasked hpoint =>
      exact ⟨hatPoint.congr rfl rfl fun h ↦ h, hs.others, hs.uptime, hs.told, hs.serving, hs.recent,
        hdeadline⟩
  | interrupt hpoint hunmasked hwaits =>
      have hactive : s.active = false := by
        rwa [AtPoint, hpoint] at hatPoint
      refine ⟨⟨hactive, hwaits.imp_left And.left⟩, hs.others, hs.uptime,
        fun _ ↦ hs.told (not_serving hactive), fun h ↦ absurd h (not_serving hactive), hs.recent,
        ?_⟩
      rw [hpoint] at hdeadline
      exact hdeadline
  | acknowledgeTimer hpoint hpending hactive =>
      have hdue := (hs.told (not_serving hactive)).mpr hpending
      refine ⟨⟨by decide, iff_of_true rfl rfl⟩, hs.others, hs.uptime,
        fun h ↦ absurd ⟨rfl, nofun⟩ h, fun _ ↦ ⟨hdue, rfl⟩, hs.recent, ?_⟩
      rw [hpoint] at hdeadline
      exact hdeadline
  | acknowledgeOther id hpoint hid =>
      have hactive : s.active = false := by
        rw [AtPoint, hpoint] at hatPoint
        exact hatPoint.1
      obtain ⟨hne, hlt⟩ := hs.others id hid
      refine ⟨⟨hlt, iff_of_false hne (by simp [hactive])⟩,
        fun id' hid' ↦ hs.others id' (List.mem_of_mem_erase hid'), hs.uptime,
        fun _ ↦ hs.told (not_serving hactive), fun h ↦ absurd h (not_serving hactive), hs.recent,
        ?_⟩
      rw [hpoint] at hdeadline
      exact hdeadline
  | dispatch iar hpoint =>
      rw [AtPoint, hpoint] at hatPoint
      obtain ⟨hlt, hiff⟩ := hatPoint
      rw [hpoint] at hdeadline
      rw [and_mask_eq hlt]
      by_cases htimer : iar = timerIrqId
      · have hactive := hiff.mp htimer
        have hserving : s.Serving := ⟨hactive, by rw [hpoint]; exact nofun⟩
        rw [if_pos htimer]
        exact ⟨⟨htimer, hactive⟩, hs.others, hs.uptime, fun h ↦ absurd ⟨hactive, nofun⟩ h,
          fun _ ↦ hs.serving hserving, hs.recent, hdeadline⟩
      · have hactive : s.active = false := by simpa using mt hiff.mpr htimer
        rw [if_neg htimer]
        exact ⟨⟨hlt, hiff⟩, hs.others, hs.uptime, fun _ ↦ hs.told (not_serving hactive),
          fun h ↦ absurd h (not_serving hactive), hs.recent, hdeadline⟩
  | count iar hpoint =>
      rw [AtPoint, hpoint] at hatPoint
      obtain ⟨rfl, hactive⟩ := hatPoint
      have hserving : s.Serving := ⟨hactive, by rw [hpoint]; exact nofun⟩
      rw [hpoint, if_neg nofun] at hdeadline
      refine ⟨⟨rfl, hactive⟩, hs.others, ?_, fun h ↦ absurd ⟨hactive, nofun⟩ h,
        fun _ ↦ hs.serving hserving, hs.recent, ?_⟩
      · show s.uptimeMs + 10 = UInt64.ofNat (10 * (s.ticks + 1))
        rw [hs.uptime, Nat.mul_succ, UInt64.ofNat_add]
        rfl
      · show s.cval + s.interval = start + (s.ticks + 1 + 1) * s.interval + s.late
        rw [Nat.succ_mul]
        omega
  | reload iar hpoint =>
      rw [AtPoint, hpoint] at hatPoint
      obtain ⟨rfl, hactive⟩ := hatPoint
      obtain ⟨hdue, hclear⟩ := hs.serving ⟨hactive, by rw [hpoint]; exact nofun⟩
      have hpos := interval_pos hfreq
      rw [hpoint, if_pos rfl] at hdeadline
      refine ⟨⟨by decide, iff_of_true rfl hactive⟩, hs.others, hs.uptime, fun _ ↦ ?_,
        fun h ↦ absurd rfl h.2, le_rfl, ?_⟩
      · show s.counter + s.interval ≤ s.counter ↔ s.pending = true
        rw [hclear]
        simp only [Bool.false_eq_true, iff_false]
        omega
      · show s.counter + s.interval + 0 =
          start + (s.ticks + 1) * s.interval + (s.late + (s.counter - s.cval))
        unfold Due at hdue
        omega
  | finish iar hpoint =>
      rw [AtPoint, hpoint] at hatPoint
      have hserving : ¬ s.Serving := fun h ↦ h.2 (hpoint.trans (congrArg _ (hatPoint.2.mpr h.1)))
      have hactive : (s.active && decide (iar ≠ timerIrqId)) = false := by
        by_cases htimer : iar = timerIrqId
        · rw [decide_eq_false (not_not_intro htimer), Bool.and_false]
        · rw [show s.active = false by simpa using mt hatPoint.2.mpr htimer, Bool.false_and]
      rw [hpoint] at hdeadline
      exact ⟨hactive, hs.others, hs.uptime, fun _ ↦ hs.told hserving,
        fun h ↦ absurd h (not_serving hactive), hs.recent, hdeadline⟩

theorem Step.freq (h : Step s s') : s'.freq = s.freq := by
  cases h <;> rfl

theorem Reaches.sound (h : Reaches start s) (hfreq : 100 ≤ s.freq.toNat) : s.Sound start := by
  induction h with
  | init h => exact h.sound hfreq
  | step _ hstep ih =>
      rw [hstep.freq] at hfreq
      exact hstep.sound (ih hfreq) hfreq

/-- The handler gets back to the kernel by itself, before the counter goes on. -/
def Returns (s : Clock) : Prop :=
  ∃ s', Relation.ReflTransGen Step s s' ∧ s'.point = .kernel ∧ s'.counter = s.counter

theorem Returns.after (h : Step s s') (hcounter : s'.counter = s.counter) (hs' : s'.Returns) :
    s.Returns := by
  obtain ⟨s'', hsteps, hpoint, hsame⟩ := hs'
  exact ⟨s'', .head h hsteps, hpoint, hsame.trans hcounter⟩

theorem returns_finish {iar : UInt32} (hpoint : s.point = .finish iar) : s.Returns :=
  .after (.finish s iar hpoint) rfl ⟨_, .refl, rfl, rfl⟩

theorem returns_count {iar : UInt32} (hpoint : s.point = .count iar) : s.Returns :=
  .after (.count s iar hpoint) rfl (.after (.reload _ iar rfl) rfl (returns_finish rfl))

theorem returns_dispatch {iar : UInt32} (hpoint : s.point = .dispatch iar) : s.Returns := by
  refine .after (.dispatch s iar hpoint) rfl ?_
  by_cases htimer : iar &&& 0x3FF = timerIrqId
  · rw [if_pos htimer]
    exact returns_count rfl
  · rw [if_neg htimer]
    exact returns_finish rfl

/-- One case per line of the handler. -/
theorem Sound.returns (hs : s.Sound start) : s.Returns := by
  have hatPoint := hs.atPoint
  cases hpoint : s.point with
  | kernel => exact ⟨s, .refl, hpoint, rfl⟩
  | acknowledge =>
      rw [AtPoint, hpoint] at hatPoint
      obtain ⟨hactive, hpending | hothers⟩ := hatPoint
      · exact .after (.acknowledgeTimer s hpoint hpending hactive) rfl (returns_dispatch rfl)
      · obtain ⟨id, hid⟩ := List.exists_mem_of_ne_nil _ hothers
        exact .after (.acknowledgeOther s id hpoint hid) rfl (returns_dispatch rfl)
  | dispatch iar => exact returns_dispatch hpoint
  | count iar => exact returns_count hpoint
  | reload iar => exact .after (.reload s iar hpoint) rfl (returns_finish rfl)
  | finish iar => exact returns_finish hpoint

end Invariant

/-- In every reachable state the uptime is ten milliseconds for each interval of the counter that
went by, less those that were lost because the timer was set anew late: it never runs ahead of the
counter, and with no interrupt pending it is at most one interval behind. In the kernel, the
interrupt of the timer is pending exactly if it is due; and from any line of the handler the kernel
goes on. -/
theorem uptime_tracks (start : Nat) (s : Clock) (h : Reaches start s) (hfreq : 100 ≤ s.freq.toNat) :
    s.uptimeMs = UInt64.ofNat (10 * s.ticks) ∧
    start + s.ticks * (s.freq.toNat / 100) + s.late ≤ s.counter ∧
    (s.point = .kernel → (s.pending = true ↔ s.cval ≤ s.counter) ∧ (s.pending = false →
      s.counter < start + (s.ticks + 1) * (s.freq.toNat / 100) + s.late)) ∧
    ∃ s', Relation.ReflTransGen Step s s' ∧ s'.point = .kernel ∧ s'.counter = s.counter := by
  have hs := h.sound hfreq
  have hdeadline := hs.deadline
  have hrecent := hs.recent
  have hsucc : (s.ticks + 1) * (s.freq.toNat / 100) =
      s.ticks * (s.freq.toNat / 100) + s.freq.toNat / 100 := Nat.succ_mul ..
  rw [interval_eq] at hdeadline hrecent
  refine ⟨hs.uptime, ?_, fun hpoint ↦ ?_, hs.returns⟩
  · by_cases hpoint : s.point = .reload timerIrqId
    · have hatPoint := hs.atPoint
      rw [AtPoint, hpoint] at hatPoint
      have hdue : s.cval ≤ s.counter := (hs.serving ⟨hatPoint.2, by rw [hpoint]; exact nofun⟩).1
      rw [if_pos hpoint] at hdeadline
      omega
    · rw [if_neg hpoint] at hdeadline
      omega
  · have hactive : s.active = false := by
      have hatPoint := hs.atPoint
      rwa [AtPoint, hpoint] at hatPoint
    have htold := hs.told (not_serving hactive)
    refine ⟨htold.symm, fun hpending ↦ ?_⟩
    rw [hpoint, if_neg nofun] at hdeadline
    have hearly : ¬ s.cval ≤ s.counter := fun hdue ↦
      Bool.false_ne_true (hpending.symm.trans (htold.mp hdue))
    omega

/-- The kernel just after `timer_init`, on a counter of 200 Hz. -/
def sample : Clock := timerInit ⟨200, 1000, 0, false, false, [], true, 0, .kernel, 0, 0⟩

/-- One interrupt, which is served while the counter goes on. -/
theorem uptime_tracks_interrupt : ∃ s, Reaches 1000 s ∧ s.point = .kernel ∧ s.ticks = 1 ∧
    s.late = 1 ∧ s.uptimeMs = 10 ∧ 1000 + 2 + 1 ≤ s.counter ∧ s.counter < 1000 + 2 * 2 + 1 := by
  have hinit : Reaches 1000 sample :=
    .init ⟨⟨_, rfl⟩, rfl, rfl, rfl, rfl, rfl, rfl, rfl, rfl⟩
  have hdue : Reaches 1000 sample.tick.tick := (hinit.step (.tick _)).step (.tick _)
  have hcounted := (((hdue.step (.interrupt _ rfl rfl (.inl ⟨rfl, rfl⟩))).step
    (.acknowledgeTimer _ rfl rfl rfl)).step (.dispatch _ _ rfl)).step (.count _ _ rfl)
  have hback := ((hcounted.step (.tick _)).step (.reload _ _ rfl)).step (.finish _ _ rfl)
  obtain ⟨huptime, hbound, hkernel, -⟩ := uptime_tracks 1000 _ hback (by decide)
  exact ⟨_, hback, rfl, rfl, rfl, huptime, hbound, (hkernel rfl).2 rfl⟩

end Clock

end Aether.Kernel
