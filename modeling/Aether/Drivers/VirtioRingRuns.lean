import Aether.Drivers.AvailRing
import Aether.Lib.Transition

/-!
# A virtqueue shared with a device

Runs of one virtqueue in which the driver takes, publishes and pops descriptors and a conforming
device takes ids from the available ring and completes them, in any order. `Exchange` keeps, beside
the queue and what the device knows of it, what went each way so far, oldest first.
-/

namespace Aether.Drivers

open Kernel Transition

/-- A virtqueue in use, with the descriptor that the driver has taken and not published yet, the
device's reading of the available ring, and the histories of both sides: what the driver handed
over, what the device took from the ring and completed, and what the driver popped. -/
structure Exchange where
  vq : Virtqueue
  stats : NetStats := {}
  taken : Option UInt16 := none
  device : AvailReader := {}
  pushed : List UInt16 := []
  received : List UInt16 := []
  completed : List UInt16 := []
  popped : List UInt16 := []

namespace Exchange

/-- After `virtqueue_init` over zeroed ring memory at `p`. -/
def start (size index : UInt16) (p : Nat) : Exchange :=
  { vq := virtqueueInit .zeroed size index p }

/-- The driver calls `virtqueue_add_descriptor`. -/
def add (s : Exchange) (addr : Nat) (len : UInt32) (flags : UInt16) : Exchange :=
  let (head, vq, stats) := virtqueueAddDescriptor s.vq s.stats addr len flags
  { s with vq := vq, stats := stats, taken := some head }

/-- The driver calls `virtqueue_push_available`. -/
def push (s : Exchange) (head : UInt16) : Exchange :=
  { s with vq := virtqueuePushAvailable s.vq head, taken := none, pushed := s.pushed ++ [head] }

/-- The device reads an entry of the available ring. -/
def fetch (s : Exchange) : Exchange :=
  { s with device := s.device.fetch s.vq, received := s.received ++ [s.device.next s.vq] }

/-- The device completes a descriptor. -/
def complete (s : Exchange) (id : UInt16) (len : UInt32) : Exchange :=
  { s with
    vq := deviceComplete s.vq id len
    device := s.device.finish id
    completed := s.completed ++ [id] }

/-- The driver calls `virtqueue_pop_used`. -/
def pop (s : Exchange) : Exchange :=
  let (receipt, vq, stats) := virtqueuePopUsed s.vq s.stats
  { s with vq := vq, stats := stats, popped := s.popped ++ (receipt.map Prod.fst).toList }

/-- The ids that are published and not completed: those that the device took from the ring, and the
entries of the ring that it has yet to read. -/
def outstanding (s : Exchange) : List UInt16 := s.device.outstanding s.vq

/-- One action of the driver or of a conforming device. The driver publishes what it took before
it takes another descriptor; the device reads the available ring up to `avail.idx`, and completes
only what it took from there and has not completed. -/
inductive Step : Exchange → Exchange → Prop where
  | add {s : Exchange} (addr : Nat) (len : UInt32) (flags : UInt16) :
      s.taken = none → s.vq.numFree ≠ 0 → Step s (s.add addr len flags)
  | push {s : Exchange} {head : UInt16} : s.taken = some head → Step s (s.push head)
  | fetch {s : Exchange} : s.device.lastAvailIdx ≠ s.vq.availIdx → Step s s.fetch
  | complete {s : Exchange} {id : UInt16} (len : UInt32) :
      id ∈ s.device.fetched → Step s (s.complete id len)
  | pop {s : Exchange} : Step s s.pop

/-- The states that runs reach from a freshly initialised queue. -/
abbrev Reaches (size index : UInt16) (p : Nat) : Exchange → Prop :=
  Reachable (· = start size index p) Step

/-- The four indices count what went through the rings, modulo 2^16. -/
structure Indexed (s : Exchange) : Prop where
  avail : s.vq.availIdx = UInt16.ofNat s.pushed.length
  lastAvail : s.device.lastAvailIdx = UInt16.ofNat s.received.length
  used : s.vq.usedIdx = UInt16.ofNat s.completed.length
  lastUsed : s.vq.lastUsedIdx = UInt16.ofNat s.popped.length

/-- Every descriptor is in one place, the size stays, what is with the device is what the available
ring says, and of both histories the rings hold the part that the other side has yet to see. -/
structure Sound (size : UInt16) (s : Exchange) : Prop where
  balanced : s.vq.Balanced s.taken.toList
  size : s.vq.size = size
  tied : s.device.Tied s.vq
  handed : s.pushed = s.received ++ s.vq.unfetched s.device.lastAvailIdx
  served : s.received.Perm (s.completed ++ s.device.fetched)
  history : s.completed = s.popped ++ s.vq.pendingIds
  indexed : s.Indexed

/-- One more thing goes through a ring. -/
theorem index_succ {idx : UInt16} {ids : List UInt16} (h : idx = UInt16.ofNat ids.length)
    (id : UInt16) : idx + 1 = UInt16.ofNat (ids ++ [id]).length := by
  rw [List.length_append, List.length_singleton, UInt16.ofNat_add, h]
  rfl

/-- Taking a descriptor leaves the available ring alone. -/
theorem Sound.add {size : UInt16} {s : Exchange} (h : s.Sound size) (htaken : s.taken = none)
    (hfree : s.vq.numFree ≠ 0) (addr : Nat) (len : UInt32) (flags : UInt16) :
    (s.add addr len flags).Sound size := by
  have hbal := h.balanced
  rw [htaken] at hbal
  have hadded := hbal.add hfree s.stats addr len flags
  unfold Exchange.add
  rw [Virtqueue.add_eq hfree] at hadded ⊢
  exact ⟨hadded, h.size, h.tied, h.handed, h.served, h.history, ⟨h.indexed.avail,
    h.indexed.lastAvail, h.indexed.used, h.indexed.lastUsed⟩⟩

/-- Publishing a descriptor appends it to the available ring. -/
theorem Sound.push {size : UInt16} {s : Exchange} (h : s.Sound size) {head : UInt16}
    (htaken : s.taken = some head) : (s.push head).Sound size := by
  have hbal := h.balanced
  rw [htaken] at hbal
  -- the descriptor in the driver's hands leaves room in the ring
  have hroom : s.vq.published.length < s.vq.size.toNat := by
    have hlength := hbal.length_eq
    rw [Option.toList_some, List.length_singleton] at hlength
    omega
  have hhead : head < s.vq.size := hbal.lt_size (by simp)
  have hunfetched : (s.vq.unfetched s.device.lastAvailIdx).length < s.vq.size.toNat := by
    have hlength := h.tied.length_eq
    rw [AvailReader.outstanding, List.length_append] at hlength
    omega
  refine ⟨hbal.push, h.size, h.tied.push hbal.size_dvd hroom hhead, ?_, h.served, h.history,
    ⟨index_succ h.indexed.avail head, h.indexed.lastAvail, h.indexed.used, h.indexed.lastUsed⟩⟩
  show s.pushed ++ [head] =
    s.received ++ (virtqueuePushAvailable s.vq head).unfetched s.device.lastAvailIdx
  rw [AvailReader.unfetched_push hbal.size_dvd hunfetched, h.handed, List.append_assoc]

/-- Reading the available ring changes nothing of it. -/
theorem Sound.fetch {size : UInt16} {s : Exchange} (h : s.Sound size)
    (hne : s.device.lastAvailIdx ≠ s.vq.availIdx) : s.fetch.Sound size := by
  refine ⟨h.balanced, h.size, h.tied.fetch hne, ?_, ?_, h.history, ⟨h.indexed.avail,
    index_succ h.indexed.lastAvail _, h.indexed.used, h.indexed.lastUsed⟩⟩
  · show s.pushed = s.received ++ [s.device.next s.vq] ++
      s.vq.unfetched (s.device.lastAvailIdx + 1)
    rw [h.handed, AvailReader.unfetched_of_ne hne, List.append_assoc, List.singleton_append]
  · show (s.received ++ [_]).Perm (s.completed ++ (s.device.fetched ++ [_]))
    rw [← List.append_assoc]
    exact h.served.append_right _

/-- A completion appends to the used ring. -/
theorem Sound.complete {size : UInt16} {s : Exchange} (h : s.Sound size) {id : UInt16}
    (hid : id ∈ s.device.fetched) (len : UInt32) : (s.complete id len).Sound size := by
  have hpublished := h.tied.mem hid
  refine ⟨h.balanced.complete hpublished len, h.size, h.tied.complete hid len, h.handed, ?_, ?_,
    ⟨h.indexed.avail, h.indexed.lastAvail, index_succ h.indexed.used id, h.indexed.lastUsed⟩⟩
  · refine h.served.trans ?_
    show (s.completed ++ s.device.fetched).Perm (s.completed ++ [id] ++ s.device.fetched.erase id)
    rw [List.append_assoc]
    exact (List.perm_cons_erase hid).append_left _
  · show s.completed ++ [id] = s.popped ++ (deviceComplete s.vq id len).pendingIds
    rw [h.balanced.pendingIds_complete hpublished len, h.history, List.append_assoc]

/-- Popping takes the oldest completion off the used ring. -/
theorem Sound.pop {size : UInt16} {s : Exchange} (h : s.Sound size) : s.pop.Sound size := by
  cases hpending : s.vq.pendingIds with
  | nil =>
      simp only [Exchange.pop, Virtqueue.popUsed_of_nil s.stats hpending]
      exact ⟨h.balanced, h.size, h.tied, h.handed, h.served, by simpa using h.history,
        ⟨h.indexed.avail, h.indexed.lastAvail, h.indexed.used, by simpa using h.indexed.lastUsed⟩⟩
  | cons id rest =>
      obtain ⟨⟨len, hpop⟩, hrest⟩ := h.balanced.popUsed_of_cons s.stats hpending
      simp only [Exchange.pop, hpop]
      refine ⟨h.balanced.recycle hpending, h.size, h.tied, h.handed, h.served, ?_,
        ⟨h.indexed.avail, h.indexed.lastAvail, h.indexed.used, index_succ h.indexed.lastUsed id⟩⟩
      simp only [Option.map_some, Option.toList_some, hrest]
      rw [h.history, hpending, List.append_assoc, List.singleton_append]

/-- Each action keeps the exchange sound. -/
theorem Sound.step {size : UInt16} {s s' : Exchange} (h : s.Sound size) (hstep : Step s s') :
    s'.Sound size := by
  cases hstep with
  | add addr len flags htaken hfree => exact h.add htaken hfree addr len flags
  | push htaken => exact h.push htaken
  | fetch hne => exact h.fetch hne
  | complete len hid => exact h.complete hid len
  | pop => exact h.pop

/-- The exchange is sound in every state that a run reaches. -/
theorem Reaches.sound {k : Nat} (hk : k ≤ 15) {index : UInt16} {p : Nat} {s : Exchange}
    (h : Reaches (UInt16.ofNat (2 ^ k)) index p s) : s.Sound (UInt16.ofNat (2 ^ k)) := by
  refine h.invariant (Sound (UInt16.ofNat (2 ^ k))) ?_ fun _ _ hs hstep ↦ hs.step hstep
  rintro _ rfl
  have htied := AvailReader.tied_init (UInt16.ofNat (2 ^ k)) index p
  exact ⟨Virtqueue.balanced_init hk index p, rfl, htied, List.nil_perm.mp htied |>.symm, .refl _,
    (Virtqueue.pendingIds_init _ index p).symm, ⟨rfl, rfl, rfl, rfl⟩⟩

end Exchange

end Aether.Drivers
