import Aether.Ethernet.Accounting
import Aether.Ethernet.Resets
import Mathlib.Logic.Function.Basic

/-!
# Two nodes and the segments between them

A segment that a node looks up was put on the wire by somebody else, or sent by one of the nodes.
If no reset is answered, and no segment with ACK opens a connection, then the segments that others
put on the wire bound the resets that the nodes send.
-/

namespace Aether.Ethernet

open ByteMemory Kernel Common Program Transition

/-! ## The network -/

/-- One of two nodes. -/
inductive Side where
  | left
  | right
  deriving DecidableEq

/-- Two nodes, the segments on their way, and how many of them nodes did not send. -/
structure Network where
  node : Side → Node
  inFlight : List Message
  injected : Nat

/-- One step of the network. A segment is put on the wire, is lost, or arrives at a node, which puts
on the wire what it emits; or a node does something in which TCP has no part. -/
inductive Network.Step : Network → Network → Prop where
  | inject (net : Network) (m : Message) :
      Step net { net with inFlight := m :: net.inFlight, injected := net.injected + 1 }
  | lose (net : Network) (m : Message) : Step net { net with inFlight := net.inFlight.erase m }
  | deliver {net : Network} {i : Side} {m : Message} {σ' : Node} :
      m ∈ net.inFlight → m.dstIp = (net.node i).aetherIp → m.bytes.length < 2 ^ 16 →
      (tcpInputProcess 0 (UInt16.ofNat m.bytes.length) m.srcIp m.dstIp).run
        ((net.node i).written m.bytes) = some ((), σ') →
      Step net { net with
        node := Function.update net.node i σ'
        inFlight := (net.node i).emits σ' ++ net.inFlight.erase m }
  | work {net : Network} {i : Side} {σ' : Node} {below : List Event} :
      Node.Step (net.node i) σ' → σ'.log = below ++ (net.node i).log →
      (∀ e ∈ below, e.IsBelow) → Step net { net with node := Function.update net.node i σ' }

/-- The nodes start, and any segments are on their way. -/
structure Network.Starts (c : Side → Setup) (net : Network) : Prop where
  nodes : ∀ i, (c i).Starts (net.node i)
  injected : net.injected = net.inFlight.length

/-- A number of both nodes together. -/
def Network.total (net : Network) (f : Node → Nat) : Nat :=
  f (net.node .left) + f (net.node .right)

/-- The resets that the nodes sent. -/
def Network.resets (net : Network) : Nat := net.total fun σ ↦ σ.log.countP Event.isReset

/-! ## Conservation of segments -/

/-- The message is a segment for which `P` holds. -/
def Message.carries (P : Segment → Bool) (m : Message) : Bool := (Segment.parse m.bytes).any P

/-- How many segments with `P` the node looked up. -/
def Node.lookedUp (P : Segment → Bool) (σ : Node) : Nat :=
  σ.log.countP (Event.looksUp fun seg _ ↦ P seg)

/-- How many segments with `P` the node sent. -/
def Node.sent (P : Segment → Bool) (σ : Node) : Nat :=
  (σ.log.filterMap Event.message).countP (Message.carries P)

/-- Segments are looked up or on their way only if somebody sent them. -/
def Network.Conserved (net : Network) : Prop :=
  ∀ P : Segment → Bool, net.total (Node.lookedUp P) + net.inFlight.countP (Message.carries P) ≤
    net.injected + net.total (Node.sent P)

section Delivery

variable {c : Setup} {σ σ' : Node} {m : Message}

/-- A record that grew is its old part and the new events. -/
theorem Node.log_eq (h : σ.log <:+ σ'.log) : σ'.log = σ.newEvents σ' ++ σ.log := by
  obtain ⟨new, hnew⟩ := h
  rw [Node.newEvents, ← hnew, newer_append]

/-- An arriving segment is looked up at most once, and the node sends what it emits. -/
theorem Setup.Reaches.deliver (h : c.Reaches σ) (hip : m.dstIp = σ.aetherIp)
    (hlen : m.bytes.length < 2 ^ 16)
    (hrun : (tcpInputProcess 0 (UInt16.ofNat m.bytes.length) m.srcIp m.dstIp).run
      (σ.written m.bytes) = some ((), σ')) :
    c.Reaches σ' ∧ ∀ P, σ'.lookedUp P ≤ σ.lookedUp P + (if m.carries P then 1 else 0) ∧
      σ'.sent P = (σ.emits σ').countP (Message.carries P) + σ.sent P := by
  have hwritten : c.Reaches (σ.written m.bytes) := h.step (.receive σ.rxQueue _)
  obtain ⟨L, hs⟩ := hwritten.sound
  have hlength : (UInt16.ofNat m.bytes.length).toNat = m.bytes.length := by
    rw [UInt16.toNat_ofNat_of_lt' (by rw [UInt16.size]; omega)]
  have hcip : m.dstIp = c.ip := hip.trans hs.ip
  obtain ⟨L', hL', -, hcase⟩ := wp_run (tcpInputProcess_receives hs.holds _ _ _ _) hrun
  have hemits : σ.log <:+ σ'.log → ∀ P,
      σ'.sent P = (σ.emits σ').countP (Message.carries P) + σ.sent P := by
    intro hgrows P
    rw [Node.sent, Node.log_eq hgrows, List.filterMap_append, List.countP_append]
    rfl
  refine ⟨hwritten.step (.segment (by rwa [hip] at hrun)), fun P ↦ ?_⟩
  rcases hcase with hsame | ⟨seg, hseg, hreceives⟩
  · have hlog : σ'.log = σ.log := congrArg Server.log hsame
    refine ⟨?_, hemits (hlog ▸ List.suffix_rfl) P⟩
    rw [Node.lookedUp, hlog]
    exact Nat.le_add_right _ _
  · have hparse := hseg.1
    rw [hlength, Node.written, read_write_same] at hparse
    have hcarries : m.carries P = P seg := by rw [Message.carries, hparse, Option.any_some]
    refine ⟨?_, hemits hreceives.log P⟩
    rw [hcip] at hreceives
    rw [hcarries]
    exact (hreceives.countP_lookups hs.tabled P).le

end Delivery

section Conservation

variable {c : Side → Setup} {net net' : Network}

/-- Changing one node changes the total by the difference. -/
theorem Network.total_update (net : Network) (i : Side) (σ' : Node) (f : Node → Nat)
    (inFlight : List Message) (injected : Nat) :
    Network.total ⟨Function.update net.node i σ', inFlight, injected⟩ f + f (net.node i) =
      net.total f + f σ' := by
  cases i with
  | left =>
      have hother : Function.update net.node .left σ' .right = net.node .right :=
        Function.update_of_ne (by simp) σ' net.node
      simp only [total, Function.update_self, hother]
      omega
  | right =>
      have hother : Function.update net.node .right σ' .left = net.node .left :=
        Function.update_of_ne (by simp) σ' net.node
      simp only [total, Function.update_self, hother]
      omega

/-- Changing one node of reachable ones to a reachable one. -/
theorem Network.reaches_update {i : Side} {σ' : Node} (h : ∀ i, (c i).Reaches (net.node i))
    (h' : (c i).Reaches σ') : ∀ j, (c j).Reaches (Function.update net.node i σ' j) := by
  intro j
  by_cases hj : j = i
  · subst hj
    rwa [Function.update_self]
  · rw [Function.update_of_ne hj]
    exact h j

/-- The layers below look nothing up and send no segment. -/
theorem Event.IsBelow.counts {e : Event} (he : e.IsBelow) (P : Segment → Bool) :
    e.looksUp (fun seg _ ↦ P seg) = false ∧ e.message = none := by
  rcases he with he | ⟨frame, rfl⟩
  · refine ⟨?_, he.message⟩
    cases e with
    | lookup => cases he
    | _ => rfl
  · exact ⟨rfl, rfl⟩

/-- A step of the network conserves segments and is made of steps of the nodes. -/
theorem Network.Step.conserves (h : Network.Step net net')
    (hreaches : ∀ i, (c i).Reaches (net.node i)) (hconserved : net.Conserved) :
    (∀ i, (c i).Reaches (net'.node i)) ∧ net'.Conserved := by
  cases h with
  | inject m =>
      refine ⟨hreaches, fun P ↦ ?_⟩
      have hbefore := hconserved P
      have hcons := List.countP_le_length (p := Message.carries P) (l := [m])
      show net.total _ + List.countP _ ([m] ++ net.inFlight) ≤ net.injected + 1 + net.total _
      rw [List.countP_append]
      rw [List.length_singleton] at hcons
      omega
  | lose m =>
      refine ⟨hreaches, fun P ↦ (Nat.add_le_add_left ?_ _).trans (hconserved P)⟩
      exact (List.erase_sublist).countP_le
  | @deliver i m σ' hm hip hlen hrun =>
      obtain ⟨hreaches', hcounts⟩ := (hreaches i).deliver hip hlen hrun
      refine ⟨reaches_update hreaches hreaches', fun P ↦ ?_⟩
      obtain ⟨hlooked, hsent⟩ := hcounts P
      have hbefore := hconserved P
      -- the message is taken from the wire as it is looked up
      have hperm := (List.perm_cons_erase hm).countP_eq (Message.carries P)
      rw [List.countP_cons] at hperm
      have hlookedUp := net.total_update i σ' (Node.lookedUp P)
        ((net.node i).emits σ' ++ net.inFlight.erase m) net.injected
      have hsentBy := net.total_update i σ' (Node.sent P)
        ((net.node i).emits σ' ++ net.inFlight.erase m) net.injected
      show Network.total _ _ + List.countP _ (_ ++ _) ≤ net.injected + Network.total _ _
      rw [List.countP_append]
      omega
  | @work i σ' below hstep hlog hbelow =>
      refine ⟨reaches_update hreaches ((hreaches i).step hstep), fun P ↦ ?_⟩
      have hbefore := hconserved P
      have hlooked : σ'.lookedUp P = (net.node i).lookedUp P := by
        rw [Node.lookedUp, hlog, List.countP_append, List.countP_eq_zero.mpr, Nat.zero_add]
        · rfl
        · intro e he
          simp [((hbelow e he).counts P).1]
      have hsent : σ'.sent P = (net.node i).sent P := by
        rw [Node.sent, hlog, List.filterMap_append, List.filterMap_eq_nil_iff.mpr]
        · rfl
        · exact fun e he ↦ ((hbelow e he).counts P).2
      have hlookedUp := net.total_update i σ' (Node.lookedUp P) net.inFlight net.injected
      have hsentBy := net.total_update i σ' (Node.sent P) net.inFlight net.injected
      show Network.total _ _ + List.countP _ net.inFlight ≤ net.injected + Network.total _ _
      omega

/-- Every run of the network conserves segments. -/
theorem Network.conserved (h : Reachable (Network.Starts c) Network.Step net) :
    (∀ i, (c i).Reaches (net.node i)) ∧ net.Conserved := by
  refine h.invariant (fun net ↦ (∀ i, (c i).Reaches (net.node i)) ∧ net.Conserved)
    (fun net hstarts ↦ ?_) fun net net' hnet hstep ↦ hstep.conserves hnet.1 hnet.2
  refine ⟨fun i ↦ .init (hstarts.nodes i), fun P ↦ ?_⟩
  have hnothing : ∀ i, (net.node i).lookedUp P = 0 := by
    intro i
    obtain ⟨⟨L, -, hserver⟩, -⟩ := wp_run (initialise_spec (c i)) (hstarts.nodes i)
    have hlog : (net.node i).log = [] := congrArg Server.log hserver
    rw [Node.lookedUp, hlog, List.countP_nil]
  rw [total, hnothing, hnothing, hstarts.injected]
  have := List.countP_le_length (p := Message.carries P) (l := net.inFlight)
  omega

end Conservation

/-! ## Bounds -/

/-- A segment with RST found a connection that does not answer it, and a segment that found none
opens none if it has ACK. -/
def Event.Orderly : Event → Prop
  | .lookup _ _ seg (some (_, c)) => seg.Has tcpFlagRst → ¬ c.Answers seg
  | .lookup _ _ seg none => ¬ seg.Has tcpFlagRst ∧ (seg.Opens → ¬ seg.Has tcpFlagAck)
  | _ => True

instance (e : Event) : Decidable e.Orderly :=
  match e with
  | .lookup _ _ _ (some _) => inferInstanceAs (Decidable (_ → _))
  | .lookup _ _ _ none => inferInstanceAs (Decidable (_ ∧ _))
  | .received _ | .passiveOpen .. | .removed _ | .handed .. | .reset .. | .dispatched ..
  | .transmitted _ | .ringFull | .noMemory => inferInstanceAs (Decidable True)

/-- The segment is no reset. -/
def Segment.isProper (seg : Segment) : Bool := decide (¬ seg.Has tcpFlagRst)

/-- The segment is a SYN without ACK. -/
def Segment.isBareSyn (seg : Segment) : Bool :=
  decide (seg.Has tcpFlagSyn ∧ ¬ seg.Has tcpFlagAck)

section Bounds

variable {c : Setup} {σ : Node}

/-- The accounts of a reachable node. -/
theorem Setup.Reaches.accounted (h : c.Reaches σ) : ∃ s : Server, s.log = σ.log ∧ s.Accounted := by
  obtain ⟨L, hs⟩ := h.sound
  have hstart : c.server.Accounted := ⟨Nat.zero_le _, Nat.zero_le _, Nat.zero_le _, by
    intro e he
    cases he⟩
  refine ⟨σ.server L, rfl, Server.Run.accounted hs.run ⟨.nil, .nil, ?_, ?_, ?_⟩ hstart⟩
  · intro e he
    cases he
  · intro e he
    cases he
  · intro e he
    cases he

/-- In an orderly run only segments without RST cause resets. -/
theorem Setup.Reaches.resets_le (h : c.Reaches σ) (horderly : ∀ e ∈ σ.log, e.Orderly) :
    σ.log.countP Event.isReset ≤ σ.lookedUp Segment.isProper := by
  obtain ⟨s, hlog, haccounted⟩ := h.accounted
  have hresets := haccounted.resets
  rw [hlog] at hresets
  refine hresets.trans (List.countP_mono_left fun e he hcause ↦ ?_)
  have hproper := horderly e he
  cases e with
  | lookup srcIp dstIp seg found =>
      cases found with
      | none => exact decide_eq_true hproper.1
      | some found => cases hcause
  | _ => cases hcause

/-- In an orderly run a segment other than a reset is paid for by a SYN without ACK. -/
theorem Setup.Reaches.sent_le (h : c.Reaches σ) (horderly : ∀ e ∈ σ.log, e.Orderly) :
    σ.sent Segment.isProper ≤ 6 * σ.lookedUp Segment.isBareSyn := by
  obtain ⟨s, hlog, haccounted⟩ := h.accounted
  have hhanded := haccounted.handed
  have hopenings := haccounted.openings
  have hwell := haccounted.wellSent
  rw [hlog] at hhanded hopenings hwell
  have hsent : σ.sent Segment.isProper ≤ σ.log.countP Event.isHanded := by
    rw [Node.sent, List.countP_filterMap]
    refine List.countP_mono_left fun e he hproper ↦ ?_
    cases e with
    | handed => rfl
    | reset srcIp dstIp bytes =>
        obtain ⟨seg, hparse, hrst, -⟩ := hwell _ he
        simp [Event.message, Message.carries, hparse, Segment.isProper, hrst] at hproper
    | _ => cases hproper
  have hbare : σ.log.countP (Event.looksUp opensConnection) ≤ σ.lookedUp Segment.isBareSyn := by
    refine List.countP_mono_left fun e he hopens ↦ ?_
    have hack := horderly e he
    cases e with
    | lookup srcIp dstIp seg found =>
        cases found with
        | none =>
            have hopens : seg.Opens := of_decide_eq_true hopens
            exact decide_eq_true ⟨hopens.1, hack.2 hopens⟩
        | some found => cases hopens
    | _ => cases hopens
  omega

/-- Nodes send no SYN without ACK. -/
theorem Setup.Reaches.sent_bareSyn (h : c.Reaches σ) : σ.sent Segment.isBareSyn = 0 := by
  obtain ⟨s, hlog, haccounted⟩ := h.accounted
  have hwell := haccounted.wellSent
  rw [hlog] at hwell
  refine List.countP_eq_zero.mpr fun m hm hbare ↦ ?_
  obtain ⟨e, he, hmessage⟩ := List.mem_filterMap.mp hm
  have hsent := hwell e he
  cases e with
  | handed q conn bytes =>
      obtain ⟨seg, hparse, -, hack⟩ := hsent
      cases hmessage
      simp [Message.carries, hparse, Segment.isBareSyn, hack] at hbare
  | reset srcIp dstIp bytes =>
      obtain ⟨seg, hparse, -, hsyn⟩ := hsent
      cases hmessage
      simp [Message.carries, hparse, Segment.isBareSyn, hsyn] at hbare
  | _ => cases hmessage

/-- In an orderly run of the network every seven resets need a segment that nodes did not send. -/
theorem Network.resets_le {c : Side → Setup} {net : Network}
    (h : Reachable (Network.Starts c) Network.Step net)
    (horderly : ∀ i, ∀ e ∈ (net.node i).log, e.Orderly) : net.resets ≤ 7 * net.injected := by
  obtain ⟨hreaches, hconserved⟩ := Network.conserved h
  have hresets := fun i ↦ (hreaches i).resets_le (horderly i)
  have hsent := fun i ↦ (hreaches i).sent_le (horderly i)
  have hnone := fun i ↦ (hreaches i).sent_bareSyn
  have hproper := hconserved Segment.isProper
  have hbare := hconserved Segment.isBareSyn
  have hleft := hresets .left
  have hright := hresets .right
  have hsentLeft := hsent .left
  have hsentRight := hsent .right
  unfold Network.total at hproper hbare
  rw [hnone, hnone] at hbare
  show (net.node .left).log.countP Event.isReset + (net.node .right).log.countP Event.isReset ≤
    7 * net.injected
  omega

end Bounds

/-- In every reachable state, what arrives with RST set is not answered exactly if, in case it is a
valid segment, it belongs to a connection that does not answer it; an answer can fail only for lack
of memory. And in every run of two nodes in which resets always find such a connection, and segments
with ACK open none, the segments that others put on the wire bound the resets of the nodes. -/
theorem resets_unanswered (c : Setup) (σ : Node) (h : c.Reaches σ) (segment : Nat) (len : UInt16)
    (srcIp dstIp : UInt32) (conns : List (Nat × Conn)) (hconns : σ.connections = some conns)
    (setup : Side → Setup) (net : Network)
    (hnet : Reachable (Network.Starts setup) Network.Step net) :
    ((TcpHdr.ofBytes (readBytes σ.rxBuffers segment len.toNat)).flags &&& tcpFlagRst ≠ 0 →
      ∃ σ', (tcpInputProcess segment len srcIp dstIp).run σ = some ((), σ') ∧
        ((∀ seg, σ.HasSegment segment len srcIp dstIp seg → seg.Unanswered srcIp dstIp conns) →
          σ.emits σ' = []) ∧
        (.noMemory ∉ σ.newEvents σ' → σ.emits σ' = [] →
          ∀ seg, σ.HasSegment segment len srcIp dstIp seg → seg.Unanswered srcIp dstIp conns)) ∧
    ((∀ i, ∀ e ∈ (net.node i).log, e.Orderly) → net.resets ≤ 7 * net.injected) := by
  refine ⟨fun _ ↦ ?_, Network.resets_le hnet⟩
  obtain ⟨L, hs⟩ := h.sound
  rw [hs.holds.connections_eq, Option.some.injEq] at hconns
  subst hconns
  by_cases hsome : ∃ seg, σ.HasSegment segment len srcIp dstIp seg
  · obtain ⟨seg, hseg⟩ := hsome
    obtain ⟨⟨⟩, σ', hrun, L', hL', -, hreceives⟩ := receives_segment hs.holds hseg
    obtain ⟨new, hlog, hsilent, hspoken⟩ := hreceives.answered hs.tabled
    have hnew : σ.newEvents σ' = new := Node.newEvents_eq hlog
    have hunique : ∀ seg', σ.HasSegment segment len srcIp dstIp seg' → seg' = seg :=
      fun seg' hseg' ↦ Option.some.inj (hseg'.1.symm.trans hseg.1)
    refine ⟨σ', hrun, ?_⟩
    unfold Node.emits
    rw [hnew]
    refine ⟨fun hall ↦ hsilent (hall seg hseg), fun hmemory hnil seg' hseg' ↦ ?_⟩
    rw [hunique seg' hseg']
    exact hspoken hmemory hnil
  · have hignored : wp (tcpInputProcess segment len srcIp dstIp) (fun _ σ' ↦ σ' = σ) σ :=
      (wp_tcpInputProcess_ignored fun seg hseg ↦ hsome ⟨seg, hseg⟩).mpr rfl
    obtain ⟨⟨⟩, σ', hrun, rfl⟩ := hignored
    refine ⟨σ', hrun, fun _ ↦ ?_, fun _ _ seg hseg ↦ absurd ⟨seg, hseg⟩ hsome⟩
    rw [Node.emits, Node.newEvents, newer, Nat.sub_self, List.take_zero, List.filterMap_nil]

/-- A stray reset is answered by a reset. -/
theorem resets_unanswered_fails : ∃ σ₀ σ' m rst, Setup.sample.exec [] = some σ₀ ∧
    let σ := σ₀.written (tcpSegment (.samplePeer 100 0) tcpFlagRst [])
    Setup.sample.Reaches σ ∧
    (TcpHdr.ofBytes (readBytes σ.rxBuffers 0 20)).flags &&& tcpFlagRst ≠ 0 ∧
    (tcpInputProcess 0 20 0x0A000202 0x0A00020F).run σ = some ((), σ') ∧
    m ∈ σ.emits σ' ∧ Segment.parse m.bytes = some rst ∧ rst.Has tcpFlagRst := by
  obtain ⟨σ₀, hexec, hreaches, hσ⟩ := Setup.exec_any .sample []
    (fun σ ↦ decide ((TcpHdr.ofBytes (readBytes
        (σ.written (tcpSegment (.samplePeer 100 0) tcpFlagRst [])).rxBuffers 0 20)).flags &&&
          tcpFlagRst ≠ 0) &&
      ((tcpInputProcess 0 20 0x0A000202 0x0A00020F).run
        (σ.written (tcpSegment (.samplePeer 100 0) tcpFlagRst []))).any fun r : Unit × Node ↦
          (σ.emits r.2).any fun m : Message ↦
            (Segment.parse m.bytes).any fun rst : Segment ↦ decide (rst.Has tcpFlagRst))
    (by decide +kernel)
  simp only [Bool.and_eq_true, Option.any_eq_true, List.any_eq_true, decide_eq_true_eq] at hσ
  obtain ⟨hflags, ⟨⟨⟩, σ'⟩, hrun, m, hm, rst, hparse, hrst⟩ := hσ
  exact ⟨σ₀, σ', m, rst, hexec, hreaches.step (.receive σ₀.rxQueue _), hflags, hrun, hm, hparse,
    hrst⟩

/-- Two nodes of which one answers a stray ACK by a reset. -/
theorem Network.exists_stray : ∃ (setup : Side → Setup) (net : Network),
    Reachable (Network.Starts setup) Network.Step net ∧ net.injected = 1 ∧ net.resets = 1 ∧
      ∀ i, ∀ e ∈ (net.node i).log, e.Orderly := by
  let setup : Side → Setup := fun i ↦
    { Setup.sample with ip := if i = .left then 0x0A00020F else 0x0A000202 }
  let stray : Message :=
    ⟨0x0A000202, 0x0A00020F, tcpSegment (.samplePeer 100 0) tcpFlagAck []⟩
  obtain ⟨σ₀, hexec, hreaches, hσ⟩ := Setup.exec_any .sample []
    (fun σ ↦ decide (σ.aetherIp = 0x0A00020F) &&
      ((tcpInputProcess 0 20 0x0A000202 0x0A00020F).run
        (σ.written (tcpSegment (.samplePeer 100 0) tcpFlagAck []))).any fun r : Unit × Node ↦
          decide (r.2.log.countP Event.isReset = 1 ∧ ∀ e ∈ r.2.log, e.Orderly))
    (by decide +kernel)
  simp only [Bool.and_eq_true, Option.any_eq_true, decide_eq_true_eq] at hσ
  obtain ⟨hip, ⟨⟨⟩, σ'⟩, hrun, hresets, horderly⟩ := hσ
  obtain ⟨⟨⟩, τ, hτ, ⟨L, -, hserver⟩, -⟩ := initialise_spec (setup .right)
  have hlog : τ.log = [] := congrArg Server.log hserver
  let net : Network := ⟨fun i ↦ if i = .left then σ₀ else τ, [], 0⟩
  have hstarts : Network.Starts setup net := by
    refine ⟨fun i ↦ ?_, rfl⟩
    cases i with
    | left => exact Setup.exec_nil hexec
    | right => exact hτ
  have hinjected : Reachable (Network.Starts setup) Network.Step ⟨net.node, [stray], 1⟩ :=
    (Reachable.init hstarts).step (Network.Step.inject net stray)
  -- the stray segment is delivered and answered with a reset
  have hstep : Network.Step ⟨net.node, [stray], 1⟩ ⟨Function.update net.node .left σ',
      σ₀.emits σ' ++ [stray].erase stray, 1⟩ :=
    Network.Step.deliver (i := .left) List.mem_cons_self hip.symm (by decide) hrun
  refine ⟨setup, _, hinjected.step hstep, rfl, ?_, fun i ↦ ?_⟩
  · show σ'.log.countP Event.isReset + τ.log.countP Event.isReset = 1
    rw [hresets, hlog, List.countP_nil]
  · cases i with
    | left => exact horderly
    | right =>
        show ∀ e ∈ τ.log, e.Orderly
        rw [hlog]
        intro e he
        cases he

/-- A reset for a connection in SYN_RECEIVED is not answered, and of two nodes one answers a stray
ACK by the only reset. -/
theorem resets_unanswered_stray : ∃ (σ σ' : Node) (net : Network), Setup.sample.Reaches σ ∧
    (tcpInputProcess 0 20 0x0A000202 0x0A00020F).run σ = some ((), σ') ∧ σ.emits σ' = [] ∧
    net.injected = 1 ∧ net.resets = 1 ∧ net.resets ≤ 7 * net.injected := by
  obtain ⟨setup, net, hnet, hinjected, hresets, horderly⟩ := Network.exists_stray
  obtain ⟨σ₀, hexec, hreaches, hσ⟩ := Setup.exec_any .sample [.fromPeer 100 0 tcpFlagSyn []]
    (fun σ ↦ decide ((TcpHdr.ofBytes (readBytes
        (σ.written (tcpSegment (.samplePeer 101 7001) tcpFlagRst [])).rxBuffers 0 20)).flags &&&
          tcpFlagRst ≠ 0) &&
      σ.connections.any fun conns ↦ conns.any fun e ↦
        decide (e.2.Matches 0x0A000202 5555 0x0A00020F 80 ∧ e.2.state = .synReceived))
    (by decide +kernel)
  simp only [Bool.and_eq_true, Option.any_eq_true, List.any_eq_true, decide_eq_true_eq] at hσ
  obtain ⟨hflags, conns, hconns, e, he, hmatch, hstate⟩ := hσ
  have hseg := σ₀.hasSegment_written (.samplePeer 101 7001) tcpFlagRst [] (Nat.zero_le _)
  have hreaches' := hreaches.step (.receive σ₀.rxQueue (writeBytes σ₀.rxBuffers 0
    (tcpSegment (.samplePeer 101 7001) tcpFlagRst [])))
  obtain ⟨hsilent, hbound⟩ := resets_unanswered .sample _ hreaches' 0 20 0x0A000202 0x0A00020F
    conns hconns setup net hnet
  obtain ⟨σ', hrun, hemits, -⟩ := hsilent hflags
  refine ⟨_, σ', net, hreaches', hrun, hemits fun seg hseg' ↦ ?_, hinjected, hresets,
    hbound horderly⟩
  rw [Option.some.inj (hseg'.1.symm.trans hseg.1)]
  refine ⟨e, he, hmatch, fun hanswers ↦ ?_⟩
  have hopen := hanswers.1
  rw [hstate] at hopen
  cases hopen

end Aether.Ethernet
