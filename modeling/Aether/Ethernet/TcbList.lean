import Aether.Ethernet.Refinement
import Aether.Kernel.HeapRuns

/-!
# The TCB list implements the connection table

`tcp_find_tcb` finds the first connection with a 4-tuple, `tcp_remove_tcb` drops one and releases
its block, and `tcp_allocate_tcb` adds a blank one in front. All of them terminate, because the
list in memory is the finite list of TCBs of the ledger.
-/

namespace Aether.Ethernet

open ByteMemory Kernel Drivers Common Program

section List

variable {L : Ledger} {σ : Node} {p : Nat} {c : Conn}

/-- Pointing the link of a TCB somewhere else replaces the list behind it. -/
theorem Linked.relink {mem mem' : Memory} {head next : Nat} {pre rest post : List TcbBlock}
    {q : TcbBlock} (h : Linked mem head (pre ++ q :: rest)) (hnext : next < 2 ^ 64)
    (hpre : ∀ b ∈ pre, readBytes mem' b.ptr sizeofTcb = readBytes mem b.ptr sizeofTcb)
    (hq : readBytes mem' q.ptr sizeofTcb = (Tcb.mk q.conn next).bytes)
    (hpost : Linked mem' next post) : Linked mem' head (pre ++ q :: post) := by
  induction pre generalizing head with
  | nil => exact ⟨h.1, next, hnext, hq, hpost⟩
  | cons b pre ih =>
      obtain ⟨hhead, nextb, hnextb, hread, hrest⟩ := h
      refine ⟨hhead, nextb, hnextb, (hpre b List.mem_cons_self).trans hread, ?_⟩
      exact ih hrest fun c hc ↦ hpre c (List.mem_cons_of_mem b hc)

/-- A TCB's address is not that of another one in the list. -/
theorem Ledger.Holds.tcb_ne {b : TcbBlock} {pre post : List TcbBlock} (h : L.Holds σ [])
    (hL : L.tcbs = pre ++ b :: post) : ∀ c ∈ pre ++ post, c.ptr ≠ b.ptr := by
  have hnodup := h.nodup_tcbs
  rw [hL, List.map_append, List.map_cons, List.nodup_middle, List.nodup_cons,
    ← List.map_append] at hnodup
  exact fun c hc heq ↦ hnodup.1 (heq ▸ List.mem_map_of_mem hc)

/-- The blocks of a ledger without one of its TCBs. -/
theorem Ledger.regions_remove {b : TcbBlock} {pre post : List TcbBlock}
    (hL : L.tcbs = pre ++ b :: post) :
    L.regions.Perm (b.toRegion :: Ledger.regions { L with tcbs := pre ++ post }) := by
  simp only [Ledger.regions, hL, List.map_append, List.map_cons]
  refine .trans (.cons _ ?_) (.swap _ _ _)
  rw [← List.cons_append, ← List.cons_append]
  exact (List.perm_middle.append_right _).append_right _

/-- The block at `p` is the only one that is released. -/
def Ledger.Releases (L : Ledger) (p : Nat) (L' : Ledger) : Prop :=
  ∃ r : Region, r.ptr = p ∧ L.regions.Perm (r :: L'.regions)

/-- An unlinked TCB that is freed leaves the ledger. -/
theorem Ledger.Holds.release {b : TcbBlock} {pre post : List TcbBlock} (h : L.Holds σ [])
    (hL : L.tcbs = pre ++ b :: post) {heap : Heap} {head : Nat} (howns : Owns heap L.regions)
    (hlinked : Linked heap.mem head (pre ++ post)) :
    Ledger.Holds { L with tcbs := pre ++ post } { σ with
      heap := Kernel.kfree heap b.ptr
      tcpTcbList := head
      liveTcbs := σ.liveTcbs.erase b.ptr
      log := .removed b.ptr :: σ.log } [] := by
  have hsub : ∀ c ∈ pre ++ post, c ∈ L.tcbs := fun c hc ↦ by
    rw [hL]
    rcases List.mem_append.mp hc with hc | hc
    · exact List.mem_append_left _ hc
    · exact List.mem_append_right _ (List.mem_cons_of_mem b hc)
  obtain ⟨hfreed, hframe⟩ := (howns.perm (Ledger.regions_remove hL)).kfree
  have hroom : ∀ c ∈ pre ++ post, sizeofTcb ≤ c.cap := fun c hc ↦ h.room c (hsub c hc)
  have hpre : b.ptr ∉ pre.map (·.ptr) := fun hmem ↦ by
    obtain ⟨c, hc, heq⟩ := List.mem_map.mp hmem
    exact h.tcb_ne hL c (List.mem_append_left post hc) heq
  exact { h with
    owns := hfreed
    linked := hlinked.frame hroom fun c hc ↦
      hframe _ (Ledger.mem_regions_of_tcb (L := { L with tcbs := pre ++ post }) hc)
    room := hroom
    live := by
      simp only [h.live, hL, List.map_append, List.map_cons]
      rw [List.erase_append_right _ hpre, List.erase_cons_head]
    leaks := by rw [h.leaks, List.countP_cons_of_neg (by simp [Event.Leaks])] }

/-- Without the TCB the server is the one that dropped its connection. -/
theorem server_remove {b : TcbBlock} {pre post : List TcbBlock} (h : L.Holds σ [])
    (hL : L.tcbs = pre ++ b :: post) :
    (σ.server L).remove b.ptr = σ.server { L with tcbs := pre ++ post } := by
  simp only [Server.remove, Node.server, hL, Server.mk.injEq, and_true, List.filter_map]
  congr 1
  rw [List.filter_append, List.filter_cons_of_neg (by simp), ← List.filter_append]
  exact List.filter_eq_self.mpr fun c hc ↦ by simpa using h.tcb_ne hL c hc

/-- Unlinking a TCB keeps every block and leaves the list of the others. -/
theorem unlink_spec {b : TcbBlock} {pre post : List TcbBlock} {prev next : Nat}
    (h : L.Holds σ []) (hL : L.tcbs = pre ++ b :: post)
    (hprev : prev = pre.getLast?.elim 0 (·.ptr)) (hnext : next < 2 ^ 64)
    (hpost : Linked σ.heap.mem next post) :
    wp (if prev ≠ 0 then updateTcb prev fun t ↦ { t with next := next }
        else modify fun σ ↦ { σ with tcpTcbList := next }) (fun _ σ' ↦ ∃ heap head,
      σ' = { σ with heap := heap, tcpTcbList := head } ∧ Owns heap L.regions ∧
        Linked heap.mem head (pre ++ post)) σ := by
  -- at the head of the list, or behind the TCB `q`
  rcases List.eq_nil_or_concat pre with rfl | ⟨pre, q, rfl⟩
  · rw [if_neg (by simp [hprev]), wp_modify]
    exact ⟨σ.heap, next, rfl, h.owns, hpost⟩
  · obtain rfl : prev = q.ptr := by simpa using hprev
    have hL : L.tcbs = pre ++ q :: (b :: post) := by simpa using hL
    have hq : q ∈ L.tcbs := by simp [hL]
    obtain ⟨nextq, -, -, hrun⟩ := h.readTcb hq
    have hroom := h.room q hq
    have hlen : (Tcb.mk q.conn next).bytes.length = sizeofTcb := Tcb.length_bytes _
    obtain ⟨howns, hframe⟩ := h.owns.write_mem (Ledger.mem_regions_of_tcb hq) q.ptr
      (Tcb.mk q.conn next).bytes le_rfl (by rw [hlen]; omega)
    have hmem : ∀ c ∈ pre ++ b :: post, c ∈ L.tcbs := fun c hc ↦ by
      rw [hL]
      exact (List.mem_append.mp hc).elim (List.mem_append_left _)
        fun hc ↦ List.mem_append_right _ (List.mem_cons_of_mem q hc)
    have hkeeps : ∀ c ∈ pre ++ b :: post, Agree c.ptr c.cap σ.heap.mem
        (σ.heap.write q.ptr (Tcb.mk q.conn next).bytes).mem := fun c hc ↦
      hframe _ (Ledger.mem_regions_of_tcb (hmem c hc)) (h.tcb_ne hL c hc)
    rw [if_pos (h.tcb_ne_zero hq), updateTcb, wp_bind, wp_of_run hrun, wp_writeHeap]
    refine ⟨_, _, rfl, howns, ?_⟩
    have hlinked := h.linked
    rw [hL] at hlinked
    rw [List.concat_eq_append, List.append_assoc]
    refine hlinked.relink hnext (fun c hc ↦ ?_) ?_ (hpost.frame (fun c hc ↦ ?_) fun c hc ↦ ?_)
    · have hc := List.mem_append_left (b :: post) hc
      have := h.room c (hmem c hc)
      exact ((hkeeps c hc).mono (b := c.ptr) (k := sizeofTcb) le_rfl (by omega)).readBytes
    · have := read_write_same σ.heap.mem q.ptr (Tcb.mk q.conn next).bytes
      rwa [hlen] at this
    · exact h.room c (hmem c (List.mem_append_right pre (List.mem_cons_of_mem b hc)))
    · exact hkeeps c (List.mem_append_right pre (List.mem_cons_of_mem b hc))

/-- The walk of `tcp_remove_tcb` reaches its TCB, unlinks and releases it. Its block has room for
another TCB. -/
theorem removeLoop_spec (h : L.Holds σ []) {fuel prev cur : Nat} {pre rest : List TcbBlock}
    (hL : L.tcbs = pre ++ rest) (hlinked : Linked σ.heap.mem cur rest)
    (hprev : prev = pre.getLast?.elim 0 (·.ptr)) (hp : p ∈ rest.map (·.ptr))
    (hfuel : rest.length < fuel) :
    wp (removeLoop p fuel prev cur) (fun _ σ' ↦ ∃ L' : Ledger, L'.Holds σ' [] ∧
      σ.SameAddresses σ' ∧ Does p .remove (σ.server L) (σ'.server L') ∧ L.Releases p L' ∧
      ¬ σ'.heap.Refuses sizeofTcb) σ := by
  induction rest generalizing pre prev cur fuel with
  | nil => cases hp
  | cons b rest ih =>
      obtain ⟨fuel, rfl⟩ : ∃ n, fuel = n + 1 := ⟨fuel - 1, by rw [List.length_cons] at hfuel; omega⟩
      have hb : b ∈ L.tcbs := by rw [hL]; simp
      obtain ⟨rfl, next, hnext, hread, hrest⟩ := hlinked
      obtain ⟨next', hnext', hread', hrun⟩ := h.readTcb hb
      obtain rfl : next' = next := Tcb.next_inj hnext' hnext (hread'.symm.trans hread)
      rw [removeLoop, if_neg (h.tcb_ne_zero hb), wp_bind, wp_of_run hrun]
      -- the TCB is this one or one behind it
      by_cases hbp : b.ptr = p
      · subst hbp
        have hunlink := unlink_spec h hL hprev hnext hrest
        -- what is done after either way of unlinking
        have hrelease : ∀ heap head, Owns heap L.regions → Linked heap.mem head (pre ++ rest) →
            wp (do
              callKfree b.ptr
              modify fun σ ↦ { σ with liveTcbs := σ.liveTcbs.erase b.ptr }
              note (.removed b.ptr)) (fun _ σ' ↦ ∃ L' : Ledger, L'.Holds σ' [] ∧
                σ.SameAddresses σ' ∧ Does b.ptr .remove (σ.server L) (σ'.server L') ∧
                L.Releases b.ptr L' ∧ ¬ σ'.heap.Refuses sizeofTcb)
              { σ with heap := heap, tcpTcbList := head } := by
          intro heap head howns hlinked
          simp only [wp_bind, wp_callKfree, wp_modify, wp_note]
          have hdoes := Does.remove (p := b.ptr) (σ.server L)
          rw [server_remove h hL] at hdoes
          have hperm := Ledger.regions_remove hL
          exact ⟨_, h.release hL howns hlinked, ⟨rfl, rfl⟩, hdoes, ⟨b.toRegion, rfl, hperm⟩,
            (howns.perm hperm).not_refuses_kfree (h.room b hb)⟩
        rw [if_pos rfl]
        dsimp only
        by_cases hzero : prev ≠ 0
        · rw [if_pos hzero] at hunlink ⊢
          rw [wp_bind]
          refine wp_mono hunlink ?_
          rintro _ _ ⟨heap, head, rfl, howns, hlinked⟩
          exact hrelease heap head howns hlinked
        · rw [if_neg hzero] at hunlink ⊢
          rw [wp_bind]
          refine wp_mono hunlink ?_
          rintro _ _ ⟨heap, head, rfl, howns, hlinked⟩
          exact hrelease heap head howns hlinked
      · rw [if_neg hbp]
        have hL' : L.tcbs = (pre ++ [b]) ++ rest := by simpa using hL
        refine ih hL' hrest (by simp) ?_ ?_
        · exact (List.mem_cons.mp hp).resolve_left fun heq ↦ hbp heq.symm
        · rw [List.length_cons] at hfuel
          omega

/-- `tcp_remove_tcb` drops a connection and releases its block. -/
theorem tcpRemoveTcb_releases (h : L.Holds σ []) (hc : (p, c) ∈ (σ.server L).conns) :
    wp (tcpRemoveTcb p) (fun _ σ' ↦ ∃ L' : Ledger, L'.Holds σ' [] ∧
      σ.SameAddresses σ' ∧ Does p .remove (σ.server L) (σ'.server L') ∧ L.Releases p L' ∧
      ¬ σ'.heap.Refuses sizeofTcb) σ := by
  obtain ⟨b, hb, rfl, rfl⟩ := mem_conns.mp hc
  rw [tcpRemoveTcb, if_neg (h.tcb_ne_zero hb), wp_bind, wp_get]
  exact removeLoop_spec h (List.nil_append L.tcbs).symm h.linked rfl (List.mem_map_of_mem hb)
    h.length_tcbs

/-- `tcp_remove_tcb` as an act. -/
theorem tcpRemoveTcb_spec (h : L.Holds σ []) (hc : (p, c) ∈ (σ.server L).conns) :
    Refines (tcpRemoveTcb p) (Does p .remove) L σ := by
  refine wp_mono (tcpRemoveTcb_releases h hc) ?_
  rintro _ σ' ⟨L', hL', haddresses, hdoes, -, -⟩
  exact ⟨L', hL', haddresses, hdoes⟩

/-- The walk of `tcp_find_tcb` stops at the first TCB with the 4-tuple. -/
theorem findLoop_run (h : L.Holds σ []) (srcIp : UInt32) (srcPort : UInt16) (dstIp : UInt32)
    (dstPort : UInt16) {fuel cur : Nat} {rest : List TcbBlock} (hrest : ∀ b ∈ rest, b ∈ L.tcbs)
    (hlinked : Linked σ.heap.mem cur rest) (hfuel : rest.length < fuel) :
    (findLoop srcIp srcPort dstIp dstPort fuel cur).run σ =
      some ((rest.find? fun b ↦ b.conn.Matches srcIp srcPort dstIp dstPort).elim 0 (·.ptr), σ) := by
  induction rest generalizing cur fuel with
  | nil =>
      obtain ⟨fuel, rfl⟩ : ∃ n, fuel = n + 1 := ⟨fuel - 1, by rw [List.length_nil] at hfuel; omega⟩
      rw [show cur = 0 from hlinked, findLoop, if_pos rfl]
      rfl
  | cons b rest ih =>
      obtain ⟨fuel, rfl⟩ : ∃ n, fuel = n + 1 := ⟨fuel - 1, by rw [List.length_cons] at hfuel; omega⟩
      have hb := hrest b List.mem_cons_self
      obtain ⟨rfl, next, hnext, hread, hnextLinked⟩ := hlinked
      obtain ⟨next', hnext', hread', hrun⟩ := h.readTcb hb
      obtain rfl : next' = next := Tcb.next_inj hnext' hnext (hread'.symm.trans hread)
      rw [findLoop, if_neg (h.tcb_ne_zero hb), StateT.run_bind, hrun]
      dsimp only [Option.bind_eq_bind, Option.bind_some]
      by_cases hmatch : b.conn.Matches srcIp srcPort dstIp dstPort
      · rw [if_pos hmatch, List.find?_cons_of_pos (by simpa using hmatch)]
        rfl
      · rw [if_neg hmatch, List.find?_cons_of_neg (by simpa using hmatch)]
        refine ih (fun c hc ↦ hrest c (List.mem_cons_of_mem b hc)) hnextLinked ?_
        rw [List.length_cons] at hfuel
        omega

/-- `tcp_find_tcb` returns the address of the first connection with the 4-tuple, or `NULL`. -/
theorem tcpFindTcb_run (h : L.Holds σ []) (srcIp : UInt32) (srcPort : UInt16) (dstIp : UInt32)
    (dstPort : UInt16) :
    (tcpFindTcb srcIp srcPort dstIp dstPort).run σ =
      some (((σ.server L).find srcIp srcPort dstIp dstPort).elim 0 Prod.fst, σ) := by
  have hwalk := findLoop_run h srcIp srcPort dstIp dstPort (fun _ hb ↦ hb) h.linked h.length_tcbs
  rw [tcpFindTcb, StateT.run_bind, StateT.run_get]
  refine hwalk.trans ?_
  rw [Server.find, Node.server, List.find?_map, Option.elim_map]
  rfl

/-- The head of a list of blocks is an address. -/
theorem Ledger.Holds.head_lt (h : L.Holds σ []) : σ.tcpTcbList < 2 ^ 64 := by
  have hlinked := h.linked
  cases htcbs : L.tcbs with
  | nil =>
      rw [htcbs] at hlinked
      rw [show σ.tcpTcbList = 0 from hlinked]
      omega
  | cons b rest =>
      have hb : b ∈ L.tcbs := by simp [htcbs]
      rw [htcbs] at hlinked
      have := (h.owns.within (Ledger.mem_regions_of_tcb hb)).2.1
      rw [hlinked.1]
      simp only [heapEnd, heapStart, heapSize] at this
      omega

/-- What `tcp_allocate_tcb` stores in a new TCB. -/
def Conn.blank (aetherIp : UInt32) : Conn where
  localIp := aetherIp
  remoteIp := 0
  localPort := 0
  remotePort := 0
  state := .closed
  sndUna := 0
  sndNxt := 0
  rcvNxt := 0
  rcvWnd := tcpDefaultWindow
  sndWnd := tcpDefaultWindow

/-- A zeroed TCB. -/
theorem Tcb.ofBytes_zeros : Tcb.ofBytes (List.replicate sizeofTcb 0) =
    some ⟨⟨0, 0, 0, 0, .closed, 0, 0, 0, 0, 0⟩, 0⟩ := by
  decide

/-- `tcp_allocate_tcb` fails for lack of memory, or puts a blank TCB in front of the list. -/
theorem tcpAllocateTcb_spec (h : L.Holds σ []) :
    wp tcpAllocateTcb (fun p σ' ↦
      (kmalloc σ.heap sizeofTcb = some (0, σ.heap) ∧ p = 0 ∧
        σ' = { σ with log := .noMemory :: σ.log }) ∨
      ∃ cap heap heap', kmalloc σ.heap sizeofTcb = some (p, heap) ∧ heap.SameBlocks heap' ∧
        p ≠ 0 ∧ p ∉ L.tcbs.map (·.ptr) ∧
        σ' = { σ with heap := heap', tcpTcbList := p, liveTcbs := p :: σ.liveTcbs } ∧
        Ledger.Holds { L with tcbs := ⟨⟨p, cap⟩, .blank σ.aetherIp⟩ :: L.tcbs } σ' []) σ := by
  obtain ⟨p, σ₁, hrun, hcase⟩ := h.callKmalloc sizeofTcb (by decide)
  have hcall := kmalloc_of_run hrun
  rw [tcpAllocateTcb, wp_bind, wp_of_run hrun]
  rcases hcase with ⟨rfl, rfl⟩ | ⟨cap, heap, hne, hcap, rfl, hheld, -⟩
  · rw [if_pos rfl, wp_pure]
    exact .inl ⟨hcall, rfl, rfl⟩
  · have hzeros := read_write_same heap.mem p (List.replicate sizeofTcb 0)
    rw [List.length_replicate] at hzeros
    let t : Tcb := ⟨.blank σ.aetherIp, σ.tcpTcbList⟩
    have ht : t.bytes.length = sizeofTcb := Tcb.length_bytes t
    -- the fields are written over the zeros
    have hover : ∀ t : Tcb, writeBytes (writeBytes heap.mem p (List.replicate sizeofTcb 0)) p
        t.bytes = writeBytes heap.mem p t.bytes := fun t ↦
      writeBytes_over heap.mem p (by rw [Tcb.length_bytes, List.length_replicate, sizeofTcb])
    obtain ⟨hwritten, -⟩ := hheld.write p t.bytes le_rfl (by rw [ht]; dsimp only; omega)
    have hfresh : p ∉ L.tcbs.map (·.ptr) := fun hmem ↦ by
      obtain ⟨b, hb, rfl⟩ := List.mem_map.mp hmem
      have := hheld.owns.nodup
      rw [List.singleton_append, List.map_cons, List.nodup_cons] at this
      exact this.1 (List.mem_map.mpr ⟨b.toRegion, Ledger.mem_regions_of_tcb hb, rfl⟩)
    simp only [if_neg hne, wp_bind, wp_writeHeap, wp_modify, wp_get, updateTcb, readTcb,
      List.mem_cons, true_or, ↓reduceIte, Heap.write, hzeros, hover, Tcb.ofBytes_zeros, wp_pure]
    have hblocks := hheld.owns.sameBlocks_write List.mem_cons_self p t.bytes le_rfl
      (by rw [ht]; dsimp only; omega)
    refine .inr ⟨cap, heap, heap.write p t.bytes, hcall, hblocks, hne, hfresh, rfl, ?_⟩
    have hread := read_write_same heap.mem p t.bytes
    rw [ht] at hread
    exact { hwritten with
      owns := hwritten.owns.perm (.swap _ _ _)
      linked := ⟨rfl, σ.tcpTcbList, h.head_lt, hread, hwritten.linked⟩
      room := by
        intro b hb
        rcases List.mem_cons.mp hb with rfl | hb
        · exact hcap
        · exact h.room b hb
      live := by rw [List.map_cons, h.live] }

end List

end Aether.Ethernet
