import Aether.Ethernet.Acceptance
import Aether.Ethernet.Accounts
import Aether.Lib.FirstCome

/-!
# What the ARP cache remembers

`arp_cache` is static in `arp.c` and only `arp_cache_insert` assigns to it, so what it holds is
determined by the packets that `arp_handle` was given: a table of four places, first come, first
served, in which an address keeps its place and has the hardware address that it announced last.
Zero is the address of a free place, and nobody's.
-/

namespace Aether.Ethernet

open ByteMemory Kernel Common Program FirstCome

/-! ## The cache as a table -/

/-- The entry for an address. -/
def ArpEntry.ofPair (e : UInt32 × Mac) : ArpEntry := ⟨e.1, e.2⟩

@[simp] theorem ArpEntry.ip_ofPair (e : UInt32 × Mac) : (ofPair e).ip = e.1 := rfl

/-- The cache has four places, the first of which hold the entries of the table. -/
def CacheHolds (entries : List (UInt32 × Mac)) (cache : List ArpEntry) : Prop :=
  ∃ free, cache = entries.map .ofPair ++ free ∧ cache.length = 4 ∧ ∀ entry ∈ free, entry.ip = 0

section Insertion

variable {entries : List (UInt32 × Mac)} {cache free : List ArpEntry} {ip : UInt32}

@[simp] theorem length_arpCacheInsert (ip : UInt32) (mac : Mac) (cache : List ArpEntry) :
    (arpCacheInsert ip mac cache).length = cache.length := by
  induction cache with
  | nil => rfl
  | cons entry rest ih =>
      rw [arpCacheInsert]
      split
      · rfl
      · rw [List.length_cons, List.length_cons, ih]

/-- An address that is there gets the new hardware address. -/
theorem arpCacheInsert_of_mem (mac : Mac) (hnz : ∀ e ∈ entries, e.1 ≠ 0)
    (hdistinct : (entries.map Prod.fst).Nodup) (hip : ip ∈ entries.map Prod.fst) :
    arpCacheInsert ip mac (entries.map .ofPair ++ free) =
      (entries.map fun e ↦ if e.1 = ip then (ip, mac) else e).map .ofPair ++ free := by
  induction entries with
  | nil => cases hip
  | cons e rest ih =>
      have hne : e.1 ≠ 0 := hnz e List.mem_cons_self
      obtain ⟨hfresh, hrest⟩ := List.nodup_cons.mp hdistinct
      rw [List.map_cons, List.cons_append, arpCacheInsert, ArpEntry.ip_ofPair]
      by_cases he : e.1 = ip
      · rw [if_pos (Or.inr he), List.map_cons, if_pos he, map_of_not_mem mac (he ▸ hfresh)]
        rfl
      · have hmem : ip ∈ rest.map Prod.fst :=
          (List.mem_cons.mp hip).resolve_left fun heq ↦ he heq.symm
        rw [if_neg (not_or.mpr ⟨hne, he⟩), List.map_cons, if_neg he,
          ih (fun e' he' ↦ hnz e' (List.mem_cons_of_mem e he')) hrest hmem]
        rfl

/-- An address that is not there comes after the entries. -/
theorem arpCacheInsert_of_not_mem (mac : Mac) (hnz : ∀ e ∈ entries, e.1 ≠ 0)
    (hip : ip ∉ entries.map Prod.fst) :
    arpCacheInsert ip mac (entries.map .ofPair ++ free) =
      entries.map .ofPair ++ arpCacheInsert ip mac free := by
  induction entries with
  | nil => rfl
  | cons e rest ih =>
      have hne : e.1 ≠ 0 := hnz e List.mem_cons_self
      obtain ⟨hother, hrest⟩ := not_or.mp (List.mem_cons.not.mp hip)
      rw [List.map_cons, List.cons_append, arpCacheInsert, ArpEntry.ip_ofPair,
        if_neg (not_or.mpr ⟨hne, fun heq ↦ hother heq.symm⟩),
        ih (fun e' he' ↦ hnz e' (List.mem_cons_of_mem e he')) hrest]
      rfl

/-- Inserting an address is `put`. -/
theorem CacheHolds.insert (h : CacheHolds entries cache) (mac : Mac)
    (hnz : ∀ e ∈ entries, e.1 ≠ 0) (hdistinct : (entries.map Prod.fst).Nodup) :
    CacheHolds (put 4 ip mac entries) (arpCacheInsert ip mac cache) := by
  obtain ⟨free, rfl, hlength, hfree⟩ := h
  rw [put]
  split
  · rename_i hmem
    refine ⟨free, arpCacheInsert_of_mem mac hnz hdistinct hmem, ?_, hfree⟩
    rw [length_arpCacheInsert, hlength]
  · rename_i hnew
    have hinsert : arpCacheInsert ip mac (entries.map .ofPair ++ free) =
        entries.map .ofPair ++ arpCacheInsert ip mac free :=
      arpCacheInsert_of_not_mem mac hnz hnew
    rw [List.length_append, List.length_map] at hlength
    -- a new address takes the first free entry, if there is one
    cases free with
    | nil =>
        rw [if_neg (by simp at hlength; omega)]
        refine ⟨[], hinsert, ?_, hfree⟩
        rw [length_arpCacheInsert, List.length_append, List.length_map, hlength]
    | cons entry rest =>
        rw [if_pos (by simp at hlength; omega)]
        refine ⟨rest, ?_, ?_, fun entry' he ↦ hfree entry' (List.mem_cons_of_mem entry he)⟩
        · rw [hinsert, arpCacheInsert, if_pos (Or.inl (hfree entry List.mem_cons_self)),
            List.map_append, List.append_assoc]
          rfl
        · rw [length_arpCacheInsert, List.length_append, List.length_map, hlength]

/-- A sender without an address takes no place. -/
theorem CacheHolds.insert_zero (h : CacheHolds entries cache) (mac : Mac)
    (hnz : ∀ e ∈ entries, e.1 ≠ 0) : CacheHolds entries (arpCacheInsert 0 mac cache) := by
  obtain ⟨free, rfl, hlength, hfree⟩ := h
  have hnew : 0 ∉ entries.map Prod.fst := by
    intro hmem
    obtain ⟨e, he, hzero⟩ := List.mem_map.mp hmem
    exact hnz e he hzero
  refine ⟨_, arpCacheInsert_of_not_mem mac hnz hnew, ?_, fun entry he ↦ ?_⟩
  · rw [length_arpCacheInsert, hlength]
  · cases free with
    | nil => cases he
    | cons first rest =>
        rw [arpCacheInsert, if_pos (Or.inl (hfree first List.mem_cons_self))] at he
        rcases List.mem_cons.mp he with rfl | he
        · rfl
        · exact hfree entry (List.mem_cons_of_mem first he)

end Insertion

/-! ## Histories -/

/-- The packet in the `len` bytes at `data`, if it passes the checks of `arp_handle`. -/
def arpHeard (rx : Memory) (data : Nat) (len : UInt32) : List ArpPacket :=
  let arp := ArpPacket.ofBytes (readBytes rx data 28)
  if 28 ≤ len ∧ htons arp.htype = 0x0001 ∧ htons arp.ptype = 0x0800 then [arp] else []

/-- The addresses that the senders of the packets announced. -/
def announcements (heard : List ArpPacket) : List (UInt32 × Mac) :=
  (heard.filter fun arp ↦ htonl arp.senderIp ≠ 0).map fun arp ↦ (htonl arp.senderIp, arp.senderMac)

/-- `arp_handle` was called any number of times since boot, with these packets passing its checks.
What happens between the calls may change anything but the cache. -/
inductive Hears : List ArpPacket → Node → Prop where
  | boot (ram rx : Memory) (mac : Mac) (ip isn : UInt32) : Hears [] (.boot ram rx mac ip isn)
  | between {heard : List ArpPacket} {σ σ' : Node} :
      Hears heard σ → σ'.arpCache = σ.arpCache → Hears heard σ'
  | handle {heard : List ArpPacket} {σ σ' : Node} {data : Nat} {len : UInt32} :
      Hears heard σ → (arpHandle data len).run σ = some ((), σ') →
      Hears (heard ++ arpHeard σ.rxBuffers data len) σ'

/-- The entries with an address are a prefix of the cache, are those of the first four addresses
announced, without repetition, and have the hardware address that the address announced last. -/
def Remembers (heard : List ArpPacket) (cache : List ArpEntry) : Prop :=
  ∃ known free, cache = known ++ free ∧ cache.length = 4 ∧
    (∀ entry ∈ known, entry.ip ≠ 0) ∧ (∀ entry ∈ free, entry.ip = 0) ∧
    (known.map ArpEntry.ip).Nodup ∧
    known.map ArpEntry.ip = (arrivals (announcements heard)).take 4 ∧
    ∀ entry ∈ known, latest (announcements heard) entry.ip = some entry.mac

section Histories

variable {heard : List ArpPacket} {cache : List ArpEntry} {σ σ' : Node}

theorem announced_ne_zero {ip : UInt32} (h : ip ∈ arrivals (announcements heard)) : ip ≠ 0 := by
  obtain ⟨e, he, rfl⟩ := List.mem_map.mp (mem_arrivals.mp h)
  obtain ⟨arp, harp, rfl⟩ := List.mem_map.mp he
  exact of_decide_eq_true (List.mem_filter.mp harp).2

/-- The entries of the table have addresses. -/
theorem entry_ne_zero {n : Nat} {e : UInt32 × Mac}
    (h : e ∈ table n (announcements heard)) : e.1 ≠ 0 := by
  have hkey : e.1 ∈ (table n (announcements heard)).map Prod.fst := List.mem_map_of_mem h
  rw [keys_table] at hkey
  exact announced_ne_zero (List.mem_of_mem_take hkey)

/-- One more packet passes the checks. -/
theorem CacheHolds.hear (h : CacheHolds (table 4 (announcements heard)) cache) (arp : ArpPacket) :
    CacheHolds (table 4 (announcements (heard ++ [arp])))
      (arpCacheInsert (htonl arp.senderIp) arp.senderMac cache) := by
  have hnz := fun e (he : e ∈ table 4 (announcements heard)) ↦ entry_ne_zero he
  rw [announcements, List.filter_append, List.map_append, ← announcements]
  by_cases hip : htonl arp.senderIp = 0
  · rw [List.filter_cons_of_neg (by simp [hip]), hip]
    simpa using h.insert_zero arp.senderMac hnz
  · rw [List.filter_cons_of_pos (by simp [hip]), List.filter_nil, List.map_singleton, table_concat]
    exact h.insert arp.senderMac hnz (nodup_keys_table 4 _)

/-- A cache that holds the table remembers what was announced. -/
theorem CacheHolds.remembers (h : CacheHolds (table 4 (announcements heard)) cache) :
    Remembers heard cache := by
  obtain ⟨free, hcache, hlength, hfree⟩ := h
  have hkeys : ((table 4 (announcements heard)).map ArpEntry.ofPair).map ArpEntry.ip =
      (arrivals (announcements heard)).take 4 := by
    rw [← keys_table, List.map_map]
    rfl
  refine ⟨_, free, hcache, hlength, fun entry hentry ↦ ?_, hfree, ?_, hkeys, fun entry hentry ↦ ?_⟩
  · obtain ⟨e, he, rfl⟩ := List.mem_map.mp hentry
    exact entry_ne_zero he
  · rw [hkeys, ← keys_table]
    exact nodup_keys_table 4 _
  · obtain ⟨e, he, rfl⟩ := List.mem_map.mp hentry
    exact latest_of_mem_table he

/-! ## Runs -/

/-- Every run of the action leaves the cache alone. -/
def KeepsCache {α : Type} (x : Action α) : Prop := Keeps (fun σ σ' ↦ σ'.arpCache = σ.arpCache) x

theorem KeepsCache.bind {α β : Type} {x : Action α} {f : α → Action β} (hx : KeepsCache x)
    (hf : ∀ a, KeepsCache (f a)) : KeepsCache (x >>= f) :=
  Keeps.bind (fun _ _ _ h h' ↦ h'.trans h) hx hf

theorem keepsCache_get : KeepsCache (MonadState.get : Action Node) := Keeps.get fun _ ↦ rfl

theorem keepsCache_pure {α : Type} (a : α) : KeepsCache (Pure.pure a : Action α) :=
  Keeps.pure (R := fun σ σ' : Node ↦ σ'.arpCache = σ.arpCache) (fun _ ↦ rfl) a

theorem keepsCache_modify {f : Node → Node} (h : ∀ σ, (f σ).arpCache = σ.arpCache) :
    KeepsCache (modify f : Action Unit) :=
  Keeps.modify h

theorem keepsCache_note (e : Event) : KeepsCache (note e) := keepsCache_modify fun _ ↦ rfl

theorem keepsCache_callKmalloc (size : Nat) : KeepsCache (callKmalloc size) := by
  intro σ p σ' hrun
  obtain ⟨_, _, rfl⟩ := callKmalloc_changes hrun
  rfl

/-- `ethernet_send` does. -/
theorem keepsCache_ethernetSend (destMac : Mac) (ethertype : UInt16) (payload : Pointer)
    (len : UInt32) : KeepsCache (ethernetSend destMac ethertype payload len) := by
  have hread : ∀ a n, KeepsCache (readHeap a n) := fun _ _ ↦ keepsCache_get.bind fun _ ↦
    keepsCache_pure _
  have hwrite : ∀ a bs, KeepsCache (writeHeap a bs) := fun _ _ ↦ keepsCache_modify fun _ ↦ rfl
  refine keepsCache_get.bind fun σ ↦ Keeps.ite ?_ (keepsCache_pure _)
  refine (keepsCache_callKmalloc _).bind fun buffer ↦ ?_
  refine Keeps.ite (keepsCache_pure _) ((hwrite _ _).bind fun _ ↦ (hwrite _ _).bind fun _ ↦ ?_)
  refine KeepsCache.bind ?_ fun bytes ↦ (hwrite _ _).bind fun _ ↦ (hread _ _).bind fun frame ↦ ?_
  · cases payload with
    | heap addr => exact hread _ _
    | stack bytes => exact keepsCache_pure _
  refine keepsCache_get.bind fun σ' ↦ (keepsCache_note _).bind fun _ ↦ ?_
  refine KeepsCache.bind ?_ fun head ↦ keepsCache_modify fun _ ↦ rfl
  intro σ head σ' hrun
  cases hrun
  rfl

/-- What a packet that passes the checks does to the cache. -/
theorem arpArrives_arpCache {arp : ArpPacket} (hrun : (arpArrives arp).run σ = some ((), σ')) :
    σ'.arpCache = arpCacheInsert (htonl arp.senderIp) arp.senderMac σ.arpCache := by
  rw [arpArrives, run_modify_bind] at hrun
  have hrest : KeepsCache (do
      if htons arp.opcode ≠ 1 then pure ()
      else
        let σ ← get
        if htonl arp.targetIp ≠ σ.aetherIp then pure ()
        else
          let reply := arpReply σ.aetherMac σ.aetherIp arp
          ethernetSend arp.senderMac ethTypeArp (.stack reply.bytes) 28) := by
    refine Keeps.ite (keepsCache_pure _) (keepsCache_get.bind fun σ ↦ ?_)
    exact Keeps.ite (keepsCache_pure _) (keepsCache_ethernetSend _ _ _ _)
  exact hrest _ _ _ hrun

/-- `arp_handle` acts on the packets that pass its checks. -/
theorem arpHeard_cases (rx : Memory) (data : Nat) (len : UInt32) :
    (arpHeard rx data len = [] ∧ acceptArp rx data len = none) ∨
      ∃ arp, arpHeard rx data len = [arp] ∧ acceptArp rx data len = some (.arp arp) := by
  unfold arpHeard acceptArp
  dsimp only
  split
  · rename_i hpasses
    obtain ⟨hlong, hhardware, hprotocol⟩ := hpasses
    rw [if_neg (UInt32.not_lt.mpr hlong), if_neg (not_not.mpr hhardware),
      if_neg (not_not.mpr hprotocol)]
    exact .inr ⟨_, rfl, rfl⟩
  · rename_i hfails
    refine .inl ⟨rfl, ?_⟩
    split
    · rfl
    · rename_i hlong
      split
      · rfl
      · rename_i hhardware
        rw [if_pos fun hprotocol ↦ hfails ⟨UInt32.not_lt.mp hlong, not_not.mp hhardware, hprotocol⟩]

/-- `arp_handle` makes the cache hold one more packet. -/
theorem CacheHolds.arpHandle {data : Nat} {len : UInt32}
    (h : CacheHolds (table 4 (announcements heard)) σ.arpCache)
    (hrun : (arpHandle data len).run σ = some ((), σ')) :
    CacheHolds (table 4 (announcements (heard ++ arpHeard σ.rxBuffers data len))) σ'.arpCache := by
  have hserves := arpHandle_serves σ data len
  rcases arpHeard_cases σ.rxBuffers data len with ⟨hheard, haccept⟩ | ⟨arp, hheard, haccept⟩
  · rw [haccept] at hserves
    obtain ⟨stats, -, hquiet⟩ := hserves
    cases hquiet.symm.trans hrun
    rwa [hheard, List.append_nil]
  · rw [haccept] at hserves
    have hserved : (Ethernet.arpHandle data len).run σ = (arpArrives arp).run σ := hserves
    rw [hheard, arpArrives_arpCache (hserved.symm.trans hrun)]
    exact h.hear arp

/-- Throughout a history the cache holds the table. -/
theorem Hears.holds (h : Hears heard σ) :
    CacheHolds (table 4 (announcements heard)) σ.arpCache := by
  induction h with
  | boot ram rx mac ip isn => exact ⟨_, rfl, rfl, by simp⟩
  | between hheard hsame ih => rwa [hsame]
  | handle hheard hrun ih => exact ih.arpHandle hrun

/-- Initialisation leaves the cache alone. -/
theorem Setup.Starts.hears {c : Setup} (h : c.Starts σ) : Hears [] σ := by
  have hinit : KeepsCache virtioPciInit :=
    (keepsCache_callKmalloc _).bind fun vdev ↦
      Keeps.ite (keepsCache_pure _) (keepsCache_modify fun _ ↦ rfl)
  have hqueues : KeepsCache (virtioNetSetupQueues c.rxSize (UInt16.ofNat (2 ^ c.txLogSize))
      c.rxRingMem c.txRingMem) := by
    intro σ a σ' hrun
    obtain ⟨_, _, hset⟩ := virtioNetSetupQueues_run c.rxSize_ne_zero c.txSize_ne_zero c.rxRingMem
      c.txRingMem σ
    cases hset.symm.trans hrun
    rfl
  exact .between (.boot c.ram c.rx c.mac c.ip c.isn)
    ((hinit.bind fun _ ↦ hqueues) _ _ _ h)

/-- `arp_handle` on each of the packets, which are given by what the receive buffers contain then,
where the packet is and how long it is. -/
def arpHandleEach : List (Memory × Nat × UInt32) → Action Unit
  | [] => pure ()
  | (rx, data, len) :: packets => do
      modify fun σ ↦ { σ with rxBuffers := rx }
      arpHandle data len
      arpHandleEach packets

/-- Every sequence of packets is handled. -/
theorem arpHandleEach_returns {L : Ledger} (h : L.Holds σ []) (hheard : Hears heard σ)
    (packets : List (Memory × Nat × UInt32)) : ∃ σ',
      (arpHandleEach packets).run σ = some ((), σ') ∧
      Hears (heard ++ packets.flatMap fun p ↦ arpHeard p.1 p.2.1 p.2.2) σ' := by
  induction packets generalizing σ L heard with
  | nil => exact ⟨σ, rfl, by simpa using hheard⟩
  | cons p packets ih =>
      obtain ⟨rx, data, len⟩ := p
      have hgiven := h.outside σ.netStats σ.rxQueue rx σ.arpCache
      obtain ⟨_, σ₁, hrun, L₁, h₁, -, -⟩ := arpHandle_spec hgiven data len σ.aetherIp
      have hbetween : Hears heard { σ with rxBuffers := rx } := .between hheard rfl
      obtain ⟨σ', hrest, hheard'⟩ := ih h₁ (.handle hbetween hrun)
      refine ⟨σ', ?_, ?_⟩
      · rw [arpHandleEach, run_modify_bind, run_bind_of_run hrun, hrest]
      · rwa [List.flatMap_cons, ← List.append_assoc]

/-- However many packets `arp_handle` is given, and whatever they contain, it returns, and the cache
remembers the first four addresses that were announced with what they announced last. -/
theorem arp_cache_remembers (c : Setup) (σ₀ : Node) (h : c.Starts σ₀)
    (packets : List (Memory × Nat × UInt32)) : ∃ σ,
      (arpHandleEach packets).run σ₀ = some ((), σ) ∧
      Remembers (packets.flatMap fun p ↦ arpHeard p.1 p.2.1 p.2.2) σ.arpCache := by
  obtain ⟨_, _, hstart, ⟨L, hs, -⟩, -⟩ := initialise_spec c
  cases hstart.symm.trans h
  obtain ⟨σ, hrun, hheard⟩ := arpHandleEach_returns hs.holds (Setup.Starts.hears h) packets
  exact ⟨σ, hrun, hheard.holds.remembers⟩

end Histories

/-- A request for `targetIp` from `senderIp`, as a well-behaved sender makes it up. -/
def arpRequest (senderMac : Mac) (senderIp : UInt32) (targetMac : Mac) (targetIp : UInt32) :
    ArpPacket where
  htype := htons 0x0001
  ptype := htons 0x0800
  hlen := 6
  plen := 4
  opcode := htons 1
  senderMac := senderMac
  senderIp := htonl senderIp
  targetMac := targetMac
  targetIp := htonl targetIp

/-- A probe, which announces no address, and then a request. -/
def sampleProbes : List (Memory × Nat × UInt32) :=
  [0, 0x0A000202].map fun ip ↦
    (writeBytes (fun _ ↦ 0) 0 (arpRequest gatewayMac ip gatewayMac 0x0A00020F).bytes, 0, 28)

/-- Only the request is remembered. -/
theorem arp_cache_remembers_probe : ∃ σ₀ σ, Setup.sample.Starts σ₀ ∧
    (arpHandleEach sampleProbes).run σ₀ = some ((), σ) ∧
    ∃ heard, announcements heard = [(0x0A000202, gatewayMac)] ∧ Remembers heard σ.arpCache := by
  obtain ⟨_, σ₀, hstart, -⟩ := initialise_spec Setup.sample
  obtain ⟨σ, hrun, hremembers⟩ := arp_cache_remembers Setup.sample σ₀ hstart sampleProbes
  exact ⟨σ₀, σ, hstart, hrun, _, by decide +kernel, hremembers⟩

end Aether.Ethernet
