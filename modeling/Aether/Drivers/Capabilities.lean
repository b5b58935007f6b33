import Aether.Drivers.VirtioPci

/-!
# Walks over capability lists

`xhci_claim_ownership` of `xhci.c`, and two properties of walks over device data.
`capability_walks_end` says when the walk over PCI capabilities and that over xHCI extended
capabilities end. `ownership_walk_follows` says when the latter follows the list, whose `next`
fields are distances and not offsets.
-/

namespace Aether.Drivers

open Kernel Chains

/-! ## Pointers are finitely many -/

instance finite_uInt8 : Finite UInt8 :=
  Finite.of_injective UInt8.toFin fun _ _ ↦ UInt8.toFin_inj.mp

instance finite_uInt64 : Finite UInt64 :=
  Finite.of_injective UInt64.toFin fun _ _ ↦ UInt64.toFin_inj.mp

/-! ## The walk of the xHCI driver -/

/-- `USB_BIOS_OWNED`. -/
def usbBiosOwned : UInt32 := 0x10000

/-- `USB_OS_OWNED`. -/
def usbOsOwned : UInt32 := 0x1000000

/-- `XHCI_EXT_CAP_LEGACY`. -/
def xhciExtCapLegacy : UInt8 := 1

/-- The register block of a controller: what reads return before the driver writes anything, and
what the reads of the Legacy Support register return afterwards. -/
structure XhciRegs where
  regs : UInt64 → UInt32
  afterRequest : Nat → UInt32

/-- The accesses that `xhci_claim_ownership` makes. The reads of capability headers are told from
others. -/
inductive XhciAccess where
  | read (addr : UInt64)
  | header (addr : UInt64)
  | write (addr : UInt64) (value : UInt32)
  deriving DecidableEq

namespace XhciRegs

variable (dev : XhciRegs) (base : UInt64)

/-- `cap_id` of the header at an address. -/
def capId (extPtr : UInt64) : UInt8 := (dev.regs extPtr &&& 0xFF).toUInt8

/-- `next_ptr` of the header at an address. -/
def nextPtr (extPtr : UInt64) : UInt8 := ((dev.regs extPtr >>> 8) &&& 0xFF).toUInt8

/-- The loop that waits for the BIOS, from its `i`-th read on. -/
def waitForBios (addr : UInt64) : Nat → Nat → List XhciAccess
  | 0, _ => []
  | timeout + 1, i =>
      .read addr ::
        if dev.afterRequest i &&& usbBiosOwned ≠ 0 ∧ 0 < timeout then
          waitForBios addr timeout (i + 1)
        else []

/-- The accesses to a Legacy Support capability. -/
def requestOwnership (extPtr : UInt64) : List XhciAccess :=
  .read (extPtr + 4) :: .write (extPtr + 4) (dev.regs (extPtr + 4) ||| usbOsOwned) ::
    waitForBios dev (extPtr + 4) 1000000 0

/-- The loop of `xhci_claim_ownership`, `none` when it outlasts its turns. -/
def claimLoop : Nat → UInt64 → Option (List XhciAccess)
  | 0, _ => none
  | turns + 1, extPtr =>
      if extPtr = 0 then some []
      else if dev.capId extPtr = xhciExtCapLegacy then
        some (.header extPtr :: dev.requestOwnership extPtr)
      else if dev.nextPtr extPtr = 0 then some [.header extPtr]
      else
        (claimLoop turns (base + ((dev.nextPtr extPtr).toUInt64 <<< 2))).map (.header extPtr :: ·)

/-- `offset` in `xhci_claim_ownership`. -/
def extOffset : UInt32 := (dev.regs (base + 0x10) >>> 16) <<< 2

/-- `xhci_claim_ownership`, allowed a number of turns. -/
def xhciClaimOwnership (turns : Nat) : Option (List XhciAccess) :=
  if dev.extOffset base = 0 then some [.read (base + 0x10)]
  else
    (dev.claimLoop base turns (base + (dev.extOffset base).toUInt64)).map (.read (base + 0x10) :: ·)

/-- The capability header that the loop reads after the one at `extPtr`. -/
def extNext (extPtr : UInt64) : Option UInt64 :=
  if extPtr = 0 ∨ dev.capId extPtr = xhciExtCapLegacy ∨ dev.nextPtr extPtr = 0 then none
  else some (base + ((dev.nextPtr extPtr).toUInt64 <<< 2))

variable {dev base}

/-- The loop returns when the walk over the pointers ends, and takes as many turns. -/
theorem claimLoop_isSome (turns : Nat) (extPtr : UInt64) :
    (dev.claimLoop base turns extPtr).isSome = (visits (dev.extNext base) turns extPtr).isSome := by
  induction turns generalizing extPtr with
  | zero => rfl
  | succ turns ih =>
      by_cases hstop : extPtr = 0 ∨ dev.capId extPtr = xhciExtCapLegacy ∨ dev.nextPtr extPtr = 0
      · have hnext : dev.extNext base extPtr = none := if_pos hstop
        rw [visits_stop hnext, claimLoop]
        split
        · rfl
        split
        · rfl
        · rename_i hlive hother
          rw [if_pos ((hstop.resolve_left hlive).resolve_left hother)]
          rfl
      · have hnext : dev.extNext base extPtr =
            some (base + ((dev.nextPtr extPtr).toUInt64 <<< 2)) := if_neg hstop
        obtain ⟨hlive, hother, hmore⟩ : extPtr ≠ 0 ∧ dev.capId extPtr ≠ xhciExtCapLegacy ∧
            dev.nextPtr extPtr ≠ 0 := by
          simpa only [not_or] using hstop
        rw [visits_hop hnext, claimLoop, if_neg hlive, if_neg hother, if_neg hmore,
          Option.isSome_map, Option.isSome_map, ih]

/-- `xhci_claim_ownership` returns if and only if there is no list or its walk does not come back.
-/
theorem xhciClaimOwnership_returns_iff :
    (∃ turns, (dev.xhciClaimOwnership base turns).isSome) ↔ dev.extOffset base = 0 ∨
      ¬ Returns (dev.extNext base) (base + (dev.extOffset base).toUInt64) := by
  rw [← ends_iff]
  by_cases hnone : dev.extOffset base = 0
  · refine iff_of_true ⟨0, ?_⟩ (.inl hnone)
    rw [xhciClaimOwnership, if_pos hnone]
    rfl
  · rw [or_iff_right hnone]
    refine exists_congr fun turns ↦ ?_
    rw [xhciClaimOwnership, if_neg hnone, Option.isSome_map, claimLoop_isSome]

end XhciRegs

/-- `virtio_pci_cap_lookup` returns if and only if its walk does not come back. -/
theorem virtioPciCapLookup_returns_iff (cfg : ConfigSpace) (banks : VirtioPciBanks) (mmu : Mmu) :
    (∃ turns, (virtioPciCapLookup cfg turns banks mmu).isSome) ↔
      ¬ Returns (capNext cfg) (capHead cfg) := by
  rw [← ends_iff]
  refine exists_congr fun turns ↦ ?_
  rw [virtioPciCapLookup, capLoop_isSome]

/-- The walks over PCI capabilities and over xHCI extended capabilities end if and only if the
`next` pointers that they follow never lead from a capability back to it. -/
theorem capability_walks_end (cfg : ConfigSpace) (banks : VirtioPciBanks) (mmu : Mmu)
    (dev : XhciRegs) (base : UInt64) :
    ((∃ turns, (virtioPciCapLookup cfg turns banks mmu).isSome) ↔
      ¬ Returns (capNext cfg) (capHead cfg)) ∧
    ((∃ turns, (dev.xhciClaimOwnership base turns).isSome) ↔
      dev.extOffset base = 0 ∨
        ¬ Returns (dev.extNext base) (base + (dev.extOffset base).toUInt64)) :=
  ⟨virtioPciCapLookup_returns_iff cfg banks mmu, XhciRegs.xhciClaimOwnership_returns_iff⟩

/-- A configuration space whose only capability, at `0x40`, points at itself. -/
def ConfigSpace.selfLoop : ConfigSpace := fun reg ↦
  if reg = 0x34 then 0x40 else if reg = 0x40 then 0x4005 else 0

/-- A controller whose registers at `0x80000000` have the given values and are zero elsewhere. -/
def XhciRegs.sample (values : List (UInt64 × UInt32)) : XhciRegs where
  regs addr := (values.lookup addr).getD 0
  afterRequest _ := 0

/-- A controller with one extended capability, 32 bytes from the start of its registers, that points
at itself. -/
def XhciRegs.selfLoop : XhciRegs := .sample [(0x80000010, 0x00080000), (0x80000020, 0x0802)]

/-- Neither walk ends on these. -/
theorem capability_walks_hang :
    (¬ ∃ turns, (virtioPciCapLookup .selfLoop turns ⟨0, 0, 0, 0, 0⟩
      ⟨⟨fun _ ↦ 0, fun _ ↦ 0, fun _ ↦ 0, fun _ ↦ 0, fun _ _ ↦ 0⟩, vmallocStart⟩).isSome) ∧
    ¬ ∃ turns, (XhciRegs.selfLoop.xhciClaimOwnership 0x80000000 turns).isSome := by
  constructor
  · rw [virtioPciCapLookup_returns_iff, not_not]
    have hhop : capNext .selfLoop 0x40 = some 0x40 := by decide
    exact ⟨0x40, .refl, .single hhop⟩
  · rw [XhciRegs.xhciClaimOwnership_returns_iff, not_or, not_not]
    have hhop : XhciRegs.selfLoop.extNext 0x80000000 0x80000020 = some 0x80000020 := by
      decide
    exact ⟨by decide, 0x80000020, .refl, .single hhop⟩

/-! ## The list that the walk is meant to follow -/

namespace XhciRegs

/-- The address of the capability at a distance in 32-bit words from the registers' start. -/
def capAddress (base : UInt64) (word : Nat) : UInt64 := base + UInt64.ofNat (4 * word)

/-- The capabilities from one on, each at the distance from the one before that this one's `next`
field gives. -/
inductive Caps (dev : XhciRegs) (base : UInt64) : Nat → List Nat → Prop where
  | last {word : Nat} : dev.nextPtr (capAddress base word) = 0 → Caps dev base word [word]
  | link {word : Nat} {rest : List Nat} : dev.nextPtr (capAddress base word) ≠ 0 →
      Caps dev base (word + (dev.nextPtr (capAddress base word)).toNat) rest →
      Caps dev base word (word :: rest)

/-- The first word of the list, `xECP` of `HCCPARAMS1`. -/
def firstWord (dev : XhciRegs) (base : UInt64) : Nat := (dev.regs (base + 0x10) >>> 16).toNat

/-- A well-formed list: it is empty, or its capabilities are linked and inside the address space. -/
structure ListOf (dev : XhciRegs) (base : UInt64) (caps : List Nat) : Prop where
  linked : if dev.firstWord base = 0 then caps = [] else Caps dev base (dev.firstWord base) caps
  inside : ∀ word ∈ caps, base.toNat + 4 * word + 8 ≤ 2 ^ 64

variable (dev : XhciRegs) (base : UInt64)

/-- The capability is a Legacy Support one. -/
def IsLegacy (word : Nat) : Prop := dev.capId (capAddress base word) = xhciExtCapLegacy

instance : DecidablePred (dev.IsLegacy base) := fun _ ↦ inferInstanceAs (Decidable (_ = _))

/-- The capabilities of a list up to the first Legacy Support one. -/
def upToLegacy : List Nat → List Nat
  | [] => []
  | word :: rest => if dev.IsLegacy base word then [word] else word :: upToLegacy rest

/-- The write that requests the ownership through a capability. -/
def request (word : Nat) : UInt64 × UInt32 :=
  (capAddress base word + 4, dev.regs (capAddress base word + 4) ||| usbOsOwned)

end XhciRegs

/-- The headers that were read. -/
def headersRead (accesses : List XhciAccess) : List UInt64 :=
  accesses.filterMap fun
    | .header addr => some addr
    | .read _ | .write _ _ => none

/-- The writes. -/
def writesOf (accesses : List XhciAccess) : List (UInt64 × UInt32) :=
  accesses.filterMap fun
    | .write addr value => some (addr, value)
    | .read _ | .header _ => none

namespace XhciRegs

/-- `xhci_claim_ownership` returns, after it read the headers of the list up to the first Legacy
Support capability and requested the ownership through that one, if there is one. -/
def Follows (dev : XhciRegs) (base : UInt64) (caps : List Nat) : Prop :=
  ∃ turns accesses, dev.xhciClaimOwnership base turns = some accesses ∧
    headersRead accesses = (dev.upToLegacy base caps).map (capAddress base) ∧
    writesOf accesses = ((caps.find? (dev.IsLegacy base ·)).map (dev.request base)).toList

variable {dev : XhciRegs} {base : UInt64}

/-- Waiting reads no header and writes nothing. -/
theorem waitForBios_reads (dev : XhciRegs) (addr : UInt64) (timeout i : Nat) :
    headersRead (dev.waitForBios addr timeout i) = [] ∧
      writesOf (dev.waitForBios addr timeout i) = [] := by
  induction timeout generalizing i with
  | zero => exact ⟨rfl, rfl⟩
  | succ timeout ih =>
      rw [waitForBios]
      split
      · exact ih (i + 1)
      · exact ⟨rfl, rfl⟩

/-- `xECP` has 16 bits. -/
theorem firstWord_lt (dev : XhciRegs) (base : UInt64) : dev.firstWord base < 2 ^ 16 := by
  have hreg := (dev.regs (base + 0x10)).toNat_lt
  unfold firstWord
  rw [UInt32.toNat_shiftRight]
  simp only [UInt32.reduceToNat, Nat.reduceMod, Nat.shiftRight_eq_div_pow]
  omega

/-- The offset of the list is its first word, in bytes. -/
theorem extOffset_eq (dev : XhciRegs) (base : UInt64) :
    base + (dev.extOffset base).toUInt64 = capAddress base (dev.firstWord base) ∧
      (dev.extOffset base = 0 ↔ dev.firstWord base = 0) := by
  have hlt := firstWord_lt dev base
  have hoffset : (dev.extOffset base).toNat = 4 * dev.firstWord base := by
    unfold extOffset
    rw [UInt32.toNat_shiftLeft]
    show dev.firstWord base <<< 2 % 2 ^ 32 = _
    rw [Nat.shiftLeft_eq]
    omega
  constructor
  · unfold capAddress
    rw [← hoffset]
    congr 1
    rw [← UInt64.toNat_inj, UInt32.toNat_toUInt64, UInt64.toNat_ofNat_of_lt']
    rw [UInt64.size]
    omega
  · rw [← UInt32.toNat_inj, hoffset]
    show 4 * _ = 0 ↔ _
    omega

/-- The address of a listed capability is not zero. -/
theorem capAddress_ne_zero {word : Nat} (hword : 0 < word)
    (hinside : base.toNat + 4 * word + 8 ≤ 2 ^ 64) : capAddress base word ≠ 0 := by
  rw [ne_eq, ← UInt64.toNat_inj, capAddress, UInt64.toNat_add,
    UInt64.toNat_ofNat_of_lt' (by rw [UInt64.size]; omega), UInt64.toNat_zero]
  omega

/-- The first header that the loop reads. -/
theorem claimLoop_head {turns : Nat} {extPtr : UInt64} {accesses : List XhciAccess}
    (h : dev.claimLoop base turns extPtr = some accesses) :
    ∀ addr ∈ (headersRead accesses).head?, addr = extPtr := by
  cases turns with
  | zero => cases h
  | succ turns =>
      rw [claimLoop] at h
      split at h
      · cases h
        intro addr haddr
        cases haddr
      split at h
      · cases h
        intro addr haddr
        exact (Option.some.inj haddr).symm
      split at h
      · cases h
        intro addr haddr
        exact (Option.some.inj haddr).symm
      · obtain ⟨rest, -, rfl⟩ := Option.map_eq_some_iff.mp h
        intro addr haddr
        exact (Option.some.inj haddr).symm

/-- A list starts with its first capability. -/
theorem Caps.exists_cons {word : Nat} {caps : List Nat} (h : Caps dev base word caps) :
    ∃ rest, caps = word :: rest := by
  cases h with
  | last hlast => exact ⟨[], rfl⟩
  | link hmore hrest => exact ⟨_, rfl⟩

/-- A list up to a Legacy Support capability starts like the list. -/
theorem head?_upToLegacy (word : Nat) (rest : List Nat) :
    (dev.upToLegacy base (word :: rest)).head? = some word := by
  rw [upToLegacy]
  split
  · rfl
  · rfl

/-- An empty list has no offset. -/
theorem ListOf.nil (h : dev.ListOf base []) : dev.extOffset base = 0 := by
  have hlinked := h.linked
  rw [(extOffset_eq dev base).2]
  by_contra hfirst
  rw [if_neg hfirst] at hlinked
  obtain ⟨rest, hcaps⟩ := hlinked.exists_cons
  cases hcaps

/-- A list that is not empty starts at its first word. -/
theorem ListOf.cons {word : Nat} {rest : List Nat} (h : dev.ListOf base (word :: rest)) :
    0 < word ∧ word < 2 ^ 16 ∧ capAddress base word ≠ 0 ∧ Caps dev base word (word :: rest) ∧
      ∀ turns, dev.xhciClaimOwnership base turns =
        (dev.claimLoop base turns (capAddress base word)).map (.read (base + 0x10) :: ·) := by
  have hlinked := h.linked
  obtain ⟨hstart, hnone⟩ := extOffset_eq dev base
  have hfirst : dev.firstWord base ≠ 0 := by
    intro hfirst
    rw [if_pos hfirst] at hlinked
    cases hlinked
  rw [if_neg hfirst] at hlinked
  obtain ⟨_, hcaps⟩ := hlinked.exists_cons
  obtain ⟨hword, -⟩ := List.cons.inj hcaps
  rw [← hword] at hlinked hstart hfirst
  refine ⟨Nat.pos_of_ne_zero hfirst, ?_, ?_, hlinked, fun turns ↦ ?_⟩
  · rw [hword]
    exact firstWord_lt dev base
  · exact capAddress_ne_zero (Nat.pos_of_ne_zero hfirst) (h.inside word List.mem_cons_self)
  · rw [xhciClaimOwnership, if_neg (by rw [hnone, ← hword]; exact hfirst), hstart]

/-- An offset from the start of the registers is never a distance from a capability. -/
theorem capAddress_add_ne {word : Nat} (hpos : 0 < word) (hlt : word < 2 ^ 16) (next : UInt8) :
    capAddress base (word + next.toNat) ≠ base + (next.toUInt64 <<< 2) := by
  intro heq
  have hnext := next.toNat_lt
  have hcancel : UInt64.ofNat (4 * (word + next.toNat)) = next.toUInt64 <<< 2 :=
    (UInt64.add_right_inj base).mp heq
  have hnat := congrArg UInt64.toNat hcancel
  rw [UInt64.toNat_ofNat_of_lt' (by rw [UInt64.size]; omega), UInt64.toNat_shiftLeft,
    UInt8.toNat_toUInt64] at hnat
  have hshift : next.toNat <<< ((2 : UInt64).toNat % 64) = 4 * next.toNat := by
    show next.toNat <<< 2 = _
    rw [Nat.shiftLeft_eq]
    omega
  rw [hshift] at hnat
  omega

end XhciRegs

open XhciRegs

/-- For every well-formed list of extended capabilities: `xhci_claim_ownership` follows it up to the
first Legacy Support capability, and requests the ownership through that one if and only if there is
one, exactly when the list is empty or its first capability is a Legacy Support one or the last. -/
theorem ownership_walk_follows (dev : XhciRegs) (base : UInt64) (caps : List Nat)
    (h : dev.ListOf base caps) : dev.Follows base caps ↔
      ∀ word ∈ caps.head?, dev.IsLegacy base word ∨ dev.nextPtr (capAddress base word) = 0 := by
  cases caps with
  | nil =>
      refine iff_of_true ⟨0, [.read (base + 0x10)], ?_, rfl, rfl⟩ fun word hword ↦ by cases hword
      rw [xhciClaimOwnership, if_pos h.nil]
  | cons word rest =>
      obtain ⟨hpos, hlt, hne, hcaps, hrun⟩ := h.cons
      simp only [List.head?_cons, Option.mem_some_iff, forall_eq']
      by_cases hlegacy : dev.IsLegacy base word
      · obtain ⟨hreads, hwrites⟩ :=
          waitForBios_reads dev (capAddress base word + 4) 1000000 0
        have hkind : dev.capId (capAddress base word) = xhciExtCapLegacy := hlegacy
        -- the first capability is the legacy one, and the walk ends there
        refine iff_of_true ⟨1, .read (base + 0x10) :: .header (capAddress base word) ::
          dev.requestOwnership (capAddress base word), ?_, ?_, ?_⟩ (.inl hlegacy)
        · rw [hrun, claimLoop, if_neg hne, if_pos hkind, Option.map_some]
        · rw [upToLegacy, if_pos hlegacy]
          exact congrArg (capAddress base word :: ·) hreads
        · have hfind : (word :: rest).find? (dev.IsLegacy base ·) = some word :=
            List.find?_cons_of_pos (decide_eq_true hlegacy)
          rw [hfind]
          exact congrArg (dev.request base word :: ·) hwrites
      have hkind : dev.capId (capAddress base word) ≠ xhciExtCapLegacy := hlegacy
      by_cases hlast : dev.nextPtr (capAddress base word) = 0
      · have hrest : rest = [] := by
          cases hcaps with
          | last => rfl
          | link hmore => exact absurd hlast hmore
        refine iff_of_true ⟨1, [.read (base + 0x10), .header (capAddress base word)], ?_, ?_, ?_⟩
          (.inr hlast)
        · rw [hrun, claimLoop, if_neg hne, if_neg hkind, if_pos hlast, Option.map_some]
        · rw [upToLegacy, if_neg hlegacy, hrest]
          rfl
        · rw [hrest, List.find?_cons_of_neg (by simpa using hlegacy)]
          rfl
      · -- the second header that is read is not that of the second capability
        refine iff_of_false ?_ (not_or.mpr ⟨hlegacy, hlast⟩)
        intro hfollows
        obtain ⟨turns, accesses, hcall, hheaders, -⟩ := hfollows
        rw [hrun] at hcall
        obtain ⟨walked, hloop, rfl⟩ := Option.map_eq_some_iff.mp hcall
        cases turns with
        | zero => cases hloop
        | succ turns =>
            rw [claimLoop, if_neg hne, if_neg hkind, if_neg hlast] at hloop
            obtain ⟨others, hothers, rfl⟩ := Option.map_eq_some_iff.mp hloop
            have hsecond : ∃ after, rest =
                (word + (dev.nextPtr (capAddress base word)).toNat) :: after := by
              cases hcaps with
              | last hstop => exact absurd hstop hlast
              | link _ hrest => exact hrest.exists_cons
            obtain ⟨after, rfl⟩ := hsecond
            rw [upToLegacy, if_neg hlegacy, List.map_cons] at hheaders
            have htail : headersRead others = (dev.upToLegacy base
                ((word + (dev.nextPtr (capAddress base word)).toNat) :: after)).map
                  (capAddress base) := (List.cons.inj hheaders).2
            have hhead := claimLoop_head hothers
            rw [htail, List.head?_map, head?_upToLegacy] at hhead
            exact capAddress_add_ne hpos hlt _ (hhead _ rfl)

/-- A controller whose list starts with Legacy Support, owned by the BIOS, 32 bytes from the start
of its registers, and goes on with two capabilities of another kind, 16 and 48 bytes after it. -/
def XhciRegs.legacyFirst : XhciRegs :=
  .sample [(0x80000010, 0x00080000), (0x80000020, 0x0401), (0x80000024, 0x10000),
    (0x80000030, 0x0802), (0x80000050, 0x0002)]

/-- That one is followed, as far as its first capability. -/
theorem ownership_walk_follows_first : XhciRegs.legacyFirst.Follows 0x80000000 [8, 12, 20] ∧
    XhciRegs.legacyFirst.upToLegacy 0x80000000 [8, 12, 20] = [8] := by
  have hlast : Caps XhciRegs.legacyFirst 0x80000000 20 [20] := .last (by decide)
  have hmore : Caps XhciRegs.legacyFirst 0x80000000 12 [12, 20] := .link (by decide) hlast
  have hlist : XhciRegs.legacyFirst.ListOf 0x80000000 [8, 12, 20] :=
    ⟨.link (by decide) hmore, by decide⟩
  exact ⟨(ownership_walk_follows XhciRegs.legacyFirst 0x80000000 [8, 12, 20] hlist).mpr (by decide),
    by decide⟩

/-- A controller whose list is a capability of another kind, 32 bytes from the start of its
registers, and Legacy Support, owned by the BIOS, 16 bytes after it. -/
def XhciRegs.legacySecond : XhciRegs :=
  .sample [(0x80000010, 0x00080000), (0x80000020, 0x0402), (0x80000030, 0x0001),
    (0x80000034, 0x10000)]

/-- There the walk reads `HCCPARAMS1` as if it were the second capability, and never requests the
ownership. -/
theorem ownership_walk_strays : XhciRegs.legacySecond.ListOf 0x80000000 [8, 12] ∧
    (∀ turns, XhciRegs.legacySecond.xhciClaimOwnership 0x80000000 (turns + 2) =
      some [.read 0x80000010, .header 0x80000020, .header 0x80000010]) ∧
    ¬ XhciRegs.legacySecond.Follows 0x80000000 [8, 12] := by
  have hfirst : XhciRegs.legacySecond.firstWord 0x80000000 = 8 := by decide
  have hnext : (XhciRegs.legacySecond.nextPtr (capAddress 0x80000000 8)).toNat = 4 := by decide
  have hcaps : Caps XhciRegs.legacySecond 0x80000000 8 [8, 12] := by
    refine .link (by decide) ?_
    rw [hnext]
    exact .last (by decide)
  have hrun : ∀ turns, XhciRegs.legacySecond.xhciClaimOwnership 0x80000000 (turns + 2) =
      some [.read 0x80000010, .header 0x80000020, .header 0x80000010] := fun _ ↦ rfl
  refine ⟨⟨?_, by decide⟩, hrun, ?_⟩
  · rw [hfirst, if_neg (by decide)]
    exact hcaps
  · intro hfollows
    obtain ⟨turns, accesses, hcall, hheaders, -⟩ := hfollows
    cases turns with
    | zero => cases hcall
    | succ turns =>
        cases turns with
        | zero => cases hcall
        | succ turns =>
            cases hcall.symm.trans (hrun turns)
            exact absurd hheaders (by decide)

end Aether.Drivers
