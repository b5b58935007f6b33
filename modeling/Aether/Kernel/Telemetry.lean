import Aether.Common.Decimals
import Aether.Kernel.Health
import Aether.Lib.Json

/-!
# Telemetry

`mini_sprintf_telemetry` and `net_get_telemetry_json`. Each key is copied over the terminator that
`ltoa` left behind the value before it, so that what remains is one text with one terminator: a JSON
object with the counters as its members.
-/

namespace Aether.Kernel

open ByteMemory Ascii Common

/-! ## The printer -/

/-- The loop `while (*k) *p++ = *k++;` on a string constant: the pointer `p` and the memory. -/
def copyLoop : List UInt8 → Nat → Memory → Nat × Memory
  | [], p, m => (p, m)
  | c :: k, p, m => copyLoop k (p + 1) (writeBytes m p [c])

/-- The loop of `mini_sprintf_telemetry` over the keys and the values. -/
def telemetryLoop : List (List UInt8 × UInt64) → Nat → Memory → Option (Nat × Memory)
  | [], p, m => some (p, m)
  | (k, value) :: fields, p, m => do
      let (p, m) := copyLoop k p m
      let (p, m) ← ltoa value p m
      telemetryLoop fields p m

/-- The array `keys`. -/
def telemetryKeys : List (List UInt8) :=
  [text "\x7b\"rx\":", text ",\"tx\":", text ",\"err\":", text ",\"buf\":",
    text ",\"tcp_active\":", text ",\"retransmissions\":", text ",\"checksum_err\":"]

/-- `mini_sprintf_telemetry`. -/
def miniSprintfTelemetry (out : Nat) (rx tx err buf tcp rexmit cksum : UInt64) (m : Memory) :
    Option Memory := do
  let values := [rx, tx, err, buf, tcp, rexmit, cksum]
  let (p, m) ← telemetryLoop (telemetryKeys.zip values) out m
  let m := writeBytes m p (text "\x7d")
  let p := p + 1
  pure (writeBytes m p [0])

/-- `net_get_telemetry_json`. -/
def netGetTelemetryJson (buffer : Nat) (stats : NetStats) (m : Memory) : Option Memory :=
  miniSprintfTelemetry buffer stats.rxPackets stats.txPackets stats.droppedPackets
    stats.bufferUsage stats.tcpActive stats.retransmissions stats.checksumErrors m

/-! ## What it prints -/

/-- The text of some fields: keys and values in turn. -/
def fieldsText (fields : List (List UInt8 × UInt64)) : List UInt8 :=
  fields.flatMap fun field ↦ field.1 ++ decimal field.2.toNat

@[simp] theorem fieldsText_cons (k : List UInt8) (value : UInt64)
    (fields : List (List UInt8 × UInt64)) :
    fieldsText ((k, value) :: fields) = k ++ (decimal value.toNat ++ fieldsText fields) := by
  rw [fieldsText, List.flatMap_cons, List.append_assoc]
  rfl

section Printing

theorem copyLoop_eq (k : List UInt8) (p : Nat) (m : Memory) :
    copyLoop k p m = (p + k.length, writeBytes m p k) := by
  induction k generalizing p m with
  | nil =>
      have hnothing : writeBytes m p [] = m := writeBytes_eq_self.mpr rfl
      rw [copyLoop, hnothing]
      rfl
  | cons c k ih =>
      have hcons : writeBytes (writeBytes m p [c]) (p + 1) k = writeBytes m p (c :: k) :=
        writeBytes_append m p [c] k
      rw [copyLoop, ih, hcons, List.length_cons, Nat.add_assoc, Nat.add_comm 1]

/-- What is written over a terminator takes its place. -/
theorem write_over_terminator (m : Memory) (a : Nat) (xs cs : List UInt8) (hcs : cs ≠ []) :
    writeBytes (writeBytes m a (xs ++ [0])) (a + xs.length) cs = writeBytes m a (xs ++ cs) := by
  obtain ⟨c, cs, rfl⟩ := List.exists_cons_of_ne_nil hcs
  have hfirst (m' : Memory) (a' : Nat) :
      writeBytes m' a' (c :: cs) = writeBytes (writeBytes m' a' [c]) (a' + 1) cs :=
    (writeBytes_append m' a' [c] cs).symm
  rw [← writeBytes_append m a xs [0], ← writeBytes_append m a xs (c :: cs), hfirst,
    writeBytes_over _ _ (rfl : [0].length = [c].length), ← hfirst]

/-- Whatever comes behind the fields finds their text in front of it. -/
theorem telemetryLoop_eq (fields : List (List UInt8 × UInt64)) (p : Nat) (m : Memory) :
    ∃ m', telemetryLoop fields p m = some (p + (fieldsText fields).length, m') ∧
      ∀ cs, cs ≠ [] → writeBytes m' (p + (fieldsText fields).length) cs =
        writeBytes m p (fieldsText fields ++ cs) := by
  induction fields generalizing p m with
  | nil => exact ⟨m, rfl, fun cs _ ↦ rfl⟩
  | cons field fields ih =>
      obtain ⟨k, value⟩ := field
      obtain ⟨m', hrun, hbehind⟩ := ih (p + k.length + (decimal value.toNat).length)
        (writeBytes (writeBytes m p k) (p + k.length) (decimal value.toNat ++ [0]))
      have hlength : (fieldsText ((k, value) :: fields)).length =
          k.length + (decimal value.toNat).length + (fieldsText fields).length := by
        rw [fieldsText_cons, List.length_append, List.length_append, Nat.add_assoc]
      refine ⟨m', ?_, fun cs hcs ↦ ?_⟩
      · rw [telemetryLoop, copyLoop_eq]
        dsimp only
        rw [ltoa_eq, Option.bind_eq_bind, Option.bind_some]
        dsimp only
        rw [hrun, hlength]
        congr 2
        omega
      · have hmore : fieldsText fields ++ cs ≠ [] := by simp [hcs]
        rw [hlength, ← Nat.add_assoc, ← Nat.add_assoc, hbehind cs hcs,
          write_over_terminator _ _ _ _ hmore, writeBytes_append, fieldsText_cons,
          List.append_assoc, List.append_assoc]

end Printing

/-- The members of the object. -/
def telemetryMembers (rx tx err buf tcp rexmit cksum : UInt64) : List (List UInt8 × Nat) :=
  [(text "rx", rx.toNat), (text "tx", tx.toNat), (text "err", err.toNat), (text "buf", buf.toNat),
    (text "tcp_active", tcp.toNat), (text "retransmissions", rexmit.toNat),
    (text "checksum_err", cksum.toNat)]

/-- The text of the object. -/
def telemetryText (rx tx err buf tcp rexmit cksum : UInt64) : List UInt8 :=
  text "\x7b\"rx\":" ++ decimal rx.toNat ++ text ",\"tx\":" ++ decimal tx.toNat ++
    text ",\"err\":" ++ decimal err.toNat ++ text ",\"buf\":" ++ decimal buf.toNat ++
    text ",\"tcp_active\":" ++ decimal tcp.toNat ++
    text ",\"retransmissions\":" ++ decimal rexmit.toNat ++
    text ",\"checksum_err\":" ++ decimal cksum.toNat ++ text "\x7d"

section Text

variable (rx tx err buf tcp rexmit cksum : UInt64)

/-- The text is that of the fields, in braces. -/
theorem telemetryText_eq_fields : telemetryText rx tx err buf tcp rexmit cksum =
    fieldsText (telemetryKeys.zip [rx, tx, err, buf, tcp, rexmit, cksum]) ++ text "\x7d" := by
  simp only [telemetryKeys, telemetryText, List.zip_cons_cons, List.zip_nil_left, fieldsText_cons,
    List.append_assoc]
  rfl

/-- The printer writes the text and its terminator. -/
theorem miniSprintfTelemetry_eq (out : Nat) (m : Memory) :
    miniSprintfTelemetry out rx tx err buf tcp rexmit cksum m =
      some (writeBytes m out (telemetryText rx tx err buf tcp rexmit cksum ++ [0])) := by
  obtain ⟨m', hrun, hbehind⟩ := telemetryLoop_eq
    (telemetryKeys.zip [rx, tx, err, buf, tcp, rexmit, cksum]) out m
  have hclose := hbehind (text "\x7d" ++ [0]) (by decide)
  rw [← writeBytes_append, ← List.append_assoc, ← telemetryText_eq_fields] at hclose
  rw [miniSprintfTelemetry, hrun, Option.bind_eq_bind, Option.bind_some]
  exact congrArg some hclose

/-- So does the export of the health counters. -/
theorem netGetTelemetryJson_eq (buffer : Nat) (stats : NetStats) (m : Memory) :
    netGetTelemetryJson buffer stats m = some (writeBytes m buffer
      (telemetryText stats.rxPackets stats.txPackets stats.droppedPackets stats.bufferUsage
        stats.tcpActive stats.retransmissions stats.checksumErrors ++ [0])) :=
  miniSprintfTelemetry_eq _ _ _ _ _ _ _ buffer m

/-- Each key is a name in quotes, behind a brace or a comma. -/
theorem telemetryKeys_eq : telemetryKeys =
    [123 :: 34 :: (text "rx" ++ [34, 58]), 44 :: 34 :: (text "tx" ++ [34, 58]),
      44 :: 34 :: (text "err" ++ [34, 58]), 44 :: 34 :: (text "buf" ++ [34, 58]),
      44 :: 34 :: (text "tcp_active" ++ [34, 58]), 44 :: 34 :: (text "retransmissions" ++ [34, 58]),
      44 :: 34 :: (text "checksum_err" ++ [34, 58])] := by
  decide +kernel

/-- The text is that of an object of natural numbers. -/
theorem telemetryText_eq_compact : telemetryText rx tx err buf tcp rexmit cksum =
    Json.compact (text "rx", rx.toNat)
      (telemetryMembers rx tx err buf tcp rexmit cksum).tail := by
  have hbrace : text "\x7d" = [125] := by decide +kernel
  rw [telemetryText_eq_fields, telemetryKeys_eq, hbrace]
  simp [Json.compact, Json.member, telemetryMembers, fieldsText]

/-- The names need no escape. -/
theorem plain_telemetryMembers :
    ∀ m ∈ telemetryMembers rx tx err buf tcp rexmit cksum, Json.Plain m.1 := by
  have hnames : ∀ name ∈ [text "rx", text "tx", text "err", text "buf", text "tcp_active",
      text "retransmissions", text "checksum_err"], Json.Plain name := by
    unfold Json.Plain
    decide +kernel
  intro m hm
  refine hnames m.1 ?_
  exact List.mem_map_of_mem (f := Prod.fst) hm

/-- The text has no terminator in it. -/
theorem zero_not_mem_telemetryText :
    0 ∉ telemetryText rx tx err buf tcp rexmit cksum := by
  have hkeys : ∀ k ∈ telemetryKeys, 0 ∉ k := by decide +kernel
  have hdigits (n : Nat) : 0 ∉ decimal n := fun hmem ↦
    absurd (isDigit_of_mem_decimal n 0 hmem) (by decide)
  rw [telemetryText_eq_fields, List.mem_append, not_or]
  refine ⟨fun hmem ↦ ?_, by decide +kernel⟩
  obtain ⟨field, hfield, hin⟩ := List.mem_flatMap.mp hmem
  rcases List.mem_append.mp hin with hin | hin
  · exact hkeys field.1 (List.of_mem_zip hfield).1 hin
  · exact hdigits _ hin

end Text

/-- For all values of the counters, the printer and the export of the counters leave one text with a
terminator behind it, and change nothing else. The text is the keys with the decimals of the counters, and as JSON it denotes
the object with exactly these members. -/
theorem telemetry_round_trip (out : Nat) (rx tx err buf tcp rexmit cksum : UInt64) (m : Memory) :
    ∃ json, miniSprintfTelemetry out rx tx err buf tcp rexmit cksum m =
        some (writeBytes m out (json ++ [0])) ∧
      netGetTelemetryJson out ⟨rx, tx, err, buf, tcp, rexmit, cksum⟩ m =
        some (writeBytes m out (json ++ [0])) ∧ 0 ∉ json ∧
      json = text "\x7b\"rx\":" ++ decimal rx.toNat ++ text ",\"tx\":" ++ decimal tx.toNat ++
        text ",\"err\":" ++ decimal err.toNat ++ text ",\"buf\":" ++ decimal buf.toNat ++
        text ",\"tcp_active\":" ++ decimal tcp.toNat ++
        text ",\"retransmissions\":" ++ decimal rexmit.toNat ++
        text ",\"checksum_err\":" ++ decimal cksum.toNat ++ text "\x7d" ∧
      Json.parse json = some (.object
        ((telemetryMembers rx tx err buf tcp rexmit cksum).map Json.memberValue)) := by
  refine ⟨_, miniSprintfTelemetry_eq rx tx err buf tcp rexmit cksum out m,
    netGetTelemetryJson_eq out ⟨rx, tx, err, buf, tcp, rexmit, cksum⟩ m,
    zero_not_mem_telemetryText rx tx err buf tcp rexmit cksum, rfl, ?_⟩
  rw [telemetryText_eq_compact]
  exact Json.parse_compact _ _ (plain_telemetryMembers rx tx err buf tcp rexmit cksum)

end Aether.Kernel
