/-!
# Traffic and health counters

The global counters of `kernel/health.c`. Each is an `unsigned long`, 64 bits wide, and wraps.
-/

namespace Aether.Kernel

/-- `net_stats_t`. -/
structure NetStats where
  rxPackets : UInt64 := 0
  txPackets : UInt64 := 0
  droppedPackets : UInt64 := 0
  bufferUsage : UInt64 := 0
  tcpActive : UInt64 := 0
  retransmissions : UInt64 := 0
  checksumErrors : UInt64 := 0
  deriving DecidableEq

/-- `health_report_checksum_error`. -/
def healthReportChecksumError (stats : NetStats) : NetStats :=
  { stats with
    checksumErrors := stats.checksumErrors + 1
    droppedPackets := stats.droppedPackets + 1 }

end Aether.Kernel
