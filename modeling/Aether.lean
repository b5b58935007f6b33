import Aether.Kernel.HeapRuns
import Aether.Kernel.Ioremap
import Aether.Kernel.HeapLimits
import Aether.Kernel.Console
import Aether.Kernel.Telemetry
import Aether.Drivers.Capabilities
import Aether.Drivers.VirtioRingRuns
import Aether.Ethernet.Roundtrip
import Aether.Ethernet.Leaks
import Aether.Ethernet.Internet
import Aether.Ethernet.Framing
import Aether.Ethernet.SequenceNumbers
import Aether.Ethernet.Handshake
import Aether.Ethernet.Closing
import Aether.Ethernet.Delivery
import Aether.Ethernet.Network
import Aether.Ethernet.Isolation
import Aether.Ethernet.TransmitRing
import Aether.Ethernet.DropRules
import Aether.Ethernet.SendRanges
import Aether.Ethernet.Promises
import Aether.Ethernet.FrameReads
import Aether.Ethernet.TransmitLengths
import Aether.Ethernet.ErrorDetection
import Aether.Ethernet.ReceiveRuns
import Aether.Ethernet.HttpGet
import Aether.Ethernet.QueueSetup
import Aether.Ethernet.Counters
import Aether.Ethernet.Polling
import Aether.Ethernet.Padding
import Aether.Drivers.PciWindows
import Aether.Ethernet.Enumeration
import Aether.Ethernet.ArpExchange
import Aether.Ethernet.Ipv6
import Aether.Common.Ksnprintf
import Aether.Kernel.Portal
import Aether.Kernel.AddressSpace
import Aether.Drivers.Ecam
import Aether.Drivers.Negotiation
import Aether.Drivers.Banks
import Aether.Arch.Boot
import Aether.Kernel.Exception
import Aether.Ethernet.Sessions
import Aether.Kernel.Interrupts
import Aether.Kernel.Startup
import Aether.Kernel.Gic
import Aether.Drivers.Serial
import Aether.Drivers.Xhci
import Aether.Ethernet.Amplification
