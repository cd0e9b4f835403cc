import FleetMetrics.Descriptor
import FleetMetrics.Width

/-!
# Stock metrics

The metrics that every host offers, grouped into modules. Each reads the samples whose key starts
with the prefix of one class of counter sets:

    cpu:<n>            time in kernel and user mode of a processor
    zone:<name>        time of a zone by mode, time spent waiting, load average
    disk:<name>        operations, bytes and busy time of a device
    nic:<name>         packets and bytes of a link, and the zone that a virtual link belongs to
    tcp:<n>            segments and errors of a network stack
    zone_vfs:<zone>    logical operations and bytes of a zone
    memory_cap:<zone>  memory in use, its caps, and paging of a zone
    kvm:<vcpu>         exits of a virtual processor by reason
    arcstats:<n>       hits and misses of the cache
-/

namespace FleetMetrics.Stock

variable {N : Type} [Arithmetic N]

open Arithmetic

/-- The modules with their labels. -/
def modules : List (String × String) :=
  [("cpu", "CPU"), ("disk", "Disk I/O"), ("nic", "Network interfaces"), ("tcp", "TCP"),
   ("fs", "Filesystem"), ("memory", "Memory"), ("vm", "Virtual machines"), ("zfs", "ZFS")]

/-! ## Values and contributions -/

/-- Which part of an interval some nanoseconds are, in whole percent rounded down; nothing of an
empty interval. -/
def percentOf (nanos : N) (interval : Nat) : N :=
  let total : N := ofInt interval
  if atMost total zero then zero else floor (ofInt 100 * nanos / total)

/-- The growth of several counters together. -/
def growthOf (counters : List String) (p : SamplePair N) : List (FieldValue N) :=
  [.number (sum (counters.map p.delta))]

/-- The growth of a counter as the contribution of every data point. -/
def growth (counter : String) (_ : FieldMap N) (p : SamplePair N) : Option N :=
  some (p.delta counter)

/-- A counter's value as the contribution of every data point. -/
def level (counter : String) (_ : FieldMap N) (p : SamplePair N) : Option N :=
  some (p.current.counter counter)

/-- The text of a field of a data point. -/
def textOf? (point : FieldMap N) (field : String) : Option String :=
  (point.find? field).bind FieldValue.text?

/-- The growth of one counter when a field has a certain text and of another otherwise. -/
def growthBy (field text first second : String) (point : FieldMap N) (p : SamplePair N) :
    Option N :=
  (textOf? point field).map fun t => p.delta (if t = text then first else second)

/-- Memory caps of zero, or of 2^64 and more, mean that there is no limit. -/
def limit (counter : String) (_ : FieldMap N) (p : SamplePair N) : Option N :=
  let cap := p.current.counter counter
  if compare? cap zero = some .eq || atMost (ofInt (Width.capacity 64)) cap then none else some cap

/-! ## Fields -/

def zoneName : FieldSpec N :=
  .fromAttribute "zonename" "zone name" "zonename"

def diskName : FieldSpec N :=
  .fromAttribute "disk" "device name" "name"

def linkName : FieldSpec N :=
  .fromAttribute "nic" "NIC name" "name"

def operation : FieldSpec N :=
  .fixed "optype" "type" ["read", "write"]

def direction : FieldSpec N :=
  .fixed "direction" "sent/received" ["sent", "received"]

/-- A number of the counter set behind a word. -/
def numbered (name label word : String) : FieldSpec N :=
  .discrete name label fun p => ((p.current.attr? "instance").map fun i => .text (word ++ i)).toList

/-- An attribute, unless it has the value that stands for the whole. -/
def attributeExcept (name label attr whole : String) : FieldSpec N :=
  .discrete name label fun p =>
    match p.current.attr? attr with
    | some text => if text = whole then [] else [.text text]
    | none => []

def stack : FieldSpec N :=
  numbered "tcpstack" "TCP instance" "tcp"

/-- The zone of a virtual link; links of the global zone have none. -/
def linkZone : FieldSpec N :=
  attributeExcept "zonename" "zone name" "zonename" "global"

/-- Hundredths of each power of ten, from `10 ^ low` to `10 ^ 11`. -/
def hundredths (low : Int) : Bucketizer N :=
  .logLinear (ofInt 10) low 11 100

/-- Whole percents. -/
def percents : Bucketizer N :=
  .linear one

/-! ## Processors -/

def processors : Descriptor N :=
  (Descriptor.new "cpu" "cpus" "CPUs" "cpus")
    |>.field (numbered "cpu" "CPU identifier" "cpu")
    |>.field (.numeric "utilization" "utilization" percents fun p =>
      [.number (percentOf (p.delta "cpu_nsec_kernel" + p.delta "cpu_nsec_user") p.interval)])

/-- The share of an interval that a zone spent in the mode of a data point. -/
def usageByMode (point : FieldMap N) (p : SamplePair N) : Option N :=
  (textOf? point "cpumode").map fun mode =>
    percentOf (p.delta (if mode = "kernel" then "nsec_sys" else "nsec_user")) p.interval

def processorUsage : Descriptor N :=
  (Descriptor.new "cpu" "usage" "aggregated CPU usage" "percent")
    |>.field zoneName
    |>.field (.fixed "cpumode" "CPU mode" ["kernel", "user"])
    |>.withExtract ["cpumode"] usageByMode

def processorWait : Descriptor N :=
  (Descriptor.new "cpu" "waittime" "CPU wait time" "time")
    |>.field zoneName
    |>.withExtract [] (growth "nsec_waitrq")

/-- Load averages are kept in units of 1/256. -/
def loadAverage : Descriptor N :=
  (Descriptor.new "cpu" "loadavg1" "1-minute load average" "number")
    |>.field zoneName
    |>.withExtract [] fun _ p => some (p.current.counter "avenrun_1min" / ofInt 256)

/-! ## Disks -/

def disks : Descriptor N :=
  (Descriptor.new "disk" "disks" "disks" "disks")
    |>.field diskName
    |>.field (.numeric "iops" "number of I/O operations" (hundredths 0)
      (growthOf ["reads", "writes"]))
    |>.field (.numeric "bytes" "total bytes transferred" (hundredths 2)
      (growthOf ["nread", "nwritten"]))
    |>.field (.numeric "busytime" "percent busy time" percents fun p =>
      [.number (percentOf (p.delta "rtime") p.interval)])

def diskOperations : Descriptor N :=
  (Descriptor.new "disk" "physio_ops" "I/O operations" "ops")
    |>.field diskName
    |>.field operation
    |>.withExtract ["optype"] (growthBy "optype" "read" "reads" "writes")

def diskBytes : Descriptor N :=
  (Descriptor.new "disk" "physio_bytes" "bytes read and written" "size")
    |>.field diskName
    |>.field operation
    |>.withExtract ["optype"] (growthBy "optype" "read" "nread" "nwritten")

/-! ## Links -/

def links : Descriptor N :=
  (Descriptor.new "nic" "nics" "NICs" "nics")
    |>.field linkName
    |>.field (.numeric "packets" "packets sent and received" (hundredths 0)
      (growthOf ["ipackets64", "opackets64"]))
    |>.field (.numeric "bytes" "bytes sent and received" (hundredths 2)
      (growthOf ["rbytes64", "obytes64"]))

def linkBytes : Descriptor N :=
  (Descriptor.new "nic" "bytes" "bytes sent and received" "size")
    |>.field linkName
    |>.field direction
    |>.withExtract ["direction"] (growthBy "direction" "sent" "obytes64" "rbytes64")

def linkPackets : Descriptor N :=
  (Descriptor.new "nic" "packets" "packets sent and received" "packets")
    |>.field linkName
    |>.field direction
    |>.withExtract ["direction"] (growthBy "direction" "sent" "opackets64" "ipackets64")

def virtualLinkBytes : Descriptor N :=
  (Descriptor.new "nic" "vnic_bytes" "VNIC bytes sent and received" "size")
    |>.field linkZone
    |>.field direction
    |>.withExtract ["direction", "zonename"] (growthBy "direction" "sent" "obytes64" "rbytes64")

def virtualLinkPackets : Descriptor N :=
  (Descriptor.new "nic" "vnic_packets" "VNIC packets sent and received" "packets")
    |>.field linkZone
    |>.field direction
    |>.withExtract ["direction", "zonename"]
      (growthBy "direction" "sent" "opackets64" "ipackets64")

/-! ## Network stacks -/

/-- Labels of the error types with the counter of each. -/
def stackErrorCounters : List (String × String) :=
  [("failed connection attempt", "attemptFails"),
   ("retransmitted segment", "retransSegs"),
   ("duplicate ACK", "inDupAck"),
   ("connection refused because backlog full", "listenDrop"),
   ("connection refused from full half-open queue", "listenDropQ0"),
   ("connection dropped from a full half-open queue", "halfOpenDrop"),
   ("connection dropped due to retransmit timeout", "timRetransDrop")]

/-- The growth of the counter that a table assigns to the text of a field. -/
def growthFrom (counters : List (String × String)) (field : String) (point : FieldMap N)
    (p : SamplePair N) : Option N :=
  ((textOf? point field).bind fun text => counters.lookup text).map p.delta

def stackSegments : Descriptor N :=
  (Descriptor.new "tcp" "segments" "segments" "segments")
    |>.field stack
    |>.field direction
    |>.withExtract ["direction"] (growthBy "direction" "sent" "outSegs" "inSegs")

def stackErrors : Descriptor N :=
  (Descriptor.new "tcp" "errors" "errors" "errors")
    |>.field stack
    |>.field (.fixed "errtype" "error type" (stackErrorCounters.map (·.1)))
    |>.withExtract ["errtype"] (growthFrom stackErrorCounters "errtype")

/-! ## File systems -/

def logicalOperations : Descriptor N :=
  (Descriptor.new "fs" "logical_rwops" "logical read/write operations" "ops")
    |>.field zoneName
    |>.field operation
    |>.withExtract ["optype"] (growthBy "optype" "read" "reads" "writes")

def logicalBytes : Descriptor N :=
  (Descriptor.new "fs" "logical_rwbytes" "logical bytes read/written" "size")
    |>.field zoneName
    |>.field operation
    |>.withExtract ["optype"] (growthBy "optype" "read" "nread" "nwritten")

/-! ## Memory -/

/-- A statistic of a zone's memory. -/
def zoneMemory (stat label unit : String)
    (extract : FieldMap N → SamplePair N → Option N) : Descriptor N :=
  (Descriptor.new "memory" stat label unit)
    |>.field zoneName
    |>.withExtract [] extract

def residentSet : Descriptor N :=
  zoneMemory "rss" "resident set size" "size" (level "rss")

def residentLimit : Descriptor N :=
  zoneMemory "rss_limit" "maximum resident set size" "size" (limit "physcap")

def swapUsed : Descriptor N :=
  zoneMemory "swap" "swap used" "size" (level "swap")

def swapLimit : Descriptor N :=
  zoneMemory "swap_limit" "maximum swap used" "size" (limit "swapcap")

def reclaimedBytes : Descriptor N :=
  zoneMemory "reclaimed_bytes" "excess memory reclaimed" "size" (growth "pagedout")

def pageIns : Descriptor N :=
  zoneMemory "pageins" "pages paged in" "pages" (growth "pgpgin")

/-! ## Virtual machines and cache -/

/-- Reasons for an exit with the counter of each. -/
def exitCounters : List (String × String) :=
  [("haltx", "halt-exits"), ("irqx", "irq-exits"), ("irqwx", "irq-window-exits"),
   ("iox", "io-exits"), ("mmiox", "mmio-exits")]

/-- The exits for none of the named reasons. -/
def otherExits (s : Sample N) : N :=
  exitCounters.foldl (fun rest reason => rest - s.counter reason.2) (s.counter "exits")

/-- The growth of the exits for the reason of a data point. -/
def exitsByReason (point : FieldMap N) (p : SamplePair N) : Option N :=
  (textOf? point "vleavereason").bind fun reason =>
    if reason = "other" then some (otherExits p.current - otherExits p.previous)
    else (exitCounters.lookup reason).map p.delta

/-- The summary of a whole machine shares the class with its virtual processors and has no value
for `vcpuid`. -/
def machineExits : Descriptor N :=
  (Descriptor.new "vm" "exits" "virtual machine exits" "exits")
    |>.field zoneName
    |>.field (.fixed "vleavereason" "VM exit reason" (exitCounters.map (·.1) ++ ["other"]))
    |>.field (attributeExcept "vcpuid" "virtual CPU" "name" "vm")
    |>.withExtract ["vleavereason", "vcpuid"] exitsByReason

def cacheOperations : Descriptor N :=
  (Descriptor.new "zfs" "arc_ops" "ARC accesses" "ops")
    |>.field (.fixed "optype" "hit/miss" ["hit", "miss"])
    |>.withExtract ["optype"] (growthBy "optype" "hit" "hits" "misses")

/-- Every stock metric with the prefix of the samples it reads. -/
def metrics : List (String × Descriptor N) :=
  [("cpu:", processors),
   ("zone:", processorUsage),
   ("zone:", processorWait),
   ("zone:", loadAverage),
   ("disk:", disks),
   ("disk:", diskOperations),
   ("disk:", diskBytes),
   ("nic:", links),
   ("nic:", linkBytes),
   ("nic:", linkPackets),
   ("nic:", virtualLinkBytes),
   ("nic:", virtualLinkPackets),
   ("tcp:", stackSegments),
   ("tcp:", stackErrors),
   ("zone_vfs:", logicalOperations),
   ("zone_vfs:", logicalBytes),
   ("memory_cap:", residentSet),
   ("memory_cap:", residentLimit),
   ("memory_cap:", swapUsed),
   ("memory_cap:", swapLimit),
   ("memory_cap:", reclaimedBytes),
   ("memory_cap:", pageIns),
   ("kvm:", machineExits),
   ("arcstats:", cacheOperations)]

end FleetMetrics.Stock
