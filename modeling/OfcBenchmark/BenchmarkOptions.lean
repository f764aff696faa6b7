import OfcBenchmark.Myargs
import OfcBenchmark.Myswitch
import OfcBenchmark.ReportQueues

/-!
# The options of the benchmark

The table in `benchmark.h`, and `initializeBenchmarking` in `benchmark.c`, which reads the command
line. What it prints at its end is left out, and so is the manual.

What `rand` returns is an argument, and so is what is in the memory of the report that is made last.
-/

namespace OfcBenchmark
open Printf Getopt

/-! ## The table -/

section Entries

variable (name : String) (id : Char)

def Args.none : Args := ⟨name.toList, id, .none, (0 : ℕ)⟩

def Args.integer (value : ℤ) : Args := ⟨name.toList, id, .integer, value⟩

def Args.flag (value : ℤ) : Args := ⟨name.toList, id, .flag, value⟩

def Args.string (value : String) : Args := ⟨name.toList, id, .string, value.toList⟩

end Entries

def OFP_TCP_PORT : ℤ := 6633

/-- `options`. -/
def options : List Args :=
  [.integer "cooldown" 'c' 0,
    .string "controller" 'C' "localhost",
    .integer "packet-delay" 'd' 0,
    .integer "delay" 'D' 0,
    .flag "debug" 'x' 0,
    .flag "fields" 'f' 0,
    .none "help" 'h',
    .integer "connect-delay" 'i' 0,
    .integer "connect-group-size" 'I' 1,
    .integer "loops" 'l' 16,
    .flag "learn-dst-macs" 'L' 1,
    .integer "ms-per-test" 'm' 1000,
    .integer "mac-addresses" 'M' 100000,
    .string "node-master" 'n' "localhost",
    .integer "nodes" 'N' 1,
    .integer "dpid-offset" 'O' 1,
    .integer "packets" 'p' 0,
    .integer "port" 'P' OFP_TCP_PORT,
    .flag "ranged-test" 'r' 0,
    .flag "random" 'R' 0,
    .integer "switches" 's' 16,
    .integer "size" 'S' 0,
    .none "throughput" 't',
    .integer "warmup" 'w' 1]

/-! ## Parameters -/

/-- `struct inputValues`. -/
structure InputValues where
  controllerHostname : Text
  nodeMasterHostname : Text
  cooldown : BitVec 32
  packetDelay : BitVec 32
  delay : BitVec 32
  debug : BitVec 32
  fields : BitVec 32
  connectDelay : BitVec 32
  connectGroupSize : BitVec 32
  loopsPerTest : BitVec 32
  learnDstMacs : BitVec 32
  msTestLen : BitVec 32
  nMacAddresses : BitVec 32
  master : BitVec 32
  nNodes : BitVec 32
  dpidOffset : BitVec 32
  nPackets : BitVec 32
  controllerPort : BitVec 32
  testRange : BitVec 32
  random : BitVec 32
  nSwitches : BitVec 32
  packetSize : BitVec 32
  mode : TestMode
  warmup : BitVec 32

/-- The parameters that the table has. -/
def tableParams : Option InputValues := do
  let str (argname : String) := argsGetDefaultStr options argname.toList
  let int (argname : String) := (argsGetDefaultInt options argname.toList).map (BitVec.ofInt 32)
  let flag (argname : String) := (argsGetDefaultFlag options argname.toList).map (BitVec.ofInt 32)
  let controllerHostname ← str "controller"
  let nodeMasterHostname ← str "node-master"
  let cooldown ← int "cooldown"
  let packetDelay ← int "packet-delay"
  let delay ← int "delay"
  let debug ← flag "debug"
  let fields ← flag "fields"
  let connectDelay ← int "connect-delay"
  let connectGroupSize ← int "connect-group-size"
  let loopsPerTest ← int "loops"
  let learnDstMacs ← flag "learn-dst-macs"
  let msTestLen ← int "ms-per-test"
  let nMacAddresses ← int "mac-addresses"
  let nNodes ← int "nodes"
  let dpidOffset ← int "dpid-offset"
  let nPackets ← int "packets"
  let controllerPort ← int "port"
  let testRange ← flag "ranged-test"
  let random ← flag "random"
  let nSwitches ← int "switches"
  let packetSize ← int "size"
  let warmup ← int "warmup"
  return {
    controllerHostname, nodeMasterHostname, cooldown, packetDelay, delay, debug, fields
    connectDelay, connectGroupSize, loopsPerTest, learnDstMacs, msTestLen, nMacAddresses
    master := 1
    nNodes, dpidOffset, nPackets, controllerPort, testRange, random, nSwitches, packetSize
    mode := .latency
    warmup }

/-- `RAND_MAX` of the C library. -/
def RAND_MAX : ℤ := 2147483647

/-- What takes the place of a `dpidOffset` of 1. -/
def randomOffset (rand : ℤ) : ℤ :=
  999999 + rand.tdiv (RAND_MAX.tdiv (100000 - 999999 + 100000) + 100000)

/-- The parameters before the command line is read. -/
def defaultParams (rand : ℤ) : Option InputValues :=
  tableParams.map fun params =>
    if params.dpidOffset = 1 then { params with dpidOffset := .ofInt 32 (randomOffset rand) }
    else params

/-! ## The command line -/

/-- What is set when the command line has been read: the parameters, and two global pointers. -/
structure Initialized where
  params : InputValues
  snmpDestination : Option Text
  myreport : Option Report

/-- How the program ends before. -/
inductive InitHalt
  | exited (status : ℤ)
  | aborted
  | nullDereference
deriving DecidableEq, Repr

/-- The text that `optarg` points to. -/
def dereference : Option Text → Except InitHalt Text
  | some optarg => .ok optarg
  | none => .error .nullDereference

/-- `argsManual`, but for what it prints. -/
def argsManual (exit_val : ℤ) : Except InitHalt Initialized := .error (.exited exit_val)

/-- `strcasecmp(a, b) == 0`. -/
def strcasecmpEq (a b : Text) : Bool := a.map Char.toLower = b.map Char.toLower

namespace Initialized

variable (s : Initialized)

/-- `params->field = atoi(optarg)`. -/
def setNumber (optarg : Option Text) (set : InputValues → BitVec 32 → InputValues) :
    Except InitHalt Initialized :=
  (dereference optarg).map fun t => { s with params := set s.params (.ofInt 32 (atoi t)) }

/-- `params->field = value`. -/
def setValue (set : InputValues → InputValues) : Except InitHalt Initialized :=
  .ok { s with params := set s.params }

/-- The `switch` over what `getopt_long` returns. -/
def switchOption (c : Char) (optarg : Option Text) : Except InitHalt Initialized :=
  match c with
  | 'c' => s.setNumber optarg fun params v => { params with cooldown := v }
  | 'C' => (dereference optarg).map fun t =>
    { s with
      params := { s.params with controllerHostname := t }
      snmpDestination := some (t.take 19) }
  | 'd' => s.setNumber optarg fun params v => { params with packetDelay := v }
  | 'D' => s.setNumber optarg fun params v => { params with delay := v }
  | 'f' => s.setValue fun params => { params with fields := 1 }
  | 'h' => argsManual 1
  | 'i' => s.setNumber optarg fun params v => { params with connectDelay := v }
  | 'I' => s.setNumber optarg fun params v => { params with connectGroupSize := v }
  | 'l' => s.setNumber optarg fun params v => { params with loopsPerTest := v }
  | 'L' => s.setValue fun params =>
    match optarg with
    | some t =>
      let on := ["true", "on", "1"].any fun word => strcasecmpEq word.toList t
      { params with learnDstMacs := if on then 1 else 0 }
    | none => { params with learnDstMacs := 1 }
  | 'm' => s.setNumber optarg fun params v => { params with msTestLen := v }
  | 'M' => s.setNumber optarg fun params v => { params with nMacAddresses := v }
  | 'n' => (dereference optarg).map fun t =>
    { s with
      params := { s.params with
        nodeMasterHostname := t
        master := if strcasecmpEq t "localhost".toList then s.params.master else 0 } }
  | 'N' => s.setNumber optarg fun params v => { params with nNodes := v }
  | 'O' => s.setNumber optarg fun params v => { params with dpidOffset := v }
  | 'p' => s.setNumber optarg fun params v => { params with nPackets := v }
  | 'P' => s.setNumber optarg fun params v => { params with controllerPort := v }
  | 'r' => s.setValue fun params => { params with testRange := 1 }
  | 'o' => s.setValue fun params => { params with random := 1 }
  | 's' => s.setNumber optarg fun params v => { params with nSwitches := v }
  | 'S' => s.setNumber optarg fun params v => { params with packetSize := v }
  | 't' => s.setValue fun params => { params with mode := .throughput }
  | 'w' => s.setNumber optarg fun params v => { params with warmup := v }
  | 'x' => s.setNumber optarg fun params v => { params with debug := v }
  | _ => argsManual 1

end Initialized

/-- A report as the loop makes one: the lengths of its queues are not set. -/
def newReport (garbage : Report) : Report :=
  { garbage with queues := fun id => { garbage.queues id with first := none, last := none } }

/-- One turn of the loop, where -1 has not been returned. -/
def handleOption (garbage : Report) (s : Initialized) (found : Found) :
    Except InitHalt Initialized :=
  match found.c with
  | some c => (s.switchOption c found.optarg).map fun s =>
    { s with myreport := some (newReport garbage) }
  | none => .ok s

/-- `initializeBenchmarking`, with the words behind the name of the program. -/
def initializeBenchmarking (rand : ℤ) (garbage : Report) (argv : List Text) :
    Except InitHalt Initialized :=
  match defaultParams rand, argsToShort options with
  | some params, some shortOpts =>
    (getoptAll shortOpts (argsToLong options) ⟨[], argv⟩).foldlM (handleOption garbage)
      ⟨params, none, none⟩
  | _, _ => .error .aborted

end OfcBenchmark
