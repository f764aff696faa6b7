import OfcBenchmark.Myplot
import OfcBenchmark.Myserver

/-!
# The master and its slaves

The slaves run `clientSide` of `myclient.c`, the master the threads of `myserver.c`, and between
them are their connections. Master and slaves take turns in any order; a step is one system call
or one access to what the threads of the master share, with three exceptions that are one step
each: a worker's `writeSocket` of START_MESSAGE (`startSent`), which writes its two characters
one by one, `controllerBenchmarking` (`benchmark`), and the plotting of the values (`plotNode`).
A connection keeps the order of the characters and loses none.

`κ` are the slaves. What is in the queues of a slave when `controllerBenchmarking` returns is the
parameter `report`. Calls that fail end the process and have no step here.
-/

namespace OfcBenchmark
open Printf Runs

/-! ## Messages -/

/-- CONNECT_REQUEST_MESSAGE and its NUL, which is sent with it. -/
def CONNECT_REQUEST_MESSAGE : Text := ['1', '\x00']

/-- START_MESSAGE and its NUL. -/
def START_MESSAGE : Text := ['2', '\x00']

/-- REPORT_MESSAGE and its NUL. -/
def REPORT_MESSAGE : Text := ['3', '\x00']

/-- What `clientManagement` takes the two characters for that `readSocket` returns. -/
def slaveMessage (buffer : Text) : SlaveMessage :=
  if buffer = CONNECT_REQUEST_MESSAGE then .connectRequest
  else if buffer = REPORT_MESSAGE then .report
  else .unknown

/-! ## The slaves -/

/-- Where a slave is in `clientSide`. -/
inductive SlavePc
  /-- in `connect` -/
  | connect
  /-- in `writeSocket`, with this of CONNECT_REQUEST_MESSAGE still to be written -/
  | sendRequest (left : Text)
  /-- in `readSocket` -/
  | readStart
  /-- in `controllerBenchmarking` -/
  | benchmark
  /-- in `writeSocket`, with this of REPORT_MESSAGE and the report still to be written -/
  | sendReport (left : Text)
  /-- in the loop at the end -/
  | spin
  /-- the process has ended -/
  | exited
deriving DecidableEq, Repr

namespace SlavePc

/-- What is still to be written. -/
def unsent : SlavePc → Text
  | .sendRequest left | .sendReport left => left
  | _ => []

/-- Behind a `write` that has taken `m` characters. -/
def wrote (m : ℕ) : SlavePc → SlavePc
  | .sendRequest left => if left.drop m = [] then .readStart else .sendRequest (left.drop m)
  | .sendReport left => if left.drop m = [] then .spin else .sendReport (left.drop m)
  | pc => pc

theorem wrote_sendRequest (m : ℕ) (left : Text) : wrote m (.sendRequest left)
    = if left.drop m = [] then .readStart else .sendRequest (left.drop m) := rfl

theorem wrote_sendReport (m : ℕ) (left : Text) : wrote m (.sendReport left)
    = if left.drop m = [] then .spin else .sendReport (left.drop m) := rfl

/-- `strcmp(buffer, START_MESSAGE)`: the array has space for the character that was read, and
`behind` is what the memory has behind it. -/
def gotStart (c behind : Char) : SlavePc :=
  if [c, behind] = START_MESSAGE then .benchmark else .exited

end SlavePc

/-! ## Reading a report -/

/-- A call of `readSocketLimiter` that has read so far. Where it goes on there is no text; where
it would read outside its array, no result. -/
def limiterRead (BUFFER_SIZE : ℕ) (read : Text) : Option (Option Text) :=
  if readLoop BUFFER_SIZE read = none then some none
  else (readSocketLimiter BUFFER_SIZE read).map fun r => some r.buffer

/-- Where a worker is in its report. -/
inductive ReportPc
  /-- reading the environment, with these numbers already read -/
  | environment (numbers : List ℤ)
  /-- locking the `lock` of `myplot.c` for a call of `buildGraph`; more are to come -/
  | lock (call : GraphCall) (calls : List GraphCall)
  /-- in a call of `buildGraph` -/
  | buildGraph (call : GraphCall) (calls : List GraphCall)
  /-- about to unlock `lock` -/
  | unlock (calls : List GraphCall)
  /-- plotting the values -/
  | plotGraph
deriving DecidableEq

namespace ReportPc

/-- Before these calls of `buildGraph`. Those for VALUES are outside of `lock`. -/
def next : List GraphCall → ReportPc
  | [] => .plotGraph
  | call :: calls => if call.type = .values then .buildGraph call calls else .lock call calls

/-- Behind these numbers of the environment. -/
def learn (quantity : ℕ) : List ℤ → ReportPc
  | [nSwitches, nLines, mode, testRange] =>
    next (plotNodeCalls ⟨nSwitches, nLines, mode, testRange⟩ quantity)
  | numbers => .environment numbers

/-- `BUFFER_SIZE` of the `readSocketLimiter` it is in. -/
def size : ReportPc → Option ℕ
  | .environment _ => some 5
  | .buildGraph call _ => some call.size
  | _ => none

/-- Behind a call of `readSocketLimiter` that has returned a text. -/
def read (quantity : ℕ) (text : Text) : ReportPc → ReportPc
  | .environment numbers => learn quantity (numbers ++ [atoi text])
  | .buildGraph call calls => if call.type = .values then next calls else .unlock calls
  | pc => pc

/-- The block that this call is for, if it is one of `buildGraph`. -/
def blocks (text : Text) : ReportPc → List Block
  | .buildGraph call _ => [⟨call.type, call.test, text⟩]
  | _ => []

end ReportPc

/-! ## The network -/

/-- The master, its slaves and the connections. -/
structure Network (n : ℕ) (κ : Type) where
  server : Server n
  slaves : κ → SlavePc
  /-- connections that are not accepted yet, the first one first -/
  backlog : List κ
  /-- the slave at the other end of a descriptor -/
  peer : ℕ → Option κ
  /-- what is on its way from a slave and to it -/
  toMaster : κ → Text
  toSlave : κ → Text
  /-- what the reader that a worker is in has read -/
  buffer : Fin n → Text
  reading : Fin n → ReportPc
  /-- `lock` of `myplot.c`, which is static in a header and so another than that of the server -/
  plotLock : Option (Fin n)
  /-- `generalReport` of each worker -/
  generalReport : Fin n → List Block
  /-- `myreport`, with the worker that has enqueued a block -/
  myreport : List (Fin n × Block)

/-- Nobody has connected yet. -/
def networkStart (n : ℕ) (κ : Type) (param : ℕ) : Network n κ where
  server := serverStart n param
  slaves := fun _ => .connect
  backlog := []
  peer := fun _ => none
  toMaster := fun _ => []
  toSlave := fun _ => []
  buffer := fun _ => []
  reading := fun _ => .environment []
  plotLock := none
  generalReport := fun _ => []
  myreport := []

namespace Network

variable {n : ℕ} {κ : Type} [DecidableEq κ]

/-! ## Steps of the slaves -/

/-- Slave `k` connects. -/
def connect (s : Network n κ) (k : κ) : Option (Network n κ) :=
  if s.slaves k = .connect then
    some { s with slaves := Function.update s.slaves k (.sendRequest CONNECT_REQUEST_MESSAGE)
                  backlog := s.backlog ++ [k] }
  else none

/-- A `write` of slave `k` takes `m` characters. -/
def write (s : Network n κ) (k : κ) (m : ℕ) : Option (Network n κ) :=
  let left := (s.slaves k).unsent
  if 0 < m ∧ m ≤ left.length then
    some { s with slaves := Function.update s.slaves k ((s.slaves k).wrote m)
                  toMaster := Function.update s.toMaster k (s.toMaster k ++ left.take m) }
  else none

/-- A `read` of slave `k`. -/
def readStart (s : Network n κ) (k : κ) (behind : Char) : Option (Network n κ) :=
  if s.slaves k = .readStart then
    match s.toSlave k with
    | [] => none
    | c :: rest =>
      some { s with slaves := Function.update s.slaves k (.gotStart c behind)
                    toSlave := Function.update s.toSlave k rest }
  else none

/-- `controllerBenchmarking` returns on slave `k`. -/
def benchmark (report : κ → Queues) (s : Network n κ) (k : κ) : Option (Network n κ) :=
  if s.slaves k = .benchmark then
    some { s with slaves := Function.update s.slaves k
                    (.sendReport (REPORT_MESSAGE ++ clientSide (report k))) }
  else none

/-! ## Steps of the master -/

/-- The slave of worker `i`, once it has its socket. -/
def slaveOf (s : Network n κ) (i : Fin n) : Option κ := (s.server.workers i).clientFd.bind s.peer

/-- `accept` returns the first connection, as descriptor `fd`. -/
def accept (s : Network n κ) (fd : ℕ) : Option (Network n κ) :=
  match s.backlog with
  | [] => none
  | k :: backlog =>
    (s.server.accept fd).map fun server =>
      { s with server := server, backlog := backlog, peer := Function.update s.peer fd (some k) }

/-- The next step of `serverSide`, but for `accept`. -/
def main (s : Network n κ) : Option (Network n κ) :=
  (serverSide s.server).map fun server => { s with server := server }

/-- What is on its way to the slaves when worker `i` has written START_MESSAGE. -/
def startSent (s : Network n κ) (i : Fin n) : κ → Text :=
  match s.slaveOf i with
  | some k => Function.update s.toSlave k (s.toSlave k ++ START_MESSAGE)
  | none => s.toSlave

/-- The next step of worker `i`, where it does not read. -/
def worker (s : Network n κ) (i : Fin n) : Option (Network n κ) :=
  (clientManagement s.server i).map fun server =>
    { s with server := server
             toSlave := if (s.server.workers i).pc = .sendStart then s.startSent i else s.toSlave }

/-- Worker `i` has read so far of a message, and no more than its two characters. -/
def readMessage (s : Network n κ) (i : Fin n) (buffer : Text) : Option (Network n κ) :=
  if buffer.length < 2 then some { s with buffer := Function.update s.buffer i buffer }
  else
    (s.server.receive i (slaveMessage buffer)).map fun server =>
      { s with server := server, buffer := Function.update s.buffer i [] }

/-- Blocks go to the reports they are for. -/
def enqueue (s : Network n κ) (i : Fin n) (blocks : List Block) : Network n κ :=
  { s with generalReport := Function.update s.generalReport i
             (s.generalReport i ++ blocks.filter fun block => block.type = .values)
           myreport := s.myreport ++ (blocks.filter fun block => block.type ≠ .values).map
             fun block => (i, block) }

/-- Worker `i` has read so far of a part of its report. -/
def readReport (s : Network n κ) (i : Fin n) (buffer : Text) : Option (Network n κ) := do
  let size ← (s.reading i).size
  match ← limiterRead size buffer with
  | none => some { s with buffer := Function.update s.buffer i buffer }
  | some text =>
    some ({ s with
      buffer := Function.update s.buffer i []
      reading := Function.update s.reading i ((s.reading i).read n text) }.enqueue i
        ((s.reading i).blocks text))

/-- A `read` of worker `i`, in `readSocket` or `readSocketLimiter`. -/
def recv (s : Network n κ) (i : Fin n) : Option (Network n κ) := do
  let k ← s.slaveOf i
  match s.toMaster k with
  | [] => none
  | c :: rest =>
    let s' := { s with toMaster := Function.update s.toMaster k rest }
    match (s.server.workers i).pc with
    | .receive => s'.readMessage i (s.buffer i ++ [c])
    | .readReport => s'.readReport i (s.buffer i ++ [c])
    | _ => none

/-- Worker `i` locks the `lock` of `myplot.c`. -/
def lockPlot (s : Network n κ) (i : Fin n) : Option (Network n κ) :=
  match s.reading i with
  | .lock call calls =>
    if (s.server.workers i).pc = .readReport ∧ s.plotLock = none then
      some { s with plotLock := some i
                    reading := Function.update s.reading i (.buildGraph call calls) }
    else none
  | _ => none

/-- Worker `i` unlocks it. -/
def unlockPlot (s : Network n κ) (i : Fin n) : Option (Network n κ) :=
  match s.reading i with
  | .unlock calls =>
    if (s.server.workers i).pc = .readReport then
      some { s with plotLock := none, reading := Function.update s.reading i (.next calls) }
    else none
  | _ => none

/-- Worker `i` has plotted the values: `plotNode` returns 1. -/
def plotNode (s : Network n κ) (i : Fin n) : Option (Network n κ) :=
  if s.reading i = .plotGraph then
    (s.server.readReport i 1).map fun server =>
      { s with server := server, reading := Function.update s.reading i (.environment []) }
  else none

/-- Worker `i` wakes up from `pthread_cond_wait` without a broadcast. -/
def wakeUp (s : Network n κ) (i : Fin n) : Option (Network n κ) :=
  (s.server.wakeUp i).map fun server => { s with server := server }

/-- A turn of an SNMP thread. -/
def snmp (s : Network n κ) (thread : ℕ) : Option (Network n κ) :=
  (asynchronousSnmp s.server thread).map fun server => { s with server := server }

end Network

/-- What can happen next. -/
inductive NetworkEvent (n : ℕ) (κ : Type)
  | connect (k : κ)
  | write (k : κ) (m : ℕ)
  | readStart (k : κ) (behind : Char)
  | benchmark (k : κ)
  | accept (fd : ℕ)
  | main
  | worker (i : Fin n)
  | recv (i : Fin n)
  | lockPlot (i : Fin n)
  | unlockPlot (i : Fin n)
  | plotNode (i : Fin n)
  | wakeUp (i : Fin n)
  | snmp (thread : ℕ)
deriving DecidableEq, Repr

section Steps

variable {n : ℕ} {κ : Type} [DecidableEq κ] (report : κ → Queues)

/-- The state after it, if it can happen. -/
def runNetwork (e : NetworkEvent n κ) (s : Network n κ) : Option (Network n κ) :=
  match e with
  | .connect k => s.connect k
  | .write k m => s.write k m
  | .readStart k behind => s.readStart k behind
  | .benchmark k => s.benchmark report k
  | .accept fd => s.accept fd
  | .main => s.main
  | .worker i => s.worker i
  | .recv i => s.recv i
  | .lockPlot i => s.lockPlot i
  | .unlockPlot i => s.unlockPlot i
  | .plotNode i => s.plotNode i
  | .wakeUp i => s.wakeUp i
  | .snmp thread => s.snmp thread

/-- One step of the master or of a slave. -/
def NetworkStep (s : Network n κ) (e : NetworkEvent n κ) (s' : Network n κ) : Prop :=
  runNetwork report e s = some s'

end Steps

/-- A step that was taken. -/
abbrev NetworkTransition (n : ℕ) (κ : Type) := Transition (Network n κ) (NetworkEvent n κ)

end OfcBenchmark
