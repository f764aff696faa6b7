import OfcBenchmark.BenchmarkReport

/-!
# What the master makes of a report

The branch of `clientManagement` in `myserver.c` that reads a report, and the functions of
`myplot.c` that read its blocks and put them into the queues of a graph. Where the code reads or
writes outside an array or through a null pointer, there is no result.
-/

namespace OfcBenchmark
open Printf

/-! ## Reading -/

/-- What `clientManagement` learns about the report first. -/
structure Environment where
  nSwitches : ℤ
  nLines : ℤ
  mode : ℤ
  testRange : ℤ
deriving DecidableEq, Repr

/-- `atoi(readSocketLimiter(clientFd, 5, &bytesRead))`. -/
def readInt (socket : Text) : Option (ℤ × Text) :=
  (readSocketLimiter 5 socket).map fun r => (atoi r.buffer, r.socket)

/-- The environment, and what is still to be read. -/
def readEnvironment (socket : Text) : Option (Environment × Text) := do
  let (nSwitches, socket) ← readInt socket
  let (nLines, socket) ← readInt socket
  let (mode, socket) ← readInt socket
  let (testRange, socket) ← readInt socket
  some (⟨nSwitches, nLines, mode, testRange⟩, socket)

/-- A call of `buildGraph`: the queue, the iteration of the loop in `plotNode` that makes it, and
for how many rows it reserves memory. -/
structure GraphCall where
  type : QueueId
  test : ℕ
  rows : ℤ
deriving DecidableEq

/-- `BUFFER_SIZE` of its `readSocketLimiter`. -/
def GraphCall.size (call : GraphCall) : ℕ := (150 * call.rows).toNat

/-- How often the body of the loop in `plotNode` runs: at least once. -/
def plotNodeTests (e : Environment) : ℕ :=
  if e.testRange = 0 then 1 else max 1 e.nSwitches.toNat

/-- The calls of `buildGraph` that `plotNode` makes. -/
def plotNodeCalls (e : Environment) (quantity : ℕ) : List GraphCall :=
  (List.range (plotNodeTests e)).flatMap fun k =>
    [⟨.values, k, e.nLines⟩, ⟨.avgs, k, e.nLines⟩, ⟨.results, k, quantity⟩]

/-- A block as it is read: for which queue, as the block of which test, and its text. -/
structure Block where
  type : QueueId
  test : ℕ
  text : Text
deriving DecidableEq

/-- What these calls read. -/
def readBlocks : List GraphCall → Text → Option (List Block × Text)
  | [], socket => some ([], socket)
  | call :: calls, socket => do
    let r ← readSocketLimiter call.size socket
    let (blocks, socket) ← readBlocks calls r.socket
    some (⟨call.type, call.test, r.buffer⟩ :: blocks, socket)

/-- What `clientManagement` and `plotNode` read as a report. -/
def receiveReport (quantity : ℕ) (socket : Text) : Option (Environment × List Block × Text) := do
  let (e, socket) ← readEnvironment socket
  let (blocks, socket) ← readBlocks (plotNodeCalls e quantity) socket
  some (e, blocks, socket)

/-! ## Host names -/

/-- An IPv4 address. -/
structure Address where
  a : BitVec 8
  b : BitVec 8
  c : BitVec 8
  d : BitVec 8
deriving DecidableEq

/-- `inet_ntoa`. -/
def inet_ntoa (x : Address) : Text :=
  Nat.toDigits 10 x.a.toNat ++ '.' :: Nat.toDigits 10 x.b.toNat ++ '.' ::
    Nat.toDigits 10 x.c.toNat ++ '.' :: Nat.toDigits 10 x.d.toNat

/-- `reports[index].hostname`, which `serverSide` writes with a size of 150. -/
def hostname (x : Address) : Text := (inet_ntoa x).take 149

/-! ## Building the graphs -/

/-- The labels of VALUES and AVGS, and the flow for the x axis. -/
def headerLabels : Text := "timestamp (sec),flows/sec,time".toList

/-- What `buildHeader` writes, with the size each `snprintf` is told, and the size of the
buffer. Of the `n` flows there is at least one. -/
def headerPieces (hostnames : List Text) (type : QueueId) (n : ℕ) (mode : ℤ) (subMode : ℕ) :
    Option (ℕ × List (ℕ × Text)) :=
  match type with
  | .values =>
    some (30 * (n + 2) + 1, (40, headerLabels) ::
      (List.range (max 1 n)).map fun index => (21, ",Virtual Switch ".toList ++ formatInt index))
  | .avgs =>
    if hostnames.length < max 1 n then none
    else some (30 * (n + 2) + 1, (41, headerLabels) ::
      (hostnames.take (max 1 n)).map fun hostname => (21, ',' :: hostname))
  | .results =>
    some (51, [(51, if mode = 0 then "nodes,ms/response,node,MAX,MIN,AVG,STD DEV".toList
      else "nodes,response/sec,node,MAX,MIN,AVG,STD DEV".toList)])
  | .snmp =>
    some (51, [(51, "timestamp (sec),".toList ++
      if subMode = 0 then "%,time,Memory,CPU".toList else "KB,time,Received,Emmitted".toList)])
  | .time => none

/-- `buildHeader`. -/
def buildHeader (hostnames : List Text) (type : QueueId) (n : ℕ) (mode : ℤ) (subMode : ℕ) :
    Option Text := do
  let (capacity, pieces) ← headerPieces hostnames type n mode subMode
  let header ← Cursor.empty.write capacity (pieces ++ [(2, [CSV_NEWLINE])])
  some header.text

/-- The body of a graph. A row of RESULTS gets the name of the host in front. -/
def graphBody (hostnames : List Text) (id : ℕ) (type : QueueId) (rows : ℤ) (buffer : Text) :
    Option Text :=
  match type with
  | .results => do
    let hostname ← hostnames[id]?
    let body ← Cursor.empty.snprintf ((150 * rows).toNat + 1) (buffer.length + 20 + 1)
      (hostname ++ ',' :: buffer)
    some body.text
  | _ => some buffer

/-- The queues with a header, if there was nothing in this one. -/
def addHeader (hostnames : List Text) (queues : Queues) (type : QueueId) (flows : ℕ) (mode : ℤ) :
    Option Queues :=
  if queues type = [] then
    (buildHeader hostnames type flows mode 0).map fun header =>
      enqueueMessage header queues type false header.length
  else some queues

/-- `buildGraph`: the queues with the block, and what is still to be read. -/
def buildGraph (hostnames : List Text) (queues : Queues) (socket : Text) (id : ℕ)
    (type : QueueId) (flows : ℕ) (rows : ℤ) (mode : ℤ) : Option (Queues × Text) := do
  let r ← readSocketLimiter (150 * rows).toNat socket
  let body ← graphBody hostnames id type rows r.buffer
  let queues ← addHeader hostnames queues type flows mode
  some (enqueueMessage body queues type false body.length, r.socket)

/-- The report of the node, that of all nodes, and what is still to be read. -/
structure PlotState where
  generalReport : Queues
  myreport : Queues
  socket : Text

/-- A call of `buildGraph` in `plotNode`. -/
def plotNodeStep (hostnames : List Text) (id : ℕ) (e : Environment) (s : PlotState)
    (call : GraphCall) : Option PlotState :=
  match call.type with
  | .values =>
    (buildGraph hostnames s.generalReport s.socket id .values e.nSwitches.toNat call.rows
      e.mode).map fun r => { s with generalReport := r.1, socket := r.2 }
  | .avgs =>
    (buildGraph hostnames s.myreport s.socket id .avgs hostnames.length call.rows
      e.mode).map fun r => { s with myreport := r.1, socket := r.2 }
  | .results =>
    (buildGraph hostnames s.myreport s.socket id .results 4 call.rows
      e.mode).map fun r => { s with myreport := r.1, socket := r.2 }
  | _ => none

/-- `plotNode`, up to the graph of the values. -/
def plotNode (hostnames : List Text) (id : ℕ) (e : Environment) (s : PlotState) :
    Option PlotState :=
  (plotNodeCalls e hostnames.length).foldlM (plotNodeStep hostnames id e) s

/-! ## The averages as they come -/

/-- A worker that comes to `buildGraph` for AVGS: its slave, the number of rows and the mode it
read, and the socket. -/
structure Arrival where
  id : ℕ
  nLines : ℤ
  mode : ℤ
  socket : Text

/-- Its call of `buildGraph`. -/
def Arrival.buildGraph (hostnames : List Text) (queues : Queues) (a : Arrival) : Option Queues :=
  (OfcBenchmark.buildGraph hostnames queues a.socket a.id .avgs hostnames.length a.nLines
    a.mode).map Prod.fst

/-- The queues when these workers have come, in this order. -/
def arrive (hostnames : List Text) (arrivals : List Arrival) (queues : Queues) : Option Queues :=
  arrivals.foldlM (Arrival.buildGraph hostnames) queues

end OfcBenchmark
