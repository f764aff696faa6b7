import OfcBenchmark.Benchmark
import OfcBenchmark.Myreport

/-!
# The report of a slave

The messages that `controllerBenchmarking` and `runTest` in `benchmark.c` put into the queues,
and how `clientSide` in `myclient.c` sends them.

What an operation on `double` makes of the exact result is left to a function `fl`. Where the
code writes outside a buffer or through a pointer that was never set, there is no result.
-/

namespace OfcBenchmark
open Printf

/-! ## The environment -/

/-- The parameters the report begins with. -/
structure ReportParams where
  nSwitches : BitVec 32
  loopsPerTest : BitVec 32
  mode : TestMode
  testRange : Bool

/-- The numbers that stand for them. -/
def ReportParams.environment (p : ReportParams) : List ℤ :=
  [p.nSwitches.toInt, p.loopsPerTest.toInt, if p.mode = .latency then 0 else 1,
    if p.testRange then 1 else 0]

/-- `snprintf(message, 6, "%d", v)`. -/
def environmentMessage (v : ℤ) : Text := (formatInt v).take 5

/-- The first messages of VALUES. -/
def enqueueEnvironment (p : ReportParams) (queues : Queues) : Queues :=
  p.environment.foldl (fun queues v => enqueueMessage (environmentMessage v) queues .values true 6)
    queues

/-! ## The rows of a loop -/

/-- What `runTest` makes its rows of: the time since `tStart`, the counts, and `delay`. -/
structure LoopData where
  diff : Timeval
  counts : List ℤ
  delay : ℤ
deriving DecidableEq

section Rows

variable (fl : ℚ → ℚ)

/-- `ms`, the time stamp of a row. -/
def LoopData.ms (d : LoopData) : Double :=
  .ofRat (fl (fl (d.diff.tv_usec.tdiv 1000 + fl (d.diff.tv_sec * 10000)) / 10000))

/-- `sum`, the rate. -/
def LoopData.rate (d : LoopData) : Double :=
  let passed := fl (fl (fl (1000 * d.diff.tv_sec) + fl (d.diff.tv_usec / 1000)) - d.delay)
  .divide fl (d.counts.foldl (fun sum count => fl (sum + count)) 0) passed

/-- The size of the buffers the rows are built in. -/
def ROW_SIZE : ℕ := 150

/-- What is written to `values`, piece by piece, and the size each `snprintf` is told. -/
def valuesPieces (d : LoopData) (LAST : Bool) : List (ℕ × Text) :=
  (ROW_SIZE, (d.ms fl).format 3) ::
    (d.counts.map fun count => (ROW_SIZE, ',' :: formatInt count)) ++
    (2, [CSV_NEWLINE]) :: (if LAST then [(4, [CSV_NEWLINE, LIMITER])] else [])

/-- What is written to `result`. It moves on by the length of the time stamp in `values`, which
is the same. -/
def avgsPieces (d : LoopData) (LAST : Bool) : List (ℕ × Text) :=
  (ROW_SIZE, (d.ms fl).format 3) :: (ROW_SIZE, ',' :: (d.rate fl).format 2 ++ [CSV_NEWLINE]) ::
    (if LAST then [(4, [CSV_NEWLINE, LIMITER])] else [])

/-- The row that the pieces make. -/
def buildRow (pieces : List (ℕ × Text)) : Option Text :=
  (Cursor.empty.write ROW_SIZE pieces).map Cursor.text

/-- The rows that `runTest` enqueues, for VALUES and for AVGS. -/
def runTestRows (d : LoopData) (LAST : Bool) : Option (Text × Text) := do
  let values ← buildRow (valuesPieces fl d LAST)
  let result ← buildRow (avgsPieces fl d LAST)
  some (values, result)

/-! ## The result of a test -/

/-- What `controllerBenchmarking` computes from the loops of a test. -/
structure TestResults where
  min : Double
  max : Double
  avg : Double
  std_dev : Double
deriving DecidableEq

/-- `x == 0 ? 0 : 1000/x`. -/
def msPerResponse (x : Double) : Double :=
  match x.magnitude with
  | .finite q => if q = 0 then ⟨false, .finite 0⟩ else ⟨x.negative, .ofRat (fl (1000 / q)).nnabs⟩
  | .inf => ⟨x.negative, .finite 0⟩
  | .nan => x

/-- The four numbers. -/
def resultText (a b c d : Double) : Text :=
  a.format 2 ++ ',' :: b.format 2 ++ ',' :: c.format 2 ++ ',' :: d.format 2 ++ [CSV_NEWLINE]

/-- `formatResult`. In throughput mode it writes to `buffer` without having allocated it. -/
def formatResult (mode : TestMode) (r : TestResults) : Option Text :=
  match mode with
  | .latency =>
    some (resultText (msPerResponse fl r.min) (msPerResponse fl r.max) (msPerResponse fl r.avg)
      (msPerResponse fl r.std_dev))
  | .throughput => none

end Rows

/-! ## The queues -/

/-- What is enqueued for one test: a row for VALUES and one for AVGS for each loop, and one for
RESULTS. -/
structure TestRows where
  loops : List (Text × Text)
  results : Text
deriving DecidableEq

/-- The rows of the loops; the last one closes the block. -/
def loopRows (fl : ℚ → ℚ) : List LoopData → Option (List (Text × Text))
  | [] => some []
  | d :: loops => do
    let rows ← runTestRows fl d loops.isEmpty
    let rest ← loopRows fl loops
    some (rows :: rest)

/-- The rows of a test. -/
def testRows (fl : ℚ → ℚ) (mode : TestMode) (loops : List LoopData) (r : TestResults) :
    Option TestRows := do
  let rows ← loopRows fl loops
  let finalMessage ← formatResult fl mode r
  some ⟨rows, finalMessage⟩

/-- Enqueue the rows of a test. -/
def enqueueTest (t : TestRows) (queues : Queues) : Queues :=
  let queues := t.loops.foldl (fun queues rows =>
    enqueueMessage rows.2 (enqueueMessage rows.1 queues .values false 150) .avgs false 150) queues
  enqueueMessage t.results queues .results true 150

/-- The messages of a test in the queues. -/
def TestRows.messages (t : TestRows) : Queues
  | .values => t.loops.map fun rows => rows.1.take 150
  | .avgs => t.loops.map fun rows => rows.2.take 150
  | .results => [(t.results ++ [LIMITER]).take 150]
  | .snmp | .time => []

theorem enqueueTest_apply (t : TestRows) (queues : Queues) (id : QueueId) :
    enqueueTest t queues id = queues id ++ t.messages id := by
  have hloops (loops : List (Text × Text)) (queues : Queues) :
      loops.foldl (fun queues rows =>
          enqueueMessage rows.2 (enqueueMessage rows.1 queues .values false 150) .avgs false 150)
        queues id
        = queues id ++ match id with
          | .values => loops.map fun rows => rows.1.take 150
          | .avgs => loops.map fun rows => rows.2.take 150
          | _ => [] := by
    induction loops generalizing queues with
    | nil => cases id <;> exact (List.append_nil _).symm
    | cons rows loops ih =>
      rw [List.foldl_cons, ih]
      cases id <;> simp
  unfold enqueueTest
  by_cases hid : id = .results
  · rw [hid, enqueueMessage_self, if_pos rfl, ← hid, hloops, hid, List.append_nil]
    rfl
  · rw [enqueueMessage_of_ne _ _ _ _ hid, hloops]
    cases id <;> first | rfl | exact absurd rfl hid

/-- `countBits`. -/
def countBits (n : BitVec 32) : ℕ := ((List.range 32).filter fun i => n.getLsbD i).length

/-- There is a test after the initialisation of switch `i`: only test for 1, 2, 4, 8, 16 switches,
says the source, and only if testing a range or this is the last. -/
def isTested (p : ReportParams) (i : ℕ) : Bool :=
  countBits (BitVec.ofNat 32 (i + 1)) ≠ 0 ∧ (p.testRange ∨ i + 1 = p.nSwitches.toNat)

/-- The switches after which there is a test. -/
def testedSwitches (p : ReportParams) : List ℕ :=
  (List.range p.nSwitches.toNat).filter (isTested p)

/-- The queues as `controllerBenchmarking` leaves them, where `rows i` are the rows of the test
after switch `i`. -/
def controllerBenchmarking (p : ReportParams) (rows : ℕ → TestRows) : Queues :=
  (testedSwitches p).foldl (fun queues i => enqueueTest (rows i) queues)
    (enqueueEnvironment p emptyQueues)

theorem enqueueEnvironment_apply (p : ReportParams) (queues : Queues) (id : QueueId) :
    enqueueEnvironment p queues id = queues id ++ if id = .values then
      p.environment.map fun v => (environmentMessage v ++ [LIMITER]).take 6 else [] := by
  have hfold (vs : List ℤ) (queues : Queues) :
      vs.foldl (fun queues v => enqueueMessage (environmentMessage v) queues .values true 6)
          queues id
        = queues id ++ if id = .values then
          vs.map fun v => (environmentMessage v ++ [LIMITER]).take 6 else [] := by
    induction vs generalizing queues with
    | nil => simp
    | cons v vs ih =>
      rw [List.foldl_cons, ih]
      by_cases hid : id = .values
      · simp [hid]
      · simp [hid]
  exact hfold _ _

theorem foldl_enqueueTest_apply (rows : ℕ → TestRows) (is : List ℕ) (queues : Queues)
    (id : QueueId) : is.foldl (fun queues i => enqueueTest (rows i) queues) queues id
      = queues id ++ is.flatMap fun i => (rows i).messages id := by
  induction is generalizing queues with
  | nil => exact (List.append_nil _).symm
  | cons i is ih =>
    rw [List.foldl_cons, ih, enqueueTest_apply, List.flatMap_cons, List.append_assoc]

/-- Nothing is in the queues but the environment and what belongs to the tests. -/
theorem controllerBenchmarking_apply (p : ReportParams) (rows : ℕ → TestRows) (id : QueueId) :
    controllerBenchmarking p rows id
      = (if id = .values then
          p.environment.map fun v => (environmentMessage v ++ [LIMITER]).take 6 else [])
        ++ (testedSwitches p).flatMap fun i => (rows i).messages id := by
  rw [controllerBenchmarking, foldl_enqueueTest_apply, enqueueEnvironment_apply]
  rfl

/-- The messages of a queue are sent from the first to the last. -/
def sendQueue (socket : Text) (queue : List Text) : Text := queue.foldl writeSocket socket

/-- What `clientSide` sends after REPORT_MESSAGE: first the values, then the partials, then the
results. -/
def clientSide (queues : Queues) : Text :=
  sendQueue (sendQueue (sendQueue [] (queues .values)) (queues .avgs)) (queues .results)

theorem clientSide_eq (queues : Queues) :
    clientSide queues
      = (queues .values).flatten ++ (queues .avgs).flatten ++ (queues .results).flatten := by
  unfold clientSide sendQueue
  rw [foldl_writeSocket, foldl_writeSocket, foldl_writeSocket, List.nil_append]

end OfcBenchmark
