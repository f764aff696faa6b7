import OfcBenchmark.Benchmark
import OfcBenchmark.Myreport

/-!
# The SNMP samples

`mysnmp.c`: the polling cycles of `asynchronousSnmp`, `asynchResponse` and `printResult`, and
the two walks of `plotDistributed` in `myplot.c` over the queues they fill.

A variable of a response is the text `snprint_variable` makes of it. What an operation on `double`
makes of the exact result is left to a function `fl`. Where the code divides by zero or goes
through a NULL pointer, there is no result.
-/

namespace OfcBenchmark
open Printf Runs

/-! ## The table of variables -/

/-- The names of the entries of `oids`. -/
inductive ReadableName
  | ramSize
  | ramUsed
  | cpuIdle
  | bytesIn
  | bytesOut
deriving DecidableEq, Repr

/-- `oids`, up to the entry that ends it. -/
def oids : List ReadableName := [.ramSize, .ramUsed, .cpuIdle, .bytesIn, .bytesOut]

/-! The queues of `mysnmp`, which are numbered as those of a report are. -/

/-- `CPU`. -/
abbrev CPU : QueueId := .values

/-- `MEMORY`. -/
abbrev MEMORY : QueueId := .avgs

/-- `IN`. -/
abbrev IN : QueueId := .results

/-- `OUT`. -/
abbrev OUT : QueueId := .snmp

/-- `TIME`. -/
abbrev TIME : QueueId := .time

/-! ## Samples -/

/-- An `int`, of the 32 bits that are kept. -/
def toInt (n : ℤ) : ℤ := (BitVec.ofInt 32 n).toInt

theorem toInt_eq_bmod (n : ℤ) : toInt n = n.bmod (2 ^ 32) := BitVec.toInt_ofInt n

theorem toInt_of_fits {n : ℤ} (hlow : -2 ^ 31 ≤ n) (hhigh : n < 2 ^ 31) : toInt n = n := by
  rw [toInt_eq_bmod]
  exact Int.bmod_eq_of_le_mul_two (by push_cast; omega) (by push_cast; omega)

theorem toInt_bounds (n : ℤ) : -2 ^ 31 ≤ toInt n ∧ toInt n < 2 ^ 31 := by
  rw [toInt_eq_bmod]
  exact ⟨Int.le_bmod (by decide), Int.bmod_lt (by decide)⟩

/-- Bits that an operand has lost make no difference. -/
theorem toInt_toInt_add (m n : ℤ) : toInt (toInt m + n) = toInt (m + n) := by
  rw [toInt_eq_bmod, toInt_eq_bmod m, Int.bmod_add_bmod, toInt_eq_bmod]

/-- `atoi`: a `long`, which stops at its ends, converted to an `int`. -/
def atoiInt (t : Text) : ℤ := toInt (max (-2 ^ 63) (min (2 ^ 63 - 1) (atoi t)))

/-- `strtok(buf, " ")`. -/
def strtok (buf : Text) : Option Text :=
  let token := (buf.dropWhile (· = ' ')).takeWhile (· ≠ ' ')
  if token = [] then none else some token

/-- What `printResult` and the handler of responses work on: the cursors `op` and `current_oid` as
indices into `oids`, the number of active hosts, `ramSize`, and the queues of `mysnmp`. -/
structure SnmpState where
  op : ℕ
  current_oid : ℕ
  active_hosts : ℤ
  ramSize : ℤ
  queues : Queues

/-- Put a sample into a queue. -/
def SnmpState.enqueue (s : SnmpState) (text : Text) (id : QueueId) (size : ℕ) : SnmpState :=
  { s with queues := enqueueMessage (text.take (size - 1)) s.queues id false size }

section Print

variable (fl : ℚ → ℚ) (tStart : Timeval)

/-- `ms`, the time stamp of a sample. -/
def snmpTimestamp (now : Timeval) : Double :=
  let diff := timersub now tStart
  .ofRat (fl (fl (diff.tv_usec.tdiv 1000 + fl (diff.tv_sec * 10000)) / 10000))

/-- What `printResult` makes of a value, for the variable of that name. -/
def storeVariable (now : Timeval) (name : ReadableName) (token : Text) (s : SnmpState) :
    Option SnmpState :=
  let number := atoiInt token
  match name with
  | .ramSize => some { s with ramSize := number }
  | .bytesIn => some (s.enqueue (formatInt (number.tdiv 1024)) IN 50)
  | .bytesOut => some (s.enqueue (formatInt (number.tdiv 1024)) OUT 50)
  | .cpuIdle =>
    -- added once, shared between the variables
    let s := s.enqueue ((snmpTimestamp fl tStart now).format 3) TIME 20
    some (s.enqueue (formatInt (toInt (100 - number))) CPU 50)
  | .ramUsed =>
    if s.ramSize = 0 then none
    else some (s.enqueue (formatInt ((toInt (number * 100)).tdiv s.ramSize)) MEMORY 50)

/-- An iteration of the loop of `printResult`: the name is the one `op` points to. -/
def printVariable (now : Timeval) (s : SnmpState) (vp : Text) : Option SnmpState := do
  let token ← strtok vp
  let name ← oids[s.op]?
  let s ← storeVariable fl tStart now name token s
  some { s with op := s.op + 1 }

/-- A response: its error status, and its variables. -/
structure SnmpPdu where
  errstat : ℤ
  variable_list : List Text
deriving DecidableEq

/-- `SNMP_ERR_NOERROR`. -/
def SNMP_ERR_NOERROR : ℤ := 0

/-- `printResult` with STAT_SUCCESS, after which it returns 1. A response with an error status is
only displayed. -/
def printResult (now : Timeval) (pdu : SnmpPdu) (s : SnmpState) : Option SnmpState :=
  if pdu.errstat = SNMP_ERR_NOERROR then pdu.variable_list.foldlM (printVariable fl tStart now) s
  else some s

/-! ## Polling -/

/-- What happens while the host is polled. The flag `sent` says whether `snmp_send` accepts the
request that is sent next. -/
inductive SnmpEvent
  | start (sent : Bool)
  | response (pdu : SnmpPdu) (now : Timeval) (sent : Bool)
  | timeout

/-- A new cycle: both cursors go to the first entry, which is asked for. -/
def startCycle (sent : Bool) (s : SnmpState) : SnmpState :=
  { s with op := 0, current_oid := 0
           active_hosts := if sent then s.active_hosts + 1 else s.active_hosts }

/-- `asynchResponse` for a message that was received. -/
def asynchResponse (pdu : SnmpPdu) (now : Timeval) (sent : Bool) (s : SnmpState) :
    Option SnmpState := do
  let s ← printResult fl tStart now pdu s
  let s := { s with current_oid := s.current_oid + 1 }
  -- send next GET (if any)
  if s.current_oid < oids.length ∧ sent then some s
  else some { s with active_hosts := s.active_hosts - 1 }

/-- One event. A timeout is only displayed. -/
def runSnmp (e : SnmpEvent) (s : SnmpState) : Option SnmpState :=
  match e with
  | .start sent => some (startCycle sent s)
  | .response pdu now sent => asynchResponse fl tStart pdu now sent s
  | .timeout => some { s with active_hosts := s.active_hosts - 1 }

/-- A cycle begins when no host is active, and only an active one has a request that can be
answered or time out. -/
def SnmpState.Allows (s : SnmpState) : SnmpEvent → Prop
  | .start _ => s.active_hosts = 0
  | .response .. | .timeout => s.active_hosts ≠ 0

instance (s : SnmpState) : DecidablePred s.Allows
  | .start _ => inferInstanceAs (Decidable (_ = _))
  | .response .. | .timeout => inferInstanceAs (Decidable (_ ≠ _))

/-- A step of the poller. -/
def stepSnmp (e : SnmpEvent) (s : SnmpState) : Option SnmpState :=
  if s.Allows e then runSnmp fl tStart e s else none

/-- The same as a relation. -/
def SnmpStep (s : SnmpState) (e : SnmpEvent) (s' : SnmpState) : Prop :=
  stepSnmp fl tStart e s = some s'

end Print

/-- A transition of the poller. -/
abbrev SnmpTransition := Transition SnmpState SnmpEvent

/-- The state `initializeSnmp` leaves. -/
def initializeSnmp : SnmpState where
  op := 0
  current_oid := 0
  active_hosts := 0
  ramSize := 0
  queues := emptyQueues

/-! ## The graphs -/

/-- `mysnmp->queues[TIME].length`. It is not set before the first message; `unset` is what
`malloc` returned there. -/
def timeLength (unset : ℤ) (queues : Queues) : ℤ :=
  if queues TIME = [] then unset else (queues TIME).length

/-- The length `plotDistributed` walks to. -/
def plotLength (unset : ℤ) (queues : Queues) : ℕ :=
  let length := timeLength unset queues
  (if length = 0 then 1 else length).toNat

/-- The rows that are joined from three queues, so many of them. -/
def joinQueues : ℕ → List Text → List Text → List Text → Option (List Text)
  | 0, _, _, _ => some []
  | length + 1, time :: times, first :: firsts, second :: seconds =>
    let row := (time ++ ',' :: first ++ ',' :: second ++ [CSV_NEWLINE]).take 149
    (joinQueues length times firsts seconds).map (row :: ·)
  | _ + 1, _, _, _ => none  -- a NULL pointer

/-- The rows of the two SNMP graphs of `plotDistributed`. -/
def plotSnmp (unset : ℤ) (queues : Queues) : Option (List Text × List Text) := do
  let length := plotLength unset queues
  let memAndCpu ← joinQueues length (queues TIME) (queues MEMORY) (queues CPU)
  let bandwith ← joinQueues length (queues TIME) (queues IN) (queues OUT)
  some (memAndCpu, bandwith)

end OfcBenchmark
