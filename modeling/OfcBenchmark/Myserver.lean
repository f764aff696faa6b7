import OfcBenchmark.Lib.Runs

/-!
# The master

`myserver.c`: the main thread in `serverSide`, which accepts the slaves and creates a thread
for each, those threads in `clientManagement`, and what of `asynchronousSnmp` depends on
them. The threads take turns in any order; each step of a thread is one access to what they
share. What the network answers is an argument of the event.

`clientsStatuses.quantity` is the parameter `n`. Its counters, 32 bits wide in C, are natural
numbers. A step that would access an array outside its bounds has no counterpart here, as it
has none in C.
-/

namespace OfcBenchmark
open Runs

/-! ## Messages -/

/-- What `readSocket` can deliver to a worker: CONNECT_REQUEST_MESSAGE, REPORT_MESSAGE, or
something else. -/
inductive SlaveMessage
  | connectRequest
  | report
  | unknown
deriving DecidableEq, Repr

/-- After so many messages a worker leaves its loop. -/
def SERVER_MESSAGES : ℕ := 2

/-! ## Threads -/

/-- Where the main thread is in `serverSide`. -/
inductive MainPc
  /-- in `accept` -/
  | accept
  /-- about to store the socket in `reports[index]` -/
  | storeSock
  /-- about to write `index` to `param` -/
  | storeParam
  /-- about to create the thread -/
  | create
  /-- about to increment and test `index` -/
  | next
  /-- joining the threads that are left, the last one first -/
  | join (left : ℕ)
  /-- in `plotDistributed` -/
  | plot
deriving DecidableEq, Repr

/-- Where a worker is in `clientManagement`. -/
inductive WorkerPc
  /-- not created yet -/
  | none
  /-- about to read its id from `param` -/
  | readId
  /-- about to read its socket from `reports[id]` -/
  | readSock
  /-- in `readSocket` -/
  | receive
  /-- locking `lock` to handle a CONNECT_REQUEST -/
  | lockConnect
  /-- about to increment `connected` -/
  | connect
  /-- about to broadcast `sendStart` if all are connected -/
  | announce
  /-- about to test `connected < quantity` -/
  | check
  /-- in `pthread_cond_wait` -/
  | wait
  /-- woken up, about to lock `lock` again -/
  | wake
  /-- about to start the SNMP thread if it has the last id -/
  | startSnmp
  /-- about to unlock `lock` -/
  | unlockConnect
  /-- about to write START_MESSAGE -/
  | sendStart
  /-- locking `lock` to handle a REPORT -/
  | lockReport
  /-- about to increment `reported` -/
  | report
  /-- about to unlock `lock` -/
  | unlockReport
  /-- reading the report -/
  | readReport
  /-- about to test `messageReceived` -/
  | next
  /-- behind the loop, locking `lock` -/
  | lockStop
  /-- about to set `snmpStop` -/
  | stop
  /-- about to unlock `lock` -/
  | unlockStop
  /-- about to join its SNMP thread if it has the last id -/
  | joinSnmp
  | exited
deriving DecidableEq, Repr

/-- Where an SNMP thread is in `asynchronousSnmp`: in its loop, or at its end. -/
inductive SnmpPc
  | sampling
  | ended
deriving DecidableEq, Repr

/-- A worker: its locals, and how often it has counted a CONNECT_REQUEST or a REPORT, written
START_MESSAGE and started an SNMP thread. `snmpThread` is its `snmp_thread`, `none` while that
is not initialised. -/
structure Worker where
  pc : WorkerPc
  id : ℕ
  clientFd : Option ℕ
  snmpThread : Option ℕ
  messageReceived : ℕ
  connects : ℕ
  starts : ℕ
  reports : ℕ
  snmpThreads : ℕ
deriving DecidableEq, Repr

/-- The worker after a broadcast. -/
def Worker.woken (w : Worker) : Worker := if w.pc = .wait then { w with pc := .wake } else w

/-- What the threads share, and where they are. `reports i` is `reports[i].sock`, `none` while
the memory is as `malloc` left it. -/
structure Server (n : ℕ) where
  main : MainPc
  index : ℕ
  param : ℕ
  clientFd : ℕ
  reports : Fin n → Option ℕ
  connected : ℕ
  reported : ℕ
  snmpStop : Bool
  lock : Option (Fin n)
  workers : Fin n → Worker
  /-- the SNMP threads, in the order of their creation -/
  snmp : List SnmpPc

/-- The start of the accept loop. `param` is not initialised. -/
def serverStart (n param : ℕ) : Server n where
  main := .accept
  index := 0
  param := param
  clientFd := 0
  reports := fun _ => none
  connected := 0
  reported := 0
  snmpStop := false
  lock := none
  workers := fun _ => { pc := .none, id := 0, clientFd := none, snmpThread := none,
                        messageReceived := 0, connects := 0, starts := 0, reports := 0,
                        snmpThreads := 0 }
  snmp := []

section Server

variable {n : ℕ}

/-- Update one worker. -/
def Server.set (s : Server n) (i : Fin n) (w : Worker) : Server n :=
  { s with workers := Function.update s.workers i w }

/-- Move one worker on. -/
def Server.goto (s : Server n) (i : Fin n) (pc : WorkerPc) : Server n :=
  s.set i { s.workers i with pc := pc }

/-! ## The main thread -/

/-- `accept` returns the descriptor `fd`, one that none of the connections has: they are all
open. -/
def Server.accept (s : Server n) (fd : ℕ) : Option (Server n) :=
  if s.main = .accept ∧ ∀ i, s.reports i ≠ some fd then
    some { s with main := .storeSock, clientFd := fd }
  else none

/-- The next step of `serverSide`, but for `accept`. -/
def serverSide (s : Server n) : Option (Server n) :=
  match s.main with
  | .accept | .plot => none
  | .storeSock =>
    if h : s.index < n then
      some { s with main := .storeParam
                    reports := Function.update s.reports ⟨s.index, h⟩ (some s.clientFd) }
    else none
  | .storeParam => some { s with main := .create, param := s.index }
  | .create =>
    if h : s.index < n then some ({ s with main := .next }.goto ⟨s.index, h⟩ .readId) else none
  | .next =>
    let index := s.index + 1
    some { s with main := if index < n then .accept else .join n, index := index }
  | .join 0 => some { s with main := .plot }
  | .join (k + 1) =>
    if h : k < n then
      if (s.workers ⟨k, h⟩).pc = .exited then some { s with main := .join k } else none
    else none

/-! ## The workers -/

/-- `pthread_mutex_lock(&lock)`, which blocks while somebody has it. -/
def Server.take (s : Server n) (i : Fin n) (pc : WorkerPc) : Option (Server n) :=
  if s.lock = none then some ({ s with lock := some i }.goto i pc) else none

/-- `pthread_mutex_unlock(&lock)`. -/
def Server.release (s : Server n) (i : Fin n) (pc : WorkerPc) : Server n :=
  { s with lock := none }.goto i pc

/-- `pthread_cond_broadcast(&sendStart)`. -/
def Server.broadcast (s : Server n) : Server n :=
  { s with workers := fun j => (s.workers j).woken }

/-- The next step of worker `i` in `clientManagement`, where it does not wait for a message.
`pthread_create` and `write` do not fail: where they do, the process ends. -/
def clientManagement (s : Server n) (i : Fin n) : Option (Server n) :=
  let w := s.workers i
  match w.pc with
  | .none | .receive | .wait | .readReport | .exited => none
  | .readId => some (s.set i { w with pc := .readSock, id := s.param })
  | .readSock =>
    if h : w.id < n then some (s.set i { w with pc := .receive, clientFd := s.reports ⟨w.id, h⟩ })
    else none
  | .lockConnect => s.take i .connect
  | .connect =>
    some ({ s with connected := s.connected + 1 }.set i
      { w with pc := .announce, connects := w.connects + 1 })
  | .announce => some ((if s.connected = n then s.broadcast else s).goto i .check)
  | .check =>
    -- `pthread_cond_wait` unlocks `lock`
    if s.connected < n then some (s.release i .wait) else some (s.goto i .startSnmp)
  | .wake => s.take i .check
  | .startSnmp =>
    if (w.id : ℤ) = n - 1 then
      some ({ s with snmp := s.snmp ++ [SnmpPc.sampling] }.set i
        { w with pc := .unlockConnect, snmpThread := some s.snmp.length
                 snmpThreads := w.snmpThreads + 1 })
    else some (s.goto i .unlockConnect)
  | .unlockConnect => some (s.release i .sendStart)
  | .sendStart =>
    some (s.set i { w with pc := .next, messageReceived := w.messageReceived + 1
                           starts := w.starts + 1 })
  | .lockReport => s.take i .report
  | .report =>
    some ({ s with reported := s.reported + 1 }.set i
      { w with pc := .unlockReport, reports := w.reports + 1 })
  | .unlockReport => some (s.release i .readReport)
  | .next => some (s.goto i (if w.messageReceived = SERVER_MESSAGES then .lockStop else .receive))
  | .lockStop => s.take i .stop
  | .stop => some ({ s with snmpStop := true }.goto i .unlockStop)
  | .unlockStop => some (s.release i .joinSnmp)
  | .joinSnmp =>
    if (w.id : ℤ) = n - 1 then
      -- `pthread_join`, which waits; nothing is defined for a thread that was never created
      if w.snmpThread.bind (s.snmp[·]?) = some .ended then some (s.goto i .exited) else none
    else some (s.goto i .exited)

/-- `readSocket` returns a message to worker `i`. -/
def Server.receive (s : Server n) (i : Fin n) (m : SlaveMessage) : Option (Server n) :=
  if (s.workers i).pc = .receive then
    match m with
    | .connectRequest => some (s.goto i .lockConnect)
    | .report => some (s.goto i .lockReport)
    | .unknown => some (s.goto i .next)
  else none

/-- Worker `i` has read its report; `bytesRead` is what `plotNode` returned. -/
def Server.readReport (s : Server n) (i : Fin n) (bytesRead : ℤ) : Option (Server n) :=
  let w := s.workers i
  if w.pc = .readReport then
    some (s.set i { w with
      pc := .next
      messageReceived := if bytesRead > 0 then w.messageReceived + 1 else w.messageReceived })
  else none

/-- Worker `i` wakes up from `pthread_cond_wait` without a broadcast. -/
def Server.wakeUp (s : Server n) (i : Fin n) : Option (Server n) :=
  if (s.workers i).pc = .wait then some (s.goto i .wake) else none

/-! ## The SNMP threads -/

/-- How many SNMP threads have ended. -/
def Server.snmpEnded (s : Server n) : ℕ := s.snmp.count .ended

/-- A turn of `asynchronousSnmp` in SNMP thread `k`: a sample, then the test of `snmpStop`. The
mutex it locks for that is not that of the workers, as `lock` is static in a header. A thread
that ends leaves it locked. -/
def asynchronousSnmp (s : Server n) (k : ℕ) : Option (Server n) :=
  if s.snmp[k]? = some .sampling ∧ .ended ∉ s.snmp then
    some { s with snmp := if s.snmpStop then s.snmp.set k .ended else s.snmp }
  else none

/-! ## Steps -/

/-- What can happen next. -/
inductive ServerEvent (n : ℕ)
  | accept (fd : ℕ)
  | main
  | worker (i : Fin n)
  | receive (i : Fin n) (m : SlaveMessage)
  | readReport (i : Fin n) (bytesRead : ℤ)
  | wakeUp (i : Fin n)
  | snmp (k : ℕ)
deriving DecidableEq, Repr

/-- The state after it, if it can happen. -/
def runServer (e : ServerEvent n) (s : Server n) : Option (Server n) :=
  match e with
  | .accept fd => s.accept fd
  | .main => serverSide s
  | .worker i => clientManagement s i
  | .receive i m => s.receive i m
  | .readReport i bytesRead => s.readReport i bytesRead
  | .wakeUp i => s.wakeUp i
  | .snmp k => asynchronousSnmp s k

/-- One step of one thread. -/
def ServerStep (s : Server n) (e : ServerEvent n) (s' : Server n) : Prop :=
  runServer e s = some s'

/-- A step that was taken. -/
abbrev ServerTransition (n : ℕ) := Transition (Server n) (ServerEvent n)

end Server

end OfcBenchmark
