import OfcBenchmark.NetworkTheorems

/-!
# A worker and its slave

What a worker and the slave it serves do on their connection, whatever the others do
(`SessionStep`). They go through the same stages, and what has been read, is on its way and is
still to be written adds up to what the slave has to say (`Stage.step`).
-/

namespace OfcBenchmark
open Printf Runs

/-! ## Reading character by character -/

/-- What comes behind does not matter to a reader that is done. -/
theorem readLoop_append {size : ℕ} {socket array rest : Text}
    (h : readLoop size socket = some (array, rest)) (more : Text) :
    readLoop size (socket ++ more) = some (array, rest ++ more) := by
  induction socket generalizing size array with
  | nil => cases h
  | cons c socket ih =>
    unfold readLoop at h
    rw [List.cons_append, readLoop]
    split at h
    case isTrue hmore =>
      obtain ⟨⟨array', rest'⟩, hloop, heq⟩ := Option.map_eq_some_iff.mp h
      cases heq
      rw [if_pos hmore, ih hloop]
      rfl
    case isFalse hlast =>
      cases h
      rw [if_neg hlast]

/-- And it takes no more characters than it needs. -/
theorem readLoop_concat {size : ℕ} {socket array rest : Text} {c : Char}
    (hnone : readLoop size socket = none)
    (h : readLoop size (socket ++ [c]) = some (array, rest)) : rest = [] := by
  induction socket generalizing size array with
  | nil =>
    rw [List.nil_append] at h
    unfold readLoop at h
    split at h
    case isTrue hmore =>
      obtain ⟨r, hloop, -⟩ := Option.map_eq_some_iff.mp h
      cases hloop
    case isFalse hlast =>
      cases h
      rfl
  | cons d socket ih =>
    rw [List.cons_append] at h
    unfold readLoop at h hnone
    split at h
    case isTrue hmore =>
      obtain ⟨⟨array', rest'⟩, hloop, heq⟩ := Option.map_eq_some_iff.mp h
      cases heq
      rw [if_pos hmore, Option.map_eq_none_iff] at hnone
      exact ih hnone hloop
    case isFalse hlast =>
      rw [if_neg hlast] at hnone
      cases hnone

theorem readSocketLimiter_append {size : ℕ} {socket : Text} {r : Received}
    (h : readSocketLimiter size socket = some r) (more : Text) :
    readSocketLimiter size (socket ++ more) = some { r with socket := r.socket ++ more } := by
  unfold readSocketLimiter at h ⊢
  split at h
  case isTrue => cases h
  case isFalse hsize =>
    split at h
    case h_1 => cases h
    case h_2 array rest hloop =>
      rw [if_neg hsize, readLoop_append hloop]
      dsimp only at h ⊢
      split at h
      case isTrue hne =>
        cases h
        rw [if_pos hne]
      case isFalse hnil =>
        split at h
        case isTrue hlong =>
          cases h
          rw [if_neg hnil, if_pos hlong]
        case isFalse => cases h

/-- What the call has not read is left. -/
theorem socket_readSocketLimiter {size : ℕ} {socket : Text} {r : Received}
    (h : readSocketLimiter size socket = some r) :
    ∃ array, readLoop size socket = some (array, r.socket) := by
  unfold readSocketLimiter at h
  split at h
  case isTrue => cases h
  case isFalse =>
    split at h
    case h_1 => cases h
    case h_2 array rest hloop =>
      refine ⟨array, ?_⟩
      dsimp only at h
      split at h
      · cases h
        exact hloop
      · split at h
        · cases h
          exact hloop
        · cases h

/-- The call that is done with a character is done with this text, whatever is behind it. -/
theorem readSocketLimiter_concat {size : ℕ} {buffer : Text} {c : Char} {r : Received}
    (hnone : readLoop size buffer = none) (h : readSocketLimiter size (buffer ++ [c]) = some r)
    (socket : Text) :
    readSocketLimiter size (buffer ++ c :: socket) = some { r with socket := socket } := by
  obtain ⟨array, hloop⟩ := socket_readSocketLimiter h
  have hrest : r.socket = [] := readLoop_concat hnone hloop
  have happend := readSocketLimiter_append h socket
  rw [List.append_assoc, hrest] at happend
  exact happend

/-! ## What is still to be read of a report -/

/-- So many numbers of the environment. -/
def readNumbers : ℕ → Text → Option (List ℤ × Text)
  | 0, socket => some ([], socket)
  | m + 1, socket => do
    let (x, socket) ← readInt socket
    let (numbers, socket) ← readNumbers m socket
    some (x :: numbers, socket)

/-- The blocks that are still to be read behind these numbers of the environment. -/
def receiveBehind (quantity : ℕ) (numbers : List ℤ) (socket : Text) :
    Option (List Block × Text) := do
  let (more, socket) ← readNumbers (4 - numbers.length) socket
  match numbers ++ more with
  | [nSwitches, nLines, mode, testRange] =>
    readBlocks (plotNodeCalls ⟨nSwitches, nLines, mode, testRange⟩ quantity) socket
  | _ => none

/-- The blocks that are still to be read, and what is left then. -/
def ReportPc.receive (quantity : ℕ) (socket : Text) : ReportPc → Option (List Block × Text)
  | .environment numbers => receiveBehind quantity numbers socket
  | .lock call calls | .buildGraph call calls => readBlocks (call :: calls) socket
  | .unlock calls => readBlocks calls socket
  | .plotGraph => some ([], socket)

namespace ReportPc

variable {quantity : ℕ}

theorem receive_next (calls : List GraphCall) (socket : Text) :
    (next calls).receive quantity socket = readBlocks calls socket := by
  cases calls with
  | nil => rfl
  | cons call calls =>
    unfold next
    dsimp only
    split <;> rfl

theorem receive_learn {numbers : List ℤ} (socket : Text) :
    (learn quantity numbers).receive quantity socket = receiveBehind quantity numbers socket := by
  unfold learn
  split
  case h_1 => exact receive_next _ _
  case h_2 => rfl

/-- A number is read behind the others. -/
theorem receiveBehind_cons {numbers : List ℤ} (socket : Text) (hlen : numbers.length < 4) :
    receiveBehind quantity numbers socket
      = (readInt socket).bind fun r => receiveBehind quantity (numbers ++ [r.1]) r.2 := by
  have hsub (x : ℤ) : 4 - numbers.length = (4 - (numbers ++ [x]).length) + 1 := by
    rw [List.length_append, List.length_singleton]
    omega
  unfold receiveBehind
  cases h : readInt socket with
  | none =>
    rw [hsub 0, readNumbers, h]
    rfl
  | some r =>
    rw [hsub r.1, readNumbers, h, Option.bind_some]
    generalize 4 - (numbers ++ [r.1]).length = m
    cases hmore : readNumbers m r.2 <;> simp [hmore]

/-- From the beginning on, this is the report. -/
theorem receive_environment (socket : Text) :
    (environment []).receive quantity socket
      = (receiveReport quantity socket).map fun r => (r.2.1, r.2.2) := by
  show receiveBehind quantity [] socket = _
  unfold receiveReport readEnvironment
  rw [receiveBehind_cons _ (by decide)]
  cases readInt socket with
  | none => rfl
  | some a =>
    rw [Option.bind_some, receiveBehind_cons _ (by simp)]
    cases hb : readInt a.2 with
    | none => simp [hb]
    | some b =>
      rw [Option.bind_some, receiveBehind_cons _ (by simp)]
      cases hc : readInt b.2 with
      | none => simp [hb, hc]
      | some c =>
        rw [Option.bind_some, receiveBehind_cons _ (by simp)]
        cases hd : readInt c.2 with
        | none => simp [hb, hc, hd]
        | some d =>
          simp [hb, hc, hd, receiveBehind, readNumbers]

/-- Fewer than four numbers are read when another one is to come. -/
def Short : ReportPc → Prop
  | .environment numbers => numbers.length < 4
  | _ => True

/-- A call that is done: what is still to be read then, and the block that has been. -/
theorem receive_read {pc : ReportPc} {size : ℕ} {buffer : Text} {c : Char} {r : Received}
    (hshort : pc.Short) (hsize : pc.size = some size) (hnone : readLoop size buffer = none)
    (hread : readSocketLimiter size (buffer ++ [c]) = some r) (socket : Text) :
    pc.receive quantity (buffer ++ c :: socket)
      = ((pc.read quantity r.buffer).receive quantity socket).map fun b =>
          (pc.blocks r.buffer ++ b.1, b.2) := by
  have hcall := readSocketLimiter_concat hnone hread socket
  cases pc with
  | environment numbers =>
    cases hsize
    have hint : readInt (buffer ++ c :: socket) = some (atoi r.buffer, socket) := by
      rw [readInt, hcall]
      rfl
    show receiveBehind _ _ _ = ((learn _ _).receive _ _).map _
    rw [receiveBehind_cons _ hshort, hint, Option.bind_some, receive_learn]
    exact Option.map_id'.symm
  | buildGraph call calls =>
    cases hsize
    have hnext : ((ReportPc.buildGraph call calls).read quantity r.buffer).receive quantity socket
        = readBlocks calls socket := by
      show (if call.type = .values then next calls else .unlock calls).receive _ _ = _
      split
      · exact receive_next _ _
      · rfl
    rw [hnext]
    show readBlocks (call :: calls) _ = _
    rw [readBlocks, hcall, Option.bind_eq_bind, Option.bind_some]
    cases readBlocks calls socket <;> rfl
  | _ => cases hsize

theorem short_next (calls : List GraphCall) : (next calls).Short := by
  cases calls with
  | nil => trivial
  | cons call calls =>
    unfold next
    dsimp only
    split <;> trivial

theorem short_read {pc : ReportPc} (hshort : pc.Short) (text : Text) :
    (pc.read quantity text).Short := by
  cases pc with
  | environment numbers =>
    show (learn quantity (numbers ++ [atoi text])).Short
    unfold learn
    split
    case h_1 => exact short_next _
    case h_2 hne =>
      have hlen : (numbers ++ [atoi text]).length = numbers.length + 1 := List.length_append
      change numbers.length < 4 at hshort
      refine lt_of_le_of_ne (by omega) fun hfour => ?_
      obtain ⟨a, b, c, d, heq⟩ := List.length_eq_four.mp hfour
      exact hne a b c d heq
  | buildGraph call calls =>
    show (if call.type = .values then next calls else .unlock calls).Short
    split
    · exact short_next _
    · trivial
  | _ => trivial

end ReportPc

/-! ## Sessions -/

/-- What a worker and its slave have: where they are, what the worker has read and enqueued, and
what is on its way between them. -/
structure Session where
  worker : Worker
  buffer : Text
  reading : ReportPc
  slave : SlavePc
  toMaster : Text
  toSlave : Text
  general : List Block
  mine : List Block

/-- Where a message leads a worker. -/
def SlaveMessage.pc : SlaveMessage → WorkerPc
  | .connectRequest => .lockConnect
  | .report => .lockReport
  | .unknown => .next

namespace Session

/-- What the worker has read of the message it is at, and what is still to come. -/
def stream (report : Text) (u : Session) : Text := u.buffer ++ (u.toMaster ++ u.slave.owes report)

/-- Nothing of the report is read. -/
structure Unread (u : Session) : Prop where
  reading_eq : u.reading = .environment []
  general_eq : u.general = []
  mine_eq : u.mine = []

/-- These blocks have been enqueued. -/
structure Enqueued (u : Session) (blocks : List Block) : Prop where
  general_eq : u.general = blocks.filter fun block => block.type = .values
  mine_eq : u.mine = blocks.filter fun block => block.type ≠ .values

/-- The reader that the worker is in is not done yet. -/
structure Incomplete (u : Session) : Prop where
  short : u.reading.Short
  readLoop_eq : ∀ size, u.reading.size = some size → readLoop size u.buffer = none
  buffer_eq : u.reading.size = none → u.buffer = []

end Session

/-- A step of a worker or of its slave, or what a step of another worker does to it. -/
inductive SessionStep (n : ℕ) (report : Text) (u : Session) : Session → Prop
  | write (m : ℕ) : 0 < m → m ≤ u.slave.unsent.length →
      SessionStep n report u { u with slave := u.slave.wrote m
                                      toMaster := u.toMaster ++ u.slave.unsent.take m }
  | readStart {c : Char} {rest : Text} (behind : Char) : u.slave = .readStart →
      u.toSlave = c :: rest →
      SessionStep n report u { u with slave := .gotStart c behind, toSlave := rest }
  | benchmark : u.slave = .benchmark →
      SessionStep n report u { u with slave := .sendReport (REPORT_MESSAGE ++ report) }
  | turn {s : Server n} {w : Worker} : NextWorker s u.worker w → u.worker.pc ≠ .receive →
      u.worker.pc ≠ .readReport → u.worker.pc ≠ .sendStart →
      (u.worker.pc = .next →
        w.pc = if u.worker.messageReceived = SERVER_MESSAGES then .lockStop else .receive) →
      SessionStep n report u { u with worker := w }
  | sendStart : u.worker.pc = .sendStart →
      SessionStep n report u { u with
        worker := { u.worker with pc := .next, messageReceived := u.worker.messageReceived + 1
                                  starts := u.worker.starts + 1 }
        toSlave := u.toSlave ++ START_MESSAGE }
  | woken : SessionStep n report u { u with worker := u.worker.woken }
  | readChar {c : Char} {rest : Text} : u.worker.pc = .receive → u.toMaster = c :: rest →
      (u.buffer ++ [c]).length < 2 →
      SessionStep n report u { u with buffer := u.buffer ++ [c], toMaster := rest }
  | readMessage {c : Char} {rest : Text} : u.worker.pc = .receive → u.toMaster = c :: rest →
      2 ≤ (u.buffer ++ [c]).length →
      SessionStep n report u { u with
        worker := { u.worker with pc := (slaveMessage (u.buffer ++ [c])).pc }
        buffer := [], toMaster := rest }
  | readPart {c : Char} {rest : Text} {size : ℕ} : u.worker.pc = .readReport →
      u.toMaster = c :: rest → u.reading.size = some size →
      readLoop size (u.buffer ++ [c]) = none →
      SessionStep n report u { u with buffer := u.buffer ++ [c], toMaster := rest }
  | readText {c : Char} {rest : Text} {size : ℕ} {r : Received} : u.worker.pc = .readReport →
      u.toMaster = c :: rest → u.reading.size = some size →
      readSocketLimiter size (u.buffer ++ [c]) = some r →
      SessionStep n report u { u with
        buffer := [], toMaster := rest, reading := u.reading.read n r.buffer
        general := u.general ++
          (u.reading.blocks r.buffer).filter fun block => block.type = .values
        mine := u.mine ++ (u.reading.blocks r.buffer).filter fun block => block.type ≠ .values }
  | lockPlot {call : GraphCall} {calls : List GraphCall} : u.worker.pc = .readReport →
      u.reading = .lock call calls →
      SessionStep n report u { u with reading := .buildGraph call calls }
  | unlockPlot {calls : List GraphCall} : u.worker.pc = .readReport →
      u.reading = .unlock calls → SessionStep n report u { u with reading := .next calls }
  | plotNode : u.worker.pc = .readReport → u.reading = .plotGraph →
      SessionStep n report u { u with
        worker := { u.worker with pc := .next, messageReceived := u.worker.messageReceived + 1 }
        reading := .environment [] }

/-! ## Stages -/

namespace WorkerPc

/-- Handling CONNECT_REQUEST. -/
def inBarrier : WorkerPc → Bool
  | .lockConnect | .connect | .announce | .check | .wait | .wake | .startSnmp | .unlockConnect
  | .sendStart => true
  | _ => false

/-- Waiting for the report, or about to. -/
def atReport : WorkerPc → Bool
  | .next | .receive => true
  | _ => false

/-- Handling REPORT. -/
def inReport : WorkerPc → Bool
  | .lockReport | .report | .unlockReport => true
  | _ => false

/-- Leaving the loop. -/
def leaving : WorkerPc → Bool
  | .next | .lockStop | .stop | .unlockStop | .joinSnmp | .exited => true
  | _ => false

end WorkerPc

namespace NextWorker

variable {n : ℕ} {s : Server n} {w w' : Worker}

/-- What a worker counts, it counts in three places. -/
theorem counters (h : NextWorker s w w') (hconnect : w.pc ≠ .connect)
    (hstart : w.pc ≠ .sendStart) (hreport : w.pc ≠ .readReport) :
    w'.messageReceived = w.messageReceived ∧ w'.connects = w.connects ∧
      w'.starts = w.starts := by
  cases h with
  | connect hpc => exact absurd hpc hconnect
  | sendStart hpc => exact absurd hpc hstart
  | readReport _ hpc => exact absurd hpc hreport
  | _ => exact ⟨rfl, rfl, rfl⟩

theorem inBarrier (h : NextWorker s w w') (hpc : w.pc.inBarrier = true)
    (hstart : w.pc ≠ .sendStart) :
    w'.pc.inBarrier = true ∧ w'.messageReceived = w.messageReceived ∧ w'.starts = w.starts ∧
      ((w.pc.hasRequest = true ∨ 0 < w.connects) →
        w'.pc.hasRequest = true ∨ 0 < w'.connects) := by
  cases h with
  | connect => exact ⟨rfl, rfl, rfl, fun _ => .inr (Nat.succ_pos _)⟩
  | startSnmp hsnmp =>
    rw [hsnmp]
    exact ⟨rfl, rfl, rfl, fun hconnects => .inr (hconnects.resolve_left nofun)⟩
  | sendStart hpc' => exact absurd hpc' hstart
  | move hmoves _ =>
    generalize w.pc = p at hmoves hpc
    cases hmoves with
    | lockConnect => exact ⟨rfl, rfl, rfl, fun _ => .inl rfl⟩
    | takeConnect | takeReport | takeUnknown | lockReport | unlockReport | receive | lockStop | stop
    | unlockStop => cases hpc
    | _ => exact ⟨rfl, rfl, rfl, fun hconnects => .inr (hconnects.resolve_left nofun)⟩
  | readId hpc' | readSock _ hpc' | report hpc' | readReport _ hpc' | leave hpc' _ | exit hpc' _ =>
    rw [hpc'] at hpc
    cases hpc

theorem inReport (h : NextWorker s w w') (hpc : w.pc.inReport = true) :
    w'.pc.inReport = true ∨ w'.pc = .readReport := by
  cases h with
  | report => exact .inl rfl
  | move hmoves _ =>
    generalize w.pc = p at hmoves hpc
    cases hmoves with
    | lockReport => exact .inl rfl
    | unlockReport => exact .inr rfl
    | _ => cases hpc
  | readId hpc' | readSock _ hpc' | connect hpc' | startSnmp hpc' _ | sendStart hpc'
  | readReport _ hpc' | leave hpc' _ | exit hpc' _ =>
    rw [hpc'] at hpc
    cases hpc

theorem leaving (h : NextWorker s w w') (hpc : w.pc.leaving = true)
    (hnext : w.pc = .next → w'.pc = .lockStop) : w'.pc.leaving = true := by
  cases h with
  | leave | exit => rfl
  | move hmoves _ =>
    generalize w.pc = p at hmoves hpc hnext
    cases hmoves with
    | receive => cases hnext rfl
    | lockStop | stop | unlockStop => rfl
    | _ => cases hpc
  | readId hpc' | readSock _ hpc' | connect hpc' | startSnmp hpc' _ | sendStart hpc'
  | readReport _ hpc' | report hpc' =>
    rw [hpc'] at hpc
    cases hpc

end NextWorker

/-- How far a worker and its slave are. -/
inductive Stage (n : ℕ) (report : Text) (u : Session) : Prop
  /-- the request is written and read -/
  | request (hpc : u.worker.pc = .receive) (hreceived : u.worker.messageReceived = 0)
      (hstarts : u.worker.starts = 0) (hlen : u.buffer.length < 2)
      (hslave : u.slave.requesting = true) (hleft : ∀ left, u.slave = .sendRequest left → left ≠ [])
      (htoSlave : u.toSlave = []) (hstream : u.stream report = CONNECT_REQUEST_MESSAGE)
      (hunread : u.Unread)
  /-- the worker is in the barrier, the slave waits for it -/
  | barrier (hpc : u.worker.pc.inBarrier = true) (hreceived : u.worker.messageReceived = 0)
      (hstarts : u.worker.starts = 0)
      (hconnects : u.worker.pc.hasRequest = true ∨ 0 < u.worker.connects) (hbuffer : u.buffer = [])
      (hslave : u.slave = .readStart) (htoMaster : u.toMaster = []) (htoSlave : u.toSlave = [])
      (hunread : u.Unread)
  /-- START_MESSAGE is written, and either still to be read or not recognised -/
  | answered (hpc : u.worker.pc.atReport = true) (hreceived : u.worker.messageReceived = 1)
      (hstarts : u.worker.starts = 1) (hconnects : 0 < u.worker.connects) (hbuffer : u.buffer = [])
      (hslave : (u.slave = .readStart ∧ u.toSlave = START_MESSAGE) ∨ u.slave = .exited)
      (htoMaster : u.toMaster = []) (hunread : u.Unread)
  /-- the slave does its benchmark and writes its report -/
  | reporting (hpc : u.worker.pc.atReport = true) (hreceived : u.worker.messageReceived = 1)
      (hstarts : u.worker.starts = 1) (hconnects : 0 < u.worker.connects)
      (hlen : u.buffer.length < 2) (hnext : u.worker.pc = .next → u.buffer = [])
      (hslave : u.slave.started = true) (hstream : u.stream report = REPORT_MESSAGE ++ report)
      (hunread : u.Unread)
  /-- REPORT_MESSAGE is read -/
  | counted (hpc : u.worker.pc.inReport = true) (hreceived : u.worker.messageReceived = 1)
      (hstarts : u.worker.starts = 1) (hconnects : 0 < u.worker.connects) (hbuffer : u.buffer = [])
      (hslave : u.slave.started = true) (hstream : u.stream report = report) (hunread : u.Unread)
  /-- the report is read, these blocks of it are enqueued -/
  | reading (blocks : List Block) (hpc : u.worker.pc = .readReport)
      (hreceived : u.worker.messageReceived = 1) (hstarts : u.worker.starts = 1)
      (hconnects : 0 < u.worker.connects) (hslave : u.slave.started = true)
      (hincomplete : u.Incomplete) (henqueued : u.Enqueued blocks)
      (hstream : (ReportPc.environment []).receive n report
        = (u.reading.receive n (u.stream report)).map fun b => (blocks ++ b.1, b.2))
  /-- all of it is -/
  | done (blocks : List Block) (hpc : u.worker.pc.leaving = true)
      (hreceived : u.worker.messageReceived = 2) (hstarts : u.worker.starts = 1)
      (hconnects : 0 < u.worker.connects) (hslave : u.slave.started = true)
      (hreading : u.reading = .environment []) (henqueued : u.Enqueued blocks)
      (hreport : (ReportPc.environment []).receive n report = some (blocks, u.stream report))

namespace Stage

variable {n : ℕ} {report : Text} {u : Session}

/-- A slave that writes, or gets on with its benchmark, has as much to say as before. -/
theorem slave (h : Stage n report u) {pc : SlavePc} {toMaster : Text}
    (hreadStart : u.slave ≠ .readStart) (hexited : u.slave ≠ .exited)
    (hrequesting : u.slave.requesting = true → pc.requesting = true)
    (hleft : ∀ left, pc = .sendRequest left → left ≠ [])
    (hstarted : u.slave.started = true → pc.started = true)
    (howes : toMaster ++ pc.owes report = u.toMaster ++ u.slave.owes report) :
    Stage n report { u with slave := pc, toMaster := toMaster } := by
  have hsame : Session.stream report { u with slave := pc, toMaster := toMaster }
      = u.stream report := congrArg (u.buffer ++ ·) howes
  cases h with
  | request hpc hreceived hstarts hlen hslave _ htoSlave hstream hunread =>
    exact .request hpc hreceived hstarts hlen (hrequesting hslave) hleft htoSlave
      (hsame.trans hstream) ⟨hunread.1, hunread.2, hunread.3⟩
  | barrier _ _ _ _ _ hslave => exact absurd hslave hreadStart
  | answered _ _ _ _ _ hslave =>
    rcases hslave with ⟨hslave, -⟩ | hslave
    · exact absurd hslave hreadStart
    · exact absurd hslave hexited
  | reporting hpc hreceived hstarts hconnects hlen hnext hslave hstream hunread =>
    exact .reporting hpc hreceived hstarts hconnects hlen hnext (hstarted hslave)
      (hsame.trans hstream) ⟨hunread.1, hunread.2, hunread.3⟩
  | counted hpc hreceived hstarts hconnects hbuffer hslave hstream hunread =>
    exact .counted hpc hreceived hstarts hconnects hbuffer (hstarted hslave) (hsame.trans hstream)
      ⟨hunread.1, hunread.2, hunread.3⟩
  | reading blocks hpc hreceived hstarts hconnects hslave hincomplete henqueued hstream =>
    refine .reading blocks hpc hreceived hstarts hconnects (hstarted hslave)
      ⟨hincomplete.1, hincomplete.2, hincomplete.3⟩ ⟨henqueued.1, henqueued.2⟩ ?_
    rw [hsame]
    exact hstream
  | done blocks hpc hreceived hstarts hconnects hslave hreading henqueued hreport =>
    refine .done blocks hpc hreceived hstarts hconnects (hstarted hslave) hreading
      ⟨henqueued.1, henqueued.2⟩ ?_
    rw [hsame]
    exact hreport

theorem write (h : Stage n report u) {m : ℕ} (hpos : 0 < m) (hle : m ≤ u.slave.unsent.length) :
    Stage n report { u with slave := u.slave.wrote m
                            toMaster := u.toMaster ++ u.slave.unsent.take m } := by
  have hunsent : u.slave.unsent ≠ [] := List.ne_nil_of_length_pos (hpos.trans_le hle)
  apply h.slave
  · exact fun hslave => hunsent (by rw [hslave]; rfl)
  · exact fun hslave => hunsent (by rw [hslave]; rfl)
  · exact fun hrequesting => SlavePc.requesting_wrote hrequesting m
  · exact fun left => SlavePc.left_ne_nil_of_wrote
  · exact fun hstarted => SlavePc.started_wrote hstarted m
  · rw [SlavePc.owes_wrote hunsent, List.append_assoc, List.take_append_drop,
      SlavePc.owes_of_unsent hunsent]

theorem benchmark (h : Stage n report u) (hslave : u.slave = .benchmark) :
    Stage n report { u with slave := .sendReport (REPORT_MESSAGE ++ report) } := by
  apply h.slave
  · rw [hslave]
    nofun
  · rw [hslave]
    nofun
  · rw [hslave]
    nofun
  · exact fun _ => nofun
  · exact fun _ => rfl
  · rw [hslave]
    rfl

/-- START_MESSAGE begins with the character that is looked for. -/
theorem readStart (h : Stage n report u) {c behind : Char} {rest : Text}
    (hslave : u.slave = .readStart) (htoSlave : u.toSlave = c :: rest) :
    Stage n report { u with slave := .gotStart c behind, toSlave := rest } := by
  cases h with
  | request _ _ _ _ _ _ hnil => cases hnil.symm.trans htoSlave
  | barrier _ _ _ _ _ _ _ hnil => cases hnil.symm.trans htoSlave
  | answered hpc hreceived hstarts hconnects hbuffer hslave' htoMaster hunread =>
    unfold SlavePc.gotStart
    split
    case isTrue =>
      refine .reporting hpc hreceived hstarts hconnects (by rw [hbuffer]; decide)
        (fun _ => hbuffer) rfl ?_ ⟨hunread.1, hunread.2, hunread.3⟩
      show u.buffer ++ (u.toMaster ++ (REPORT_MESSAGE ++ report)) = _
      rw [hbuffer, htoMaster]
      rfl
    case isFalse =>
      exact .answered hpc hreceived hstarts hconnects hbuffer (.inr rfl) htoMaster
        ⟨hunread.1, hunread.2, hunread.3⟩
  | reporting _ _ _ _ _ _ hstarted | counted _ _ _ _ _ hstarted | reading _ _ _ _ _ hstarted
  | done _ _ _ _ _ hstarted =>
    rw [hslave] at hstarted
    cases hstarted

theorem pc_eq_next_of_atReport {pc : WorkerPc} (h : pc.atReport = true) (hne : pc ≠ .receive) :
    pc = .next := by
  cases pc <;> first | rfl | exact absurd rfl hne | cases h

theorem woken (h : Stage n report u) : Stage n report { u with worker := u.worker.woken } := by
  unfold Worker.woken
  split
  case isTrue hwait =>
    cases h with
    | barrier hpc hreceived hstarts hconnects hbuffer hslave htoMaster htoSlave hunread =>
      refine .barrier rfl hreceived hstarts ?_ hbuffer hslave htoMaster htoSlave
        ⟨hunread.1, hunread.2, hunread.3⟩
      rw [hwait] at hconnects
      exact hconnects
    | request hpc | answered hpc | reporting hpc | counted hpc | reading _ hpc | done _ hpc =>
      rw [hwait] at hpc
      cases hpc
  case isFalse => exact h

/-- The worker goes on where it does not read. -/
theorem turn (h : Stage n report u) {s : Server n} {w : Worker} (hnext : NextWorker s u.worker w)
    (hreceive : u.worker.pc ≠ .receive) (hreport : u.worker.pc ≠ .readReport)
    (hstart : u.worker.pc ≠ .sendStart)
    (hleave : u.worker.pc = .next →
      w.pc = if u.worker.messageReceived = SERVER_MESSAGES then .lockStop else .receive) :
    Stage n report { u with worker := w } := by
  cases h with
  | request hpc => exact absurd hpc hreceive
  | barrier hpc hreceived hstarts hconnects hbuffer hslave htoMaster htoSlave hunread =>
    obtain ⟨hpc', hreceived', hstarts', hconnects'⟩ := hnext.inBarrier hpc hstart
    exact .barrier hpc' (hreceived'.trans hreceived) (hstarts'.trans hstarts)
      (hconnects' hconnects) hbuffer hslave htoMaster htoSlave ⟨hunread.1, hunread.2, hunread.3⟩
  | answered hpc hreceived hstarts hconnects hbuffer hslave htoMaster hunread =>
    have hpc' := pc_eq_next_of_atReport hpc hreceive
    obtain ⟨hreceived', hconnects', hstarts'⟩ :=
      hnext.counters (by rw [hpc']; nofun) hstart hreport
    have hw := hleave hpc'
    rw [hreceived, if_neg (by decide)] at hw
    refine .answered (by rw [hw]; rfl) (hreceived'.trans hreceived) (hstarts'.trans hstarts)
      (hconnects' ▸ hconnects) hbuffer hslave htoMaster ⟨hunread.1, hunread.2, hunread.3⟩
  | reporting hpc hreceived hstarts hconnects hlen hnil hslave hstream hunread =>
    have hpc' := pc_eq_next_of_atReport hpc hreceive
    obtain ⟨hreceived', hconnects', hstarts'⟩ :=
      hnext.counters (by rw [hpc']; nofun) hstart hreport
    have hw := hleave hpc'
    rw [hreceived, if_neg (by decide)] at hw
    exact .reporting (by rw [hw]; rfl) (hreceived'.trans hreceived) (hstarts'.trans hstarts)
      (hconnects' ▸ hconnects) hlen (fun _ => hnil hpc') hslave hstream
      ⟨hunread.1, hunread.2, hunread.3⟩
  | counted hpc hreceived hstarts hconnects hbuffer hslave hstream hunread =>
    obtain ⟨hreceived', hconnects', hstarts'⟩ :=
      hnext.counters (fun hconnect => by rw [hconnect] at hpc; cases hpc) hstart hreport
    rcases hnext.inReport hpc with hpc' | hpc'
    · exact .counted hpc' (hreceived'.trans hreceived) (hstarts'.trans hstarts)
        (hconnects' ▸ hconnects) hbuffer hslave hstream ⟨hunread.1, hunread.2, hunread.3⟩
    · refine .reading [] hpc' (hreceived'.trans hreceived) (hstarts'.trans hstarts)
        (hconnects' ▸ hconnects) hslave ⟨?_, ?_, fun _ => hbuffer⟩
        ⟨hunread.general_eq, hunread.mine_eq⟩ ?_
      · show u.reading.Short
        rw [hunread.reading_eq]
        exact Nat.zero_lt_succ 3
      · intro size _
        show readLoop size u.buffer = none
        rw [hbuffer]
        rfl
      · show _ = (u.reading.receive n (u.stream report)).map _
        rw [hunread.reading_eq, hstream]
        exact Option.map_id'.symm
  | reading blocks hpc => exact absurd hpc hreport
  | done blocks hpc hreceived hstarts hconnects hslave hreading henqueued hreport' =>
    obtain ⟨hreceived', hconnects', hstarts'⟩ :=
      hnext.counters (fun hconnect => by rw [hconnect] at hpc; cases hpc) hstart hreport
    refine .done blocks (hnext.leaving hpc fun hpc' => ?_) (hreceived'.trans hreceived)
      (hstarts'.trans hstarts) (hconnects' ▸ hconnects) hslave hreading
      ⟨henqueued.1, henqueued.2⟩ hreport'
    rw [hleave hpc', hreceived]
    rfl

theorem sendStart (h : Stage n report u) (hpc : u.worker.pc = .sendStart) :
    Stage n report { u with
      worker := { u.worker with pc := .next, messageReceived := u.worker.messageReceived + 1
                                starts := u.worker.starts + 1 }
      toSlave := u.toSlave ++ START_MESSAGE } := by
  cases h with
  | barrier _ hreceived hstarts hconnects hbuffer hslave htoMaster htoSlave hunread =>
    rw [hpc] at hconnects
    refine .answered rfl (congrArg Nat.succ hreceived) (congrArg Nat.succ hstarts)
      (hconnects.resolve_left nofun) hbuffer (.inl ⟨hslave, ?_⟩) htoMaster
      ⟨hunread.1, hunread.2, hunread.3⟩
    show u.toSlave ++ START_MESSAGE = START_MESSAGE
    rw [htoSlave, List.nil_append]
  | request hpc' | answered hpc' | reporting hpc' | counted hpc' | reading _ hpc' | done _ hpc' =>
    rw [hpc] at hpc'
    cases hpc'

/-- What is read of a message and what is still to come stays the same. -/
theorem stream_read (report : Text) {c : Char} {rest : Text} (htoMaster : u.toMaster = c :: rest) :
    u.stream report = u.buffer ++ [c] ++ (rest ++ u.slave.owes report) := by
  rw [Session.stream, htoMaster, List.append_assoc]
  rfl

theorem readChar (h : Stage n report u) {c : Char} {rest : Text} (hpc : u.worker.pc = .receive)
    (htoMaster : u.toMaster = c :: rest) (hlen : (u.buffer ++ [c]).length < 2) :
    Stage n report { u with buffer := u.buffer ++ [c], toMaster := rest } := by
  have hsame := stream_read report htoMaster
  cases h with
  | request _ hreceived hstarts _ hslave hleft htoSlave hstream hunread =>
    exact .request hpc hreceived hstarts hlen hslave hleft htoSlave (hsame.symm.trans hstream)
      ⟨hunread.1, hunread.2, hunread.3⟩
  | answered _ _ _ _ _ _ hnil => cases hnil.symm.trans htoMaster
  | reporting hpc' hreceived hstarts hconnects _ _ hslave hstream hunread =>
    exact .reporting hpc' hreceived hstarts hconnects hlen (by dsimp only; rw [hpc]; nofun) hslave
      (hsame.symm.trans hstream) ⟨hunread.1, hunread.2, hunread.3⟩
  | barrier hpc' | counted hpc' | reading _ hpc' | done _ hpc' =>
    rw [hpc] at hpc'
    cases hpc'

/-- A message that is complete is the one that is due. -/
theorem readMessage (h : Stage n report u) {c : Char} {rest : Text} (hpc : u.worker.pc = .receive)
    (htoMaster : u.toMaster = c :: rest) (hlen : 2 ≤ (u.buffer ++ [c]).length) :
    Stage n report { u with
      worker := { u.worker with pc := (slaveMessage (u.buffer ++ [c])).pc }
      buffer := [], toMaster := rest } := by
  have hsame := stream_read report htoMaster
  have htwo (hbuffer : u.buffer.length < 2) : (u.buffer ++ [c]).length = 2 := by
    rw [List.length_append, List.length_singleton] at hlen ⊢
    omega
  cases h with
  | request _ hreceived hstarts hlt hslave hleft htoSlave hstream hunread =>
    rw [hsame] at hstream
    obtain ⟨hmessage, hrest⟩ :=
      List.append_inj (hstream.trans (List.append_nil CONNECT_REQUEST_MESSAGE).symm) (htwo hlt)
    obtain ⟨rfl, howes⟩ := List.append_eq_nil_iff.mp hrest
    have hreadStart : u.slave = .readStart := by
      cases hpc' : u.slave with
      | readStart => rfl
      | sendRequest left =>
        rw [hpc'] at howes
        exact absurd howes (hleft left hpc')
      | connect =>
        rw [hpc'] at howes
        cases howes
      | _ =>
        rw [hpc'] at hslave
        cases hslave
    rw [hmessage]
    exact .barrier rfl hreceived hstarts (.inl rfl) rfl hreadStart rfl htoSlave
      ⟨hunread.1, hunread.2, hunread.3⟩
  | answered _ _ _ _ _ _ hnil => cases hnil.symm.trans htoMaster
  | reporting _ hreceived hstarts hconnects hlt _ hslave hstream hunread =>
    rw [hsame] at hstream
    obtain ⟨hmessage, hrest⟩ := List.append_inj hstream (htwo hlt)
    rw [hmessage]
    exact .counted rfl hreceived hstarts hconnects rfl hslave hrest
      ⟨hunread.1, hunread.2, hunread.3⟩
  | barrier hpc' | counted hpc' | reading _ hpc' | done _ hpc' =>
    rw [hpc] at hpc'
    cases hpc'

/-- A character of the report is read. -/
theorem readPart (h : Stage n report u) {c : Char} {rest : Text} {size : ℕ}
    (hpc : u.worker.pc = .readReport) (htoMaster : u.toMaster = c :: rest)
    (hsize : u.reading.size = some size) (hloop : readLoop size (u.buffer ++ [c]) = none) :
    Stage n report { u with buffer := u.buffer ++ [c], toMaster := rest } := by
  have hsame := stream_read report htoMaster
  cases h with
  | reading blocks _ hreceived hstarts hconnects hslave hincomplete henqueued hstream =>
    refine .reading blocks hpc hreceived hstarts hconnects hslave ⟨hincomplete.short, ?_, ?_⟩
      ⟨henqueued.1, henqueued.2⟩ ?_
    · intro size' hsize'
      cases hsize.symm.trans hsize'
      exact hloop
    · exact fun hnone => absurd (hsize.symm.trans hnone) nofun
    · rw [hsame] at hstream
      exact hstream
  | request hpc' | barrier hpc' | answered hpc' | reporting hpc' | counted hpc' | done _ hpc' =>
    rw [hpc] at hpc'
    cases hpc'

/-- A part of the report is read. -/
theorem readText (h : Stage n report u) {c : Char} {rest : Text} {size : ℕ} {r : Received}
    (hpc : u.worker.pc = .readReport) (htoMaster : u.toMaster = c :: rest)
    (hsize : u.reading.size = some size)
    (hread : readSocketLimiter size (u.buffer ++ [c]) = some r) :
    Stage n report { u with
      buffer := [], toMaster := rest, reading := u.reading.read n r.buffer
      general := u.general ++ (u.reading.blocks r.buffer).filter fun block => block.type = .values
      mine := u.mine ++ (u.reading.blocks r.buffer).filter fun block => block.type ≠ .values } := by
  have hsame := stream_read report htoMaster
  cases h with
  | reading blocks _ hreceived hstarts hconnects hslave hincomplete henqueued hstream =>
    have hnone := hincomplete.readLoop_eq size hsize
    rw [hsame, List.append_assoc, List.singleton_append,
      ReportPc.receive_read hincomplete.short hsize hnone hread, Option.map_map] at hstream
    refine .reading (blocks ++ u.reading.blocks r.buffer) hpc hreceived hstarts hconnects hslave
      ⟨ReportPc.short_read hincomplete.short _, fun _ _ => rfl, fun _ => rfl⟩ ⟨?_, ?_⟩ ?_
    · rw [List.filter_append, ← henqueued.general_eq]
    · rw [List.filter_append, ← henqueued.mine_eq]
    · rw [hstream]
      refine congrArg (fun f => Option.map f _) (funext fun b => ?_)
      rw [List.append_assoc]
      rfl
  | request hpc' | barrier hpc' | answered hpc' | reporting hpc' | counted hpc' | done _ hpc' =>
    rw [hpc] at hpc'
    cases hpc'

/-- The worker locks or unlocks `lock`, between two parts. -/
theorem locks (h : Stage n report u) {reading : ReportPc} (hpc : u.worker.pc = .readReport)
    (hsize : u.reading.size = none) (hshort : reading.Short)
    (hsame : ∀ socket, reading.receive n socket = u.reading.receive n socket) :
    Stage n report { u with reading := reading } := by
  cases h with
  | reading blocks _ hreceived hstarts hconnects hslave hincomplete henqueued hstream =>
    have hbuffer := hincomplete.buffer_eq hsize
    refine .reading blocks hpc hreceived hstarts hconnects hslave ⟨hshort, ?_, fun _ => hbuffer⟩
      ⟨henqueued.1, henqueued.2⟩ ?_
    · intro size _
      show readLoop size u.buffer = none
      rw [hbuffer]
      rfl
    · show _ = (reading.receive n (u.stream report)).map _
      rw [hsame]
      exact hstream
  | request hpc' | barrier hpc' | answered hpc' | reporting hpc' | counted hpc' | done _ hpc' =>
    rw [hpc] at hpc'
    cases hpc'

theorem plotNode (h : Stage n report u) (hpc : u.worker.pc = .readReport)
    (hreading : u.reading = .plotGraph) :
    Stage n report { u with
      worker := { u.worker with pc := .next, messageReceived := u.worker.messageReceived + 1 }
      reading := .environment [] } := by
  cases h with
  | reading blocks _ hreceived hstarts hconnects hslave hincomplete henqueued hstream =>
    refine .done blocks rfl (congrArg Nat.succ hreceived) hstarts hconnects hslave rfl
      ⟨henqueued.1, henqueued.2⟩ ?_
    rw [hstream, hreading]
    show some (blocks ++ [], u.stream report) = _
    rw [List.append_nil]
    rfl
  | request hpc' | barrier hpc' | answered hpc' | reporting hpc' | counted hpc' | done _ hpc' =>
    rw [hpc] at hpc'
    cases hpc'

/-- A worker and its slave keep to their stages. -/
theorem step (h : Stage n report u) {u' : Session} (hstep : SessionStep n report u u') :
    Stage n report u' := by
  cases hstep with
  | write m hpos hle => exact h.write hpos hle
  | readStart behind hslave htoSlave => exact h.readStart hslave htoSlave
  | benchmark hslave => exact h.benchmark hslave
  | turn hnext hreceive hreport hstart hleave => exact h.turn hnext hreceive hreport hstart hleave
  | sendStart hpc => exact h.sendStart hpc
  | woken => exact h.woken
  | readChar hpc htoMaster hlen => exact h.readChar hpc htoMaster hlen
  | readMessage hpc htoMaster hlen => exact h.readMessage hpc htoMaster hlen
  | readPart hpc htoMaster hsize hloop => exact h.readPart hpc htoMaster hsize hloop
  | readText hpc htoMaster hsize hread => exact h.readText hpc htoMaster hsize hread
  | lockPlot hpc hreading =>
    refine h.locks hpc (by rw [hreading]; rfl) trivial fun socket => ?_
    rw [hreading]
    rfl
  | unlockPlot hpc hreading =>
    refine h.locks hpc (by rw [hreading]; rfl) (ReportPc.short_next _) fun socket => ?_
    rw [hreading]
    exact ReportPc.receive_next _ _
  | plotNode hpc hreading => exact h.plotNode hpc hreading

end Stage

end OfcBenchmark
