import OfcBenchmark.Network
import OfcBenchmark.StartTheorems

/-!
# The start over the network

The slaves learn of each other only through the master. No slave starts its benchmark before as
many slaves as the master waits for have connected and have written their CONNECT_REQUEST
(`started_after_requests`). This holds in every order of steps, also where workers
mistake each other's ids and read from one socket.
-/

namespace OfcBenchmark
open Printf Runs

/-! ## The slaves -/

namespace SlavePc

/-- CONNECT_REQUEST_MESSAGE is written. -/
def requested : SlavePc → Bool
  | .connect | .sendRequest _ => false
  | _ => true

/-- START_MESSAGE has been read. -/
def started : SlavePc → Bool
  | .benchmark | .sendReport _ | .spin => true
  | _ => false

/-- START_MESSAGE has not been waited for in vain, nor read. -/
def requesting : SlavePc → Bool
  | .connect | .sendRequest _ | .readStart => true
  | _ => false

/-- What is still to be written of the message a slave is at, where `report` is its report. -/
def owes (report : Text) : SlavePc → Text
  | .connect => CONNECT_REQUEST_MESSAGE
  | .benchmark => REPORT_MESSAGE ++ report
  | pc => pc.unsent

theorem not_requesting_of_started {pc : SlavePc} (h : pc.started = true) :
    pc.requesting = false := by
  cases pc <;> first | rfl | cases h

theorem unsent_wrote (m : ℕ) (pc : SlavePc) : (pc.wrote m).unsent = pc.unsent.drop m := by
  cases pc with
  | sendRequest left =>
    rw [wrote_sendRequest]
    split
    case isTrue hnil => exact hnil.symm
    case isFalse => rfl
  | sendReport left =>
    rw [wrote_sendReport]
    split
    case isTrue hnil => exact hnil.symm
    case isFalse => rfl
  | _ => exact List.drop_nil.symm

theorem wrote_ne_connect {pc : SlavePc} (h : pc ≠ .connect) (m : ℕ) : pc.wrote m ≠ .connect := by
  cases pc with
  | sendRequest left =>
    rw [wrote_sendRequest]
    split <;> nofun
  | sendReport left =>
    rw [wrote_sendReport]
    split <;> nofun
  | connect => exact absurd rfl h
  | _ => exact nofun

theorem left_ne_nil_of_wrote {pc : SlavePc} {m : ℕ} {left : Text}
    (h : pc.wrote m = .sendRequest left) : left ≠ [] := by
  cases pc with
  | sendRequest left' =>
    rw [wrote_sendRequest] at h
    split at h
    case isTrue => cases h
    case isFalse hne =>
      cases h
      exact hne
  | sendReport left' =>
    rw [wrote_sendReport] at h
    split at h <;> cases h
  | _ => cases h

theorem owes_of_unsent {pc : SlavePc} (h : pc.unsent ≠ []) (report : Text) :
    pc.owes report = pc.unsent := by
  cases pc <;> first | rfl | exact absurd rfl h

theorem owes_wrote {pc : SlavePc} (h : pc.unsent ≠ []) (m : ℕ) (report : Text) :
    (pc.wrote m).owes report = pc.unsent.drop m := by
  rw [← unsent_wrote]
  cases pc with
  | sendRequest left =>
    rw [wrote_sendRequest]
    split <;> rfl
  | sendReport left =>
    rw [wrote_sendReport]
    split <;> rfl
  | _ => exact absurd rfl h

theorem requested_wrote {pc : SlavePc} (h : pc.requested = true) (m : ℕ) :
    (pc.wrote m).requested = true := by
  cases pc with
  | sendReport left =>
    rw [wrote_sendReport]
    split <;> rfl
  | connect | sendRequest => cases h
  | _ => rfl

theorem requesting_wrote {pc : SlavePc} (h : pc.requesting = true) (m : ℕ) :
    (pc.wrote m).requesting = true := by
  cases pc with
  | sendRequest left =>
    rw [wrote_sendRequest]
    split <;> rfl
  | connect | readStart => rfl
  | _ => cases h

theorem started_wrote {pc : SlavePc} (h : pc.started = true) (m : ℕ) :
    (pc.wrote m).started = true := by
  cases pc with
  | sendReport left =>
    rw [wrote_sendReport]
    split <;> rfl
  | benchmark | spin => rfl
  | _ => cases h

theorem requested_gotStart (c behind : Char) : (gotStart c behind).requested = true := by
  unfold gotStart
  split <;> rfl

/-- Who owes nothing has written its request. -/
theorem requested_of_owes {pc : SlavePc} {report : Text} (h : pc.owes report = [])
    (hleft : ∀ left, pc = .sendRequest left → left ≠ []) : pc.requested = true := by
  cases pc with
  | connect => cases h
  | sendRequest left => exact absurd h (hleft left rfl)
  | _ => rfl

end SlavePc

section Network

variable {n : ℕ} {κ : Type} [DecidableEq κ] {report : κ → Queues}

/-! ## Steps -/

/-- What a step does. -/
inductive NetworkMove (report : κ → Queues) (s : Network n κ) :
    NetworkEvent n κ → Network n κ → Prop
  | connect (k : κ) : s.slaves k = .connect →
      NetworkMove report s (.connect k)
        { s with slaves := Function.update s.slaves k (.sendRequest CONNECT_REQUEST_MESSAGE)
                 backlog := s.backlog ++ [k] }
  | write (k : κ) (m : ℕ) : 0 < m → m ≤ (s.slaves k).unsent.length →
      NetworkMove report s (.write k m)
        { s with slaves := Function.update s.slaves k ((s.slaves k).wrote m)
                 toMaster := Function.update s.toMaster k
                   (s.toMaster k ++ (s.slaves k).unsent.take m) }
  | readStart (k : κ) (behind : Char) {c : Char} {rest : Text} : s.slaves k = .readStart →
      s.toSlave k = c :: rest →
      NetworkMove report s (.readStart k behind)
        { s with slaves := Function.update s.slaves k (.gotStart c behind)
                 toSlave := Function.update s.toSlave k rest }
  | benchmark (k : κ) : s.slaves k = .benchmark →
      NetworkMove report s (.benchmark k)
        { s with slaves := Function.update s.slaves k
                   (.sendReport (REPORT_MESSAGE ++ clientSide (report k))) }
  | accept (fd : ℕ) {k : κ} {backlog : List κ} {server : Server n} : s.backlog = k :: backlog →
      s.server.accept fd = some server →
      NetworkMove report s (.accept fd)
        { s with server := server, backlog := backlog, peer := Function.update s.peer fd (some k) }
  | main {server : Server n} : serverSide s.server = some server →
      NetworkMove report s .main { s with server := server }
  | worker (i : Fin n) {server : Server n} : clientManagement s.server i = some server →
      (s.server.workers i).pc ≠ .sendStart →
      NetworkMove report s (.worker i) { s with server := server }
  | sendStart (i : Fin n) {server : Server n} : clientManagement s.server i = some server →
      (s.server.workers i).pc = .sendStart →
      NetworkMove report s (.worker i) { s with server := server, toSlave := s.startSent i }
  | readChar (i : Fin n) {k : κ} {c : Char} {rest : Text} : s.slaveOf i = some k →
      s.toMaster k = c :: rest → (s.server.workers i).pc = .receive →
      (s.buffer i ++ [c]).length < 2 →
      NetworkMove report s (.recv i)
        { s with toMaster := Function.update s.toMaster k rest
                 buffer := Function.update s.buffer i (s.buffer i ++ [c]) }
  | readMessage (i : Fin n) {k : κ} {c : Char} {rest : Text} {server : Server n} :
      s.slaveOf i = some k → s.toMaster k = c :: rest → (s.server.workers i).pc = .receive →
      2 ≤ (s.buffer i ++ [c]).length →
      s.server.receive i (slaveMessage (s.buffer i ++ [c])) = some server →
      NetworkMove report s (.recv i)
        { s with server := server
                 toMaster := Function.update s.toMaster k rest
                 buffer := Function.update s.buffer i [] }
  | readPart (i : Fin n) {k : κ} {c : Char} {rest : Text} {size : ℕ} : s.slaveOf i = some k →
      s.toMaster k = c :: rest → (s.server.workers i).pc = .readReport →
      (s.reading i).size = some size → readLoop size (s.buffer i ++ [c]) = none →
      NetworkMove report s (.recv i)
        { s with toMaster := Function.update s.toMaster k rest
                 buffer := Function.update s.buffer i (s.buffer i ++ [c]) }
  | readText (i : Fin n) {k : κ} {c : Char} {rest : Text} {size : ℕ} {r : Received} :
      s.slaveOf i = some k → s.toMaster k = c :: rest → (s.server.workers i).pc = .readReport →
      (s.reading i).size = some size → readLoop size (s.buffer i ++ [c]) ≠ none →
      readSocketLimiter size (s.buffer i ++ [c]) = some r →
      NetworkMove report s (.recv i)
        ({ s with
          toMaster := Function.update s.toMaster k rest
          buffer := Function.update s.buffer i []
          reading := Function.update s.reading i ((s.reading i).read n r.buffer) }.enqueue i
            ((s.reading i).blocks r.buffer))
  | lockPlot (i : Fin n) {call : GraphCall} {calls : List GraphCall} :
      s.reading i = .lock call calls → (s.server.workers i).pc = .readReport → s.plotLock = none →
      NetworkMove report s (.lockPlot i)
        { s with plotLock := some i
                 reading := Function.update s.reading i (.buildGraph call calls) }
  | unlockPlot (i : Fin n) {calls : List GraphCall} :
      s.reading i = .unlock calls → (s.server.workers i).pc = .readReport →
      NetworkMove report s (.unlockPlot i)
        { s with plotLock := none, reading := Function.update s.reading i (.next calls) }
  | plotNode (i : Fin n) {server : Server n} : s.reading i = .plotGraph →
      s.server.readReport i 1 = some server →
      NetworkMove report s (.plotNode i)
        { s with server := server, reading := Function.update s.reading i (.environment []) }
  | wakeUp (i : Fin n) {server : Server n} : s.server.wakeUp i = some server →
      NetworkMove report s (.wakeUp i) { s with server := server }
  | snmp (thread : ℕ) {server : Server n} : asynchronousSnmp s.server thread = some server →
      NetworkMove report s (.snmp thread) { s with server := server }

variable {s s' : Network n κ} {e : NetworkEvent n κ} {i : Fin n}

theorem networkMove_worker (h : s.worker i = some s') : NetworkMove report s (.worker i) s' := by
  unfold Network.worker at h
  obtain ⟨server, hserver, rfl⟩ := Option.map_eq_some_iff.mp h
  split
  case isTrue hpc => exact .sendStart i hserver hpc
  case isFalse hpc => exact .worker i hserver hpc

theorem networkMove_readMessage {k : κ} {c : Char} {rest : Text} (hslave : s.slaveOf i = some k)
    (hto : s.toMaster k = c :: rest) (hpc : (s.server.workers i).pc = .receive)
    (h : { s with toMaster := Function.update s.toMaster k rest }.readMessage i (s.buffer i ++ [c])
      = some s') : NetworkMove report s (.recv i) s' := by
  unfold Network.readMessage at h
  split at h
  case isTrue hlt =>
    cases h
    exact .readChar i hslave hto hpc hlt
  case isFalse hle =>
    obtain ⟨server, hserver, rfl⟩ := Option.map_eq_some_iff.mp h
    exact .readMessage i hslave hto hpc (Nat.not_lt.mp hle) hserver

theorem networkMove_readReport {k : κ} {c : Char} {rest : Text} (hslave : s.slaveOf i = some k)
    (hto : s.toMaster k = c :: rest) (hpc : (s.server.workers i).pc = .readReport)
    (h : { s with toMaster := Function.update s.toMaster k rest }.readReport i (s.buffer i ++ [c])
      = some s') : NetworkMove report s (.recv i) s' := by
  unfold Network.readReport at h
  dsimp only at h
  obtain ⟨size, hsize, h⟩ := Option.bind_eq_some_iff.mp h
  obtain ⟨text, hread, h⟩ := Option.bind_eq_some_iff.mp h
  unfold limiterRead at hread
  split at hread
  case isTrue hloop =>
    cases hread
    cases h
    exact .readPart i hslave hto hpc hsize hloop
  case isFalse hloop =>
    obtain ⟨r, hr, rfl⟩ := Option.map_eq_some_iff.mp hread
    cases h
    exact .readText i hslave hto hpc hsize hloop hr

theorem networkMove_recv (h : s.recv i = some s') : NetworkMove report s (.recv i) s' := by
  unfold Network.recv at h
  obtain ⟨k, hslave, h⟩ := Option.bind_eq_some_iff.mp h
  split at h
  case h_1 => cases h
  case h_2 c rest hto =>
    dsimp only at h
    split at h
    case h_1 hpc => exact networkMove_readMessage hslave hto hpc h
    case h_2 hpc => exact networkMove_readReport hslave hto hpc h
    case h_3 => cases h

/-- A step is one of these moves. -/
theorem networkMove_of_step (h : NetworkStep report s e s') : NetworkMove report s e s' := by
  unfold NetworkStep runNetwork at h
  cases e <;> dsimp only at h
  case connect k =>
    unfold Network.connect at h
    split at h
    case isTrue hpc =>
      cases h
      exact .connect k hpc
    case isFalse => cases h
  case write k m =>
    unfold Network.write at h
    dsimp only at h
    split at h
    case isTrue hm =>
      cases h
      exact .write k m hm.1 hm.2
    case isFalse => cases h
  case readStart k behind =>
    unfold Network.readStart at h
    split at h
    case isTrue hpc =>
      split at h
      case h_1 => cases h
      case h_2 hto =>
        cases h
        exact .readStart k behind hpc hto
    case isFalse => cases h
  case benchmark k =>
    unfold Network.benchmark at h
    split at h
    case isTrue hpc =>
      cases h
      exact .benchmark k hpc
    case isFalse => cases h
  case accept fd =>
    unfold Network.accept at h
    split at h
    case h_1 => cases h
    case h_2 hbacklog =>
      obtain ⟨server, hserver, rfl⟩ := Option.map_eq_some_iff.mp h
      exact .accept fd hbacklog hserver
  case main =>
    obtain ⟨server, hserver, rfl⟩ := Option.map_eq_some_iff.mp h
    exact .main hserver
  case worker i => exact networkMove_worker h
  case recv i => exact networkMove_recv h
  case lockPlot i =>
    unfold Network.lockPlot at h
    split at h
    case h_1 call calls hreading =>
      split at h
      case isTrue hguard =>
        cases h
        exact .lockPlot i hreading hguard.1 hguard.2
      case isFalse => cases h
    case h_2 => cases h
  case unlockPlot i =>
    unfold Network.unlockPlot at h
    split at h
    case h_1 calls hreading =>
      split at h
      case isTrue hpc =>
        cases h
        exact .unlockPlot i hreading hpc
      case isFalse => cases h
    case h_2 => cases h
  case plotNode i =>
    unfold Network.plotNode at h
    split at h
    case isTrue hreading =>
      obtain ⟨server, hserver, rfl⟩ := Option.map_eq_some_iff.mp h
      exact .plotNode i hreading hserver
    case isFalse => cases h
  case wakeUp i =>
    obtain ⟨server, hserver, rfl⟩ := Option.map_eq_some_iff.mp h
    exact .wakeUp i hserver
  case snmp thread =>
    obtain ⟨server, hserver, rfl⟩ := Option.map_eq_some_iff.mp h
    exact .snmp thread hserver

/-! ## The server in the network -/

/-- The main thread of the master writes `param` in time. -/
def NetworkInTime (t : NetworkTransition n κ) : Prop :=
  t.event = .main → t.pre.server.main = .storeParam → ∀ i, (t.pre.server.workers i).pc ≠ .readId

instance : DecidablePred (NetworkInTime (n := n) (κ := κ)) := fun t =>
  inferInstanceAs (Decidable (t.event = .main → t.pre.server.main = .storeParam →
    ∀ i, (t.pre.server.workers i).pc ≠ .readId))

/-- The server takes its own steps, or stays as it is. -/
theorem server_step (h : NetworkMove report s e s') :
    s'.server = s.server ∨
      ∃ e', ServerStep s.server e' s'.server ∧
        (NetworkInTime ⟨s, e, s'⟩ → InTime ⟨s.server, e', s'.server⟩) := by
  cases h with
  | connect | write | readStart | benchmark | readChar | readPart | readText | lockPlot
  | unlockPlot => exact .inl rfl
  | accept fd hbacklog hserver => exact .inr ⟨.accept fd, hserver, fun _ => nofun⟩
  | main hserver => exact .inr ⟨.main, hserver, fun htime _ => htime rfl⟩
  | worker i hserver hpc => exact .inr ⟨.worker i, hserver, fun _ => nofun⟩
  | sendStart i hserver hpc => exact .inr ⟨.worker i, hserver, fun _ => nofun⟩
  | readMessage i hslave hto hpc hlen hserver =>
    exact .inr ⟨.receive i _, hserver, fun _ => nofun⟩
  | plotNode i hreading hserver => exact .inr ⟨.readReport i 1, hserver, fun _ => nofun⟩
  | wakeUp i hserver => exact .inr ⟨.wakeUp i, hserver, fun _ => nofun⟩
  | snmp thread hserver => exact .inr ⟨.snmp thread, hserver, fun _ => nofun⟩

/-- What the steps of the server preserve, the steps of the network do. -/
theorem server_invariant {Inv : Server n → Prop}
    (hinv : ∀ s e s', Inv s → ServerStep s e s' → Inv s') (h : NetworkMove report s e s')
    (hs : Inv s.server) : Inv s'.server := by
  rcases server_step h with hsame | ⟨e', hstep, -⟩
  · rw [hsame]
    exact hs
  · exact hinv _ _ _ hs hstep

/-- The main thread and the barrier, in the order that they always are in. -/
def Server.Regular (s : Server n) : Prop := MainInv s ∧ Barrier.Inv s.barrier

theorem regular_step (s : Server n) (e : ServerEvent n) (s' : Server n) (h : s.Regular)
    (hstep : ServerStep s e s') : s'.Regular :=
  ⟨h.1.step hstep, h.2.step (barrier_step h.1 hstep)⟩

theorem regular_serverStart (param : ℕ) : (serverStart n param).Regular :=
  ⟨mainInv_serverStart param, Barrier.inv_start⟩

/-! ## Before the first START -/

/-- What is still to be read of the message a slave is at, and of those before. -/
def Network.pending (report : κ → Queues) (s : Network n κ) (k : κ) : Text :=
  s.toMaster k ++ (s.slaves k).owes (clientSide (report k))

/-- A worker has read a request that it has not counted yet. -/
def WorkerPc.hasRequest : WorkerPc → Bool
  | .lockConnect | .connect => true
  | _ => false

/-- A worker reads a request only in `readSocket`. -/
theorem WorkerPc.Moves.hasRequest {p q : WorkerPc} (h : p.Moves q) (hp : p ≠ .receive)
    (hq : q.hasRequest = true) : p.hasRequest = true := by
  cases h <;> first | rfl | exact absurd rfl hp | cases hq

/-- How many requests a worker has read. -/
def Worker.requests (w : Worker) : ℕ := w.connects + if w.pc.hasRequest then 1 else 0

theorem requests_woken (w : Worker) : w.woken.requests = w.requests := by
  unfold Worker.woken
  split
  case isTrue hpc =>
    unfold Worker.requests
    rw [hpc]
    rfl
  case isFalse => rfl

theorem requests_nextWorker {s : Server n} {w w' : Worker} (h : NextWorker s w w')
    (hpc : w.pc ≠ .receive) : w'.requests ≤ w.requests := by
  unfold Worker.requests
  cases h with
  | connect hconnect =>
    rw [hconnect]
    exact le_rfl
  | @move pc hmoves _ =>
    dsimp only
    split
    case isTrue hq => rw [if_pos (hmoves.hasRequest hpc hq)]
    case isFalse => exact Nat.le_add_right _ _
  | readId _ | readSock _ _ | startSnmp _ _ | sendStart _ | report _ | readReport _ _
  | leave _ _ | exit _ _ => exact Nat.le_add_right _ _

/-- A step of the server in which no request is read and START_MESSAGE is not written. -/
structure Calm (s s' : Server n) : Prop where
  starts : ∀ j, (s'.workers j).starts = (s.workers j).starts
  requests : ∑ j, (s'.workers j).requests ≤ ∑ j, (s.workers j).requests

theorem starts_nextWorker {s : Server n} {w w' : Worker} (h : NextWorker s w w')
    (hpc : w.pc ≠ .sendStart) : w'.starts = w.starts := by
  cases h with
  | sendStart hstart => exact absurd hstart hpc
  | _ => rfl

theorem starts_turn {s s' : Server n} {i : Fin n} {w : Worker} (h : Turn s s' i w)
    (hnext : NextWorker s (s.workers i) w) (hpc : (s.workers i).pc ≠ .sendStart) (j : Fin n) :
    (s'.workers j).starts = (s.workers j).starts := by
  by_cases hj : j = i
  · rw [hj, h.self, starts_nextWorker hnext hpc]
  · rcases h.others j hj with hsame | hwoken
    · rw [hsame]
    · rw [hwoken]
      unfold Worker.woken
      split <;> rfl

theorem calm_turn {s s' : Server n} {i : Fin n} {w : Worker} (h : Turn s s' i w)
    (hnext : NextWorker s (s.workers i) w) (hstart : (s.workers i).pc ≠ .sendStart)
    (hreceive : (s.workers i).pc ≠ .receive) : Calm s s' := by
  refine ⟨starts_turn h hnext hstart, ?_⟩
  have hsum := h.sum_eq requests_woken
  have hle := requests_nextWorker hnext hreceive
  omega

theorem calm_mainStep {s s' : Server n} (h : MainStep s s') : Calm s s' := by
  cases h with
  | create hlt hmain =>
    have hworker (j : Fin n) : (({ s with main := .next }.goto ⟨s.index, hlt⟩ .readId).workers j)
        = if j = ⟨s.index, hlt⟩ then { s.workers ⟨s.index, hlt⟩ with pc := .readId }
          else s.workers j :=
      Function.update_apply _ _ _ _
    refine ⟨fun j => ?_, Finset.sum_le_sum fun j _ => ?_⟩
    · rw [hworker]
      split
      case isTrue hj => rw [hj]
      case isFalse => rfl
    · rw [hworker]
      split
      case isTrue hj =>
        rw [hj]
        exact Nat.add_le_add_left (Nat.zero_le _) _
      case isFalse => exact le_rfl
  | _ => exact ⟨fun _ => rfl, le_rfl⟩

theorem calm_clientManagement {s s' : Server n} {i : Fin n} (h : clientManagement s i = some s')
    (hstart : (s.workers i).pc ≠ .sendStart) : Calm s s' := by
  obtain ⟨w, hturn, hnext⟩ := exists_turn_clientManagement h
  refine calm_turn hturn hnext hstart fun hpc => ?_
  rw [clientManagement, hpc] at h
  cases h

theorem calm_readReport {s s' : Server n} {i : Fin n} {bytesRead : ℤ}
    (h : s.readReport i bytesRead = some s') : Calm s s' := by
  obtain ⟨hpc, w, hturn, hnext⟩ := exists_turn_readReport h
  exact calm_turn hturn hnext (by rw [hpc]; nofun) (by rw [hpc]; nofun)

theorem calm_wakeUp {s s' : Server n} {i : Fin n} (h : s.wakeUp i = some s') : Calm s s' := by
  obtain ⟨hpc, w, hturn, hnext⟩ := exists_turn_wakeUp h
  exact calm_turn hturn hnext (by rw [hpc]; nofun) (by rw [hpc]; nofun)

theorem calm_asynchronousSnmp {s s' : Server n} {thread : ℕ}
    (h : asynchronousSnmp s thread = some s') : Calm s s' := by
  obtain ⟨_, -, rfl⟩ := asynchronousSnmp_frame h
  exact ⟨fun _ => rfl, le_rfl⟩

section Counting

variable [Fintype κ]

/-- The slaves with nothing left to be read. -/
def Network.silent (report : κ → Queues) (s : Network n κ) : Finset κ :=
  Finset.univ.filter fun k => s.pending report k = []

omit [DecidableEq κ] in
theorem Network.mem_silent {k : κ} : k ∈ s.silent report ↔ s.pending report k = [] := by
  rw [Network.silent, Finset.mem_filter, and_iff_right (Finset.mem_univ k)]

/-- The slaves whose request is written. -/
def Network.requested (s : Network n κ) : Finset κ :=
  Finset.univ.filter fun k => (s.slaves k).requested = true

omit [DecidableEq κ] in
theorem Network.mem_requested {k : κ} : k ∈ s.requested ↔ (s.slaves k).requested = true := by
  rw [Network.requested, Finset.mem_filter, and_iff_right (Finset.mem_univ k)]

/-- As long as no START_MESSAGE has been written: the slaves are at their requests, and no more of
these have been read than there are slaves with nothing left to be read. -/
structure Quiet (report : κ → Queues) (s : Network n κ) : Prop where
  toSlave_eq : ∀ k, s.toSlave k = []
  requesting : ∀ k, (s.slaves k).requesting = true
  left_ne_nil : ∀ k left, s.slaves k = .sendRequest left → left ≠ []
  pending : ∀ k, s.pending report k <:+ CONNECT_REQUEST_MESSAGE
  count : ∑ i, (s.server.workers i).requests ≤ (s.silent report).card

namespace Quiet

omit [DecidableEq κ] in
/-- Master and slaves do something that is not about requests, or write more of them. -/
theorem keep (h : Quiet report s) (htoSlave : s'.toSlave = s.toSlave)
    (hslaves : ∀ k, s'.slaves k = s.slaves k ∨ ((s'.slaves k).requesting = true ∧
      ∀ left, s'.slaves k = .sendRequest left → left ≠ []))
    (hpending : ∀ k, s'.pending report k = s.pending report k)
    (hcount : ∑ i, (s'.server.workers i).requests ≤ ∑ i, (s.server.workers i).requests) :
    Quiet report s' := by
  refine ⟨fun k => ?_, fun k => ?_, fun k left hleft => ?_, fun k => ?_, ?_⟩
  · rw [htoSlave]
    exact h.toSlave_eq k
  · rcases hslaves k with hsame | ⟨hrequesting, -⟩
    · rw [hsame]
      exact h.requesting k
    · exact hrequesting
  · rcases hslaves k with hsame | ⟨-, hne⟩
    · exact h.left_ne_nil k left (hsame ▸ hleft)
    · exact hne left hleft
  · rw [hpending]
    exact h.pending k
  · refine (hcount.trans h.count).trans (Finset.card_le_card fun k hk => ?_)
    rw [Network.mem_silent] at hk ⊢
    rw [hpending, hk]

omit [DecidableEq κ] in
/-- The master does something that is not about requests. -/
theorem master (h : Quiet report s) (hslaves : s'.slaves = s.slaves)
    (htoMaster : s'.toMaster = s.toMaster) (htoSlave : s'.toSlave = s.toSlave)
    (hcount : ∑ i, (s'.server.workers i).requests ≤ ∑ i, (s.server.workers i).requests) :
    Quiet report s' := by
  refine h.keep htoSlave (fun k => .inl (congrFun hslaves k)) (fun k => ?_) hcount
  unfold Network.pending
  rw [hslaves, htoMaster]

/-- A slave connects or writes. -/
theorem slave (h : Quiet report s) (k : κ) (pc : SlavePc) (text : Text) (backlog : List κ)
    (hrequesting : pc.requesting = true) (hleft : ∀ left, pc = .sendRequest left → left ≠ [])
    (hpending : text ++ pc.owes (clientSide (report k)) = s.pending report k) :
    Quiet report { s with slaves := Function.update s.slaves k pc
                          toMaster := Function.update s.toMaster k text
                          backlog := backlog } := by
  refine h.keep rfl (fun j => ?_) (fun j => ?_) le_rfl
  · by_cases hj : j = k
    · rw [hj]
      dsimp only
      rw [Function.update_self]
      exact .inr ⟨hrequesting, hleft⟩
    · exact .inl (Function.update_of_ne hj _ _)
  · by_cases hj : j = k
    · rw [hj, ← hpending]
      unfold Network.pending
      dsimp only
      rw [Function.update_self, Function.update_self]
    · unfold Network.pending
      dsimp only
      rw [Function.update_of_ne hj, Function.update_of_ne hj]

/-- The master reads a character. It has read a request at most if nothing is left. -/
theorem read (h : Quiet report s) {k : κ} {c : Char} {rest : Text} (hto : s.toMaster k = c :: rest)
    (hslaves : s'.slaves = s.slaves) (htoMaster : s'.toMaster = Function.update s.toMaster k rest)
    (htoSlave : s'.toSlave = s.toSlave)
    (hcount : ∑ i, (s'.server.workers i).requests
      ≤ ∑ i, (s.server.workers i).requests + if s.pending report k = ['\x00'] then 1 else 0) :
    Quiet report s' := by
  have hother {j : κ} (hj : j ≠ k) : s'.pending report j = s.pending report j := by
    unfold Network.pending
    rw [hslaves, htoMaster, Function.update_of_ne hj]
  have hself : s.pending report k = c :: s'.pending report k := by
    unfold Network.pending
    rw [hslaves, htoMaster, Function.update_self, hto]
    rfl
  have hsub : s.silent report ⊆ s'.silent report := by
    intro j hj
    rw [Network.mem_silent] at hj ⊢
    by_cases hjk : j = k
    · rw [hjk, hself] at hj
      cases hj
    · rw [hother hjk, hj]
  have hcard : (s.silent report).card + (if s.pending report k = ['\x00'] then 1 else 0)
      ≤ (s'.silent report).card := by
    split
    case isTrue hnul =>
      rw [hself] at hnul
      refine Finset.card_lt_card ((Finset.ssubset_iff_of_subset hsub).mpr ⟨k, ?_, ?_⟩)
      · exact Network.mem_silent.mpr (List.cons.inj hnul).2
      · rw [Network.mem_silent, hself]
        exact List.cons_ne_nil _ _
    case isFalse => exact Finset.card_le_card hsub
  refine ⟨fun j => ?_, fun j => ?_, fun j => ?_, fun j => ?_, ?_⟩
  · rw [htoSlave]
    exact h.toSlave_eq j
  · rw [hslaves]
    exact h.requesting j
  · rw [hslaves]
    exact h.left_ne_nil j
  · by_cases hjk : j = k
    · have hpending := h.pending k
      rw [hself] at hpending
      rw [hjk]
      exact (List.suffix_cons c _).trans hpending
    · rw [hother hjk]
      exact h.pending j
  · exact hcount.trans ((Nat.add_le_add_right h.count _).trans hcard)

omit [DecidableEq κ] in
/-- When all requests have been counted, they are written. -/
theorem le_card_requested (h : Quiet report s) (hall : ∀ i, 0 < (s.server.workers i).connects) :
    n ≤ s.requested.card := by
  have hle : ∀ i ∈ Finset.univ, 1 ≤ (s.server.workers i).requests :=
    fun i _ => (hall i).trans_le (Nat.le_add_right _ _)
  have hsub : s.silent report ⊆ s.requested := by
    intro k hk
    rw [Network.mem_silent] at hk
    rw [Network.mem_requested]
    exact SlavePc.requested_of_owes (List.append_eq_nil_iff.mp hk).2 (h.left_ne_nil k)
  calc n = ∑ _i : Fin n, 1 := by rw [Finset.sum_const, Finset.card_fin, smul_eq_mul, mul_one]
    _ ≤ ∑ i, (s.server.workers i).requests := Finset.sum_le_sum hle
    _ ≤ (s.silent report).card := h.count
    _ ≤ s.requested.card := Finset.card_le_card hsub

end Quiet

/-! ## The whole run -/

/-- Before the first START_MESSAGE it is quiet, and when it is written enough slaves have written
their requests. -/
structure StartInv (report : κ → Queues) (s : Network n κ) : Prop where
  regular : s.server.Regular
  quiet : (∀ i, (s.server.workers i).starts = 0) → Quiet report s
  requested : ∀ i, 0 < (s.server.workers i).starts → n ≤ s.requested.card

namespace StartInv

omit [DecidableEq κ] in
/-- No slave takes back its request. -/
theorem card_requested_le
    (hslaves : ∀ k, (s.slaves k).requested = true → (s'.slaves k).requested = true) :
    s.requested.card ≤ s'.requested.card :=
  Finset.card_le_card fun k hk =>
    Network.mem_requested.mpr (hslaves k (Network.mem_requested.mp hk))

omit [DecidableEq κ] in
theorem of_starts (h : StartInv report s) (hregular : s'.server.Regular)
    (hslaves : ∀ k, (s.slaves k).requested = true → (s'.slaves k).requested = true)
    (hstarts : ∀ j, (s'.server.workers j).starts = (s.server.workers j).starts)
    (hquiet : Quiet report s → Quiet report s') : StartInv report s' where
  regular := hregular
  quiet := fun hzero => hquiet (h.quiet fun i => hstarts i ▸ hzero i)
  requested := fun i hi => (h.requested i (hstarts i ▸ hi)).trans (card_requested_le hslaves)

omit [DecidableEq κ] in
/-- A calm step of the server. -/
theorem calm (h : StartInv report s) (hregular : s'.server.Regular)
    (hcalm : Calm s.server s'.server) (hslaves : s'.slaves = s.slaves)
    (htoMaster : s'.toMaster = s.toMaster) (htoSlave : s'.toSlave = s.toSlave) :
    StartInv report s' :=
  h.of_starts hregular (fun k => by rw [hslaves]; exact id) hcalm.starts fun hquiet =>
    hquiet.master hslaves htoMaster htoSlave hcalm.requests

/-- A step of a slave. -/
theorem slave (h : StartInv report s) {k : κ} {pc : SlavePc} (hserver : s'.server = s.server)
    (hslaves : s'.slaves = Function.update s.slaves k pc)
    (hrequested : (s.slaves k).requested = true → pc.requested = true)
    (hquiet : Quiet report s → Quiet report s') : StartInv report s' := by
  refine h.of_starts (by rw [hserver]; exact h.regular) (fun j hj => ?_)
    (fun j => by rw [hserver]) hquiet
  rw [hslaves]
  by_cases hjk : j = k
  · rw [hjk, Function.update_self]
    exact hrequested (hjk ▸ hj)
  · rw [Function.update_of_ne hjk]
    exact hj

/-- A character that is read and nothing else. -/
theorem readChar (h : StartInv report s) {k : κ} {c : Char} {rest : Text}
    (hto : s.toMaster k = c :: rest) (hserver : s'.server = s.server)
    (hslaves : s'.slaves = s.slaves) (htoMaster : s'.toMaster = Function.update s.toMaster k rest)
    (htoSlave : s'.toSlave = s.toSlave) : StartInv report s' := by
  refine h.of_starts (by rw [hserver]; exact h.regular) (fun k => by rw [hslaves]; exact id)
    (fun j => by rw [hserver]) fun hquiet => hquiet.read hto hslaves htoMaster htoSlave ?_
  rw [hserver]
  exact Nat.le_add_right _ _

/-- A message that is read. A request ends with a NUL, behind which there is nothing yet. -/
theorem readMessage (h : StartInv report s) {i : Fin n} {k : κ} {c : Char} {rest : Text}
    {server : Server n} (hto : s.toMaster k = c :: rest)
    (hserver : s.server.receive i (slaveMessage (s.buffer i ++ [c])) = some server) :
    StartInv report { s with server := server
                             toMaster := Function.update s.toMaster k rest
                             buffer := Function.update s.buffer i [] } := by
  obtain ⟨hpc, w, hturn, hnext⟩ := exists_turn_receive hserver
  refine h.of_starts (regular_step _ (.receive i _) _ h.regular hserver) (fun k => id)
    (starts_turn hturn hnext (by rw [hpc]; nofun)) fun hquiet =>
      hquiet.read hto rfl rfl rfl ?_
  have hsum := hturn.sum_eq requests_woken
  have hself : (server.workers i).requests ≤ (s.server.workers i).requests
      + if slaveMessage (s.buffer i ++ [c]) = .connectRequest then 1 else 0 := by
    unfold Server.receive at hserver
    rw [if_pos hpc] at hserver
    cases hm : slaveMessage (s.buffer i ++ [c]) <;> rw [hm] at hserver <;> cases hserver <;>
      simp [Server.goto, Server.set, Worker.requests, WorkerPc.hasRequest, hpc]
  rw [hturn.self] at hself
  have hnul (hm : slaveMessage (s.buffer i ++ [c]) = .connectRequest) :
      s.pending report k = ['\x00'] := by
    have hbuffer : s.buffer i ++ [c] = CONNECT_REQUEST_MESSAGE := by
      unfold slaveMessage at hm
      split at hm
      case isTrue heq => exact heq
      case isFalse => split at hm <;> cases hm
    have hc : c = '\x00' := by
      have hlast : s.buffer i ++ [c] = ['1'] ++ ['\x00'] := hbuffer
      exact (List.cons.inj (List.append_inj_right' hlast rfl)).1
    have hcons : s.pending report k = c :: (rest ++ (s.slaves k).owes (clientSide (report k))) := by
      rw [Network.pending, hto, List.cons_append]
    have hpending := hquiet.pending k
    rw [hcons, hc] at hpending ⊢
    rcases List.suffix_cons_iff.mp hpending with heq | hsuffix
    · cases heq
    · rcases List.suffix_cons_iff.mp hsuffix with heq | hnil
      · exact heq
      · exact absurd (List.suffix_nil.mp hnil) (List.cons_ne_nil _ _)
  show ∑ j, (server.workers j).requests ≤ _
  by_cases hm : slaveMessage (s.buffer i ++ [c]) = .connectRequest
  · rw [if_pos hm] at hself
    rw [if_pos (hnul hm)]
    omega
  · rw [if_neg hm] at hself
    omega

omit [DecidableEq κ] in
/-- START_MESSAGE is written when all requests have been counted. -/
theorem sendStart (h : StartInv report s) {i : Fin n} {server : Server n}
    (hserver : clientManagement s.server i = some server)
    (hpc : (s.server.workers i).pc = .sendStart) (htoSlave : κ → Text) :
    StartInv report { s with server := server, toSlave := htoSlave } := by
  have hpast : (s.server.barrier.phase i).past = true := by
    show (s.server.workers i).pc.phase.past = true
    rw [hpc]
    rfl
  have hcard : n ≤ s.requested.card := by
    by_cases hzero : ∀ j, (s.server.workers j).starts = 0
    · exact (h.quiet hzero).le_card_requested (h.regular.2.all_arrived i hpast)
    · obtain ⟨j, hj⟩ := not_forall.mp hzero
      exact h.requested j (Nat.pos_of_ne_zero hj)
  refine ⟨regular_step _ (.worker i) _ h.regular hserver, fun hzero => ?_, fun _ _ => hcard⟩
  rw [clientManagement, hpc] at hserver
  cases hserver
  have hself := hzero i
  simp [Server.set] at hself

/-- Every step preserves this. -/
theorem step (h : StartInv report s) (hmove : NetworkMove report s e s') : StartInv report s' := by
  cases hmove with
  | connect k hpc =>
    refine h.slave rfl rfl (by rw [hpc]; nofun) fun hquiet => ?_
    have hself := hquiet.slave k (.sendRequest CONNECT_REQUEST_MESSAGE) (s.toMaster k)
      (s.backlog ++ [k]) rfl (fun left hleft => by cases hleft; nofun)
      (by rw [Network.pending, hpc]; rfl)
    rwa [Function.update_eq_self] at hself
  | write k m hpos hle =>
    have hunsent : (s.slaves k).unsent ≠ [] := List.ne_nil_of_length_pos (hpos.trans_le hle)
    refine h.slave rfl rfl (fun hrequested => SlavePc.requested_wrote hrequested m) fun hquiet => ?_
    refine hquiet.slave k _ _ s.backlog (SlavePc.requesting_wrote (hquiet.requesting k) m)
      (fun left => SlavePc.left_ne_nil_of_wrote) ?_
    rw [SlavePc.owes_wrote hunsent, List.append_assoc, List.take_append_drop, Network.pending,
      SlavePc.owes_of_unsent hunsent]
  | readStart k behind hpc hto =>
    refine h.slave rfl rfl (fun _ => SlavePc.requested_gotStart _ _) fun hquiet => ?_
    have hnil := hquiet.toSlave_eq k
    rw [hto] at hnil
    cases hnil
  | benchmark k hpc =>
    refine h.slave rfl rfl (fun _ => rfl) fun hquiet => ?_
    have hrequesting := hquiet.requesting k
    rw [hpc] at hrequesting
    cases hrequesting
  | accept fd hbacklog hserver =>
    exact h.calm (regular_step _ (.accept fd) _ h.regular hserver)
      (calm_mainStep (mainStep_accept hserver)) rfl rfl rfl
  | main hserver =>
    exact h.calm (regular_step _ .main _ h.regular hserver)
      (calm_mainStep (mainStep_serverSide hserver)) rfl rfl rfl
  | worker i hserver hpc =>
    exact h.calm (regular_step _ (.worker i) _ h.regular hserver)
      (calm_clientManagement hserver hpc) rfl rfl rfl
  | sendStart i hserver hpc => exact h.sendStart hserver hpc _
  | readChar i hslave hto hpc hlen => exact h.readChar hto rfl rfl rfl rfl
  | readMessage i hslave hto hpc hlen hserver => exact h.readMessage hto hserver
  | readPart i hslave hto hpc hsize hloop => exact h.readChar hto rfl rfl rfl rfl
  | readText i hslave hto hpc hsize hloop hread => exact h.readChar hto rfl rfl rfl rfl
  | lockPlot i hreading hpc hfree =>
    exact h.of_starts h.regular (fun _ => id) (fun _ => rfl) fun hquiet =>
      hquiet.master rfl rfl rfl le_rfl
  | unlockPlot i hreading hpc =>
    exact h.of_starts h.regular (fun _ => id) (fun _ => rfl) fun hquiet =>
      hquiet.master rfl rfl rfl le_rfl
  | plotNode i hreading hserver =>
    exact h.calm (regular_step _ (.readReport i 1) _ h.regular hserver)
      (calm_readReport hserver) rfl rfl rfl
  | wakeUp i hserver =>
    exact h.calm (regular_step _ (.wakeUp i) _ h.regular hserver) (calm_wakeUp hserver) rfl rfl rfl
  | snmp thread hserver =>
    exact h.calm (regular_step _ (.snmp thread) _ h.regular hserver)
      (calm_asynchronousSnmp hserver) rfl rfl rfl

end StartInv

omit [DecidableEq κ] in
theorem startInv_networkStart (report : κ → Queues) (param : ℕ) :
    StartInv report (networkStart n κ param) where
  regular := regular_serverStart param
  quiet := fun _ => by
    refine ⟨fun _ => rfl, fun _ => rfl, fun _ _ => nofun, fun _ => List.suffix_rfl, ?_⟩
    show ∑ _i : Fin n, 0 ≤ _
    rw [Finset.sum_const_zero]
    exact Nat.zero_le _
  requested := fun _ hi => absurd hi (lt_irrefl 0)

/-- When a slave has started its benchmark, as many slaves as the master waits for have connected
and written their request. -/
theorem started_after_requests {param : ℕ} {history : List (NetworkTransition n κ)}
    (hrun : Run (NetworkStep report) (networkStart n κ param) history s) {k : κ}
    (hk : (s.slaves k).started = true) : n ≤ s.requested.card := by
  have hstep : ∀ (s : Network n κ) e s', StartInv report s → NetworkStep report s e s' →
      StartInv report s' := fun _ _ _ h hstep => h.step (networkMove_of_step hstep)
  obtain ⟨hinv, -⟩ := hrun.invariant hstep (startInv_networkStart report param)
  by_cases hzero : ∀ i, (s.server.workers i).starts = 0
  · have hrequesting := (hinv.quiet hzero).requesting k
    rw [SlavePc.not_requesting_of_started hk] at hrequesting
    cases hrequesting
  · obtain ⟨i, hi⟩ := not_forall.mp hzero
    exact hinv.requested i (Nat.pos_of_ne_zero hi)

end Counting

end Network

/-- The master accepts the next slave, creates a worker for it, and this reads what it is given. -/
def acceptNext (i : Fin 2) (fd : ℕ) : List (NetworkEvent 2 (Fin 2)) :=
  [.accept fd, .main, .main, .main, .main, .worker i, .worker i]

/-- Two slaves connect, and the second one reads its START_MESSAGE. -/
def startSecond (i j : Fin 2) : List (NetworkEvent 2 (Fin 2)) :=
  [.connect i, .write i 2, .connect j, .write j 1, .write j 1] ++ acceptNext i 10 ++
    acceptNext j 11 ++ [.recv i, .recv i] ++ List.replicate 4 (.worker i) ++ [.recv j, .recv j] ++
    List.replicate 7 (.worker j) ++ [.readStart j '\x00']

theorem started_after_requests_startSecond :
    ∃ history s, Run (NetworkStep fun _ => emptyQueues) (networkStart 2 (Fin 2) 0) history s ∧
      (s.slaves 1).started = true ∧ 2 ≤ s.requested.card := by
  have hend : (followSome (runNetwork fun _ => emptyQueues) (startSecond 0 1)
      (networkStart 2 (Fin 2) 0)).map (fun r => (r.2.slaves 1).started) = some true := by
    decide
  obtain ⟨⟨history, s⟩, hfollow, hstarted⟩ := Option.map_eq_some_iff.mp hend
  have hrun : Run (NetworkStep fun _ => emptyQueues) (networkStart 2 (Fin 2) 0) history s :=
    Run.of_followSome hfollow
  exact ⟨history, s, hrun, hstarted, started_after_requests hrun hstarted⟩

end OfcBenchmark
