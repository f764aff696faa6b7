import OfcBenchmark.Myserver

/-!
# The ids of the workers

All workers are given the address of the same cell, `param`, so a worker gets the id that was
meant for it only if it reads the cell before the main thread writes the next index there
(`workerIdentity_iff`).
-/

namespace OfcBenchmark
open Runs

/-! ## The main thread -/

/-- The worker has read its id. -/
def WorkerPc.hasId : WorkerPc → Bool
  | .none | .readId => false
  | _ => true

/-- The worker has read its socket. -/
def WorkerPc.hasSock : WorkerPc → Bool
  | .none | .readId | .readSock => false
  | _ => true

theorem WorkerPc.hasId_of_hasSock {p : WorkerPc} (h : p.hasSock = true) : p.hasId = true := by
  cases p <;> first | rfl | cases h

section Server

variable {n : ℕ}

/-- How many workers have been created. -/
def Server.created (s : Server n) : ℕ := if s.main = .next then s.index + 1 else s.index

/-- How far the sockets have been stored. -/
def Server.stored (s : Server n) : ℕ :=
  match s.main with
  | .storeParam | .create | .next => s.index + 1
  | _ => s.index

/-- What the main thread has done so far. -/
structure MainInv (s : Server n) : Prop where
  created : ∀ i, (s.workers i).pc = .none ↔ s.created ≤ i
  stored : ∀ i, (s.reports i).isSome = true ↔ i < s.stored
  param_eq : s.main = .create → s.param = s.index
  fresh : s.main = .storeSock → ∀ i, s.reports i ≠ some s.clientFd
  distinct : ∀ i j, (s.reports i).isSome = true → s.reports i = s.reports j → i = j

/-- What a worker knows, where socket `i` is stored in `sock`. -/
structure Worker.Ok (param : ℕ) (sock : Option ℕ) (i : Fin n) (w : Worker) : Prop where
  param_eq : w.pc = .readId → param = i
  id_eq : w.pc.hasId = true → w.id = i
  clientFd_eq : w.pc.hasSock = true → w.clientFd = sock
  snmp : 0 < w.snmpThreads → (i : ℤ) = n - 1
  started : (0 < w.starts ∨ w.pc = .unlockConnect ∨ w.pc = .sendStart) → (i : ℤ) = n - 1 →
    0 < w.snmpThreads

namespace Worker.Ok

variable {param : ℕ} {sock : Option ℕ} {i : Fin n} {w : Worker}

/-- A worker that has read all it reads keeps it. -/
theorem keep (h : w.Ok param sock i) (hread : w.pc.hasSock = true) {w' : Worker}
    (hid : w'.id = w.id) (hfd : w'.clientFd = w.clientFd) (hpc : w'.pc ≠ .readId)
    (hsnmp : 0 < w'.snmpThreads → (i : ℤ) = n - 1)
    (hstarted : (0 < w'.starts ∨ w'.pc = .unlockConnect ∨ w'.pc = .sendStart) →
      (i : ℤ) = n - 1 → 0 < w'.snmpThreads) : w'.Ok param sock i where
  param_eq := fun h' => absurd h' hpc
  id_eq := fun _ => hid.trans (h.id_eq (WorkerPc.hasId_of_hasSock hread))
  clientFd_eq := fun _ => hfd.trans (h.clientFd_eq hread)
  snmp := hsnmp
  started := hstarted

theorem woken (h : w.Ok param sock i) : w.woken.Ok param sock i := by
  unfold Worker.woken
  split
  case isTrue hpc =>
    exact h.keep (by rw [hpc]; rfl) rfl rfl nofun h.snmp fun hs => h.started (hs.imp_right nofun)
  case isFalse => exact h

end Worker.Ok

/-! ## The workers -/

/-- The moves of a worker that change nothing but where it is. -/
inductive WorkerPc.Moves : WorkerPc → WorkerPc → Prop
  | takeConnect : Moves .receive .lockConnect
  | takeReport : Moves .receive .lockReport
  | takeUnknown : Moves .receive .next
  | lockConnect : Moves .lockConnect .connect
  | announce : Moves .announce .check
  | wait : Moves .check .wait
  | pass : Moves .check .startSnmp
  | wakeUp : Moves .wait .wake
  | relock : Moves .wake .check
  | skipSnmp : Moves .startSnmp .unlockConnect
  | unlockConnect : Moves .unlockConnect .sendStart
  | lockReport : Moves .lockReport .report
  | unlockReport : Moves .unlockReport .readReport
  | receive : Moves .next .receive
  | lockStop : Moves .lockStop .stop
  | stop : Moves .stop .unlockStop
  | unlockStop : Moves .unlockStop .joinSnmp

/-- What can become of a worker in one step of its own. -/
inductive NextWorker (s : Server n) (w : Worker) : Worker → Prop
  | readId : w.pc = .readId → NextWorker s w { w with pc := .readSock, id := s.param }
  | readSock (h : w.id < n) : w.pc = .readSock →
      NextWorker s w { w with pc := .receive, clientFd := s.reports ⟨w.id, h⟩ }
  | connect : w.pc = .connect →
      NextWorker s w { w with pc := .announce, connects := w.connects + 1 }
  | startSnmp : w.pc = .startSnmp → (w.id : ℤ) = n - 1 →
      NextWorker s w { w with pc := .unlockConnect, snmpThread := some s.snmp.length
                              snmpThreads := w.snmpThreads + 1 }
  | sendStart : w.pc = .sendStart →
      NextWorker s w { w with pc := .next, messageReceived := w.messageReceived + 1
                              starts := w.starts + 1 }
  | report : w.pc = .report →
      NextWorker s w { w with pc := .unlockReport, reports := w.reports + 1 }
  | readReport (messageReceived : ℕ) : w.pc = .readReport →
      NextWorker s w { w with pc := .next, messageReceived := messageReceived }
  | leave : w.pc = .next → w.messageReceived = SERVER_MESSAGES →
      NextWorker s w { w with pc := .lockStop }
  | exit : w.pc = .joinSnmp →
      ((w.id : ℤ) = n - 1 → w.snmpThread.bind (s.snmp[·]?) = some .ended) →
      NextWorker s w { w with pc := .exited }
  | move {pc : WorkerPc} : w.pc.Moves pc → (pc = .unlockConnect → (w.id : ℤ) ≠ n - 1) →
      NextWorker s w { w with pc := pc }

/-- Worker `i` becomes `w`. The others may be woken up, and what the main thread works on stays
as it is. -/
structure Turn (s s' : Server n) (i : Fin n) (w : Worker) : Prop where
  self : s'.workers i = w
  others : ∀ j, j ≠ i → s'.workers j = s.workers j ∨ s'.workers j = (s.workers j).woken
  main_eq : s'.main = s.main
  index_eq : s'.index = s.index
  param_eq : s'.param = s.param
  clientFd_eq : s'.clientFd = s.clientFd
  reports_eq : s'.reports = s.reports
  reported_eq : s'.reported + (s.workers i).reports = s.reported + w.reports
  snmpStop : s'.snmpStop = true → s.snmpStop = true ∨ (s.workers i).pc = .stop
  snmpStop_mono : s.snmpStop = true → s'.snmpStop = true
  snmp_eq : (s'.snmp = s.snmp ∧ w.snmpThreads = (s.workers i).snmpThreads) ∨
    (s'.snmp = s.snmp ++ [.sampling] ∧ w.snmpThreads = (s.workers i).snmpThreads + 1)

variable {s s' : Server n} {i : Fin n}

namespace Turn

variable {w : Worker}

/-- What a broadcast does not change, only the worker whose turn it is changes. -/
theorem eq_update (h : Turn s s' i w) {f : Worker → ℕ} (hwoken : ∀ w, f w.woken = f w) :
    (fun j => f (s'.workers j)) = Function.update (fun j => f (s.workers j)) i (f w) := by
  funext j
  by_cases hj : j = i
  · rw [hj, Function.update_self, h.self]
  · rw [Function.update_of_ne hj]
    rcases h.others j hj with hsame | hwoken'
    · rw [hsame]
    · rw [hwoken', hwoken]

theorem sum_eq (h : Turn s s' i w) {f : Worker → ℕ} (hwoken : ∀ w, f w.woken = f w) :
    ∑ j, f (s'.workers j) + f (s.workers i) = ∑ j, f (s.workers j) + f w := by
  have hsum := Finset.sum_update_of_mem (Finset.mem_univ i) (fun j => f (s.workers j)) (f w)
  have hold := Finset.sum_update_of_mem (Finset.mem_univ i) (fun j => f (s.workers j))
    (f (s.workers i))
  rw [Function.update_eq_self] at hold
  rw [show ∑ j, f (s'.workers j) = _ from
    Finset.sum_congr rfl fun j _ => congrFun (h.eq_update hwoken) j, hsum, hold]
  ring

end Turn

/-- A step that sets worker `i` and no other. -/
theorem turn_set (s₁ : Server n) {w : Worker} (hworkers : s₁.workers = s.workers)
    (hmain : s₁.main = s.main) (hindex : s₁.index = s.index) (hparam : s₁.param = s.param)
    (hfd : s₁.clientFd = s.clientFd) (hreports : s₁.reports = s.reports)
    (hreported : s₁.reported + (s.workers i).reports = s.reported + w.reports)
    (hstop : s₁.snmpStop = true → s.snmpStop = true ∨ (s.workers i).pc = .stop)
    (hmono : s.snmpStop = true → s₁.snmpStop = true)
    (hsnmp : (s₁.snmp = s.snmp ∧ w.snmpThreads = (s.workers i).snmpThreads) ∨
      (s₁.snmp = s.snmp ++ [.sampling] ∧ w.snmpThreads = (s.workers i).snmpThreads + 1)) :
    Turn s (s₁.set i w) i w where
  self := Function.update_self _ _ _
  others := fun j hj => .inl ((Function.update_of_ne hj _ _).trans (congrFun hworkers j))
  main_eq := hmain
  index_eq := hindex
  param_eq := hparam
  clientFd_eq := hfd
  reports_eq := hreports
  reported_eq := hreported
  snmpStop := hstop
  snmpStop_mono := hmono
  snmp_eq := hsnmp

theorem Turn.snmpEnded_eq {w : Worker} (h : Turn s s' i w) : s'.snmpEnded = s.snmpEnded := by
  unfold Server.snmpEnded
  rcases h.snmp_eq with ⟨hsame, -⟩ | ⟨hstarted, -⟩
  · rw [hsame]
  · rw [hstarted, List.count_append]
    rfl

theorem turn_goto (pc : WorkerPc) : Turn s (s.goto i pc) i { s.workers i with pc := pc } :=
  turn_set s rfl rfl rfl rfl rfl rfl rfl .inl id (.inl ⟨rfl, rfl⟩)

theorem turn_take {pc : WorkerPc} (h : s.take i pc = some s') :
    Turn s s' i { s.workers i with pc := pc } := by
  unfold Server.take at h
  split at h
  · cases h
    exact turn_set { s with lock := some i } rfl rfl rfl rfl rfl rfl rfl .inl id (.inl ⟨rfl, rfl⟩)
  · cases h

theorem turn_release (pc : WorkerPc) : Turn s (s.release i pc) i { s.workers i with pc := pc } :=
  turn_set { s with lock := none } rfl rfl rfl rfl rfl rfl rfl .inl id (.inl ⟨rfl, rfl⟩)

theorem turn_announce :
    Turn s ((if s.connected = n then s.broadcast else s).goto i .check) i
      { s.workers i with pc := .check } := by
  split
  · have hself : ({ (s.workers i).woken with pc := .check } : Worker)
        = { s.workers i with pc := .check } := by
      unfold Worker.woken
      split <;> rfl
    refine ⟨?_, fun j hj => .inr (Function.update_of_ne hj _ _), rfl, rfl, rfl, rfl, rfl, rfl,
      .inl, id, .inl ⟨rfl, rfl⟩⟩
    exact (Function.update_self _ _ _).trans hself
  · exact turn_goto .check

theorem exists_turn_clientManagement (h : clientManagement s i = some s') :
    ∃ w, Turn s s' i w ∧ NextWorker s (s.workers i) w := by
  unfold clientManagement at h
  dsimp only at h
  cases hpc : (s.workers i).pc <;> rw [hpc] at h <;> dsimp only at h
  case none | receive | wait | readReport | exited => cases h
  case readId =>
    cases h
    exact ⟨_, turn_set s rfl rfl rfl rfl rfl rfl rfl .inl id (.inl ⟨rfl, rfl⟩), .readId hpc⟩
  case readSock =>
    split at h
    case isTrue hid =>
      cases h
      exact ⟨_, turn_set s rfl rfl rfl rfl rfl rfl rfl .inl id (.inl ⟨rfl, rfl⟩),
        .readSock hid hpc⟩
    case isFalse => cases h
  case lockConnect => exact ⟨_, turn_take h, .move (by rw [hpc]; exact .lockConnect) nofun⟩
  case connect =>
    cases h
    exact ⟨_, turn_set { s with connected := s.connected + 1 } rfl rfl rfl rfl rfl rfl rfl .inl id
      (.inl ⟨rfl, rfl⟩), .connect hpc⟩
  case announce =>
    cases h
    exact ⟨_, turn_announce, .move (by rw [hpc]; exact .announce) nofun⟩
  case check =>
    split at h
    · cases h
      exact ⟨_, turn_release .wait, .move (by rw [hpc]; exact .wait) nofun⟩
    · cases h
      exact ⟨_, turn_goto .startSnmp, .move (by rw [hpc]; exact .pass) nofun⟩
  case wake => exact ⟨_, turn_take h, .move (by rw [hpc]; exact .relock) nofun⟩
  case startSnmp =>
    split at h
    case isTrue hid =>
      cases h
      exact ⟨_, turn_set { s with snmp := s.snmp ++ [.sampling] } rfl rfl rfl rfl rfl rfl rfl
        .inl id (.inr ⟨rfl, rfl⟩), .startSnmp hpc hid⟩
    case isFalse hid =>
      cases h
      exact ⟨_, turn_goto .unlockConnect, .move (by rw [hpc]; exact .skipSnmp) fun _ => hid⟩
  case unlockConnect =>
    cases h
    exact ⟨_, turn_release .sendStart, .move (by rw [hpc]; exact .unlockConnect) nofun⟩
  case sendStart =>
    cases h
    exact ⟨_, turn_set s rfl rfl rfl rfl rfl rfl rfl .inl id (.inl ⟨rfl, rfl⟩), .sendStart hpc⟩
  case lockReport => exact ⟨_, turn_take h, .move (by rw [hpc]; exact .lockReport) nofun⟩
  case report =>
    cases h
    exact ⟨_, turn_set { s with reported := s.reported + 1 } rfl rfl rfl rfl rfl rfl
      (by dsimp only; omega) .inl id (.inl ⟨rfl, rfl⟩), .report hpc⟩
  case unlockReport =>
    cases h
    exact ⟨_, turn_release .readReport, .move (by rw [hpc]; exact .unlockReport) nofun⟩
  case next =>
    cases h
    split
    case isTrue hreceived => exact ⟨_, turn_goto .lockStop, .leave hpc hreceived⟩
    case isFalse => exact ⟨_, turn_goto .receive, .move (by rw [hpc]; exact .receive) nofun⟩
  case lockStop => exact ⟨_, turn_take h, .move (by rw [hpc]; exact .lockStop) nofun⟩
  case stop =>
    cases h
    exact ⟨_, turn_set { s with snmpStop := true } rfl rfl rfl rfl rfl rfl rfl (fun _ => .inr hpc)
      (fun _ => rfl) (.inl ⟨rfl, rfl⟩), .move (by rw [hpc]; exact .stop) nofun⟩
  case unlockStop =>
    cases h
    exact ⟨_, turn_release .joinSnmp, .move (by rw [hpc]; exact .unlockStop) nofun⟩
  case joinSnmp =>
    split at h
    case isTrue =>
      split at h
      case isTrue hended =>
        cases h
        exact ⟨_, turn_goto .exited, .exit hpc fun _ => hended⟩
      case isFalse => cases h
    case isFalse hid =>
      cases h
      exact ⟨_, turn_goto .exited, .exit hpc fun hlast => absurd hlast hid⟩

theorem exists_turn_receive {m : SlaveMessage} (h : s.receive i m = some s') :
    (s.workers i).pc = .receive ∧ ∃ w, Turn s s' i w ∧ NextWorker s (s.workers i) w := by
  unfold Server.receive at h
  split at h
  case isTrue hpc =>
    refine ⟨hpc, ?_⟩
    cases m <;> cases h
    · exact ⟨_, turn_goto .lockConnect, .move (by rw [hpc]; exact .takeConnect) nofun⟩
    · exact ⟨_, turn_goto .lockReport, .move (by rw [hpc]; exact .takeReport) nofun⟩
    · exact ⟨_, turn_goto .next, .move (by rw [hpc]; exact .takeUnknown) nofun⟩
  case isFalse => cases h

theorem exists_turn_readReport {bytesRead : ℤ} (h : s.readReport i bytesRead = some s') :
    (s.workers i).pc = .readReport ∧ ∃ w, Turn s s' i w ∧ NextWorker s (s.workers i) w := by
  unfold Server.readReport at h
  dsimp only at h
  split at h
  case isTrue hpc =>
    cases h
    exact ⟨hpc, _, turn_set s rfl rfl rfl rfl rfl rfl rfl .inl id (.inl ⟨rfl, rfl⟩),
      .readReport _ hpc⟩
  case isFalse => cases h

theorem exists_turn_wakeUp (h : s.wakeUp i = some s') :
    (s.workers i).pc = .wait ∧ ∃ w, Turn s s' i w ∧ NextWorker s (s.workers i) w := by
  unfold Server.wakeUp at h
  split at h
  case isTrue hpc =>
    cases h
    exact ⟨hpc, _, turn_goto .wake, .move (by rw [hpc]; exact .wakeUp) nofun⟩
  case isFalse => cases h

/-! ## Identity -/

/-- The main thread writes `param` when all workers created so far have read it. -/
def InTime (t : ServerTransition n) : Prop :=
  t.event = .main → t.pre.main = .storeParam → ∀ i, (t.pre.workers i).pc ≠ .readId

instance : DecidablePred (InTime (n := n)) := fun t =>
  inferInstanceAs (Decidable (t.event = .main → t.pre.main = .storeParam →
    ∀ i, (t.pre.workers i).pc ≠ .readId))

/-- Who serves whom. -/
structure WorkerIdentity (s : Server n) : Prop where
  /-- the `i`-th created worker has the id `i` -/
  id_eq : ∀ i, (s.workers i).pc.hasId = true → (s.workers i).id = i
  /-- and serves the socket stored in `reports[i]` -/
  serves : ∀ i, (s.workers i).pc.hasSock = true →
    (s.workers i).clientFd = s.reports i ∧ (s.reports i).isSome = true
  /-- two workers serve different sockets -/
  serves_inj : ∀ i j, (s.workers i).pc.hasSock = true → (s.workers j).pc.hasSock = true →
    (s.workers i).clientFd = (s.workers j).clientFd → i = j
  /-- every socket is served by a worker, once all have got that far -/
  served : (∀ i, (s.workers i).pc.hasSock = true) → ∀ i, ∃ j, (s.workers j).clientFd = s.reports i
  /-- at most one worker starts the SNMP thread -/
  snmp_unique : ∀ i j, 0 < (s.workers i).snmpThreads → 0 < (s.workers j).snmpThreads → i = j
  /-- and exactly one when all have written START_MESSAGE -/
  snmp_started : 0 < n → (∀ i, 0 < (s.workers i).starts) → ∃! i, 0 < (s.workers i).snmpThreads

namespace WorkerPc.Moves

variable {p q : WorkerPc}

theorem hasSock (h : p.Moves q) : p.hasSock = true := by cases h <;> rfl

theorem hasSock_next (h : p.Moves q) : q.hasSock = true := by cases h <;> rfl

theorem eq_of_sendStart (h : p.Moves .sendStart) : p = .unlockConnect := by cases h; rfl

end WorkerPc.Moves

namespace NextWorker

variable {w w' : Worker}

theorem hasId (h : NextWorker s w w') : w'.pc.hasId = true := by
  cases h with
  | move hmoves _ => exact WorkerPc.hasId_of_hasSock hmoves.hasSock_next
  | _ => rfl

/-- A worker reads its id, or has it and keeps it. -/
theorem readId_or (h : NextWorker s w w') :
    (w.pc = .readId ∧ w' = { w with pc := .readSock, id := s.param }) ∨
      (w.pc.hasId = true ∧ w'.id = w.id) := by
  cases h with
  | readId hpc => exact .inl ⟨hpc, rfl⟩
  | move hmoves _ => exact .inr ⟨WorkerPc.hasId_of_hasSock hmoves.hasSock, rfl⟩
  | readSock _ hpc | readReport _ hpc | leave hpc _ | exit hpc _ | startSnmp hpc _ | connect hpc
  | sendStart hpc | report hpc => exact .inr ⟨by rw [hpc]; rfl, rfl⟩

theorem pc_ne_none (h : NextWorker s w w') : w.pc ≠ .none := by
  intro hnone
  rcases h.readId_or with ⟨hpc, -⟩ | ⟨hid, -⟩
  · cases hnone.symm.trans hpc
  · rw [hnone] at hid
    cases hid

/-- A worker keeps to what it knows. -/
theorem ok (h : NextWorker s w w') (hok : w.Ok s.param (s.reports i) i) :
    w'.Ok s.param (s.reports i) i := by
  cases h with
  | readId hpc =>
    exact ⟨nofun, fun _ => hok.param_eq hpc, nofun, hok.snmp,
      fun hs => hok.started (hs.imp_right nofun)⟩
  | readSock hlt hpc =>
    have hid := hok.id_eq (by rw [hpc]; rfl)
    have hi : (⟨w.id, hlt⟩ : Fin n) = i := Fin.ext hid
    exact ⟨nofun, fun _ => hid, fun _ => congrArg s.reports hi, hok.snmp,
      fun hs => hok.started (hs.imp_right nofun)⟩
  | connect hpc | report hpc | readReport _ hpc | leave hpc _ | exit hpc _ =>
    exact hok.keep (by rw [hpc]; rfl) rfl rfl nofun hok.snmp
      fun hs => hok.started (hs.imp_right nofun)
  | startSnmp hpc hlast =>
    have hid := hok.id_eq (by rw [hpc]; rfl)
    exact hok.keep (by rw [hpc]; rfl) rfl rfl nofun (fun _ => hid ▸ hlast)
      fun _ _ => Nat.succ_pos _
  | sendStart hpc =>
    exact hok.keep (by rw [hpc]; rfl) rfl rfl nofun hok.snmp
      fun _ => hok.started (.inr (.inr hpc))
  | @move pc hmoves hskip =>
    have hsock := hmoves.hasSock
    have hid := hok.id_eq (WorkerPc.hasId_of_hasSock hsock)
    refine hok.keep hsock rfl rfl ?_ hok.snmp ?_
    · rintro rfl
      cases hmoves.hasSock_next
    · rintro (hs | rfl | rfl) hlast
      · exact hok.started (.inl hs) hlast
      · exact absurd (hid ▸ hlast) (hskip rfl)
      · exact hok.started (.inr (.inl hmoves.eq_of_sendStart)) hlast

end NextWorker

theorem pc_woken_eq_none_iff (w : Worker) : w.woken.pc = .none ↔ w.pc = .none := by
  unfold Worker.woken
  split
  case isTrue hpc =>
    rw [hpc]
    exact ⟨nofun, nofun⟩
  case isFalse => exact Iff.rfl

/-- Which workers exist is up to the main thread. -/
theorem Turn.none_iff {w : Worker} (h : Turn s s' i w) (hnext : NextWorker s (s.workers i) w)
    (j : Fin n) : (s'.workers j).pc = .none ↔ (s.workers j).pc = .none := by
  by_cases hj : j = i
  · rw [hj, h.self]
    refine ⟨?_, fun hnone => absurd hnone hnext.pc_ne_none⟩
    intro hnone
    have hid := hnext.hasId
    rw [hnone] at hid
    cases hid
  · rcases h.others j hj with hsame | hwoken
    · rw [hsame]
    · rw [hwoken, pc_woken_eq_none_iff]

/-- What a step of the main thread can be. -/
inductive MainStep (s : Server n) : Server n → Prop
  | accept (fd : ℕ) : s.main = .accept → (∀ i, s.reports i ≠ some fd) →
      MainStep s { s with main := .storeSock, clientFd := fd }
  | storeSock (h : s.index < n) : s.main = .storeSock →
      MainStep s { s with
        main := .storeParam
        reports := Function.update s.reports ⟨s.index, h⟩ (some s.clientFd) }
  | storeParam : s.main = .storeParam → MainStep s { s with main := .create, param := s.index }
  | create (h : s.index < n) : s.main = .create →
      MainStep s ({ s with main := .next }.goto ⟨s.index, h⟩ .readId)
  | next {pc : MainPc} : s.main = .next → pc = .accept ∨ pc = .join n →
      MainStep s { s with main := pc, index := s.index + 1 }
  | join {left : ℕ} {pc : MainPc} : s.main = .join left → (pc = .plot ∨ ∃ k, pc = .join k) →
      MainStep s { s with main := pc }

theorem mainStep_serverSide (h : serverSide s = some s') : MainStep s s' := by
  unfold serverSide at h
  cases hmain : s.main <;> rw [hmain] at h <;> dsimp only at h
  case accept => cases h
  case plot => cases h
  case storeSock =>
    split at h
    case isTrue hlt =>
      cases h
      exact .storeSock hlt hmain
    case isFalse => cases h
  case storeParam =>
    cases h
    exact .storeParam hmain
  case create =>
    split at h
    case isTrue hlt =>
      cases h
      exact .create hlt hmain
    case isFalse => cases h
  case next =>
    cases h
    refine .next hmain ?_
    split
    · exact .inl rfl
    · exact .inr rfl
  case join left =>
    cases left with
    | zero =>
      cases h
      exact .join hmain (.inl rfl)
    | succ k =>
      dsimp only at h
      split at h
      · split at h
        · cases h
          exact .join hmain (.inr ⟨k, rfl⟩)
        · cases h
      · cases h

theorem mainStep_accept {fd : ℕ} (h : s.accept fd = some s') : MainStep s s' := by
  unfold Server.accept at h
  split at h
  case isTrue hguard =>
    cases h
    exact .accept fd hguard.1 hguard.2
  case isFalse => cases h

/-- An SNMP thread goes on, or `snmpStop` is set and it ends. -/
theorem asynchronousSnmp_cases {k : ℕ} (h : asynchronousSnmp s k = some s') :
    s' = s ∨ (s.snmpStop = true ∧ s.snmp[k]? = some .sampling ∧
      s' = { s with snmp := s.snmp.set k .ended }) := by
  unfold asynchronousSnmp at h
  split at h
  case isTrue hguard =>
    cases h
    by_cases hstop : s.snmpStop = true
    · rw [if_pos hstop]
      exact .inr ⟨hstop, hguard.1, rfl⟩
    · rw [if_neg hstop]
      exact .inl rfl
  case isFalse => cases h

theorem asynchronousSnmp_frame {k : ℕ} (h : asynchronousSnmp s k = some s') :
    ∃ threads, (s.snmpEnded < threads.count .ended → s.snmpStop = true) ∧
      s' = { s with snmp := threads } := by
  rcases asynchronousSnmp_cases h with rfl | ⟨hstop, -, rfl⟩
  · exact ⟨_, fun hlt => absurd hlt (lt_irrefl _), rfl⟩
  · exact ⟨_, fun _ => hstop, rfl⟩

/-- A step of the server is one of the main thread, one of a worker, or one of an SNMP
thread. A worker that tests `messageReceived` waits for nobody. -/
theorem serverStep_cases {e : ServerEvent n} (h : ServerStep s e s') :
    (((∃ fd, e = .accept fd) ∨ e = .main) ∧ MainStep s s') ∨
      (∃ i w, ((s.workers i).pc = .next → e = .worker i) ∧ Turn s s' i w ∧
        NextWorker s (s.workers i) w) ∨
      ∃ threads, (s.snmpEnded < threads.count .ended → s.snmpStop = true) ∧
        s' = { s with snmp := threads } := by
  cases e with
  | accept fd => exact .inl ⟨.inl ⟨fd, rfl⟩, mainStep_accept h⟩
  | main => exact .inl ⟨.inr rfl, mainStep_serverSide h⟩
  | worker i =>
    obtain ⟨w, hturn⟩ := exists_turn_clientManagement h
    exact .inr (.inl ⟨i, w, fun _ => rfl, hturn⟩)
  | receive i m =>
    obtain ⟨hpc, w, hturn⟩ := exists_turn_receive h
    exact .inr (.inl ⟨i, w, by rw [hpc]; nofun, hturn⟩)
  | readReport i bytesRead =>
    obtain ⟨hpc, w, hturn⟩ := exists_turn_readReport h
    exact .inr (.inl ⟨i, w, by rw [hpc]; nofun, hturn⟩)
  | wakeUp i =>
    obtain ⟨hpc, w, hturn⟩ := exists_turn_wakeUp h
    exact .inr (.inl ⟨i, w, by rw [hpc]; nofun, hturn⟩)
  | snmp k => exact .inr (.inr (asynchronousSnmp_frame h))

/-! ## What the main thread has done -/

namespace MainInv

theorem turn (h : MainInv s) {w : Worker} (hturn : Turn s s' i w)
    (hnext : NextWorker s (s.workers i) w) : MainInv s' := by
  obtain ⟨hcreated, hstored, hparam, hfresh, hdistinct⟩ := h
  refine ⟨?_, ?_, ?_, ?_, ?_⟩
  · intro j
    rw [hturn.none_iff hnext, hcreated, Server.created, Server.created, hturn.main_eq,
      hturn.index_eq]
  · intro j
    rw [hturn.reports_eq, hstored, Server.stored, Server.stored, hturn.main_eq, hturn.index_eq]
  · intro hm
    rw [hturn.param_eq, hturn.index_eq, hparam (hturn.main_eq ▸ hm)]
  · intro hm j
    rw [hturn.reports_eq, hturn.clientFd_eq]
    exact hfresh (hturn.main_eq ▸ hm) j
  · intro j k hj hjk
    rw [hturn.reports_eq] at hj hjk
    exact hdistinct j k hj hjk

theorem storeSock (h : MainInv s) (hmain : s.main = .storeSock) (hlt : s.index < n) :
    MainInv { s with
      main := .storeParam
      reports := Function.update s.reports ⟨s.index, hlt⟩ (some s.clientFd) } := by
  obtain ⟨hcreated, hstored, -, hfresh, hdistinct⟩ := h
  unfold Server.created at hcreated
  unfold Server.stored at hstored
  rw [hmain] at hcreated hstored
  let here : Fin n := ⟨s.index, hlt⟩
  let reports := Function.update s.reports here (some s.clientFd)
  have hself : reports here = some s.clientFd := Function.update_self _ _ _
  have hother {j : Fin n} (hj : j ≠ here) : reports j = s.reports j := Function.update_of_ne hj _ _
  refine ⟨hcreated, ?_, nofun, nofun, ?_⟩
  · intro j
    show (reports j).isSome = true ↔ (j : ℕ) < s.index + 1
    by_cases hj : j = here
    · rw [hj, hself]
      exact ⟨fun _ => Nat.lt_succ_self _, fun _ => rfl⟩
    · have hne : (j : ℕ) ≠ s.index := fun heq => hj (Fin.ext heq)
      rw [hother hj, hstored]
      dsimp only
      omega
  · intro j k hj hjk
    change (reports j).isSome = true at hj
    change reports j = reports k at hjk
    by_cases hj' : j = here <;> by_cases hk' : k = here
    · rw [hj', hk']
    · rw [hj', hself, hother hk'] at hjk
      exact absurd hjk.symm (hfresh hmain k)
    · rw [hk', hself, hother hj'] at hjk
      exact absurd hjk (hfresh hmain j)
    · rw [hother hj', hother hk'] at hjk
      rw [hother hj'] at hj
      exact hdistinct j k hj hjk

theorem create (h : MainInv s) (hmain : s.main = .create) (hlt : s.index < n) :
    MainInv ({ s with main := .next }.goto ⟨s.index, hlt⟩ .readId) := by
  obtain ⟨hcreated, hstored, -, -, hdistinct⟩ := h
  unfold Server.created at hcreated
  unfold Server.stored at hstored
  rw [hmain] at hcreated hstored
  let here : Fin n := ⟨s.index, hlt⟩
  let w : Worker := { s.workers here with pc := .readId }
  refine ⟨?_, hstored, nofun, nofun, hdistinct⟩
  intro j
  show (Function.update s.workers here w j).pc = .none ↔ s.index + 1 ≤ j
  by_cases hj : j = here
  · rw [hj, Function.update_self]
    exact ⟨nofun, fun hle => absurd hle (Nat.not_succ_le_self _)⟩
  · have hne : (j : ℕ) ≠ s.index := fun heq => hj (Fin.ext heq)
    rw [Function.update_of_ne hj, hcreated, if_neg nofun]
    omega

theorem mainStep (h : MainInv s) (hstep : MainStep s s') : MainInv s' := by
  have hinv := h
  obtain ⟨hcreated, hstored, hparam, hfresh, hdistinct⟩ := h
  unfold Server.created at hcreated
  unfold Server.stored at hstored
  cases hstep with
  | accept fd hmain hguard =>
    rw [hmain] at hcreated hstored
    exact ⟨hcreated, hstored, nofun, fun _ => hguard, hdistinct⟩
  | storeSock hlt hmain => exact hinv.storeSock hmain hlt
  | storeParam hmain =>
    rw [hmain] at hcreated hstored
    exact ⟨hcreated, hstored, fun _ => rfl, nofun, hdistinct⟩
  | create hlt hmain => exact hinv.create hmain hlt
  | next hmain hpc =>
    rw [hmain] at hcreated hstored
    rcases hpc with rfl | rfl <;> exact ⟨hcreated, hstored, nofun, nofun, hdistinct⟩
  | join hmain hpc =>
    rw [hmain] at hcreated hstored
    rcases hpc with rfl | ⟨k, rfl⟩ <;> exact ⟨hcreated, hstored, nofun, nofun, hdistinct⟩

theorem step (h : MainInv s) {e : ServerEvent n} (hstep : ServerStep s e s') : MainInv s' := by
  rcases serverStep_cases hstep with ⟨-, hmain⟩ | ⟨i, w, -, hturn, hnext⟩ | ⟨_, -, rfl⟩
  · exact h.mainStep hmain
  · exact h.turn hturn hnext
  · exact ⟨h.created, h.stored, h.param_eq, h.fresh, h.distinct⟩

end MainInv

theorem mainInv_serverStart (param : ℕ) : MainInv (serverStart n param) where
  created := fun _ => ⟨fun _ => Nat.zero_le _, fun _ => rfl⟩
  stored := fun _ => ⟨nofun, nofun⟩
  param_eq := nofun
  fresh := nofun
  distinct := nofun

/-! ## What the workers know -/

section Known

/-- Everything is as it should be. -/
def AllOk (s : Server n) : Prop := ∀ i, (s.workers i).Ok s.param (s.reports i) i

theorem allOk_turn (h : AllOk s) {w : Worker} (hturn : Turn s s' i w)
    (hnext : NextWorker s (s.workers i) w) : AllOk s' := by
  intro j
  rw [hturn.param_eq, hturn.reports_eq]
  by_cases hj : j = i
  · rw [hj, hturn.self]
    exact hnext.ok (h i)
  · rcases hturn.others j hj with hsame | hwoken
    · rw [hsame]
      exact h j
    · rw [hwoken]
      exact (h j).woken

theorem allOk_mainStep (hinv : MainInv s) (h : AllOk s) (hstep : MainStep s s')
    (htime : s.main = .storeParam → ∀ i, (s.workers i).pc ≠ .readId) : AllOk s' := by
  have hcreated := hinv.created
  unfold Server.created at hcreated
  cases hstep with
  | accept fd hmain hguard => exact h
  | storeSock hlt hmain =>
    intro j
    show (s.workers j).Ok s.param (Function.update s.reports ⟨s.index, hlt⟩ (some s.clientFd) j) j
    by_cases hj : j = ⟨s.index, hlt⟩
    · -- the worker for this socket does not exist yet
      have hnone : (s.workers j).pc = .none := by
        rw [hcreated, hmain, hj]
        exact le_rfl
      obtain ⟨hparam, hid, -, hsnmp, hstarted⟩ := h j
      exact ⟨hparam, hid, by rw [hnone]; nofun, hsnmp, hstarted⟩
    · rw [Function.update_of_ne hj]
      exact h j
  | storeParam hmain =>
    intro j
    obtain ⟨-, hid, hfd, hsnmp, hstarted⟩ := h j
    exact ⟨fun hpc => absurd hpc (htime hmain j), hid, hfd, hsnmp, hstarted⟩
  | create hlt hmain =>
    intro j
    show (Function.update s.workers ⟨s.index, hlt⟩ _ j).Ok s.param (s.reports j) j
    by_cases hj : j = ⟨s.index, hlt⟩
    · rw [hj, Function.update_self]
      obtain ⟨-, -, -, hsnmp, hstarted⟩ := h ⟨s.index, hlt⟩
      exact ⟨fun _ => hinv.param_eq hmain, nofun, nofun, hsnmp,
        fun hs => hstarted (hs.imp_right nofun)⟩
    · rw [Function.update_of_ne hj]
      exact h j
  | next hmain hpc => exact h
  | join hmain hpc => exact h

/-- A step in which `param` is written in time. -/
theorem allOk_step (hinv : MainInv s) (h : AllOk s) {e : ServerEvent n}
    (hstep : ServerStep s e s') (htime : InTime ⟨s, e, s'⟩) : AllOk s' := by
  rcases serverStep_cases hstep with ⟨he, hmain⟩ | ⟨i, w, -, hturn, hnext⟩ | ⟨_, -, rfl⟩
  · apply allOk_mainStep hinv h hmain
    intro hparam
    rcases he with ⟨fd, rfl⟩ | rfl
    · -- `accept` is another place
      change s.accept fd = some s' at hstep
      rw [Server.accept, hparam, if_neg (by simp)] at hstep
      cases hstep
    · exact htime rfl hparam
  · exact allOk_turn h hturn hnext
  · exact h

end Known

/-! ## Who serves whom -/

/-- Where there is a worker, there is a socket. -/
theorem MainInv.isSome_reports (h : MainInv s) (hi : (s.workers i).pc ≠ .none) :
    (s.reports i).isSome = true := by
  rw [Ne, h.created] at hi
  refine (h.stored i).mpr (lt_of_lt_of_le (Nat.lt_of_not_le hi) ?_)
  unfold Server.created Server.stored
  cases s.main <;> simp

/-- With all in order, everybody serves whom it should. -/
theorem workerIdentity_of_allOk (hinv : MainInv s) (h : AllOk s) : WorkerIdentity s := by
  have hsome {i : Fin n} (hi : (s.workers i).pc.hasSock = true) : (s.reports i).isSome = true := by
    apply hinv.isSome_reports
    intro hnone
    rw [hnone] at hi
    cases hi
  refine ⟨fun i => (h i).id_eq, fun i hi => ⟨(h i).clientFd_eq hi, hsome hi⟩,
    fun i j hi hj hij => ?_, fun hall i => ⟨i, (h i).clientFd_eq (hall i)⟩, fun i j hi hj => ?_,
    fun hn hall => ?_⟩
  · refine hinv.distinct i j (hsome hi) ?_
    rw [← (h i).clientFd_eq hi, ← (h j).clientFd_eq hj, hij]
  · have hlasti := (h i).snmp hi
    have hlastj := (h j).snmp hj
    exact Fin.ext (by omega)
  · let last : Fin n := ⟨n - 1, by omega⟩
    have hlast : (last : ℤ) = n - 1 := by
      show ((n - 1 : ℕ) : ℤ) = n - 1
      omega
    refine ⟨last, (h last).started (.inl (hall last)) hlast, ?_⟩
    intro i hi
    have hlasti := (h i).snmp hi
    exact Fin.ext (by omega)

/-- Worker `i` has an id that was meant for another, or is about to get one. -/
def Worker.Late (param : ℕ) (i : Fin n) (w : Worker) : Prop :=
  (w.pc = .readId ∧ (i : ℕ) < param) ∨ (w.pc.hasId = true ∧ w.id ≠ i)

theorem Worker.Late.woken {param : ℕ} {w : Worker} (h : w.Late param i) :
    w.woken.Late param i := by
  unfold Worker.woken
  split
  case isTrue hpc =>
    rcases h with ⟨hread, -⟩ | ⟨-, hid⟩
    · cases hpc.symm.trans hread
    · exact .inr ⟨rfl, hid⟩
  case isFalse => exact h

theorem NextWorker.late {w w' : Worker} (h : NextWorker s w w') (hlate : w.Late s.param i) :
    w'.Late s.param i := by
  rcases hlate with ⟨hread, hlt⟩ | ⟨hhasId, hid⟩
  · rcases h.readId_or with ⟨-, rfl⟩ | ⟨hread', -⟩
    · exact .inr ⟨rfl, Nat.ne_of_gt hlt⟩
    · rw [hread] at hread'
      cases hread'
  · rcases h.readId_or with ⟨hread, -⟩ | ⟨-, hsame⟩
    · rw [hread] at hhasId
      cases hhasId
    · exact .inr ⟨h.hasId, hsame ▸ hid⟩

/-- Some worker is. -/
def Late (s : Server n) : Prop := ∃ i, (s.workers i).Late s.param i

/-- What is late stays late. -/
theorem late_step (hinv : MainInv s) (h : Late s) {e : ServerEvent n} (hstep : ServerStep s e s') :
    Late s' := by
  obtain ⟨i, hi⟩ := h
  have hnone : (s.workers i).pc ≠ .none := by
    rintro hnone
    rcases hi with ⟨hpc, -⟩ | ⟨hpc, -⟩ <;> rw [hnone] at hpc <;> cases hpc
  have hlt : (i : ℕ) < s.created := Nat.lt_of_not_le fun hle => hnone ((hinv.created i).mpr hle)
  refine ⟨i, ?_⟩
  rcases serverStep_cases hstep with ⟨-, hmain⟩ | ⟨j, w, -, hturn, hnext⟩ | ⟨_, -, rfl⟩
  · cases hmain with
    | storeParam hmain =>
      -- `param` grows beyond the ids of all workers there are
      rw [Server.created, hmain, if_neg nofun] at hlt
      exact hi.imp_left fun hread => ⟨hread.1, hlt⟩
    | create hlt' hmain =>
      rw [Server.created, hmain, if_neg nofun] at hlt
      have hne : i ≠ ⟨s.index, hlt'⟩ := by
        rintro rfl
        exact absurd hlt (lt_irrefl _)
      show (Function.update s.workers ⟨s.index, hlt'⟩ _ i).Late s.param i
      rw [Function.update_of_ne hne]
      exact hi
    | _ => exact hi
  · rw [hturn.param_eq]
    by_cases hij : i = j
    · subst hij
      rw [hturn.self]
      exact hnext.late hi
    · rcases hturn.others i hij with hsame | hwoken
      · rw [hsame]
        exact hi
      · rw [hwoken]
        exact hi.woken
  · exact hi

/-- A step in which `param` is written too early makes a worker late. -/
theorem late_of_not_inTime (hinv : MainInv s) {e : ServerEvent n} (hstep : ServerStep s e s')
    (h : ¬ InTime ⟨s, e, s'⟩) : Late s' := by
  obtain ⟨he, hmain, i, hi⟩ : e = .main ∧ s.main = .storeParam ∧
      ∃ i, (s.workers i).pc = .readId := by
    simpa [InTime] using h
  have hnone : (s.workers i).pc ≠ .none := by rw [hi]; nofun
  have hlt : (i : ℕ) < s.created := Nat.lt_of_not_le fun hle => hnone ((hinv.created i).mpr hle)
  rw [Server.created, hmain, if_neg nofun] at hlt
  rw [he, ServerStep, runServer, serverSide, hmain] at hstep
  cases hstep
  exact ⟨i, .inl ⟨hi, hlt⟩⟩

section Run

variable {param : ℕ} {history : List (ServerTransition n)}

/-- When all workers have read their ids, these are the right ones only if `param` was always
written in time. -/
theorem inTime_of_run (hrun : Run ServerStep (serverStart n param) history s)
    (hread : ∀ i, (s.workers i).pc.hasId = true) (hids : ∀ i, (s.workers i).id = i) :
    ∀ t ∈ history, InTime t := by
  have hlate : ∀ (past : List (ServerTransition n)) s e s',
      (MainInv s ∧ ((∃ t ∈ past, ¬ InTime t) → Late s)) → ServerStep s e s' →
        MainInv s' ∧ ((∃ t ∈ past ++ [⟨s, e, s'⟩], ¬ InTime t) → Late s') := by
    rintro past s e s' ⟨hinv, hpast⟩ hstep
    refine ⟨hinv.step hstep, ?_⟩
    rintro ⟨t, ht, hnot⟩
    rcases List.mem_append.mp ht with ht | ht
    · exact late_step hinv (hpast ⟨t, ht, hnot⟩) hstep
    · rw [List.mem_singleton.mp ht] at hnot
      exact late_of_not_inTime hinv hstep hnot
  have hstart : MainInv (serverStart n param) ∧
      ((∃ t ∈ ([] : List (ServerTransition n)), ¬ InTime t) → Late (serverStart n param)) :=
    ⟨mainInv_serverStart param, fun ⟨_, ht, _⟩ => absurd ht List.not_mem_nil⟩
  have hend := (hrun.invariant_history hlate hstart).1
  intro t ht
  by_contra hnot
  obtain ⟨i, ⟨hpc, -⟩ | ⟨-, hid⟩⟩ := hend.2 ⟨t, ht, hnot⟩
  · have hid := hread i
    rw [hpc] at hid
    cases hid
  · exact hid (hids i)

/-- In a run in which `param` is always written in time, everybody serves whom it should, at
every moment. Where all workers have come to read their ids, it is so only in such a run. -/
theorem workerIdentity_iff (hrun : Run ServerStep (serverStart n param) history s) :
    ((∀ t ∈ history, InTime t) → WorkerIdentity s ∧ ∀ t ∈ history, WorkerIdentity t.pre) ∧
      ((∀ i, (s.workers i).pc.hasId = true) →
        (WorkerIdentity s ↔ ∀ t ∈ history, InTime t)) := by
  have hidentity (htime : ∀ t ∈ history, InTime t) :
      WorkerIdentity s ∧ ∀ t ∈ history, WorkerIdentity t.pre := by
    have hstep : ∀ (s : Server n) e s', (MainInv s ∧ AllOk s) →
        (InTime ⟨s, e, s'⟩ ∧ ServerStep s e s') → MainInv s' ∧ AllOk s' := by
      rintro s e s' ⟨hinv, hok⟩ ⟨htime, hstep⟩
      exact ⟨hinv.step hstep, allOk_step hinv hok hstep htime⟩
    have hstart : AllOk (serverStart n param) := fun i =>
      ⟨nofun, nofun, nofun, nofun, by rintro (h | h | h) <;> cases h⟩
    obtain ⟨⟨hinv, hok⟩, hall⟩ :=
      (hrun.restrict htime).invariant hstep ⟨mainInv_serverStart param, hstart⟩
    exact ⟨workerIdentity_of_allOk hinv hok,
      fun t ht => workerIdentity_of_allOk (hall t ht).1.1 (hall t ht).1.2⟩
  refine ⟨hidentity, fun hread => ⟨fun h => ?_, fun htime => (hidentity htime).1⟩⟩
  exact inTime_of_run hrun hread fun i => h.id_eq i (hread i)

end Run

end Server

/-- Two slaves connect, and each worker gets going before the next is created. -/
def connectInOrder : List (ServerEvent 2) :=
  [.accept 10, .main, .main, .main, .worker 0, .worker 0, .main,
    .accept 11, .main, .main, .main, .worker 1, .worker 1, .main]

/-- Two slaves connect, and the first worker gets going when the second slave is accepted. -/
def connectLate : List (ServerEvent 2) :=
  [.accept 10, .main, .main, .main, .main, .accept 11, .main, .main,
    .worker 0, .worker 0, .main, .worker 1, .worker 1, .main]

/-- The events, from the start. -/
def runEvents (events : List (ServerEvent 2)) :
    Option (List (ServerTransition 2) × Server 2) :=
  followSome runServer events (serverStart 2 0)

/-- The sockets the two workers serve. -/
def served (s : Server 2) : Option ℕ × Option ℕ := ((s.workers 0).clientFd, (s.workers 1).clientFd)

/-- Both slaves send CONNECT_REQUEST, and the first worker wakes up once too early. -/
def connectBoth : List (ServerEvent 2) :=
  connectInOrder ++
    [.receive 0 .connectRequest, .worker 0, .worker 0, .worker 0, .worker 0,
      .wakeUp 0, .worker 0, .worker 0,
      .receive 1 .connectRequest, .worker 1, .worker 1, .worker 1, .worker 1, .worker 1, .worker 1,
      .worker 1,
      .worker 0, .worker 0, .worker 0, .worker 0, .worker 0]

/-- How often the two workers have written START_MESSAGE. -/
def started (s : Server 2) : ℕ × ℕ := ((s.workers 0).starts, (s.workers 1).starts)

theorem workerIdentity_iff_inOrder :
    ∃ history s, Run ServerStep (serverStart 2 0) history s ∧ served s = (some 10, some 11) ∧
      WorkerIdentity s := by
  have hend : (runEvents connectInOrder).map (fun r => (served r.2, r.1.all (InTime ·)))
      = some ((some 10, some 11), true) := by
    decide
  obtain ⟨⟨history, s⟩, hfollow, hs⟩ := Option.map_eq_some_iff.mp hend
  obtain ⟨hserved, htime⟩ := Prod.mk.inj hs
  have hrun : Run ServerStep (serverStart 2 0) history s := Run.of_followSome hfollow
  refine ⟨history, s, hrun, hserved, ((workerIdentity_iff hrun).1 ?_).1⟩
  intro t ht
  exact of_decide_eq_true (List.all_eq_true.mp htime t ht)

/-- Both workers serve the second slave, and both will start the SNMP thread. -/
theorem not_workerIdentity_late :
    ∃ history s, Run ServerStep (serverStart 2 0) history s ∧ served s = (some 11, some 11) ∧
      s.reports 0 = some 10 ∧ ¬ WorkerIdentity s := by
  have hend : (runEvents connectLate).map (fun r => (served r.2, r.2.reports 0,
      (r.2.workers 0).pc.hasSock, (r.2.workers 1).pc.hasSock))
        = some ((some 11, some 11), some 10, true, true) := by
    decide
  obtain ⟨⟨history, s⟩, hrun, hs⟩ := Option.map_eq_some_iff.mp hend
  obtain ⟨hserved, hs⟩ := Prod.mk.inj hs
  obtain ⟨hreports, hs⟩ := Prod.mk.inj hs
  obtain ⟨h0, h1⟩ := Prod.mk.inj hs
  obtain ⟨hserved0, hserved1⟩ := Prod.mk.inj hserved
  refine ⟨history, s, Run.of_followSome hrun, hserved, hreports, ?_⟩
  intro hid
  exact absurd (hid.serves_inj 0 1 h0 h1 (hserved0.trans hserved1.symm)) (by decide)

end OfcBenchmark
