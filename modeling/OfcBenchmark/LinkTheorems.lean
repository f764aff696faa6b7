import OfcBenchmark.NetworkTheorems

/-!
# Who is connected to whom

Each slave has one connection, each accepted connection one descriptor, and each descriptor,
where the main thread of the master writes `param` in time, one worker. So two workers have
different slaves (`slaveOf_inj`), and a worker keeps its slave (`slaveOf_step`).
-/

namespace OfcBenchmark
open Printf Runs

/-! ## The server -/

section Server

variable {n : ℕ} {s s' : Server n} {i : Fin n}

/-- A worker that has done nothing yet. -/
structure Worker.New (w : Worker) : Prop where
  clientFd_eq : w.clientFd = none
  messageReceived_eq : w.messageReceived = 0
  starts_eq : w.starts = 0

/-- The server is in order: in particular each worker knows its id. -/
structure Server.InOrder (s : Server n) : Prop where
  regular : s.Regular
  ok : AllOk s
  new : ∀ i, (s.workers i).pc.hasSock = false → (s.workers i).New

theorem new_nextWorker {w w' : Worker} (h : NextWorker s w w')
    (hnew : w.pc.hasSock = false → w.New) (hsock : w'.pc.hasSock = false) : w'.New := by
  cases h with
  | readId hpc =>
    obtain ⟨hfd, hreceived, hstarts⟩ := hnew (by rw [hpc]; rfl)
    exact ⟨hfd, hreceived, hstarts⟩
  | move hmoves _ => cases hmoves.hasSock_next.symm.trans hsock
  | _ => cases hsock

theorem hasSock_woken (w : Worker) : w.woken.pc.hasSock = w.pc.hasSock := by
  unfold Worker.woken
  split
  case isTrue hpc =>
    rw [hpc]
    rfl
  case isFalse => rfl

theorem clientFd_woken (w : Worker) : w.woken.clientFd = w.clientFd := by
  unfold Worker.woken
  split <;> rfl

theorem Worker.New.woken {w : Worker} (h : w.New) : w.woken.New := by
  unfold Worker.woken
  split
  · exact ⟨h.1, h.2, h.3⟩
  · exact h

/-- The worker that the main thread creates, and the others. -/
theorem workers_mainStep (h : MainStep s s') (i : Fin n) :
    s'.workers i = s.workers i ∨
      (s.main = .create ∧ s.index = i ∧ s'.workers i = { s.workers i with pc := .readId }) := by
  cases h with
  | create hlt hmain =>
    by_cases hi : i = ⟨s.index, hlt⟩
    · refine .inr ⟨hmain, (congrArg Fin.val hi).symm, ?_⟩
      rw [hi]
      exact Function.update_self _ _ _
    · exact .inl (Function.update_of_ne hi _ _)
  | _ => exact .inl rfl

namespace Server.InOrder

theorem step (h : s.InOrder) {e : ServerEvent n} (hstep : ServerStep s e s')
    (htime : InTime ⟨s, e, s'⟩) : s'.InOrder := by
  refine ⟨regular_step s e s' h.regular hstep, allOk_step h.regular.1 h.ok hstep htime,
    fun i hi => ?_⟩
  rcases serverStep_cases hstep with ⟨-, hmain⟩ | ⟨j, w, -, hturn, hnext⟩ | ⟨_, _, -, rfl⟩
  · rcases workers_mainStep hmain i with hsame | ⟨hcreate, hindex, hworker⟩
    · rw [hsame] at hi ⊢
      exact h.new i hi
    · have hnone : (s.workers i).pc = .none := by
        rw [h.regular.1.created, Server.created, hcreate, if_neg (by decide), hindex]
      obtain ⟨hfd, hreceived, hstarts⟩ := h.new i (by rw [hnone]; rfl)
      rw [hworker]
      exact ⟨hfd, hreceived, hstarts⟩
  · by_cases hij : i = j
    · rw [hij, hturn.self] at hi ⊢
      exact new_nextWorker hnext (h.new j) hi
    · rcases hturn.others i hij with hsame | hwoken
      · rw [hsame] at hi ⊢
        exact h.new i hi
      · rw [hwoken] at hi ⊢
        rw [hasSock_woken] at hi
        exact (h.new i hi).woken
  · exact h.new i hi

theorem start (param : ℕ) : (serverStart n param).InOrder where
  regular := regular_serverStart param
  ok := fun _ => ⟨nofun, nofun, nofun, fun h => absurd h (lt_irrefl 0),
    fun h => (h.resolve_left (lt_irrefl 0)).elim nofun nofun⟩
  new := fun _ _ => ⟨rfl, rfl, rfl⟩

/-- Who has a descriptor has read it. -/
theorem hasSock (h : s.InOrder) {fd : ℕ} (hfd : (s.workers i).clientFd = some fd) :
    (s.workers i).pc.hasSock = true := by
  by_contra hsock
  rw [(h.new i (Bool.eq_false_of_not_eq_true hsock)).clientFd_eq] at hfd
  cases hfd

/-- It is the one that the main thread has stored. -/
theorem reports_eq (h : s.InOrder) {fd : ℕ} (hfd : (s.workers i).clientFd = some fd) :
    s.reports i = some fd :=
  ((h.ok i).clientFd_eq (h.hasSock hfd)).symm.trans hfd

/-- Two workers have different ones. -/
theorem clientFd_inj (h : s.InOrder) {fd : ℕ} {j : Fin n} (hi : (s.workers i).clientFd = some fd)
    (hj : (s.workers j).clientFd = some fd) : i = j :=
  (workerIdentity_of_allOk h.regular.1 h.ok).serves_inj i j (h.hasSock hi) (h.hasSock hj)
    (hi.trans hj.symm)

end Server.InOrder

theorem workers_wakeUp (h : s.wakeUp i = some s') : s'.workers i = (s.workers i).woken := by
  unfold Server.wakeUp at h
  split at h
  case isTrue hpc =>
    cases h
    unfold Worker.woken
    rw [if_pos hpc]
    exact Function.update_self _ _ _
  case isFalse => cases h

/-- A worker keeps its descriptor. -/
theorem clientFd_step {e : ServerEvent n} (hstep : ServerStep s e s') {fd : ℕ}
    (hsock : (s.workers i).pc.hasSock = true) (hfd : (s.workers i).clientFd = some fd) :
    (s'.workers i).clientFd = some fd := by
  rcases serverStep_cases hstep with ⟨-, hmain⟩ | ⟨j, w, -, hturn, hnext⟩ | ⟨_, _, -, rfl⟩
  · rcases workers_mainStep hmain i with hsame | ⟨-, -, hworker⟩
    · rw [hsame, hfd]
    · rw [hworker, hfd]
  · by_cases hij : i = j
    · rw [hij, hturn.self]
      rw [hij] at hsock hfd
      cases hnext with
      | readSock _ hpc =>
        rw [hpc] at hsock
        cases hsock
      | _ => exact hfd
    · rcases hturn.others i hij with hsame | hwoken
      · rw [hsame, hfd]
      · rw [hwoken, clientFd_woken, hfd]
  · exact hfd

/-- And gets it when it reads it from `reports`. -/
theorem clientFd_turn {w : Worker} (h : Turn s s' i w) (hnext : NextWorker s (s.workers i) w)
    (j : Fin n) : (s'.workers j).clientFd = (s.workers j).clientFd ∨
      (j = i ∧ (s.workers j).pc = .readSock) := by
  by_cases hj : j = i
  · rw [hj, h.self]
    cases hnext with
    | readSock _ hpc => exact .inr ⟨rfl, hpc⟩
    | _ => exact .inl rfl
  · rcases h.others j hj with hsame | hwoken
    · exact .inl (congrArg Worker.clientFd hsame)
    · rw [hwoken, clientFd_woken]
      exact .inl rfl

/-- The descriptors of accepted connections. -/
def Server.Open (s : Server n) (fd : ℕ) : Prop :=
  (∃ i, s.reports i = some fd) ∨ (s.main = .storeSock ∧ s.clientFd = fd)

theorem open_accept {fd fd' : ℕ} (h : s.accept fd = some s') :
    s'.Open fd' ↔ s.Open fd' ∨ fd' = fd := by
  unfold Server.accept at h
  split at h
  case isTrue hguard =>
    cases h
    unfold Server.Open
    dsimp only
    rw [hguard.1]
    constructor
    · rintro (hreports | ⟨-, rfl⟩)
      · exact .inl (.inl hreports)
      · exact .inr rfl
    · rintro ((hreports | ⟨hmain, -⟩) | rfl)
      · exact .inl hreports
      · cases hmain
      · exact .inr ⟨rfl, rfl⟩
  case isFalse => cases h

/-- The descriptor is a new one. -/
theorem not_open_of_accept {fd : ℕ} (h : s.accept fd = some s') : ¬ s.Open fd := by
  unfold Server.accept at h
  split at h
  case isTrue hguard =>
    rintro (⟨i, hi⟩ | ⟨hmain, -⟩)
    · exact hguard.2 i hi
    · cases hguard.1.symm.trans hmain
  case isFalse => cases h

theorem open_storeSock (hinv : MainInv s) (hlt : s.index < n) (hmain : s.main = .storeSock)
    {fd : ℕ} :
    Server.Open { s with
        main := .storeParam
        reports := Function.update s.reports ⟨s.index, hlt⟩ (some s.clientFd) } fd ↔ s.Open fd := by
  have hnone : s.reports ⟨s.index, hlt⟩ = none := by
    have hstored := hinv.stored ⟨s.index, hlt⟩
    rw [Server.stored, hmain] at hstored
    exact Option.not_isSome_iff_eq_none.mp fun hsome => lt_irrefl _ (hstored.mp hsome)
  constructor
  · rintro (⟨i, hi⟩ | ⟨hstore, -⟩)
    · dsimp only at hi
      by_cases hij : i = ⟨s.index, hlt⟩
      · rw [hij, Function.update_self] at hi
        exact .inr ⟨hmain, Option.some.inj hi⟩
      · rw [Function.update_of_ne hij] at hi
        exact .inl ⟨i, hi⟩
    · cases hstore
  · rintro (⟨i, hi⟩ | ⟨-, rfl⟩)
    · refine .inl ⟨i, ?_⟩
      have hij : i ≠ ⟨s.index, hlt⟩ := by
        rintro rfl
        rw [hnone] at hi
        cases hi
      exact (Function.update_of_ne hij _ _).trans hi
    · exact .inl ⟨_, Function.update_self _ _ _⟩

/-- Only `accept` opens connections, and none is closed. -/
theorem open_mainStep (hinv : MainInv s) (h : MainStep s s') (hmain : s.main ≠ .accept) (fd : ℕ) :
    s'.Open fd ↔ s.Open fd := by
  have hkeep {main : MainPc} {index param : ℕ} {workers : Fin n → Worker}
      (hstore : s.main ≠ .storeSock) (hstore' : main ≠ .storeSock) :
      Server.Open { s with main := main, index := index, param := param, workers := workers } fd
        ↔ s.Open fd :=
    or_congr_right ⟨fun h => absurd h.1 hstore', fun h => absurd h.1 hstore⟩
  cases h with
  | accept _ haccept => exact absurd haccept hmain
  | storeSock hlt hstore => exact open_storeSock hinv hlt hstore
  | storeParam hpc => exact hkeep (by rw [hpc]; nofun) nofun
  | create hlt hpc => exact hkeep (by rw [hpc]; nofun) nofun
  | next hpc hnext =>
    rcases hnext with rfl | rfl <;> exact hkeep (by rw [hpc]; nofun) nofun
  | join hpc hnext =>
    rcases hnext with rfl | ⟨k, rfl⟩ <;> exact hkeep (by rw [hpc]; nofun) nofun

theorem Turn.open_iff {w : Worker} (h : Turn s s' i w) (fd : ℕ) : s'.Open fd ↔ s.Open fd := by
  unfold Server.Open
  rw [h.reports_eq, h.main_eq, h.clientFd_eq]

end Server

section Network

variable {n : ℕ} {κ : Type} [DecidableEq κ] {report : κ → Queues}
  {s s' : Network n κ} {e : NetworkEvent n κ} {i j : Fin n} {k : κ}

/-! ## The connections -/

/-- Which connections there are: each slave has one, which waits in the backlog, is accepted as
one descriptor, or has not been made yet. -/
structure Connected (s : Network n κ) : Prop where
  nodup : s.backlog.Nodup
  waiting : ∀ k ∈ s.backlog, s.slaves k ≠ .connect ∧ ∀ fd, s.peer fd ≠ some k
  connected : ∀ fd k, s.peer fd = some k → s.slaves k ≠ .connect
  inj : ∀ fd fd' k, s.peer fd = some k → s.peer fd' = some k → fd = fd'
  known : ∀ fd, (s.peer fd).isSome = true ↔ s.server.Open fd
  reached : ∀ k, s.slaves k ≠ .connect → k ∈ s.backlog ∨ ∃ fd, s.peer fd = some k

theorem open_move (h : NetworkMove report s e s') (hinv : MainInv s.server)
    (hne : ∀ fd, e ≠ .accept fd) (fd : ℕ) : s'.server.Open fd ↔ s.server.Open fd := by
  cases h with
  | connect | write | readStart | benchmark | readChar | readPart | readText | lockPlot
  | unlockPlot => exact Iff.rfl
  | accept fd => exact absurd rfl (hne fd)
  | main hserver =>
    refine open_mainStep hinv (mainStep_serverSide hserver) (fun hmain => ?_) fd
    rw [serverSide, hmain] at hserver
    cases hserver
  | worker i hserver _ | sendStart i hserver _ =>
    obtain ⟨w, hturn, -⟩ := exists_turn_clientManagement hserver
    exact hturn.open_iff fd
  | readMessage i _ _ _ _ hserver =>
    obtain ⟨-, w, hturn, -⟩ := exists_turn_receive hserver
    exact hturn.open_iff fd
  | plotNode i _ hserver =>
    obtain ⟨-, w, hturn, -⟩ := exists_turn_readReport hserver
    exact hturn.open_iff fd
  | wakeUp i hserver =>
    obtain ⟨-, w, hturn, -⟩ := exists_turn_wakeUp hserver
    exact hturn.open_iff fd
  | snmp _ hserver =>
    obtain ⟨_, -, rfl⟩ := asynchronousSnmp_frame hserver
    exact Iff.rfl

/-- A slave connects only once. -/
theorem slaves_move (h : NetworkMove report s e s') (hne : ∀ k, e ≠ .connect k) (k : κ) :
    s'.slaves k ≠ .connect ↔ s.slaves k ≠ .connect := by
  have hupdate {j : κ} {pc : SlavePc} (hpc : pc ≠ .connect) (hj : s.slaves j ≠ .connect) :
      Function.update s.slaves j pc k ≠ .connect ↔ s.slaves k ≠ .connect := by
    by_cases hk : k = j
    · rw [hk, Function.update_self]
      exact iff_of_true hpc hj
    · rw [Function.update_of_ne hk]
  cases h with
  | connect j => exact absurd rfl (hne j)
  | write j m hpos hle =>
    have hj : s.slaves j ≠ .connect := fun hj => by
      rw [hj] at hle
      exact absurd (hpos.trans_le hle) (lt_irrefl 0)
    exact hupdate (SlavePc.wrote_ne_connect hj m) hj
  | readStart j behind hj =>
    refine hupdate ?_ (by rw [hj]; nofun)
    unfold SlavePc.gotStart
    split <;> nofun
  | benchmark j hj => exact hupdate nofun (by rw [hj]; nofun)
  | _ => exact Iff.rfl

/-- Connections are made and accepted in two kinds of steps. -/
theorem links_move (h : NetworkMove report s e s') (hconnect : ∀ k, e ≠ .connect k)
    (haccept : ∀ fd, e ≠ .accept fd) : s'.backlog = s.backlog ∧ s'.peer = s.peer := by
  cases h with
  | connect k => exact absurd rfl (hconnect k)
  | accept fd => exact absurd rfl (haccept fd)
  | _ => exact ⟨rfl, rfl⟩

namespace Connected

theorem connect (h : Connected s) (hk : s.slaves k = .connect) :
    Connected { s with
        slaves := Function.update s.slaves k (.sendRequest CONNECT_REQUEST_MESSAGE)
        backlog := s.backlog ++ [k] } := by
  have hupdate (j : κ) : Function.update s.slaves k (.sendRequest CONNECT_REQUEST_MESSAGE) j
      ≠ .connect ↔ s.slaves j ≠ .connect ∨ j = k := by
    by_cases hj : j = k
    · rw [hj, Function.update_self]
      exact iff_of_true nofun (.inr rfl)
    · rw [Function.update_of_ne hj, or_iff_left hj]
  have hpeer (fd : ℕ) : s.peer fd ≠ some k := fun hfd => h.connected fd k hfd hk
  refine ⟨?_, fun j hj => ?_, fun fd j hfd => (hupdate j).mpr (.inl (h.connected fd j hfd)), h.inj,
    h.known, fun j hj => ?_⟩
  · refine List.nodup_append.mpr ⟨h.nodup, List.nodup_singleton k, fun j hj j' hj' heq => ?_⟩
    rw [List.mem_singleton.mp hj'] at heq
    exact (h.waiting j hj).1 (heq ▸ hk)
  · rcases List.mem_append.mp hj with hj | hj
    · exact ⟨(hupdate j).mpr (.inl (h.waiting j hj).1), (h.waiting j hj).2⟩
    · rw [List.mem_singleton.mp hj]
      exact ⟨(hupdate k).mpr (.inr rfl), hpeer⟩
  · rcases (hupdate j).mp hj with hj | rfl
    · exact (h.reached j hj).imp_left (List.mem_append_left _)
    · exact .inl (List.mem_append_right _ (List.mem_singleton_self _))

omit [DecidableEq κ] in
theorem accept (h : Connected s) {fd : ℕ} {backlog : List κ} {server : Server n}
    (hbacklog : s.backlog = k :: backlog) (hserver : s.server.accept fd = some server) :
    Connected { s with server := server, backlog := backlog
                       peer := Function.update s.peer fd (some k) } := by
  obtain ⟨hwaitk, hpeerk⟩ := h.waiting k (by rw [hbacklog]; exact List.mem_cons_self)
  have hnodup := h.nodup
  rw [hbacklog, List.nodup_cons] at hnodup
  have hpeer (fd' : ℕ) (j : κ) : Function.update s.peer fd (some k) fd' = some j ↔
      (fd' = fd ∧ j = k) ∨ (fd' ≠ fd ∧ s.peer fd' = some j) := by
    by_cases hfd : fd' = fd
    · rw [hfd, Function.update_self]
      simp [eq_comm]
    · rw [Function.update_of_ne hfd]
      simp [hfd]
  refine ⟨hnodup.2, fun j hj => ?_, fun fd' j hfd => ?_, fun fd' fd'' j hfd hfd' => ?_,
    fun fd' => ?_, fun j hj => ?_⟩
  · obtain ⟨hslave, hnone⟩ := h.waiting j (by rw [hbacklog]; exact List.mem_cons_of_mem k hj)
    refine ⟨hslave, fun fd' hfd => ?_⟩
    rcases (hpeer fd' j).mp hfd with ⟨-, rfl⟩ | ⟨-, hfd⟩
    · exact hnodup.1 hj
    · exact hnone fd' hfd
  · rcases (hpeer fd' j).mp hfd with ⟨-, rfl⟩ | ⟨-, hfd⟩
    · exact hwaitk
    · exact h.connected fd' j hfd
  · rcases (hpeer fd' j).mp hfd with ⟨hnew, hj⟩ | ⟨-, hold⟩ <;>
      rcases (hpeer fd'' j).mp hfd' with ⟨hnew', hj'⟩ | ⟨-, hold'⟩
    · rw [hnew, hnew']
    · exact absurd (hj ▸ hold') (hpeerk fd'')
    · exact absurd (hj' ▸ hold) (hpeerk fd')
    · exact h.inj fd' fd'' j hold hold'
  · rw [open_accept hserver, ← h.known]
    by_cases hfd : fd' = fd
    · rw [hfd]
      dsimp only
      rw [Function.update_self]
      simp
    · dsimp only
      rw [Function.update_of_ne hfd, or_iff_left hfd]
  · rcases h.reached j hj with hmem | ⟨fd', hfd⟩
    · rw [hbacklog] at hmem
      rcases List.mem_cons.mp hmem with rfl | hmem
      · exact .inr ⟨fd, (hpeer fd j).mpr (.inl ⟨rfl, rfl⟩)⟩
      · exact .inl hmem
    · refine .inr ⟨fd', (hpeer fd' j).mpr (.inr ⟨?_, hfd⟩)⟩
      rintro rfl
      exact not_open_of_accept hserver ((h.known fd').mp (by rw [hfd]; rfl))

theorem step (h : Connected s) (hinv : MainInv s.server) (hmove : NetworkMove report s e s') :
    Connected s' := by
  by_cases hconnect : ∃ k, e = .connect k
  · obtain ⟨k, rfl⟩ := hconnect
    cases hmove with
    | connect _ hk => exact h.connect hk
  · by_cases haccept : ∃ fd, e = .accept fd
    · obtain ⟨fd, rfl⟩ := haccept
      cases hmove with
      | accept _ hbacklog hserver => exact h.accept hbacklog hserver
    · rw [not_exists] at hconnect haccept
      obtain ⟨hbacklog, hpeer⟩ := links_move hmove hconnect haccept
      have hslaves := slaves_move hmove hconnect
      refine ⟨hbacklog ▸ h.nodup, fun k hk => ?_, fun fd k hfd => ?_, fun fd fd' k => ?_,
        fun fd => ?_, fun k hk => ?_⟩
      · rw [hbacklog] at hk
        rw [hslaves, hpeer]
        exact h.waiting k hk
      · rw [hpeer] at hfd
        exact (hslaves k).mpr (h.connected fd k hfd)
      · rw [hpeer]
        exact h.inj fd fd' k
      · rw [hpeer, open_move hmove hinv haccept]
        exact h.known fd
      · rw [hbacklog, hpeer]
        exact h.reached k ((hslaves k).mp hk)

end Connected

/-! ## Who serves whom -/

/-- What is in order in the whole network. -/
structure Network.InOrder (s : Network n κ) : Prop where
  server : s.server.InOrder
  links : Connected s

theorem Network.InOrder.step (h : s.InOrder) (hmove : NetworkMove report s e s')
    (htime : NetworkInTime ⟨s, e, s'⟩) : s'.InOrder := by
  refine ⟨?_, h.links.step h.server.regular.1 hmove⟩
  rcases server_step hmove with hsame | ⟨e', hstep, htime'⟩
  · rw [hsame]
    exact h.server
  · exact h.server.step hstep (htime' htime)

omit [DecidableEq κ] in
theorem slaveOf_eq_some : s.slaveOf i = some k ↔
    ∃ fd, (s.server.workers i).clientFd = some fd ∧ s.peer fd = some k :=
  Option.bind_eq_some_iff

omit [DecidableEq κ] in
/-- Two workers have different slaves. -/
theorem slaveOf_inj (h : s.InOrder) (hi : s.slaveOf i = some k) (hj : s.slaveOf j = some k) :
    i = j := by
  obtain ⟨fd, hfd, hpeer⟩ := slaveOf_eq_some.mp hi
  obtain ⟨fd', hfd', hpeer'⟩ := slaveOf_eq_some.mp hj
  rw [← h.links.inj fd fd' k hpeer hpeer'] at hfd'
  exact h.server.clientFd_inj hfd hfd'

omit [DecidableEq κ] in
theorem hasSock_of_slaveOf (h : s.InOrder) (hi : s.slaveOf i = some k) :
    (s.server.workers i).pc.hasSock = true := by
  obtain ⟨fd, hfd, -⟩ := slaveOf_eq_some.mp hi
  exact h.server.hasSock hfd

/-- A worker keeps its slave. -/
theorem slaveOf_step (h : s.InOrder) (hmove : NetworkMove report s e s')
    (hi : s.slaveOf i = some k) : s'.slaveOf i = some k := by
  obtain ⟨fd, hfd, hpeer⟩ := slaveOf_eq_some.mp hi
  refine slaveOf_eq_some.mpr ⟨fd, ?_, ?_⟩
  · rcases server_step hmove with hsame | ⟨e', hstep, -⟩
    · rw [hsame]
      exact hfd
    · exact clientFd_step hstep (h.server.hasSock hfd) hfd
  · cases hmove with
    | accept fd' _ hserver =>
      have hne : fd ≠ fd' := by
        rintro rfl
        exact not_open_of_accept hserver (.inl ⟨i, h.server.reports_eq hfd⟩)
      exact (Function.update_of_ne hne _ _).trans hpeer
    | _ => exact hpeer

/-- A worker gets its slave when it reads its socket. -/
theorem slaveOf_new (h : s.InOrder) (hmove : NetworkMove report s e s')
    (hnone : s.slaveOf i = none) (hi : s'.slaveOf i = some k) :
    ∃ server, s' = { s with server := server } ∧ clientManagement s.server i = some server ∧
      (s.server.workers i).pc = .readSock := by
  obtain ⟨fd, hfd, hpeer⟩ := slaveOf_eq_some.mp hi
  have hkeep (hfd' : (s'.server.workers i).clientFd = (s.server.workers i).clientFd)
      (hpeer' : s'.peer = s.peer) : False := by
    unfold Network.slaveOf at hnone hi
    rw [hfd', hpeer', hnone] at hi
    cases hi
  have hturn {j : Fin n} {w : Worker} (hturn : Turn s.server s'.server j w)
      (hnext : NextWorker s.server (s.server.workers j) w) (hpeer' : s'.peer = s.peer) :
      i = j ∧ (s.server.workers i).pc = .readSock := by
    rcases clientFd_turn hturn hnext i with hsame | hnew
    · exact absurd hpeer' fun hpeer' => hkeep hsame hpeer'
    · exact hnew
  cases hmove with
  | accept fd' _ hserver =>
    exfalso
    rcases workers_mainStep (mainStep_accept hserver) i with hsame | ⟨hcreate, -⟩
    · dsimp only at hfd hpeer
      rw [hsame] at hfd
      by_cases hne : fd = fd'
      · exact not_open_of_accept hserver (.inl ⟨i, hne ▸ h.server.reports_eq hfd⟩)
      · rw [Function.update_of_ne hne] at hpeer
        rw [slaveOf_eq_some.mpr ⟨fd, hfd, hpeer⟩] at hnone
        cases hnone
    · rw [Server.accept, hcreate, if_neg (by simp)] at hserver
      cases hserver
  | main hserver =>
    refine (hkeep ?_ rfl).elim
    rcases workers_mainStep (mainStep_serverSide hserver) i with hsame | ⟨-, -, hworker⟩
    · exact congrArg Worker.clientFd hsame
    · dsimp only
      rw [hworker]
  | worker j hserver hpc =>
    obtain ⟨w, hturn', hnext⟩ := exists_turn_clientManagement hserver
    obtain ⟨rfl, hsock⟩ := hturn hturn' hnext rfl
    exact ⟨_, rfl, hserver, hsock⟩
  | sendStart j hserver hpc =>
    obtain ⟨w, hturn', hnext⟩ := exists_turn_clientManagement hserver
    obtain ⟨rfl, hsock⟩ := hturn hturn' hnext rfl
    cases hpc.symm.trans hsock
  | readMessage j _ _ hpc _ hserver =>
    obtain ⟨-, w, hturn', hnext⟩ := exists_turn_receive hserver
    obtain ⟨rfl, hsock⟩ := hturn hturn' hnext rfl
    cases hpc.symm.trans hsock
  | plotNode j _ hserver =>
    obtain ⟨hpc, w, hturn', hnext⟩ := exists_turn_readReport hserver
    obtain ⟨rfl, hsock⟩ := hturn hturn' hnext rfl
    cases hpc.symm.trans hsock
  | wakeUp j hserver =>
    obtain ⟨hpc, w, hturn', hnext⟩ := exists_turn_wakeUp hserver
    obtain ⟨rfl, hsock⟩ := hturn hturn' hnext rfl
    cases hpc.symm.trans hsock
  | snmp _ hserver =>
    obtain ⟨_, -, rfl⟩ := asynchronousSnmp_frame hserver
    exact (hkeep rfl rfl).elim
  | _ => exact (hkeep rfl rfl).elim

end Network

end OfcBenchmark
