import OfcBenchmark.LinkTheorems
import OfcBenchmark.SamplingTheorems
import OfcBenchmark.SessionTheorems

/-!
# The reports arrive

Where the main thread of the master writes `param` in time, every step of the network is one of the
sessions between a worker and its slave, or of a slave that nobody serves yet (`Sessions.step`).
So in every order of steps each slave is sent one START_MESSAGE at most, and its report is enqueued
as it was written (`reports_delivered`).
-/

namespace OfcBenchmark
open Printf Runs

section Network

variable {n : ℕ} {κ : Type} [DecidableEq κ] {report : κ → Queues}
  {s s' : Network n κ} {e : NetworkEvent n κ} {i j : Fin n} {k : κ}

/-! ## Sessions in the network -/

/-- What worker `i` has put into `myreport`. -/
def Network.mine (s : Network n κ) (i : Fin n) : List Block :=
  (s.myreport.filter fun b => b.1 = i).map Prod.snd

/-- The session of worker `i` and slave `k`. -/
def Network.session (s : Network n κ) (i : Fin n) (k : κ) : Session where
  worker := s.server.workers i
  buffer := s.buffer i
  reading := s.reading i
  slave := s.slaves k
  toMaster := s.toMaster k
  toSlave := s.toSlave k
  general := s.generalReport i
  mine := s.mine i

omit [DecidableEq κ] in
/-- A step of others, which may wake up the worker. -/
theorem session_others {text : Text}
    (hworker : s'.server.workers i = s.server.workers i ∨
      s'.server.workers i = (s.server.workers i).woken)
    (hbuffer : s'.buffer i = s.buffer i) (hreading : s'.reading i = s.reading i)
    (hslave : s'.slaves k = s.slaves k) (htoMaster : s'.toMaster k = s.toMaster k)
    (htoSlave : s'.toSlave k = s.toSlave k) (hgeneral : s'.generalReport i = s.generalReport i)
    (hmine : s'.mine i = s.mine i) :
    s'.session i k = s.session i k ∨ SessionStep n text (s.session i k) (s'.session i k) := by
  unfold Network.session
  rw [hbuffer, hreading, hslave, htoMaster, htoSlave, hgeneral, hmine]
  rcases hworker with hsame | hwoken
  · rw [hsame]
    exact .inl rfl
  · rw [hwoken]
    exact .inr .woken

omit [DecidableEq κ] in
theorem mine_enqueue_self (blocks : List Block) :
    (s.enqueue i blocks).mine i = s.mine i ++ blocks.filter fun block => block.type ≠ .values := by
  let new := (blocks.filter fun block => block.type ≠ .values).map fun block => (i, block)
  have hall : new.filter (fun b => b.1 = i) = new := by
    refine List.filter_eq_self.mpr fun b hb => ?_
    obtain ⟨block, -, rfl⟩ := List.mem_map.mp hb
    exact decide_eq_true rfl
  show ((s.myreport ++ new).filter _).map _ = _
  rw [List.filter_append, hall, List.map_append, List.map_map]
  exact congrArg (s.mine i ++ ·) (List.map_id _)

omit [DecidableEq κ] in
theorem mine_enqueue_of_ne (blocks : List Block) (hij : i ≠ j) :
    (s.enqueue j blocks).mine i = s.mine i := by
  let new := (blocks.filter fun block => block.type ≠ .values).map fun block => (j, block)
  have hnone : new.filter (fun b => b.1 = i) = [] := by
    refine List.filter_eq_nil_iff.mpr fun b hb => ?_
    obtain ⟨block, -, rfl⟩ := List.mem_map.mp hb
    exact fun heq => hij (of_decide_eq_true heq).symm
  show ((s.myreport ++ new).filter _).map _ = _
  rw [List.filter_append, hnone, List.append_nil]
  rfl

omit [DecidableEq κ] in
/-- The worker that does not read goes on. -/
theorem session_worker {server : Server n}
    (hserver : clientManagement s.server j = some server)
    (hstart : (s.server.workers j).pc ≠ .sendStart) {text : Text} :
    Network.session { s with server := server } i k = s.session i k ∨
      SessionStep n text (s.session i k) (Network.session { s with server := server } i k) := by
  obtain ⟨w, hturn, hnext⟩ := exists_turn_clientManagement hserver
  by_cases hij : i = j
  · rw [hij]
    have hsession : Network.session { s with server := server } j k
        = { s.session j k with worker := w } := by
      unfold Network.session
      rw [hturn.self]
      rfl
    rw [hsession]
    refine .inr (.turn hnext ?_ ?_ hstart fun hpc => ?_)
    · intro hpc
      change (s.server.workers j).pc = _ at hpc
      rw [clientManagement, hpc] at hserver
      cases hserver
    · intro hpc
      change (s.server.workers j).pc = _ at hpc
      rw [clientManagement, hpc] at hserver
      cases hserver
    · change (s.server.workers j).pc = _ at hpc
      rw [clientManagement, hpc] at hserver
      cases hserver
      rw [← hturn.self]
      show (Function.update s.server.workers j _ j).pc = _
      rw [Function.update_self]
      rfl
  · exact session_others (hturn.others i hij) rfl rfl rfl rfl rfl rfl rfl

/-- The worker of the session reads, or another one does from another slave. -/
theorem session_recv (h : s.InOrder) (hmove : NetworkMove report s (.recv j) s')
    (hi : s.slaveOf i = some k) :
    s'.session i k = s.session i k ∨
      SessionStep n (clientSide (report k)) (s.session i k) (s'.session i k) := by
  have hother {k' : κ} (hj : s.slaveOf j = some k') (hij : i ≠ j) : k ≠ k' := by
    rintro rfl
    exact hij (slaveOf_inj h hi hj)
  cases hmove with
  | @readChar _ k' c rest hslave hto hpc hlen =>
    by_cases hij : i = j
    · subst hij
      obtain rfl : k = k' := Option.some.inj (hi.symm.trans hslave)
      refine .inr ?_
      convert SessionStep.readChar (u := s.session i k) hpc hto hlen using 1
      simp [Network.session, Network.mine]
    · exact session_others (.inl rfl) (Function.update_of_ne hij _ _) rfl rfl
        (Function.update_of_ne (hother hslave hij) _ _) rfl rfl rfl
  | @readMessage _ k' c rest server hslave hto hpc hlen hserver =>
    obtain ⟨-, w, hturn, -⟩ := exists_turn_receive hserver
    by_cases hij : i = j
    · subst hij
      obtain rfl : k = k' := Option.some.inj (hi.symm.trans hslave)
      refine .inr ?_
      have hworker : server.workers i = { s.server.workers i with
          pc := (slaveMessage (s.buffer i ++ [c])).pc } := by
        unfold Server.receive at hserver
        rw [if_pos hpc] at hserver
        cases hm : slaveMessage (s.buffer i ++ [c]) <;> rw [hm] at hserver <;> cases hserver <;>
          exact Function.update_self _ _ _
      convert SessionStep.readMessage (u := s.session i k) hpc hto hlen using 1
      simp [Network.session, Network.mine, hworker]
    · exact session_others (hturn.others i hij) (Function.update_of_ne hij _ _) rfl rfl
        (Function.update_of_ne (hother hslave hij) _ _) rfl rfl rfl
  | @readPart _ k' c rest size hslave hto hpc hsize hloop =>
    by_cases hij : i = j
    · subst hij
      obtain rfl : k = k' := Option.some.inj (hi.symm.trans hslave)
      refine .inr ?_
      convert SessionStep.readPart (u := s.session i k) hpc hto hsize hloop using 1
      simp [Network.session, Network.mine]
    · exact session_others (.inl rfl) (Function.update_of_ne hij _ _) rfl rfl
        (Function.update_of_ne (hother hslave hij) _ _) rfl rfl rfl
  | @readText _ k' c rest size r hslave hto hpc hsize hloop hread =>
    by_cases hij : i = j
    · subst hij
      obtain rfl : k = k' := Option.some.inj (hi.symm.trans hslave)
      refine .inr ?_
      convert SessionStep.readText (u := s.session i k) hpc hto hsize hread using 1
      unfold Network.session
      rw [mine_enqueue_self]
      simp [Network.enqueue, Network.mine]
    · exact session_others (.inl rfl) (Function.update_of_ne hij _ _)
        (Function.update_of_ne hij _ _) rfl (Function.update_of_ne (hother hslave hij) _ _) rfl
        (Function.update_of_ne hij _ _) (mine_enqueue_of_ne _ hij)

omit [DecidableEq κ] in
/-- The worker of the session is between two parts of its report, or another one is. -/
theorem session_report {reading : ReportPc} {plotLock : Option (Fin n)} {text : Text}
    (hstep : i = j →
      SessionStep n text (s.session i k) { s.session i k with reading := reading }) :
    Network.session { s with plotLock := plotLock
                             reading := Function.update s.reading j reading } i k
        = s.session i k ∨
      SessionStep n text (s.session i k) (Network.session
        { s with plotLock := plotLock
                 reading := Function.update s.reading j reading } i k) := by
  by_cases hij : i = j
  · refine .inr ?_
    convert hstep hij using 1
    simp [Network.session, Network.mine, hij]
  · exact session_others (.inl rfl) rfl (Function.update_of_ne hij _ _) rfl rfl rfl rfl rfl

/-- A step of the network is one of the session, or it is none. -/
theorem session_step (h : s.InOrder) (hmove : NetworkMove report s e s')
    (hi : s.slaveOf i = some k) :
    s'.session i k = s.session i k ∨
      SessionStep n (clientSide (report k)) (s.session i k) (s'.session i k) := by
  cases hmove with
  | connect k' hk' =>
    obtain ⟨fd, -, hpeer⟩ := slaveOf_eq_some.mp hi
    have hne : k ≠ k' := by
      rintro rfl
      exact h.links.connected fd k hpeer hk'
    exact session_others (.inl rfl) rfl rfl (Function.update_of_ne hne _ _) rfl rfl rfl rfl
  | write k' m hpos hle =>
    by_cases hk : k = k'
    · subst hk
      refine .inr ?_
      convert SessionStep.write (u := s.session i k) m hpos hle using 1
      simp [Network.session, Network.mine]
    · exact session_others (.inl rfl) rfl rfl (Function.update_of_ne hk _ _)
        (Function.update_of_ne hk _ _) rfl rfl rfl
  | readStart k' behind hk' htoSlave =>
    by_cases hk : k = k'
    · subst hk
      refine .inr ?_
      convert SessionStep.readStart (u := s.session i k) behind hk' htoSlave using 1
      simp [Network.session, Network.mine]
    · exact session_others (.inl rfl) rfl rfl (Function.update_of_ne hk _ _) rfl
        (Function.update_of_ne hk _ _) rfl rfl
  | benchmark k' hk' =>
    by_cases hk : k = k'
    · subst hk
      refine .inr ?_
      convert SessionStep.benchmark (u := s.session i k) hk' using 1
      simp [Network.session, Network.mine]
    · exact session_others (.inl rfl) rfl rfl (Function.update_of_ne hk _ _) rfl rfl rfl rfl
  | accept fd hbacklog hserver =>
    rcases workers_mainStep (mainStep_accept hserver) i with hsame | ⟨hcreate, -⟩
    · exact session_others (.inl hsame) rfl rfl rfl rfl rfl rfl rfl
    · rw [Server.accept, hcreate, if_neg (by simp)] at hserver
      cases hserver
  | main hserver =>
    rcases workers_mainStep (mainStep_serverSide hserver) i with hsame | ⟨hcreate, hindex, -⟩
    · exact session_others (.inl hsame) rfl rfl rfl rfl rfl rfl rfl
    · -- the worker that is created has no slave yet
      have hsock := hasSock_of_slaveOf h hi
      have hnone : (s.server.workers i).pc = .none := by
        rw [h.server.regular.1.created, Server.created, hcreate, if_neg (by decide), hindex]
      rw [hnone] at hsock
      cases hsock
  | worker j hserver hpc => exact session_worker hserver hpc
  | sendStart j hserver hpc =>
    obtain ⟨w, hturn, -⟩ := exists_turn_clientManagement hserver
    by_cases hij : i = j
    · subst hij
      refine .inr ?_
      have hworker : ∀ server, clientManagement s.server i = some server →
          server.workers i = { s.server.workers i with
            pc := .next, messageReceived := (s.server.workers i).messageReceived + 1
            starts := (s.server.workers i).starts + 1 } := by
        intro server hserver
        rw [clientManagement, hpc] at hserver
        cases hserver
        exact Function.update_self _ _ _
      convert SessionStep.sendStart (u := s.session i k) hpc using 1
      simp [Network.session, Network.mine, Network.startSent, hi, hworker _ hserver]
    · refine session_others (hturn.others i hij) rfl rfl rfl rfl ?_ rfl rfl
      show s.startSent j k = _
      unfold Network.startSent
      cases hj : s.slaveOf j with
      | none => rfl
      | some k' =>
        refine Function.update_of_ne (fun hk => hij ?_) _ _
        exact slaveOf_inj h hi (hk ▸ hj)
  | readChar j hslave hto hpc hlen => exact session_recv h (.readChar j hslave hto hpc hlen) hi
  | readMessage j hslave hto hpc hlen hserver =>
    exact session_recv h (.readMessage j hslave hto hpc hlen hserver) hi
  | readPart j hslave hto hpc hsize hloop =>
    exact session_recv h (.readPart j hslave hto hpc hsize hloop) hi
  | readText j hslave hto hpc hsize hloop hread =>
    exact session_recv h (.readText j hslave hto hpc hsize hloop hread) hi
  | lockPlot j hreading hpc hfree =>
    refine session_report fun hij => ?_
    subst hij
    exact .lockPlot hpc hreading
  | unlockPlot j hreading hpc =>
    refine session_report fun hij => ?_
    subst hij
    exact .unlockPlot hpc hreading
  | plotNode j hreading hserver =>
    obtain ⟨hpc, w, hturn, -⟩ := exists_turn_readReport hserver
    by_cases hij : i = j
    · subst hij
      refine .inr ?_
      have hworker : ∀ server, s.server.readReport i 1 = some server →
          server.workers i = { s.server.workers i with
            pc := .next, messageReceived := (s.server.workers i).messageReceived + 1 } := by
        intro server hserver
        unfold Server.readReport at hserver
        dsimp only at hserver
        rw [if_pos hpc] at hserver
        cases hserver
        exact Function.update_self _ _ _
      convert SessionStep.plotNode (u := s.session i k) hpc hreading using 1
      simp [Network.session, Network.mine, hworker _ hserver]
    · exact session_others (hturn.others i hij) rfl (Function.update_of_ne hij _ _) rfl rfl rfl rfl
        rfl
  | wakeUp j hserver =>
    obtain ⟨-, w, hturn, -⟩ := exists_turn_wakeUp hserver
    by_cases hij : i = j
    · refine session_others (.inr ?_) rfl rfl rfl rfl rfl rfl rfl
      rw [hij]
      exact workers_wakeUp hserver
    · exact session_others (hturn.others i hij) rfl rfl rfl rfl rfl rfl rfl
  | snmp _ hserver =>
    obtain ⟨_, -, rfl⟩ := asynchronousSnmp_frame hserver
    exact .inl rfl

/-! ## All sessions -/

/-- A slave that nobody serves yet. -/
structure Network.Unserved (report : κ → Queues) (s : Network n κ) (k : κ) : Prop where
  requesting : (s.slaves k).requesting = true
  left_ne_nil : ∀ left, s.slaves k = .sendRequest left → left ≠ []
  toSlave_eq : s.toSlave k = []
  pending_eq : s.pending report k = CONNECT_REQUEST_MESSAGE

/-- A worker that has no slave yet has read nothing. -/
structure Network.Idle (s : Network n κ) (i : Fin n) : Prop where
  buffer_eq : s.buffer i = []
  reading_eq : s.reading i = .environment []
  generalReport_eq : s.generalReport i = []
  mine_eq : s.mine i = []

/-- Where all the sessions are. -/
structure Sessions (report : κ → Queues) (s : Network n κ) : Prop where
  inOrder : s.InOrder
  idle : ∀ i, (s.server.workers i).pc.hasSock = false → s.Idle i
  unserved : ∀ k, (∀ i, s.slaveOf i ≠ some k) → s.Unserved report k
  stage : ∀ i k, s.slaveOf i = some k → Stage n (clientSide (report k)) (s.session i k)

omit [DecidableEq κ] in
/-- Who has read its socket stays like that. -/
theorem hasSock_step {s s' : Server n} {e : ServerEvent n} (hinv : MainInv s)
    (hstep : ServerStep s e s') (hsock : (s'.workers i).pc.hasSock = false) :
    (s.workers i).pc.hasSock = false := by
  rcases serverStep_cases hstep with ⟨-, hmain⟩ | ⟨j, w, -, hturn, hnext⟩ | ⟨_, _, -, rfl⟩
  · rcases workers_mainStep hmain i with hsame | ⟨hcreate, hindex, -⟩
    · rwa [hsame] at hsock
    · have hnone : (s.workers i).pc = .none := by
        rw [hinv.created, Server.created, hcreate, if_neg (by decide), hindex]
      rw [hnone]
      rfl
  · by_cases hij : i = j
    · rw [hij, hturn.self] at hsock
      rw [hij]
      cases hnext with
      | readId hpc =>
        rw [hpc]
        rfl
      | move hmoves _ => cases hmoves.hasSock_next.symm.trans hsock
      | _ => cases hsock
    · rcases hturn.others i hij with hsame | hwoken
      · rwa [hsame] at hsock
      · rwa [hwoken, hasSock_woken] at hsock
  · exact hsock

namespace Sessions

theorem idle_step (h : Sessions report s) (hmove : NetworkMove report s e s')
    (hsock : (s'.server.workers i).pc.hasSock = false) : s'.Idle i := by
  have hold : (s.server.workers i).pc.hasSock = false := by
    rcases server_step hmove with hsame | ⟨e', hstep, -⟩
    · rwa [hsame] at hsock
    · exact hasSock_step h.inOrder.server.regular.1 hstep hsock
  obtain ⟨hbuffer, hreading, hgeneral, hmine⟩ := h.idle i hold
  have hne {j : Fin n} (hj : (s.server.workers j).pc.hasSock = true) : i ≠ j := by
    rintro rfl
    cases hold.symm.trans hj
  have hslaveOf {j : Fin n} {k : κ} (hj : s.slaveOf j = some k) : i ≠ j :=
    hne (hasSock_of_slaveOf h.inOrder hj)
  cases hmove with
  | readChar j hslave | readPart j hslave =>
    exact ⟨(Function.update_of_ne (hslaveOf hslave) _ _).trans hbuffer, hreading, hgeneral, hmine⟩
  | readMessage j hslave =>
    exact ⟨(Function.update_of_ne (hslaveOf hslave) _ _).trans hbuffer, hreading, hgeneral, hmine⟩
  | readText j hslave =>
    have hij := hslaveOf hslave
    exact ⟨(Function.update_of_ne hij _ _).trans hbuffer,
      (Function.update_of_ne hij _ _).trans hreading,
      (Function.update_of_ne hij _ _).trans hgeneral, (mine_enqueue_of_ne _ hij).trans hmine⟩
  | lockPlot j _ hpc | unlockPlot j _ hpc =>
    have hij : i ≠ j := hne (by rw [hpc]; rfl)
    exact ⟨hbuffer, (Function.update_of_ne hij _ _).trans hreading, hgeneral, hmine⟩
  | plotNode j _ hserver =>
    obtain ⟨hpc, -⟩ := exists_turn_readReport hserver
    have hij : i ≠ j := hne (by rw [hpc]; rfl)
    exact ⟨hbuffer, (Function.update_of_ne hij _ _).trans hreading, hgeneral, hmine⟩
  | _ => exact ⟨hbuffer, hreading, hgeneral, hmine⟩

omit [DecidableEq κ] in
theorem unserved_keep (h : s.Unserved report k) (hslave : s'.slaves k = s.slaves k)
    (htoMaster : s'.toMaster k = s.toMaster k) (htoSlave : s'.toSlave k = s.toSlave k) :
    s'.Unserved report k := by
  obtain ⟨hrequesting, hleft, hnil, hpending⟩ := h
  refine ⟨hslave ▸ hrequesting, hslave ▸ hleft, htoSlave ▸ hnil, ?_⟩
  rw [Network.pending, hslave, htoMaster]
  exact hpending

theorem unserved_write (h : s.Unserved report k) {m : ℕ} (hpos : 0 < m)
    (hle : m ≤ (s.slaves k).unsent.length) :
    Network.Unserved report { s with
      slaves := Function.update s.slaves k ((s.slaves k).wrote m)
      toMaster := Function.update s.toMaster k
        (s.toMaster k ++ (s.slaves k).unsent.take m) } k := by
  obtain ⟨hrequesting, -, hnil, hpending⟩ := h
  have hunsent : (s.slaves k).unsent ≠ [] := List.ne_nil_of_length_pos (hpos.trans_le hle)
  refine ⟨?_, fun left hleft => ?_, hnil, ?_⟩
  · dsimp only
    rw [Function.update_self]
    exact SlavePc.requesting_wrote hrequesting m
  · dsimp only at hleft
    rw [Function.update_self] at hleft
    exact SlavePc.left_ne_nil_of_wrote hleft
  · unfold Network.pending
    dsimp only
    rw [Function.update_self, Function.update_self, SlavePc.owes_wrote hunsent, List.append_assoc,
      List.take_append_drop, ← hpending, Network.pending, SlavePc.owes_of_unsent hunsent]

theorem unserved_step (h : Sessions report s) (hmove : NetworkMove report s e s')
    (hnone : ∀ i, s.slaveOf i ≠ some k) : s'.Unserved report k := by
  have hk := h.unserved k hnone
  have hother {j : Fin n} {k' : κ} (hj : s.slaveOf j = some k') : k ≠ k' := by
    rintro rfl
    exact hnone j hj
  cases hmove with
  | connect k' hk' =>
    by_cases hkk : k = k'
    · subst hkk
      refine ⟨?_, fun left hleft => ?_, hk.toSlave_eq, ?_⟩
      · exact (congrArg SlavePc.requesting (Function.update_self _ _ _)).trans rfl
      · dsimp only at hleft
        rw [Function.update_self] at hleft
        cases hleft
        nofun
      · have hpending := hk.pending_eq
        unfold Network.pending at hpending ⊢
        rw [hk'] at hpending
        dsimp only
        rw [Function.update_self]
        exact hpending
    · exact unserved_keep hk (Function.update_of_ne hkk _ _) rfl rfl
  | write k' m hpos hle =>
    by_cases hkk : k = k'
    · subst hkk
      exact unserved_write hk hpos hle
    · exact unserved_keep hk (Function.update_of_ne hkk _ _) (Function.update_of_ne hkk _ _) rfl
  | readStart k' behind _ htoSlave =>
    have hkk : k ≠ k' := by
      rintro rfl
      cases hk.toSlave_eq.symm.trans htoSlave
    exact unserved_keep hk (Function.update_of_ne hkk _ _) rfl (Function.update_of_ne hkk _ _)
  | benchmark k' hk' =>
    have hkk : k ≠ k' := by
      rintro rfl
      have hrequesting := hk.requesting
      rw [hk'] at hrequesting
      cases hrequesting
    exact unserved_keep hk (Function.update_of_ne hkk _ _) rfl rfl
  | sendStart j _ _ =>
    refine unserved_keep hk rfl rfl ?_
    show s.startSent j k = _
    unfold Network.startSent
    cases hj : s.slaveOf j with
    | none => rfl
    | some k' => exact Function.update_of_ne (hother hj) _ _
  | readChar j hslave | readPart j hslave =>
    exact unserved_keep hk rfl (Function.update_of_ne (hother hslave) _ _) rfl
  | readMessage j hslave =>
    exact unserved_keep hk rfl (Function.update_of_ne (hother hslave) _ _) rfl
  | readText j hslave =>
    exact unserved_keep hk rfl (Function.update_of_ne (hother hslave) _ _) rfl
  | _ => exact unserved_keep hk rfl rfl rfl

omit [DecidableEq κ] in
/-- The session begins with the request. -/
theorem stage_new (h : Sessions report s) {server : Server n}
    (hserver : clientManagement s.server i = some server)
    (hpc : (s.server.workers i).pc = .readSock) (hk : s.Unserved report k) :
    Stage n (clientSide (report k)) (Network.session { s with server := server } i k) := by
  have hsock : (s.server.workers i).pc.hasSock = false := by
    rw [hpc]
    rfl
  obtain ⟨hbuffer, hreading, hgeneral, hmine⟩ := h.idle i hsock
  obtain ⟨-, hreceived, hstarts⟩ := h.inOrder.server.new i hsock
  have hworker : (server.workers i).pc = .receive ∧
      (server.workers i).messageReceived = (s.server.workers i).messageReceived ∧
      (server.workers i).starts = (s.server.workers i).starts := by
    rw [clientManagement, hpc] at hserver
    dsimp only at hserver
    split at hserver
    · cases hserver
      simp [Server.set]
    · cases hserver
  refine .request hworker.1 (hworker.2.1.trans hreceived) (hworker.2.2.trans hstarts) ?_
    hk.requesting hk.left_ne_nil hk.toSlave_eq ?_ ⟨hreading, hgeneral, hmine⟩
  · show (s.buffer i).length < 2
    rw [hbuffer]
    exact Nat.two_pos
  · show s.buffer i ++ s.pending report k = _
    rw [hbuffer, hk.pending_eq]
    rfl

theorem step (h : Sessions report s) (hmove : NetworkMove report s e s')
    (htime : NetworkInTime ⟨s, e, s'⟩) : Sessions report s' := by
  have hinOrder := h.inOrder.step hmove htime
  refine ⟨hinOrder, fun i hi => h.idle_step hmove hi, fun k hk => ?_, fun i k hi => ?_⟩
  · exact h.unserved_step hmove fun i hi => hk i (slaveOf_step h.inOrder hmove hi)
  · cases hold : s.slaveOf i with
    | some k' =>
      obtain rfl : k' = k :=
        Option.some.inj ((slaveOf_step h.inOrder hmove hold).symm.trans hi)
      rcases session_step h.inOrder hmove hold with hsame | hstep
      · rw [hsame]
        exact h.stage i k' hold
      · exact (h.stage i k' hold).step hstep
    | none =>
      obtain ⟨server, rfl, hserver, hpc⟩ := slaveOf_new h.inOrder hmove hold hi
      refine h.stage_new hserver hpc (h.unserved k fun j hj => ?_)
      have hij := slaveOf_inj hinOrder (slaveOf_step h.inOrder hmove hj) hi
      rw [hij, hold] at hj
      cases hj

end Sessions

omit [DecidableEq κ] in
theorem sessions_networkStart (report : κ → Queues) (param : ℕ) :
    Sessions report (networkStart n κ param) where
  inOrder :=
    { server := .start param
      links :=
        { nodup := List.nodup_nil
          waiting := fun _ hk => absurd hk List.not_mem_nil
          connected := nofun
          inj := nofun
          known := fun _ => ⟨nofun, fun h => h.elim nofun fun hmain => absurd hmain.1 nofun⟩
          reached := fun _ hk => absurd rfl hk } }
  idle := fun _ _ => ⟨rfl, rfl, rfl, rfl⟩
  unserved := fun _ _ => ⟨rfl, fun _ => nofun, rfl, rfl⟩
  stage := nofun

/-- In a run in which `param` is written in time. -/
theorem sessions_of_run {param : ℕ} {history : List (NetworkTransition n κ)}
    (hrun : Run (NetworkStep report) (networkStart n κ param) history s)
    (htime : ∀ t ∈ history, NetworkInTime t) : Sessions report s :=
  ((hrun.restrict htime).invariant
    (fun _ _ _ h hstep => h.step (networkMove_of_step hstep.2) hstep.1)
    (sessions_networkStart report param)).1

/-! ## Delivery -/

/-- These blocks have arrived in the report of the node and in that of all nodes. -/
structure Network.Enqueued (s : Network n κ) (i : Fin n) (blocks : List Block) : Prop where
  generalReport_eq : s.generalReport i = blocks.filter fun block => block.type = .values
  mine_eq : s.mine i = blocks.filter fun block => block.type ≠ .values

/-- Every slave is served by one worker, and its report is where it belongs. -/
structure Delivered (report : κ → Queues) (s : Network n κ) : Prop where
  /-- two workers have different slaves -/
  slaveOf_inj : ∀ i j k, s.slaveOf i = some k → s.slaveOf j = some k → i = j
  /-- to which they write START_MESSAGE at most once -/
  starts_le : ∀ i, (s.server.workers i).starts ≤ 1
  /-- what a worker has enqueued are the first blocks of the report of its slave -/
  enqueued : ∀ i k, s.slaveOf i = some k → ∃ blocks, s.Enqueued i blocks ∧
    ∀ e all rest, receiveReport n (clientSide (report k)) = some (e, all, rest) → blocks <+: all
  /-- and all of them, when it has left its loop -/
  complete : ∀ i, (s.server.workers i).pc.behindLoop = true → ∃ k e blocks rest,
    s.slaveOf i = some k ∧
      receiveReport n (clientSide (report k)) = some (e, blocks, rest) ∧ s.Enqueued i blocks
  /-- and all workers have exited when the reports are plotted -/
  plotted : s.server.main = .plot → ∀ i, (s.server.workers i).pc = .exited

omit [DecidableEq κ] in
theorem receive_of_receiveReport {text rest : Text} {e : Environment} {blocks : List Block}
    (h : receiveReport n text = some (e, blocks, rest)) :
    (ReportPc.environment []).receive n text = some (blocks, rest) := by
  rw [ReportPc.receive_environment, h]
  rfl

omit [DecidableEq κ] in
theorem starts_le_of_stage {text : Text} (h : Stage n text (s.session i k)) :
    (s.server.workers i).starts ≤ 1 := by
  cases h with
  | request _ _ hstarts | barrier _ _ hstarts => exact (le_of_eq hstarts).trans (Nat.zero_le 1)
  | answered _ _ hstarts | reporting _ _ hstarts | counted _ _ hstarts => exact le_of_eq hstarts
  | reading _ _ _ hstarts | done _ _ _ hstarts => exact le_of_eq hstarts

omit [DecidableEq κ] in
theorem enqueued_of_stage {text : Text} (h : Stage n text (s.session i k)) :
    ∃ blocks, s.Enqueued i blocks ∧
      ∀ e all rest, receiveReport n text = some (e, all, rest) → blocks <+: all := by
  have hnil (hunread : (s.session i k).Unread) : ∃ blocks, s.Enqueued i blocks ∧
      ∀ e all rest, receiveReport n text = some (e, all, rest) → blocks <+: all :=
    ⟨[], ⟨hunread.general_eq, hunread.mine_eq⟩, fun _ all _ _ => List.nil_prefix⟩
  cases h with
  | request _ _ _ _ _ _ _ _ hunread => exact hnil hunread
  | barrier _ _ _ _ _ _ _ _ hunread => exact hnil hunread
  | answered _ _ _ _ _ _ _ hunread => exact hnil hunread
  | reporting _ _ _ _ _ _ _ _ hunread => exact hnil hunread
  | counted _ _ _ _ _ _ _ hunread => exact hnil hunread
  | reading blocks _ _ _ _ _ _ henqueued hstream =>
    refine ⟨blocks, ⟨henqueued.1, henqueued.2⟩, fun e all rest hreport => ?_⟩
    rw [receive_of_receiveReport hreport] at hstream
    obtain ⟨b, -, heq⟩ := Option.map_eq_some_iff.mp hstream.symm
    exact ⟨b.1, congrArg Prod.fst heq⟩
  | done blocks _ _ _ _ _ _ henqueued hdone =>
    refine ⟨blocks, ⟨henqueued.1, henqueued.2⟩, fun e all rest hreport => ?_⟩
    rw [receive_of_receiveReport hreport] at hdone
    rw [show all = blocks from congrArg Prod.fst (Option.some.inj hdone)]

omit [DecidableEq κ] in
theorem complete_of_stage {text : Text} (h : Stage n text (s.session i k))
    (hpc : (s.server.workers i).pc.behindLoop = true) :
    ∃ e blocks rest, receiveReport n text = some (e, blocks, rest) ∧ s.Enqueued i blocks := by
  cases h with
  | done blocks _ _ _ _ _ _ henqueued hdone =>
    rw [ReportPc.receive_environment] at hdone
    obtain ⟨⟨e, all, rest⟩, hreport, heq⟩ := Option.map_eq_some_iff.mp hdone
    obtain rfl : all = blocks := congrArg Prod.fst heq
    exact ⟨e, all, rest, hreport, henqueued.1, henqueued.2⟩
  | request hpc' | barrier hpc' | answered hpc' | reporting hpc' | counted hpc' | reading _ hpc' =>
    change (s.session i k).worker.pc.behindLoop = true at hpc
    generalize (s.session i k).worker.pc = pc at hpc hpc'
    revert hpc hpc'
    cases pc <;> exact nofun

omit [DecidableEq κ] in
/-- Who has read its socket has a slave. -/
theorem exists_slaveOf (h : s.InOrder) (hsock : (s.server.workers i).pc.hasSock = true) :
    ∃ k, s.slaveOf i = some k := by
  obtain ⟨hfd, hsome⟩ :=
    (workerIdentity_of_allOk h.server.regular.1 h.server.ok).serves i hsock
  obtain ⟨fd, hreports⟩ := Option.isSome_iff_exists.mp hsome
  obtain ⟨k, hpeer⟩ := Option.isSome_iff_exists.mp ((h.links.known fd).mpr (.inl ⟨i, hreports⟩))
  exact ⟨k, slaveOf_eq_some.mpr ⟨fd, hfd.trans hreports, hpeer⟩⟩

/-! ## The end -/

/-- Who has been joined has exited. -/
structure Joined (s : Server n) : Prop where
  join : ∀ left, s.main = .join left → ∀ i : Fin n, left ≤ i → (s.workers i).pc = .exited
  plot : s.main = .plot → ∀ i, (s.workers i).pc = .exited

namespace Joined

variable {s s' : Server n}

/-- Who has exited does nothing more. -/
theorem turn (h : Joined s) {w : Worker} (hturn : Turn s s' i w)
    (hnext : NextWorker s (s.workers i) w) : Joined s' := by
  have hexited {j : Fin n} (hj : (s.workers j).pc = .exited) : (s'.workers j).pc = .exited := by
    by_cases hij : j = i
    · rw [hij] at hj
      exfalso
      cases hnext with
      | move hmoves _ =>
        rw [hj] at hmoves
        cases hmoves
      | readId hpc | readSock _ hpc | connect hpc | startSnmp hpc _ | sendStart hpc | report hpc
      | readReport _ hpc | leave hpc _ | exit hpc _ => cases hj.symm.trans hpc
    · rcases hturn.others j hij with hsame | hwoken
      · rw [hsame, hj]
      · rw [hwoken, Worker.woken, if_neg (by rw [hj]; nofun), hj]
  refine ⟨fun left hmain j hj => ?_, fun hmain j => ?_⟩
  · rw [hturn.main_eq] at hmain
    exact hexited (h.join left hmain j hj)
  · rw [hturn.main_eq] at hmain
    exact hexited (h.plot hmain j)

/-- The main thread joins one worker after the other. -/
theorem serverSide (h : Joined s) (hstep : OfcBenchmark.serverSide s = some s') : Joined s' := by
  unfold OfcBenchmark.serverSide at hstep
  cases hmain : s.main <;> rw [hmain] at hstep <;> dsimp only at hstep
  case accept => cases hstep
  case plot => cases hstep
  case storeSock =>
    split at hstep
    · cases hstep
      exact ⟨nofun, nofun⟩
    · cases hstep
  case storeParam =>
    cases hstep
    exact ⟨nofun, nofun⟩
  case create =>
    split at hstep
    · cases hstep
      exact ⟨nofun, nofun⟩
    · cases hstep
  case next =>
    cases hstep
    refine ⟨fun left hleft i hi => ?_, fun hplot => ?_⟩
    · dsimp only at hleft
      split at hleft
      · cases hleft
      · cases hleft
        exact absurd i.isLt (Nat.not_lt.mpr hi)
    · dsimp only at hplot
      split at hplot <;> cases hplot
  case join left =>
    cases left with
    | zero =>
      cases hstep
      exact ⟨nofun, fun _ i => h.join 0 hmain i (Nat.zero_le _)⟩
    | succ k =>
      dsimp only at hstep
      split at hstep
      case isTrue hk =>
        split at hstep
        case isTrue hexited =>
          cases hstep
          refine ⟨fun left hleft i hi => ?_, nofun⟩
          cases hleft
          rcases Nat.eq_or_lt_of_le hi with heq | hlt
          · obtain rfl : i = ⟨k, hk⟩ := Fin.ext heq.symm
            exact hexited
          · exact h.join (k + 1) hmain i hlt
        case isFalse => cases hstep
      case isFalse => cases hstep

theorem step (h : Joined s) {e : ServerEvent n} (hstep : ServerStep s e s') : Joined s' := by
  cases e with
  | accept fd =>
    change s.accept fd = some s' at hstep
    unfold Server.accept at hstep
    split at hstep
    · cases hstep
      exact ⟨nofun, nofun⟩
    · cases hstep
  | main => exact h.serverSide hstep
  | worker i =>
    obtain ⟨w, hturn, hnext⟩ := exists_turn_clientManagement hstep
    exact h.turn hturn hnext
  | receive i m =>
    obtain ⟨-, w, hturn, hnext⟩ := exists_turn_receive hstep
    exact h.turn hturn hnext
  | readReport i bytesRead =>
    obtain ⟨-, w, hturn, hnext⟩ := exists_turn_readReport hstep
    exact h.turn hturn hnext
  | wakeUp i =>
    obtain ⟨-, w, hturn, hnext⟩ := exists_turn_wakeUp hstep
    exact h.turn hturn hnext
  | snmp k =>
    obtain ⟨_, -, rfl⟩ := asynchronousSnmp_frame hstep
    exact ⟨h.join, h.plot⟩

end Joined

theorem joined_serverStart (param : ℕ) : Joined (serverStart n param) := ⟨nofun, nofun⟩

omit [DecidableEq κ] in
theorem delivered_of_sessions (h : Sessions report s) (hjoined : Joined s.server) :
    Delivered report s := by
  refine ⟨fun i j k hi hj => slaveOf_inj h.inOrder hi hj, fun i => ?_, fun i k hi => ?_,
    fun i hi => ?_, hjoined.plot⟩
  · by_cases hsock : (s.server.workers i).pc.hasSock = true
    · obtain ⟨k, hk⟩ := exists_slaveOf h.inOrder hsock
      exact starts_le_of_stage (h.stage i k hk)
    · rw [(h.inOrder.server.new i (Bool.eq_false_of_not_eq_true hsock)).starts_eq]
      exact Nat.zero_le 1
  · exact enqueued_of_stage (h.stage i k hi)
  · obtain ⟨k, hk⟩ := exists_slaveOf h.inOrder (WorkerPc.hasSock_of_behindLoop hi)
    obtain ⟨e, blocks, rest, hreport, henqueued⟩ := complete_of_stage (h.stage i k hk) hi
    exact ⟨k, e, blocks, rest, hk, hreport, henqueued⟩

/-- In every order of steps in which `param` is written in time, the reports are delivered. -/
theorem reports_delivered {param : ℕ} {history : List (NetworkTransition n κ)}
    (hrun : Run (NetworkStep report) (networkStart n κ param) history s)
    (htime : ∀ t ∈ history, NetworkInTime t) : Delivered report s := by
  have hstep : ∀ (s : Network n κ) e s', Joined s.server → NetworkStep report s e s' →
      Joined s'.server := fun _ _ _ hs hstep =>
    server_invariant (fun _ _ _ hinv hstep => hinv.step hstep) (networkMove_of_step hstep) hs
  obtain ⟨hjoined, -⟩ := hrun.invariant hstep (joined_serverStart param)
  exact delivered_of_sessions (sessions_of_run hrun htime) hjoined

end Network

/-- A report with a row in each block. -/
def shortReport : Queues := fun id =>
  match id with
  | .values => ["1*1*0*0*".toList, "a*".toList]
  | .avgs => ["b*".toList]
  | .results => ["c*".toList]
  | _ => []

/-- One slave connects and is served. -/
def serveOne : List (NetworkEvent 1 (Fin 1)) :=
  [.connect 0, .write 0 2, .accept 10, .main, .main, .main, .main, .worker 0, .worker 0, .recv 0,
    .recv 0]

/-- It starts and writes its report, of which the first message is read. -/
def startOne : List (NetworkEvent 1 (Fin 1)) :=
  [.readStart 0 '\x00', .benchmark 0, .write 0 16, .recv 0, .recv 0, .worker 0, .worker 0,
    .worker 0]

/-- The partials and the results are read, the report is plotted, and the SNMP thread ends. -/
def plotOne : List (NetworkEvent 1 (Fin 1)) :=
  [.lockPlot 0, .recv 0, .recv 0, .unlockPlot 0, .lockPlot 0, .recv 0, .recv 0, .unlockPlot 0,
    .plotNode 0, .worker 0, .worker 0, .worker 0, .worker 0, .snmp 0, .worker 0, .main, .main]

/-- One slave, from its connection to the plots. -/
def deliverOne : List (NetworkEvent 1 (Fin 1)) :=
  serveOne ++ List.replicate 8 (.worker 0) ++ startOne ++ List.replicate 10 (.recv 0) ++ plotOne

theorem reports_delivered_deliverOne :
    ∃ history s, Run (NetworkStep fun _ => shortReport) (networkStart 1 (Fin 1) 0) history s ∧
      s.server.main = .plot ∧ s.myreport = [(0, ⟨.avgs, 0, ['b']⟩), (0, ⟨.results, 0, ['c']⟩)] ∧
      Delivered (fun _ => shortReport) s := by
  have hend : (followSome (runNetwork fun _ => shortReport) deliverOne
      (networkStart 1 (Fin 1) 0)).map (fun r => (r.2.server.main, r.2.myreport,
        r.1.all (NetworkInTime ·)))
      = some (.plot, [(0, ⟨.avgs, 0, ['b']⟩), (0, ⟨.results, 0, ['c']⟩)], true) := by
    decide
  obtain ⟨⟨history, s⟩, hfollow, heq⟩ := Option.map_eq_some_iff.mp hend
  obtain ⟨hplot, hrest⟩ := Prod.mk.inj heq
  obtain ⟨hreport, htime⟩ := Prod.mk.inj hrest
  have hrun : Run (NetworkStep fun _ => shortReport) (networkStart 1 (Fin 1) 0) history s :=
    Run.of_followSome hfollow
  exact ⟨history, s, hrun, hplot, hreport, reports_delivered hrun fun t ht =>
    of_decide_eq_true (List.all_eq_true.mp htime t ht)⟩

end OfcBenchmark
