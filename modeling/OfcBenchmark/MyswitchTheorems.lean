import OfcBenchmark.MsgbufTheorems
import OfcBenchmark.Myswitch

/-!
# What handling one message does to a fake switch

`ofp13HandleMessage` writes only a few fields (`ofp13HandleMessage_frame`), and what it does
to `count` and `probeState` depends on `counted` and `restartsProbe` alone. A write step
pushes bytes and leaves the input alone (`OnlyPushes`).
-/

namespace OfcBenchmark
open ByteMemory

/-! ## Calls that can fail -/

section Calls

variable {α β : Type} {x : Except Halt α}

theorem map_eq_ok_iff {f : α → β} {b : β} :
    x.map f = .ok b ↔ ∃ a, x = .ok a ∧ f a = b := by
  rcases x with e | a
  · exact ⟨nofun, nofun⟩
  · constructor
    · rintro ⟨⟩
      exact ⟨a, rfl, rfl⟩
    · rintro ⟨a', ⟨⟩, rfl⟩
      rfl

theorem bind_eq_ok_iff {f : α → Except Halt β} {b : β} :
    x >>= f = .ok b ↔ ∃ a, x = .ok a ∧ f a = .ok b := by
  rcases x with e | a
  · exact ⟨nofun, nofun⟩
  · constructor
    · exact fun h => ⟨a, rfl, h⟩
    · rintro ⟨a', ⟨⟩, h⟩
      exact h

end Calls

/-! ## Pushing and status changes -/

section Push

variable (fs : Fakeswitch) (bs : List UInt8)

@[simp] theorem push_sock : (fs.push bs).sock = fs.sock := rfl
@[simp] theorem push_inbuf : (fs.push bs).inbuf = fs.inbuf := rfl
@[simp] theorem push_mode : (fs.push bs).mode = fs.mode := rfl
@[simp] theorem push_probeState : (fs.push bs).probeState = fs.probeState := rfl
@[simp] theorem push_count : (fs.push bs).count = fs.count := rfl
@[simp] theorem push_switchStatus : (fs.push bs).switchStatus = fs.switchStatus := rfl

@[simp] theorem push_contents : (fs.push bs).outbuf.contents = fs.outbuf.contents ++ bs :=
  contents_msgbufPush fs.outbuf bs

end Push

/-- A status change writes the status, the delay and, on entry to READY_TO_SEND, the two
counters. -/
theorem switchChangeStatus_frame (now : Timeval) (fs : Fakeswitch) (st : HandshakeStatus) :
    ∃ st' nx ds c ps, switchChangeStatus now fs st
      = { fs with switchStatus := st', nextStatus := nx, delay_start := ds, count := c,
                  probeState := ps } := by
  unfold switchChangeStatus switchChangeStatusNow
  dsimp only
  split
  · split
    · exact ⟨_, fs.nextStatus, fs.delay_start, 0, 0, rfl⟩
    · exact ⟨_, fs.nextStatus, fs.delay_start, fs.count, fs.probeState, rfl⟩
  · exact ⟨_, _, _, fs.count, fs.probeState, rfl⟩

/-- The step to SEND_PORT_DESC keeps the counters. -/
@[simp] theorem switchChangeStatus_count (now : Timeval) (fs : Fakeswitch) :
    (switchChangeStatus now fs .sendPortDesc).count = fs.count := by
  unfold switchChangeStatus
  split <;> rfl

@[simp] theorem switchChangeStatus_probeState (now : Timeval) (fs : Fakeswitch) :
    (switchChangeStatus now fs .sendPortDesc).probeState = fs.probeState := by
  unfold switchChangeStatus
  split <;> rfl

/-! ## Clamping -/

section Clamp

variable (fs : Fakeswitch)

/-- Clamping changes `probeState` only. -/
theorem clamp_frame : fs.clamp = { fs with probeState := max 0 fs.probeState } := by
  unfold Fakeswitch.clamp
  split
  · rw [max_eq_left (by omega)]
  · rw [max_eq_right (by omega)]

@[simp] theorem clamp_count : fs.clamp.count = fs.count := by rw [clamp_frame]
@[simp] theorem clamp_outbuf : fs.clamp.outbuf = fs.outbuf := by rw [clamp_frame]

@[simp] theorem clamp_probeState : fs.clamp.probeState = max 0 fs.probeState := by
  rw [clamp_frame]

end Clamp

/-! ## One message -/

/-- The test by which a message is taken for the response to a probe. -/
def counted (fs : Fakeswitch) (ofph : Mem) : Prop :=
  fs.switchStatus = .readyToSend ∧
    (Ofp131Type.ofByte (ofph 1) = some .packetOut ∧ packetOutIsLldp ofph = false ∨
      Ofp131Type.ofByte (ofph 1) = some .flowMod ∧
        (ofph.load16 56 = htons OFPFC_ADD ∨ ofph.load16 56 = htons OFPFC_MODIFY_STRICT))

instance (fs : Fakeswitch) (ofph : Mem) : Decidable (counted fs ofph) :=
  inferInstanceAs (Decidable (_ ∧ _))

/-- A GET_CONFIG_REQUEST that finds a probe outstanding in latency mode: the probe is
given up. -/
def restartsProbe (fs : Fakeswitch) (ofph : Mem) : Prop :=
  Ofp131Type.ofByte (ofph 1) = some .getConfigRequest ∧ fs.mode = .latency ∧ fs.probeState = 1

instance (fs : Fakeswitch) (ofph : Mem) : Decidable (restartsProbe fs ofph) :=
  inferInstanceAs (Decidable (_ ∧ _))

section HandleMessage

variable (role : Mem) (now : Timeval) (ofph : Mem) (s : ReadState)

/-- The fields a message can change. -/
theorem ofp13Dispatch_frame :
    ∃ ob st nx ds c ps sp, (ofp13Dispatch role now ofph s).fs
      = { s.fs with outbuf := ob, switchStatus := st, nextStatus := nx, delay_start := ds,
                    count := c, probeState := ps, sendPortDesc := sp } := by
  unfold ofp13Dispatch
  dsimp only
  split
  case h_3 =>
    -- GET_CONFIG_REQUEST may give a probe up
    unfold Fakeswitch.restartProbe
    split
    · exact ⟨_, _, _, _, _, 0, _, rfl⟩
    · exact ⟨_, _, _, _, _, s.fs.probeState, _, rfl⟩
  case h_6 =>
    -- FEATURES_REQUEST is the one that changes the status
    obtain ⟨st, nx, ds, c, ps, h⟩ := switchChangeStatus_frame now
      (s.fs.push ((ofp13MakeFeaturesReply s.fs.id (ofph.load32 4) s.buf).1.read 0
        (ofp13MakeFeaturesReply s.fs.id (ofph.load32 4) s.buf).2)) .sendPortDesc
    exact ⟨_, st, nx, ds, c, ps, s.fs.sendPortDesc, h⟩
  all_goals
    (repeat' split)
  all_goals exact ⟨_, _, _, _, _, _, _, rfl⟩

/-- What is counted: a response raises `count` and lowers `probeState`, a configuration
request may give a probe up, and nothing else touches the two. -/
theorem ofp13Dispatch_counters :
    ((ofp13Dispatch role now ofph s).fs.count, (ofp13Dispatch role now ofph s).fs.probeState)
      = if counted s.fs ofph then (s.fs.count + 1, s.fs.probeState - 1)
        else if restartsProbe s.fs ofph then (s.fs.count, 0)
        else (s.fs.count, s.fs.probeState) := by
  unfold ofp13Dispatch
  dsimp only
  split
  case h_1 h =>
    -- PACKET_OUT
    by_cases hc : s.fs.switchStatus = .readyToSend ∧ packetOutIsLldp ofph = false <;>
      simp [counted, restartsProbe, h, hc, Fakeswitch.credit]
  case h_2 h =>
    -- FLOW_MOD
    split
    all_goals
      rename_i hc
      simp [counted, restartsProbe, h, hc, Fakeswitch.credit]
  case h_3 h =>
    -- GET_CONFIG_REQUEST
    by_cases hc : s.fs.mode = .latency ∧ s.fs.probeState = 1 <;>
      simp [counted, restartsProbe, Fakeswitch.restartProbe, h, hc]
  case h_8 h =>
    -- MULTIPART_REQUEST, whose three branches touch neither counter
    have hnc : ¬ counted s.fs ofph := by simp [counted, h]
    have hnr : ¬ restartsProbe s.fs ofph := by simp [restartsProbe, h]
    rw [if_neg hnc, if_neg hnr]
    split_ifs <;> rfl
  case h_10 hpo hfm hgc _ _ _ _ _ _ =>
    -- a type without a case of its own
    have hnc : ¬ counted s.fs ofph := by
      rintro ⟨-, ⟨h, -⟩ | ⟨h, -⟩⟩
      · exact hpo h
      · exact hfm h
    have hnr : ¬ restartsProbe s.fs ofph := fun h => hgc h.1
    rw [if_neg hnc, if_neg hnr]
  all_goals
    rename_i h
    simp [counted, restartsProbe, h]

/-- A message is handled without touching what is not in this list. -/
theorem ofp13HandleMessage_frame :
    ∃ ob st nx ds c ps sp, (ofp13HandleMessage role now ofph s).fs
      = { s.fs with outbuf := ob, switchStatus := st, nextStatus := nx, delay_start := ds,
                    count := c, probeState := ps, sendPortDesc := sp } := by
  obtain ⟨ob, st, nx, ds, c, ps, sp, h⟩ := ofp13Dispatch_frame role now ofph s
  unfold ofp13HandleMessage
  dsimp only
  rw [clamp_frame, h]
  exact ⟨ob, st, nx, ds, c, max 0 ps, sp, rfl⟩

@[simp] theorem ofp13HandleMessage_inbuf :
    (ofp13HandleMessage role now ofph s).fs.inbuf = s.fs.inbuf := by
  obtain ⟨_, _, _, _, _, _, _, h⟩ := ofp13HandleMessage_frame role now ofph s
  rw [h]

@[simp] theorem ofp13HandleMessage_sock :
    (ofp13HandleMessage role now ofph s).fs.sock = s.fs.sock := by
  obtain ⟨_, _, _, _, _, _, _, h⟩ := ofp13HandleMessage_frame role now ofph s
  rw [h]

@[simp] theorem ofp13HandleMessage_mode :
    (ofp13HandleMessage role now ofph s).fs.mode = s.fs.mode := by
  obtain ⟨_, _, _, _, _, _, _, h⟩ := ofp13HandleMessage_frame role now ofph s
  rw [h]

/-- Handling a message counts at most one response. -/
theorem ofp13HandleMessage_count :
    (ofp13HandleMessage role now ofph s).fs.count
      = s.fs.count + if counted s.fs ofph then 1 else 0 := by
  have h := congrArg Prod.fst (ofp13Dispatch_counters role now ofph s)
  show (ofp13Dispatch role now ofph s).fs.clamp.count = _
  rw [clamp_count]
  refine h.trans ?_
  split_ifs <;> simp

/-- The number of outstanding probes after a message: never negative. -/
theorem ofp13HandleMessage_probeState :
    (ofp13HandleMessage role now ofph s).fs.probeState
      = max 0 (if counted s.fs ofph then s.fs.probeState - 1
          else if restartsProbe s.fs ofph then 0 else s.fs.probeState) := by
  have h := congrArg Prod.snd (ofp13Dispatch_counters role now ofph s)
  show (ofp13Dispatch role now ofph s).fs.clamp.probeState = _
  rw [clamp_probeState]
  refine congrArg (max 0) (h.trans ?_)
  split_ifs <;> rfl

end HandleMessage

/-! ## Writing -/

/-- The step from one switch to the other pushes bytes and leaves the input alone. -/
structure OnlyPushes (fs fs' : Fakeswitch) : Prop where
  inbuf_eq : fs'.inbuf = fs.inbuf
  sock_eq : fs'.sock = fs.sock
  outbuf_eq : ∃ bs, fs'.outbuf.contents = fs.outbuf.contents ++ bs

theorem OnlyPushes.of_eq {fs fs' : Fakeswitch} (hin : fs'.inbuf = fs.inbuf)
    (hsock : fs'.sock = fs.sock) (hout : fs'.outbuf = fs.outbuf) : OnlyPushes fs fs' :=
  ⟨hin, hsock, [], by rw [hout, List.append_nil]⟩

theorem OnlyPushes.refl (fs : Fakeswitch) : OnlyPushes fs fs := .of_eq rfl rfl rfl

theorem OnlyPushes.trans {fs₁ fs₂ fs₃ : Fakeswitch} (h : OnlyPushes fs₁ fs₂)
    (h' : OnlyPushes fs₂ fs₃) : OnlyPushes fs₁ fs₃ := by
  obtain ⟨bs, hbs⟩ := h.outbuf_eq
  obtain ⟨bs', hbs'⟩ := h'.outbuf_eq
  refine ⟨h'.inbuf_eq.trans h.inbuf_eq, h'.sock_eq.trans h.sock_eq, bs ++ bs', ?_⟩
  rw [hbs', hbs, List.append_assoc]

theorem onlyPushes_queueProbe (buf : Mem) (n : ℕ) (fs : Fakeswitch) :
    OnlyPushes fs ((queueProbe buf)^[n] fs) := by
  induction n with
  | zero => exact .refl fs
  | succ n ih =>
    rw [Function.iterate_succ_apply']
    exact ih.trans ⟨rfl, rfl, _, contents_msgbufPush _ _⟩

theorem onlyPushes_switchChangeStatusNow (fs : Fakeswitch) (st : HandshakeStatus) :
    OnlyPushes fs (switchChangeStatusNow fs st) := by
  unfold switchChangeStatusNow
  split <;> exact .of_eq rfl rfl rfl

theorem onlyPushes_switchChangeStatus (now : Timeval) (fs : Fakeswitch) (st : HandshakeStatus) :
    OnlyPushes fs (switchChangeStatus now fs st) := by
  obtain ⟨_, _, _, _, _, h⟩ := switchChangeStatus_frame now fs st
  rw [h]
  exact .of_eq rfl rfl rfl

theorem onlyPushes_writeStep (env : WriteEnv) (fs : Fakeswitch) :
    OnlyPushes fs (writeStep env fs) := by
  unfold writeStep
  split
  · exact onlyPushes_queueProbe env.buf _ fs
  -- WAITING: the status changes when the delay is over
  · split
    · exact onlyPushes_switchChangeStatusNow fs _
    · exact .refl fs
  -- LEARN_DSTMAC: the gratuitous ARP, then a status change
  · have hlearn : OnlyPushes fs (ofp13SwitchLearnDstmac fs) :=
      ⟨rfl, rfl, _, contents_msgbufPush _ _⟩
    exact hlearn.trans (onlyPushes_switchChangeStatus env.now _ _)
  · split
    · exact onlyPushes_switchChangeStatus env.now fs _
    · exact .refl fs
  · exact .refl fs

section HandleWrite

variable (env : WriteEnv) (fs : Fakeswitch)

/-- Sending what is queued changes `outbuf` and the connection only. -/
theorem ofp13SwitchHandleWrite_frame :
    ∃ ob sk, ofp13SwitchHandleWrite env fs
      = { writeStep env fs with outbuf := ob, sock := sk } := by
  unfold ofp13SwitchHandleWrite flushOutbuf
  split
  · exact ⟨_, _, rfl⟩
  · exact ⟨_, _, rfl⟩

@[simp] theorem ofp13SwitchHandleWrite_mode :
    (ofp13SwitchHandleWrite env fs).mode = (writeStep env fs).mode := by
  obtain ⟨_, _, h⟩ := ofp13SwitchHandleWrite_frame env fs
  rw [h]

@[simp] theorem ofp13SwitchHandleWrite_probeState :
    (ofp13SwitchHandleWrite env fs).probeState = (writeStep env fs).probeState := by
  obtain ⟨_, _, h⟩ := ofp13SwitchHandleWrite_frame env fs
  rw [h]

@[simp] theorem ofp13SwitchHandleWrite_count :
    (ofp13SwitchHandleWrite env fs).count = (writeStep env fs).count := by
  obtain ⟨_, _, h⟩ := ofp13SwitchHandleWrite_frame env fs
  rw [h]

@[simp] theorem ofp13SwitchHandleWrite_switchStatus :
    (ofp13SwitchHandleWrite env fs).switchStatus = (writeStep env fs).switchStatus := by
  obtain ⟨_, _, h⟩ := ofp13SwitchHandleWrite_frame env fs
  rw [h]

@[simp] theorem ofp13SwitchHandleWrite_inbuf :
    (ofp13SwitchHandleWrite env fs).inbuf = fs.inbuf := by
  obtain ⟨_, _, h⟩ := ofp13SwitchHandleWrite_frame env fs
  rw [h]
  exact (onlyPushes_writeStep env fs).inbuf_eq

@[simp] theorem ofp13SwitchHandleWrite_rx :
    (ofp13SwitchHandleWrite env fs).sock.rx = fs.sock.rx := by
  have h := (onlyPushes_writeStep env fs).sock_eq
  unfold ofp13SwitchHandleWrite flushOutbuf
  dsimp only
  split
  · rw [msgbufWrite_rx, h]
  · rw [h]

/-- Flushing loses nothing, so a call only adds to what the switch has pushed. -/
theorem ofp13SwitchHandleWrite_sent :
    ∃ bs, (ofp13SwitchHandleWrite env fs).sent = fs.sent ++ bs := by
  have h := onlyPushes_writeStep env fs
  obtain ⟨bs, hbs⟩ := h.outbuf_eq
  refine ⟨bs, ?_⟩
  have hstep : (writeStep env fs).sent = fs.sent ++ bs := by
    rw [Fakeswitch.sent, h.sock_eq, hbs, Fakeswitch.sent, List.append_assoc]
  rw [← hstep]
  unfold ofp13SwitchHandleWrite flushOutbuf Fakeswitch.sent
  split
  · exact msgbufWrite_spec _ _ 0 _
  · rfl

end HandleWrite

end OfcBenchmark
