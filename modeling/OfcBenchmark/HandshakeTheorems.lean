import OfcBenchmark.MsgbufRuns
import OfcBenchmark.SwitchRuns

/-!
# The handshake gates the PACKET_INs

A fake switch goes from START over SEND_PORT_DESC, and LEARN_DSTMAC when it is to learn, to
READY_TO_SEND, and may wait in WAITING for each of them; `Fakeswitch.stage` looks through
the waiting. Probes are queued in READY_TO_SEND and the gratuitous ARP in LEARN_DSTMAC only.
The step out of SEND_PORT_DESC needs the latch `sendPortDesc`, which a PORT_DESC request
sets. So the gate holds in a run from a clear latch in which every message that is taken for such
a request is one (`gated_of_handshakeInv`).
-/

namespace OfcBenchmark
open ByteMemory Runs

/-! ## What is queued -/

/-- Byte 1 of a message is its type. -/
def IsPacketIn (m : List UInt8) : Prop := m[1]? = some Ofp131Type.packetIn.toByte

instance (m : List UInt8) : Decidable (IsPacketIn m) := inferInstanceAs (Decidable (_ = _))

/-- The probe a switch queues next. -/
def probe (buf : Mem) (fs : Fakeswitch) : List UInt8 :=
  let r := ofp13MakePacketIn fs.id fs.xid fs.bufferId buf fs.macAddress
  r.1.read 0 r.2

/-- The probes a write step queues. -/
def probes (buf : Mem) (fs : Fakeswitch) : List (List UInt8) :=
  if fs.switchStatus = .readyToSend then
    (List.range (sendCount fs)).map fun k => probe buf ((queueProbe buf)^[k] fs)
  else []

/-- The gratuitous ARP a write step queues. -/
def gratuitousArps (fs : Fakeswitch) : List (List UInt8) :=
  if fs.switchStatus = .learnDstmac then
    let r := ofp13LearnDstmacPacketIn fs.id fs.xid fs.bufferId
    [r.1.read 0 r.2]
  else []

/-- The messages a step pushes to `outbuf`. A message without a reply counts as an empty
one. -/
def queued (t : SwitchTransition) : List (List UInt8) :=
  match t.event with
  | .message role _ buf ofph _ => [replyBytes role ofph ⟨t.pre.config, t.pre.fs, buf⟩]
  | .write env => probes env.buf t.pre.fs ++ gratuitousArps t.pre.fs
  | _ => []

/-- The probes among them. -/
def probesOf (t : SwitchTransition) : List (List UInt8) :=
  match t.event with
  | .write env => probes env.buf t.pre.fs
  | _ => []

/-- The gratuitous ARPs among them. -/
def arpsOf (t : SwitchTransition) : List (List UInt8) :=
  match t.event with
  | .write _ => gratuitousArps t.pre.fs
  | _ => []

theorem queueProbe_iterate_contents (buf : Mem) (n : ℕ) (fs : Fakeswitch) :
    ((queueProbe buf)^[n] fs).outbuf.contents = fs.outbuf.contents
      ++ ((List.range n).map fun k => probe buf ((queueProbe buf)^[k] fs)).flatten := by
  induction n with
  | zero => exact (List.append_nil _).symm
  | succ n ih =>
    rw [Function.iterate_succ_apply', List.range_succ, List.map_append, List.flatten_append,
      ← List.append_assoc, ← ih, List.map_singleton, List.flatten_singleton]
    exact contents_msgbufPush _ _

theorem probes_of_ne {fs : Fakeswitch} (h : fs.switchStatus ≠ .readyToSend) (buf : Mem) :
    probes buf fs = [] := if_neg h

theorem gratuitousArps_of_ne {fs : Fakeswitch} (h : fs.switchStatus ≠ .learnDstmac) :
    gratuitousArps fs = [] := if_neg h

/-- A write step pushes just these messages. -/
theorem writeStep_contents (env : WriteEnv) (fs : Fakeswitch) :
    (writeStep env fs).outbuf.contents
      = fs.outbuf.contents ++ (probes env.buf fs ++ gratuitousArps fs).flatten := by
  have hnone : fs.switchStatus ≠ .readyToSend → fs.switchStatus ≠ .learnDstmac →
      fs.outbuf.contents ++ (probes env.buf fs ++ gratuitousArps fs).flatten
        = fs.outbuf.contents := by
    intro hready hlearn
    rw [probes_of_ne hready, gratuitousArps_of_ne hlearn]
    exact List.append_nil _
  unfold writeStep
  split
  case h_1 hst =>
    rw [gratuitousArps_of_ne (by rw [hst]; nofun), List.append_nil, probes, if_pos hst]
    exact queueProbe_iterate_contents env.buf (sendCount fs) fs
  case h_2 hst =>
    rw [hnone (by rw [hst]; nofun) (by rw [hst]; nofun)]
    split
    · unfold switchChangeStatusNow
      split <;> rfl
    · rfl
  case h_3 hst =>
    obtain ⟨_, _, _, _, _, h⟩ :=
      switchChangeStatus_frame env.now (ofp13SwitchLearnDstmac fs) .readyToSend
    rw [probes_of_ne (by rw [hst]; nofun), List.nil_append, gratuitousArps, if_pos hst, h]
    dsimp only
    rw [List.flatten_singleton]
    exact contents_msgbufPush _ _
  case h_4 hst =>
    rw [hnone (by rw [hst]; nofun) (by rw [hst]; nofun)]
    split
    · obtain ⟨_, _, _, _, _, h⟩ := switchChangeStatus_frame env.now fs
        (if fs.learnDstMac then .learnDstmac else .readyToSend)
      rw [h]
    · rfl
  case h_5 hst => rw [hnone (by rw [hst]; nofun) (by rw [hst]; nofun)]

/-- Flushing moves bytes from `outbuf` to the connection. -/
theorem sent_ofp13SwitchHandleWrite (env : WriteEnv) (fs : Fakeswitch) :
    (ofp13SwitchHandleWrite env fs).sent = (writeStep env fs).sent := by
  unfold ofp13SwitchHandleWrite flushOutbuf Fakeswitch.sent
  split
  · exact msgbufWrite_spec _ _ 0 _
  · rfl

/-- What a switch has sent or buffered grows by what each step queues. -/
theorem sent_step {s s' : SwitchState} {e : SwitchEvent} (h : ProgramStep s e s') :
    s'.fs.sent = s.fs.sent ++ (queued ⟨s, e, s'⟩).flatten := by
  cases programMove_of_step h with
  | receive env => exact (List.append_nil _).symm
  | message role now buf ofph length hnext =>
    show (s.next role now buf ofph length).fs.sent = _ ++ ([_] : List _).flatten
    let pulled := ReadState.pull ⟨s.config, s.fs, buf⟩ length
    have hout := ofp13HandleMessage_outbuf role now ofph pulled
    have hsock := ofp13HandleMessage_sock role now ofph pulled
    rw [List.flatten_singleton, Fakeswitch.sent, Fakeswitch.sent, List.append_assoc]
    exact congrArg₂ (· ++ ·) (congrArg Socket.tx hsock) hout
  | write env =>
    have hsock := (onlyPushes_writeStep env s.fs).sock_eq
    show (ofp13SwitchHandleWrite env s.fs).sent = _
    rw [sent_ofp13SwitchHandleWrite, Fakeswitch.sent, hsock, writeStep_contents,
      ← List.append_assoc]
    rfl
  | getCount ts inbuf sock pulled hcount =>
    exact (switchGetCount_sent hcount).trans (List.append_nil _).symm
  | configure config => exact (List.append_nil _).symm

/-- Every probe is a PACKET_IN. -/
theorem isPacketIn_probe (buf : Mem) (fs : Fakeswitch) : IsPacketIn (probe buf fs) := rfl

/-- So is the gratuitous ARP. -/
theorem isPacketIn_gratuitousArp (fs : Fakeswitch) :
    IsPacketIn ((ofp13LearnDstmacPacketIn fs.id fs.xid fs.bufferId).1.read 0
      (ofp13LearnDstmacPacketIn fs.id fs.xid fs.bufferId).2) := rfl

/-- No reply is one. -/
theorem not_isPacketIn_replyBytes (role ofph : Mem) (s : ReadState) :
    ¬ IsPacketIn (replyBytes role ofph s) := by
  have heq := replyBytes_eq role ofph s
  rcases ht : replyType ofph with - | t
  · rw [ht] at heq
    rw [IsPacketIn, show replyBytes role ofph s = [] from heq]
    nofun
  · rw [ht] at heq
    obtain ⟨-, body, hbytes⟩ := heq
    have hsome : (replyBytes role ofph s)[1]? = some t.toByte := by
      rw [hbytes]
      cases t <;> rfl
    obtain ⟨req, -, hreply⟩ := Option.bind_eq_some_iff.mp ht
    rw [IsPacketIn, hsome]
    intro htype
    -- PACKET_IN is not the reply to anything
    have hpacketIn : t = .packetIn := by
      cases t <;> first | rfl | exact absurd htype (by decide)
    rw [hpacketIn] at hreply
    cases req <;> simp [Ofp131Type.reply] at hreply

/-! ## Stages -/

/-- The status a switch is in, or waits for. -/
def Fakeswitch.stage (fs : Fakeswitch) : HandshakeStatus :=
  if fs.switchStatus = .waiting then fs.nextStatus else fs.switchStatus

/-- The stage after a write step. -/
def Fakeswitch.nextStage (fs : Fakeswitch) : HandshakeStatus :=
  match fs.switchStatus with
  | .learnDstmac => .readyToSend
  | .sendPortDesc =>
    if fs.sendPortDesc then if fs.learnDstMac then .learnDstmac else .readyToSend
    else .sendPortDesc
  | _ => fs.stage

theorem stage_of_ne {fs : Fakeswitch} (h : fs.switchStatus ≠ .waiting) :
    fs.stage = fs.switchStatus := if_neg h

theorem stage_switchChangeStatusNow (fs : Fakeswitch) {st : HandshakeStatus} (h : st ≠ .waiting) :
    (switchChangeStatusNow fs st).stage = st := by
  unfold switchChangeStatusNow
  split <;> exact if_neg h

theorem stage_switchChangeStatus (now : Timeval) (fs : Fakeswitch) {st : HandshakeStatus}
    (h : st ≠ .waiting) : (switchChangeStatus now fs st).stage = st := by
  unfold switchChangeStatus
  split
  · exact stage_switchChangeStatusNow fs h
  · exact if_pos rfl

/-- A message with this type asks for the features. -/
def IsFeaturesRequest (ofph : Mem) : Prop := Ofp131Type.ofByte (ofph 1) = some .featuresRequest

instance (ofph : Mem) : Decidable (IsFeaturesRequest ofph) := inferInstanceAs (Decidable (_ = _))

/-- What the handler takes for a request for the port description: a MULTIPART_REQUEST with that
type in the bytes 8 and 9, whether these are still bytes of the message or not. -/
def ReadsPortDesc (ofph : Mem) : Prop :=
  Ofp131Type.ofByte (ofph 1) = some .multipartRequest ∧ htons (ofph.load16 8) = OFPMP_PORT_DESC

instance (ofph : Mem) : Decidable (ReadsPortDesc ofph) := inferInstanceAs (Decidable (_ ∧ _))

/-- A MULTIPART_REQUEST for the port description. -/
def IsPortDescRequest (ofph : Mem) (length : ℕ) : Prop := 10 ≤ length ∧ ReadsPortDesc ofph

instance (ofph : Mem) (length : ℕ) : Decidable (IsPortDescRequest ofph length) :=
  inferInstanceAs (Decidable (_ ∧ _))

/-- What a step does to the stage, the latch and the setting. -/
structure StageStep (stage : HandshakeStatus) (latch : Bool) (fs fs' : Fakeswitch) : Prop where
  stage_eq : fs'.stage = stage
  sendPortDesc_eq : fs'.sendPortDesc = latch
  learnDstMac_eq : fs'.learnDstMac = fs.learnDstMac

section Message

variable (role : Mem) (now : Timeval) (ofph : Mem) (s : ReadState)

/-- Where the status stays. -/
theorem StageStep.of_eq {latch : Bool} {fs fs' : Fakeswitch}
    (hstatus : fs'.switchStatus = fs.switchStatus) (hnext : fs'.nextStatus = fs.nextStatus)
    (hlatch : fs'.sendPortDesc = latch) (hlearn : fs'.learnDstMac = fs.learnDstMac) :
    StageStep fs.stage latch fs fs' where
  stage_eq := by rw [Fakeswitch.stage, Fakeswitch.stage, hstatus, hnext]
  sendPortDesc_eq := hlatch
  learnDstMac_eq := hlearn

/-- What a message makes of the status and the latch: a request for the features moves the
switch, one for the port description sets the latch, and every other message leaves both. -/
theorem ofp13Dispatch_cases :
    (IsFeaturesRequest ofph ∧ ∃ bs, (ofp13Dispatch role now ofph s).fs
      = switchChangeStatus now (s.fs.push bs) .sendPortDesc) ∨
    (ReadsPortDesc ofph ∧ ∃ bs, (ofp13Dispatch role now ofph s).fs
      = { s.fs with sendPortDesc := true }.push bs) ∨
    (¬ IsFeaturesRequest ofph ∧ ¬ ReadsPortDesc ofph ∧
      ∃ ob c ps, (ofp13Dispatch role now ofph s).fs
        = { s.fs with outbuf := ob, count := c, probeState := ps }) := by
  by_cases hf : IsFeaturesRequest ofph
  · refine .inl ⟨hf, ?_⟩
    unfold ofp13Dispatch
    rw [hf]
    exact ⟨_, rfl⟩
  by_cases hp : ReadsPortDesc ofph
  · refine .inr (.inl ⟨hp, ?_⟩)
    unfold ofp13Dispatch
    rw [hp.1]
    dsimp only
    rw [if_pos hp.2]
    exact ⟨_, rfl⟩
  refine .inr (.inr ⟨hf, hp, ?_⟩)
  unfold ofp13Dispatch
  split
  case h_6 ht => exact absurd ht hf
  case h_8 ht =>
    dsimp only
    rw [if_neg fun h => hp ⟨ht, h⟩]
    split <;> exact ⟨_, _, _, rfl⟩
  case h_3 =>
    dsimp only
    unfold Fakeswitch.restartProbe
    split <;> exact ⟨_, _, _, rfl⟩
  case h_1 => split <;> exact ⟨_, _, _, rfl⟩
  case h_2 =>
    dsimp only
    split <;> exact ⟨_, _, _, rfl⟩
  all_goals exact ⟨_, _, _, rfl⟩

theorem not_readsPortDesc (hf : IsFeaturesRequest ofph) : ¬ ReadsPortDesc ofph := by
  intro hp
  rw [ReadsPortDesc, hf] at hp
  cases hp.1

theorem stageStep_ofp13Dispatch :
    StageStep (if IsFeaturesRequest ofph then .sendPortDesc else s.fs.stage)
      (s.fs.sendPortDesc || decide (ReadsPortDesc ofph)) s.fs
      (ofp13Dispatch role now ofph s).fs := by
  obtain ⟨hf, bs, h⟩ | ⟨hp, bs, h⟩ | ⟨hf, hp, ob, c, ps, h⟩ := ofp13Dispatch_cases role now ofph s
  · have hstage : (switchChangeStatus now (s.fs.push bs) .sendPortDesc).stage = .sendPortDesc :=
      stage_switchChangeStatus now _ nofun
    obtain ⟨_, _, _, _, _, hframe⟩ := switchChangeStatus_frame now (s.fs.push bs) .sendPortDesc
    rw [h, if_pos hf, decide_eq_false (not_readsPortDesc ofph hf), Bool.or_false]
    rw [hframe] at hstage ⊢
    exact ⟨hstage, rfl, rfl⟩
  · have hf : ¬ IsFeaturesRequest ofph := fun hf => not_readsPortDesc ofph hf hp
    rw [h, if_neg hf, decide_eq_true hp, Bool.or_true]
    exact .of_eq rfl rfl rfl rfl
  · rw [h, if_neg hf, decide_eq_false hp, Bool.or_false]
    exact .of_eq rfl rfl rfl rfl

/-- A message moves the switch to SEND_PORT_DESC if it asks for the features, and sets the
latch if it asks for the port description. -/
theorem stageStep_ofp13HandleMessage :
    StageStep (if IsFeaturesRequest ofph then .sendPortDesc else s.fs.stage)
      (s.fs.sendPortDesc || decide (ReadsPortDesc ofph)) s.fs
      (ofp13HandleMessage role now ofph s).fs := by
  have h := stageStep_ofp13Dispatch role now ofph s
  show StageStep _ _ _ (ofp13Dispatch role now ofph s).fs.clamp
  rw [clamp_frame]
  exact ⟨h.stage_eq, h.sendPortDesc_eq, h.learnDstMac_eq⟩

end Message

/-- Queueing probes changes neither the status nor the latch. -/
theorem stageStep_queueProbe (buf : Mem) (n : ℕ) (fs : Fakeswitch) :
    StageStep fs.stage fs.sendPortDesc fs ((queueProbe buf)^[n] fs) := by
  induction n with
  | zero => exact ⟨rfl, rfl, rfl⟩
  | succ n ih =>
    rw [Function.iterate_succ_apply']
    exact ⟨ih.stage_eq, ih.sendPortDesc_eq, ih.learnDstMac_eq⟩

theorem stageStep_switchChangeStatus (now : Timeval) (fs : Fakeswitch) {st : HandshakeStatus}
    (h : st ≠ .waiting) :
    StageStep st fs.sendPortDesc fs (switchChangeStatus now fs st) := by
  have hstage := stage_switchChangeStatus now fs h
  obtain ⟨_, _, _, _, _, hframe⟩ := switchChangeStatus_frame now fs st
  rw [hframe] at hstage ⊢
  exact ⟨hstage, rfl, rfl⟩

theorem stageStep_writeStep (env : WriteEnv) {fs : Fakeswitch} (hstage : fs.stage ≠ .waiting) :
    StageStep fs.nextStage fs.sendPortDesc fs (writeStep env fs) := by
  unfold writeStep Fakeswitch.nextStage
  cases hst : fs.switchStatus with
  | start => exact ⟨rfl, rfl, rfl⟩
  | sendPortDesc =>
    dsimp only
    split
    · refine stageStep_switchChangeStatus env.now fs ?_
      split <;> nofun
    · exact ⟨(stage_of_ne (by rw [hst]; nofun)).trans hst, rfl, rfl⟩
  | learnDstmac =>
    have hready : HandshakeStatus.readyToSend ≠ .waiting := nofun
    have h := stageStep_switchChangeStatus env.now (ofp13SwitchLearnDstmac fs) hready
    exact ⟨h.stage_eq, h.sendPortDesc_eq, h.learnDstMac_eq⟩
  | readyToSend => exact stageStep_queueProbe env.buf (sendCount fs) fs
  | waiting =>
    have hnext : fs.stage = fs.nextStatus := if_pos hst
    dsimp only
    split
    -- the delay is over
    · have hnow := stage_switchChangeStatusNow fs (hnext ▸ hstage)
      refine ⟨hnow.trans hnext.symm, ?_, ?_⟩ <;> unfold switchChangeStatusNow <;> split <;> rfl
    · exact ⟨rfl, rfl, rfl⟩

theorem stageStep_ofp13SwitchHandleWrite (env : WriteEnv) {fs : Fakeswitch}
    (hstage : fs.stage ≠ .waiting) :
    StageStep fs.nextStage fs.sendPortDesc fs (ofp13SwitchHandleWrite env fs) := by
  have h := stageStep_writeStep env hstage
  obtain ⟨_, _, hframe⟩ := ofp13SwitchHandleWrite_frame env fs
  rw [hframe]
  exact ⟨h.stage_eq, h.sendPortDesc_eq, h.learnDstMac_eq⟩

/-! ## The gate -/

/-- The step handles a FEATURES_REQUEST. -/
def HandlesFeatures (t : SwitchTransition) : Prop :=
  match t.event with
  | .message _ _ _ ofph _ => IsFeaturesRequest ofph
  | _ => False

/-- The step handles a MULTIPART_REQUEST for the port description. -/
def HandlesPortDesc (t : SwitchTransition) : Prop :=
  match t.event with
  | .message _ _ _ ofph length => IsPortDescRequest ofph length
  | _ => False

/-- No message asks for both. -/
theorem not_handlesPortDesc {t : SwitchTransition} (hfeatures : HandlesFeatures t) :
    ¬ HandlesPortDesc t := by
  obtain ⟨s, e, s'⟩ := t
  cases e with
  | message role now buf ofph length => exact fun h => not_readsPortDesc ofph hfeatures h.2
  | receive | write | changeStatus | changeStatusNow | getCount | configure => exact id

/-- What the step takes for a request for the port description is one: the type that it reads is in
the message. -/
def PortDescInMessage (t : SwitchTransition) : Prop :=
  match t.event with
  | .message _ _ _ ofph length => ReadsPortDesc ofph → 10 ≤ length
  | _ => True

/-- No PACKET_IN is queued before both requests are handled, and a switch that is to learn
queues no probe before a gratuitous ARP. -/
structure Gated (learnDstMac : Bool) (history : List SwitchTransition) : Prop where
  packetIn_after : ∀ before t after, history = before ++ t :: after →
    (∃ m ∈ queued t, IsPacketIn m) →
      (∃ r ∈ before, HandlesFeatures r) ∧ ∃ r ∈ before, HandlesPortDesc r
  probe_after : learnDstMac = true → ∀ before t after, history = before ++ t :: after →
    probesOf t ≠ [] → ∃ r ∈ before, arpsOf r ≠ []

/-- What has happened has happened one step later too. -/
theorem exists_mem_concat {P : SwitchTransition → Prop} {past : List SwitchTransition}
    (h : ∃ r ∈ past, P r) (t : SwitchTransition) : ∃ r ∈ past ++ [t], P r := by
  obtain ⟨r, hr, hP⟩ := h
  exact ⟨r, List.mem_append_left _ hr, hP⟩

theorem exists_mem_concat_self {P : SwitchTransition → Prop} (past : List SwitchTransition)
    {t : SwitchTransition} (h : P t) : ∃ r ∈ past ++ [t], P r :=
  ⟨t, List.mem_append_right _ (List.mem_singleton_self t), h⟩

/-- What the stage of a switch says about the run so far. -/
structure HandshakeInv (learnDstMac : Bool) (past : List SwitchTransition) (fs : Fakeswitch) :
    Prop where
  learnDstMac_eq : fs.learnDstMac = learnDstMac
  stage_ne : fs.stage ≠ .waiting
  features : fs.stage ≠ .start → ∃ r ∈ past, HandlesFeatures r
  latch : fs.sendPortDesc = true → ∃ r ∈ past, HandlesPortDesc r
  portDesc : fs.stage = .learnDstmac ∨ fs.stage = .readyToSend → ∃ r ∈ past, HandlesPortDesc r
  learned : learnDstMac = true → fs.stage = .readyToSend → ∃ r ∈ past, arpsOf r ≠ []

section Invariant

variable {learnDstMac : Bool} {past : List SwitchTransition} {s s' : SwitchState}

/-- A step that leaves the stage alone, and sets the latch for a request only. -/
theorem HandshakeInv.of_stage_eq {fs fs' : Fakeswitch} (h : HandshakeInv learnDstMac past fs)
    {t : SwitchTransition} (hstage : fs'.stage = fs.stage)
    (hlearn : fs'.learnDstMac = fs.learnDstMac)
    (hlatch : fs'.sendPortDesc = true → ∃ r ∈ past ++ [t], HandlesPortDesc r) :
    HandshakeInv learnDstMac (past ++ [t]) fs' := by
  refine ⟨hlearn.trans h.learnDstMac_eq, ?_, ?_, hlatch, ?_, ?_⟩ <;> rw [hstage]
  · exact h.stage_ne
  · intro hst
    exact exists_mem_concat (h.features hst) t
  · intro hst
    exact exists_mem_concat (h.portDesc hst) t
  · intro hlearns hst
    exact exists_mem_concat (h.learned hlearns hst) t

/-- A step that leaves the status and the latch alone. -/
theorem HandshakeInv.of_stageStep {fs fs' : Fakeswitch} (h : HandshakeInv learnDstMac past fs)
    (hstep : StageStep fs.stage fs.sendPortDesc fs fs') (t : SwitchTransition) :
    HandshakeInv learnDstMac (past ++ [t]) fs' := by
  apply h.of_stage_eq hstep.stage_eq hstep.learnDstMac_eq
  rw [hstep.sendPortDesc_eq]
  intro hset
  exact exists_mem_concat (h.latch hset) t

/-- A request for the features leads to SEND_PORT_DESC, one for the port description sets the
latch. -/
theorem HandshakeInv.message (h : HandshakeInv learnDstMac past s.fs) {role : Mem}
    {now : Timeval} {buf ofph : Mem} {length : ℕ} (hin : ReadsPortDesc ofph → 10 ≤ length) :
    HandshakeInv learnDstMac
      (past ++ [⟨s, .message role now buf ofph length, s.next role now buf ofph length⟩])
      (s.next role now buf ofph length).fs := by
  let t : SwitchTransition :=
    ⟨s, .message role now buf ofph length, s.next role now buf ofph length⟩
  obtain ⟨hstage, hlatch, hlearn⟩ :=
    stageStep_ofp13HandleMessage role now ofph (ReadState.pull ⟨s.config, s.fs, buf⟩ length)
  change t.post.fs.stage = if _ then _ else s.fs.stage at hstage
  change t.post.fs.sendPortDesc = (s.fs.sendPortDesc || _) at hlatch
  change HandshakeInv learnDstMac (past ++ [t]) t.post.fs
  have hlatched : t.post.fs.sendPortDesc = true → ∃ r ∈ past ++ [t], HandlesPortDesc r := by
    intro hset
    rw [hlatch, Bool.or_eq_true, decide_eq_true_eq] at hset
    rcases hset with hold | hp
    · exact exists_mem_concat (h.latch hold) t
    · exact exists_mem_concat_self past ⟨hin hp, hp⟩
  by_cases hf : IsFeaturesRequest ofph
  · rw [if_pos hf] at hstage
    refine ⟨hlearn.trans h.learnDstMac_eq, ?_, ?_, hlatched, ?_, ?_⟩ <;> rw [hstage]
    · nofun
    · intro _
      exact exists_mem_concat_self past hf
    · exact nofun
    · exact nofun
  · rw [if_neg hf] at hstage
    exact h.of_stage_eq hstage hlearn hlatched

/-- A write step leaves SEND_PORT_DESC when the latch is set, and LEARN_DSTMAC with a
gratuitous ARP queued. -/
theorem HandshakeInv.write (h : HandshakeInv learnDstMac past s.fs) (env : WriteEnv) :
    HandshakeInv learnDstMac
      (past ++ [⟨s, .write env, { s with fs := ofp13SwitchHandleWrite env s.fs }⟩])
      (ofp13SwitchHandleWrite env s.fs) := by
  let t : SwitchTransition := ⟨s, .write env, { s with fs := ofp13SwitchHandleWrite env s.fs }⟩
  have hstep := stageStep_ofp13SwitchHandleWrite env h.stage_ne
  obtain ⟨hstage, hlatch, hlearn⟩ := hstep
  unfold Fakeswitch.nextStage at hstage
  cases hst : s.fs.switchStatus with
  | learnDstmac =>
    have hnow : s.fs.stage = .learnDstmac := (stage_of_ne (by rw [hst]; nofun)).trans hst
    have harp : arpsOf t ≠ [] := by
      rw [show arpsOf t = gratuitousArps s.fs from rfl, gratuitousArps, if_pos hst]
      nofun
    rw [hst] at hstage
    refine ⟨hlearn.trans h.learnDstMac_eq, ?_, ?_, ?_, ?_, ?_⟩
    · rw [hstage]
      nofun
    · intro _
      exact exists_mem_concat (h.features (by rw [hnow]; nofun)) t
    · rw [hlatch]
      intro hset
      exact exists_mem_concat (h.latch hset) t
    · intro _
      exact exists_mem_concat (h.portDesc (.inl hnow)) t
    · intro _ _
      exact exists_mem_concat_self past harp
  | sendPortDesc =>
    have hnow : s.fs.stage = .sendPortDesc := (stage_of_ne (by rw [hst]; nofun)).trans hst
    rw [hst] at hstage
    dsimp only at hstage
    split at hstage
    case isFalse => exact h.of_stageStep ⟨hstage.trans hnow.symm, hlatch, hlearn⟩ t
    case isTrue hset =>
      have hfeatures := exists_mem_concat (h.features (by rw [hnow]; nofun)) t
      have hlatched := exists_mem_concat (h.latch hset) t
      refine ⟨hlearn.trans h.learnDstMac_eq, ?_, fun _ => hfeatures, fun _ => hlatched,
        fun _ => hlatched, ?_⟩
      · rw [hstage]
        split <;> nofun
      · -- a switch that is to learn goes to LEARN_DSTMAC
        rw [hstage, h.learnDstMac_eq]
        rintro rfl
        exact nofun
  | start =>
    rw [hst] at hstage
    exact h.of_stageStep ⟨hstage, hlatch, hlearn⟩ t
  | readyToSend =>
    rw [hst] at hstage
    exact h.of_stageStep ⟨hstage, hlatch, hlearn⟩ t
  | waiting =>
    rw [hst] at hstage
    exact h.of_stageStep ⟨hstage, hlatch, hlearn⟩ t

theorem HandshakeInv.step {e : SwitchEvent} (h : HandshakeInv learnDstMac past s.fs)
    (hstep : ProgramStep s e s') (hin : PortDescInMessage ⟨s, e, s'⟩) :
    HandshakeInv learnDstMac (past ++ [⟨s, e, s'⟩]) s'.fs := by
  cases programMove_of_step hstep with
  | receive env =>
    have hread : StageStep s.fs.stage s.fs.sendPortDesc s.fs (readState env s.config s.fs).fs :=
      ⟨rfl, rfl, rfl⟩
    exact h.of_stageStep hread _
  | message role now buf ofph length hnext => exact h.message hin
  | write env => exact h.write env
  | getCount ts inbuf sock pulled hcount =>
    let fs' := { s.fs with count := 0, probeState := 0, inbuf := inbuf, sock := sock }
    have hcleared : StageStep s.fs.stage s.fs.sendPortDesc s.fs fs' := ⟨rfl, rfl, rfl⟩
    exact h.of_stageStep hcleared _
  | configure config =>
    have hsame : StageStep s.fs.stage s.fs.sendPortDesc s.fs s.fs := ⟨rfl, rfl, rfl⟩
    exact h.of_stageStep hsame _

theorem stage_of_probes_ne_nil {buf : Mem} {fs : Fakeswitch} (h : probes buf fs ≠ []) :
    fs.stage = .readyToSend := by
  have hst : fs.switchStatus = .readyToSend := by
    by_contra hne
    exact h (probes_of_ne hne buf)
  exact (stage_of_ne (by rw [hst]; nofun)).trans hst

theorem stage_of_gratuitousArps_ne_nil {fs : Fakeswitch} (h : gratuitousArps fs ≠ []) :
    fs.stage = .learnDstmac := by
  have hst : fs.switchStatus = .learnDstmac := by
    by_contra hne
    exact h (gratuitousArps_of_ne hne)
  exact (stage_of_ne (by rw [hst]; nofun)).trans hst

/-- Only a write step in LEARN_DSTMAC or READY_TO_SEND queues PACKET_INs. -/
theorem stage_of_isPacketIn {t : SwitchTransition} (h : ∃ m ∈ queued t, IsPacketIn m) :
    t.pre.fs.stage = .learnDstmac ∨ t.pre.fs.stage = .readyToSend := by
  obtain ⟨m, hm, hpacketIn⟩ := h
  obtain ⟨s, e, s'⟩ := t
  rcases e with env | ⟨role, now, buf, ofph, length⟩ | env | ⟨now, st⟩ | st | ts | config
  case message =>
    rw [List.mem_singleton.mp hm] at hpacketIn
    exact absurd hpacketIn (not_isPacketIn_replyBytes _ _ _)
  case write =>
    rcases List.mem_append.mp hm with hp | ha
    · exact .inr (stage_of_probes_ne_nil (List.ne_nil_of_mem hp))
    · exact .inl (stage_of_gratuitousArps_ne_nil (List.ne_nil_of_mem ha))
  all_goals exact absurd hm List.not_mem_nil

theorem stage_of_probesOf_ne_nil {t : SwitchTransition} (h : probesOf t ≠ []) :
    t.pre.fs.stage = .readyToSend := by
  obtain ⟨s, e, s'⟩ := t
  rcases e with env | ⟨role, now, buf, ofph, length⟩ | env | ⟨now, st⟩ | st | ts | config
  case write => exact stage_of_probes_ne_nil h
  all_goals exact absurd rfl h

/-- A run from a state in which the invariant holds with nothing behind it is gated. -/
theorem gated_of_handshakeInv {history : List SwitchTransition}
    (h : HandshakeInv learnDstMac [] s.fs) (hrun : Run ProgramStep s history s')
    (hin : ∀ t ∈ history, PortDescInMessage t) : Gated learnDstMac history := by
  have hbefore : ∀ before t after, history = before ++ t :: after →
      HandshakeInv learnDstMac before t.pre.fs := by
    have hsteps : ∀ past (s : SwitchState) e s', HandshakeInv learnDstMac past s.fs →
        (PortDescInMessage ⟨s, e, s'⟩ ∧ ProgramStep s e s') →
          HandshakeInv learnDstMac (past ++ [⟨s, e, s'⟩]) s'.fs :=
      fun _ _ _ _ hpast hstep => hpast.step hstep.2 hstep.1
    exact ((hrun.restrict hin).invariant_history hsteps h).2
  constructor
  · intro before t after heq hpacketIn
    have hinv := hbefore before t after heq
    have hstage := stage_of_isPacketIn hpacketIn
    refine ⟨hinv.features ?_, hinv.portDesc hstage⟩
    rcases hstage with hst | hst <;> rw [hst] <;> nofun
  · intro hlearns before t after heq hprobe
    exact (hbefore before t after heq).learned hlearns (stage_of_probesOf_ne_nil hprobe)

end Invariant

/-! ## On the way to READY_TO_SEND -/

/-- A switch that has handled a FEATURES_REQUEST and has its latch set, and that was not given
more than `n` bytes to send. -/
structure OnItsWay (learnDstMac : Bool) (stage : HandshakeStatus) (n : ℕ) (fs : Fakeswitch) :
    Prop where
  stage_eq : fs.stage = stage
  sendPortDesc_eq : fs.sendPortDesc = true
  learnDstMac_eq : fs.learnDstMac = learnDstMac
  probeSize_eq : fs.probeSize = 82
  sent_le : fs.sent.length ≤ n
  probeState_eq : fs.switchStatus = .readyToSend → fs.probeState = 0

/-- A write step that queues nothing changes the status, the delay and the counters only. -/
theorem writeStep_of_ne (env : WriteEnv) {fs : Fakeswitch} (hready : fs.switchStatus ≠ .readyToSend)
    (hlearn : fs.switchStatus ≠ .learnDstmac) :
    ∃ st nx ds c ps, (st = .readyToSend → ps = 0) ∧ writeStep env fs
      = { fs with switchStatus := st, nextStatus := nx, delay_start := ds, count := c,
                  probeState := ps } := by
  have hsame : ∃ st nx ds c ps, (st = .readyToSend → ps = 0) ∧ fs
      = { fs with switchStatus := st, nextStatus := nx, delay_start := ds, count := c,
                  probeState := ps } :=
    ⟨fs.switchStatus, _, _, _, fs.probeState, fun h => absurd h hready, rfl⟩
  have hnow (st : HandshakeStatus) : ∃ st' nx ds c ps, (st' = .readyToSend → ps = 0) ∧
      switchChangeStatusNow fs st
        = { fs with switchStatus := st', nextStatus := nx, delay_start := ds, count := c,
                    probeState := ps } := by
    unfold switchChangeStatusNow
    split
    case isTrue => exact ⟨st, _, _, 0, 0, fun _ => rfl, rfl⟩
    case isFalse hne => exact ⟨st, _, _, _, fs.probeState, fun h => absurd h hne, rfl⟩
  unfold writeStep
  split
  case h_1 hst => exact absurd hst hready
  case h_2 =>
    split
    · exact hnow fs.nextStatus
    · exact hsame
  case h_3 hst => exact absurd hst hlearn
  case h_4 =>
    split
    · unfold switchChangeStatus
      split
      · exact hnow _
      · exact ⟨.waiting, _, _, _, fs.probeState, nofun, rfl⟩
    · exact hsame
  case h_5 => exact hsame

theorem programStep_write (env : WriteEnv) (config : OfpSwitchConfig) (fs : Fakeswitch) :
    ProgramStep ⟨config, fs⟩ (.write env) ⟨config, ofp13SwitchHandleWrite env fs⟩ :=
  ⟨trivial, rfl⟩

/-- A `write` that fails, after every delay of the switch. -/
def lateWrite (fs : Fakeswitch) : WriteEnv where
  transfer := .error
  now := { tv_sec := fs.delay_start.tv_sec + 1, tv_usec := 0 }
  buf := fun _ => 0

theorem timercmpGt_lateWrite (fs : Fakeswitch) :
    timercmpGt (lateWrite fs).now fs.delay_start = true := by
  unfold timercmpGt lateWrite
  rw [if_neg (by simp)]
  simp

namespace OnItsWay

variable {learnDstMac : Bool} {st : HandshakeStatus} {n : ℕ} {fs : Fakeswitch}

theorem write (h : OnItsWay learnDstMac st n fs) (hst : st ≠ .waiting)
    (hready : fs.switchStatus ≠ .readyToSend) (hlearn : fs.switchStatus ≠ .learnDstmac)
    (env : WriteEnv) : OnItsWay learnDstMac fs.nextStage n (ofp13SwitchHandleWrite env fs) := by
  have hstage : fs.stage ≠ .waiting := h.stage_eq ▸ hst
  have hstep := stageStep_ofp13SwitchHandleWrite env hstage
  have hsent := sent_ofp13SwitchHandleWrite env fs
  obtain ⟨_, _, hframe⟩ := ofp13SwitchHandleWrite_frame env fs
  obtain ⟨st', _, _, _, ps, hzero, hwrite⟩ := writeStep_of_ne env hready hlearn
  refine ⟨hstep.stage_eq, ?_, hstep.learnDstMac_eq.trans h.learnDstMac_eq, ?_, ?_, ?_⟩
  · exact hstep.sendPortDesc_eq.trans h.sendPortDesc_eq
  · rw [hframe, hwrite]
    exact h.probeSize_eq
  · rw [hsent, hwrite]
    exact h.sent_le
  · rw [hframe, hwrite]
    exact hzero

/-- A switch that waits gets to the stage it waits for. -/
theorem settle (h : OnItsWay learnDstMac st n fs) (hst : st ≠ .waiting)
    (config : OfpSwitchConfig) :
    ∃ history fs', Run ProgramStep ⟨config, fs⟩ history ⟨config, fs'⟩ ∧
      (∀ t ∈ history, ∃ env, t.event = .write env) ∧ OnItsWay learnDstMac st n fs' ∧
      fs'.switchStatus = st := by
  by_cases hwait : fs.switchStatus = .waiting
  · have hnext : fs.nextStatus = st := by
      rw [← h.stage_eq, Fakeswitch.stage, if_pos hwait]
    have hway := h.write hst (by rw [hwait]; nofun) (by rw [hwait]; nofun) (lateWrite fs)
    have hstage : fs.nextStage = st := by
      rw [Fakeswitch.nextStage, hwait]
      exact h.stage_eq
    have hstatus : (ofp13SwitchHandleWrite (lateWrite fs) fs).switchStatus = st := by
      rw [ofp13SwitchHandleWrite_switchStatus, writeStep, hwait]
      dsimp only
      rw [if_pos (timercmpGt_lateWrite fs), hnext]
      unfold switchChangeStatusNow
      split <;> rfl
    rw [hstage] at hway
    refine ⟨_, _, .single (programStep_write (lateWrite fs) config fs), ?_, hway, hstatus⟩
    intro t ht
    rw [List.mem_singleton.mp ht]
    exact ⟨_, rfl⟩
  · refine ⟨[], fs, .nil _, fun _ ht => absurd ht List.not_mem_nil, h, ?_⟩
    rw [← h.stage_eq, stage_of_ne hwait]

/-- The write step that finds the latch set, and the waiting that follows it. -/
theorem leave (h : OnItsWay learnDstMac .sendPortDesc n fs) (config : OfpSwitchConfig) :
    ∃ history fs', Run ProgramStep ⟨config, fs⟩ history ⟨config, fs'⟩ ∧
      (∀ t ∈ history, ∃ env, t.event = .write env) ∧
      OnItsWay learnDstMac (if learnDstMac then .learnDstmac else .readyToSend) n fs' ∧
      fs'.switchStatus = if learnDstMac then .learnDstmac else .readyToSend := by
  obtain ⟨history₁, fs₁, hrun₁, hwrites₁, hway₁, hst₁⟩ := h.settle nofun config
  let fs₂ := ofp13SwitchHandleWrite (lateWrite fs₁) fs₁
  have hnext : fs₁.nextStage = if learnDstMac then .learnDstmac else .readyToSend := by
    rw [Fakeswitch.nextStage, hst₁]
    dsimp only
    rw [if_pos hway₁.sendPortDesc_eq, hway₁.learnDstMac_eq]
  have hway₂ := hway₁.write nofun (by rw [hst₁]; nofun) (by rw [hst₁]; nofun) (lateWrite fs₁)
  rw [hnext] at hway₂
  have hne : (if learnDstMac then .learnDstmac else .readyToSend : HandshakeStatus) ≠ .waiting := by
    split <;> nofun
  obtain ⟨history₃, fs₃, hrun₃, hwrites₃, hway₃, hst₃⟩ := hway₂.settle hne config
  have hwrite := programStep_write (lateWrite fs₁) config fs₁
  refine ⟨history₁ ++ (⟨_, .write (lateWrite fs₁), _⟩ :: history₃), fs₃,
    hrun₁.append (.cons hwrite hrun₃), ?_, hway₃, hst₃⟩
  intro t ht
  rcases List.mem_append.mp ht with ht | ht
  · exact hwrites₁ t ht
  rcases List.mem_cons.mp ht with rfl | ht
  · exact ⟨_, rfl⟩
  · exact hwrites₃ t ht

/-- In READY_TO_SEND such a switch has a probe to queue. -/
theorem sendCount_pos (h : OnItsWay learnDstMac st n fs) (hst : fs.switchStatus = .readyToSend)
    (hn : n + 82 ≤ BUFLEN) : 0 < sendCount fs := by
  have hout : msgbufCountBuffered fs.outbuf ≤ n := by
    have hle := h.sent_le
    rw [Fakeswitch.sent, List.length_append, Msgbuf.length_contents] at hle
    omega
  unfold sendCount
  rw [h.probeState_eq hst, h.probeSize_eq]
  rcases fs.mode with - | -
  · exact one_pos
  · have hbuf : msgbufCountBuffered fs.outbuf < BUFLEN := by omega
    rw [if_neg (by decide), if_pos ⟨rfl, hbuf⟩]
    omega

end OnItsWay

/-- A switch that is to send `n` probes queues its next one. -/
theorem probe_mem_probes {fs : Fakeswitch} (hst : fs.switchStatus = .readyToSend)
    (hcount : 0 < sendCount fs) (buf : Mem) : probe buf fs ∈ probes buf fs := by
  rw [probes, if_pos hst]
  exact List.mem_map.mpr ⟨0, List.mem_range.mpr hcount, rfl⟩

/-! ## From `switchInit` on -/

/-- Byte by byte, a switch can read all the controller has sent. -/
theorem run_receive (config : OfpSwitchConfig) (fs : Fakeswitch)
    (hroom : fs.inbuf.stop < fs.inbuf.len) :
    ∃ history inbuf, Run ProgramStep ⟨config, fs⟩ history
        ⟨config, { fs with inbuf := inbuf, sock := { fs.sock with rx := [] } }⟩ ∧
      inbuf.contents = fs.inbuf.contents ++ fs.sock.rx ∧
      ∀ t ∈ history, ∃ env, t.event = .receive env := by
  induction hrx : fs.sock.rx generalizing fs with
  | nil =>
    have hsame : { fs.sock with rx := [] } = fs.sock := by rw [← hrx]
    refine ⟨[], fs.inbuf, ?_, (List.append_nil _).symm, fun _ ht => absurd ht List.not_mem_nil⟩
    rw [hsame]
    exact .nil _
  | cons b bs ih =>
    let r := msgbufRead fs.inbuf fs.sock (.upTo 1)
    have hreceived : fs.sock.received (fs.inbuf.len - fs.inbuf.stop) (.upTo 1) = [b] := by
      rw [Socket.received, min_eq_left (by omega), hrx]
      rfl
    have hcontents : r.1.contents = fs.inbuf.contents ++ [b] := by
      rw [contents_msgbufRead, hreceived]
    have hrest : r.2.1.rx = bs := by
      show fs.sock.rx.drop _ = bs
      rw [hreceived, hrx]
      rfl
    have hread : ProgramStep ⟨config, fs⟩ (.receive (readUpTo 1))
        ⟨config, { fs with inbuf := r.1, sock := r.2.1 }⟩ := ⟨trivial, rfl⟩
    obtain ⟨history, inbuf, hrun, hall, hreceive⟩ :=
      ih { fs with inbuf := r.1, sock := r.2.1 } (stop_msgbufRead_lt _ _ _) hrest
    refine ⟨_, inbuf, .cons hread hrun, ?_, ?_⟩
    · rw [hall]
      show r.1.contents ++ bs = _
      rw [hcontents, List.append_assoc]
      rfl
    · rintro t (- | ⟨_, ht⟩)
      · exact ⟨_, rfl⟩
      · exact hreceive t ht

/-- A `struct fakeswitch` in memory that is zero but for the latch. -/
def malloced (sendPortDesc : Bool) : Fakeswitch :=
  { id := 0, sock := ⟨[], []⟩
    inbuf := msgbufNew (fun _ => 0) 1 Nat.one_pos
    outbuf := msgbufNew (fun _ => 0) 1 Nat.one_pos
    mode := .latency, probeState := 0, count := 0, switchStatus := .start
    nextStatus := .start, probeSize := 0, delay := 0, xid := 0, delay_start := ⟨0, 0⟩
    nMacAddresses := 0, macAddress := 0, learnDstMac := false, sendPortDesc := sendPortDesc
    bufferId := 0, version := 0 }

/-- A latency switch on a connection, in such memory. -/
def mallocedSwitch (sendPortDesc : Bool) (sock : Socket) : SwitchState where
  config := switch_config
  fs := switchInit (malloced sendPortDesc) 1 sock BUFLEN BUFLEN_pos 0 .latency 100000 true
    OFP131_VERSION (fun _ => 0) (fun _ => 0) (fun _ => 0)

end OfcBenchmark
