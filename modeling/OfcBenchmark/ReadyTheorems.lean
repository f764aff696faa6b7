import OfcBenchmark.HandshakeTheorems
import OfcBenchmark.ProbeTheorems

/-!
# A fake switch gets to READY_TO_SEND

Whatever its settings are, a switch gets through the handshake with a controller that sends the
two requests, if its write steps come late enough (`exists_ready`), and queues a probe there
(`exists_probed`). So what is said of the runs that get there is said of something.
-/

namespace OfcBenchmark
open ByteMemory Runs

/-! ## The rest of the way -/

section Way

variable {learnDstMac : Bool} {n : ℕ} {fs : Fakeswitch}

/-- The write step that queues the gratuitous ARP. -/
theorem OnItsWay.learn (h : OnItsWay learnDstMac .learnDstmac n fs)
    (hst : fs.switchStatus = .learnDstmac) (env : WriteEnv) :
    OnItsWay learnDstMac .readyToSend (n + 128) (ofp13SwitchHandleWrite env fs) := by
  have hstage : fs.stage ≠ .waiting := by
    rw [h.stage_eq]
    decide
  have hstep := stageStep_ofp13SwitchHandleWrite env hstage
  have hnext : fs.nextStage = .readyToSend := by rw [Fakeswitch.nextStage, hst]
  have hsent := sent_ofp13SwitchHandleWrite env fs
  obtain ⟨_, _, hframe⟩ := ofp13SwitchHandleWrite_frame env fs
  have hwrite : writeStep env fs
      = switchChangeStatus env.now (ofp13SwitchLearnDstmac fs) .readyToSend := by
    rw [writeStep, hst]
  have hchange := statusChange env.now (ofp13SwitchLearnDstmac fs) .readyToSend
  obtain ⟨_, _, _, _, _, hstatus⟩ :=
    switchChangeStatus_frame env.now (ofp13SwitchLearnDstmac fs) .readyToSend
  refine ⟨hnext ▸ hstep.stage_eq, hstep.sendPortDesc_eq.trans h.sendPortDesc_eq,
    hstep.learnDstMac_eq.trans h.learnDstMac_eq, ?_, ?_, ?_⟩
  · rw [hframe, hwrite, hstatus]
    exact h.probeSize_eq
  · have hle := h.sent_le
    rw [hsent, Fakeswitch.sent, (onlyPushes_writeStep env fs).sock_eq, writeStep_contents,
      probes_of_ne (by rw [hst]; decide), List.nil_append, ← List.append_assoc, List.length_append]
    rw [gratuitousArps, if_pos hst]
    dsimp only
    rw [List.flatten_singleton, Mem.length_read]
    exact Nat.add_le_add_right hle 128
  · rw [hframe, hwrite]
    intro hready
    have hprobe := hchange.probeState_eq
    rwa [if_pos hready] at hprobe

/-- From the requests on, write steps are all that is needed. A switch that is to learn queues
the gratuitous ARP on the way. -/
theorem OnItsWay.exists_ready (h : OnItsWay learnDstMac .sendPortDesc n fs)
    (config : OfpSwitchConfig) :
    ∃ history fs', Run ProgramStep ⟨config, fs⟩ history ⟨config, fs'⟩ ∧
      (∀ t ∈ history, ∃ env, t.event = .write env) ∧
      OnItsWay learnDstMac .readyToSend (n + 128) fs' ∧ fs'.switchStatus = .readyToSend ∧
      (learnDstMac = true → ∃ t ∈ history, arpsOf t ≠ []) := by
  obtain ⟨history₁, fs₁, hrun₁, hwrites₁, hway₁, hst₁⟩ := h.leave config
  cases learnDstMac with
  | false =>
    obtain ⟨hstage, hlatch, hlearn, hsize, hsent, hprobe⟩ := hway₁
    exact ⟨history₁, fs₁, hrun₁, hwrites₁, ⟨hstage, hlatch, hlearn, hsize, by omega, hprobe⟩, hst₁,
      nofun⟩
  | true =>
    have hway₂ := hway₁.learn hst₁ (lateWrite fs₁)
    obtain ⟨history₃, fs₃, hrun₃, hwrites₃, hway₃, hst₃⟩ := hway₂.settle nofun config
    let t : SwitchTransition := ⟨⟨config, fs₁⟩, .write (lateWrite fs₁),
      ⟨config, ofp13SwitchHandleWrite (lateWrite fs₁) fs₁⟩⟩
    have hstep := programStep_write (lateWrite fs₁) config fs₁
    refine ⟨history₁ ++ t :: history₃, fs₃, hrun₁.append (.cons hstep hrun₃), ?_, hway₃, hst₃, ?_⟩
    · intro r hr
      rcases List.mem_append.mp hr with hr | hr
      · exact hwrites₁ r hr
      rcases List.mem_cons.mp hr with rfl | hr
      · exact ⟨_, rfl⟩
      · exact hwrites₃ r hr
    · intro _
      refine ⟨t, List.mem_append_right _ List.mem_cons_self, ?_⟩
      have hlearn : fs₁.switchStatus = .learnDstmac := hst₁
      rw [show arpsOf t = gratuitousArps fs₁ from rfl, gratuitousArps, if_pos hlearn]
      exact List.cons_ne_nil _ _

end Way

/-! ## From `switchInit` on -/

/-- The two requests a controller sends. -/
def handshakeRequests : List UInt8 := featuresRequest ++ portDescRequest

/-- A message is handled, on a zeroed stack. -/
def handleMessage (ofph : Mem) (length : ℕ) : SwitchEvent :=
  .message (fun _ => 0) ⟨0, 0⟩ (fun _ => 0) ofph length

/-- The state after it. -/
def SwitchState.handled (ofph : Mem) (length : ℕ) (s : SwitchState) : SwitchState :=
  s.next (fun _ => 0) ⟨0, 0⟩ (fun _ => 0) ofph length

section Handled

variable (ofph : Mem) (length : ℕ) (s : SwitchState)

theorem stageStep_handled :
    StageStep (if IsFeaturesRequest ofph then .sendPortDesc else s.fs.stage)
      (s.fs.sendPortDesc || decide (ReadsPortDesc ofph)) s.fs (s.handled ofph length).fs := by
  obtain ⟨hstage, hlatch, hlearn⟩ := stageStep_ofp13HandleMessage (fun _ => 0) ⟨0, 0⟩ ofph
    (ReadState.pull ⟨s.config, s.fs, fun _ => 0⟩ length)
  exact ⟨hstage, hlatch, hlearn⟩

theorem probeSize_handled : (s.handled ofph length).fs.probeSize = s.fs.probeSize := by
  obtain ⟨_, _, _, _, _, _, _, hframe⟩ := ofp13HandleMessage_frame (fun _ => 0) ⟨0, 0⟩ ofph
    (ReadState.pull ⟨s.config, s.fs, fun _ => 0⟩ length)
  have hsize := congrArg Fakeswitch.probeSize hframe
  exact hsize

/-- A message adds its reply to what is sent. -/
theorem length_sent_handled :
    (s.handled ofph length).fs.sent.length = s.fs.sent.length
      + (replyBytes (fun _ => 0) ofph
          (ReadState.pull ⟨s.config, s.fs, fun _ => 0⟩ length)).length := by
  let pulled : ReadState := ReadState.pull ⟨s.config, s.fs, fun _ => 0⟩ length
  have hout := ofp13HandleMessage_outbuf (fun _ => 0) ⟨0, 0⟩ ofph pulled
  have hsock := ofp13HandleMessage_sock (fun _ => 0) ⟨0, 0⟩ ofph pulled
  show (Fakeswitch.sent (ofp13HandleMessage _ _ ofph pulled).fs).length = _
  rw [Fakeswitch.sent, hsock, hout, ← List.append_assoc, List.length_append]
  rfl

end Handled

theorem length_replyBytes_features {ofph : Mem} (h : IsFeaturesRequest ofph) (role : Mem)
    (s : ReadState) : (replyBytes role ofph s).length = 32 := by
  rw [replyBytes, h]
  exact Mem.length_read _ _ _

theorem length_replyBytes_portDesc {ofph : Mem} (h : ReadsPortDesc ofph) (role : Mem)
    (s : ReadState) : (replyBytes role ofph s).length = 272 := by
  rw [replyBytes, h.1]
  dsimp only
  rw [h.2, if_neg (by decide), Mem.length_read]
  rfl

/-- A FEATURES_REQUEST is at the front of the buffer. -/
theorem front_featuresRequest {m : Msgbuf} {more : List UInt8}
    (h : m.contents = featuresRequest ++ more) :
    NextMessage m (m.buf.shift m.start) 8 ∧ IsFeaturesRequest (m.buf.shift m.start) := by
  have hlen : 8 ≤ m.contents.length := by
    rw [h, List.length_append]
    exact Nat.le_add_right 8 _
  refine ⟨exists_nextMessage (by rw [h]; rfl) hlen, ?_⟩
  rw [IsFeaturesRequest, shift_start_apply m (Nat.lt_of_lt_of_le (by decide) hlen), h]
  rfl

/-- What the handler reads at the front of the buffer is in the buffer. -/
theorem readsPortDesc_front {m : Msgbuf} (hlen : 10 ≤ m.contents.length)
    (h : ReadsPortDesc (Mem.ofList m.contents)) : ReadsPortDesc (m.buf.shift m.start) := by
  obtain ⟨htype, hportDesc⟩ := h
  rw [htons, Mem.bswap16_load16] at hportDesc
  refine ⟨?_, ?_⟩
  · rw [shift_start_apply m (Nat.lt_of_lt_of_le (by decide) hlen)]
    exact htype
  · rw [htons_load16_of_le m hlen]
    exact hportDesc

/-- There are runs from `switchInit` in which the controller sends a FEATURES_REQUEST and what is
taken for a request for the port description. -/
theorem exists_requested (config : OfpSwitchConfig) (fs : Fakeswitch) (dpid : ℤ) (bufsize : ℕ)
    (h : 0 < bufsize) (delay : ℤ) (mode : TestMode) (nMacAddresses : ℤ) (learnDstMac : Bool)
    (version : UInt8) (inMem outMem stack : Mem) {bytes : List UInt8} {length : ℕ}
    (hsize : ofpSize bytes = some length) (hfits : length ≤ bytes.length)
    (hlen : 10 ≤ bytes.length) (hreads : ReadsPortDesc (Mem.ofList bytes)) :
    ∃ received features ofph s₂ s', Run ProgramStep
        ⟨config, switchInit fs dpid ⟨featuresRequest ++ bytes, []⟩ bufsize h delay mode
          nMacAddresses learnDstMac version inMem outMem stack⟩
        (received ++ [features, ⟨s₂, handleMessage ofph length, s'⟩]) s' ∧
      (∀ t ∈ received, ∃ env, t.event = .receive env) ∧ HandlesFeatures features ∧
      ReadsPortDesc ofph ∧ OnItsWay learnDstMac .sendPortDesc 312 s'.fs := by
  let init := switchInit fs dpid ⟨featuresRequest ++ bytes, []⟩ bufsize h delay mode nMacAddresses
    learnDstMac version inMem outMem stack
  obtain ⟨received, inbuf, hreceive, hcontents, hreceived⟩ := run_receive config init h
  have hcontents : inbuf.contents = featuresRequest ++ bytes := hcontents
  let s₁ : SwitchState := ⟨config, { init with inbuf := inbuf, sock := ⟨[], []⟩ }⟩
  let ofph₁ := inbuf.buf.shift inbuf.start
  obtain ⟨hmessage₁, hfeatures⟩ := front_featuresRequest hcontents
  let s₂ := s₁.handled ofph₁ 8
  have hstep₁ : ProgramStep s₁ (handleMessage ofph₁ 8) s₂ := ⟨hmessage₁, rfl⟩
  have hrest : s₂.fs.inbuf.contents = bytes := by
    have hnext := NextMessage.contents_next (s := ⟨config, s₁.fs, fun _ => 0⟩) hmessage₁
      (fun _ => 0) ⟨0, 0⟩
    have hdrop : s₂.fs.inbuf.contents = inbuf.contents.drop 8 := hnext
    rw [hdrop, hcontents]
    rfl
  let ofph₂ := s₂.fs.inbuf.buf.shift s₂.fs.inbuf.start
  have hmessage₂ : NextMessage s₂.fs.inbuf ofph₂ length :=
    exists_nextMessage (by rw [hrest]; exact hsize) (by rw [hrest]; exact hfits)
  have hportDesc : ReadsPortDesc ofph₂ :=
    readsPortDesc_front (by rw [hrest]; exact hlen) (by rw [hrest]; exact hreads)
  let s₃ := s₂.handled ofph₂ length
  have hstep₂ : ProgramStep s₂ (handleMessage ofph₂ length) s₃ := ⟨hmessage₂, rfl⟩
  have hother : ¬ IsFeaturesRequest ofph₂ := by
    intro hf
    rw [IsFeaturesRequest, hportDesc.1] at hf
    cases hf
  obtain ⟨hstage₁, -, hlearn₁⟩ := stageStep_handled ofph₁ 8 s₁
  obtain ⟨hstage₂, hlatch₂, hlearn₂⟩ := stageStep_handled ofph₂ length s₂
  rw [if_pos hfeatures] at hstage₁
  rw [if_neg hother, hstage₁] at hstage₂
  rw [decide_eq_true hportDesc, Bool.or_true] at hlatch₂
  have hway : OnItsWay learnDstMac .sendPortDesc 312 s₃.fs := by
    refine ⟨hstage₂, hlatch₂, hlearn₂.trans hlearn₁, ?_, ?_, ?_⟩
    · exact (probeSize_handled ofph₂ length s₂).trans (probeSize_handled ofph₁ 8 s₁)
    · have hhello : s₁.fs.sent.length = 8 := congrArg List.length (contents_msgbufPush _ _)
      rw [length_sent_handled, length_replyBytes_portDesc hportDesc, length_sent_handled,
        length_replyBytes_features hfeatures, hhello]
    · intro hready
      have hstatus := stage_of_ne fun hwait => absurd (hready.symm.trans hwait) (by decide)
      exact absurd (hready.symm.trans (hstatus.symm.trans hstage₂)) (by decide)
  exact ⟨received, ⟨s₁, handleMessage ofph₁ 8, s₂⟩, ofph₂, s₂, s₃,
    hreceive.append (.cons hstep₁ (.single hstep₂)), hreceived, hfeatures, hportDesc, hway⟩

/-- There are runs from `switchInit` to READY_TO_SEND, in which the controller asks for both
descriptions once. -/
theorem exists_ready (config : OfpSwitchConfig) (fs : Fakeswitch) (dpid : ℤ) (bufsize : ℕ)
    (h : 0 < bufsize) (delay : ℤ) (mode : TestMode) (nMacAddresses : ℤ) (learnDstMac : Bool)
    (version : UInt8) (inMem outMem stack : Mem) :
    ∃ received features portDesc writes s', Run ProgramStep
        ⟨config, switchInit fs dpid ⟨handshakeRequests, []⟩ bufsize h delay mode nMacAddresses
          learnDstMac version inMem outMem stack⟩
        (received ++ features :: portDesc :: writes) s' ∧
      (∀ t ∈ received, ∃ env, t.event = .receive env) ∧ HandlesFeatures features ∧
      HandlesPortDesc portDesc ∧ (∀ t ∈ writes, ∃ env, t.event = .write env) ∧
      s'.fs.switchStatus = .readyToSend ∧ 0 < sendCount s'.fs ∧
      (learnDstMac = true → ∃ t ∈ writes, arpsOf t ≠ []) := by
  have hsize : ofpSize portDescRequest = some 16 := rfl
  obtain ⟨received, features, ofph, s₂, s₃, hrequested, hreceived, hfeatures, hportDesc, hway⟩ :=
    exists_requested config fs dpid bufsize h delay mode nMacAddresses learnDstMac version inMem
      outMem stack hsize (by decide) (by decide) (by decide)
  obtain ⟨writes, fs', hrun, hwrites, hway', hst, harp⟩ := hway.exists_ready s₃.config
  refine ⟨received, features, ⟨s₂, handleMessage ofph 16, s₃⟩, writes, ⟨s₃.config, fs'⟩, ?_,
    hreceived, hfeatures, ⟨by decide, hportDesc⟩, hwrites, hst,
    hway'.sendCount_pos hst (by decide), harp⟩
  have hall := hrequested.append hrun
  rw [List.append_assoc] at hall
  exact hall

/-- One write step more queues a probe. -/
theorem exists_probed (config : OfpSwitchConfig) (fs : Fakeswitch) (dpid : ℤ) (bufsize : ℕ)
    (h : 0 < bufsize) (delay : ℤ) (mode : TestMode) (nMacAddresses : ℤ) (learnDstMac : Bool)
    (version : UInt8) (inMem outMem stack : Mem) :
    ∃ history s', Run ProgramStep
        ⟨config, switchInit fs dpid ⟨handshakeRequests, []⟩ bufsize h delay mode nMacAddresses
          learnDstMac version inMem outMem stack⟩ history s' ∧
      history.flatMap probesOf ≠ [] ∧ (learnDstMac = true → history.flatMap arpsOf ≠ []) := by
  obtain ⟨received, features, portDesc, writes, ⟨config', fs'⟩, hrun, -, -, -, -, hready, hcount,
    harp⟩ := exists_ready config fs dpid bufsize h delay mode nMacAddresses learnDstMac version
      inMem outMem stack
  have hstep := programStep_write (lateWrite fs') config' fs'
  have hprobe := probe_mem_probes hready hcount (lateWrite fs').buf
  refine ⟨_, _, hrun.append (.single hstep), ?_, ?_⟩
  · rw [List.flatMap_append, List.flatMap_singleton]
    exact List.append_ne_nil_of_right_ne_nil _ (List.ne_nil_of_mem hprobe)
  · intro hlearn
    obtain ⟨t, ht, hne⟩ := harp hlearn
    obtain ⟨m, hm⟩ := List.exists_mem_of_ne_nil _ hne
    apply List.ne_nil_of_mem (List.mem_flatMap.mpr ⟨t, ?_, hm⟩)
    apply List.mem_append_left
    apply List.mem_append_right
    exact List.mem_cons_of_mem _ (List.mem_cons_of_mem _ ht)

end OfcBenchmark
