import OfcBenchmark.ReadyTheorems

/-!
# What opens the gate

The step out of SEND_PORT_DESC needs the latch `sendPortDesc`. `switchInit` does not clear it, and
the handler sets it for every MULTIPART_REQUEST with PORT_DESC in the bytes 8 and 9, also where the
message ends before. Where what is taken for a request is one, the gate holds in every run exactly
if the latch happened to be clear (`handshake_gated_iff`). A message that is too short opens it on
every switch (`exists_not_gated_shortRequest`).
-/

namespace OfcBenchmark
open ByteMemory Runs

/-! ## PACKET_INs without a request -/

section Bypass

variable {learnDstMac : Bool} {n : ℕ} {fs : Fakeswitch}

/-- With its latch set a switch comes to queue a PACKET_IN: in READY_TO_SEND a probe, in
LEARN_DSTMAC the gratuitous ARP. -/
theorem OnItsWay.exists_packetIn (h : OnItsWay learnDstMac .sendPortDesc n fs)
    (hn : n + 82 ≤ BUFLEN) (config : OfpSwitchConfig) :
    ∃ before t, Run ProgramStep ⟨config, fs⟩ (before ++ [t]) t.post ∧
      (∀ r ∈ before ++ [t], ∃ env, r.event = .write env) ∧ ∃ m ∈ queued t, IsPacketIn m := by
  obtain ⟨before, fs', hrun, hwrites, hway, hst⟩ := h.leave config
  have hwrite := programStep_write (lateWrite fs') config fs'
  refine ⟨before, ⟨⟨config, fs'⟩, .write (lateWrite fs'), _⟩, hrun.append (.single hwrite), ?_, ?_⟩
  · intro r hr
    rcases List.mem_append.mp hr with hr | hr
    · exact hwrites r hr
    · rw [List.mem_singleton.mp hr]
      exact ⟨_, rfl⟩
  · split at hst
    · refine ⟨_, List.mem_append_right _ ?_, isPacketIn_gratuitousArp fs'⟩
      rw [gratuitousArps, if_pos hst]
      exact List.mem_singleton_self _
    · have hcount := hway.sendCount_pos hst hn
      exact ⟨_, List.mem_append_left _ (probe_mem_probes hst hcount _), isPacketIn_probe _ fs'⟩

/-- Where no request for the port description was handled, that is too early. -/
theorem OnItsWay.exists_not_gated {s₀ s : SwitchState} {past : List SwitchTransition}
    (h : OnItsWay learnDstMac .sendPortDesc n s.fs) (hn : n + 82 ≤ BUFLEN)
    (hrun : Run ProgramStep s₀ past s) (hnone : ∀ r ∈ past, ¬ HandlesPortDesc r) :
    ∃ writes s', Run ProgramStep s₀ (past ++ writes) s' ∧
      (∀ r ∈ writes, ∃ env, r.event = .write env) ∧ ¬ Gated learnDstMac (past ++ writes) := by
  obtain ⟨before, t, hwriting, hwrites, hpacketIn⟩ := h.exists_packetIn hn s.config
  refine ⟨_, _, hrun.append hwriting, hwrites, fun hgated => ?_⟩
  obtain ⟨-, r, hr, hportDesc⟩ :=
    hgated.packetIn_after (past ++ before) t [] (List.append_assoc _ _ _).symm hpacketIn
  rcases List.mem_append.mp hr with hr | hr
  · exact hnone r hr hportDesc
  · obtain ⟨env, hevent⟩ := hwrites r (List.mem_append_left _ hr)
    rw [HandlesPortDesc, hevent] at hportDesc
    exact hportDesc

end Bypass

section Requests

variable {t : SwitchTransition}

theorem not_handlesPortDesc_of_receive (h : ∃ env, t.event = .receive env) :
    ¬ HandlesPortDesc t := by
  obtain ⟨env, hevent⟩ := h
  rw [HandlesPortDesc, hevent]
  exact id

theorem portDescInMessage_of_receive (h : ∃ env, t.event = .receive env) : PortDescInMessage t := by
  obtain ⟨env, hevent⟩ := h
  rw [PortDescInMessage, hevent]
  trivial

theorem portDescInMessage_of_write (h : ∃ env, t.event = .write env) : PortDescInMessage t := by
  obtain ⟨env, hevent⟩ := h
  rw [PortDescInMessage, hevent]
  trivial

end Requests

/-! ## Every run from `switchInit` -/

/-- A MULTIPART_REQUEST that ends before its type, and the first bytes of the next message. -/
def shortRequest : List UInt8 := [4, 18, 0, 8, 0, 0, 0, 2, 0, 13]

section Handshake

variable (config : OfpSwitchConfig) (fs : Fakeswitch) (dpid : ℤ) (sock : Socket) (bufsize : ℕ)
  (h : 0 < bufsize) (delay : ℤ) (mode : TestMode) (nMacAddresses : ℤ) (learnDstMac : Bool)
  (version : UInt8) (inMem outMem stack : Mem)

/-- With the latch clear, a switch starts with nothing to account for. -/
theorem handshakeInv_switchInit (hlatch : fs.sendPortDesc = false) :
    HandshakeInv learnDstMac [] (switchInit fs dpid sock bufsize h delay mode nMacAddresses
      learnDstMac version inMem outMem stack) where
  learnDstMac_eq := rfl
  stage_ne := nofun
  features := fun hst => absurd rfl hst
  latch := fun hset => absurd (hlatch.symm.trans hset) nofun
  portDesc := nofun
  learned := nofun

/-- With the latch set, a FEATURES_REQUEST is all it takes. -/
theorem onItsWay_switchInit (hlatch : fs.sendPortDesc = true) (inbuf : Msgbuf) {ofph : Mem}
    (hofph : IsFeaturesRequest ofph) :
    OnItsWay learnDstMac .sendPortDesc 40 (SwitchState.handled ofph 8
      ⟨config, { switchInit fs dpid sock bufsize h delay mode nMacAddresses learnDstMac version
        inMem outMem stack with inbuf := inbuf, sock := ⟨[], []⟩ }⟩).fs := by
  let init : SwitchState := ⟨config, { switchInit fs dpid sock bufsize h delay mode nMacAddresses
    learnDstMac version inMem outMem stack with inbuf := inbuf, sock := ⟨[], []⟩ }⟩
  obtain ⟨hstage, hset, hlearn⟩ := stageStep_handled ofph 8 init
  rw [if_pos hofph] at hstage
  refine ⟨hstage, ?_, hlearn, probeSize_handled ofph 8 init, ?_, ?_⟩
  · refine hset.trans ?_
    show (fs.sendPortDesc || _) = true
    rw [hlatch, Bool.true_or]
  · -- HELLO and the features reply
    have hhello : init.fs.sent.length = 8 := congrArg List.length (contents_msgbufPush _ _)
    rw [length_sent_handled, length_replyBytes_features hofph, hhello]
  · intro hready
    have hstatus := stage_of_ne fun hwait => absurd (hready.symm.trans hwait) (by decide)
    exact absurd (hready.symm.trans (hstatus.symm.trans hstage)) (by decide)

/-- Then some controller gets a PACKET_IN too early, without a message that is too short. -/
theorem exists_not_gated_latch (hlatch : fs.sendPortDesc = true) :
    ∃ sock history s', Run ProgramStep
      ⟨config, switchInit fs dpid sock bufsize h delay mode nMacAddresses learnDstMac version
        inMem outMem stack⟩ history s' ∧ (∀ t ∈ history, PortDescInMessage t) ∧
      ¬ Gated learnDstMac history := by
  let sock : Socket := ⟨featuresRequest, []⟩
  let init := switchInit fs dpid sock bufsize h delay mode nMacAddresses learnDstMac version
    inMem outMem stack
  obtain ⟨received, inbuf, hreceive, hcontents, hreceived⟩ := run_receive config init h
  have hfront : inbuf.contents = featuresRequest ++ [] := hcontents
  obtain ⟨hmessage, hfeatures⟩ := front_featuresRequest hfront
  let s₁ : SwitchState := ⟨config, { init with inbuf := inbuf, sock := ⟨[], []⟩ }⟩
  let ofph := inbuf.buf.shift inbuf.start
  let features : SwitchTransition := ⟨s₁, handleMessage ofph 8, s₁.handled ofph 8⟩
  have hhandle : ProgramStep s₁ (handleMessage ofph 8) (s₁.handled ofph 8) := ⟨hmessage, rfl⟩
  have hway : OnItsWay learnDstMac .sendPortDesc 40 (s₁.handled ofph 8).fs :=
    onItsWay_switchInit config fs dpid sock bufsize h delay mode nMacAddresses learnDstMac version
      inMem outMem stack hlatch inbuf hfeatures
  have hnot := not_readsPortDesc ofph hfeatures
  obtain ⟨writes, s', hrun, hwrites, hgated⟩ := hway.exists_not_gated (by decide)
    (hreceive.append (.single hhandle)) (by
      intro r hr hportDesc
      rcases List.mem_append.mp hr with hr | hr
      · exact not_handlesPortDesc_of_receive (hreceived r hr) hportDesc
      · rw [List.mem_singleton.mp hr] at hportDesc
        exact hnot hportDesc.2)
  refine ⟨sock, _, s', hrun, fun t ht => ?_, hgated⟩
  rcases List.mem_append.mp ht with ht | ht
  · rcases List.mem_append.mp ht with ht | ht
    · exact portDescInMessage_of_receive (hreceived t ht)
    · rw [List.mem_singleton.mp ht]
      exact fun hreads => absurd hreads hnot
  · exact portDescInMessage_of_write (hwrites t ht)

/-- Whatever memory a switch is made in, a MULTIPART_REQUEST that is too short opens the gate. -/
theorem exists_not_gated_shortRequest :
    ∃ history s', Run ProgramStep
      ⟨config, switchInit fs dpid ⟨featuresRequest ++ shortRequest, []⟩ bufsize h delay mode
        nMacAddresses learnDstMac version inMem outMem stack⟩ history s' ∧
      ¬ Gated learnDstMac history := by
  have hsize : ofpSize shortRequest = some 8 := rfl
  obtain ⟨received, features, ofph, s₂, s₃, hrequested, hreceived, hfeatures, -, hway⟩ :=
    exists_requested config fs dpid bufsize h delay mode nMacAddresses learnDstMac version inMem
      outMem stack hsize (by decide) (by decide) (by decide)
  obtain ⟨writes, s', hrun, -, hgated⟩ := hway.exists_not_gated (by decide) hrequested (by
    intro r hr hportDesc
    rcases List.mem_append.mp hr with hr | hr
    · exact not_handlesPortDesc_of_receive (hreceived r hr) hportDesc
    rcases List.mem_cons.mp hr with rfl | hr
    · exact not_handlesPortDesc hfeatures hportDesc
    · rw [List.mem_singleton.mp hr] at hportDesc
      exact absurd hportDesc.1 (by decide))
  exact ⟨_, s', hrun, hgated⟩

/-- On every connection and in every run in which only requests for the port description are taken
for such, PACKET_INs wait for the handshake exactly if the latch was clear in the memory the switch
was made in. -/
theorem handshake_gated_iff :
    (∀ sock history s', Run ProgramStep
        ⟨config, switchInit fs dpid sock bufsize h delay mode nMacAddresses learnDstMac version
          inMem outMem stack⟩ history s' →
      (∀ t ∈ history, PortDescInMessage t) → Gated learnDstMac history) ↔
      fs.sendPortDesc = false := by
  constructor
  · intro hgated
    by_contra hlatch
    obtain ⟨sock, history, s', hrun, hin, hnot⟩ := exists_not_gated_latch config fs dpid bufsize h
      delay mode nMacAddresses learnDstMac version inMem outMem stack
      (Bool.not_eq_false _ ▸ hlatch)
    exact hnot (hgated sock history s' hrun hin)
  · intro hlatch sock history s' hrun hin
    exact gated_of_handshakeInv (handshakeInv_switchInit fs dpid sock bufsize h delay mode
      nMacAddresses learnDstMac version inMem outMem stack hlatch) hrun hin

end Handshake

theorem handshake_gated_iff_malloced :
    (∀ sock history s', Run ProgramStep (mallocedSwitch false sock) history s' →
      (∀ t ∈ history, PortDescInMessage t) → Gated true history) ↔
      (malloced false).sendPortDesc = false :=
  handshake_gated_iff switch_config (malloced false) 1 BUFLEN BUFLEN_pos 0 .latency 100000 true
    OFP131_VERSION (fun _ => 0) (fun _ => 0) (fun _ => 0)

/-- A FEATURES_REQUEST, and no other message, makes a switch with a stale latch send; and a
MULTIPART_REQUEST that is too short does it where the latch is clear. -/
theorem not_gated_staleLatch :
    (¬ ∀ sock history s', Run ProgramStep (mallocedSwitch true sock) history s' →
      Gated true history) ∧
    ¬ ∀ sock history s', Run ProgramStep (mallocedSwitch false sock) history s' →
      Gated true history := by
  constructor
  · intro hgated
    obtain ⟨sock, history, s', hrun, -, hnot⟩ := exists_not_gated_latch switch_config
      (malloced true) 1 BUFLEN BUFLEN_pos 0 .latency 100000 true OFP131_VERSION (fun _ => 0)
      (fun _ => 0) (fun _ => 0) rfl
    exact hnot (hgated sock history s' hrun)
  · intro hgated
    obtain ⟨history, s', hrun, hnot⟩ := exists_not_gated_shortRequest switch_config
      (malloced false) 1 BUFLEN BUFLEN_pos 0 .latency 100000 true OFP131_VERSION (fun _ => 0)
      (fun _ => 0) (fun _ => 0)
    exact hnot (hgated _ history s' hrun)

end OfcBenchmark
