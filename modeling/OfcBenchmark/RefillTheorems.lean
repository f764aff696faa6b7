import Mathlib.Data.List.DropRight
import OfcBenchmark.PacketInTheorems

/-!
# The refill of throughput mode

A write step in READY_TO_SEND fills `outbuf` up with as many probes as fit below `BUFLEN`. Their
number is computed from the size `switchInit` has measured on a probe of its own, and every probe
has that size (`refill_of_throughputMode`). `probeState` covers the probes queued since it was
cleared, less the responses credited (`ThroughputLaw`).

`probeState` has no bound in the model. It never exceeds the probes queued since it was cleared, so
an `int` holds it as long as these are fewer than 2^31.
-/

namespace OfcBenchmark
open ByteMemory Runs

/-! ## A write step -/

/-- A PACKET_IN of `size` bytes with nothing missing: its header says how long it is, and its frame
is as long as it says and ends with the message. -/
structure CompletePacketIn (size : ℕ) (m : List UInt8) : Prop where
  isPacketIn : IsPacketIn m
  length_eq : m.length = size
  header_eq : (PacketIn.decode m).length = size
  frame_eq : (PacketIn.decode m).frameOffset + (PacketIn.decode m).total_len = size

/-- Every probe is complete, whatever the counters of the switch are. -/
theorem completePacketIn_probe (buf : Mem) (fs : Fakeswitch) :
    CompletePacketIn 82 (probe buf fs) := by
  have hprobe : probe buf fs = probeBytes fs.id fs.xid fs.bufferId fs.macAddress :=
    read_ofp13MakePacketIn fs.id fs.xid fs.bufferId fs.macAddress buf
  have hdecode := decode_probeBytes fs.id fs.xid fs.bufferId fs.macAddress
  refine ⟨isPacketIn_probe buf fs, ?_, ?_, ?_⟩
  · rw [hprobe]
    rfl
  · rw [hprobe, hdecode]
  · rw [hprobe, hdecode]
    rfl

/-- What a write step does to a switch that keeps its buffer full. -/
structure Refill (env : WriteEnv) (fs : Fakeswitch) : Prop where
  /-- the probes are queued behind what is buffered, before anything is sent -/
  queues : (writeStep env fs).outbuf.contents
    = fs.outbuf.contents ++ (probes env.buf fs).flatten
  flushes : ofp13SwitchHandleWrite env fs = flushOutbuf env.transfer (writeStep env fs)
  complete : ∀ m ∈ probes env.buf fs, CompletePacketIn fs.probeSize m
  length_eq : msgbufCountBuffered fs.outbuf < BUFLEN → (probes env.buf fs).length
    = (BUFLEN - msgbufCountBuffered fs.outbuf) / fs.probeSize
  buffered : msgbufCountBuffered fs.outbuf < BUFLEN →
    BUFLEN < msgbufCountBuffered (writeStep env fs).outbuf + fs.probeSize ∧
      msgbufCountBuffered (writeStep env fs).outbuf ≤ BUFLEN
  idle : BUFLEN ≤ msgbufCountBuffered fs.outbuf → probes env.buf fs = []

/-- A switch in throughput mode with the size of its probes measured. -/
structure ThroughputMode (fs : Fakeswitch) : Prop where
  mode_eq : fs.mode = .throughput
  probeSize_eq : fs.probeSize = 82

/-- The number of probes is what fits below `BUFLEN`. -/
theorem ThroughputMode.sendCount_eq {fs : Fakeswitch} (h : ThroughputMode fs) :
    sendCount fs = (BUFLEN - msgbufCountBuffered fs.outbuf) / fs.probeSize := by
  have hlatency : ¬ (fs.mode = .latency ∧ fs.probeState = 0) := by
    rw [h.mode_eq]
    rintro ⟨⟨⟩, -⟩
  rw [sendCount, if_neg hlatency]
  split
  · rfl
  · rename_i hfull
    -- the guard fails where the difference is zero already
    have hzero : BUFLEN - msgbufCountBuffered fs.outbuf = 0 :=
      Nat.sub_eq_zero_of_le (Nat.le_of_not_lt fun hlt => hfull ⟨h.mode_eq, hlt⟩)
    rw [hzero, Nat.zero_div]

theorem length_probes {fs : Fakeswitch} (hready : fs.switchStatus = .readyToSend) (buf : Mem) :
    (probes buf fs).length = sendCount fs := by
  rw [probes, if_pos hready, List.length_map, List.length_range]

theorem completePacketIn_of_mem_probes {buf : Mem} {fs : Fakeswitch} {m : List UInt8}
    (h : m ∈ probes buf fs) : CompletePacketIn 82 m := by
  unfold probes at h
  split at h
  · obtain ⟨k, -, rfl⟩ := List.mem_map.mp h
    exact completePacketIn_probe buf _
  · exact absurd h List.not_mem_nil

/-- Messages of one size are as long together as their number says. -/
theorem length_flatten_of_length_eq {ms : List (List UInt8)} {size : ℕ}
    (h : ∀ m ∈ ms, m.length = size) : ms.flatten.length = ms.length * size := by
  rw [List.length_flatten, List.map_congr_left h, List.map_const', List.sum_replicate,
    smul_eq_mul]

/-- What fits into `room` in pieces leaves less than a piece free. -/
theorem room_lt (room : ℕ) {size : ℕ} (h : 0 < size) :
    room < room / size * size + size ∧ room / size * size ≤ room := by
  have hsplit := Nat.div_add_mod' room size
  have hrest := Nat.mod_lt room h
  constructor
  · omega
  · exact Nat.div_mul_le_self room size

theorem ThroughputMode.refill {fs : Fakeswitch} (h : ThroughputMode fs)
    (hready : fs.switchStatus = .readyToSend) (env : WriteEnv) : Refill env fs := by
  have hsize := h.probeSize_eq
  have hlength : (probes env.buf fs).length
      = (BUFLEN - msgbufCountBuffered fs.outbuf) / fs.probeSize :=
    (length_probes hready env.buf).trans h.sendCount_eq
  have hcontents : (writeStep env fs).outbuf.contents
      = fs.outbuf.contents ++ (probes env.buf fs).flatten := by
    rw [writeStep_contents, gratuitousArps_of_ne (by rw [hready]; decide), List.append_nil]
  have hcomplete : ∀ m ∈ probes env.buf fs, CompletePacketIn fs.probeSize m := by
    intro m hm
    rw [hsize]
    exact completePacketIn_of_mem_probes hm
  have hbuffered : msgbufCountBuffered (writeStep env fs).outbuf
      = msgbufCountBuffered fs.outbuf
        + (BUFLEN - msgbufCountBuffered fs.outbuf) / fs.probeSize * fs.probeSize := by
    rw [← Msgbuf.length_contents, hcontents, List.length_append,
      length_flatten_of_length_eq fun m hm => (hcomplete m hm).length_eq, hlength,
      Msgbuf.length_contents]
  refine ⟨hcontents, rfl, hcomplete, fun _ => hlength, fun hlt => ?_, fun hle => ?_⟩
  · obtain ⟨hroom, hfits⟩ := room_lt (BUFLEN - msgbufCountBuffered fs.outbuf)
      (show 0 < fs.probeSize by rw [hsize]; decide)
    rw [hbuffered]
    omega
  · rw [Nat.sub_eq_zero_of_le hle, Nat.zero_div] at hlength
    exact List.length_eq_zero_iff.mp hlength

/-! ## Every step keeps the mode -/

theorem probeSize_queueProbe_iterate (buf : Mem) (n : ℕ) (fs : Fakeswitch) :
    ((queueProbe buf)^[n] fs).probeSize = fs.probeSize := by
  induction n with
  | zero => rfl
  | succ n ih =>
    rw [Function.iterate_succ_apply']
    exact ih

theorem probeSize_writeStep (env : WriteEnv) (fs : Fakeswitch) :
    (writeStep env fs).probeSize = fs.probeSize := by
  by_cases hready : fs.switchStatus = .readyToSend
  · rw [writeStep_ready env hready]
    exact probeSize_queueProbe_iterate env.buf _ fs
  by_cases hlearn : fs.switchStatus = .learnDstmac
  · obtain ⟨_, _, _, _, _, hframe⟩ :=
      switchChangeStatus_frame env.now (ofp13SwitchLearnDstmac fs) .readyToSend
    rw [writeStep, hlearn]
    dsimp only
    rw [hframe]
    rfl
  · obtain ⟨_, _, _, _, _, -, hframe⟩ := writeStep_of_ne env hready hlearn
    rw [hframe]

/-- The size is measured once. -/
theorem probeSize_step {s s' : SwitchState} {e : SwitchEvent} (h : ProgramStep s e s') :
    s'.fs.probeSize = s.fs.probeSize := by
  cases programMove_of_step h with
  | receive env => rfl
  | message role now buf ofph length hnext =>
    obtain ⟨_, _, _, _, _, _, _, hframe⟩ := ofp13HandleMessage_frame role now ofph
      (ReadState.pull ⟨s.config, s.fs, buf⟩ length)
    have hsize := congrArg Fakeswitch.probeSize hframe
    exact hsize
  | write env =>
    obtain ⟨_, _, hframe⟩ := ofp13SwitchHandleWrite_frame env s.fs
    exact (congrArg Fakeswitch.probeSize hframe).trans (probeSize_writeStep env s.fs)
  | getCount ts inbuf sock pulled hcount => rfl
  | configure config => rfl

theorem ThroughputMode.step {s s' : SwitchState} {e : SwitchEvent} (h : ThroughputMode s.fs)
    (hstep : ProgramStep s e s') : ThroughputMode s'.fs where
  mode_eq := (switchStep_counters hstep.2).mode_eq.trans h.mode_eq
  probeSize_eq := (probeSize_step hstep).trans h.probeSize_eq

/-! ## Accounting -/

/-- The steps that clear `probeState`: `switchGetCount`, and the entry into READY_TO_SEND. -/
def IsRestart (t : SwitchTransition) : Prop :=
  match t.event with
  | .getCount _ => True
  | _ => t.pre.fs.switchStatus ≠ .readyToSend ∧ t.post.fs.switchStatus = .readyToSend

instance : DecidablePred IsRestart
  | ⟨_, .getCount _, _⟩ => inferInstanceAs (Decidable True)
  | ⟨_, .receive _, _⟩ | ⟨_, .message .., _⟩ | ⟨_, .write _, _⟩ | ⟨_, .changeStatus _ _, _⟩
  | ⟨_, .changeStatusNow _, _⟩ | ⟨_, .configure _, _⟩ => inferInstanceAs (Decidable (_ ∧ _))

/-- The steps since the last of them. -/
def sinceRestart (history : List SwitchTransition) : List SwitchTransition :=
  history.rtakeWhile fun t => !decide (IsRestart t)

theorem sinceRestart_concat_of_restart {t : SwitchTransition} (h : IsRestart t)
    (history : List SwitchTransition) : sinceRestart (history ++ [t]) = [] := by
  apply List.rtakeWhile_concat_neg
  rw [decide_eq_true h]
  decide

theorem sinceRestart_concat {t : SwitchTransition} (h : ¬ IsRestart t)
    (history : List SwitchTransition) :
    sinceRestart (history ++ [t]) = sinceRestart history ++ [t] := by
  apply List.rtakeWhile_concat_pos
  rw [decide_eq_false h]
  rfl

/-- `probeState` after a history: it covers the probes queued since it was cleared, less the
responses credited, and no more than these probes. -/
structure ThroughputLaw (history : List SwitchTransition) (s : SwitchState) : Prop where
  nonneg : 0 ≤ s.fs.probeState
  queued_le : ((total probesQueued (sinceRestart history) : ℕ) : ℤ)
      - (total responsesCredited (sinceRestart history) : ℕ) ≤ s.fs.probeState
  le_queued : s.fs.probeState ≤ (total probesQueued (sinceRestart history) : ℕ)

/-- A message does not lead into READY_TO_SEND. -/
theorem switchStatus_handled_ne {role : Mem} {now : Timeval} {buf ofph : Mem} {length : ℕ}
    {s : SwitchState} (h : s.fs.switchStatus ≠ .readyToSend) :
    (s.next role now buf ofph length).fs.switchStatus ≠ .readyToSend := by
  have hclamp : (s.next role now buf ofph length).fs.switchStatus = (ofp13Dispatch role now ofph
      (ReadState.pull ⟨s.config, s.fs, buf⟩ length)).fs.switchStatus := by
    show (Fakeswitch.clamp _).switchStatus = _
    rw [clamp_frame]
  rw [hclamp]
  -- only PORT_DESC changes the state, and to LEARN_DSTMAC, with or without a wait
  obtain ⟨-, bs, hf⟩ | ⟨-, bs, hf⟩ | ⟨-, -, _, _, _, hf⟩ :=
    ofp13Dispatch_cases role now ofph (ReadState.pull ⟨s.config, s.fs, buf⟩ length)
  · rw [hf]
    unfold switchChangeStatus switchChangeStatusNow
    split
    · rw [if_neg (by decide)]
      exact nofun
    · exact nofun
  · rw [hf]
    exact h
  · rw [hf]
    exact h

/-- In throughput mode nothing else is a reset. -/
theorem isReset_iff_isRestart {s s' : SwitchState} {e : SwitchEvent} (h : ThroughputMode s.fs)
    (hstep : ProgramStep s e s') : IsReset ⟨s, e, s'⟩ ↔ IsRestart ⟨s, e, s'⟩ := by
  cases programMove_of_step hstep with
  | receive env => exact ⟨False.elim, fun hr => absurd hr.2 hr.1⟩
  | message role now buf ofph length hnext =>
    refine ⟨fun hr => ?_, fun hr => absurd hr.2 (switchStatus_handled_ne hr.1)⟩
    -- only a response in latency mode would be a reset
    have hlatency : s.fs.mode = .latency := hr.2.1
    rw [h.mode_eq] at hlatency
    cases hlatency
  | write env => exact Iff.rfl
  | getCount ts inbuf sock pulled hcount => exact Iff.rfl
  | configure config => exact ⟨False.elim, fun hr => absurd hr.2 hr.1⟩

theorem throughputLaw_step {past : List SwitchTransition} {s s' : SwitchState} {e : SwitchEvent}
    (hmode : ThroughputMode s.fs) (h : ThroughputLaw past s) (hstep : ProgramStep s e s') :
    ThroughputLaw (past ++ [⟨s, e, s'⟩]) s' := by
  have hprobe : s'.fs.probeState = _ := (switchStep_counters hstep.2).probeState_eq h.nonneg
  -- after a restart nothing has been queued; otherwise the balance of a step is added
  by_cases hrestart : IsRestart ⟨s, e, s'⟩
  · rw [if_pos ((isReset_iff_isRestart hmode hstep).mpr hrestart)] at hprobe
    constructor <;> rw [hprobe]
    · rw [sinceRestart_concat_of_restart hrestart]
      exact le_rfl
    · rw [sinceRestart_concat_of_restart hrestart]
      exact le_rfl
  · rw [if_neg fun hr => hrestart ((isReset_iff_isRestart hmode hstep).mp hr)] at hprobe
    have hle := h.queued_le
    have hge := h.le_queued
    have hcredited := (switchStep_counters hstep.2).credited_le
    constructor <;> rw [hprobe]
    · exact le_max_left _ _
    · rw [sinceRestart_concat hrestart, total_concat, total_concat]
      show _ ≤ max 0 (s.fs.probeState + _ - _)
      push_cast
      omega
    -- the clamp only acts when nothing is queued
    · rw [sinceRestart_concat hrestart, total_concat]
      show max 0 (s.fs.probeState + _ - _) ≤ _
      push_cast
      omega

/-! ## From `switchInit` on -/

section Refill

variable (config : OfpSwitchConfig) (fs : Fakeswitch) (dpid : ℤ) (sock : Socket) (bufsize : ℕ)
  (h : 0 < bufsize) (delay nMacAddresses : ℤ) (learnDstMac : Bool) (version : UInt8)
  (inMem outMem stack : Mem)

/-- In every state a switch in throughput mode gets to, a write step in READY_TO_SEND refills the
buffer, and `probeState` keeps its account. -/
theorem throughput_refill (history : List SwitchTransition) (s' : SwitchState)
    (hrun : Run ProgramStep
      ⟨config, switchInit fs dpid sock bufsize h delay .throughput nMacAddresses learnDstMac version
        inMem outMem stack⟩ history s') :
    (s'.fs.switchStatus = .readyToSend → ∀ env, Refill env s'.fs) ∧ ThroughputLaw history s' := by
  let accounted : List SwitchTransition → SwitchState → Prop := fun past s =>
    ThroughputMode s.fs ∧ ThroughputLaw past s
  have hsteps : ∀ past s e s', accounted past s → ProgramStep s e s' →
      accounted (past ++ [⟨s, e, s'⟩]) s' :=
    fun _ _ _ _ ⟨hmode, hlaw⟩ hstep => ⟨hmode.step hstep, throughputLaw_step hmode hlaw hstep⟩
  have hstart : accounted [] ⟨config, switchInit fs dpid sock bufsize h delay .throughput
      nMacAddresses learnDstMac version inMem outMem stack⟩ :=
    ⟨⟨rfl, rfl⟩, le_rfl, le_rfl, le_rfl⟩
  obtain ⟨hmode, hlaw⟩ := (hrun.invariant_history hsteps hstart).1
  exact ⟨fun hready env => hmode.refill hready env, hlaw⟩

end Refill

/-- A switch that learns, in throughput mode, with a write step after it has got to
READY_TO_SEND. -/
theorem throughput_refill_learning :
    ∃ history s', Run ProgramStep
        ⟨switch_config, switchInit (malloced false) 1 ⟨handshakeRequests, []⟩ BUFLEN BUFLEN_pos 0
          .throughput 100000 true OFP131_VERSION (fun _ => 0) (fun _ => 0) (fun _ => 0)⟩
        history s' ∧ s'.fs.switchStatus = .readyToSend ∧ 0 < sendCount s'.fs ∧
      (∀ env, Refill env s'.fs) ∧ ThroughputLaw history s' := by
  obtain ⟨received, features, portDesc, writes, s', hrun, -, -, -, -, hready, hcount, -⟩ :=
    exists_ready switch_config (malloced false) 1 BUFLEN BUFLEN_pos 0 .throughput 100000 true
      OFP131_VERSION (fun _ => 0) (fun _ => 0) (fun _ => 0)
  obtain ⟨hrefill, hlaw⟩ := throughput_refill switch_config (malloced false) 1
    ⟨handshakeRequests, []⟩ BUFLEN BUFLEN_pos 0 100000 true OFP131_VERSION (fun _ => 0)
    (fun _ => 0) (fun _ => 0) _ s' hrun
  exact ⟨_, s', hrun, hready, hcount, hrefill hready, hlaw⟩

end OfcBenchmark
