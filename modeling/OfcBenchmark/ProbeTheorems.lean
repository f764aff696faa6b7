import OfcBenchmark.SwitchRuns

/-!
# Probes and responses

`probeState` is raised when probes are queued, lowered when a response is credited, clamped
after every message and cleared in several places. `switchStep_counters` says what each step
does to it and to `count`; from it follow, over any run,

* in latency mode, that at most one probe is outstanding (`latency_flowControl`);
* in either mode, how many responses are credited for the probes queued
  (`switch_creditLaw`).
-/

namespace OfcBenchmark
open ByteMemory Runs

/-! ## Status changes -/

/-- What a status change leaves of the counters: entering READY_TO_SEND clears them. -/
structure StatusChange (fs fs' : Fakeswitch) : Prop where
  mode_eq : fs'.mode = fs.mode
  probeState_eq : fs'.probeState
    = if fs'.switchStatus = .readyToSend then 0 else fs.probeState
  count_eq : fs'.count = if fs'.switchStatus = .readyToSend then 0 else fs.count

/-- Staying out of READY_TO_SEND with the counters as they were. -/
theorem StatusChange.of_ne {fs fs' : Fakeswitch} (hne : fs'.switchStatus ≠ .readyToSend)
    (hmode : fs'.mode = fs.mode) (hprobe : fs'.probeState = fs.probeState)
    (hcount : fs'.count = fs.count) : StatusChange fs fs' := by
  refine ⟨hmode, ?_, ?_⟩
  · rw [if_neg hne, hprobe]
  · rw [if_neg hne, hcount]

theorem statusChange_now (fs : Fakeswitch) (st : HandshakeStatus) :
    StatusChange fs (switchChangeStatusNow fs st) := by
  unfold switchChangeStatusNow
  dsimp only
  split
  · rename_i h
    exact ⟨rfl, (if_pos h).symm, (if_pos h).symm⟩
  · rename_i h
    exact .of_ne h rfl rfl rfl

theorem statusChange (now : Timeval) (fs : Fakeswitch) (st : HandshakeStatus) :
    StatusChange fs (switchChangeStatus now fs st) := by
  unfold switchChangeStatus
  split
  · exact statusChange_now fs st
  · exact .of_ne nofun rfl rfl rfl

/-! ## The write step -/

/-- Each probe queued is one more outstanding. -/
theorem queueProbe_iterate (buf : Mem) (n : ℕ) (fs : Fakeswitch) :
    ((queueProbe buf)^[n] fs).probeState = fs.probeState + n ∧
      ((queueProbe buf)^[n] fs).count = fs.count ∧
      ((queueProbe buf)^[n] fs).mode = fs.mode := by
  induction n with
  | zero => exact ⟨(add_zero _).symm, rfl, rfl⟩
  | succ n ih =>
    rw [Function.iterate_succ_apply']
    refine ⟨?_, ih.2⟩
    show ((queueProbe buf)^[n] fs).probeState + 1 = _
    rw [ih.1, Nat.cast_succ, add_assoc]

/-- In READY_TO_SEND a write step queues `send_count` probes. -/
theorem writeStep_ready (env : WriteEnv) {fs : Fakeswitch}
    (h : fs.switchStatus = .readyToSend) :
    writeStep env fs = (queueProbe env.buf)^[sendCount fs] fs := by
  rw [writeStep, h]

/-- In any other status it does no more to the counters than change the status. -/
theorem writeStep_statusChange (env : WriteEnv) {fs : Fakeswitch}
    (h : fs.switchStatus ≠ .readyToSend) : StatusChange fs (writeStep env fs) := by
  have hrefl : StatusChange fs fs := .of_ne h rfl rfl rfl
  unfold writeStep
  split
  case h_1 hready => exact absurd hready h
  -- WAITING
  · split
    · exact statusChange_now fs _
    · exact hrefl
  -- LEARN_DSTMAC: learning only pushes and counts `xid` up
  · obtain ⟨hmode, hprobe, hcount⟩ :=
      statusChange env.now (ofp13SwitchLearnDstmac fs) .readyToSend
    exact ⟨hmode, hprobe, hcount⟩
  · split
    · exact statusChange env.now fs _
    · exact hrefl
  · exact hrefl

/-- In latency mode a probe is queued when none is outstanding. -/
theorem sendCount_latency {fs : Fakeswitch} (h : fs.mode = .latency) :
    sendCount fs = if fs.probeState = 0 then 1 else 0 := by
  unfold sendCount
  rw [h]
  by_cases h0 : fs.probeState = 0 <;> simp [h0]

/-! ## One step -/

/-- What a step does to the counters. -/
structure CounterStep (t : SwitchTransition) : Prop where
  mode_eq : t.post.fs.mode = t.pre.fs.mode
  /-- A reset neither queues nor credits anything. -/
  idle : IsReset t → probesQueued t = 0 ∧ responsesCredited t = 0
  /-- A step that credits a response credits one and queues nothing. -/
  credited_le : responsesCredited t = 0 ∨ responsesCredited t = 1 ∧ probesQueued t = 0
  probeState_eq : 0 ≤ t.pre.fs.probeState → t.post.fs.probeState
    = if IsReset t then 0
      else max 0 (t.pre.fs.probeState + probesQueued t - responsesCredited t)
  count_eq : t.post.fs.count = t.pre.fs.count + responsesCredited t - countReported t ∨
    t.post.fs.count = 0 ∧ responsesCredited t = 0 ∧ countReported t = 0

namespace CounterStep

variable {s s' : SwitchState}

/-- A message. -/
theorem message (role : Mem) (now : Timeval) (buf ofph : Mem) (length : ℕ) (s : SwitchState) :
    CounterStep ⟨s, .message role now buf ofph length, s.next role now buf ofph length⟩ := by
  -- the message is handled in the state `pulled`, which has the counters of `s`
  let pulled := ReadState.pull ⟨s.config, s.fs, buf⟩ length
  have hcount : (s.next role now buf ofph length).fs.count
      = s.fs.count + if counted s.fs ofph then 1 else 0 :=
    ofp13HandleMessage_count role now ofph pulled
  have hprobe : (s.next role now buf ofph length).fs.probeState
      = max 0 (if counted s.fs ofph then s.fs.probeState - 1
          else if restartsProbe s.fs ofph then 0 else s.fs.probeState) :=
    ofp13HandleMessage_probeState role now ofph pulled
  have hcredited : responsesCredited ⟨s, .message role now buf ofph length,
      s.next role now buf ofph length⟩ = if counted s.fs ofph then 1 else 0 := by
    show ((s.next role now buf ofph length).fs.count - s.fs.count).toNat = _
    rw [hcount]
    split_ifs <;> simp
  -- a GET_CONFIG_REQUEST is not counted
  have hdisjoint : restartsProbe s.fs ofph → ¬ counted s.fs ofph := by
    rintro ⟨htype, -⟩ ⟨-, ⟨htype', -⟩ | ⟨htype', -⟩⟩ <;>
      · rw [htype] at htype'
        cases htype'
  refine ⟨ofp13HandleMessage_mode role now ofph pulled, fun hreset => ⟨rfl, ?_⟩,
    ?_, fun h0 => ?_, .inl ?_⟩
  · rw [hcredited, if_neg (hdisjoint hreset)]
  · rw [hcredited]
    split_ifs
    · exact .inr ⟨rfl, rfl⟩
    · exact .inl rfl
  · rw [hcredited]
    refine hprobe.trans ?_
    show _ = if restartsProbe s.fs ofph then (0 : ℤ) else max 0 (s.fs.probeState + 0 - _)
    by_cases hr : restartsProbe s.fs ofph
    · rw [if_neg (hdisjoint hr), if_pos hr, if_pos hr, max_self]
    · rw [if_neg hr, if_neg hr]
      split_ifs <;> simp
  · rw [hcredited]
    refine hcount.trans ?_
    show _ = s.fs.count + _ - 0
    split_ifs <;> simp

/-- A step that leaves the counters alone. -/
theorem of_kept {t : SwitchTransition} (hmode : t.post.fs.mode = t.pre.fs.mode)
    (hprobe : t.post.fs.probeState = t.pre.fs.probeState)
    (hcount : t.post.fs.count = t.pre.fs.count) (hreset : ¬ IsReset t)
    (hqueued : probesQueued t = 0) (hcredited : responsesCredited t = 0)
    (hreported : countReported t = 0) : CounterStep t := by
  refine ⟨hmode, fun h => absurd h hreset, .inl hcredited, ?_, .inl ?_⟩
  · intro h0
    rw [if_neg hreset, hqueued, hcredited, hprobe]
    omega
  · rw [hcredited, hreported, hcount]
    omega

/-- A step that changes the status, where entering READY_TO_SEND counts as a reset. -/
theorem of_statusChange {t : SwitchTransition} (h : StatusChange t.pre.fs t.post.fs)
    (hreset : IsReset t ↔ t.post.fs.switchStatus = .readyToSend)
    (hqueued : probesQueued t = 0) (hcredited : responsesCredited t = 0)
    (hreported : countReported t = 0) : CounterStep t := by
  have hprobe := h.probeState_eq
  have hcount := h.count_eq
  by_cases hready : t.post.fs.switchStatus = .readyToSend
  · rw [if_pos hready] at hprobe hcount
    refine ⟨h.mode_eq, fun _ => ⟨hqueued, hcredited⟩, .inl hcredited, fun _ => ?_,
      .inr ⟨hcount, hcredited, hreported⟩⟩
    rw [if_pos (hreset.mpr hready), hprobe]
  · rw [if_neg hready] at hprobe hcount
    exact of_kept h.mode_eq hprobe hcount (fun hr => hready (hreset.mp hr)) hqueued hcredited
      hreported

/-- A write step. -/
theorem write (env : WriteEnv) (s : SwitchState) :
    CounterStep ⟨s, .write env, { s with fs := ofp13SwitchHandleWrite env s.fs }⟩ := by
  by_cases hready : s.fs.switchStatus = .readyToSend
  -- in READY_TO_SEND `probeState` goes up by what is queued
  · obtain ⟨hprobe, hcount, hmode⟩ := queueProbe_iterate env.buf (sendCount s.fs) s.fs
    rw [← writeStep_ready env hready] at hprobe hcount hmode
    have hqueued : probesQueued ⟨s, .write env,
        { s with fs := ofp13SwitchHandleWrite env s.fs }⟩ = sendCount s.fs := if_pos hready
    have hreset : ¬ IsReset ⟨s, .write env,
        { s with fs := ofp13SwitchHandleWrite env s.fs }⟩ := fun h => h.1 hready
    refine ⟨?_, fun h => absurd h hreset, .inl rfl, ?_, .inl ?_⟩
    · exact (ofp13SwitchHandleWrite_mode env s.fs).trans hmode
    · intro h0
      rw [if_neg hreset, hqueued]
      refine (ofp13SwitchHandleWrite_probeState env s.fs).trans ?_
      rw [hprobe]
      show _ = max 0 (s.fs.probeState + (sendCount s.fs : ℤ) - (0 : ℕ))
      have h0' : 0 ≤ s.fs.probeState := h0
      omega
    · refine (ofp13SwitchHandleWrite_count env s.fs).trans (hcount.trans ?_)
      show s.fs.count = s.fs.count + (0 : ℕ) - 0
      omega
  -- otherwise the step may enter READY_TO_SEND, which is a reset
  · obtain ⟨hmode, hprobe, hcount⟩ := writeStep_statusChange env hready
    rw [← ofp13SwitchHandleWrite_mode] at hmode
    rw [← ofp13SwitchHandleWrite_probeState, ← ofp13SwitchHandleWrite_switchStatus] at hprobe
    rw [← ofp13SwitchHandleWrite_count, ← ofp13SwitchHandleWrite_switchStatus] at hcount
    exact of_statusChange ⟨hmode, hprobe, hcount⟩ ⟨And.right, fun h => ⟨hready, h⟩⟩
      (if_neg hready) rfl rfl

/-- A call of `switchGetCount`. -/
theorem getCount {ts : List Transfer} {fs' : Fakeswitch} {count : ℤ}
    {pulled : List (List UInt8)} (h : switchGetCount ts s.fs = .ok (count, fs', pulled)) :
    CounterStep ⟨s, .getCount ts, { s with fs := fs' }⟩ := by
  obtain ⟨r, -, heq⟩ := map_eq_ok_iff.mp h
  cases heq
  refine ⟨rfl, fun _ => ⟨rfl, rfl⟩, .inl rfl, fun _ => rfl, .inl ?_⟩
  show (0 : ℤ) = s.fs.count + (0 : ℕ) - s.fs.count
  omega

end CounterStep

/-- Every step does to the counters what its kind says. -/
theorem switchStep_counters {s s' : SwitchState} {e : SwitchEvent} (h : SwitchStep s e s') :
    CounterStep ⟨s, e, s'⟩ := by
  rcases e with env | ⟨role, now, buf, ofph, length⟩ | env | ⟨now, st⟩ | st | ts | config
  · cases h
    exact .of_kept rfl rfl rfl not_false rfl rfl rfl
  · cases h
    exact .message role now buf ofph length s
  · cases h
    exact .write env s
  · cases h
    exact .of_statusChange (statusChange now s.fs st) Iff.rfl rfl rfl rfl
  · cases h
    exact .of_statusChange (statusChange_now s.fs st) Iff.rfl rfl rfl rfl
  · obtain ⟨⟨count, fs', pulled⟩, hcount, rfl⟩ := map_eq_ok_iff.mp h
    exact .getCount hcount
  · cases h
    exact .of_kept rfl rfl rfl not_false rfl rfl rfl

/-! ## Latency mode -/

/-- At most one probe is outstanding. -/
structure OneProbe (s : SwitchState) : Prop where
  mode_eq : s.fs.mode = .latency
  probeState_nonneg : 0 ≤ s.fs.probeState
  probeState_le : s.fs.probeState ≤ 1

/-- A switch in latency mode queues a probe only when none is outstanding. -/
theorem probesQueued_le {t : SwitchTransition} (h : OneProbe t.pre) :
    t.pre.fs.probeState + probesQueued t ≤ 1 := by
  have h0 := h.probeState_nonneg
  have h1 := h.probeState_le
  have hsend := sendCount_latency h.mode_eq
  unfold probesQueued
  split
  · split
    · rw [hsend]
      split_ifs <;> omega
    · omega
  · omega

theorem oneProbe_step {s s' : SwitchState} {e : SwitchEvent} (h : OneProbe s)
    (hstep : SwitchStep s e s') : OneProbe s' := by
  have hc := switchStep_counters hstep
  have hprobe : s'.fs.probeState = _ := hc.probeState_eq h.probeState_nonneg
  have hqueued := probesQueued_le (t := ⟨s, e, s'⟩) h
  refine ⟨hc.mode_eq.trans h.mode_eq, ?_, ?_⟩
  · rw [hprobe]
    split_ifs
    · exact le_rfl
    · exact le_max_left _ _
  · rw [hprobe]
    split_ifs <;> omega

/-- The flow control of latency mode. Each response credited and each reset makes room for
one more probe, and there was room for one at the start. -/
structure FlowControl (history : List SwitchTransition) : Prop where
  probeState_eq : ∀ t ∈ history, t.post.fs.probeState = 0 ∨ t.post.fs.probeState = 1
  queued_le : total probesQueued history
    ≤ 1 + total responsesCredited history + total resets history

/-- In every step, what is queued is covered by what is credited or reset and by the change
of `probeState`. -/
theorem queued_le_step {s s' : SwitchState} {e : SwitchEvent} (h : OneProbe s)
    (hstep : SwitchStep s e s') :
    -s'.fs.probeState + (probesQueued ⟨s, e, s'⟩ : ℤ)
      ≤ -s.fs.probeState + ((responsesCredited ⟨s, e, s'⟩ + resets ⟨s, e, s'⟩ : ℕ) : ℤ) := by
  have hc := switchStep_counters hstep
  have hprobe : s'.fs.probeState = _ := hc.probeState_eq h.probeState_nonneg
  have h1 := h.probeState_le
  rw [hprobe, resets]
  -- a reset gives up one probe at most
  by_cases hreset : IsReset ⟨s, e, s'⟩
  · rw [if_pos hreset, if_pos hreset, (hc.idle hreset).1]
    omega
  · rw [if_neg hreset, if_neg hreset]
    show -max 0 (s.fs.probeState + _ - _) + _ ≤ _
    omega

/-- Flow control from any state with at most one probe outstanding. -/
theorem run_flowControl {s s' : SwitchState} {history : List SwitchTransition}
    (hrun : Run SwitchStep s history s') (h : OneProbe s) (h0 : s.fs.probeState = 0) :
    FlowControl history := by
  have hinv : ∀ s e s', OneProbe s → SwitchStep s e s' → OneProbe s' :=
    fun _ _ _ h hstep => oneProbe_step h hstep
  obtain ⟨hend, hall⟩ := hrun.invariant hinv h
  have hbal := hrun.balance (fun s => -s.fs.probeState) (fun t => (probesQueued t : ℤ))
    (fun t => ((responsesCredited t + resets t : ℕ) : ℤ)) hinv
    (fun _ _ _ h hstep => queued_le_step h hstep) h
  rw [total_natCast, total_natCast, total_add, h0] at hbal
  have hle := hend.probeState_le
  refine ⟨fun t ht => ?_, by omega⟩
  have hpost := (hall t ht).2
  have h0 := hpost.probeState_nonneg
  have h1 := hpost.probeState_le
  omega

/-! ## Either mode -/

/-- The counters are not negative. -/
structure NonnegCounters (s : SwitchState) : Prop where
  probeState_nonneg : 0 ≤ s.fs.probeState
  count_nonneg : 0 ≤ s.fs.count

theorem nonnegCounters_step {s s' : SwitchState} {e : SwitchEvent} (h : NonnegCounters s)
    (hstep : SwitchStep s e s') : NonnegCounters s' := by
  have hc := switchStep_counters hstep
  have hprobe : s'.fs.probeState = _ := hc.probeState_eq h.probeState_nonneg
  have hcount : s'.fs.count = _ ∨ s'.fs.count = 0 ∧ _ := hc.count_eq
  have h0 : 0 ≤ s.fs.count := h.count_nonneg
  have hreported : countReported ⟨s, e, s'⟩ ≤ s.fs.count := by
    unfold countReported
    split
    · exact le_rfl
    · exact h0
  constructor
  · rw [hprobe]
    split_ifs
    · exact le_rfl
    · exact le_max_left _ _
  · rcases hcount with hcount | ⟨hcount, -⟩
    · rw [hcount]
      show 0 ≤ s.fs.count + _ - _
      omega
    · rw [hcount]

/-- A response credited lowers `probeState`, or finds no probe outstanding. -/
theorem credited_le_step {s s' : SwitchState} {e : SwitchEvent} (h : NonnegCounters s)
    (hstep : SwitchStep s e s') :
    s'.fs.probeState + (responsesCredited ⟨s, e, s'⟩ : ℤ)
      ≤ s.fs.probeState + ((probesQueued ⟨s, e, s'⟩ + surplusResponses ⟨s, e, s'⟩ : ℕ) : ℤ) := by
  have hc := switchStep_counters hstep
  have hprobe : s'.fs.probeState = _ := hc.probeState_eq h.probeState_nonneg
  have h0 := h.probeState_nonneg
  rw [hprobe, surplusResponses]
  -- a reset only lowers `probeState`; else the clamp acts on a surplus response alone
  by_cases hreset : IsReset ⟨s, e, s'⟩
  · rw [if_pos hreset, (hc.idle hreset).1, (hc.idle hreset).2]
    omega
  · rw [if_neg hreset]
    show max 0 (s.fs.probeState + _ - _) + _ ≤ s.fs.probeState + ((_ + if s.fs.probeState = 0
      then _ else 0 : ℕ) : ℤ)
    have hone := hc.credited_le
    split_ifs <;> omega

/-- A count reported has been credited before. -/
theorem reported_le_step {s s' : SwitchState} {e : SwitchEvent} (h : NonnegCounters s)
    (hstep : SwitchStep s e s') :
    s'.fs.count + countReported ⟨s, e, s'⟩
      ≤ s.fs.count + (responsesCredited ⟨s, e, s'⟩ : ℤ) := by
  have h0 := h.count_nonneg
  have hcount : s'.fs.count = s.fs.count + _ - _ ∨ s'.fs.count = 0 ∧ _ :=
    (switchStep_counters hstep).count_eq
  rcases hcount with hcount | ⟨hcount, -, hreported⟩
  · omega
  · rw [hcount, hreported]
    omega

/-- Each response credited answers a probe of its own or is surplus: it came when no probe
was outstanding. The counts reported add up to no more than what was credited. -/
structure CreditLaw (history : List SwitchTransition) : Prop where
  credited_le : total responsesCredited history
    ≤ total probesQueued history + total surplusResponses history
  reported_le : total countReported history ≤ total responsesCredited history

/-- The law of credits from any state with nothing outstanding and nothing counted. -/
theorem run_creditLaw {s s' : SwitchState} {history : List SwitchTransition}
    (hrun : Run SwitchStep s history s') (hprobe : s.fs.probeState = 0)
    (hcount : s.fs.count = 0) : CreditLaw history := by
  have h : NonnegCounters s := ⟨hprobe.ge, hcount.ge⟩
  have hinv : ∀ s e s', NonnegCounters s → SwitchStep s e s' → NonnegCounters s' :=
    fun _ _ _ h hstep => nonnegCounters_step h hstep
  obtain ⟨hend, -⟩ := hrun.invariant hinv h
  have hprobe' := hend.probeState_nonneg
  have hcount' := hend.count_nonneg
  have hcredit := hrun.balance (fun s => s.fs.probeState) (fun t => (responsesCredited t : ℤ))
    (fun t => ((probesQueued t + surplusResponses t : ℕ) : ℤ)) hinv
    (fun _ _ _ h hstep => credited_le_step h hstep) h
  have hreport := hrun.balance (fun s => s.fs.count) countReported
    (fun t => (responsesCredited t : ℤ)) hinv
    (fun _ _ _ h hstep => reported_le_step h hstep) h
  rw [total_natCast, total_natCast, total_add] at hcredit
  rw [total_natCast] at hreport
  exact ⟨by omega, by omega⟩

/-! ## From `switchInit` -/

section Init

variable (fs : Fakeswitch) (dpid : ℤ) (sock : Socket) (bufsize : ℕ) (hsize : 0 < bufsize)
  (delay nMacAddresses : ℤ) (learnDstMac : Bool) (version : UInt8) (inMem outMem stack : Mem)
  (config : OfpSwitchConfig)

/-- In latency mode, whatever happens to a switch after `switchInit`, at most one probe is
outstanding that was neither credited nor reset. -/
theorem latency_flowControl (history : List SwitchTransition) (s' : SwitchState)
    (hrun : Run SwitchStep ⟨config, switchInit fs dpid sock bufsize hsize delay .latency
      nMacAddresses learnDstMac version inMem outMem stack⟩ history s') :
    FlowControl history :=
  run_flowControl hrun ⟨rfl, le_rfl, zero_le_one⟩ rfl

end Init

/-- A PACKET_OUT that sends an ARP frame from port 1 to port 2. -/
def packetOutArp : List UInt8 :=
  [4, 13, 0, 54, 0, 0, 0, 4, 255, 255, 255, 255, 0, 0, 0, 1, 0, 16, 0, 0, 0, 0, 0, 0] ++
    [0, 0, 0, 16, 0, 0, 0, 2, 0, 0, 0, 0, 0, 0, 0, 0] ++
      [255, 255, 255, 255, 255, 255, 0, 0, 0, 0, 0, 1, 8, 6]

/-- The switch handles `m`. -/
def handles (m : List UInt8) : SwitchEvent :=
  .message (fun _ => 0) ⟨0, 0⟩ (fun _ => 0) (Mem.ofList m) m.length

/-- The controller sets the switch up and sends `answers` for the first probe. -/
def probeSession (answers : List (List UInt8)) : List SwitchEvent :=
  [.receive (readUpTo 24), handles featuresRequest, handles portDescRequest,
    .write (writeUpTo 0), .write (writeUpTo 0), .receive (readUpTo 118)] ++ answers.map handles

/-- The switch of such a session. -/
def sessionStart (answers : List (List UInt8)) : SwitchState where
  config := switch_config
  fs := connectedSwitch .latency (featuresRequest ++ portDescRequest ++ answers.flatten)

set_option maxRecDepth 10000 in
/-- Two probes queued, one response and one reset. -/
theorem latency_flowControl_addPortFlow :
    ∃ history s', Run SwitchStep (sessionStart [addPortFlow]) history s' ∧
      (total probesQueued history, total responsesCredited history, total resets history)
        = (2, 1, 1) ∧ FlowControl history := by
  have hfollow : (follow runEvent (probeSession [addPortFlow] ++ [.write (writeUpTo 0)])
      (sessionStart [addPortFlow])).map (fun r =>
        (total probesQueued r.1, total responsesCredited r.1, total resets r.1))
      = .ok (2, 1, 1) := rfl
  obtain ⟨r, hrun, htotal⟩ := map_eq_ok_iff.mp hfollow
  have hrun := Run.of_follow hrun
  exact ⟨r.1, r.2, hrun, htotal, latency_flowControl _ _ _ _ _ _ _ _ _ _ _ _ _ _ _ hrun⟩

section Init

variable (fs : Fakeswitch) (dpid : ℤ) (sock : Socket) (bufsize : ℕ) (hsize : 0 < bufsize)
  (delay nMacAddresses : ℤ) (learnDstMac : Bool) (version : UInt8) (inMem outMem stack : Mem)
  (config : OfpSwitchConfig)

/-- In either mode, no more responses are credited than probes were queued and responses
came with no probe outstanding. -/
theorem switch_creditLaw (mode : TestMode) (history : List SwitchTransition) (s' : SwitchState)
    (hrun : Run SwitchStep ⟨config, switchInit fs dpid sock bufsize hsize delay mode
      nMacAddresses learnDstMac version inMem outMem stack⟩ history s') :
    CreditLaw history :=
  run_creditLaw hrun rfl rfl

end Init

set_option maxRecDepth 10000 in
/-- A controller that answers a probe with a FLOW_MOD and a PACKET_OUT: one probe, two
responses, of which one is surplus. -/
theorem answeredTwice_run :
    ∃ history s', Run SwitchStep (sessionStart [addPortFlow, packetOutArp]) history s' ∧
      messagesOf history = [featuresRequest, portDescRequest, addPortFlow, packetOutArp] ∧
      total probesQueued history = 1 ∧ total responsesCredited history = 2 ∧
      total surplusResponses history = 1 := by
  have hfollow : (follow runEvent (probeSession [addPortFlow, packetOutArp])
      (sessionStart [addPortFlow, packetOutArp])).map (fun r =>
        (messagesOf r.1, total probesQueued r.1, total responsesCredited r.1,
          total surplusResponses r.1))
      = .ok ([featuresRequest, portDescRequest, addPortFlow, packetOutArp], 1, 2, 1) := rfl
  obtain ⟨r, hrun, htotal⟩ := map_eq_ok_iff.mp hfollow
  simp only [Prod.mk.injEq] at htotal
  exact ⟨r.1, r.2, Run.of_follow hrun, htotal⟩

/-- The law of credits on that run. -/
theorem switch_creditLaw_answeredTwice :
    ∃ history s', Run SwitchStep (sessionStart [addPortFlow, packetOutArp]) history s' ∧
      total probesQueued history = 1 ∧ total responsesCredited history = 2 ∧
      total surplusResponses history = 1 ∧ CreditLaw history := by
  obtain ⟨history, s', hrun, -, hqueued, hcredited, hsurplus⟩ := answeredTwice_run
  exact ⟨history, s', hrun, hqueued, hcredited, hsurplus,
    switch_creditLaw _ _ _ _ _ _ _ _ _ _ _ _ _ _ _ _ hrun⟩

/-- More responses are credited than probes were queued. -/
theorem not_credited_le_queued :
    ∃ history s', Run SwitchStep (sessionStart [addPortFlow, packetOutArp]) history s' ∧
      messagesOf history = [featuresRequest, portDescRequest, addPortFlow, packetOutArp] ∧
      ¬ total responsesCredited history ≤ total probesQueued history := by
  obtain ⟨history, s', hrun, hmsgs, hqueued, hcredited, -⟩ := answeredTwice_run
  refine ⟨history, s', hrun, hmsgs, ?_⟩
  rw [hqueued, hcredited]
  decide

end OfcBenchmark
