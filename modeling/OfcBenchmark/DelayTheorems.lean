import OfcBenchmark.Benchmark
import OfcBenchmark.ReadyTheorems

/-!
# The delay of a fake switch

`switchChangeStatus` makes the deadline by adding to the two fields of a `struct timeval`, and
does not carry. `timercmp` takes such a deadline for the beginning of the next second, so the
delay is kept exactly if there is nothing to carry (`delay_kept_iff`).

Every change of the status goes through `switchChangeStatus`, and so each of them is delayed:
twice on the way to READY_TO_SEND, or three times (`handshake_waits`).
-/

namespace OfcBenchmark
open ByteMemory Runs

/-! ## What moves the status -/

/-- The same status and the same delay. -/
structure SameStatus (fs fs' : Fakeswitch) : Prop where
  switchStatus_eq : fs'.switchStatus = fs.switchStatus
  nextStatus_eq : fs'.nextStatus = fs.nextStatus
  delay_start_eq : fs'.delay_start = fs.delay_start
  delay_eq : fs'.delay = fs.delay
  learnDstMac_eq : fs'.learnDstMac = fs.learnDstMac

namespace SameStatus

variable {fs fs' fs₁ : Fakeswitch}

theorem refl (fs : Fakeswitch) : SameStatus fs fs := ⟨rfl, rfl, rfl, rfl, rfl⟩

theorem trans (h : SameStatus fs fs₁) (h' : SameStatus fs₁ fs') : SameStatus fs fs' where
  switchStatus_eq := h'.switchStatus_eq.trans h.switchStatus_eq
  nextStatus_eq := h'.nextStatus_eq.trans h.nextStatus_eq
  delay_start_eq := h'.delay_start_eq.trans h.delay_start_eq
  delay_eq := h'.delay_eq.trans h.delay_eq
  learnDstMac_eq := h'.learnDstMac_eq.trans h.learnDstMac_eq

theorem stage_eq (h : SameStatus fs fs') : fs'.stage = fs.stage := by
  rw [Fakeswitch.stage, Fakeswitch.stage, h.switchStatus_eq, h.nextStatus_eq]

theorem changeStatusNow (h : SameStatus fs fs') (st : HandshakeStatus) :
    SameStatus (switchChangeStatusNow fs st) (switchChangeStatusNow fs' st) := by
  unfold switchChangeStatusNow
  split <;> exact ⟨rfl, h.nextStatus_eq, h.delay_start_eq, h.delay_eq, h.learnDstMac_eq⟩

theorem changeStatus (h : SameStatus fs fs') (now : Timeval) (st : HandshakeStatus) :
    SameStatus (switchChangeStatus now fs st) (switchChangeStatus now fs' st) := by
  unfold switchChangeStatus
  rw [h.delay_eq]
  split
  · exact h.changeStatusNow st
  · exact ⟨rfl, rfl, rfl, rfl, h.learnDstMac_eq⟩

end SameStatus

/-- What an event makes of the status. -/
def Fakeswitch.move (fs : Fakeswitch) : SwitchEvent → Fakeswitch
  | .message _ now _ ofph _ =>
    if IsFeaturesRequest ofph then switchChangeStatus now fs .sendPortDesc else fs
  | .write env =>
    match fs.switchStatus with
    | .waiting =>
      if timercmpGt env.now fs.delay_start then switchChangeStatusNow fs fs.nextStatus else fs
    | .learnDstmac => switchChangeStatus env.now fs .readyToSend
    | .sendPortDesc =>
      if fs.sendPortDesc then
        switchChangeStatus env.now fs (if fs.learnDstMac then .learnDstmac else .readyToSend)
      else fs
    | _ => fs
  | _ => fs

section Step

variable (role : Mem) (now : Timeval) (ofph : Mem) (s : ReadState)

theorem sameStatus_ofp13Dispatch :
    SameStatus (if IsFeaturesRequest ofph then switchChangeStatus now s.fs .sendPortDesc else s.fs)
      (ofp13Dispatch role now ofph s).fs := by
  obtain ⟨hf, bs, h⟩ | ⟨hp, bs, h⟩ | ⟨hf, -, ob, c, ps, h⟩ := ofp13Dispatch_cases role now ofph s
  · rw [h, if_pos hf]
    have hpush : SameStatus s.fs (s.fs.push bs) := ⟨rfl, rfl, rfl, rfl, rfl⟩
    exact hpush.changeStatus now .sendPortDesc
  · have hf : ¬ IsFeaturesRequest ofph := fun hf => not_readsPortDesc ofph hf hp
    rw [h, if_neg hf]
    exact ⟨rfl, rfl, rfl, rfl, rfl⟩
  · rw [h, if_neg hf]
    exact ⟨rfl, rfl, rfl, rfl, rfl⟩

theorem sameStatus_queueProbe (buf : Mem) (n : ℕ) (fs : Fakeswitch) :
    SameStatus fs ((queueProbe buf)^[n] fs) := by
  induction n with
  | zero => exact .refl fs
  | succ n ih =>
    rw [Function.iterate_succ_apply']
    exact ih.trans ⟨rfl, rfl, rfl, rfl, rfl⟩

theorem sameStatus_writeStep (env : WriteEnv) (fs : Fakeswitch) :
    SameStatus (fs.move (.write env)) (writeStep env fs) := by
  unfold writeStep Fakeswitch.move
  cases hst : fs.switchStatus with
  | start => exact .refl fs
  | sendPortDesc => exact .refl _
  | learnDstmac =>
    have hpush : SameStatus fs (ofp13SwitchLearnDstmac fs) := ⟨rfl, rfl, rfl, rfl, rfl⟩
    exact hpush.changeStatus env.now .readyToSend
  | readyToSend => exact sameStatus_queueProbe env.buf (sendCount fs) fs
  | waiting => exact .refl _

end Step

/-- All that a step does to the status. -/
theorem sameStatus_step {s s' : SwitchState} {e : SwitchEvent} (h : ProgramStep s e s') :
    SameStatus (s.fs.move e) s'.fs := by
  cases programMove_of_step h with
  | receive env => exact ⟨rfl, rfl, rfl, rfl, rfl⟩
  | message role now buf ofph length hnext =>
    let pulled := ReadState.pull ⟨s.config, s.fs, buf⟩ length
    have hpull : SameStatus s.fs pulled.fs := ⟨rfl, rfl, rfl, rfl, rfl⟩
    have hmove : SameStatus (s.fs.move (.message role now buf ofph length))
        (if IsFeaturesRequest ofph then switchChangeStatus now pulled.fs .sendPortDesc
          else pulled.fs) := by
      unfold Fakeswitch.move
      dsimp only
      split
      · exact hpull.changeStatus now .sendPortDesc
      · exact hpull
    have hdispatch := hmove.trans (sameStatus_ofp13Dispatch role now ofph pulled)
    show SameStatus _ (ofp13Dispatch role now ofph pulled).fs.clamp
    rw [clamp_frame]
    exact hdispatch.trans ⟨rfl, rfl, rfl, rfl, rfl⟩
  | write env =>
    obtain ⟨_, _, hframe⟩ := ofp13SwitchHandleWrite_frame env s.fs
    have hwrite := sameStatus_writeStep env s.fs
    show SameStatus _ (ofp13SwitchHandleWrite env s.fs)
    rw [hframe]
    exact hwrite.trans ⟨rfl, rfl, rfl, rfl, rfl⟩
  | getCount ts inbuf sock pulled hcount => exact ⟨rfl, rfl, rfl, rfl, rfl⟩
  | configure config => exact .refl s.fs

/-! ## Deadlines -/

/-- A time as `gettimeofday` returns it. -/
structure Timeval.IsWallClock (t : Timeval) : Prop where
  usec_nonneg : 0 ≤ t.tv_usec
  usec_lt : t.tv_usec < 1000000

/-- A `struct timeval` in µs. -/
def Timeval.usecs (t : Timeval) : ℤ := 1000000 * t.tv_sec + t.tv_usec

theorem Timeval.ms_eq (t : Timeval) : t.ms = t.usecs / 1000 := by
  rw [Timeval.ms, Timeval.usecs]
  push_cast
  ring

/-- The `delay_start` that `switchChangeStatus` stores. -/
def deadline (start : Timeval) (delay : ℤ) : Timeval where
  tv_sec := start.tv_sec + delay.tdiv 1000
  tv_usec := start.tv_usec + delay.tmod 1000 * 1000

theorem usecs_deadline (start : Timeval) (delay : ℤ) :
    (deadline start delay).usecs = start.usecs + 1000 * delay := by
  have hdelay : delay.tmod 1000 + 1000 * delay.tdiv 1000 = delay := Int.tmod_add_mul_tdiv delay 1000
  unfold Timeval.usecs deadline
  dsimp only
  omega

/-- A time in ms, put off by `delay`. -/
theorem add_ms (start : Timeval) (delay : ℤ) :
    start.ms + delay = ((start.usecs + 1000 * delay : ℤ) : ℚ) / 1000 := by
  rw [Timeval.ms_eq]
  push_cast
  ring

theorem add_ms_le_iff (start now : Timeval) (delay : ℤ) :
    start.ms + delay ≤ now.ms ↔ start.usecs + 1000 * delay ≤ now.usecs := by
  rw [add_ms, Timeval.ms_eq, div_le_div_iff_of_pos_right (by norm_num), Int.cast_le]

theorem add_ms_lt_iff (start now : Timeval) (delay : ℤ) :
    start.ms + delay < now.ms ↔ start.usecs + 1000 * delay < now.usecs := by
  rw [add_ms, Timeval.ms_eq, div_lt_div_iff_of_pos_right (by norm_num), Int.cast_lt]

theorem timercmpGt_iff (a b : Timeval) : timercmpGt a b = true ↔
    b.tv_sec < a.tv_sec ∨ a.tv_sec = b.tv_sec ∧ b.tv_usec < a.tv_usec := by
  unfold timercmpGt
  split
  case isTrue h => simp [h]
  case isFalse h => simp [h]

section Deadline

variable {start now : Timeval} {delay : ℤ}

/-- Nothing is carried: the delay is over as soon as so much time has passed, and not before. -/
theorem le_of_timercmpGt (hnow : now.IsWallClock) (hdelay : 0 < delay)
    (hcarry : start.tv_usec + delay % 1000 * 1000 ≤ 1000000)
    (h : timercmpGt now (deadline start delay) = true) :
    start.usecs + 1000 * delay ≤ now.usecs := by
  have hmod : delay.tmod 1000 = delay % 1000 := Int.tmod_eq_emod_of_nonneg hdelay.le
  have hsum := usecs_deadline start delay
  have hnonneg := hnow.usec_nonneg
  rw [timercmpGt_iff] at h
  unfold Timeval.usecs at hsum ⊢
  unfold deadline at h hsum
  dsimp only at h hsum
  omega

/-- With or without a carry, it is over in time. -/
theorem timercmpGt_of_lt (hnow : now.IsWallClock) (hstart : start.IsWallClock) (hdelay : 0 < delay)
    (h : start.usecs + 1000 * delay < now.usecs) :
    timercmpGt now (deadline start delay) = true := by
  have hmod : delay.tmod 1000 = delay % 1000 := Int.tmod_eq_emod_of_nonneg hdelay.le
  have hsum := usecs_deadline start delay
  have hlt := hnow.usec_lt
  have hnonneg := hstart.usec_nonneg
  rw [timercmpGt_iff]
  unfold Timeval.usecs at hsum h
  unfold deadline at hsum ⊢
  dsimp only at hsum ⊢
  omega

end Deadline

/-! ## A delay is kept -/

/-- The switch goes on waiting, for the same change of its status. -/
def GoesOnWaiting (t : SwitchTransition) : Prop :=
  ¬ HandlesFeatures t ∧ t.post.fs.switchStatus = .waiting

/-- A switch that began to wait at `start` leaves WAITING in a later write step only if so many
ms have passed, and leaves it in any that comes when more have passed. -/
def DelayKept (start : Timeval) (delay : ℤ) (history : List SwitchTransition) : Prop :=
  ∀ before t after, history = before ++ t :: after → (∀ r ∈ before, GoesOnWaiting r) →
    ∀ env, t.event = .write env → env.now.IsWallClock → start.ms ≤ env.now.ms →
      (t.post.fs.switchStatus ≠ .waiting → start.ms + delay ≤ env.now.ms) ∧
      (start.ms + delay < env.now.ms → t.post.fs.switchStatus ≠ .waiting)

theorem switchChangeStatus_of_pos (now : Timeval) {fs : Fakeswitch} (h : 0 < fs.delay)
    (st : HandshakeStatus) : switchChangeStatus now fs st
      = { fs with switchStatus := .waiting, nextStatus := st,
                  delay_start := deadline now fs.delay } := by
  rw [switchChangeStatus, if_neg h.ne']
  rfl

/-- A switch that waits for `st`, since `start`. -/
structure WaitsFor (start : Timeval) (delay : ℤ) (st : HandshakeStatus) (fs : Fakeswitch) :
    Prop where
  switchStatus_eq : fs.switchStatus = .waiting
  nextStatus_eq : fs.nextStatus = st
  delay_start_eq : fs.delay_start = deadline start delay

section Waiting

variable {start : Timeval} {delay : ℤ} {st : HandshakeStatus} {s s' : SwitchState}

theorem WaitsFor.of_sameStatus {fs fs' : Fakeswitch} (h : WaitsFor start delay st fs)
    (hsame : SameStatus fs fs') : WaitsFor start delay st fs' where
  switchStatus_eq := hsame.switchStatus_eq.trans h.switchStatus_eq
  nextStatus_eq := hsame.nextStatus_eq.trans h.nextStatus_eq
  delay_start_eq := hsame.delay_start_eq.trans h.delay_start_eq

theorem switchStatus_switchChangeStatusNow (fs : Fakeswitch) (st : HandshakeStatus) :
    (switchChangeStatusNow fs st).switchStatus = st := by
  unfold switchChangeStatusNow
  split <;> rfl

/-- A write step ends the waiting if `timercmp` says that the time has come. -/
theorem WaitsFor.write (h : WaitsFor start delay st s.fs) (hst : st ≠ .waiting) {env : WriteEnv}
    (hstep : ProgramStep s (.write env) s') :
    s'.fs.switchStatus ≠ .waiting ↔ timercmpGt env.now (deadline start delay) = true := by
  have hsame := (sameStatus_step hstep).switchStatus_eq
  rw [Fakeswitch.move, h.switchStatus_eq] at hsame
  dsimp only at hsame
  rw [h.delay_start_eq, h.nextStatus_eq] at hsame
  split at hsame
  case isTrue hgt =>
    rw [switchStatus_switchChangeStatusNow] at hsame
    rw [hsame]
    exact ⟨fun _ => hgt, fun _ => hst⟩
  case isFalse hgt =>
    rw [h.switchStatus_eq] at hsame
    exact ⟨fun hne => absurd hsame hne, fun hgt' => absurd hgt' hgt⟩

/-- What goes on waiting waits for the same. -/
theorem WaitsFor.step (h : WaitsFor start delay st s.fs) (hst : st ≠ .waiting) {e : SwitchEvent}
    (hstep : ProgramStep s e s') (hon : GoesOnWaiting ⟨s, e, s'⟩) :
    WaitsFor start delay st s'.fs := by
  have hsame := sameStatus_step hstep
  obtain ⟨hfeatures, hwaiting⟩ := hon
  cases e with
  | message role now buf ofph length =>
    have hother : ¬ IsFeaturesRequest ofph := hfeatures
    rw [Fakeswitch.move, if_neg hother] at hsame
    exact h.of_sameStatus hsame
  | write env =>
    have hgt := mt (h.write hst hstep).mpr (not_not.mpr hwaiting)
    rw [Fakeswitch.move, h.switchStatus_eq] at hsame
    dsimp only at hsame
    rw [h.delay_start_eq, if_neg hgt] at hsame
    exact h.of_sameStatus hsame
  | receive | changeStatus | changeStatusNow | getCount | configure => exact h.of_sameStatus hsame

/-- In a run that begins with the waiting, its first part that only goes on waiting leaves the
switch to wait for the same. -/
theorem WaitsFor.run {history before after : List SwitchTransition} {t : SwitchTransition}
    (h : WaitsFor start delay st s.fs) (hst : st ≠ .waiting)
    (hrun : Run ProgramStep s history s') (heq : history = before ++ t :: after)
    (hon : ∀ r ∈ before, GoesOnWaiting r) :
    WaitsFor start delay st t.pre.fs ∧ ProgramStep t.pre t.event t.post := by
  let Inv := fun (past : List SwitchTransition) (s : SwitchState) =>
    (∀ r ∈ past, GoesOnWaiting r) → WaitsFor start delay st s.fs
  have hsteps : ∀ past s e s', Inv past s → ProgramStep s e s' → Inv (past ++ [⟨s, e, s'⟩]) s' := by
    intro past s e s' hinv hstep hall
    have hpast := hinv fun r hr => hall r (List.mem_append_left _ hr)
    exact hpast.step hst hstep (hall _ (List.mem_append_right _ (List.mem_singleton_self _)))
  have hstart : Inv [] s := fun _ => h
  have hbefore := (hrun.invariant_history hsteps hstart).2 before t after heq
  refine ⟨hbefore hon, hrun.step_of_mem ?_⟩
  rw [heq]
  exact List.mem_append_right _ List.mem_cons_self

end Waiting

section Kept

variable {config : OfpSwitchConfig} {fs : Fakeswitch} {start : Timeval} {st : HandshakeStatus}

/-- With something to carry, a write step at the beginning of the next second comes too
early. -/
theorem exists_not_delayKept (config : OfpSwitchConfig) (hst : st ≠ .waiting)
    (hdelay : 0 < fs.delay)
    (hstart : start.IsWallClock) (hcarry : 1000000 < start.tv_usec + fs.delay % 1000 * 1000) :
    ∃ history s', Run ProgramStep ⟨config, switchChangeStatus start fs st⟩ history s' ∧
      ¬ DelayKept start fs.delay history := by
  let now : Timeval := ⟨(deadline start fs.delay).tv_sec + 1, 0⟩
  let env : WriteEnv := ⟨.error, now, fun _ => 0⟩
  let waiting := switchChangeStatus start fs st
  have hwaits : WaitsFor start fs.delay st waiting := by
    unfold waiting
    rw [switchChangeStatus_of_pos start hdelay]
    exact ⟨rfl, rfl, rfl⟩
  have hstep := programStep_write env config waiting
  refine ⟨_, _, .single hstep, ?_⟩
  intro hkept
  have hgt : timercmpGt now (deadline start fs.delay) = true := by
    rw [timercmpGt_iff]
    exact .inl (lt_add_one _)
  have hleft := (hwaits.write hst hstep).mpr hgt
  have hnow : now.IsWallClock := ⟨le_rfl, by norm_num [now]⟩
  have hearly : now.usecs < start.usecs + 1000 * fs.delay := by
    have hsum := usecs_deadline start fs.delay
    have hmod : fs.delay.tmod 1000 = fs.delay % 1000 := Int.tmod_eq_emod_of_nonneg hdelay.le
    unfold Timeval.usecs deadline at hsum
    unfold Timeval.usecs now deadline
    dsimp only at hsum ⊢
    omega
  have hlater : start.usecs ≤ now.usecs := by
    have hdiv : 0 ≤ fs.delay.tdiv 1000 := Int.tdiv_nonneg hdelay.le (by decide)
    have hlt := hstart.usec_lt
    unfold Timeval.usecs now deadline
    dsimp only
    omega
  have hlater_ms : start.ms ≤ now.ms := by
    have hle := (add_ms_le_iff start now 0).mpr (by omega)
    rwa [Int.cast_zero, add_zero] at hle
  have hle := (hkept [] _ [] rfl (fun _ hr => absurd hr List.not_mem_nil) env rfl hnow
    hlater_ms).1 hleft
  exact absurd ((add_ms_le_iff start now fs.delay).mp hle) (by omega)

/-- A delay that begins at `start` is kept, in whatever run follows, exactly if adding it carries
nothing from the µs to the s. -/
theorem delay_kept_iff (config : OfpSwitchConfig) (fs : Fakeswitch) (start : Timeval)
    (st : HandshakeStatus) (hst : st ≠ .waiting) (hdelay : 0 < fs.delay)
    (hstart : start.IsWallClock) :
    (∀ history s', Run ProgramStep ⟨config, switchChangeStatus start fs st⟩ history s' →
        DelayKept start fs.delay history) ↔
      start.tv_usec + fs.delay % 1000 * 1000 ≤ 1000000 := by
  constructor
  · intro hkept
    by_contra hcarry
    obtain ⟨history, s', hrun, hnot⟩ :=
      exists_not_delayKept config hst hdelay hstart (Int.not_le.mp hcarry)
    exact hnot (hkept history s' hrun)
  · intro hcarry history s' hrun before t after heq hon env hevent hnow _
    have hwaits : WaitsFor start fs.delay st (switchChangeStatus start fs st) := by
      rw [switchChangeStatus_of_pos start hdelay]
      exact ⟨rfl, rfl, rfl⟩
    obtain ⟨hpre, hstep⟩ := hwaits.run hst hrun heq hon
    rw [hevent] at hstep
    rw [hpre.write hst hstep, add_ms_le_iff, add_ms_lt_iff]
    exact ⟨le_of_timercmpGt hnow hdelay hcarry, timercmpGt_of_lt hnow hstart hdelay⟩

end Kept

/-- A switch with a delay of so many ms. -/
def delayedSwitch (delay : ℤ) : Fakeswitch := { malloced false with delay := delay }

theorem delay_kept_iff_fromFullSecond :
    (∀ history s', Run ProgramStep
        ⟨switch_config, switchChangeStatus ⟨7, 0⟩ (delayedSwitch 500) .sendPortDesc⟩ history s' →
      DelayKept ⟨7, 0⟩ 500 history) ↔ (0 : ℤ) + 500 % 1000 * 1000 ≤ 1000000 :=
  delay_kept_iff switch_config (delayedSwitch 500) ⟨7, 0⟩ .sendPortDesc (by decide) (by decide)
    ⟨by decide, by decide⟩

/-- At the end of a second, half a second is over after 1 µs. -/
theorem not_delayKept_endOfSecond :
    ¬ ∀ history s', Run ProgramStep
        ⟨switch_config, switchChangeStatus ⟨7, 999999⟩ (delayedSwitch 500) .sendPortDesc⟩
        history s' → DelayKept ⟨7, 999999⟩ 500 history := by
  intro hkept
  have hst : HandshakeStatus.sendPortDesc ≠ .waiting := by decide
  have hdelay : 0 < (delayedSwitch 500).delay := by decide
  have hstart : Timeval.IsWallClock ⟨7, 999999⟩ := ⟨by decide, by decide⟩
  obtain ⟨history, s', hrun, hnot⟩ :=
    exists_not_delayKept switch_config hst hdelay hstart (by decide)
  exact hnot (hkept history s' hrun)

/-! ## How often the switch waits -/

/-- The step puts the switch into WAITING. -/
def EntersWaiting (t : SwitchTransition) : Prop :=
  t.pre.fs.switchStatus ≠ .waiting ∧ t.post.fs.switchStatus = .waiting

instance : DecidablePred EntersWaiting := fun _ => inferInstanceAs (Decidable (_ ∧ _))

/-- How often the switch is put into WAITING. -/
def waits (history : List SwitchTransition) : ℕ := history.countP (EntersWaiting ·)

theorem waits_append (history history' : List SwitchTransition) :
    waits (history ++ history') = waits history + waits history' :=
  List.countP_append

theorem waits_singleton (t : SwitchTransition) :
    waits [t] = if EntersWaiting t then 1 else 0 := by
  simp [waits, List.countP_singleton]

instance : DecidablePred HandlesFeatures
  | ⟨_, .message _ _ _ ofph _, _⟩ => inferInstanceAs (Decidable (IsFeaturesRequest ofph))
  | ⟨_, .receive _, _⟩ | ⟨_, .write _, _⟩ | ⟨_, .changeStatus _ _, _⟩
  | ⟨_, .changeStatusNow _, _⟩ | ⟨_, .getCount _, _⟩ | ⟨_, .configure _, _⟩ =>
    inferInstanceAs (Decidable False)

instance : DecidablePred HandlesPortDesc
  | ⟨_, .message _ _ _ ofph length, _⟩ =>
    inferInstanceAs (Decidable (IsPortDescRequest ofph length))
  | ⟨_, .receive _, _⟩ | ⟨_, .write _, _⟩ | ⟨_, .changeStatus _ _, _⟩
  | ⟨_, .changeStatusNow _, _⟩ | ⟨_, .getCount _, _⟩ | ⟨_, .configure _, _⟩ =>
    inferInstanceAs (Decidable False)

/-- One FEATURES_REQUEST and one request for the port description are handled. -/
structure HandlesOnce (history : List SwitchTransition) : Prop where
  features : history.countP (HandlesFeatures ·) = 1
  portDesc : history.countP (HandlesPortDesc ·) = 1

/-- The part of a run from the features reply to the first entry into READY_TO_SEND. -/
structure IsHandshake (history span : List SwitchTransition) : Prop where
  isInfix : span <:+: history
  starts : ∃ t rest, span = t :: rest ∧ HandlesFeatures t
  ends : ∃ rest t, span = rest ++ [t] ∧ t.post.fs.switchStatus = .readyToSend ∧
    ∀ r ∈ rest, r.post.fs.switchStatus ≠ .readyToSend

/-- How often a switch has waited when it gets to a stage. -/
def waitsUpTo (learnDstMac : Bool) : HandshakeStatus → ℕ
  | .start | .waiting => 0
  | .sendPortDesc => 1
  | .learnDstmac => 2
  | .readyToSend => if learnDstMac then 3 else 2

/-- A switch with a delay, between its features reply and READY_TO_SEND. -/
structure Delayed (learnDstMac : Bool) (fs : Fakeswitch) : Prop where
  delay_ne : fs.delay ≠ 0
  learnDstMac_eq : fs.learnDstMac = learnDstMac
  stage_mem : fs.stage = .sendPortDesc ∨ learnDstMac = true ∧ fs.stage = .learnDstmac ∨
    fs.stage = .readyToSend

section Delayed

variable {learnDstMac : Bool} {fs fs' : Fakeswitch}

theorem Delayed.of_sameStatus (h : Delayed learnDstMac fs) (hsame : SameStatus fs fs') :
    Delayed learnDstMac fs' where
  delay_ne := hsame.delay_eq ▸ h.delay_ne
  learnDstMac_eq := hsame.learnDstMac_eq.trans h.learnDstMac_eq
  stage_mem := hsame.stage_eq ▸ h.stage_mem

/-- A delayed change of the status puts the switch into WAITING. -/
theorem Delayed.changeStatus (h : Delayed learnDstMac fs) {st : HandshakeStatus} (now : Timeval)
    (hst : learnDstMac = true ∧ st = .learnDstmac ∨ st = .readyToSend) :
    Delayed learnDstMac (switchChangeStatus now fs st) ∧
      (switchChangeStatus now fs st).switchStatus = .waiting ∧
      (switchChangeStatus now fs st).stage = st := by
  have hne : st ≠ .waiting := by
    rcases hst with ⟨-, rfl⟩ | rfl <;> nofun
  have hstage := stage_switchChangeStatus now fs hne
  have heq : switchChangeStatus now fs st
      = { fs with switchStatus := .waiting, nextStatus := st,
                  delay_start := deadline now fs.delay } := by
    rw [switchChangeStatus, if_neg h.delay_ne]
    rfl
  rw [heq] at hstage ⊢
  exact ⟨⟨h.delay_ne, h.learnDstMac_eq, .inr (hstage ▸ hst)⟩, rfl, hstage⟩

/-- The end of the waiting: the switch comes to the stage it waited for. -/
theorem Delayed.changeStatusNow (h : Delayed learnDstMac fs) (hst : fs.switchStatus = .waiting) :
    Delayed learnDstMac (switchChangeStatusNow fs fs.nextStatus) ∧
      (switchChangeStatusNow fs fs.nextStatus).stage = fs.stage := by
  have hnext : fs.stage = fs.nextStatus := if_pos hst
  have hne : fs.nextStatus ≠ .waiting := by
    rcases hnext ▸ h.stage_mem with hmem | ⟨-, hmem⟩ | hmem <;> rw [hmem] <;> nofun
  have hstage := (stage_switchChangeStatusNow fs hne).trans hnext.symm
  refine ⟨⟨?_, ?_, hstage ▸ h.stage_mem⟩, hstage⟩
  · unfold switchChangeStatusNow
    split <;> exact h.delay_ne
  · unfold switchChangeStatusNow
    split <;> exact h.learnDstMac_eq

/-- Each time the switch is put into WAITING, it is for the next stage. -/
theorem Delayed.move (h : Delayed learnDstMac fs) (env : WriteEnv) :
    Delayed learnDstMac (fs.move (.write env)) ∧
      waitsUpTo learnDstMac (fs.move (.write env)).stage = waitsUpTo learnDstMac fs.stage
        + if fs.switchStatus ≠ .waiting ∧ (fs.move (.write env)).switchStatus = .waiting
          then 1 else 0 := by
  have hsame : Delayed learnDstMac fs ∧ waitsUpTo learnDstMac fs.stage
      = waitsUpTo learnDstMac fs.stage
        + if fs.switchStatus ≠ .waiting ∧ fs.switchStatus = .waiting then 1 else 0 :=
    ⟨h, by rw [if_neg fun hboth => hboth.1 hboth.2, Nat.add_zero]⟩
  unfold Fakeswitch.move
  cases hst : fs.switchStatus with
  | start => simpa [hst] using hsame
  | readyToSend => simpa [hst] using hsame
  | waiting =>
    dsimp only
    split
    case isTrue =>
      obtain ⟨hdelayed, hstage⟩ := h.changeStatusNow hst
      exact ⟨hdelayed, by simp [hstage]⟩
    case isFalse => simpa [hst] using hsame
  | learnDstmac =>
    have hnow : fs.stage = .learnDstmac := (stage_of_ne (by rw [hst]; nofun)).trans hst
    have hlearn : learnDstMac = true := by
      rcases h.stage_mem with hmem | ⟨hlearn, -⟩ | hmem
      · cases hnow.symm.trans hmem
      · exact hlearn
      · cases hnow.symm.trans hmem
    obtain ⟨hdelayed, hwaiting, hstage⟩ := h.changeStatus env.now (.inr rfl)
    refine ⟨hdelayed, ?_⟩
    dsimp only
    rw [hstage, hnow, hwaiting, if_pos ⟨nofun, rfl⟩, waitsUpTo, waitsUpTo, if_pos hlearn]
  | sendPortDesc =>
    have hnow : fs.stage = .sendPortDesc := (stage_of_ne (by rw [hst]; nofun)).trans hst
    dsimp only
    split
    case isTrue =>
      have hnext : learnDstMac = true ∧
            (if fs.learnDstMac then .learnDstmac else .readyToSend : HandshakeStatus)
                = .learnDstmac ∨
          (if fs.learnDstMac then .learnDstmac else .readyToSend : HandshakeStatus)
            = .readyToSend := by
        rw [h.learnDstMac_eq]
        cases learnDstMac <;> simp
      obtain ⟨hdelayed, hwaiting, hstage⟩ := h.changeStatus env.now hnext
      refine ⟨hdelayed, ?_⟩
      rw [hstage, hnow, hwaiting, h.learnDstMac_eq]
      cases learnDstMac <;> rfl
    case isFalse => simpa [hst] using hsame

/-- Between the features reply and READY_TO_SEND, the stage says how often the switch has
waited. -/
theorem Delayed.step {s s' : SwitchState} {e : SwitchEvent} (h : Delayed learnDstMac s.fs)
    (hstep : ProgramStep s e s') (hfeatures : ¬ HandlesFeatures ⟨s, e, s'⟩) :
    Delayed learnDstMac s'.fs ∧ waitsUpTo learnDstMac s'.fs.stage
      = waitsUpTo learnDstMac s.fs.stage + waits [⟨s, e, s'⟩] := by
  have hsame := sameStatus_step hstep
  have hmove : Delayed learnDstMac (s.fs.move e) ∧ waitsUpTo learnDstMac (s.fs.move e).stage
      = waitsUpTo learnDstMac s.fs.stage
        + if s.fs.switchStatus ≠ .waiting ∧ (s.fs.move e).switchStatus = .waiting
          then 1 else 0 := by
    have hstay : s.fs.move e = s.fs → Delayed learnDstMac (s.fs.move e) ∧
        waitsUpTo learnDstMac (s.fs.move e).stage = waitsUpTo learnDstMac s.fs.stage
          + if s.fs.switchStatus ≠ .waiting ∧ (s.fs.move e).switchStatus = .waiting
            then 1 else 0 := by
      intro heq
      rw [heq, if_neg fun hboth => hboth.1 hboth.2, Nat.add_zero]
      exact ⟨h, rfl⟩
    cases e with
    | write env => exact h.move env
    | message role now buf ofph length =>
      have hother : ¬ IsFeaturesRequest ofph := hfeatures
      exact hstay (if_neg hother)
    | receive | changeStatus | changeStatusNow | getCount | configure => exact hstay rfl
  have henters : EntersWaiting ⟨s, e, s'⟩ ↔
      s.fs.switchStatus ≠ .waiting ∧ (s.fs.move e).switchStatus = .waiting := by
    rw [EntersWaiting, hsame.switchStatus_eq]
  refine ⟨hmove.1.of_sameStatus hsame, ?_⟩
  rw [hsame.stage_eq, hmove.2, waits_singleton]
  exact congrArg _ (if_congr henters.symm rfl rfl)

theorem Delayed.run {s s' : SwitchState} {history : List SwitchTransition}
    (h : Delayed learnDstMac s.fs) (hrun : Run ProgramStep s history s')
    (hfeatures : ∀ t ∈ history, ¬ HandlesFeatures t) :
    waitsUpTo learnDstMac s'.fs.stage = waitsUpTo learnDstMac s.fs.stage + waits history := by
  induction hrun with
  | nil s => rfl
  | cons hfirst _ ih =>
    obtain ⟨hfirst', hrest⟩ := List.forall_mem_cons.mp hfeatures
    obtain ⟨hnext, heq⟩ := h.step hfirst hfirst'
    rw [ih hnext hrest, heq, Nat.add_assoc, ← waits_append]
    rfl

end Delayed

section Handshake

variable {s s' : SwitchState} {history span : List SwitchTransition}

/-- Before the FEATURES_REQUEST, the status stays as it is. -/
theorem sameStatus_run_start (hstart : s.fs.switchStatus = .start)
    (hrun : Run ProgramStep s history s') (hfeatures : ∀ t ∈ history, ¬ HandlesFeatures t) :
    SameStatus s.fs s'.fs := by
  induction hrun with
  | nil s => exact .refl s.fs
  | @cons s s₁ s' e history hfirst _ ih =>
    obtain ⟨hother, hrest⟩ := List.forall_mem_cons.mp hfeatures
    have hsame := sameStatus_step hfirst
    have hstay : s.fs.move e = s.fs := by
      cases e with
      | message role now buf ofph length => exact if_neg hother
      | write env => rw [Fakeswitch.move, hstart]
      | receive | changeStatus | changeStatusNow | getCount | configure => rfl
    rw [hstay] at hsame
    exact hsame.trans (ih (hsame.switchStatus_eq.trans hstart) hrest)

/-- The FEATURES_REQUEST makes the switch wait for the first time. -/
theorem delayed_of_features {t : SwitchTransition} (hstart : t.pre.fs.switchStatus = .start)
    (hdelay : t.pre.fs.delay ≠ 0) (hstep : ProgramStep t.pre t.event t.post)
    (hfeatures : HandlesFeatures t) :
    Delayed t.pre.fs.learnDstMac t.post.fs ∧ t.post.fs.stage = .sendPortDesc ∧ waits [t] = 1 := by
  obtain ⟨s, e, s'⟩ := t
  have hsame := sameStatus_step hstep
  cases e with
  | message role now buf ofph length =>
    have hask : IsFeaturesRequest ofph := hfeatures
    have hmove : s.fs.move (.message role now buf ofph length)
        = { s.fs with switchStatus := .waiting, nextStatus := .sendPortDesc,
                      delay_start := deadline now s.fs.delay } := by
      rw [Fakeswitch.move, if_pos hask, switchChangeStatus, if_neg hdelay]
      rfl
    rw [hmove] at hsame
    have hstage : s'.fs.stage = .sendPortDesc := hsame.stage_eq
    have henters : EntersWaiting ⟨s, .message role now buf ofph length, s'⟩ := by
      refine ⟨?_, hsame.switchStatus_eq⟩
      rw [hstart]
      nofun
    refine ⟨⟨?_, hsame.learnDstMac_eq, .inl hstage⟩, hstage, ?_⟩
    · rw [show s'.fs.delay = s.fs.delay from hsame.delay_eq]
      exact hdelay
    · rw [waits_singleton, if_pos henters]
  | receive | write | changeStatus | changeStatusNow | getCount | configure => cases hfeatures

theorem post_of_run_concat {t : SwitchTransition}
    (hrun : Run ProgramStep s (history ++ [t]) s') : t.post = s' := by
  obtain ⟨s₁, -, hlast⟩ := hrun.of_append
  cases hlast with
  | cons hstep hnil =>
    cases hnil
    rfl

/-- What happens once happens neither before nor after that. -/
theorem not_of_countP_eq_one {P : SwitchTransition → Prop} [DecidablePred P] {t : SwitchTransition}
    {before after : List SwitchTransition} (ht : P t)
    (h : (before ++ t :: after).countP (P ·) = 1) :
    (∀ r ∈ before, ¬ P r) ∧ ∀ r ∈ after, ¬ P r := by
  have hcons : (t :: after).countP (P ·) = after.countP (P ·) + 1 :=
    List.countP_cons_of_pos (decide_eq_true ht)
  rw [List.countP_append, hcons] at h
  have hbefore : before.countP (P ·) = 0 := by omega
  have hafter : after.countP (P ·) = 0 := by omega
  constructor
  · intro r hr
    simpa using List.countP_eq_zero.mp hbefore r hr
  · intro r hr
    simpa using List.countP_eq_zero.mp hafter r hr

/-- A switch with a delay waits for every stage: for SEND_PORT_DESC, for LEARN_DSTMAC if it is to
learn, and for READY_TO_SEND. -/
theorem waits_handshake (hstart : s.fs.switchStatus = .start) (hdelay : s.fs.delay ≠ 0)
    (hrun : Run ProgramStep s history s') (honce : history.countP (HandlesFeatures ·) = 1)
    (hspan : IsHandshake history span) : waits span = if s.fs.learnDstMac then 3 else 2 := by
  obtain ⟨before, after, heq⟩ := hspan.isInfix
  obtain ⟨t, rest, rfl, hfeatures⟩ := hspan.starts
  obtain ⟨most, last, hconcat, hready, -⟩ := hspan.ends
  rw [← heq, List.append_assoc, List.cons_append] at honce
  obtain ⟨hbefore, hafter⟩ := not_of_countP_eq_one hfeatures honce
  have hrest : ∀ r ∈ rest, ¬ HandlesFeatures r :=
    fun r hr => hafter r (List.mem_append_left _ hr)
  rw [← heq] at hrun
  obtain ⟨s₂, hrun₂, -⟩ := hrun.of_append
  obtain ⟨s₁, hrun₁, hspan₂⟩ := hrun₂.of_append
  have hsame := sameStatus_run_start hstart hrun₁ hbefore
  have hlast : last.post = s₂ := by
    rw [hconcat] at hspan₂
    exact post_of_run_concat hspan₂
  cases hspan₂ with
  | cons hstep hrun₃ =>
    have hdelay₁ : s₁.fs.delay ≠ 0 := hsame.delay_eq ▸ hdelay
    obtain ⟨hdelayed, hstage, hone⟩ := delayed_of_features
      (hsame.switchStatus_eq.trans hstart) hdelay₁ hstep hfeatures
    have hwaits := hdelayed.run hrun₃ hrest
    have hend : s₂.fs.stage = .readyToSend := by
      rw [← hlast]
      exact (stage_of_ne (by rw [hready]; nofun)).trans hready
    rw [hend, hstage, hsame.learnDstMac_eq] at hwaits
    rw [← List.singleton_append, waits_append, hone]
    exact hwaits.symm

/-- A run that ends in READY_TO_SEND got there for the first time somewhere. -/
theorem exists_isHandshake {before : List SwitchTransition} {t : SwitchTransition}
    {rest : List SwitchTransition} (hfeatures : HandlesFeatures t)
    (hrun : Run ProgramStep s (before ++ t :: rest) s')
    (hready : s'.fs.switchStatus = .readyToSend) :
    ∃ span, IsHandshake (before ++ t :: rest) span := by
  let ready := fun r : SwitchTransition => decide (r.post.fs.switchStatus = .readyToSend)
  obtain ⟨most, last, hconcat⟩ : ∃ most last, t :: rest = most ++ [last] :=
    ⟨_, _, (List.dropLast_append_getLast (List.cons_ne_nil t rest)).symm⟩
  have hlast : ready last = true := by
    rw [hconcat, ← List.append_assoc] at hrun
    exact decide_eq_true (post_of_run_concat hrun ▸ hready)
  have hfind : ((t :: rest).find? ready).isSome := by
    rw [List.find?_isSome, hconcat]
    exact ⟨last, List.mem_append_right _ (List.mem_singleton_self _), hlast⟩
  obtain ⟨r, hr⟩ := Option.isSome_iff_exists.mp hfind
  obtain ⟨hrready, early, late, heq, hearly⟩ := List.find?_eq_some_iff_append.mp hr
  refine ⟨early ++ [r], ⟨before, late, ?_⟩, ?_, early, r, rfl, of_decide_eq_true hrready, ?_⟩
  · rw [heq]
    simp
  · cases early with
    | nil =>
      obtain ⟨rfl, -⟩ := List.cons.inj heq
      exact ⟨t, [], rfl, hfeatures⟩
    | cons first early =>
      obtain ⟨rfl, -⟩ := List.cons.inj heq
      exact ⟨t, early ++ [r], rfl, hfeatures⟩
  · intro q hq
    simpa [ready] using hearly q hq

end Handshake

/-! ## Every handshake -/

section Every

variable (config : OfpSwitchConfig) (fs : Fakeswitch) (dpid : ℤ) (bufsize : ℕ)
  (h : 0 < bufsize) (delay : ℤ) (mode : TestMode) (nMacAddresses : ℤ) (learnDstMac : Bool)
  (version : UInt8) (inMem outMem stack : Mem)

/-- From the features reply to READY_TO_SEND, the switch is put into WAITING once. -/
def DelaysOnce (history : List SwitchTransition) : Prop :=
  ∀ span, IsHandshake history span → waits span = 1

/-- There is a run with a whole handshake in it. -/
theorem exists_handshake :
    ∃ history span s', Run ProgramStep
        ⟨config, switchInit fs dpid ⟨handshakeRequests, []⟩ bufsize h delay mode nMacAddresses
          learnDstMac version inMem outMem stack⟩ history s' ∧
      HandlesOnce history ∧ IsHandshake history span := by
  obtain ⟨received, features, portDesc, writes, s', hrun, hreads, hfeatures, hportDesc, hwrites,
    hready, -, -⟩ := exists_ready config fs dpid bufsize h delay mode nMacAddresses learnDstMac
      version inMem outMem stack
  obtain ⟨span, hspan⟩ := exists_isHandshake hfeatures hrun hready
  refine ⟨_, span, s', hrun, ?_, hspan⟩
  have hnone : ∀ t ∈ received ++ writes, ¬ HandlesFeatures t ∧ ¬ HandlesPortDesc t := by
    intro t ht
    rw [HandlesFeatures, HandlesPortDesc]
    rcases List.mem_append.mp ht with ht | ht
    · obtain ⟨env, hevent⟩ := hreads t ht
      rw [hevent]
      exact ⟨id, id⟩
    · obtain ⟨env, hevent⟩ := hwrites t ht
      rw [hevent]
      exact ⟨id, id⟩
  have hcount {P : SwitchTransition → Prop} [DecidablePred P]
      (hP : ∀ t ∈ received ++ writes, ¬ P t) :
      (received ++ features :: portDesc :: writes).countP (P ·)
        = [features, portDesc].countP (P ·) := by
    have hreceived : received.countP (P ·) = 0 :=
      List.countP_eq_zero.mpr fun t ht => by simpa using hP t (List.mem_append_left _ ht)
    have hwrites : writes.countP (P ·) = 0 :=
      List.countP_eq_zero.mpr fun t ht => by simpa using hP t (List.mem_append_right _ ht)
    rw [List.countP_append, hreceived, Nat.zero_add]
    show ([features, portDesc] ++ writes).countP (P ·) = _
    rw [List.countP_append, hwrites, Nat.add_zero]
  constructor
  · have hother : ¬ HandlesFeatures portDesc := fun h => not_handlesPortDesc h hportDesc
    rw [hcount fun t ht => (hnone t ht).1]
    simp [hfeatures, hother]
  · have hother : ¬ HandlesPortDesc features := not_handlesPortDesc hfeatures
    rw [hcount fun t ht => (hnone t ht).2]
    simp [hportDesc, hother]

/-- With a delay, every switch that gets to READY_TO_SEND has waited twice on the way, or three
times if it is to learn, and never just once. -/
theorem handshake_waits (hdelay : 0 < delay) :
    (∀ sock history s', Run ProgramStep
        ⟨config, switchInit fs dpid sock bufsize h delay mode nMacAddresses learnDstMac version
          inMem outMem stack⟩ history s' → HandlesOnce history →
      ∀ span, IsHandshake history span → waits span = if learnDstMac then 3 else 2) ∧
    ¬ ∀ sock history s', Run ProgramStep
        ⟨config, switchInit fs dpid sock bufsize h delay mode nMacAddresses learnDstMac version
          inMem outMem stack⟩ history s' → HandlesOnce history → DelaysOnce history := by
  have hwaits : ∀ sock history s', Run ProgramStep
      ⟨config, switchInit fs dpid sock bufsize h delay mode nMacAddresses learnDstMac version
        inMem outMem stack⟩ history s' → HandlesOnce history →
      ∀ span, IsHandshake history span → waits span = if learnDstMac then 3 else 2 := by
    intro sock history s' hrun honce span hspan
    exact waits_handshake rfl hdelay.ne' hrun honce.features hspan
  refine ⟨hwaits, ?_⟩
  intro hall
  obtain ⟨history, span, s', hrun, honce, hspan⟩ := exists_handshake config fs dpid bufsize h delay
    mode nMacAddresses learnDstMac version inMem outMem stack
  have hone := hall _ history s' hrun honce span hspan
  rw [hwaits _ history s' hrun honce span hspan] at hone
  split at hone <;> omega

end Every

theorem handshake_waits_halfSecond :
    (∀ sock history s', Run ProgramStep
        ⟨switch_config, switchInit (malloced false) 1 sock BUFLEN BUFLEN_pos 500 .latency 100000
          true OFP131_VERSION (fun _ => 0) (fun _ => 0) (fun _ => 0)⟩ history s' →
        HandlesOnce history →
      ∀ span, IsHandshake history span → waits span = if true then 3 else 2) ∧
    ¬ ∀ sock history s', Run ProgramStep
        ⟨switch_config, switchInit (malloced false) 1 sock BUFLEN BUFLEN_pos 500 .latency 100000
          true OFP131_VERSION (fun _ => 0) (fun _ => 0) (fun _ => 0)⟩ history s' →
        HandlesOnce history →
      DelaysOnce history :=
  handshake_waits switch_config (malloced false) 1 BUFLEN BUFLEN_pos 500 .latency 100000 true
    OFP131_VERSION (fun _ => 0) (fun _ => 0) (fun _ => 0) (by decide)

/-- A switch that is not to learn waits twice. -/
theorem not_delaysOnce_halfSecond :
    ¬ ∀ sock history s', Run ProgramStep
        ⟨switch_config, switchInit (malloced false) 1 sock BUFLEN BUFLEN_pos 500 .latency 100000
          false OFP131_VERSION (fun _ => 0) (fun _ => 0) (fun _ => 0)⟩ history s' →
        HandlesOnce history →
      DelaysOnce history := by
  intro hall
  obtain ⟨history, span, s', hrun, honce, hspan⟩ := exists_handshake switch_config (malloced false)
    1 BUFLEN BUFLEN_pos 500 .latency 100000 false OFP131_VERSION (fun _ => 0) (fun _ => 0)
    (fun _ => 0)
  have htwice : waits span = 2 := waits_handshake rfl (by decide) hrun honce.features hspan
  have hone : waits span = 1 := hall _ history s' hrun honce span hspan
  omega

end OfcBenchmark
