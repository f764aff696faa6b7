import OfcBenchmark.Lib.Runs
import OfcBenchmark.RequestTheorems

/-!
# The events of a fake switch

A fake switch as a transition system: it receives bytes, handles a message, runs a write
step, changes its status or hands its count over, and the configuration it shares with the
other switches may change under it (`SwitchStep`). The events come in any order and the
messages are arbitrary memory, so the system has more runs than the program. What the
program does with a switch is a run of the system (`RunsTo`).

What a run is measured by is defined on its transitions: the probes it queues, the
responses it credits, the resets of `probeState` and the counts it reports.
-/

namespace OfcBenchmark
open ByteMemory Runs

/-! ## Events -/

/-- A fake switch and the static `switch_config` it shares. -/
structure SwitchState where
  config : OfpSwitchConfig
  fs : Fakeswitch

/-- The part of a `ReadState` that outlives `ofp13SwitchHandleRead`. -/
def ReadState.state (s : ReadState) : SwitchState where
  config := s.config
  fs := s.fs

/-- What can happen to a fake switch: `ofp13SwitchHandleRead` reads or handles the message
`ofph` points to, `ofp13SwitchHandleWrite` runs, the status changes, `switchGetCount`
collects the count, or another switch stores a configuration. -/
inductive SwitchEvent
  | receive (env : ReadEnv)
  | message (role : Mem) (now : Timeval) (buf ofph : Mem) (length : ℕ)
  | write (env : WriteEnv)
  | changeStatus (now : Timeval) (new_status : HandshakeStatus)
  | changeStatusNow (new_status : HandshakeStatus)
  | getCount (ts : List Transfer)
  | configure (config : OfpSwitchConfig)

/-- The state after a message is handled, with `buf` as the local of that name. -/
def SwitchState.next (role : Mem) (now : Timeval) (buf ofph : Mem) (length : ℕ)
    (s : SwitchState) : SwitchState :=
  (ReadState.next role now ofph length ⟨s.config, s.fs, buf⟩).state

/-- What an event does. -/
def runEvent (e : SwitchEvent) (s : SwitchState) : Except Halt SwitchState :=
  match e with
  | .receive env => .ok (readState env s.config s.fs).state
  | .message role now buf ofph length => .ok (s.next role now buf ofph length)
  | .write env => .ok { s with fs := ofp13SwitchHandleWrite env s.fs }
  | .changeStatus now new_status => .ok { s with fs := switchChangeStatus now s.fs new_status }
  | .changeStatusNow new_status => .ok { s with fs := switchChangeStatusNow s.fs new_status }
  | .getCount ts => (switchGetCount ts s.fs).map fun r => { s with fs := r.2.1 }
  | .configure config => .ok { s with config := config }

/-- One step of the system. -/
def SwitchStep (s : SwitchState) (e : SwitchEvent) (s' : SwitchState) : Prop :=
  runEvent e s = .ok s'

/-- Whether the program does this to a switch. A message it handles is the one at the front
of `inbuf`. Its handlers change the status themselves, so it has no status change of its
own. -/
def SwitchState.Allows (s : SwitchState) : SwitchEvent → Prop
  | .message _ _ _ ofph length => NextMessage s.fs.inbuf ofph length
  | .changeStatus _ _ | .changeStatusNow _ => False
  | _ => True

/-- One step of the program. -/
def ProgramStep (s : SwitchState) (e : SwitchEvent) (s' : SwitchState) : Prop :=
  s.Allows e ∧ SwitchStep s e s'

/-- What the program does to a switch: it reads, it handles the message at the front, it writes, it
takes the count, or another switch is configured. -/
inductive ProgramMove (s : SwitchState) : SwitchEvent → SwitchState → Prop
  | receive (env : ReadEnv) : ProgramMove s (.receive env) (readState env s.config s.fs).state
  | message (role : Mem) (now : Timeval) (buf ofph : Mem) (length : ℕ)
    (hnext : NextMessage s.fs.inbuf ofph length) :
    ProgramMove s (.message role now buf ofph length) (s.next role now buf ofph length)
  | write (env : WriteEnv) :
    ProgramMove s (.write env) { s with fs := ofp13SwitchHandleWrite env s.fs }
  | getCount (ts : List Transfer) (inbuf : Msgbuf) (sock : Socket) (pulled : List (List UInt8))
    (hcount : switchGetCount ts s.fs = .ok (s.fs.count,
      { s.fs with count := 0, probeState := 0, inbuf := inbuf, sock := sock }, pulled)) :
    ProgramMove s (.getCount ts)
      { s with fs := { s.fs with count := 0, probeState := 0, inbuf := inbuf, sock := sock } }
  | configure (config : OfpSwitchConfig) :
    ProgramMove s (.configure config) { s with config := config }

theorem programMove_of_step {s s' : SwitchState} {e : SwitchEvent} (h : ProgramStep s e s') :
    ProgramMove s e s' := by
  obtain ⟨hallows, hstep⟩ := h
  cases e with
  | receive env =>
    cases hstep
    exact .receive env
  | message role now buf ofph length =>
    cases hstep
    exact .message role now buf ofph length hallows
  | write env =>
    cases hstep
    exact .write env
  | changeStatus now new_status => cases hallows
  | changeStatusNow new_status => cases hallows
  | getCount ts =>
    obtain ⟨⟨count, fs', pulled⟩, hcount, rfl⟩ := map_eq_ok_iff.mp hstep
    obtain ⟨⟨inbuf, sock, blocks⟩, -, heq⟩ := map_eq_ok_iff.mp hcount
    cases heq
    exact .getCount ts inbuf sock _ hcount
  | configure config =>
    cases hstep
    exact .configure config

/-- A step of a fake switch. -/
abbrev SwitchTransition := Transition SwitchState SwitchEvent

/-- The message an event handles, if it is one that does. -/
def SwitchEvent.message? : SwitchEvent → Option (List UInt8)
  | .message _ _ _ ofph length => some (ofph.read 0 length)
  | _ => none

/-- The messages handled in a run. -/
def messagesOf (history : List SwitchTransition) : List (List UInt8) :=
  history.filterMap fun t => t.event.message?

theorem messagesOf_append (history history' : List SwitchTransition) :
    messagesOf (history ++ history') = messagesOf history ++ messagesOf history' :=
  List.filterMap_append

/-- The count a step reports. -/
def countReported (t : SwitchTransition) : ℤ :=
  match t.event with
  | .getCount _ => t.pre.fs.count
  | _ => 0

/-! ## The program's runs -/

/-- A run of the program leads from one state to the other, handles the messages `ms` and
reports counts that add up to `n`. -/
def RunsTo (s s' : SwitchState) (ms : List (List UInt8)) (n : ℤ) : Prop :=
  ∃ history, Run ProgramStep s history s' ∧ messagesOf history = ms ∧
    total countReported history = n

namespace RunsTo

variable {s s₁ s' : SwitchState} {ms ms' : List (List UInt8)} {n n' : ℤ}

theorem refl (s : SwitchState) : RunsTo s s [] 0 := ⟨[], .nil s, rfl, rfl⟩

theorem trans (h : RunsTo s s₁ ms n) (h' : RunsTo s₁ s' ms' n') :
    RunsTo s s' (ms ++ ms') (n + n') := by
  obtain ⟨history, hrun, hms, hn⟩ := h
  obtain ⟨history', hrun', hms', hn'⟩ := h'
  refine ⟨history ++ history', hrun.append hrun', ?_, ?_⟩
  · rw [messagesOf_append, hms, hms']
  · rw [total_append, hn, hn']

/-- One step. -/
theorem single {e : SwitchEvent} (h : ProgramStep s e s') :
    RunsTo s s' (messagesOf [⟨s, e, s'⟩]) (countReported ⟨s, e, s'⟩) :=
  ⟨_, .single h, rfl, add_zero _⟩

end RunsTo

section Program

variable {config config' : OfpSwitchConfig} {fs fs' : Fakeswitch}

/-- Another switch may have stored a configuration in between. -/
theorem runsTo_configure (config config' : OfpSwitchConfig) (fs : Fakeswitch) :
    RunsTo ⟨config, fs⟩ ⟨config', fs⟩ [] 0 :=
  .single (e := .configure config') ⟨trivial, rfl⟩

/-- The message loop is a run that handles its messages. -/
theorem messageLoop_runsTo {role : Mem} {fuel : ℕ} {now : ℕ → Timeval} {s s' : ReadState}
    {handled : List Handled} (h : messageLoop role fuel now s = some (s', handled)) :
    RunsTo s.state s'.state (handled.map Handled.message) 0 := by
  refine messageLoop_rec
    (P := fun s s' handled => RunsTo s.state s'.state (handled.map Handled.message) 0)
    (fun s => .refl s.state) ?_ h
  intro s now ofph length s' handled hnext ih
  have hstep : ProgramStep s.state (.message role now s.buf ofph length)
      (s.next role now ofph length).state := ⟨hnext, rfl⟩
  exact (RunsTo.single hstep).trans ih

theorem ofp13SwitchHandleRead_runsTo {env : ReadEnv} {handled : List Handled}
    (h : ofp13SwitchHandleRead env config fs = .ok (config', fs', handled)) :
    RunsTo ⟨config, fs⟩ ⟨config', fs'⟩ (handled.map Handled.message) 0 := by
  obtain ⟨-, s, hloop, rfl, rfl⟩ := (ofp13SwitchHandleRead_eq_ok_iff env).mp h
  have hread : ProgramStep ⟨config, fs⟩ (.receive env) (readState env config fs).state :=
    ⟨trivial, rfl⟩
  exact (RunsTo.single hread).trans (messageLoop_runsTo hloop)

theorem ofp13SwitchHandleIo_runsTo {env : IoEnv} {handled : List Handled}
    (h : ofp13SwitchHandleIo env config fs = .ok (config', fs', handled)) :
    RunsTo ⟨config, fs⟩ ⟨config', fs'⟩ (handled.map Handled.message) 0 := by
  obtain ⟨⟨config₁, fs₁, handled₁⟩, hread, heq⟩ := map_eq_ok_iff.mp h
  have hfirst : RunsTo ⟨config, fs⟩ ⟨config₁, fs₁⟩ (handled₁.map Handled.message) 0 := by
    split at hread
    · exact ofp13SwitchHandleRead_runsTo hread
    · cases hread
      exact .refl _
  -- with `POLLOUT` a write step follows
  split at heq
  · cases heq
    have hwrite : ProgramStep ⟨config₁, fs₁⟩ (.write env.write)
        ⟨config₁, ofp13SwitchHandleWrite env.write fs₁⟩ := ⟨trivial, rfl⟩
    have hboth := hfirst.trans (.single hwrite)
    rwa [show messagesOf [_] = [] from rfl, List.append_nil] at hboth
  · cases heq
    exact hfirst

theorem switchGetCount_runsTo {ts : List Transfer} {count : ℤ} {pulled : List (List UInt8)}
    (h : switchGetCount ts fs = .ok (count, fs', pulled)) (config : OfpSwitchConfig) :
    RunsTo ⟨config, fs⟩ ⟨config, fs'⟩ [] fs.count := by
  have hstep : SwitchStep ⟨config, fs⟩ (.getCount ts) ⟨config, fs'⟩ := by
    rw [SwitchStep, runEvent, h]
    rfl
  exact .single (e := .getCount ts) ⟨trivial, hstep⟩

end Program

/-! ## What is counted -/

/-- The probe PACKET_INs a step queues. -/
def probesQueued (t : SwitchTransition) : ℕ :=
  match t.event with
  | .write _ => if t.pre.fs.switchStatus = .readyToSend then sendCount t.pre.fs else 0
  | _ => 0

/-- The responses a step credits: by how much handling a message raises `count`. -/
def responsesCredited (t : SwitchTransition) : ℕ :=
  match t.event with
  | .message .. => (t.post.fs.count - t.pre.fs.count).toNat
  | _ => 0

/-- A reset of `probeState`: a GET_CONFIG_REQUEST handled with a probe outstanding, a call
of `switchGetCount`, or an entry into READY_TO_SEND. -/
def IsReset (t : SwitchTransition) : Prop :=
  match t.event with
  | .receive _ | .configure _ => False
  | .message _ _ _ ofph _ => restartsProbe t.pre.fs ofph
  | .write _ => t.pre.fs.switchStatus ≠ .readyToSend ∧ t.post.fs.switchStatus = .readyToSend
  | .changeStatus _ _ | .changeStatusNow _ => t.post.fs.switchStatus = .readyToSend
  | .getCount _ => True

instance : DecidablePred IsReset
  | ⟨_, .receive _, _⟩ | ⟨_, .configure _, _⟩ => inferInstanceAs (Decidable False)
  | ⟨s, .message _ _ _ ofph _, _⟩ => inferInstanceAs (Decidable (restartsProbe s.fs ofph))
  | ⟨_, .write _, _⟩ => inferInstanceAs (Decidable (_ ∧ _))
  | ⟨_, .changeStatus _ _, s'⟩ | ⟨_, .changeStatusNow _, s'⟩ =>
    inferInstanceAs (Decidable (s'.fs.switchStatus = .readyToSend))
  | ⟨_, .getCount _, _⟩ => inferInstanceAs (Decidable True)

/-- The resets a step makes: one or none. -/
def resets (t : SwitchTransition) : ℕ := if IsReset t then 1 else 0

/-- The responses a step credits although no probe is outstanding. They are what the
handler calls more responses than probes, and corrects in `probeState` alone. -/
def surplusResponses (t : SwitchTransition) : ℕ :=
  if t.pre.fs.probeState = 0 then responsesCredited t else 0

end OfcBenchmark
