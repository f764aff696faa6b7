import OfcBenchmark.GetCountTheorems
import OfcBenchmark.ReplyTheorems

/-!
# What becomes of a request

Two functions take bytes out of `inbuf`. `ofp13SwitchHandleRead` answers every request it
takes out; `switchGetCount` clears the queue and answers none. Over a run of both
(`runCalls_requests`), every byte received is in a message that was handled, in a block that
was discarded or still in `inbuf`.
-/

namespace OfcBenchmark
open ByteMemory Framing

/-- Handling the message pushed nothing if it asks for no reply, and else one reply: its
type, its size and its xid. -/
def AnsweredOnce (h : Handled) : Prop :=
  match replyType (Mem.ofList h.message) with
  | none => h.pushed = []
  | some t =>
    h.pushed.length = t.replySize ((Mem.ofList h.message).be16 8) ∧
      Mem.ofList h.pushed 1 = t.toByte ∧
      (Mem.ofList h.pushed).read 4 4 = (Mem.ofList h.message).read 4 4

/-- What calls do to the two byte streams of a switch. -/
structure StreamLaw (fs fs' : Fakeswitch) (log : List Removed) : Prop where
  answered : ∀ h ∈ handledOf log, FullSize h.message → AnsweredOnce h
  output : ∃ bs, fs'.sent = fs.sent ++ bs ∧
    ((handledOf log).map Handled.pushed).flatten.Sublist bs
  input : (log.map Removed.bytes).flatten ++ fs'.inbuf.contents ++ fs'.sock.rx
    = fs.inbuf.contents ++ fs.sock.rx

namespace StreamLaw

variable {fs fs₁ fs₂ : Fakeswitch} {log log' : List Removed}

/-- A step that takes nothing out of `inbuf`. -/
theorem of_nil (hout : ∃ bs, fs₁.sent = fs.sent ++ bs)
    (hin : fs₁.inbuf.contents ++ fs₁.sock.rx = fs.inbuf.contents ++ fs.sock.rx) :
    StreamLaw fs fs₁ [] := by
  obtain ⟨bs, hbs⟩ := hout
  exact ⟨fun _ h => absurd h List.not_mem_nil, ⟨bs, hbs, List.nil_sublist bs⟩, hin⟩

theorem refl (fs : Fakeswitch) : StreamLaw fs fs [] :=
  of_nil ⟨[], (List.append_nil _).symm⟩ rfl

theorem trans (h : StreamLaw fs fs₁ log) (h' : StreamLaw fs₁ fs₂ log') :
    StreamLaw fs fs₂ (log ++ log') := by
  obtain ⟨bs, hbs, hsub⟩ := h.output
  obtain ⟨bs', hbs', hsub'⟩ := h'.output
  refine ⟨?_, ⟨bs ++ bs', ?_, ?_⟩, ?_⟩
  · rw [handledOf_append, List.forall_mem_append]
    exact ⟨h.answered, h'.answered⟩
  · rw [hbs', hbs, List.append_assoc]
  · rw [handledOf_append, List.map_append, List.flatten_append]
    exact hsub.append hsub'
  · rw [List.map_append, List.flatten_append, ← h.input, List.append_assoc _ fs₁.inbuf.contents,
      ← h'.input]
    simp only [List.append_assoc]

end StreamLaw

/-! ## One message -/

/-- Every request is answered once. -/
theorem answeredOnce_replyBytes (role : Mem) {ofph : Mem} {length : ℕ} (s : ReadState)
    (h : FullSize (ofph.read 0 length)) :
    AnsweredOnce ⟨ofph.read 0 length, replyBytes role ofph s⟩ := by
  have hreply := replyBytes_eq role ofph s
  unfold AnsweredOnce
  rw [h.replyType_eq]
  rcases hr : replyType ofph with - | t
  · rw [hr] at hreply
    exact hreply
  rw [hr] at hreply
  obtain ⟨hsize, body, hbody⟩ := hreply
  have htype : (OfpHeader.ofReply s.config t (t.replySize (ofph.be16 8)) (ofph.load32 4)).type
      = t.toByte := by
    unfold OfpHeader.ofReply
    split <;> rfl
  have hxid : (OfpHeader.ofReply s.config t (t.replySize (ofph.be16 8)) (ofph.load32 4)).xid
      = ofph.load32 4 := by
    unfold OfpHeader.ofReply
    split <;> rfl
  refine ⟨?_, ?_, ?_⟩
  · rw [hsize, h.replySize_eq hr]
  · rw [← htype, hbody]
    rfl
  · rw [← h.xid_eq, ← hxid, hbody]
    rfl

/-- A turn of the message loop. -/
theorem streamLaw_next {role ofph : Mem} {length : ℕ} {s : ReadState} (now : Timeval)
    (h : NextMessage s.fs.inbuf ofph length) :
    StreamLaw s.fs (s.next role now ofph length).fs
      [.handled (s.handled role now ofph length)] := by
  have hpushed := handled_pushed role now ofph length s
  have hsock : (s.next role now ofph length).fs.sock = s.fs.sock :=
    ofp13HandleMessage_sock role now ofph (s.pull length)
  -- the one message is answered, its reply is what is pushed, its bytes are what is taken
  refine ⟨?_, ⟨replyBytes role ofph (s.pull length), ?_, ?_⟩, ?_⟩
  · intro h hh hfull
    obtain rfl := List.mem_singleton.mp hh
    have honce := answeredOnce_replyBytes role (s.pull length) hfull
    rwa [← hpushed] at honce
  · rw [Fakeswitch.sent, hsock, Fakeswitch.sent, List.append_assoc]
    exact congrArg _ (ofp13HandleMessage_outbuf role now ofph (s.pull length))
  · rw [← hpushed]
    show ((s.handled role now ofph length).pushed ++ []).Sublist _
    rw [List.append_nil]
  · rw [hsock, h.contents_next role now]
    show (ofph.read 0 length ++ []) ++ _ ++ _ = _
    rw [List.append_nil, h.read_eq, List.take_append_drop]

/-! ## The calls -/

theorem streamLaw_readState (env : ReadEnv) (config : OfpSwitchConfig) (fs : Fakeswitch) :
    StreamLaw fs (readState env config fs).fs [] :=
  .of_nil ⟨[], (List.append_nil _).symm⟩ (readState_stream env config fs)

theorem streamLaw_messageLoop {role : Mem} {fuel : ℕ} {now : ℕ → Timeval} {s s' : ReadState}
    {handled : List Handled} (h : messageLoop role fuel now s = some (s', handled)) :
    StreamLaw s.fs s'.fs (handled.map .handled) := by
  refine messageLoop_rec (P := fun s s' handled => StreamLaw s.fs s'.fs (handled.map .handled))
    (fun s => .refl s.fs) ?_ h
  intro s now ofph length s' handled hnext ih
  exact (streamLaw_next now hnext).trans ih

theorem streamLaw_ofp13SwitchHandleRead {env : ReadEnv} {config config' : OfpSwitchConfig}
    {fs fs' : Fakeswitch} {handled : List Handled}
    (h : ofp13SwitchHandleRead env config fs = .ok (config', fs', handled)) :
    StreamLaw fs fs' (handled.map .handled) := by
  obtain ⟨-, s, hloop, -, rfl⟩ := (ofp13SwitchHandleRead_eq_ok_iff env).mp h
  exact (streamLaw_readState env config fs).trans (streamLaw_messageLoop hloop)

theorem streamLaw_ofp13SwitchHandleWrite (env : WriteEnv) (fs : Fakeswitch) :
    StreamLaw fs (ofp13SwitchHandleWrite env fs) [] := by
  refine .of_nil (ofp13SwitchHandleWrite_sent env fs) ?_
  rw [ofp13SwitchHandleWrite_inbuf, ofp13SwitchHandleWrite_rx]

theorem streamLaw_ofp13SwitchHandleIo {env : IoEnv} {config config' : OfpSwitchConfig}
    {fs fs' : Fakeswitch} {handled : List Handled}
    (h : ofp13SwitchHandleIo env config fs = .ok (config', fs', handled)) :
    StreamLaw fs fs' (handled.map .handled) := by
  obtain ⟨⟨config₁, fs₁, handled₁⟩, hread, heq⟩ := map_eq_ok_iff.mp h
  have hfirst : StreamLaw fs fs₁ (handled₁.map .handled) := by
    split at hread
    · exact streamLaw_ofp13SwitchHandleRead hread
    · cases hread
      exact .refl fs
  split at heq
  · cases heq
    have hwrite := hfirst.trans (streamLaw_ofp13SwitchHandleWrite env.write fs₁)
    rwa [List.append_nil] at hwrite
  · cases heq
    exact hfirst

/-- `switchGetCount` pushes nothing. -/
theorem switchGetCount_sent {ts : List Transfer} {fs fs' : Fakeswitch} {count : ℤ}
    {pulled : List (List UInt8)} (h : switchGetCount ts fs = .ok (count, fs', pulled)) :
    fs'.sent = fs.sent := by
  obtain ⟨r, hreads, heq⟩ := map_eq_ok_iff.mp h
  cases heq
  show r.2.1.tx ++ fs.outbuf.contents = _
  rw [(drainReads_stream hreads).2]
  rfl

theorem streamLaw_switchGetCount {ts : List Transfer} {fs fs' : Fakeswitch} {count : ℤ}
    {pulled : List (List UInt8)} (h : switchGetCount ts fs = .ok (count, fs', pulled)) :
    StreamLaw fs fs' (pulled.map .discarded) := by
  have hsent := switchGetCount_sent h
  obtain ⟨r, hreads, heq⟩ := map_eq_ok_iff.mp h
  cases heq
  have hbytes : (r.2.2.map Removed.discarded).map Removed.bytes = r.2.2 := by
    rw [List.map_map]
    exact List.map_id _
  refine ⟨?_, ⟨[], ?_, ?_⟩, ?_⟩
  · rw [handledOf_map_discarded]
    exact fun _ h => absurd h List.not_mem_nil
  · rw [hsent, List.append_nil]
  · rw [handledOf_map_discarded]
    exact List.Sublist.refl _
  · rw [hbytes]
    exact (drainReads_stream hreads).1

theorem streamLaw_runCall {call : Call} {config config' : OfpSwitchConfig} {fs fs' : Fakeswitch}
    {log : List Removed} (h : runCall call config fs = .ok (config', fs', log)) :
    StreamLaw fs fs' log := by
  rcases call with env | ts
  · obtain ⟨r, hio, heq⟩ := map_eq_ok_iff.mp h
    cases heq
    exact streamLaw_ofp13SwitchHandleIo hio
  · obtain ⟨r, hcount, heq⟩ := map_eq_ok_iff.mp h
    cases heq
    exact streamLaw_switchGetCount hcount

theorem streamLaw_runCalls {calls : List Call} {config config' : OfpSwitchConfig}
    {fs fs' : Fakeswitch} {log : List Removed}
    (h : runCalls calls config fs = .ok (config', fs', log)) : StreamLaw fs fs' log := by
  induction calls generalizing config fs log with
  | nil =>
    cases h
    exact .refl fs'
  | cons call calls ih =>
    obtain ⟨⟨config₁, fs₁, log₁⟩, hcall, hrest⟩ := bind_eq_ok_iff.mp h
    obtain ⟨⟨config₂, fs₂, log₂⟩, hcalls, heq⟩ := bind_eq_ok_iff.mp hrest
    cases heq
    exact (streamLaw_runCall hcall).trans (ih hcalls)

/-- A call of `ofp13SwitchHandleIo` that reads leaves no complete message in `inbuf`. -/
theorem ofp13SwitchHandleIo_incomplete {env : IoEnv} {config config' : OfpSwitchConfig}
    {fs fs' : Fakeswitch} {handled : List Handled} (hin : env.pollin = true)
    (h : ofp13SwitchHandleIo env config fs = .ok (config', fs', handled)) :
    ∀ k, ofpSize fs'.inbuf.contents = some k → fs'.inbuf.contents.length < k := by
  obtain ⟨⟨config₁, fs₁, handled₁⟩, hread, heq⟩ := map_eq_ok_iff.mp h
  rw [if_pos hin] at hread
  obtain ⟨-, s, hloop, -, rfl⟩ := (ofp13SwitchHandleRead_eq_ok_iff env.read).mp hread
  have hdeframe := messageLoop_deframe env.read.role
    ((readState env.read config fs).fs.inbuf.contents.length + 1) env.read.now
    (readState env.read config fs)
  rw [hloop] at hdeframe
  have hinbuf : fs'.inbuf = s.fs.inbuf := by
    split at heq
    · cases heq
      exact ofp13SwitchHandleWrite_inbuf env.write s.fs
    · cases heq
      rfl
  rw [hinbuf]
  exact (deframe_spec hdeframe.symm).2

/-! ## Runs -/

/-- The law of requests over a run: every full-size request that was handled has pushed
exactly one reply, with its xid, and what was pushed went out in order; every byte received
is in a message handled, in a block discarded or still in `inbuf`. A call that only counts
pushes nothing, and a call that reads leaves no complete message behind. -/
structure RequestLaw (calls : List Call) (fs fs' : Fakeswitch) (log : List Removed) : Prop
    extends StreamLaw fs fs' log where
  discards_silently : ∀ ts, calls = [.getCount ts] → fs'.sent = fs.sent
  reads_completely : ∀ env, calls = [.io env] → env.pollin = true →
    ∀ k, ofpSize fs'.inbuf.contents = some k → fs'.inbuf.contents.length < k

theorem runCalls_requests (calls : List Call) (config config' : OfpSwitchConfig)
    (fs fs' : Fakeswitch) (log : List Removed)
    (hrun : runCalls calls config fs = .ok (config', fs', log)) :
    RequestLaw calls fs fs' log := by
  have hsingle : ∀ call, calls = [call] → ∃ log', runCall call config fs
      = .ok (config', fs', log') := by
    rintro call rfl
    obtain ⟨⟨config₁, fs₁, log₁⟩, hcall, hrest⟩ := bind_eq_ok_iff.mp hrun
    cases hrest
    exact ⟨log₁, hcall⟩
  refine ⟨streamLaw_runCalls hrun, ?_, ?_⟩
  · intro ts hts
    obtain ⟨log', hcall⟩ := hsingle _ hts
    obtain ⟨r, hcount, heq⟩ := map_eq_ok_iff.mp hcall
    cases heq
    exact switchGetCount_sent hcount
  · intro env henv hin
    obtain ⟨log', hcall⟩ := hsingle _ henv
    obtain ⟨r, hio, heq⟩ := map_eq_ok_iff.mp hcall
    cases heq
    exact ofp13SwitchHandleIo_incomplete hin hio

/-- Two ECHO_REQUESTs, one read while the loop of the test runs and one after it. -/
theorem runCalls_requests_boundary :
    ∃ fs', RequestLaw [.io (ioReadUpTo 8), .getCount [.upTo 8]]
      (connectedSwitch .latency (echoRequest 1 ++ echoRequest 2)) fs'
      [.handled ⟨echoRequest 1, [4, 3, 0, 8, 0, 0, 0, 1]⟩, .discarded (echoRequest 2)] :=
  ⟨_, runCalls_requests _ switch_config switch_config _ _ _ rfl⟩

/-- A request that arrives before `switchGetCount` reads is not answered. -/
theorem runCalls_discards_echoRequest :
    ∃ fs', runCalls [.getCount [.upTo 8]] switch_config (connectedSwitch .latency (echoRequest 9))
        = .ok (switch_config, fs', [.discarded (echoRequest 9)]) ∧
      FullSize (echoRequest 9) ∧ fs'.sent = (connectedSwitch .latency (echoRequest 9)).sent ∧
      fs'.inbuf.contents = [] ∧ fs'.sock.rx = [] :=
  ⟨_, rfl, by decide, rfl, rfl, rfl⟩

end OfcBenchmark
