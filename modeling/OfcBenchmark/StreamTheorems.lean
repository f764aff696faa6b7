import OfcBenchmark.MessageLoopTheorems

/-!
# From the byte stream to messages

The controller sends a stream of well-formed messages, and the reads cut it up at any
place. `ofp13SwitchHandleIo` keeps `inbuf` at a message boundary (`AtBoundary`), so that
after any calls it has handled exactly the messages that have arrived in full
(`runCalls_handles_arrived`).
-/

namespace OfcBenchmark
open ByteMemory Framing

/-! ## Well-formed messages -/

/-- A message whose header announces its own length. -/
structure WellFormed (m : List UInt8) : Prop where
  header_le : 8 ≤ m.length
  length_eq : (Mem.ofList m).be16 2 = m.length

instance (m : List UInt8) : Decidable (WellFormed m) :=
  decidable_of_iff (8 ≤ m.length ∧ (Mem.ofList m).be16 2 = m.length)
    ⟨fun h => ⟨h.1, h.2⟩, fun h => ⟨h.header_le, h.length_eq⟩⟩

/-- The length field is where it is, whatever follows the message. -/
theorem WellFormed.be16_of_append {m xs ys zs : List UInt8} (h : WellFormed m)
    (heq : xs ++ ys = m ++ zs) (hxs : 4 ≤ xs.length) : (Mem.ofList xs).be16 2 = m.length := by
  have hle := h.header_le
  rw [← h.length_eq]
  have hbyte : ∀ i < 4, Mem.ofList xs i = Mem.ofList m i := by
    intro i hi
    rw [← Mem.ofList_append_left ys (by omega), heq, Mem.ofList_append_left zs (by omega)]
  exact Mem.be16_congr (hbyte 2 (by omega)) (hbyte 3 (by omega))

theorem WellFormed.isFrame {m : List UInt8} (h : WellFormed m) : IsFrame ofpSize m := by
  have hle := h.header_le
  refine ⟨?_, fun ys => ?_, fun xs hxs => ?_⟩
  · rintro rfl
    exact absurd hle (by decide)
  · have hlen : 8 ≤ (m ++ ys).length := by
      rw [List.length_append]
      omega
    rw [ofpSize_of_le hlen,
      h.be16_of_append (List.append_nil _) (Nat.le_trans (by omega) hlen)]
  -- with less than a header nothing is known, with a header the length is
  · by_cases h8 : xs.length < 8
    · exact .inl (ofpSize_of_lt h8)
    · right
      rcases hxs with ⟨ys, hys⟩
      rw [ofpSize_of_le (by omega),
        h.be16_of_append (hys.trans (List.append_nil m).symm) (by omega)]

/-! ## Reading at a message boundary -/

/-- The bytes in `inbuf` and those not read yet are the messages `msgs`, and the first of
them is not there in full. -/
structure AtBoundary (msgs : List (List UInt8)) (fs : Fakeswitch) : Prop where
  stream : fs.inbuf.contents ++ fs.sock.rx = msgs.flatten
  incomplete : arrived msgs fs.inbuf.contents.length = []

section Stream

variable {msgs : List (List UInt8)} {config : OfpSwitchConfig} {fs : Fakeswitch}

theorem AtBoundary.congr {fs' : Fakeswitch} (h : AtBoundary msgs fs)
    (hin : fs'.inbuf = fs.inbuf) (hrx : fs'.sock.rx = fs.sock.rx) : AtBoundary msgs fs' :=
  ⟨by rw [hin, hrx, h.stream], by rw [hin, h.incomplete]⟩

/-- What a read adds to the buffer comes off the connection. -/
theorem readState_stream (env : ReadEnv) (config : OfpSwitchConfig) (fs : Fakeswitch) :
    (readState env config fs).fs.inbuf.contents ++ (readState env config fs).fs.sock.rx
      = fs.inbuf.contents ++ fs.sock.rx :=
  msgbufRead_stream fs.inbuf fs.sock env.transfer

/-- Calls that handled the messages that have arrived, and lead from one boundary to the
next. `n` counts the bytes that were buffered before or have been read. -/
structure Progress (msgs : List (List UInt8)) (fs fs' : Fakeswitch) (handled : List Handled)
    (n : ℕ) : Prop where
  handled_eq : handled.map Handled.message = arrived msgs n
  boundary : AtBoundary (pending msgs n) fs'
  buffered_le : fs.inbuf.contents.length ≤ n
  read_eq : n + fs'.sock.rx.length = msgs.flatten.length

theorem Progress.refl (h : AtBoundary msgs fs) :
    Progress msgs fs fs [] fs.inbuf.contents.length where
  handled_eq := h.incomplete.symm
  boundary := by
    rw [pending, h.incomplete]
    exact h
  buffered_le := le_rfl
  read_eq := by rw [← h.stream, List.length_append]

theorem Progress.trans {fs₁ fs₂ : Fakeswitch} {handled handled' : List Handled} {n n' : ℕ}
    (h : Progress msgs fs fs₁ handled n) (h' : Progress (pending msgs n) fs₁ fs₂ handled' n') :
    Progress msgs fs fs₂ (handled ++ handled') ((arrived msgs n).flatten.length + n') := by
  have hflat : msgs.flatten.length
      = (arrived msgs n).flatten.length + (pending msgs n).flatten.length := by
    rw [← List.length_append, ← List.flatten_append, arrived_append_pending]
  have hlen := congrArg List.length h.boundary.stream
  rw [List.length_append] at hlen
  have hread := h.read_eq
  have hread' := h'.read_eq
  have hbuf := h.buffered_le
  have hbuf' := h'.buffered_le
  -- what the second part has read includes the rest of the first
  have hle : n ≤ (arrived msgs n).flatten.length + n' := by omega
  refine ⟨?_, ?_, hbuf.trans hle, ?_⟩
  · rw [List.map_append, h.handled_eq, h'.handled_eq, arrived_length_add msgs hle]
  · rw [pending_length_add msgs hle]
    exact h'.boundary
  · omega

/-- Writing in between changes nothing. -/
theorem Progress.write {fs₁ : Fakeswitch} {handled : List Handled} {n : ℕ}
    (h : Progress msgs fs fs₁ handled n) (env : WriteEnv) :
    Progress msgs fs (ofp13SwitchHandleWrite env fs₁) handled n := by
  have hin := ofp13SwitchHandleWrite_inbuf env fs₁
  have hrx := ofp13SwitchHandleWrite_rx env fs₁
  exact ⟨h.handled_eq, h.boundary.congr hin hrx, h.buffered_le, by rw [hrx, h.read_eq]⟩

/-- A call of `ofp13SwitchHandleRead` that reads something makes progress. -/
theorem ofp13SwitchHandleRead_progress (env : ReadEnv) (hms : ∀ m ∈ msgs, WellFormed m)
    (h : AtBoundary msgs fs) (hpos : 0 < (msgbufRead fs.inbuf fs.sock env.transfer).2.2) :
    ∃ n config' fs' handled,
      ofp13SwitchHandleRead env config fs = .ok (config', fs', handled) ∧
        Progress msgs fs fs' handled n := by
  have hstream := (readState_stream env config fs).trans h.stream
  have hframe := deframe_of_frames ofpSize_nil (fun m hm => (hms m hm).isFrame) hstream
    (Nat.lt_succ_self _)
  obtain ⟨config', fs', handled, hread, hhandled, hin, hsock⟩ :=
    ofp13SwitchHandleRead_deframe env hpos hframe
  have hrx : fs'.sock.rx = (readState env config fs).fs.sock.rx := by
    rw [hsock]
    rfl
  refine ⟨_, config', fs', handled, hread, hhandled, ⟨?_, ?_⟩, ?_, ?_⟩
  · rw [hin, hrx, drop_flatten_arrived le_rfl hstream]
  · rw [hin, List.length_drop, arrived_pending]
  · show fs.inbuf.contents.length ≤ (msgbufRead fs.inbuf fs.sock env.transfer).1.contents.length
    rw [contents_msgbufRead, List.length_append]
    exact Nat.le_add_right _ _
  · rw [hrx, ← hstream, List.length_append]

/-- So does `ofp13SwitchHandleIo`, which without `POLLIN` has nothing to handle. -/
theorem ofp13SwitchHandleIo_progress (env : IoEnv) (hms : ∀ m ∈ msgs, WellFormed m)
    (h : AtBoundary msgs fs)
    (hpos : env.pollin → 0 < (msgbufRead fs.inbuf fs.sock env.read.transfer).2.2) :
    ∃ n config' fs' handled,
      ofp13SwitchHandleIo env config fs = .ok (config', fs', handled) ∧
        Progress msgs fs fs' handled n := by
  obtain ⟨n, config₁, fs₁, handled, hread, hprog⟩ : ∃ n config₁ fs₁ handled,
      (if env.pollin then ofp13SwitchHandleRead env.read config fs else .ok (config, fs, []))
          = Except.ok (config₁, fs₁, handled) ∧ Progress msgs fs fs₁ handled n := by
    by_cases hin : env.pollin
    · rw [if_pos hin]
      exact ofp13SwitchHandleRead_progress env.read hms h (hpos hin)
    · rw [if_neg hin]
      exact ⟨_, config, fs, [], rfl, .refl h⟩
  unfold ofp13SwitchHandleIo
  rw [hread]
  by_cases hout : env.pollout
  · refine ⟨n, config₁, ofp13SwitchHandleWrite env.write fs₁, handled, ?_, hprog.write _⟩
    exact congrArg Except.ok (if_pos hout)
  · refine ⟨n, config₁, fs₁, handled, ?_, hprog⟩
    exact congrArg Except.ok (if_neg hout)

end Stream

/-! ## Any chunking -/

/-- Every call that reads finds at least one byte. -/
def PositiveReads : List IoEnv → OfpSwitchConfig → Fakeswitch → Prop
  | [], _, _ => True
  | env :: envs, config, fs =>
    (env.pollin → 0 < (msgbufRead fs.inbuf fs.sock env.read.transfer).2.2) ∧
      ∀ r, ofp13SwitchHandleIo env config fs = .ok r → PositiveReads envs r.1 r.2.1

/-- Calls that read something each make progress together. -/
theorem runCalls_progress {envs : List IoEnv} {msgs : List (List UInt8)}
    {config : OfpSwitchConfig} {fs : Fakeswitch} (hms : ∀ m ∈ msgs, WellFormed m)
    (h : AtBoundary msgs fs) (hreads : PositiveReads envs config fs) :
    ∃ n config' fs', ∃ handled : List Handled,
      runCalls (envs.map .io) config fs = .ok (config', fs', handled.map .handled) ∧
        Progress msgs fs fs' handled n := by
  induction envs generalizing msgs config fs with
  | nil => exact ⟨_, config, fs, [], rfl, .refl h⟩
  | cons env envs ih =>
    obtain ⟨n, config₁, fs₁, handled, hio, hprog⟩ :=
      ofp13SwitchHandleIo_progress env hms h hreads.1
    have hpending : ∀ m ∈ pending msgs n, WellFormed m := fun m hm =>
      hms m (List.mem_of_mem_drop hm)
    obtain ⟨n', config', fs', handled', hrun, hprog'⟩ :=
      ih hpending hprog.boundary (hreads.2 _ hio)
    refine ⟨_, config', fs', handled ++ handled', ?_, hprog.trans hprog'⟩
    rw [List.map_cons, runCalls, runCall, hio, List.map_append]
    show (do
      let r' ← runCalls (envs.map .io) config₁ fs₁
      Except.ok (r'.1, r'.2.1, handled.map Removed.handled ++ r'.2.2)) = _
    rw [hrun]
    rfl

/-- After the calls some `n` bytes of the stream have been read. The messages handled are
those that lie in them in full, each once and in order, and what is left in `inbuf` is the
rest of these bytes. -/
def HandlesArrived (msgs : List (List UInt8)) (envs : List IoEnv) (config : OfpSwitchConfig)
    (fs : Fakeswitch) : Prop :=
  ∃ n config' fs', ∃ handled : List Handled,
    runCalls (envs.map .io) config fs = .ok (config', fs', handled.map .handled) ∧
    n ≤ msgs.flatten.length ∧ fs'.sock.rx = msgs.flatten.drop n ∧
    handled.map Handled.message = arrived msgs n ∧
    fs'.inbuf.contents = (msgs.flatten.take n).drop (arrived msgs n).flatten.length

/-- The messages handled depend on how many bytes have been read and on nothing else. -/
theorem runCalls_handles_arrived (msgs : List (List UInt8)) (envs : List IoEnv)
    (config : OfpSwitchConfig) (fs : Fakeswitch) (hms : ∀ m ∈ msgs, WellFormed m)
    (hin : fs.inbuf.contents = []) (hrx : fs.sock.rx = msgs.flatten)
    (hreads : PositiveReads envs config fs) : HandlesArrived msgs envs config fs := by
  have hbound : AtBoundary msgs fs := by
    refine ⟨by rw [hin, hrx, List.nil_append], ?_⟩
    rw [hin, List.length_nil]
    rcases msgs with - | ⟨m, ms⟩
    · rfl
    · have hle := (hms m List.mem_cons_self).header_le
      exact arrived_cons_of_lt (by omega) ms
  obtain ⟨n, config', fs', handled, hrun, hprog⟩ := runCalls_progress hms hbound hreads
  -- the messages handled, the buffer and the unread bytes make up the stream
  have hstream : ((arrived msgs n).flatten ++ fs'.inbuf.contents) ++ fs'.sock.rx
      = msgs.flatten := by
    rw [List.append_assoc, hprog.boundary.stream, ← List.flatten_append,
      arrived_append_pending]
  have hread := hprog.read_eq
  have hn : n = ((arrived msgs n).flatten ++ fs'.inbuf.contents).length := by
    rw [← hstream, List.length_append] at hread
    omega
  refine ⟨n, config', fs', handled, hrun, by omega, ?_, hprog.handled_eq, ?_⟩
  · rw [← hstream]
    exact (List.drop_left' hn.symm).symm
  · have htake : msgs.flatten.take n = (arrived msgs n).flatten ++ fs'.inbuf.contents := by
      rw [← hstream]
      exact List.take_left' hn.symm
    rw [htake, List.drop_left]

/-- Two requests of eight bytes, of which the first twelve bytes are read. -/
theorem runCalls_handles_arrived_twelve :
    HandlesArrived [echoRequest 1, echoRequest 2] [ioReadUpTo 12] switch_config
      (connectedSwitch .latency (echoRequest 1 ++ echoRequest 2)) :=
  runCalls_handles_arrived _ _ _ _ (by decide) rfl rfl ⟨fun _ => by decide, fun _ _ => trivial⟩

end OfcBenchmark
