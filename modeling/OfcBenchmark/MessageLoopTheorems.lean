import OfcBenchmark.Lib.Framing
import OfcBenchmark.MyswitchTheorems

/-!
# The message loop of `ofp13SwitchHandleRead`

* `NextMessage`: a complete message at the front of `inbuf`, as the loop finds it;
* `messageLoop_rec`: the induction all statements about the loop are proved by;
* `messageLoop_deframe`: the loop cuts `inbuf` up as the abstract framing does, so that it
  ends exactly when that framing does not stall (`loopEnds_iff`);
* `ofp13SwitchHandleRead_hang_iff`: so the whole call hangs exactly when a read leaves such
  bytes in `inbuf`.
-/

namespace OfcBenchmark
open ByteMemory Framing

/-! ## The message at the front of the buffer -/

/-- The length an OpenFlow header announces, once a header has arrived. -/
def ofpSize (xs : List UInt8) : Option ℕ :=
  if xs.length < OfpHeader.size then none else some ((Mem.ofList xs).be16 2)

@[simp] theorem ofpSize_nil : ofpSize [] = none := rfl

theorem ofpSize_of_lt {xs : List UInt8} (h : xs.length < 8) : ofpSize xs = none := if_pos h

theorem ofpSize_of_le {xs : List UInt8} (h : 8 ≤ xs.length) :
    ofpSize xs = some ((Mem.ofList xs).be16 2) := if_neg (Nat.not_lt.mpr h)

/-- A complete message at the front of `inbuf`: `ofph` points to it, and `length` is what
its header says. -/
structure NextMessage (inbuf : Msgbuf) (ofph : Mem) (length : ℕ) : Prop where
  ofph_eq : ofph = inbuf.buf.shift inbuf.start
  length_eq : length = htons (ofph.load16 2)
  header_le : 8 ≤ inbuf.contents.length
  length_le : length ≤ inbuf.contents.length

/-- A pointer to the front of the buffer sees the queue. -/
theorem shift_start_apply (m : Msgbuf) {i : ℕ} (h : i < m.contents.length) :
    m.buf.shift m.start i = Mem.ofList m.contents i := by
  rw [Mem.shift_apply, m.buf_of_lt h, Mem.ofList_apply h]

/-- The length field the handlers read is the one of the buffered bytes. -/
theorem htons_load16_of_le (m : Msgbuf) {p : ℕ} (h : p + 2 ≤ m.contents.length) :
    htons ((m.buf.shift m.start).load16 p) = (Mem.ofList m.contents).be16 p := by
  rw [htons, Mem.bswap16_load16]
  exact Mem.be16_congr (shift_start_apply m (by omega)) (shift_start_apply m (by omega))

namespace NextMessage

variable {inbuf : Msgbuf} {ofph : Mem} {length : ℕ}

theorem ofpSize_eq (h : NextMessage inbuf ofph length) :
    ofpSize inbuf.contents = some length := by
  have hle := h.header_le
  rw [ofpSize_of_le hle, h.length_eq, h.ofph_eq, htons_load16_of_le _ (by omega)]

/-- The bytes of the message are the front of the queue. -/
theorem read_eq (h : NextMessage inbuf ofph length) :
    ofph.read 0 length = inbuf.contents.take length := by
  have hle := h.length_le
  rw [Msgbuf.length_contents, msgbufCountBuffered] at hle
  rw [h.ofph_eq, Mem.read_shift, Nat.add_zero, Msgbuf.contents, Mem.take_read _ _ hle]

/-- Pulling the message leaves what came after it. -/
theorem contents_pull {s : ReadState} (h : NextMessage s.fs.inbuf ofph length) :
    (s.pull length).fs.inbuf.contents = s.fs.inbuf.contents.drop length :=
  contents_msgbufPull _ h.length_le

end NextMessage

/-- Whether there is a message at the front is a matter of the abstract framing. -/
theorem exists_nextMessage {inbuf : Msgbuf} {k : ℕ} (hk : ofpSize inbuf.contents = some k)
    (hle : k ≤ inbuf.contents.length) :
    NextMessage inbuf (inbuf.buf.shift inbuf.start) k := by
  have hhdr : 8 ≤ inbuf.contents.length := by
    by_contra h
    rw [ofpSize_of_lt (Nat.not_le.mp h)] at hk
    cases hk
  rw [ofpSize_of_le hhdr, Option.some.injEq] at hk
  exact ⟨rfl, by rw [htons_load16_of_le _ (by omega), hk], hhdr, hle⟩

/-! ## One turn of the loop -/

/-- The state after a turn of the loop that handles a message. -/
def ReadState.next (role : Mem) (now : Timeval) (ofph : Mem) (length : ℕ) (s : ReadState) :
    ReadState :=
  ofp13HandleMessage role now ofph (s.pull length)

/-- What the loop records about the message. -/
def ReadState.handled (role : Mem) (now : Timeval) (ofph : Mem) (length : ℕ) (s : ReadState) :
    Handled where
  message := ofph.read 0 length
  pushed := (s.next role now ofph length).fs.outbuf.contents.drop s.fs.outbuf.contents.length

/-- A turn of the loop that does not return. -/
inductive Iteration (role : Mem) : ReadState → ReadState → Prop
  | mk {s : ReadState} {ofph : Mem} {length : ℕ} (now : Timeval) :
      NextMessage s.fs.inbuf ofph length → Iteration role s (s.next role now ofph length)

theorem NextMessage.contents_next {s : ReadState} {ofph : Mem} {length : ℕ}
    (h : NextMessage s.fs.inbuf ofph length) (role : Mem) (now : Timeval) :
    (s.next role now ofph length).fs.inbuf.contents = s.fs.inbuf.contents.drop length := by
  rw [ReadState.next, ofp13HandleMessage_inbuf, h.contents_pull]

section Loop

variable (role : Mem) (fuel : ℕ) (now : ℕ → Timeval) (s : ReadState)

/-- With a message at the front, the loop handles it and goes on. -/
theorem messageLoop_next {ofph : Mem} {length : ℕ} (h : NextMessage s.fs.inbuf ofph length) :
    messageLoop role (fuel + 1) now s
      = (messageLoop role fuel (fun i => now (i + 1)) (s.next role (now 0) ofph length)).map
          fun r => (r.1, s.handled role (now 0) ofph length :: r.2) := by
  have hhdr : OfpHeader.size ≤ s.fs.inbuf.contents.length := h.header_le
  have hle := h.length_le
  have hpeek : msgbufPeek s.fs.inbuf = some ofph := by
    rw [msgbufPeek_of_pos _ (lt_of_lt_of_le (by decide) hhdr), h.ofph_eq]
  rw [messageLoop]
  dsimp only
  rw [hpeek, ← Msgbuf.length_contents, if_neg (Nat.not_lt.mpr hhdr)]
  dsimp only
  rw [← h.length_eq, if_neg (Nat.not_lt.mpr hle)]
  rfl

/-- Without one it returns. -/
theorem messageLoop_stop (h : ∀ k, ofpSize s.fs.inbuf.contents = some k →
    s.fs.inbuf.contents.length < k) : messageLoop role (fuel + 1) now s = some (s, []) := by
  rw [messageLoop]
  dsimp only
  rw [← Msgbuf.length_contents]
  by_cases hsize : s.fs.inbuf.contents.length < OfpHeader.size
  · rw [if_pos hsize]
  have hhdr : 8 ≤ s.fs.inbuf.contents.length := Nat.not_lt.mp hsize
  have hshort := h _ (ofpSize_of_le hhdr)
  rw [if_neg hsize, msgbufPeek_of_pos _ (by omega)]
  dsimp only
  rw [htons_load16_of_le _ (by omega), if_pos hshort]

/-- Either the loop returns or there is a message to handle. -/
theorem stops_or_nextMessage (m : Msgbuf) :
    (∀ k, ofpSize m.contents = some k → m.contents.length < k) ∨
      ∃ length, NextMessage m (m.buf.shift m.start) length := by
  by_cases h : ∃ k, ofpSize m.contents = some k ∧ k ≤ m.contents.length
  · rcases h with ⟨k, hk, hle⟩
    exact .inr ⟨k, exists_nextMessage hk hle⟩
  · refine .inl fun k hk => Nat.not_le.mp fun hle => h ⟨k, hk, hle⟩

end Loop

/-- Induction along the message loop. -/
theorem messageLoop_rec {role : Mem} {P : ReadState → ReadState → List Handled → Prop}
    (stop : ∀ s, P s s [])
    (next : ∀ s now ofph length s' handled, NextMessage s.fs.inbuf ofph length →
      P (s.next role now ofph length) s' handled →
      P s s' (s.handled role now ofph length :: handled))
    {fuel : ℕ} {now : ℕ → Timeval} {s s' : ReadState} {handled : List Handled}
    (h : messageLoop role fuel now s = some (s', handled)) : P s s' handled := by
  induction fuel generalizing now s handled with
  | zero => cases h
  | succ fuel ih =>
    rcases stops_or_nextMessage s.fs.inbuf with hstop | ⟨length, hnext⟩
    · rw [messageLoop_stop role fuel now s hstop] at h
      cases h
      exact stop _
    · rw [messageLoop_next role fuel now s hnext] at h
      obtain ⟨⟨t, hs⟩, hr, heq⟩ := Option.map_eq_some_iff.mp h
      cases heq
      exact next s (now 0) _ length _ _ hnext (ih hr)

/-- What a turn of the loop preserves, the loop preserves. -/
theorem messageLoop_invariant {role : Mem} {P : ReadState → Prop}
    (hstep : ∀ s s', Iteration role s s' → P s → P s')
    {fuel : ℕ} {now : ℕ → Timeval} {s s' : ReadState} {handled : List Handled} (hs : P s)
    (h : messageLoop role fuel now s = some (s', handled)) : P s' :=
  messageLoop_rec (P := fun s s' _ => P s → P s') (fun _ h => h)
    (fun s now _ _ _ _ hnext ih hs => ih (hstep s _ (.mk now hnext) hs)) h hs

/-- A turn of the loop takes a message off the buffered bytes. -/
theorem Iteration.contents {role : Mem} {s s' : ReadState} (h : Iteration role s s') :
    ∃ k, ofpSize s.fs.inbuf.contents = some k ∧ k ≤ s.fs.inbuf.contents.length ∧
      s'.fs.inbuf.contents = s.fs.inbuf.contents.drop k := by
  rcases h with ⟨now, hnext⟩
  exact ⟨_, hnext.ofpSize_eq, hnext.length_le, hnext.contents_next role now⟩

/-- The connection is left alone. -/
theorem Iteration.sock {role : Mem} {s s' : ReadState} (h : Iteration role s s') :
    s'.fs.sock = s.fs.sock := by
  rcases h with ⟨now, hnext⟩
  exact ofp13HandleMessage_sock role now _ (s.pull _)

/-! ## The loop and the abstract framing -/

/-- The message loop cuts the buffered bytes into messages as the abstract framing does. -/
theorem messageLoop_deframe (role : Mem) (fuel : ℕ) (now : ℕ → Timeval) (s : ReadState) :
    (messageLoop role fuel now s).map
        (fun r => (r.2.map Handled.message, r.1.fs.inbuf.contents))
      = deframe ofpSize fuel s.fs.inbuf.contents := by
  induction fuel generalizing now s with
  | zero => rfl
  | succ fuel ih =>
    rcases stops_or_nextMessage s.fs.inbuf with hstop | ⟨length, hnext⟩
    · rw [messageLoop_stop role fuel now s hstop]
      rcases hk : ofpSize s.fs.inbuf.contents with - | k
      · rw [deframe_none hk]
        rfl
      · rw [deframe_short hk (hstop k hk)]
        rfl
    · rw [messageLoop_next role fuel now s hnext, deframe_cons hnext.ofpSize_eq hnext.length_le,
        ← hnext.contents_next role (now 0), ← ih, Option.map_map, Option.map_map, ← hnext.read_eq]
      rfl

/-- The loop needs no more tests of its condition than there are bytes, and one more. -/
theorem messageLoop_isSome_iff (role : Mem) (now : ℕ → Timeval) (s : ReadState) :
    (∃ r, messageLoop role (s.fs.inbuf.contents.length + 1) now s = some r)
      ↔ ¬ Stalls ofpSize s.fs.inbuf.contents := by
  constructor
  · rintro ⟨r, hr⟩ hs
    have h := messageLoop_deframe role (s.fs.inbuf.contents.length + 1) now s
    rw [hr, deframe_eq_none_of_stalls hs] at h
    cases h
  · intro hs
    obtain ⟨r, hr⟩ := exists_deframe hs (Nat.lt_succ_self _)
    rw [← messageLoop_deframe role _ now] at hr
    obtain ⟨r', hr', -⟩ := Option.map_eq_some_iff.mp hr
    exact ⟨r', hr'⟩

/-- The loop ends, and each of its turns that does not return takes bytes off the buffer. -/
def LoopEnds (role : Mem) (now : ℕ → Timeval) (s : ReadState) : Prop :=
  (∃ fuel r, messageLoop role fuel now s = some r) ∧
    ∀ s₁ s₂, Relation.ReflTransGen (Iteration role) s s₁ → Iteration role s₁ s₂ →
      msgbufCountBuffered s₂.fs.inbuf < msgbufCountBuffered s₁.fs.inbuf

/-- Turns of the loop do not lead away from a zero length. -/
theorem not_stalls_of_reaches {role : Mem} {s s' : ReadState}
    (hs : ¬ Stalls ofpSize s.fs.inbuf.contents)
    (h : Relation.ReflTransGen (Iteration role) s s') :
    ¬ Stalls ofpSize s'.fs.inbuf.contents := by
  induction h with
  | refl => exact hs
  | tail _ hstep ih =>
    obtain ⟨k, hk, hle, hcon⟩ := hstep.contents
    intro hstall
    rw [hcon] at hstall
    exact ih (.next hk hle hstall)

/-- The loop ends on exactly those contents of `inbuf` whose length fields do not lead to a
complete header that announces zero bytes. -/
theorem loopEnds_iff (role : Mem) (now : ℕ → Timeval) (s : ReadState) :
    LoopEnds role now s ↔ ¬ Stalls ofpSize s.fs.inbuf.contents := by
  constructor
  · rintro ⟨⟨fuel, r, hr⟩, -⟩ hs
    have h := messageLoop_deframe role fuel now s
    rw [hr, deframe_eq_none_of_stalls hs] at h
    cases h
  · intro hs
    constructor
    · obtain ⟨r, hr⟩ := (messageLoop_isSome_iff role now s).mpr hs
      exact ⟨_, r, hr⟩
    · intro s₁ s₂ hreach hstep
      -- the message has a positive length, or the reachable state would stall
      obtain ⟨k, hk, hle, hcon⟩ := hstep.contents
      have hpos : k ≠ 0 := by
        rintro rfl
        exact not_stalls_of_reaches hs hreach (.zero hk)
      rw [← Msgbuf.length_contents, ← Msgbuf.length_contents, hcon, List.length_drop]
      omega

/-- An ECHO_REQUEST whose length field is zero. -/
def zeroLengthEcho : List UInt8 := [4, 2, 0, 0, 0, 0, 0, 1]

/-- Such a message is handled again and again. -/
theorem not_loopEnds_zeroLengthEcho :
    ¬ LoopEnds (fun _ => 0) (fun _ => ⟨0, 0⟩)
      (readState (readUpTo 8) switch_config (connectedSwitch .latency zeroLengthEcho)) := by
  rintro ⟨⟨fuel, r, hr⟩, -⟩
  have hcon : (readState (readUpTo 8) switch_config
      (connectedSwitch .latency zeroLengthEcho)).fs.inbuf.contents = zeroLengthEcho := by
    decide
  have h := messageLoop_deframe (fun _ => 0) fuel (fun _ => ⟨0, 0⟩) (readState (readUpTo 8)
    switch_config (connectedSwitch .latency zeroLengthEcho))
  rw [hr, hcon, deframe_eq_none_of_stalls (.zero (by decide))] at h
  cases h

/-! ## The whole call -/

section HandleRead

variable (env : ReadEnv) (config : OfpSwitchConfig) (fs : Fakeswitch)

/-- `ofp13SwitchHandleRead` hangs exactly when a read that delivers something leaves a zero
length in the loop's way. -/
theorem ofp13SwitchHandleRead_hang_iff :
    ofp13SwitchHandleRead env config fs = .error .hang
      ↔ 0 < (msgbufRead fs.inbuf fs.sock env.transfer).2.2 ∧
        Stalls ofpSize (readState env config fs).fs.inbuf.contents := by
  have hloop := messageLoop_isSome_iff env.role env.now (readState env config fs)
  unfold ofp13SwitchHandleRead
  dsimp only
  rw [← Msgbuf.length_contents]
  -- a read that delivers nothing ends the process, not in a hang
  by_cases hpos : (msgbufRead fs.inbuf fs.sock env.transfer).2.2 ≤ 0
  · rw [if_pos hpos]
    refine ⟨nofun, fun h => absurd h.1 (Int.not_lt.mpr hpos)⟩
  · rw [if_neg hpos]
    rcases hr : messageLoop env.role ((readState env config fs).fs.inbuf.contents.length + 1)
      env.now (readState env config fs) with - | r
    · refine ⟨fun _ => ⟨Int.not_le.mp hpos, ?_⟩, fun _ => rfl⟩
      by_contra hs
      obtain ⟨r, hr'⟩ := hloop.mpr hs
      rw [hr] at hr'
      cases hr'
    · refine ⟨nofun, fun h => absurd h.2 (hloop.mp ⟨r, hr⟩)⟩

variable {config fs}

/-- A call that returns has read something, and its message loop has ended. -/
theorem ofp13SwitchHandleRead_eq_ok_iff {config' : OfpSwitchConfig} {fs' : Fakeswitch}
    {handled : List Handled} :
    ofp13SwitchHandleRead env config fs = .ok (config', fs', handled)
      ↔ 0 < (msgbufRead fs.inbuf fs.sock env.transfer).2.2 ∧
        ∃ s, messageLoop env.role ((readState env config fs).fs.inbuf.contents.length + 1)
            env.now (readState env config fs) = some (s, handled) ∧
          s.config = config' ∧ s.fs = fs' := by
  unfold ofp13SwitchHandleRead
  dsimp only
  rw [← Msgbuf.length_contents]
  by_cases hpos : (msgbufRead fs.inbuf fs.sock env.transfer).2.2 ≤ 0
  · rw [if_pos hpos]
    refine ⟨nofun, fun h => absurd h.1 (Int.not_lt.mpr hpos)⟩
  · rw [if_neg hpos]
    rcases messageLoop env.role ((readState env config fs).fs.inbuf.contents.length + 1)
      env.now (readState env config fs) with - | ⟨s, log⟩
    · refine ⟨nofun, ?_⟩
      rintro ⟨-, s, h, -⟩
      cases h
    · constructor
      · intro h
        cases h
        exact ⟨Int.not_le.mp hpos, s, rfl, rfl, rfl⟩
      · rintro ⟨-, s', h, rfl, rfl⟩
        cases h
        rfl

/-- Without a zero length in its way, `ofp13SwitchHandleRead` returns after a read that
delivers something: it handles the messages the abstract framing finds, keeps the rest in
`inbuf` and touches the connection only through that read. -/
theorem ofp13SwitchHandleRead_deframe {ms : List (List UInt8)} {rest : List UInt8}
    (hpos : 0 < (msgbufRead fs.inbuf fs.sock env.transfer).2.2)
    (h : deframe ofpSize ((readState env config fs).fs.inbuf.contents.length + 1)
      (readState env config fs).fs.inbuf.contents = some (ms, rest)) :
    ∃ config' fs' handled, ofp13SwitchHandleRead env config fs = .ok (config', fs', handled) ∧
      handled.map Handled.message = ms ∧ fs'.inbuf.contents = rest ∧
      fs'.sock = (msgbufRead fs.inbuf fs.sock env.transfer).2.1 := by
  rw [← messageLoop_deframe env.role _ env.now] at h
  obtain ⟨⟨s, handled⟩, hloop, heq⟩ := Option.map_eq_some_iff.mp h
  cases heq
  refine ⟨s.config, s.fs, handled, ?_, rfl, rfl, ?_⟩
  · exact (ofp13SwitchHandleRead_eq_ok_iff env).mpr ⟨hpos, s, hloop, rfl, rfl⟩
  · exact messageLoop_invariant (P := fun s => s.fs.sock = _)
      (fun _ _ hstep h => hstep.sock.trans h) rfl hloop

end HandleRead

end OfcBenchmark
