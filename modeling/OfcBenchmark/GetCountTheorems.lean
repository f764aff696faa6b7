import OfcBenchmark.StreamTheorems

/-!
# What `switchGetCount` takes out of `inbuf`

The inner loop compares the length of a message with the bytes of the latest read, not with
the bytes buffered, and it reads that length before a header has arrived. So it removes
whole messages only under a condition (`StaysFramed`), and it leaves less than one message
only under another; both together are `DrainsAll`, which `switchGetCount_drains_iff` shows to
be exact. An inner loop that has not ended after as many turns as bytes were read never ends
(`drainLoop_eq_none`).
-/

namespace OfcBenchmark
open ByteMemory Framing

/-! ## The inner loop -/

/-- The length field found at the front of a buffer, buffered or stale. -/
def headerLength (m : Msgbuf) : ℕ := htons ((m.buf.shift m.start).load16 2)

/-- With the field buffered, it is the length of the message at the front. -/
theorem WellFormed.headerLength_eq {a : List UInt8} {m : Msgbuf} {later after : List UInt8}
    (ha : WellFormed a) (hstream : m.contents ++ later = a ++ after)
    (hlen : 4 ≤ m.contents.length) : headerLength m = a.length := by
  rw [headerLength, htons_load16_of_le m hlen, ha.be16_of_append hstream hlen]

section DrainLoop

variable {m : Msgbuf} {n : ℕ}

theorem drainLoop_zero (m : Msgbuf) (fuel : ℕ) :
    drainLoop (fuel + 1) m (0 : ℕ) = some (m, []) := rfl

/-- A turn of the inner loop. -/
theorem drainLoop_succ (fuel : ℕ) (hpos : 0 < n) (hle : n ≤ m.contents.length) :
    drainLoop (fuel + 1) m n
      = if n < headerLength m then some (m, [])
        else (drainLoop fuel (msgbufPull m (headerLength m)).1 ((n - headerLength m : ℕ) : ℤ)).map
          fun r => (r.1, m.contents.take (headerLength m) :: r.2) := by
  rw [drainLoop, if_neg (by omega), msgbufPeek_of_pos m (by omega)]
  dsimp only
  by_cases hlt : n < headerLength m
  · rw [if_pos hlt]
    exact if_pos (Int.ofNat_lt.mpr hlt)
  · have hsub : (n : ℤ) - headerLength m = ((n - headerLength m : ℕ) : ℤ) := by omega
    rw [if_neg hlt, ← hsub, ← msgbufPull_bytes_of_le m (by omega)]
    exact if_neg (fun h => hlt (Int.ofNat_lt.mp h))

/-- More fuel does not help a loop that has not ended by then: it never moves. -/
theorem drainLoop_eq_none {fuel : ℕ} (hle : n ≤ m.contents.length) (hfuel : n < fuel)
    (h : drainLoop fuel m n = none) (fuel' : ℕ) : drainLoop fuel' m n = none := by
  induction n using Nat.strong_induction_on generalizing m fuel fuel' with
  | _ n ih =>
    obtain ⟨fuel, rfl⟩ : ∃ f, fuel = f + 1 := ⟨fuel - 1, by omega⟩
    rcases Nat.eq_zero_or_pos n with rfl | hpos
    · rw [drainLoop_zero] at h
      cases h
    rw [drainLoop_succ fuel hpos hle] at h
    by_cases hlt : n < headerLength m
    · rw [if_pos hlt] at h
      cases h
    rw [if_neg hlt, Option.map_eq_none_iff] at h
    rcases Nat.eq_zero_or_pos (headerLength m) with hzero | hlen
    · -- the message of length zero stays where it is
      induction fuel' with
      | zero => rfl
      | succ fuel' ih' =>
        rw [drainLoop_succ fuel' hpos hle, if_neg hlt, hzero, msgbufPull_zero, Nat.sub_zero, ih',
          Option.map_none]
    · rcases fuel' with - | fuel'
      · rfl
      · have hle' : n - headerLength m
            ≤ (msgbufPull m (headerLength m)).1.contents.length := by
          rw [contents_msgbufPull m (by omega), List.length_drop]
          omega
        rw [drainLoop_succ fuel' hpos hle, if_neg hlt,
          ih _ (by omega) hle' (by omega) h fuel', Option.map_none]

end DrainLoop

/-- What the inner loop removes and what it leaves make up the queue. -/
theorem drainLoop_stream {m : Msgbuf} {n fuel : ℕ} {r : Msgbuf × List (List UInt8)}
    (hle : n ≤ m.contents.length) (h : drainLoop fuel m n = some r) :
    r.2.flatten ++ r.1.contents = m.contents := by
  induction fuel generalizing m n r with
  | zero => cases h
  | succ fuel ih =>
    rcases Nat.eq_zero_or_pos n with rfl | hpos
    · rw [drainLoop_zero] at h
      cases h
      rfl
    rw [drainLoop_succ fuel hpos hle] at h
    split at h
    · cases h
      rfl
    -- a block is pulled, and the rest follows by induction on the fuel
    · obtain ⟨r', hr', rfl⟩ := Option.map_eq_some_iff.mp h
      have hpull := contents_msgbufPull m (show headerLength m ≤ m.contents.length by omega)
      have hrest := ih (by rw [hpull, List.length_drop]; omega) hr'
      rw [List.flatten_cons, List.append_assoc, hrest, hpull, List.take_append_drop]

/-- Of the `n` bytes the latest read delivered, those left after the messages that fit in
them are none, or the length field behind those messages is buffered, or what is found in
its place is larger. -/
def StaysFramed (msgs : List (List UInt8)) (m : Msgbuf) (n : ℕ) : Prop :=
  let gone := (arrived msgs n).flatten.length
  n = gone ∨ 4 ≤ (m.advance gone).contents.length ∨ n - gone < headerLength (m.advance gone)

theorem staysFramed_cons_of_le {a : List UInt8} {msgs : List (List UInt8)} {m : Msgbuf} {n : ℕ}
    (h : a.length ≤ n) :
    StaysFramed (a :: msgs) m n ↔ StaysFramed msgs (m.advance a.length) (n - a.length) := by
  unfold StaysFramed
  dsimp only
  rw [arrived_cons_of_le h, List.flatten_cons, List.length_append, Msgbuf.advance_advance,
    Nat.sub_sub]
  have hiff : n = a.length + (arrived msgs (n - a.length)).flatten.length
      ↔ n - a.length = (arrived msgs (n - a.length)).flatten.length := by omega
  rw [hiff]

theorem staysFramed_cons_of_lt {a : List UInt8} {msgs : List (List UInt8)} {m : Msgbuf} {n : ℕ}
    (h : n < a.length) (h0 : m.advance 0 = m) :
    StaysFramed (a :: msgs) m n ↔ n = 0 ∨ 4 ≤ m.contents.length ∨ n < headerLength m := by
  unfold StaysFramed
  dsimp only
  rw [arrived_cons_of_lt h, List.flatten_nil, List.length_nil, h0, Nat.sub_zero]

section Framed

variable {a rest later : List UInt8} {m : Msgbuf} {n : ℕ}

/-- A message at the front that fits in what the latest read delivered is pulled. -/
theorem drainLoop_of_le (ha : WellFormed a) (hstream : m.contents ++ later = a ++ rest)
    (hn : n ≤ m.contents.length) (hle : a.length ≤ n) (fuel : ℕ) :
    drainLoop (fuel + 1) m n
      = (drainLoop fuel (m.advance a.length) ((n - a.length : ℕ) : ℤ)).map
          fun r => (r.1, a :: r.2) := by
  have hale := ha.header_le
  have hlen : headerLength m = a.length := ha.headerLength_eq hstream (by omega)
  have htake : m.contents.take a.length = a := by
    have h := congrArg (List.take a.length) hstream
    rwa [List.take_left, List.take_append_of_le_length (by omega)] at h
  rw [drainLoop_succ fuel (by omega) hn, hlen, if_neg (by omega), htake,
    msgbufPull_of_le m (by omega) (by omega)]

/-- At a message that does not fit the loop has to stop. It does when the length it reads
there is the message's or a large one; else it removes less than a header. -/
theorem drainLoop_of_lt (ha : WellFormed a) (hstream : m.contents ++ later = a ++ rest)
    (hn : n ≤ m.contents.length) (hlt : n < a.length) (fuel : ℕ) :
    ((n = 0 ∨ 4 ≤ m.contents.length ∨ n < headerLength m) →
        drainLoop (fuel + 1) m n = some (m, [])) ∧
      (¬ (n = 0 ∨ 4 ≤ m.contents.length ∨ n < headerLength m) →
        ∀ r, drainLoop (fuel + 1) m n = some r → ∃ block ∈ r.2, block.length < 8) := by
  rcases Nat.eq_zero_or_pos n with rfl | hpos
  · exact ⟨fun _ => drainLoop_zero m fuel, fun h => absurd (.inl rfl) h⟩
  rw [drainLoop_succ fuel hpos hn]
  refine ⟨fun h => if_pos ?_, ?_⟩
  · rcases h with h | h | h
    · omega
    · rwa [ha.headerLength_eq hstream h]
    · exact h
  · intro h r hr
    -- a stale length that fits in less than four bytes
    push Not at h
    rw [if_neg (by omega)] at hr
    obtain ⟨r', -, rfl⟩ := Option.map_eq_some_iff.mp hr
    refine ⟨_, List.mem_cons_self, ?_⟩
    rw [List.length_take]
    omega

end Framed

/-- The inner loop removes the messages that fit in the bytes of the latest read, or, when
it does not stay framed, hangs or removes a block that is no message. -/
theorem drainLoop_spec {msgs : List (List UInt8)} {m : Msgbuf} {later : List UInt8} {n fuel : ℕ}
    (hms : ∀ a ∈ msgs, WellFormed a) (hstream : m.contents ++ later = msgs.flatten)
    (hn : n ≤ m.contents.length) (h0 : m.advance 0 = m) (hfuel : n < fuel) :
    (StaysFramed msgs m n → drainLoop fuel m n
        = some (m.advance (arrived msgs n).flatten.length, arrived msgs n)) ∧
      (¬ StaysFramed msgs m n → ∀ r, drainLoop fuel m n = some r →
        ∃ block ∈ r.2, block.length < 8) := by
  obtain ⟨fuel, rfl⟩ : ∃ f, fuel = f + 1 := ⟨fuel - 1, by omega⟩
  induction msgs generalizing m n fuel with
  | nil =>
    have hnil : m.contents = [] := (List.append_eq_nil_iff.mp hstream).1
    rw [hnil, List.length_nil] at hn
    obtain rfl := Nat.le_zero.mp hn
    refine ⟨?_, fun h => absurd (.inl rfl) h⟩
    intro _
    rw [drainLoop_zero]
    show _ = some (m.advance 0, [])
    rw [h0]
  | cons a msgs ih =>
    have ha := hms a List.mem_cons_self
    have hale := ha.header_le
    rw [List.flatten_cons] at hstream
    by_cases hle : a.length ≤ n
    · -- the first message fits: it is pulled, and the rest is a shorter stream
      have hdrop : (m.advance a.length).contents ++ later = msgs.flatten := by
        have h := congrArg (List.drop a.length) hstream
        rwa [List.drop_left, List.drop_append_of_le_length (by omega),
          ← Msgbuf.contents_advance] at h
      have hloop := drainLoop_of_le ha hstream hn hle fuel
      obtain ⟨fuel, rfl⟩ : ∃ f, fuel = f + 1 := ⟨fuel - 1, by omega⟩
      have hrest := ih (n := n - a.length) (m := m.advance a.length)
        (fun b hb => hms b (List.mem_cons_of_mem _ hb)) hdrop
        (by rw [Msgbuf.contents_advance, List.length_drop]; omega)
        (by rw [Msgbuf.advance_advance, Nat.add_zero]) fuel (by omega)
      rw [staysFramed_cons_of_le hle, hloop]
      constructor
      · intro h
        rw [hrest.1 h, arrived_cons_of_le hle, Option.map_some, Msgbuf.advance_advance,
          List.flatten_cons, List.length_append]
      · intro h r hr
        obtain ⟨r', hr', rfl⟩ := Option.map_eq_some_iff.mp hr
        obtain ⟨block, hmem, hshort⟩ := hrest.2 h r' hr'
        exact ⟨block, List.mem_cons_of_mem _ hmem, hshort⟩
    -- the first message does not fit: the loop has to stop here
    · have hlt : n < a.length := Nat.not_le.mp hle
      rw [staysFramed_cons_of_lt hlt h0, arrived_cons_of_lt hlt, List.flatten_nil,
        List.length_nil, h0]
      exact drainLoop_of_lt ha hstream hn hlt fuel

/-! ## All reads -/

/-- The messages `pulled` have been removed whole from the front of the stream, and the
next one is not in `inbuf` in full. -/
structure Drained (msgs : List (List UInt8)) (inbuf : Msgbuf) (sock : Socket)
    (pulled : List (List UInt8)) : Prop where
  whole : pulled <+: msgs
  stream : pulled.flatten ++ inbuf.contents ++ sock.rx = msgs.flatten
  incomplete : arrived (msgs.drop pulled.length) inbuf.contents.length = []

/-- Removing nothing drains a buffer that holds less than a message. -/
theorem drained_nil_iff {msgs : List (List UInt8)} {inbuf : Msgbuf} {sock : Socket}
    (hstream : inbuf.contents ++ sock.rx = msgs.flatten) :
    Drained msgs inbuf sock [] ↔ arrived msgs inbuf.contents.length = [] :=
  ⟨fun h => h.incomplete, fun h => ⟨List.nil_prefix, hstream, h⟩⟩

/-- Messages removed first do not matter for what comes after. -/
theorem drained_append_iff {first rest : List (List UInt8)} {inbuf : Msgbuf} {sock : Socket}
    {pulled : List (List UInt8)} :
    Drained (first ++ rest) inbuf sock (first ++ pulled) ↔ Drained rest inbuf sock pulled := by
  have hdrop : (first ++ rest).drop (first ++ pulled).length = rest.drop pulled.length := by
    rw [List.length_append, ← List.drop_drop, List.drop_left]
  have hflat : (first ++ pulled).flatten ++ inbuf.contents ++ sock.rx = (first ++ rest).flatten
      ↔ pulled.flatten ++ inbuf.contents ++ sock.rx = rest.flatten := by
    rw [List.flatten_append, List.flatten_append, List.append_assoc, List.append_assoc,
      List.append_cancel_left_eq, List.append_assoc]
  constructor
  · rintro ⟨h1, h2, h3⟩
    exact ⟨(List.prefix_append_right_inj _).mp h1, hflat.mp h2, hdrop ▸ h3⟩
  · rintro ⟨h1, h2, h3⟩
    exact ⟨(List.prefix_append_right_inj _).mpr h1, hflat.mpr h2, hdrop ▸ h3⟩

/-- In particular messages that have arrived. -/
theorem drained_arrived_append_iff {msgs : List (List UInt8)} {inbuf : Msgbuf} {sock : Socket}
    {pulled : List (List UInt8)} {n : ℕ} :
    Drained msgs inbuf sock (arrived msgs n ++ pulled) ↔
      Drained (pending msgs n) inbuf sock pulled := by
  have h : Drained (arrived msgs n ++ pending msgs n) inbuf sock (arrived msgs n ++ pulled) ↔
      Drained (pending msgs n) inbuf sock pulled := drained_append_iff
  rwa [arrived_append_pending] at h

/-- Read by read, the inner loop stays framed, and after the last read the first message it
has not removed is not there in full. -/
def DrainsAll : List Transfer → List (List UInt8) → Msgbuf → Socket → Prop
  | [], msgs, m, _ => arrived msgs m.contents.length = []
  | t :: ts, msgs, m, sock =>
    let r := msgbufRead m sock t
    let n := r.2.2.toNat
    if r.2.2 ≤ 0 then arrived msgs m.contents.length = []
    else
      StaysFramed msgs r.1 n ∧
        DrainsAll ts (pending msgs n) (r.1.advance (arrived msgs n).flatten.length) r.2.1

/-- A read that delivers nothing leaves the stream where it is. -/
theorem drained_msgbufRead_iff {msgs : List (List UInt8)} {m : Msgbuf} {sock : Socket}
    (hstream : m.contents ++ sock.rx = msgs.flatten) (t : Transfer)
    (h : (msgbufRead m sock t).2.2 ≤ 0) :
    Drained msgs (msgbufRead m sock t).1 (msgbufRead m sock t).2.1 [] ↔
      arrived msgs m.contents.length = [] := by
  have hnil := received_eq_nil m sock t h
  have hcon : (msgbufRead m sock t).1.contents = m.contents := by
    rw [contents_msgbufRead, hnil, List.append_nil]
  have hrx : (msgbufRead m sock t).2.1.rx = sock.rx := by
    have := received_append_rx m sock t
    rwa [hnil, List.nil_append] at this
  rw [drained_nil_iff (by rw [hcon, hrx, hstream]), hcon]

section DrainReads

variable {m : Msgbuf} {sock : Socket} {t : Transfer}

/-- The outer loop ends with the first read that delivers nothing. -/
theorem drainReads_stop (ts : List Transfer) (h : (msgbufRead m sock t).2.2 ≤ 0) :
    drainReads (t :: ts) m sock
      = .ok ((msgbufRead m sock t).1, (msgbufRead m sock t).2.1, []) := by
  rw [drainReads]
  exact if_pos h

/-- Otherwise it goes on where the inner loop ends. -/
theorem drainReads_next (ts : List Transfer) {n : ℕ} (h : (msgbufRead m sock t).2.2 = n)
    (hpos : 0 < n) :
    drainReads (t :: ts) m sock
      = match drainLoop (n + 1) (msgbufRead m sock t).1 n with
        | none => .error .hang
        | some (inbuf, pulled) =>
          (drainReads ts inbuf (msgbufRead m sock t).2.1).map
            fun r => (r.1, r.2.1, pulled ++ r.2.2) := by
  rw [drainReads, h]
  exact if_neg (by omega)

end DrainReads

/-- What the outer loop removes, what it leaves and what it has not read make up the
stream, and nothing is written. -/
theorem drainReads_stream {ts : List Transfer} {m : Msgbuf} {sock : Socket}
    {r : Msgbuf × Socket × List (List UInt8)} (h : drainReads ts m sock = .ok r) :
    r.2.2.flatten ++ r.1.contents ++ r.2.1.rx = m.contents ++ sock.rx ∧
      r.2.1.tx = sock.tx := by
  induction ts generalizing m sock r with
  | nil =>
    cases h
    exact ⟨msgbufRead_stream m sock .error, rfl⟩
  | cons t ts ih =>
    by_cases hle : (msgbufRead m sock t).2.2 ≤ 0
    · rw [drainReads_stop ts hle] at h
      cases h
      exact ⟨msgbufRead_stream m sock t, rfl⟩
    obtain ⟨n, hpos, hres, hbuf⟩ := exists_msgbufRead_result m sock t (Int.not_le.mp hle)
    rw [drainReads_next ts hres hpos] at h
    rcases hloop : drainLoop (n + 1) (msgbufRead m sock t).1 n with - | r₁
    · rw [hloop] at h
      cases h
    · rw [hloop] at h
      obtain ⟨r₂, hr₂, rfl⟩ := map_eq_ok_iff.mp h
      obtain ⟨hstream, htx⟩ := ih hr₂
      refine ⟨?_, htx⟩
      rw [List.flatten_append, List.append_assoc, List.append_assoc,
        ← List.append_assoc _ _ r₂.2.1.rx, hstream, ← List.append_assoc,
        drainLoop_stream hbuf hloop, msgbufRead_stream]

/-- The outer loop drains the stream under `DrainsAll` and only then. -/
theorem drainReads_drains_iff (ts : List Transfer) {msgs : List (List UInt8)} {m : Msgbuf}
    {sock : Socket} (hms : ∀ a ∈ msgs, WellFormed a)
    (hstream : m.contents ++ sock.rx = msgs.flatten) :
    (∃ r, drainReads ts m sock = .ok r ∧ Drained msgs r.1 r.2.1 r.2.2) ↔
      DrainsAll ts msgs m sock := by
  induction ts generalizing msgs m sock with
  | nil =>
    rw [DrainsAll, ← drained_msgbufRead_iff hstream .error (Int.neg_nonpos_of_nonneg zero_le_one)]
    constructor
    · rintro ⟨r, ⟨⟩, h⟩
      exact h
    · exact fun h => ⟨_, rfl, h⟩
  | cons t ts ih =>
    rw [DrainsAll]
    by_cases hle : (msgbufRead m sock t).2.2 ≤ 0
    · rw [drainReads_stop ts hle, if_pos hle, ← drained_msgbufRead_iff hstream t hle]
      constructor
      · rintro ⟨r, ⟨⟩, h⟩
        exact h
      · exact fun h => ⟨_, rfl, h⟩
    -- the inner loop works on the `n` bytes just read
    rw [if_neg hle]
    obtain ⟨n, hpos, hres, hbuf⟩ := exists_msgbufRead_result m sock t (Int.not_le.mp hle)
    have hstream' := (msgbufRead_stream m sock t).trans hstream
    have hspec := drainLoop_spec hms hstream' hbuf (Msgbuf.advance_zero (by omega))
      (Nat.lt_succ_self n)
    rw [drainReads_next ts hres hpos, hres, Int.toNat_natCast]
    by_cases hsafe : StaysFramed msgs (msgbufRead m sock t).1 n
    · -- the messages removed are gone from the stream, and the next read is next
      have hrest := drop_flatten_arrived hbuf hstream'
      rw [← Msgbuf.contents_advance] at hrest
      have hpending : ∀ a ∈ pending msgs n, WellFormed a :=
        fun a ha => hms a (List.mem_of_mem_drop ha)
      rw [hspec.1 hsafe, and_iff_right hsafe, ← ih hpending hrest]
      constructor
      · rintro ⟨r, hr, h⟩
        obtain ⟨r', hr', rfl⟩ := map_eq_ok_iff.mp hr
        exact ⟨r', hr', drained_arrived_append_iff.mp h⟩
      · rintro ⟨r, hr, h⟩
        exact ⟨_, map_eq_ok_iff.mpr ⟨r, hr, rfl⟩, drained_arrived_append_iff.mpr h⟩
    · -- a hang, or a block that is no message
      refine ⟨?_, fun h => absurd h.1 hsafe⟩
      rintro ⟨r, hr, h⟩
      rcases hloop : drainLoop (n + 1) (msgbufRead m sock t).1 n with - | r'
      · rw [hloop] at hr
        cases hr
      · rw [hloop] at hr
        obtain ⟨r'', -, rfl⟩ := map_eq_ok_iff.mp hr
        obtain ⟨block, hmem, hshort⟩ := hspec.2 hsafe r' hloop
        have hwf := hms block (h.whole.subset (List.mem_append_left _ hmem))
        exact absurd hwf.header_le (Nat.not_le.mpr hshort)

/-! ## The call -/

/-- `switchGetCount` returns, has removed whole messages only, and leaves less than one
complete message in `inbuf`. -/
def DrainsInbuf (ts : List Transfer) (msgs : List (List UInt8)) (fs : Fakeswitch) : Prop :=
  ∃ count fs' pulled, switchGetCount ts fs = .ok (count, fs', pulled) ∧
    Drained msgs fs'.inbuf fs'.sock pulled

/-- It does so exactly under `DrainsAll`. -/
theorem switchGetCount_drains_iff (msgs : List (List UInt8)) (ts : List Transfer)
    (fs : Fakeswitch) (hms : ∀ m ∈ msgs, WellFormed m) (h : AtBoundary msgs fs) :
    DrainsInbuf ts msgs fs ↔ DrainsAll ts msgs fs.inbuf fs.sock := by
  rw [← drainReads_drains_iff ts hms h.stream]
  constructor
  · rintro ⟨count, fs', pulled, hr, hd⟩
    obtain ⟨r, hreads, heq⟩ := map_eq_ok_iff.mp hr
    cases heq
    exact ⟨r, hreads, hd⟩
  · rintro ⟨r, hr, hd⟩
    exact ⟨_, _, _, map_eq_ok_iff.mpr ⟨r, hr, rfl⟩, hd⟩

/-- A switch that has read the first four bytes of an ECHO_REQUEST. -/
def halfReadSwitch : Fakeswitch :=
  (readState (readUpTo 4) switch_config (connectedSwitch .latency (echoRequest 7))).fs

theorem switchGetCount_drains_iff_halfRead :
    DrainsInbuf [.upTo 4] [echoRequest 7] halfReadSwitch ↔
      DrainsAll [.upTo 4] [echoRequest 7] halfReadSwitch.inbuf halfReadSwitch.sock :=
  switchGetCount_drains_iff [echoRequest 7] [.upTo 4] halfReadSwitch (by decide) ⟨rfl, rfl⟩

/-- That is where `ofp13SwitchHandleRead` leaves it. When `switchGetCount` reads the other
four bytes, it compares the length 8 with these four, and keeps the whole request. -/
theorem not_drainsInbuf_halfRead :
    ofp13SwitchHandleRead (readUpTo 4) switch_config
        (connectedSwitch .latency (echoRequest 7)) = .ok (switch_config, halfReadSwitch, []) ∧
      ¬ DrainsInbuf [.upTo 4] [echoRequest 7] halfReadSwitch := by
  refine ⟨rfl, ?_⟩
  rintro ⟨count, fs', pulled, hr, hd⟩
  have hkept : (switchGetCount [.upTo 4] halfReadSwitch).map
      (fun r => (r.2.1.inbuf.contents, r.2.2)) = .ok (echoRequest 7, []) := rfl
  rw [hr] at hkept
  obtain ⟨hcon, hpulled⟩ : fs'.inbuf.contents = echoRequest 7 ∧ pulled = [] := by
    simpa [Except.map] using hkept
  have h := hd.incomplete
  rw [hcon, hpulled] at h
  exact absurd h (by decide)

end OfcBenchmark
