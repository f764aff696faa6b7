import OfcBenchmark.Lib.Doubling
import OfcBenchmark.RefillTheorems

/-!
# How large the send buffer grows

The space before `start` is free for use again only when the buffer drains completely, so `end`
is the number of bytes pushed since it was last empty, and not the number of bytes pending. The
storage stays within a power of two times `BUFLEN` exactly if these do (`capacity_bounded_iff`).
A controller that takes one byte at a time leaves something pending for ever, and no bound holds
(`not_capacity_bounded`).
-/

namespace OfcBenchmark
open ByteMemory Runs Doubling

/-! ## Pushes -/

namespace Msgbuf

theorem len_makeRoom (count fuel : ℕ) (m : Msgbuf) :
    (m.makeRoom count fuel).len = grow (m.stop + count) fuel m.len := by
  induction fuel generalizing m with
  | zero => rfl
  | succ fuel ih =>
    rw [makeRoom, grow]
    split
    · exact ih (msgbufGrow m)
    · rfl

theorem start_makeRoom (count fuel : ℕ) (m : Msgbuf) :
    (m.makeRoom count fuel).start = m.start := by
  induction fuel generalizing m with
  | zero => rfl
  | succ fuel ih =>
    rw [makeRoom]
    split
    · exact ih (msgbufGrow m)
    · rfl

/-- Push the messages one after the other. -/
def pushes (m : Msgbuf) (ms : List (List UInt8)) : Msgbuf := ms.foldl msgbufPush m

theorem pushes_append (m : Msgbuf) (ms ms' : List (List UInt8)) :
    m.pushes (ms ++ ms') = (m.pushes ms).pushes ms' := List.foldl_append

theorem pushes_concat (m : Msgbuf) (ms : List (List UInt8)) (bs : List UInt8) :
    m.pushes (ms ++ [bs]) = msgbufPush (m.pushes ms) bs := m.pushes_append ms [bs]

end Msgbuf

section Push

variable (m : Msgbuf) (bs : List UInt8)

theorem stop_msgbufPush : (msgbufPush m bs).stop = m.stop + bs.length := by
  show (m.makeRoom bs.length (m.stop + bs.length)).stop + bs.length = _
  rw [Msgbuf.makeRoom_stop]

theorem start_msgbufPush : (msgbufPush m bs).start = m.start := Msgbuf.start_makeRoom _ _ m

theorem len_msgbufPush :
    (msgbufPush m bs).len = grow (m.stop + bs.length) (m.stop + bs.length) m.len :=
  Msgbuf.len_makeRoom _ _ m

/-- A push keeps the storage within a bound that `end` stays within. -/
theorem len_msgbufPush_le_iff {m : Msgbuf} {c r : ℕ} (hm : Doubled c m.len) (hr : Doubled c r)
    (bs : List UInt8) :
    (msgbufPush m bs).len ≤ r ↔ m.len ≤ r ∧ m.stop + bs.length ≤ r := by
  constructor
  · intro hle
    have hgrown : m.len ≤ (msgbufPush m bs).len := by
      rw [len_msgbufPush]
      exact le_grow _ _ _
    have hfits := (msgbufPush m bs).stop_le
    rw [stop_msgbufPush] at hfits
    exact ⟨hgrown.trans hle, hfits.trans hle⟩
  · rintro ⟨hle, hneed⟩
    rw [len_msgbufPush]
    exact grow_le hm hr hle hneed _

theorem doubled_msgbufPush {m : Msgbuf} {c : ℕ} (h : Doubled c m.len) (bs : List UInt8) :
    Doubled c (msgbufPush m bs).len := by
  rw [len_msgbufPush]
  exact doubled_grow _ _ h

end Push

namespace Msgbuf

variable {m : Msgbuf} {c r : ℕ}

theorem stop_pushes (m : Msgbuf) (ms : List (List UInt8)) :
    (m.pushes ms).stop = m.stop + ms.flatten.length := by
  induction ms generalizing m with
  | nil => rfl
  | cons bs ms ih =>
    show ((msgbufPush m bs).pushes ms).stop = _
    rw [ih, stop_msgbufPush, List.flatten_cons, List.length_append, Nat.add_assoc]

theorem start_pushes (m : Msgbuf) (ms : List (List UInt8)) : (m.pushes ms).start = m.start := by
  induction ms generalizing m with
  | nil => rfl
  | cons bs ms ih =>
    show ((msgbufPush m bs).pushes ms).start = _
    rw [ih, start_msgbufPush]

theorem doubled_pushes (h : Doubled c m.len) (ms : List (List UInt8)) :
    Doubled c (m.pushes ms).len := by
  induction ms generalizing m with
  | nil => exact h
  | cons bs ms ih => exact ih (doubled_msgbufPush h bs)

theorem len_pushes_le_iff (hm : Doubled c m.len) (hr : Doubled c r) (ms : List (List UInt8)) :
    (m.pushes ms).len ≤ r ↔ m.len ≤ r ∧ m.stop + ms.flatten.length ≤ r := by
  induction ms generalizing m with
  | nil =>
    have hle := m.stop_le
    show m.len ≤ r ↔ m.len ≤ r ∧ m.stop + 0 ≤ r
    omega
  | cons bs ms ih =>
    show ((msgbufPush m bs).pushes ms).len ≤ r ↔ _
    rw [ih (doubled_msgbufPush hm bs), len_msgbufPush_le_iff hm hr, stop_msgbufPush,
      List.flatten_cons, List.length_append]
    omega

/-- The pushes grow the storage only. -/
theorem len_le_pushes (m : Msgbuf) (ms : List (List UInt8)) : m.len ≤ (m.pushes ms).len :=
  ((len_pushes_le_iff (.refl m.len) (doubled_pushes (.refl m.len) ms) ms).mp le_rfl).1

@[simp] theorem len_advance (m : Msgbuf) (n : ℕ) : (m.advance n).len = m.len := by
  unfold advance
  split <;> rfl

end Msgbuf

/-! ## One step -/

theorem outbuf_queueProbe_iterate (buf : Mem) (n : ℕ) (fs : Fakeswitch) :
    ((queueProbe buf)^[n] fs).outbuf
      = fs.outbuf.pushes ((List.range n).map fun k => probe buf ((queueProbe buf)^[k] fs)) := by
  induction n with
  | zero => rfl
  | succ n ih =>
    rw [Function.iterate_succ_apply', List.range_succ, List.map_append, List.map_singleton,
      Msgbuf.pushes_concat, ← ih]
    rfl

/-- A write step pushes its messages in their order. -/
theorem outbuf_writeStep (env : WriteEnv) (fs : Fakeswitch) :
    (writeStep env fs).outbuf = fs.outbuf.pushes (probes env.buf fs ++ gratuitousArps fs) := by
  by_cases hready : fs.switchStatus = .readyToSend
  · rw [writeStep_ready env hready, gratuitousArps_of_ne (by rw [hready]; decide), List.append_nil,
      probes, if_pos hready]
    exact outbuf_queueProbe_iterate env.buf (sendCount fs) fs
  rw [probes_of_ne hready, List.nil_append]
  by_cases hlearn : fs.switchStatus = .learnDstmac
  · obtain ⟨_, _, _, _, _, hframe⟩ :=
      switchChangeStatus_frame env.now (ofp13SwitchLearnDstmac fs) .readyToSend
    rw [writeStep, hlearn, gratuitousArps, if_pos hlearn]
    dsimp only
    rw [hframe]
    rfl
  · obtain ⟨_, _, _, _, _, -, hframe⟩ := writeStep_of_ne env hready hlearn
    rw [gratuitousArps_of_ne hlearn, hframe]
    rfl

/-- Sending moves `start` on. -/
theorem outbuf_flushOutbuf {fs : Fakeswitch} (h : 0 < msgbufCountBuffered fs.outbuf)
    (t : Transfer) :
    (flushOutbuf t fs).outbuf
      = fs.outbuf.advance (t.accepted (msgbufCountBuffered fs.outbuf)) := by
  rw [flushOutbuf, if_pos h]
  rfl

/-- What a step does to `outbuf`: it pushes what it queues, and it may send some of it. -/
theorem outbuf_step {s s' : SwitchState} {e : SwitchEvent} (h : ProgramStep s e s') :
    s'.fs.outbuf = s.fs.outbuf.pushes (queued ⟨s, e, s'⟩) ∨
      ∃ n, s'.fs.outbuf = (s.fs.outbuf.pushes (queued ⟨s, e, s'⟩)).advance n := by
  cases programMove_of_step h with
  | receive env => exact .inl rfl
  | message role now buf ofph length hnext =>
    exact .inl (ofp13HandleMessage_outbuf_eq role now ofph
      (ReadState.pull ⟨s.config, s.fs, buf⟩ length))
  | write env =>
    have hqueued := outbuf_writeStep env s.fs
    by_cases hpending : 0 < msgbufCountBuffered (writeStep env s.fs).outbuf
    · refine .inr ⟨env.transfer.accepted (msgbufCountBuffered (writeStep env s.fs).outbuf), ?_⟩
      refine (outbuf_flushOutbuf hpending env.transfer).trans ?_
      rw [hqueued]
      rfl
    · have hkept : ofp13SwitchHandleWrite env s.fs = writeStep env s.fs := if_neg hpending
      exact .inl ((congrArg Fakeswitch.outbuf hkept).trans hqueued)
  | getCount ts inbuf sock pulled hcount => exact .inl rfl
  | configure config => exact .inl rfl

/-! ## The backlog -/

/-- The bytes a step queues. -/
def bytesQueued (t : SwitchTransition) : ℕ := (queued t).flatten.length

/-- The bytes queued since `outbuf` was last empty, after a step more. -/
def nextBacklog (n : ℕ) (t : SwitchTransition) : ℕ :=
  if t.post.fs.outbuf.contents = [] then 0 else n + bytesQueued t

/-- And after the steps of a history, with `n` at its start. -/
def backlog (n : ℕ) (history : List SwitchTransition) : ℕ := history.foldl nextBacklog n

/-- In no step of the history does the switch get beyond `r` bytes queued since `outbuf` was last
empty. -/
def BacklogWithin (r n : ℕ) (history : List SwitchTransition) : Prop :=
  ∀ before t after, history = before ++ t :: after → backlog n before + bytesQueued t ≤ r

theorem backlogWithin_nil (r n : ℕ) : BacklogWithin r n [] := by
  intro before t after h
  exact absurd h.symm (List.append_ne_nil_of_right_ne_nil _ (List.cons_ne_nil _ _))

theorem backlogWithin_cons_iff (r n : ℕ) (t : SwitchTransition)
    (history : List SwitchTransition) :
    BacklogWithin r n (t :: history)
      ↔ n + bytesQueued t ≤ r ∧ BacklogWithin r (nextBacklog n t) history := by
  constructor
  · intro h
    refine ⟨h [] t history rfl, fun before t' after heq => ?_⟩
    exact h (t :: before) t' after (by rw [heq, List.cons_append])
  · rintro ⟨hfirst, hrest⟩ before t' after heq
    cases before with
    | nil =>
      obtain ⟨rfl, -⟩ := List.cons.inj heq
      exact hfirst
    | cons t'' before =>
      obtain ⟨rfl, hsplit⟩ := List.cons.inj heq
      exact hrest before t' after hsplit

/-- `end` is the number of bytes queued since the buffer was last empty. -/
structure Backlogged (n : ℕ) (m : Msgbuf) : Prop where
  stop_eq : m.stop = n
  drained : m.contents = [] → m.stop = 0

theorem contents_eq_nil_iff (m : Msgbuf) : m.contents = [] ↔ m.stop ≤ m.start := by
  rw [← List.length_eq_zero_iff, Msgbuf.length_contents, msgbufCountBuffered]
  omega

theorem Backlogged.step {n : ℕ} {s s' : SwitchState} {e : SwitchEvent}
    (h : Backlogged n s.fs.outbuf) (hstep : ProgramStep s e s') :
    Backlogged (nextBacklog n ⟨s, e, s'⟩) s'.fs.outbuf := by
  have hstop := Msgbuf.stop_pushes s.fs.outbuf (queued ⟨s, e, s'⟩)
  have hstart := Msgbuf.start_pushes s.fs.outbuf (queued ⟨s, e, s'⟩)
  have hempty : s.fs.outbuf.stop ≤ s.fs.outbuf.start → s.fs.outbuf.stop = 0 := fun hle =>
    h.drained ((contents_eq_nil_iff _).mpr hle)
  have hn := h.stop_eq
  have hle := s.fs.outbuf.start_le
  have hnext : nextBacklog n ⟨s, e, s'⟩ = if s'.fs.outbuf.stop ≤ s'.fs.outbuf.start then 0
      else n + (queued ⟨s, e, s'⟩).flatten.length := by
    simp only [nextBacklog, contents_eq_nil_iff]
    rfl
  rcases outbuf_step hstep with hout | ⟨k, hout⟩
  -- without a write the buffer is empty only if it was and nothing is queued
  · rw [← hout] at hstop hstart
    constructor
    · rw [hnext]
      split_ifs <;> omega
    · rw [contents_eq_nil_iff]
      omega
  · unfold Msgbuf.advance at hout
    -- `start` has caught up with `end`, and both are reset
    split at hout
    · have hstop' : s'.fs.outbuf.stop = 0 := by rw [hout]
      refine ⟨?_, fun _ => hstop'⟩
      rw [hnext, if_pos (by omega), hstop']
    · rename_i hrest
      have hstop' : s'.fs.outbuf.stop = (s.fs.outbuf.pushes (queued ⟨s, e, s'⟩)).stop := by
        rw [hout]
      have hstart' : s'.fs.outbuf.start = (s.fs.outbuf.pushes (queued ⟨s, e, s'⟩)).start + k := by
        rw [hout]
      -- something is pending still, and `end` keeps counting
      constructor
      · rw [hnext, if_neg (by omega), hstop', hstop, hn]
      · rw [contents_eq_nil_iff]
        omega

theorem len_outbuf_step {s s' : SwitchState} {e : SwitchEvent} (hstep : ProgramStep s e s') :
    s'.fs.outbuf.len = (s.fs.outbuf.pushes (queued ⟨s, e, s'⟩)).len := by
  rcases outbuf_step hstep with hout | ⟨k, hout⟩
  · rw [hout]
  · rw [hout, Msgbuf.len_advance]

theorem doubled_outbuf_step {c : ℕ} {s s' : SwitchState} {e : SwitchEvent}
    (h : Doubled c s.fs.outbuf.len) (hstep : ProgramStep s e s') :
    Doubled c s'.fs.outbuf.len := by
  rw [len_outbuf_step hstep]
  exact Msgbuf.doubled_pushes h _

/-- The storage stays within a bound exactly if the backlog does. -/
theorem len_le_iff_backlogWithin {c r n : ℕ} {s s' : SwitchState}
    {history : List SwitchTransition} (hrun : Run ProgramStep s history s')
    (hr : Doubled c r) (hlen : Doubled c s.fs.outbuf.len) (hle : s.fs.outbuf.len ≤ r)
    (h : Backlogged n s.fs.outbuf) :
    (∀ t ∈ history, t.post.fs.outbuf.len ≤ r) ↔ BacklogWithin r n history := by
  -- by induction on the run, whose first step leaves the next backlog
  induction hrun generalizing n with
  | nil s => exact iff_of_true (fun _ ht => absurd ht List.not_mem_nil) (backlogWithin_nil r n)
  | @cons s s₁ s' e history hfirst _ ih =>
    have hiff : s₁.fs.outbuf.len ≤ r ↔ n + bytesQueued ⟨s, e, s₁⟩ ≤ r := by
      rw [len_outbuf_step hfirst, Msgbuf.len_pushes_le_iff hlen hr, h.stop_eq]
      exact and_iff_right hle
    rw [List.forall_mem_cons, backlogWithin_cons_iff, ← hiff]
    apply and_congr_right
    intro hle₁
    exact ih (doubled_outbuf_step hlen hfirst) hle₁ (h.step hfirst)

/-! ## Sizes that fit an `int` -/

/-- In no push of a step does `end + count` or the doubling of `len` overflow an `int`. The
doublings of a push end with the `len` after it. -/
def FitsInt (t : SwitchTransition) : Prop :=
  ∀ ms bs ms', queued t = ms ++ bs :: ms' →
    (t.pre.fs.outbuf.pushes ms).stop + bs.length < 2 ^ 31 ∧
      (msgbufPush (t.pre.fs.outbuf.pushes ms) bs).len < 2 ^ 31

theorem doubled_two_pow : Doubled BUFLEN (2 ^ 30) := ⟨14, rfl⟩

theorem fitsInt_iff {s s' : SwitchState} {e : SwitchEvent} (hstep : ProgramStep s e s')
    (hlen : Doubled BUFLEN s.fs.outbuf.len) (hle : s.fs.outbuf.len ≤ 2 ^ 30) :
    FitsInt ⟨s, e, s'⟩ ↔ s'.fs.outbuf.len ≤ 2 ^ 30 := by
  have hdoubled : ∀ ms,
      (s.fs.outbuf.pushes ms).len < 2 ^ 31 ↔ (s.fs.outbuf.pushes ms).len ≤ 2 ^ 30 := fun ms =>
    (Msgbuf.doubled_pushes hlen ms).lt_two_mul_iff doubled_two_pow (by norm_num)
  rw [len_outbuf_step hstep]
  constructor
  -- the last push leaves the storage of the step
  · intro h
    rcases List.eq_nil_or_concat (queued ⟨s, e, s'⟩) with hnil | ⟨ms, bs, hconcat⟩
    · rw [hnil]
      exact hle
    · rw [List.concat_eq_append] at hconcat
      have hlast := (h ms bs [] hconcat).2
      rw [hconcat, ← hdoubled, Msgbuf.pushes_concat]
      exact hlast
  -- the pushes before it leave no more
  · intro h ms bs ms' hqueued
    have hle' : (msgbufPush (s.fs.outbuf.pushes ms) bs).len ≤ 2 ^ 30 := by
      rw [hqueued, List.append_cons, Msgbuf.pushes_append, Msgbuf.pushes_concat] at h
      exact (Msgbuf.len_le_pushes _ ms').trans h
    have hstop := (msgbufPush (s.fs.outbuf.pushes ms) bs).stop_le
    rw [stop_msgbufPush] at hstop
    constructor
    · exact (hstop.trans hle').trans_lt (by norm_num)
    · exact hle'.trans_lt (by norm_num)

/-- All along a run no size overflows exactly if the storage stays within 2^30 bytes. -/
theorem fitsInt_iff_len_le {s s' : SwitchState} {history : List SwitchTransition}
    (hrun : Run ProgramStep s history s') (hlen : Doubled BUFLEN s.fs.outbuf.len)
    (hle : s.fs.outbuf.len ≤ 2 ^ 30) :
    (∀ t ∈ history, FitsInt t) ↔ ∀ t ∈ history, t.post.fs.outbuf.len ≤ 2 ^ 30 := by
  induction hrun with
  | nil s =>
    exact iff_of_true (fun _ ht => absurd ht List.not_mem_nil)
      fun _ ht => absurd ht List.not_mem_nil
  | @cons s s₁ s' e history hfirst _ ih =>
    rw [List.forall_mem_cons, List.forall_mem_cons, fitsInt_iff hfirst hlen hle]
    apply and_congr_right
    intro hle₁
    exact ih (doubled_outbuf_step hlen hfirst) hle₁

/-- Then it does so at its end. -/
theorem len_le_of_fitsInt {s s' : SwitchState} {history : List SwitchTransition}
    (hrun : Run ProgramStep s history s') (hlen : Doubled BUFLEN s.fs.outbuf.len)
    (hle : s.fs.outbuf.len ≤ 2 ^ 30) (h : ∀ t ∈ history, FitsInt t) :
    s'.fs.outbuf.len ≤ 2 ^ 30 := by
  induction hrun with
  | nil s => exact hle
  | @cons s s₁ s' e history hfirst _ ih =>
    obtain ⟨hfits, hrest⟩ := List.forall_mem_cons.mp h
    exact ih (doubled_outbuf_step hlen hfirst) ((fitsInt_iff hfirst hlen hle).mp hfits) hrest

/-! ## From `switchInit` on -/

section Capacity

variable (config : OfpSwitchConfig) (fs : Fakeswitch) (dpid : ℤ) (sock : Socket)
  (delay nMacAddresses : ℤ) (mode : TestMode) (learnDstMac : Bool) (version : UInt8)
  (inMem outMem stack : Mem)

/-- The HELLO is the first backlog. -/
theorem backlogged_switchInit :
    Backlogged OfpHeader.size (switchInit fs dpid sock BUFLEN BUFLEN_pos delay mode nMacAddresses
      learnDstMac version inMem outMem stack).outbuf := by
  constructor
  · exact stop_msgbufPush _ _
  · intro hempty
    have hcontents := contents_msgbufPush (msgbufNew outMem BUFLEN BUFLEN_pos) (hello version)
    rw [show msgbufPush _ (hello version) = (switchInit fs dpid sock BUFLEN BUFLEN_pos delay mode
      nMacAddresses learnDstMac version inMem outMem stack).outbuf from rfl, hempty] at hcontents
    cases hcontents

theorem len_switchInit :
    (switchInit fs dpid sock BUFLEN BUFLEN_pos delay mode nMacAddresses learnDstMac version inMem
      outMem stack).outbuf.len = BUFLEN := by
  show (msgbufPush (msgbufNew outMem BUFLEN BUFLEN_pos) (hello version)).len = _
  rw [len_msgbufPush]
  rfl

/-- In every run from `switchInit` on, the storage of `outbuf` stays within `K * BUFLEN` bytes
exactly if the bytes queued between two moments at which it is empty stay within the power of two
below `K` times `BUFLEN`, and no size overflows an `int` exactly if they stay within 2^30. -/
theorem capacity_bounded_iff (K : ℕ) (hK : 0 < K) (history : List SwitchTransition)
    (s' : SwitchState)
    (hrun : Run ProgramStep
      ⟨config, switchInit fs dpid sock BUFLEN BUFLEN_pos delay mode nMacAddresses learnDstMac
        version inMem outMem stack⟩ history s') :
    ((∀ t ∈ history, t.post.fs.outbuf.len ≤ K * BUFLEN)
        ↔ BacklogWithin (2 ^ Nat.log 2 K * BUFLEN) OfpHeader.size history) ∧
      ((∀ t ∈ history, FitsInt t) ↔ BacklogWithin (2 ^ 30) OfpHeader.size history) := by
  have hback := backlogged_switchInit fs dpid sock delay nMacAddresses mode learnDstMac version
    inMem outMem stack
  have hinit := len_switchInit fs dpid sock delay nMacAddresses mode learnDstMac version inMem
    outMem stack
  have hlen : Doubled BUFLEN (switchInit fs dpid sock BUFLEN BUFLEN_pos delay mode nMacAddresses
      learnDstMac version inMem outMem stack).outbuf.len := by
    rw [hinit]
    exact .refl BUFLEN
  constructor
  -- the storage is a power of two times BUFLEN, so a bound between two of them is the lower one
  · have hdoubled : ∀ t ∈ history, Doubled BUFLEN t.post.fs.outbuf.len := by
      have hsteps : ∀ (s : SwitchState) (e : SwitchEvent) (s' : SwitchState),
          Doubled BUFLEN s.fs.outbuf.len → ProgramStep s e s' → Doubled BUFLEN s'.fs.outbuf.len :=
        fun _ _ _ h hstep => doubled_outbuf_step h hstep
      exact fun t ht => ((hrun.invariant hsteps hlen).2 t ht).2
    have hle : (switchInit fs dpid sock BUFLEN BUFLEN_pos delay mode nMacAddresses learnDstMac
        version inMem outMem stack).outbuf.len ≤ 2 ^ Nat.log 2 K * BUFLEN := by
      rw [hinit]
      exact Nat.le_mul_of_pos_left _ (by positivity)
    rw [← len_le_iff_backlogWithin hrun (.mul_two_pow BUFLEN (Nat.log 2 K)) hlen hle hback]
    exact forall₂_congr fun t ht => (hdoubled t ht).le_mul_iff hK
  · have hle : (switchInit fs dpid sock BUFLEN BUFLEN_pos delay mode nMacAddresses learnDstMac
        version inMem outMem stack).outbuf.len ≤ 2 ^ 30 := by
      rw [hinit]
      decide
    rw [fitsInt_iff_len_le hrun hlen hle]
    exact len_le_iff_backlogWithin hrun doubled_two_pow hlen hle hback

end Capacity

/-- Up to READY_TO_SEND the storage need not grow: the theorem at `K = 1`. -/
theorem capacity_bounded_iff_learning :
    ∃ history s', Run ProgramStep
        ⟨switch_config, switchInit (malloced false) 1 ⟨handshakeRequests, []⟩ BUFLEN BUFLEN_pos 0
          .throughput 100000 true OFP131_VERSION (fun _ => 0) (fun _ => 0) (fun _ => 0)⟩
        history s' ∧ s'.fs.switchStatus = .readyToSend ∧
      ((∀ t ∈ history, t.post.fs.outbuf.len ≤ 1 * BUFLEN)
          ↔ BacklogWithin (2 ^ Nat.log 2 1 * BUFLEN) OfpHeader.size history) ∧
        ((∀ t ∈ history, FitsInt t) ↔ BacklogWithin (2 ^ 30) OfpHeader.size history) := by
  obtain ⟨received, features, portDesc, writes, s', hrun, -, -, -, -, hready, -, -⟩ :=
    exists_ready switch_config (malloced false) 1 BUFLEN BUFLEN_pos 0 .throughput 100000 true
      OFP131_VERSION (fun _ => 0) (fun _ => 0) (fun _ => 0)
  exact ⟨_, s', hrun, hready, capacity_bounded_iff switch_config (malloced false) 1
    ⟨handshakeRequests, []⟩ 0 100000 .throughput true OFP131_VERSION (fun _ => 0) (fun _ => 0)
    (fun _ => 0) 1 Nat.one_pos _ s' hrun⟩

/-! ## A controller that reads slowly -/

/-- A write step in READY_TO_SEND of which the connection takes something. -/
def TakesSome (t : SwitchTransition) : Prop :=
  t.pre.fs.switchStatus = .readyToSend ∧
    ∃ env k, t.event = .write env ∧ env.transfer = .upTo k ∧ 0 < k

section TakesOne

variable {fs : Fakeswitch}

theorem switchStatus_queueProbe_iterate (buf : Mem) (n : ℕ) (fs : Fakeswitch) :
    ((queueProbe buf)^[n] fs).switchStatus = fs.switchStatus := by
  induction n with
  | zero => rfl
  | succ n ih =>
    rw [Function.iterate_succ_apply']
    exact ih

/-- After the refill more is pending than the connection takes. -/
theorem ThroughputMode.two_le_buffered (h : ThroughputMode fs)
    (hready : fs.switchStatus = .readyToSend) (env : WriteEnv) :
    2 ≤ msgbufCountBuffered (writeStep env fs).outbuf := by
  have hrefill := h.refill hready env
  have hsize := h.probeSize_eq
  have hbuflen : BUFLEN = 65536 := rfl
  by_cases hlt : msgbufCountBuffered fs.outbuf < BUFLEN
  · have hroom := (hrefill.buffered hlt).1
    omega
  · have hcontents := hrefill.queues
    rw [hrefill.idle (Nat.le_of_not_lt hlt), List.flatten_nil, List.append_nil] at hcontents
    rw [← Msgbuf.length_contents, hcontents, Msgbuf.length_contents]
    omega

/-- So `start` moves on by what it takes, and never back. -/
theorem ThroughputMode.takesOne (h : ThroughputMode fs) (hready : fs.switchStatus = .readyToSend) :
    (ofp13SwitchHandleWrite (writeUpTo 1) fs).switchStatus = .readyToSend ∧
      (ofp13SwitchHandleWrite (writeUpTo 1) fs).outbuf.start = fs.outbuf.start + 1 := by
  have hpending := h.two_le_buffered hready (writeUpTo 1)
  have hstart : (writeStep (writeUpTo 1) fs).outbuf.start = fs.outbuf.start := by
    rw [outbuf_writeStep, Msgbuf.start_pushes]
  constructor
  · rw [ofp13SwitchHandleWrite_switchStatus, writeStep_ready _ hready,
      switchStatus_queueProbe_iterate, hready]
  · have haccepted : (Transfer.upTo 1).accepted
        (msgbufCountBuffered (writeStep (writeUpTo 1) fs).outbuf) = 1 := by
      show min 1 _ = 1
      omega
    have hout : (ofp13SwitchHandleWrite (writeUpTo 1) fs).outbuf
        = (writeStep (writeUpTo 1) fs).outbuf.advance 1 := by
      have hflush := outbuf_flushOutbuf
        (show 0 < msgbufCountBuffered (writeStep (writeUpTo 1) fs).outbuf by omega)
        (writeUpTo 1).transfer
      rw [show (writeUpTo 1).transfer = .upTo 1 from rfl, haccepted] at hflush
      exact hflush
    rw [msgbufCountBuffered] at hpending
    rw [hout, Msgbuf.advance, dif_neg (by omega)]
    show (writeStep (writeUpTo 1) fs).outbuf.start + 1 = _
    rw [hstart]

end TakesOne

/-- A connection that takes a byte at a time moves `start` as far as one likes. -/
theorem exists_start_le (config : OfpSwitchConfig) {fs : Fakeswitch} (h : ThroughputMode fs)
    (hready : fs.switchStatus = .readyToSend) (n : ℕ) :
    ∃ history fs', Run ProgramStep ⟨config, fs⟩ history ⟨config, fs'⟩ ∧
      (∀ t ∈ history, TakesSome t) ∧ ThroughputMode fs' ∧ fs'.switchStatus = .readyToSend ∧
      n ≤ fs'.outbuf.start := by
  induction n with
  | zero =>
    exact ⟨[], fs, .nil _, fun _ ht => absurd ht List.not_mem_nil, h, hready, Nat.zero_le _⟩
  | succ n ih =>
    -- the last step of the run takes the one byte more
    obtain ⟨history, fs', hrun, htakes, hmode, hstatus, hle⟩ := ih
    obtain ⟨hnext, hstart⟩ := hmode.takesOne hstatus
    have hwrite := programStep_write (writeUpTo 1) config fs'
    refine ⟨history ++ [_], _, hrun.append (.single hwrite), ?_, hmode.step hwrite, hnext, ?_⟩
    · rw [List.forall_mem_append, List.forall_mem_singleton]
      exact ⟨htakes, hstatus, writeUpTo 1, 1, rfl, rfl, Nat.one_pos⟩
    · rw [hstart]
      exact Nat.succ_le_succ hle

/-- From a state in READY_TO_SEND the storage outgrows every bound, and the sizes an `int`. -/
theorem not_capacity_bounded :
    ∃ handshake s, Run ProgramStep
        ⟨switch_config, switchInit (malloced false) 1 ⟨handshakeRequests, []⟩ BUFLEN BUFLEN_pos 0
          .throughput 100000 true OFP131_VERSION (fun _ => 0) (fun _ => 0) (fun _ => 0)⟩
        handshake s ∧ s.fs.switchStatus = .readyToSend ∧
      (¬ ∃ K, ∀ history s', Run ProgramStep s history s' → (∀ t ∈ history, TakesSome t) →
        s'.fs.outbuf.len ≤ K * BUFLEN) ∧
      ¬ ∀ history s', Run ProgramStep s history s' → (∀ t ∈ history, TakesSome t) →
        ∀ t ∈ handshake ++ history, FitsInt t := by
  obtain ⟨received, features, portDesc, writes, ⟨config, fs⟩, hrun, -, -, -, -, hready, -, -⟩ :=
    exists_ready switch_config (malloced false) 1 BUFLEN BUFLEN_pos 0 .throughput 100000 true
      OFP131_VERSION (fun _ => 0) (fun _ => 0) (fun _ => 0)
  have hsteps : ∀ (s : SwitchState) (e : SwitchEvent) (s' : SwitchState),
      ThroughputMode s.fs → ProgramStep s e s' → ThroughputMode s'.fs :=
    fun _ _ _ hmode hstep => hmode.step hstep
  have hmode : ThroughputMode fs := (hrun.invariant hsteps ⟨rfl, rfl⟩).1
  refine ⟨_, ⟨config, fs⟩, hrun, hready, ?_, ?_⟩
  · rintro ⟨K, hbound⟩
    obtain ⟨history, fs', hslow, htakes, -, -, hstart⟩ :=
      exists_start_le config hmode hready (K * BUFLEN + 1)
    have hlen : fs'.outbuf.len ≤ K * BUFLEN := hbound history _ hslow htakes
    have hle := fs'.outbuf.start_le.trans fs'.outbuf.stop_le
    omega
  · intro hfits
    obtain ⟨history, fs', hslow, htakes, -, -, hstart⟩ :=
      exists_start_le config hmode hready (2 ^ 30 + 1)
    have hall := hfits history _ hslow htakes
    have hinit := len_switchInit (malloced false) 1 ⟨handshakeRequests, []⟩ 0 100000 .throughput
      true OFP131_VERSION (fun _ => 0) (fun _ => 0) (fun _ => 0)
    have hlen : fs'.outbuf.len ≤ 2 ^ 30 := len_le_of_fitsInt (hrun.append hslow)
      (by rw [hinit]; exact .refl BUFLEN) (by rw [hinit]; decide) hall
    have hle := fs'.outbuf.start_le.trans fs'.outbuf.stop_le
    omega

end OfcBenchmark
