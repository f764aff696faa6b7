import OfcBenchmark.Lib.Runs
import OfcBenchmark.MsgbufTheorems

/-!
# Runs of a message buffer

The operations of `msgbuf.h` in any order, against a queue of bytes that knows nothing of
indices, storage and growth (`FifoStep`). `Msgbuf.contents` takes every run of a buffer to a
run of the queue (`msgbuf_refinesFifo`).
-/

namespace OfcBenchmark
open ByteMemory Runs

/-! ## Operations -/

/-- An operation of `msgbuf.h`, with what the system answers in it. `copy` tells whether
`msgbufPull` has a destination. -/
inductive MsgbufOp
  | push (bs : List UInt8)
  | read (sock : Socket) (t : Transfer)
  | write (sock : Socket) (len : ℕ) (t : Transfer)
  | pull (count : ℤ) (copy : Bool)
  | peek
  | clear

/-- Whether an operation is a `msgbufPush`. -/
def MsgbufOp.isPush : MsgbufOp → Bool
  | .push _ => true
  | _ => false

/-- What the caller of an operation sees of it: the value returned, 0 where there is none;
the bytes taken from the socket, written to it or copied out; the pointer returned. -/
structure MsgbufResult where
  count : ℤ
  bytes : List UInt8
  pointer : Option Mem

/-- An operation on a buffer. -/
def runOp (m : Msgbuf) : MsgbufOp → Msgbuf × MsgbufResult
  | .push bs => (msgbufPush m bs, ⟨0, [], none⟩)
  | .read sock t =>
    let r := msgbufRead m sock t
    (r.1, ⟨r.2.2, sock.rx.take (sock.rx.length - r.2.1.rx.length), none⟩)
  | .write sock len t =>
    let r := msgbufWrite m sock len t
    (r.1, ⟨r.2.2, r.2.1.tx.drop sock.tx.length, none⟩)
  | .pull count copy =>
    let r := msgbufPull m count
    (r.1, ⟨r.2.2, if copy then r.2.1 else [], none⟩)
  | .peek => (m, ⟨0, [], msgbufPeek m⟩)
  | .clear => (msgbufClear m, ⟨0, [], none⟩)

/-- An operation as a step, together with its result. -/
def MsgbufStep (m : Msgbuf) (e : MsgbufOp × MsgbufResult) (m' : Msgbuf) : Prop :=
  runOp m e.1 = (m', e.2)

/-- A step of a buffer. -/
abbrev MsgbufTransition := Transition Msgbuf (MsgbufOp × MsgbufResult)

/-- The operations one after the other. -/
def runOps : List MsgbufOp → Msgbuf → List MsgbufTransition × Msgbuf
  | [], m => ([], m)
  | op :: ops, m =>
    let r := runOp m op
    let rest := runOps ops r.1
    (⟨m, (op, r.2), r.1⟩ :: rest.1, rest.2)

/-- Every sequence of operations makes a run. -/
theorem run_runOps (ops : List MsgbufOp) (m : Msgbuf) :
    Run MsgbufStep m (runOps ops m).1 (runOps ops m).2 := by
  induction ops generalizing m with
  | nil => exact .nil m
  | cons op ops ih => exact .cons rfl (ih (runOp m op).1)

/-! ## The queue -/

/-- What an operation with the result `r` is to do to a queue `q`. Bytes enter at the back
and leave at the front, as many as the operation says it has moved, and a negative result
moves none. -/
def FifoStep (q : List UInt8) (e : MsgbufOp × MsgbufResult) (q' : List UInt8) : Prop :=
  let r := e.2
  match e.1 with
  | .push bs => q' = q ++ bs
  | .read sock _ =>
    -1 ≤ r.count ∧ r.bytes.length = r.count.toNat ∧ r.bytes = sock.rx.take r.count.toNat ∧
      q' = q ++ r.bytes
  | .write _ len _ =>
    -1 ≤ r.count ∧ r.bytes.length = r.count.toNat ∧ q = r.bytes ++ q' ∧
      (0 < len → r.bytes.length ≤ len ∧ (q.length < len → r.count = -1))
  | .pull count copy =>
    r.count = (if min count q.length ≤ 0 then -1 else min count q.length) ∧
      q' = q.drop r.count.toNat ∧ r.bytes = if copy then q.take r.count.toNat else []
  | .peek =>
    q' = q ∧ (r.pointer = none ↔ q = []) ∧ ∀ p, r.pointer = some p → p.read 0 q.length = q
  | .clear => q' = []

/-! ## One operation -/

/-- A call fails with -1, or returns how many bytes it has moved. -/
theorem neg_one_le_result (t : Transfer) (n : ℕ) : -1 ≤ t.result n := by
  cases t with
  | error => exact le_rfl
  | upTo k => exact (Int.neg_nonpos_of_nonneg zero_le_one).trans (Int.natCast_nonneg n)

section Ops

variable (m : Msgbuf)

theorem fifoStep_read (sock : Socket) (t : Transfer) :
    FifoStep m.contents (.read sock t, (runOp m (.read sock t)).2)
      (msgbufRead m sock t).1.contents := by
  have hsplit := received_append_rx m sock t
  have hprefix : sock.rx.take (sock.received (m.len - m.stop) t).length
      = sock.received (m.len - m.stop) t := by
    conv_lhs => rw [← hsplit]
    exact List.take_left
  -- the bytes that left the connection are those received
  have hbytes : sock.rx.take (sock.rx.length - (msgbufRead m sock t).2.1.rx.length)
      = sock.received (m.len - m.stop) t := by
    have hlen := congrArg List.length hsplit
    rw [List.length_append] at hlen
    rw [show sock.rx.length - (msgbufRead m sock t).2.1.rx.length
      = (sock.received (m.len - m.stop) t).length by omega, hprefix]
  have hcount : (msgbufRead m sock t).2.2
      = t.result (sock.received (m.len - m.stop) t).length := rfl
  have hnat : (msgbufRead m sock t).2.2.toNat = (sock.received (m.len - m.stop) t).length := by
    rw [hcount]
    cases t <;> rfl
  refine ⟨?_, ?_, ?_, ?_⟩
  · show -1 ≤ (msgbufRead m sock t).2.2
    rw [hcount]
    exact neg_one_le_result t _
  · show (sock.rx.take _).length = (msgbufRead m sock t).2.2.toNat
    rw [hbytes, hnat]
  · show sock.rx.take _ = sock.rx.take (msgbufRead m sock t).2.2.toNat
    rw [hbytes, hnat, hprefix]
  · show _ = m.contents ++ sock.rx.take _
    rw [hbytes]
    exact contents_msgbufRead m sock t

theorem fifoStep_write (sock : Socket) (len : ℕ) (t : Transfer) :
    FifoStep m.contents (.write sock len t, (runOp m (.write sock len t)).2)
      (msgbufWrite m sock len t).1.contents := by
  have hlength := m.length_contents
  unfold msgbufCountBuffered at hlength
  by_cases hrefused : 0 < (len : ℤ) ∧ ((m.stop - m.start : ℕ) : ℤ) < len
  · have hw : msgbufWrite m sock len t = (m, sock, -1) := if_pos hrefused
    refine ⟨?_, ?_, ?_, fun _ => ⟨?_, fun _ => ?_⟩⟩ <;> simp only [runOp, hw]
    · exact le_rfl
    · rw [List.drop_length]
      rfl
    · rw [List.drop_length, List.nil_append]
    · rw [List.drop_length]
      exact Nat.zero_le _
  · -- `n` bytes are accepted, no more than asked for
    let send_len := if 0 < (len : ℤ) ∧ (len : ℤ) < (m.stop - m.start : ℕ) then (len : ℤ).toNat
      else m.stop - m.start
    have hw : msgbufWrite m sock len t
        = (m.advance (t.accepted send_len),
          { sock with tx := sock.tx ++ m.contents.take (t.accepted send_len) },
          t.result (t.accepted send_len)) := if_neg hrefused
    have hle : t.accepted send_len ≤ send_len := by
      cases t with
      | error => exact Nat.zero_le _
      | upTo k => exact min_le_right k _
    have hsend : send_len ≤ m.contents.length ∧ (0 < len → send_len ≤ len) := by
      show (if _ then _ else _) ≤ _ ∧ (_ → (if _ then _ else _) ≤ _)
      rw [Int.toNat_natCast]
      split_ifs <;> omega
    have hbytes : (m.contents.take (t.accepted send_len)).length = t.accepted send_len := by
      rw [List.length_take, Nat.min_eq_left (hle.trans hsend.1)]
    refine ⟨?_, ?_, ?_, fun hpos => ⟨?_, fun hlt => ?_⟩⟩ <;> simp only [runOp, hw]
    · exact neg_one_le_result t _
    · rw [List.drop_left, hbytes]
      cases t <;> rfl
    · rw [List.drop_left, Msgbuf.contents_advance, List.take_append_drop]
    · rw [List.drop_left, hbytes]
      exact hle.trans (hsend.2 hpos)
    · exact absurd ⟨by omega, by omega⟩ hrefused

theorem fifoStep_pull (count : ℤ) (copy : Bool) :
    FifoStep m.contents (.pull count copy, (runOp m (.pull count copy)).2)
      (msgbufPull m count).1.contents := by
  have hlength := m.length_contents
  unfold msgbufCountBuffered at hlength
  show _ = (if min count (m.contents.length : ℤ) ≤ 0 then _ else _) ∧ _ ∧ _
  rw [hlength]
  by_cases hle : min count ((m.stop - m.start : ℕ) : ℤ) ≤ 0
  · have hp : msgbufPull m count = (m, [], -1) := if_pos hle
    simp only [runOp, hp]
    refine ⟨(if_pos hle).symm, rfl, ?_⟩
    show _ = if copy then m.contents.take 0 else []
    rw [List.take_zero]
  · have hp : msgbufPull m count = (m.advance (min count (m.stop - m.start : ℕ)).toNat,
        m.contents.take (min count (m.stop - m.start : ℕ)).toNat,
        min count (m.stop - m.start : ℕ)) := if_neg hle
    simp only [runOp, hp]
    exact ⟨(if_neg hle).symm, Msgbuf.contents_advance m _, trivial⟩

theorem fifoStep_peek :
    FifoStep m.contents (.peek, (runOp m .peek).2) m.contents := by
  have hlength := m.length_contents
  unfold msgbufCountBuffered at hlength
  refine ⟨rfl, ?_, ?_⟩
  · show msgbufPeek m = none ↔ _
    rw [← List.length_eq_zero_iff, hlength, msgbufPeek]
    split
    · exact ⟨fun _ => by omega, fun _ => rfl⟩
    · exact ⟨nofun, fun h => by omega⟩
  · intro p hp
    have hsome : msgbufPeek m = some p := hp
    unfold msgbufPeek at hsome
    split at hsome
    · cases hsome
    · cases hsome
      rw [Mem.read_shift, hlength]
      rfl

/-- Every operation does to the contents what it is to do to a queue. -/
theorem fifoStep_runOp (op : MsgbufOp) :
    FifoStep m.contents (op, (runOp m op).2) (runOp m op).1.contents := by
  cases op with
  | push bs => exact contents_msgbufPush m bs
  | read sock t => exact fifoStep_read m sock t
  | write sock len t => exact fifoStep_write m sock len t
  | pull count copy => exact fifoStep_pull m count copy
  | peek => exact fifoStep_peek m
  | clear => rfl

/-! ## Room behind the end -/

theorem stop_advance_lt {m : Msgbuf} (h : m.stop < m.len) (n : ℕ) :
    (m.advance n).stop < (m.advance n).len := by
  unfold Msgbuf.advance
  split
  · exact m.len_pos
  · exact h

/-- After a read there is room for the next one. -/
theorem stop_msgbufRead_lt (sock : Socket) (t : Transfer) :
    (msgbufRead m sock t).1.stop < (msgbufRead m sock t).1.len := by
  unfold msgbufRead
  dsimp only
  split
  · rename_i hfull
    have hpos := m.len_pos
    have hle := m.received_fits sock t
    show m.stop + _ < m.len * 2
    omega
  · rename_i hroom
    exact Nat.lt_of_not_le hroom

/-- Only a push can use all the storage up. -/
theorem stop_runOp_lt {m : Msgbuf} (h : m.stop < m.len) {op : MsgbufOp}
    (hop : op.isPush = false) : (runOp m op).1.stop < (runOp m op).1.len := by
  cases op with
  | push bs => cases hop
  | read sock t => exact stop_msgbufRead_lt m sock t
  | write sock len t =>
    show (msgbufWrite m sock len t).1.stop < (msgbufWrite m sock len t).1.len
    unfold msgbufWrite
    dsimp only
    split
    · exact h
    · exact stop_advance_lt h _
  | pull count copy =>
    show (msgbufPull m count).1.stop < (msgbufPull m count).1.len
    unfold msgbufPull
    dsimp only
    split
    · exact h
    · exact stop_advance_lt h _
  | peek => exact h
  | clear => exact m.len_pos

/-- With room to read into, a read that may move bytes and moves none has found the end of
the stream. -/
theorem rx_eq_nil_of_msgbufRead (h : m.stop < m.len) (sock : Socket) {k : ℕ} (hk : 0 < k)
    (hzero : (msgbufRead m sock (.upTo k)).2.2 = 0) : sock.rx = [] := by
  have hcount : ((sock.rx.take (min k (m.len - m.stop))).length : ℤ) = 0 := hzero
  rw [List.length_take] at hcount
  apply List.length_eq_zero_iff.mp
  omega

end Ops

/-! ## Runs -/

/-- What a run of operations does to a buffer, seen from its caller. -/
structure RefinesFifo (history : List MsgbufTransition) (m : Msgbuf) : Prop where
  /-- the contents go through a run of the queue -/
  fifo : Run FifoStep [] (history.map (Transition.map Msgbuf.contents)) m.contents
  bounds : ∀ t ∈ history, t.post.start ≤ t.post.stop ∧ t.post.stop ≤ t.post.len
  /-- a buffer fed by reads only has room for the next one -/
  room : (∀ t ∈ history, t.event.1.isPush = false) → ∀ t ∈ history, t.post.stop < t.post.len
  /-- and a read of 0 bytes means the end of the stream -/
  endOfStream : (∀ t ∈ history, t.event.1.isPush = false) → ∀ t ∈ history, ∀ sock k,
    t.event.1 = .read sock (.upTo k) → 0 < k → t.event.2.count = 0 → sock.rx = []

theorem msgbuf_refinesFifo (buf : Mem) (bufsize : ℕ) (h : 0 < bufsize)
    (history : List MsgbufTransition) (m : Msgbuf)
    (hrun : Run MsgbufStep (msgbufNew buf bufsize h) history m) : RefinesFifo history m := by
  have hfifo : ∀ m e m', MsgbufStep m e m' → FifoStep m.contents e m'.contents := by
    rintro m ⟨op, r⟩ m' hstep
    have hspec := fifoStep_runOp m op
    rwa [show runOp m op = (m', r) from hstep] at hspec
  -- without pushes every state has room behind `end`
  have hroom : (∀ t ∈ history, t.event.1.isPush = false) →
      ∀ t ∈ history, t.pre.stop < t.pre.len ∧ t.post.stop < t.post.len := by
    intro hreads
    have hstep : ∀ (m : Msgbuf) (e : MsgbufOp × MsgbufResult) (m' : Msgbuf), m.stop < m.len →
        e.1.isPush = false ∧ MsgbufStep m e m' → m'.stop < m'.len := by
      rintro m ⟨op, r⟩ m' hm ⟨hop, hstep⟩
      have hlt := stop_runOp_lt hm hop
      rwa [show runOp m op = (m', r) from hstep] at hlt
    exact ((hrun.restrict fun t ht => hreads t ht).invariant hstep h).2
  refine ⟨hrun.map Msgbuf.contents hfifo, fun t _ => ⟨t.post.start_le, t.post.stop_le⟩,
    fun hreads t ht => (hroom hreads t ht).2, fun hreads t ht sock k hop hk hzero => ?_⟩
  have hstep : runOp t.pre t.event.1 = (t.post, t.event.2) := hrun.step_of_mem ht
  rw [hop] at hstep
  refine rx_eq_nil_of_msgbufRead t.pre (hroom hreads t ht).1 sock hk ?_
  rw [← hzero]
  exact congrArg (fun r => r.2.count) hstep

/-- Four bytes of five are read into a buffer of four bytes, which grows. Two are pulled and
three pushed; a write of ten is refused, one of up to four moves three. -/
theorem msgbuf_refinesFifo_fiveBytes :
    let run := runOps [.read ⟨[1, 2, 3, 4, 5], []⟩ (.upTo 9), .pull 2 true, .push [6, 7, 8],
      .write ⟨[], []⟩ 10 (.upTo 9), .write ⟨[], []⟩ 4 (.upTo 3), .pull 0 false, .peek]
      (msgbufNew (fun _ => 0) 4 (by decide))
    run.1.map (fun t => (t.event.2.count, t.event.2.bytes)) = [(4, [1, 2, 3, 4]), (2, [1, 2]),
      (0, []), (-1, []), (3, [3, 4, 6]), (-1, []), (0, [])] ∧
      run.2.contents = [7, 8] ∧ RefinesFifo run.1 run.2 :=
  ⟨by decide, by decide, msgbuf_refinesFifo _ _ _ _ _ (run_runOps _ _)⟩

end OfcBenchmark
