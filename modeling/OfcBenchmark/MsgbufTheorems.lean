import OfcBenchmark.Msgbuf

/-!
# Message buffers are byte queues

Seen through `Msgbuf.contents`, a buffer is a queue of bytes: reads and pushes append to
it, writes and pulls remove from its front, growing and moving the indices back to 0 leave
it alone. Every later file reasons about buffers through these lemmas only.
-/

namespace OfcBenchmark
open ByteMemory

namespace Msgbuf

/-! ## The primitive moves -/

@[simp] theorem length_contents (m : Msgbuf) : m.contents.length = msgbufCountBuffered m := by
  rw [contents, Mem.length_read, msgbufCountBuffered]

/-- Byte `i` of the queue lies `i` places after `start`. -/
theorem buf_of_lt (m : Msgbuf) {i : ℕ} (h : i < m.contents.length) :
    m.buf (m.start + i) = m.contents[i] := by
  have hget : m.contents[i]? = some (m.buf (m.start + i)) := by
    rw [contents, Mem.getElem?_read, if_pos]
    rwa [length_contents, msgbufCountBuffered] at h
  rw [List.getElem?_eq_getElem h, Option.some.injEq] at hget
  exact hget.symm

@[simp] theorem contents_grow (m : Msgbuf) : (msgbufGrow m).contents = m.contents := rfl

/-- Appended bytes go to the back of the queue. -/
@[simp] theorem contents_append (m : Msgbuf) (bs : List UInt8) (h : m.stop + bs.length ≤ m.len) :
    (m.append bs h).contents = m.contents ++ bs := by
  have hle := m.start_le
  have hlen : m.stop + bs.length - m.start = m.stop - m.start + bs.length := by omega
  have hstop : m.start + (m.stop - m.start) = m.stop := by omega
  show (m.buf.write m.stop bs).read m.start (m.stop + bs.length - m.start) = m.contents ++ bs
  rw [hlen, Mem.read_add, hstop, Mem.read_write_self, Mem.read_write_of_le _ _ (by omega)]
  rfl

/-- `advance` drops bytes from the front. -/
@[simp] theorem contents_advance (m : Msgbuf) (n : ℕ) :
    (m.advance n).contents = m.contents.drop n := by
  unfold advance
  split
  · rename_i h
    rw [List.drop_eq_nil_of_le]
    · rfl
    · rw [length_contents, msgbufCountBuffered]
      omega
  · rename_i h
    show m.buf.read (m.start + n) (m.stop - (m.start + n)) = _
    rw [contents, Mem.drop_read _ _ (by omega), Nat.sub_sub]

/-- Moving past bytes in two steps or in one is the same. -/
theorem advance_advance (m : Msgbuf) (a b : ℕ) : (m.advance a).advance b = m.advance (a + b) := by
  by_cases ha : m.start + a ≥ m.stop
  · have hab : m.start + (a + b) ≥ m.stop := by omega
    have hdrained : m.advance a
        = { m with start := 0, stop := 0, start_le := le_rfl, stop_le := Nat.zero_le _ } :=
      dif_pos ha
    rw [hdrained, advance, advance, dif_pos hab]
    exact dif_pos (Nat.zero_le _)
  · have hmoved : m.advance a = { m with start := m.start + a, start_le := Nat.le_of_not_le ha } :=
      dif_neg ha
    rw [hmoved, advance, advance]
    simp only [Nat.add_assoc]

/-- Nothing moves past nothing, unless the buffer has just drained. -/
theorem advance_zero {m : Msgbuf} (h : 0 < m.contents.length) : m.advance 0 = m := by
  rw [length_contents, msgbufCountBuffered] at h
  exact dif_neg (by omega)

@[simp] theorem contents_makeRoom (count fuel : ℕ) (m : Msgbuf) :
    (m.makeRoom count fuel).contents = m.contents := by
  induction fuel generalizing m with
  | zero => rfl
  | succ fuel ih =>
    rw [makeRoom]
    split
    · rw [ih, contents_grow]
    · rfl

end Msgbuf

/-! ## The operations -/

/-- Pushed bytes go to the back of the queue. -/
@[simp] theorem contents_msgbufPush (m : Msgbuf) (bs : List UInt8) :
    (msgbufPush m bs).contents = m.contents ++ bs := by
  rw [msgbufPush, Msgbuf.contents_append, Msgbuf.contents_makeRoom]

/-- Pushing nothing changes nothing. -/
theorem msgbufPush_nil (m : Msgbuf) : msgbufPush m [] = m := by
  have hroom : ∀ fuel, m.makeRoom 0 fuel = m := by
    intro fuel
    cases fuel with
    | zero => rfl
    | succ fuel => exact if_neg (Nat.not_lt.mpr m.stop_le)
  have hwrite : m.buf.write m.stop [] = m.buf := by
    funext i
    exact ite_self _
  obtain ⟨buf, len, start, stop, hstart, hstop, hpos⟩ := m
  simp only [msgbufPush, List.length_nil, hroom, Msgbuf.append, Nat.add_zero, hwrite]

/-- Reading appends what the socket delivered to the queue. -/
theorem contents_msgbufRead (m : Msgbuf) (sock : Socket) (t : Transfer) :
    (msgbufRead m sock t).1.contents = m.contents ++ sock.received (m.len - m.stop) t := by
  unfold msgbufRead
  dsimp only
  split
  · rw [Msgbuf.contents_grow, Msgbuf.contents_append]
  · rw [Msgbuf.contents_append]

/-- Reading takes from the connection exactly what it appends to the queue. -/
theorem received_append_rx (m : Msgbuf) (sock : Socket) (t : Transfer) :
    sock.received (m.len - m.stop) t ++ (msgbufRead m sock t).2.1.rx = sock.rx := by
  have hpre : sock.received (m.len - m.stop) t <+: sock.rx := by
    cases t with
    | error => exact List.nil_prefix
    | upTo k => exact List.take_prefix _ _
  exact List.prefix_iff_eq_append.mp hpre

/-- Reading moves bytes from the connection to the queue, none lost. -/
theorem msgbufRead_stream (m : Msgbuf) (sock : Socket) (t : Transfer) :
    (msgbufRead m sock t).1.contents ++ (msgbufRead m sock t).2.1.rx = m.contents ++ sock.rx := by
  rw [contents_msgbufRead, List.append_assoc, received_append_rx]

/-- A positive result of `msgbufRead` is the number of bytes appended. -/
theorem msgbufRead_result (m : Msgbuf) (sock : Socket) (t : Transfer)
    (h : 0 < (msgbufRead m sock t).2.2) :
    (msgbufRead m sock t).2.2 = (sock.received (m.len - m.stop) t).length := by
  unfold msgbufRead at h ⊢
  dsimp only at h ⊢
  cases t with
  | error => exact absurd (show (0 : ℤ) < -1 from h) (by decide)
  | upTo k => rfl

/-- It is a number of bytes that are now buffered. -/
theorem exists_msgbufRead_result (m : Msgbuf) (sock : Socket) (t : Transfer)
    (h : 0 < (msgbufRead m sock t).2.2) :
    ∃ n : ℕ, 0 < n ∧ (msgbufRead m sock t).2.2 = n ∧
      n ≤ (msgbufRead m sock t).1.contents.length := by
  have hres := msgbufRead_result m sock t h
  refine ⟨(sock.received (m.len - m.stop) t).length, by omega, hres, ?_⟩
  rw [contents_msgbufRead, List.length_append]
  exact Nat.le_add_left _ _

/-- A read that returns nothing positive appends nothing. -/
theorem received_eq_nil (m : Msgbuf) (sock : Socket) (t : Transfer)
    (h : (msgbufRead m sock t).2.2 ≤ 0) : sock.received (m.len - m.stop) t = [] := by
  rcases t with - | k
  · rfl
  · have hlen : ((sock.received (m.len - m.stop) (.upTo k)).length : ℤ) ≤ 0 := h
    exact List.length_eq_zero_iff.mp (by omega)

/-- Pulling a positive count removes that many bytes from the front. -/
theorem msgbufPull_of_le (m : Msgbuf) {count : ℕ} (hpos : 0 < count)
    (hle : count ≤ m.contents.length) : (msgbufPull m count).1 = m.advance count := by
  rw [Msgbuf.length_contents, msgbufCountBuffered] at hle
  have hmin : min (count : ℤ) (m.stop - m.start : ℕ) = count := by omega
  unfold msgbufPull
  dsimp only
  rw [hmin, if_neg (by omega), Int.toNat_natCast]

/-- These are the bytes it copies out. -/
theorem msgbufPull_bytes_of_le (m : Msgbuf) {count : ℕ} (hle : count ≤ m.contents.length) :
    (msgbufPull m count).2.1 = m.contents.take count := by
  rw [Msgbuf.length_contents, msgbufCountBuffered] at hle
  have hmin : min (count : ℤ) (m.stop - m.start : ℕ) = count := by omega
  unfold msgbufPull
  dsimp only
  rw [hmin]
  split
  · rw [show count = 0 by omega, List.take_zero]
  · rw [Int.toNat_natCast]

/-- Pulling nothing is refused. -/
theorem msgbufPull_zero (m : Msgbuf) : (msgbufPull m (0 : ℕ)).1 = m := by
  have hmin : min ((0 : ℕ) : ℤ) (m.stop - m.start : ℕ) ≤ 0 := by omega
  unfold msgbufPull
  dsimp only
  rw [if_pos hmin]

/-- What is pulled comes off the front of the queue. -/
theorem contents_msgbufPull (m : Msgbuf) {count : ℕ} (hle : count ≤ m.contents.length) :
    (msgbufPull m count).1.contents = m.contents.drop count := by
  rcases Nat.eq_zero_or_pos count with rfl | hpos
  · rw [msgbufPull_zero, List.drop_zero]
  · rw [msgbufPull_of_le m hpos hle, Msgbuf.contents_advance]

/-- With something buffered, `msgbufPeek` points at the first byte of the queue. -/
theorem msgbufPeek_of_pos (m : Msgbuf) (h : 0 < m.contents.length) :
    msgbufPeek m = some (m.buf.shift m.start) := by
  rw [Msgbuf.length_contents, msgbufCountBuffered] at h
  exact if_neg (by omega)

/-- Writing moves bytes from the front of the queue to the connection, none lost. -/
theorem msgbufWrite_spec (m : Msgbuf) (sock : Socket) (len : ℤ) (t : Transfer) :
    (msgbufWrite m sock len t).2.1.tx ++ (msgbufWrite m sock len t).1.contents
      = sock.tx ++ m.contents := by
  unfold msgbufWrite
  dsimp only
  split
  · rfl
  · rw [Msgbuf.contents_advance, List.append_assoc, List.take_append_drop]

@[simp] theorem msgbufWrite_rx (m : Msgbuf) (sock : Socket) (len : ℤ) (t : Transfer) :
    (msgbufWrite m sock len t).2.1.rx = sock.rx := by
  unfold msgbufWrite
  dsimp only
  split <;> rfl

end OfcBenchmark
