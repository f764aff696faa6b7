import OfcBenchmark.Lib.Memory

/-!
# Message buffers

`msgbuf.c`: a byte buffer with two moving indices, filled from a socket or by pushes and
emptied into a socket or by pulls. `start = end = 0` again whenever it drains, and the
storage doubles when it is full.

The `int` fields are natural numbers here. In C the doubling of `len` overflows from
2^30 on, where `realloc` fails and the assertion in `msgbufGrow` ends the process; the
states below that point are the same, the ones beyond it have no counterpart in C.
-/

namespace OfcBenchmark
open ByteMemory

/-! ## Sockets -/

/-- The connection behind a socket descriptor: the bytes the peer has sent that are not
read yet, and all bytes written to it so far. -/
structure Socket where
  rx : List UInt8
  tx : List UInt8

/-- The kernel's answer to a `read` or `write` call: an error (`EAGAIN` included), or at
most `k` bytes moved. -/
inductive Transfer
  | error
  | upTo (k : ℕ)
deriving DecidableEq, Repr

/-- The value the call returns when it moved `n` bytes. -/
def Transfer.result : Transfer → ℕ → ℤ
  | .error, _ => -1
  | .upTo _, n => n

/-- The bytes a `read` of at most `cap` bytes stores. -/
def Socket.received (sock : Socket) (cap : ℕ) : Transfer → List UInt8
  | .error => []
  | .upTo k => sock.rx.take (min k cap)

/-- How many of `n` bytes a `write` accepts. -/
def Transfer.accepted : Transfer → ℕ → ℕ
  | .error, _ => 0
  | .upTo k, n => min k n

theorem Socket.length_received_le (sock : Socket) (cap : ℕ) (t : Transfer) :
    (sock.received cap t).length ≤ cap := by
  cases t with
  | error => exact Nat.zero_le cap
  | upTo k =>
    rw [received, List.length_take]
    omega

/-! ## The buffer -/

/-- `struct msgbuf`; `stop` is the field `end`. Its storage is `buf 0`, .., `buf (len - 1)`;
what is found from `buf len` on lies outside the allocation. -/
structure Msgbuf where
  buf : Mem
  len : ℕ
  start : ℕ
  stop : ℕ
  start_le : start ≤ stop
  stop_le : stop ≤ len
  len_pos : 0 < len

/-- `msgbufNew`, on storage that `malloc` has not cleared. -/
def msgbufNew (buf : Mem) (bufsize : ℕ) (h : 0 < bufsize) : Msgbuf where
  buf := buf
  len := bufsize
  start := 0
  stop := 0
  start_le := le_rfl
  stop_le := Nat.zero_le _
  len_pos := h

/-- `msgbufCountBuffered`. -/
def msgbufCountBuffered (m : Msgbuf) : ℕ := m.stop - m.start

/-- The bytes buffered, `buf[start]` to `buf[end - 1]`. -/
def Msgbuf.contents (m : Msgbuf) : List UInt8 := m.buf.read m.start (m.stop - m.start)

/-- `msgbufGrow`. -/
def msgbufGrow (m : Msgbuf) : Msgbuf where
  buf := m.buf
  len := m.len * 2
  start := m.start
  stop := m.stop
  start_le := m.start_le
  stop_le := m.stop_le.trans (Nat.le_mul_of_pos_right _ Nat.two_pos)
  len_pos := Nat.mul_pos m.len_pos Nat.two_pos

/-- Store bytes at `buf[end]` and move `end` behind them. -/
def Msgbuf.append (m : Msgbuf) (bs : List UInt8) (h : m.stop + bs.length ≤ m.len) : Msgbuf where
  buf := m.buf.write m.stop bs
  len := m.len
  start := m.start
  stop := m.stop + bs.length
  start_le := m.start_le.trans (Nat.le_add_right _ _)
  stop_le := h
  len_pos := m.len_pos

/-- Move `start` past `n` bytes; the indices go back to 0 when that drains the buffer. -/
def Msgbuf.advance (m : Msgbuf) (n : ℕ) : Msgbuf :=
  if h : m.start + n ≥ m.stop then
    { m with start := 0, stop := 0, start_le := le_rfl, stop_le := Nat.zero_le _ }
  else
    { m with start := m.start + n, start_le := Nat.le_of_not_le h }

/-- What a `read` into the free space stores fits there. -/
theorem Msgbuf.received_fits (m : Msgbuf) (sock : Socket) (t : Transfer) :
    m.stop + (sock.received (m.len - m.stop) t).length ≤ m.len := by
  have h := sock.length_received_le (m.len - m.stop) t
  have hle := m.stop_le
  omega

/-- `msgbufRead`. A call that fails or finds nothing appends no bytes. -/
def msgbufRead (m : Msgbuf) (sock : Socket) (t : Transfer) : Msgbuf × Socket × ℤ :=
  let bs := sock.received (m.len - m.stop) t
  let count := t.result bs.length
  let m' := m.append bs (m.received_fits sock t)
  let m'' := if m'.stop ≥ m'.len then msgbufGrow m' else m'  -- resize buffer if need be
  (m'', { sock with rx := sock.rx.drop bs.length }, count)

/-- `msgbufWrite`. -/
def msgbufWrite (m : Msgbuf) (sock : Socket) (len : ℤ) (t : Transfer) : Msgbuf × Socket × ℤ :=
  let send_len := m.stop - m.start
  if 0 < len ∧ (send_len : ℤ) < len then (m, sock, -1)
  else
    let send_len := if 0 < len ∧ len < send_len then len.toNat else send_len
    let n := t.accepted send_len
    (m.advance n, { sock with tx := sock.tx ++ m.contents.take n }, t.result n)

/-- `msgbufClear`. -/
def msgbufClear (m : Msgbuf) : Msgbuf :=
  { m with start := 0, stop := 0, start_le := le_rfl, stop_le := Nat.zero_le _ }

/-- `msgbufPeek`. -/
def msgbufPeek (m : Msgbuf) : Option Mem :=
  if m.start ≥ m.stop then none else some (m.buf.shift m.start)

/-- `msgbufPull`: the buffer after it, the bytes copied out, the value returned. -/
def msgbufPull (m : Msgbuf) (count : ℤ) : Msgbuf × List UInt8 × ℤ :=
  let min := min count (m.stop - m.start : ℕ)
  if min ≤ 0 then (m, [], -1)
  else (m.advance min.toNat, m.contents.take min.toNat, min)

/-- The loop of `msgbufPush` that makes room for `count` bytes. -/
def Msgbuf.makeRoom (count : ℕ) : ℕ → Msgbuf → Msgbuf
  | 0, m => m
  | fuel + 1, m => if m.stop + count > m.len then makeRoom count fuel (msgbufGrow m) else m

theorem Msgbuf.makeRoom_stop (count fuel : ℕ) (m : Msgbuf) :
    (m.makeRoom count fuel).stop = m.stop := by
  induction fuel generalizing m with
  | zero => rfl
  | succ fuel ih =>
    rw [makeRoom]
    split
    · rw [ih]
      rfl
    · rfl

/-- Doubling `fuel` times makes room for anything below `len * 2 ^ fuel`. -/
theorem Msgbuf.le_makeRoom_len (count : ℕ) {fuel : ℕ} {m : Msgbuf}
    (h : m.stop + count ≤ m.len * 2 ^ fuel) : m.stop + count ≤ (m.makeRoom count fuel).len := by
  induction fuel generalizing m with
  | zero =>
    rw [makeRoom]
    omega
  | succ fuel ih =>
    rw [makeRoom]
    split
    · apply ih (m := msgbufGrow m)
      calc m.stop + count ≤ m.len * 2 ^ (fuel + 1) := h
        _ = m.len * 2 * 2 ^ fuel := by ring
    · omega

/-- The loop ends with room for the bytes to push. -/
theorem Msgbuf.makeRoom_fits (m : Msgbuf) (count : ℕ) :
    (m.makeRoom count (m.stop + count)).stop + count
      ≤ (m.makeRoom count (m.stop + count)).len := by
  rw [makeRoom_stop]
  apply le_makeRoom_len
  calc m.stop + count ≤ 2 ^ (m.stop + count) := Nat.lt_two_pow_self.le
    _ ≤ m.len * 2 ^ (m.stop + count) := Nat.le_mul_of_pos_left _ m.len_pos

/-- `msgbufPush`. -/
def msgbufPush (m : Msgbuf) (bs : List UInt8) : Msgbuf :=
  (m.makeRoom bs.length (m.stop + bs.length)).append bs (m.makeRoom_fits bs.length)

/-! ## Writing all -/

/-- `errno`, as far as `msgbufWriteAll` tells it apart. -/
inductive Errno
  | EAGAIN
  | EWOULDBLOCK
  | EINTR
  | other (code : ℕ)
deriving DecidableEq, Repr

/-- Whether a `write` that failed with it is made again. -/
def Errno.isRetried : Errno → Bool
  | .EAGAIN | .EWOULDBLOCK | .EINTR => true
  | .other _ => false

/-- A `write` in a loop: it fails and sets `errno`, or accepts at most `k` bytes. -/
inductive Attempt
  | error (errno : Errno)
  | upTo (k : ℕ)
deriving DecidableEq, Repr

/-- What `msgbufWrite` sees of it. -/
def Attempt.transfer : Attempt → Transfer
  | .error _ => .error
  | .upTo k => .upTo k

/-- `errno` behind it; a call that succeeds leaves it as it is. -/
def Attempt.errno : Attempt → Errno → Errno
  | .error errno, _ => errno
  | .upTo _, errno => errno

/-- A call of `msgbufWriteAll`: its arguments, `errno`, and `count`. -/
structure WriteAllCall where
  m : Msgbuf
  sock : Socket
  len : ℤ
  errno : Errno
  count : ℤ

/-- How a call goes on: it needs another `write`, it returns, or it loops for ever. -/
inductive WriteAllState
  | running (call : WriteAllCall)
  | returned (m : Msgbuf) (sock : Socket) (value : ℤ)
  | hang

namespace WriteAllCall

/-- The test of the loop, and what an iteration does without a `write`. -/
def enter (call : WriteAllCall) : WriteAllState :=
  if call.m.start < call.m.stop then
    -- `msgbufWrite` returns -1, and `errno` is the one that some call before has left
    if 0 < call.len ∧ ((call.m.stop - call.m.start : ℕ) : ℤ) < call.len then
      if call.errno.isRetried then .hang else .returned call.m call.sock (-1)
    else .running call
  else .returned call.m call.sock call.count

/-- An iteration with a `write`. -/
def write (call : WriteAllCall) (attempt : Attempt) : WriteAllState :=
  let r := msgbufWrite call.m call.sock call.len attempt.transfer
  let errno := attempt.errno call.errno
  let tmp := r.2.2
  if tmp < 0 ∧ errno.isRetried = false then .returned r.1 r.2.1 tmp
  else
    enter { call with
      m := r.1, sock := r.2.1, errno := errno
      count := if 0 < call.count then call.count + tmp else call.count }  -- not `0 < tmp`

end WriteAllCall

/-- A call that finds these answers of `write`. When they are used up, it waits for another. -/
def serveWrites : List Attempt → WriteAllState → WriteAllState
  | attempt :: attempts, .running call => serveWrites attempts (call.write attempt)
  | _, s => s

/-- `msgbufWriteAll`, called with this `errno`. -/
def msgbufWriteAll (m : Msgbuf) (sock : Socket) (len : ℤ) (errno : Errno)
    (attempts : List Attempt) : WriteAllState :=
  serveWrites attempts (WriteAllCall.enter ⟨m, sock, len, errno, 0⟩)

end OfcBenchmark
