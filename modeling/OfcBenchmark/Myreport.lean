import OfcBenchmark.Lib.Printf

/-!
# Reports and how they are sent

`myreport.c`, the queues of a report, and what of `mymessages.c` sends and reads them. A
message is a text; a socket is the text that is still to be read from it. Reading blocks for
as long as there is nothing.
-/

namespace OfcBenchmark
open Printf

/-! ## Queues -/

/-- `LIMITER`, which ends a block. -/
def LIMITER : Char := '*'

/-- `CSV_NEWLINE`, which ends a row. -/
def CSV_NEWLINE : Char := ';'

/-- The indices of `report.queues`. -/
inductive QueueId
  | values
  | avgs
  | results
  | snmp
  | time
deriving DecidableEq, Repr

/-- `report.queues`: the messages from the first to the last. -/
abbrev Queues := QueueId → List Text

/-- No messages. -/
def emptyQueues : Queues := fun _ => []

/-- `enqueueMessage`. -/
def enqueueMessage (item : Text) (queues : Queues) (id : QueueId) (delimit : Bool) (size : ℕ) :
    Queues :=
  let buffer := (if delimit then item ++ [LIMITER] else item).take size
  Function.update queues id (queues id ++ [buffer])

@[simp] theorem enqueueMessage_self (item : Text) (queues : Queues) (id : QueueId) (delimit : Bool)
    (size : ℕ) : enqueueMessage item queues id delimit size id
      = queues id ++ [(if delimit then item ++ [LIMITER] else item).take size] :=
  Function.update_self _ _ _

@[simp] theorem enqueueMessage_of_ne (item : Text) (queues : Queues) {id id' : QueueId}
    (delimit : Bool) (size : ℕ) (h : id' ≠ id) :
    enqueueMessage item queues id delimit size id' = queues id' :=
  Function.update_of_ne h _ _

/-! ## Sockets -/

/-- `writeSocket(fd, text, strlen(text), strlen(text))`. -/
def writeSocket (socket text : Text) : Text := socket ++ text

theorem foldl_writeSocket (socket : Text) (queue : List Text) :
    queue.foldl writeSocket socket = socket ++ queue.flatten := by
  induction queue generalizing socket with
  | nil => exact (List.append_nil _).symm
  | cons text queue ih =>
    rw [List.foldl_cons, ih, List.flatten_cons, writeSocket, List.append_assoc]

/-- The loop of `readSocketLimiter`: one character after the other, up to a LIMITER or until
the array, with space for `size` characters, is full. -/
def readLoop : ℕ → Text → Option (Text × Text)
  | _, [] => none
  | size, c :: socket =>
    if c ≠ LIMITER ∧ 1 < size then
      (readLoop (size - 1) socket).map fun r => (c :: r.1, r.2)
    else some ([c], socket)

/-- The text an array holds, up to the first NUL. -/
def uptoNul (array : Text) : Text := array.takeWhile (· ≠ '\x00')

/-- What `readSocketLimiter` returns, and what is still to be read. `bytesRead` adds up the
lengths of all prefixes. -/
structure Received where
  buffer : Text
  bytesRead : ℕ
  socket : Text
deriving DecidableEq

/-- `readSocketLimiter`: the last character read, a LIMITER or not, is overwritten with a NUL.
An array that begins with a NUL is copied from its fourth character on; where that was not
read, the memory is not initialised and there is no result. -/
def readSocketLimiter (BUFFER_SIZE : ℕ) (socket : Text) : Option Received :=
  if BUFFER_SIZE = 0 then none
  else
    match readLoop BUFFER_SIZE socket with
    | none => none
    | some (array, socket) =>
      let sz := array.length
      let bytesRead := sz * (sz + 1) / 2
      if uptoNul array.dropLast ≠ [] then some ⟨uptoNul array.dropLast, bytesRead, socket⟩
      else if 4 ≤ sz then some ⟨uptoNul (array.dropLast.drop 3), bytesRead, socket⟩
      else none

/-! ## Reading a block -/

/-- A text without a LIMITER or NUL in it, and not empty. -/
structure IsBlock (text : Text) : Prop where
  ne_nil : text ≠ []
  not_limiter : LIMITER ∉ text
  not_nul : '\x00' ∉ text

instance : DecidablePred IsBlock := fun text =>
  decidable_of_iff (text ≠ [] ∧ LIMITER ∉ text ∧ '\x00' ∉ text)
    ⟨fun h => ⟨h.1, h.2.1, h.2.2⟩, fun h => ⟨h.ne_nil, h.not_limiter, h.not_nul⟩⟩

theorem uptoNul_of_not_mem {text : Text} (h : '\x00' ∉ text) : uptoNul text = text :=
  List.takeWhile_eq_self_iff.mpr fun _ hc => decide_eq_true fun hnul => h (hnul ▸ hc)

theorem length_uptoNul_le (array : Text) : (uptoNul array).length ≤ array.length :=
  (List.takeWhile_sublist _).length_le

theorem readLoop_limiter {text rest : Text} {size : ℕ} (hlimiter : LIMITER ∉ text)
    (hsize : text.length < size) :
    readLoop size (text ++ LIMITER :: rest) = some (text ++ [LIMITER], rest) := by
  induction text generalizing size with
  | nil =>
    rw [List.nil_append, List.nil_append, readLoop, if_neg fun h => h.1 rfl]
  | cons c text ih =>
    obtain ⟨hc, htext⟩ := not_or.mp (mt List.mem_cons.mpr hlimiter)
    rw [List.length_cons] at hsize
    rw [List.cons_append, readLoop, if_pos ⟨Ne.symm hc, by omega⟩, ih htext (by omega)]
    rfl

theorem IsBlock.take {text : Text} {k : ℕ} (h : IsBlock text) (hk : 0 < k) :
    IsBlock (text.take k) where
  ne_nil := by
    have hpos := List.length_pos_iff.mpr h.ne_nil
    exact List.ne_nil_of_length_pos (by rw [List.length_take]; exact lt_min hk hpos)
  not_limiter := fun hmem => h.not_limiter (List.mem_of_mem_take hmem)
  not_nul := fun hmem => h.not_nul (List.mem_of_mem_take hmem)

/-- Without a LIMITER in it the array is filled. -/
theorem readLoop_full {text rest : Text} {size : ℕ} (hlimiter : LIMITER ∉ text) (hpos : 0 < size)
    (hsize : size ≤ text.length) :
    readLoop size (text ++ rest) = some (text.take size, text.drop size ++ rest) := by
  induction text generalizing size with
  | nil => exact absurd (hpos.trans_le hsize) (lt_irrefl 0)
  | cons c text ih =>
    obtain ⟨hc, htext⟩ := not_or.mp (mt List.mem_cons.mpr hlimiter)
    obtain ⟨size, rfl⟩ := Nat.exists_eq_succ_of_ne_zero hpos.ne'
    rw [List.length_cons] at hsize
    rw [List.cons_append, readLoop]
    rcases Nat.eq_zero_or_pos size with rfl | hmore
    · rw [if_neg fun h => absurd h.2 (lt_irrefl 1)]
      rfl
    · rw [if_pos ⟨Ne.symm hc, Nat.succ_lt_succ hmore⟩, Nat.succ_sub_one,
        ih htext hmore (Nat.le_of_succ_le_succ hsize)]
      rfl

/-- A block that fits into the array is read as it is. -/
theorem readSocketLimiter_block {text rest : Text} {size : ℕ} (htext : IsBlock text)
    (hsize : text.length < size) :
    ∃ bytesRead, 0 < bytesRead ∧
      readSocketLimiter size (text ++ LIMITER :: rest) = some ⟨text, bytesRead, rest⟩ := by
  let sz := (text ++ [LIMITER]).length
  have hpos : 0 < sz := by
    rw [show sz = text.length + 1 from List.length_append]
    exact Nat.succ_pos _
  refine ⟨sz * (sz + 1) / 2, Nat.div_pos ?_ Nat.two_pos, ?_⟩
  · calc 2 = 1 * 2 := rfl
      _ ≤ sz * (sz + 1) := Nat.mul_le_mul hpos (Nat.succ_le_succ hpos)
  · unfold readSocketLimiter
    rw [if_neg (Nat.ne_of_gt (Nat.zero_lt_of_lt hsize)),
      readLoop_limiter htext.not_limiter hsize]
    dsimp only
    rw [List.dropLast_concat, uptoNul_of_not_mem htext.not_nul, if_pos htext.ne_nil]

/-- Of a block that does not fit, the beginning is read; the last character that was read is
lost. -/
theorem readSocketLimiter_long {text : Text} {size : ℕ} (htext : IsBlock text) (hpos : 1 < size)
    (hsize : size ≤ text.length) (rest : Text) :
    ∃ bytesRead, readSocketLimiter size (text ++ rest)
      = some ⟨text.take (size - 1), bytesRead, text.drop size ++ rest⟩ := by
  have hlast : (text.take size).dropLast = text.take (size - 1) := by
    rw [List.dropLast_eq_take, List.length_take, min_eq_left hsize, List.take_take,
      min_eq_left (Nat.sub_le _ _)]
  have hnul : uptoNul (text.take (size - 1)) = text.take (size - 1) :=
    uptoNul_of_not_mem fun hmem => htext.not_nul (List.mem_of_mem_take hmem)
  have hne : text.take (size - 1) ≠ [] := List.ne_nil_of_length_pos (by
    rw [List.length_take]
    omega)
  unfold readSocketLimiter
  rw [if_neg (Nat.ne_of_gt (Nat.zero_lt_of_lt hpos)),
    readLoop_full htext.not_limiter (Nat.zero_lt_of_lt hpos) hsize]
  dsimp only
  rw [hlast, hnul, if_pos hne]
  exact ⟨_, rfl⟩

/-- A LIMITER that comes first is not the end of a block. -/
theorem readSocketLimiter_limiter (size : ℕ) (rest : Text) :
    readSocketLimiter size (LIMITER :: rest) = none := by
  unfold readSocketLimiter
  split
  case isTrue => rfl
  case isFalse =>
    rw [readLoop, if_neg fun h => h.1 rfl]
    rfl

theorem length_readLoop {size : ℕ} {socket : Text} {r : Text × Text}
    (h : readLoop size socket = some r) (hsize : 0 < size) : r.1.length ≤ size := by
  induction socket generalizing size r with
  | nil => cases h
  | cons c socket ih =>
    unfold readLoop at h
    split at h
    case isTrue hmore =>
      obtain ⟨r', hloop, rfl⟩ := Option.map_eq_some_iff.mp h
      have hle := ih hloop (by omega)
      rw [List.length_cons]
      omega
    case isFalse =>
      cases h
      exact hsize

/-- Whatever is read, it is shorter than the array. -/
theorem length_readSocketLimiter {size : ℕ} {socket : Text} {r : Received}
    (h : readSocketLimiter size socket = some r) : r.buffer.length < size := by
  unfold readSocketLimiter at h
  split at h
  case isTrue => cases h
  case isFalse hsize =>
    split at h
    case h_1 => cases h
    case h_2 array rest hloop =>
      have hle : array.length ≤ size := length_readLoop hloop (Nat.pos_of_ne_zero hsize)
      have hpos : 0 < size := Nat.pos_of_ne_zero hsize
      dsimp only at h
      split at h
      · cases h
        have hlen := length_uptoNul_le array.dropLast
        rw [List.length_dropLast] at hlen
        dsimp only
        omega
      · split at h
        · cases h
          have hlen := length_uptoNul_le (array.dropLast.drop 3)
          rw [List.length_drop, List.length_dropLast] at hlen
          dsimp only
          omega
        · cases h

end OfcBenchmark
