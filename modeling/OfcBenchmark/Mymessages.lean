import Mathlib.Data.PNat.Basic
import OfcBenchmark.Myreport

/-!
# Socket calls, one system call at a time

`mymessages.c`: the loops of `readSocketLimiter`, `readSocket` and `writeSocket`, an iteration for
each `read` and `write`. What an array holds when `malloc` returns it is an argument, and a call
that addresses its array outside `BUFFER_SIZE` characters goes no further. That is also what
`printf` and `strlen` do where the array holds no NUL.

On a blocking socket, where no `read` fails, an iteration after the other is
`readSocketLimiter` (`feed_of_readSocketLimiter`).
-/

namespace OfcBenchmark
open Printf

/-! ## Arrays -/

/-- Characters of an array. -/
def chars (array : ℕ → Char) (p n : ℕ) : Text := (List.range n).map fun k => array (p + k)

/-- Characters are stored at an index. -/
def storeChars (array : ℕ → Char) (p : ℕ) (text : Text) : ℕ → Char := fun k =>
  if k < p then array k else (text[k - p]?).getD (array k)

@[simp] theorem length_chars (array : ℕ → Char) (p n : ℕ) : (chars array p n).length = n := by
  rw [chars, List.length_map, List.length_range]

theorem getElem?_chars (array : ℕ → Char) (p : ℕ) {n k : ℕ} (h : k < n) :
    (chars array p n)[k]? = some (array (p + k)) := by
  rw [chars, List.getElem?_map, List.getElem?_range h, Option.map_some]

theorem chars_add (array : ℕ → Char) (p m n : ℕ) :
    chars array p (m + n) = chars array p m ++ chars array (p + m) n := by
  rw [chars, List.range_add, List.map_append, List.map_map]
  refine congrArg _ (List.map_congr_left fun k _ => ?_)
  exact congrArg array (Nat.add_assoc p m k).symm

theorem chars_congr {array array' : ℕ → Char} {p n : ℕ}
    (h : ∀ k < n, array (p + k) = array' (p + k)) : chars array p n = chars array' p n :=
  List.map_congr_left fun k hk => h k (List.mem_range.mp hk)

theorem storeChars_of_lt (array : ℕ → Char) (text : Text) {p k : ℕ} (h : k < p) :
    storeChars array p text k = array k := if_pos h

theorem storeChars_apply (array : ℕ → Char) (p : ℕ) (text : Text) {k : ℕ} (h : k < text.length) :
    storeChars array p text (p + k) = text[k] := by
  rw [storeChars, if_neg (by omega), Nat.add_sub_cancel_left, List.getElem?_eq_getElem h,
    Option.getD_some]

/-- What is stored is read back. -/
theorem chars_storeChars_self (array : ℕ → Char) (p : ℕ) (text : Text) :
    chars (storeChars array p text) p text.length = text := by
  apply List.ext_getElem
  · exact length_chars _ _ _
  · intro k hk hk'
    simp only [chars, List.getElem_map, List.getElem_range]
    exact storeChars_apply array p text hk'

theorem chars_storeChars_of_le (array : ℕ → Char) (text : Text) {p q n : ℕ} (h : q + n ≤ p) :
    chars (storeChars array p text) q n = chars array q n :=
  chars_congr fun k hk => storeChars_of_lt array text (by omega)

/-! ## Calls -/

/-- How a call of a reader goes on: it needs another `read`, it returns, it has addressed its array
outside `BUFFER_SIZE` characters, or it loops for ever. -/
inductive CallState (σ ρ : Type)
  | running (call : σ)
  | returned (r : ρ)
  | outside
  | hang

/-- The text a reader returns, and what it stores at `bytesRead`. -/
structure ReadResult where
  buffer : Text
  bytesRead : ℤ
deriving DecidableEq

/-! ## `readSocketLimiter` -/

/-- The arguments and locals of `readSocketLimiter`. -/
structure LimiterCall where
  BUFFER_SIZE : ℕ
  array : ℕ → Char
  otherArray : ℕ → Char
  sz : ℕ
  count : ℤ

namespace LimiterCall

/-- At the start; `memory` is what `malloc` returns, and `otherMemory` what it returns for a
copy. -/
def start (BUFFER_SIZE : ℕ) (memory otherMemory : ℕ → Char) : LimiterCall where
  BUFFER_SIZE := BUFFER_SIZE
  array := memory
  otherArray := otherMemory
  sz := 0
  count := 0

/-- `strncpy(otherArray, text, n)`: a text that is shorter is filled up with NULs, and one that is
not gets none. -/
def strncpy (otherArray : ℕ → Char) (text : Text) (n : ℕ) : ℕ → Char :=
  storeChars otherArray 0 (text ++ List.replicate (n - text.length) '\x00')

/-- Behind the loop. The copy is taken from the fourth character on; it ends with a NUL or after
`sz` characters, and where there is no NUL among these the text goes on in what `malloc` returned
for it, to the end of the array at most. -/
def finish (call : LimiterCall) : CallState LimiterCall ReadResult :=
  let array := storeChars call.array (call.sz - 1) ['\x00']
  if array 0 ≠ '\x00' then .returned ⟨uptoNul (chars array 0 call.sz), call.count⟩
  else
    let text := uptoNul (chars array 3 call.sz)
    -- the last character the copy looks at
    if 3 + min text.length (call.sz - 1) < call.BUFFER_SIZE then
      let otherArray := strncpy call.otherArray text call.sz
      .returned ⟨uptoNul (chars otherArray 0 call.BUFFER_SIZE), call.count⟩
    else .outside

/-- The end of an iteration: `count += sz`, and the test of the loop. -/
def next (call : LimiterCall) : CallState LimiterCall ReadResult :=
  let call := { call with count := call.count + call.sz }
  if call.array (call.sz - 1) ≠ LIMITER ∧ call.sz < call.BUFFER_SIZE then .running call
  else call.finish

/-- An iteration, in which `read` stores a text, or fails with `EAGAIN` and returns -1. -/
def read (call : LimiterCall) : Option Text → CallState LimiterCall ReadResult
  | some text =>
    if call.sz + text.length ≤ call.BUFFER_SIZE then
      next { call with array := storeChars call.array call.sz text, sz := call.sz + text.length }
    else .outside
  | none =>
    -- the test looks at `array[sz - 1]`, with the -1 added to `sz`
    if call.sz ≤ 1 then .outside else next { call with sz := call.sz - 1 }

end LimiterCall

/-! ## `readSocket` -/

/-- The arguments and locals of `readSocket`. -/
structure SocketCall where
  BUFFER_SIZE : ℕ
  sz_received : ℕ
  array : ℕ → Char
  i : ℕ
  sz : ℤ
  count : ℤ

namespace SocketCall

/-- Behind the loops: `printf` and `strlen` look for a NUL in the array. -/
def finish (call : SocketCall) : CallState SocketCall ReadResult :=
  let array := chars call.array 0 call.BUFFER_SIZE
  if '\x00' ∈ array then .returned ⟨array, call.count⟩ else .outside

/-- The test of the outer loop. An inner loop without anything to read does not advance it. -/
def enter (call : SocketCall) : CallState SocketCall ReadResult :=
  if call.i < call.BUFFER_SIZE then
    if call.sz_received = 0 then .hang else .running call
  else call.finish

/-- At the start, on an array that `memset` has cleared. -/
def start (BUFFER_SIZE sz_received : ℕ) : CallState SocketCall ReadResult :=
  enter { BUFFER_SIZE := BUFFER_SIZE, sz_received := sz_received, array := fun _ => '\x00'
          i := 0, sz := 0, count := 0 }

/-- How many characters the next `read` asks for. -/
def wants (call : SocketCall) : ℕ := (call.sz_received - call.sz).toNat

/-- The end of an iteration of the inner loop: `count += sz`, and the test. -/
def next (call : SocketCall) : CallState SocketCall ReadResult :=
  let call := { call with count := call.count + call.sz }
  if call.sz = call.sz_received then
    enter { call with i := call.i + call.sz_received, sz := 0 }
  else .running call

/-- An iteration of the inner loop, in which `read` stores a text, or fails with `EAGAIN` and
returns -1. -/
def read (call : SocketCall) : Option Text → CallState SocketCall ReadResult
  | some text =>
    let p := call.i + call.sz
    if 0 ≤ p ∧ p + text.length ≤ call.BUFFER_SIZE then
      next { call with array := storeChars call.array p.toNat text, sz := call.sz + text.length }
    else .outside
  | none => next { call with sz := call.sz - 1 }

end SocketCall

/-! ## `writeSocket` -/

/-- The arguments and locals of `writeSocket`. -/
structure WriteCall where
  array : Text
  BUFFER_SIZE : ℕ
  sz_emit : ℕ
  i : ℕ
  sz : ℕ

namespace WriteCall

/-- `writeSocket(fd, text, strlen(text), strlen(text))`. -/
def start (text : Text) : WriteCall where
  array := text
  BUFFER_SIZE := text.length
  sz_emit := text.length
  i := 0
  sz := 0

/-- What is still to be written. -/
def rest (call : WriteCall) : Text := call.array.drop (call.i + call.sz)

/-- An iteration of the inner loop, in which `write` takes `k` characters. -/
def write (k : ℕ) (call : WriteCall) : Option (WriteCall × Text) :=
  if call.i < call.BUFFER_SIZE ∧ call.sz ≠ call.sz_emit ∧ 0 < k ∧ k ≤ call.sz_emit - call.sz then
    some ({ call with sz := call.sz + k }, call.rest.take k)
  else none

/-- The end of an iteration of the outer loop. -/
def endWhile (call : WriteCall) : Option WriteCall :=
  if call.i < call.BUFFER_SIZE ∧ call.sz = call.sz_emit then
    some { call with i := call.i + call.sz_emit, sz := 0 }
  else none

/-- Whether the outer loop is at its end. -/
def ended (call : WriteCall) : Bool := call.BUFFER_SIZE ≤ call.i

end WriteCall

/-! ## Reading without failures -/

namespace LimiterCall

/-- A call that has read a text. -/
structure HasRead (call : LimiterCall) (text : Text) : Prop where
  chars_eq : chars call.array 0 call.sz = text
  count_eq : 2 * call.count = call.sz * (call.sz + 1)

variable {call : LimiterCall} {text : Text}

theorem HasRead.sz_eq (h : call.HasRead text) : call.sz = text.length := by
  rw [← h.chars_eq, length_chars]

theorem hasRead_start (BUFFER_SIZE : ℕ) (memory otherMemory : ℕ → Char) :
    (start BUFFER_SIZE memory otherMemory).HasRead [] := ⟨rfl, rfl⟩

/-- The call after one more character, before the test. -/
def store (call : LimiterCall) (c : Char) : LimiterCall :=
  { call with array := storeChars call.array call.sz [c], sz := call.sz + 1
              count := call.count + (call.sz + 1 : ℕ) }

theorem HasRead.store (h : call.HasRead text) (c : Char) :
    (call.store c).HasRead (text ++ [c]) := by
  constructor
  · show chars (storeChars call.array call.sz [c]) 0 (call.sz + 1) = _
    rw [chars_add, chars_storeChars_of_le _ _ (by omega), h.chars_eq, Nat.zero_add]
    exact congrArg (text ++ ·) (chars_storeChars_self call.array call.sz [c])
  · show 2 * (call.count + (call.sz + 1 : ℕ)) = ((call.sz + 1 : ℕ) : ℤ) * ((call.sz + 1 : ℕ) + 1)
    have hcount := h.count_eq
    push_cast
    linarith

/-- The loop goes on until a LIMITER is read or the array is full. -/
theorem HasRead.read (h : call.HasRead text) (hlt : text.length < call.BUFFER_SIZE) (c : Char) :
    call.read (some [c])
      = if c ≠ LIMITER ∧ text.length + 1 < call.BUFFER_SIZE then .running (call.store c)
        else (call.store c).finish := by
  have hsz := h.sz_eq
  have hlast : storeChars call.array call.sz [c] call.sz = c :=
    storeChars_apply call.array call.sz [c] (k := 0) Nat.one_pos
  have hroom : call.sz + [c].length ≤ call.BUFFER_SIZE := by
    rw [List.length_singleton]
    omega
  rw [LimiterCall.read, if_pos hroom, next]
  show (if storeChars call.array call.sz [c] (call.sz + 1 - 1) ≠ LIMITER ∧
    call.sz + 1 < call.BUFFER_SIZE then .running (call.store c) else (call.store c).finish) = _
  rw [Nat.add_sub_cancel, hlast, hsz]

/-- The last character read is overwritten with a NUL. -/
theorem HasRead.terminated {c : Char} (h : call.HasRead (text ++ [c])) :
    call.sz = text.length + 1 ∧
      chars (storeChars call.array (call.sz - 1) ['\x00']) 0 call.sz = text ++ ['\x00'] := by
  have hsz : call.sz = text.length + 1 := by
    rw [h.sz_eq, List.length_append, List.length_singleton]
  have hchars := h.chars_eq
  rw [hsz, chars_add, Nat.zero_add] at hchars
  have htext : chars call.array 0 text.length = text := List.append_inj_left' hchars (by simp)
  refine ⟨hsz, ?_⟩
  rw [hsz, Nat.add_sub_cancel, chars_add, chars_storeChars_of_le _ _ (by omega), htext,
    Nat.zero_add]
  exact congrArg (text ++ ·) (chars_storeChars_self call.array text.length ['\x00'])

theorem uptoNul_append_nul (text rest : Text) :
    uptoNul (text ++ '\x00' :: rest) = uptoNul text := by
  induction text with
  | nil => rfl
  | cons c text ih =>
    simp only [uptoNul, List.cons_append, List.takeWhile_cons] at ih ⊢
    split
    · rw [ih]
    · rfl

theorem nul_notMem_uptoNul (array : Text) : '\x00' ∉ uptoNul array := by
  intro hmem
  have hne := List.mem_takeWhile_imp (p := (· ≠ '\x00')) hmem
  exact of_decide_eq_true hne rfl

/-- A copy with a NUL behind it is the text that was copied. -/
theorem uptoNul_strncpy (otherArray : ℕ → Char) {text : Text} {n size : ℕ}
    (hnul : '\x00' ∉ text) (hlt : text.length < n) (hle : n ≤ size) :
    uptoNul (chars (strncpy otherArray text n) 0 size) = text := by
  obtain ⟨k, rfl⟩ : ∃ k, n = text.length + (k + 1) := Nat.exists_eq_add_of_lt hlt
  obtain ⟨m, rfl⟩ := Nat.exists_eq_add_of_le hle
  have hcopied : strncpy otherArray text (text.length + (k + 1))
      = storeChars otherArray 0 (text ++ '\x00' :: List.replicate k '\x00') := by
    rw [strncpy, Nat.add_sub_cancel_left, List.replicate_succ]
  have hlength : (text ++ '\x00' :: List.replicate k '\x00').length = text.length + (k + 1) := by
    rw [List.length_append, List.length_cons, List.length_replicate]
  have hself := chars_storeChars_self otherArray 0 (text ++ '\x00' :: List.replicate k '\x00')
  rw [hlength] at hself
  rw [hcopied, chars_add, hself, List.append_assoc, List.cons_append, uptoNul_append_nul,
    uptoNul_of_not_mem hnul]

/-- The first character is what decides between the two ways to return. -/
theorem HasRead.first {a c : Char} (h : call.HasRead (a :: text ++ [c])) :
    storeChars call.array (call.sz - 1) ['\x00'] 0 = a := by
  obtain ⟨hsz, hchars⟩ := h.terminated
  have hlen : call.sz = 1 + (a :: text).length := by omega
  rw [show chars (storeChars call.array (call.sz - 1) ['\x00']) 0 call.sz = chars _ 0 _ from
    congrArg (chars _ 0) hlen, chars_add] at hchars
  exact (List.cons.inj hchars).1

/-- What a call returns whose text begins with another character than a NUL. -/
theorem HasRead.finish {c : Char} (h : call.HasRead (text ++ [c])) (hne : uptoNul text ≠ []) :
    call.finish = .returned ⟨uptoNul text, call.count⟩ := by
  obtain ⟨hsz, hchars⟩ := h.terminated
  have hfirst : storeChars call.array (call.sz - 1) ['\x00'] 0 ≠ '\x00' := by
    cases text with
    | nil => exact absurd rfl hne
    | cons a text =>
      rw [h.first]
      rintro rfl
      exact hne rfl
  rw [LimiterCall.finish]
  dsimp only
  rw [if_pos hfirst, hchars, uptoNul_append_nul]

/-- And one whose text begins with a NUL and is long enough. -/
theorem HasRead.finish_nul {c : Char} (h : call.HasRead (text ++ [c])) (hnil : uptoNul text = [])
    (hlong : 3 ≤ text.length) (hle : text.length < call.BUFFER_SIZE) :
    call.finish = .returned ⟨uptoNul (text.drop 3), call.count⟩ := by
  obtain ⟨hsz, hchars⟩ := h.terminated
  have hfirst : storeChars call.array (call.sz - 1) ['\x00'] 0 = '\x00' := by
    cases text with
    | nil => exact absurd hlong (by decide)
    | cons a text =>
      rw [h.first]
      by_contra ha
      rw [uptoNul, List.takeWhile_cons, if_pos (decide_eq_true ha)] at hnil
      cases hnil
  -- the copy ends with the NUL at the end of the text at the latest
  have hcopy : uptoNul (chars (storeChars call.array (call.sz - 1) ['\x00']) 3 call.sz)
      = uptoNul (text.drop 3) := by
    have hsplit := chars_add (storeChars call.array (call.sz - 1) ['\x00']) 0 3 call.sz
    rw [Nat.add_comm 3, chars_add, hchars] at hsplit
    have hdrop := congrArg (List.drop 3) hsplit
    rw [List.drop_left' (length_chars _ _ _), List.append_assoc,
      List.drop_append_of_le_length hlong] at hdrop
    rw [show chars _ 3 call.sz = _ from hdrop.symm]
    exact uptoNul_append_nul _ _
  have hlength := length_uptoNul_le (text.drop 3)
  rw [List.length_drop] at hlength
  rw [LimiterCall.finish]
  dsimp only
  rw [if_neg fun hne => hne hfirst, hcopy, if_pos (by omega),
    uptoNul_strncpy _ (nul_notMem_uptoNul _) (by omega) (by omega)]

/-- The characters of a text one after the other, until the call returns. -/
def feed (call : LimiterCall) : Text → Option (ReadResult × Text)
  | [] => none
  | c :: socket =>
    match call.read (some [c]) with
    | .running call' => call'.feed socket
    | .returned r => some (r, socket)
    | .outside | .hang => none

/-- It reads what the loop reads, and returns what is made of that. -/
theorem HasRead.feed {socket tail rest : Text} (h : call.HasRead text)
    (hlt : text.length < call.BUFFER_SIZE)
    (hloop : readLoop (call.BUFFER_SIZE - text.length) socket = some (tail, rest)) :
    ∃ (call' : LimiterCall) (init : Text) (c : Char), call'.BUFFER_SIZE = call.BUFFER_SIZE ∧
      call'.HasRead (init ++ [c]) ∧ text ++ tail = init ++ [c] ∧ init.length < call.BUFFER_SIZE ∧
      ∀ r, call'.finish = .returned r → call.feed socket = some (r, rest) := by
  induction socket generalizing call text tail with
  | nil => cases hloop
  | cons c socket ih =>
    have hread := h.read hlt c
    have hstore := h.store c
    unfold readLoop at hloop
    split at hloop
    case isTrue hmore =>
      obtain ⟨⟨tail', rest'⟩, hloop', heq⟩ := Option.map_eq_some_iff.mp hloop
      cases heq
      have hlen : (text ++ [c]).length = text.length + 1 := List.length_append
      rw [if_pos ⟨hmore.1, by omega⟩] at hread
      rw [Nat.sub_sub, ← hlen] at hloop'
      obtain ⟨call', init, d, hsize, hhas, heq, hinit, hfeed⟩ :=
        ih hstore (by rw [hlen]; show _ < call.BUFFER_SIZE; omega) hloop'
      refine ⟨call', init, d, hsize, hhas, ?_, hinit, fun r hr => ?_⟩
      · rw [← heq, List.append_assoc]
        rfl
      · rw [LimiterCall.feed, hread]
        exact hfeed r hr
    case isFalse hlast =>
      cases hloop
      rw [if_neg fun hmore => hlast ⟨hmore.1, by omega⟩] at hread
      refine ⟨call.store c, text, c, rfl, hstore, rfl, hlt, fun r hr => ?_⟩
      rw [LimiterCall.feed, hread, hr]

/-- Without failures the iterations make up the call that reads a text as a whole. -/
theorem feed_of_readSocketLimiter {BUFFER_SIZE : ℕ} {socket : Text} {r : Received}
    (h : readSocketLimiter BUFFER_SIZE socket = some r) (memory otherMemory : ℕ → Char) :
    (start BUFFER_SIZE memory otherMemory).feed socket
      = some (⟨r.buffer, r.bytesRead⟩, r.socket) := by
  unfold readSocketLimiter at h
  split at h
  case isTrue => cases h
  case isFalse hsize =>
    split at h
    case h_1 => cases h
    case h_2 array rest hloop =>
      obtain ⟨call', init, c, hbuffer, hhas, harray, hinit, hfeed⟩ :=
        (hasRead_start BUFFER_SIZE memory otherMemory).feed (Nat.pos_of_ne_zero hsize) hloop
      rw [List.nil_append] at harray
      have hcount : call'.count = (array.length * (array.length + 1) / 2 : ℕ) := by
        have hdouble := hhas.count_eq
        rw [hhas.sz_eq, ← harray] at hdouble
        have heven := Nat.even_mul_succ_self array.length
        have hhalf := Nat.two_mul_div_two_of_even heven
        zify at hhalf
        push_cast
        linarith
      rw [harray, List.dropLast_concat, ← harray] at h
      dsimp only at h
      split at h
      case isTrue hne =>
        cases h
        rw [← hcount]
        exact hfeed _ (hhas.finish hne)
      case isFalse hnil =>
        split at h
        case isTrue hlong =>
          cases h
          rw [← hcount]
          rw [harray, List.length_append, List.length_singleton] at hlong
          exact hfeed _ (hhas.finish_nul (not_not.mp hnil) (by omega) (hbuffer ▸ hinit))
        case isFalse => cases h

end LimiterCall

end OfcBenchmark
