import OfcBenchmark.Mymessages

/-!
# Readers that meet `EAGAIN`

Both readers add what `read` returns to `sz`, the -1 of a failure too, and add `sz` to `count`
after every `read`. So a failure takes a character back, and `count` adds up offsets. And
`readSocket` prints an array that nothing ends. The readers account for what they read exactly if
one `read` fills each block, and there is a NUL for `printf` to stop at (`readers_account_iff`).
-/

namespace OfcBenchmark
open Printf

/-! ## Runs -/

/-- How a call ends: it returns, with a number of characters taken from the stream, or it addresses
its array outside, loops for ever, or waits for more to read. -/
inductive Outcome
  | returned (r : ReadResult) (consumed : ℕ)
  | outside
  | hang
  | blocked

section Serve

variable {σ : Type} (wants : σ → ℕ) (read : σ → Option Text → CallState σ ReadResult)
  (stream : ℕ → Char)

/-- A call on a stream of which `pos` characters have been taken. Each `read` fails with `EAGAIN`,
or there are so many characters for it to return, at least one. -/
def serve : List (Option ℕ+) → ℕ → CallState σ ReadResult → Outcome
  | _, pos, .returned r => .returned r pos
  | _, _, .outside => .outside
  | _, _, .hang => .hang
  | [], _, .running _ => .blocked
  | none :: results, pos, .running call => serve results pos (read call none)
  | some k :: results, pos, .running call =>
    let n := min (k : ℕ) (wants call)
    serve results (pos + n) (read call (some (chars stream pos n)))

theorem serve_returned (results : List (Option ℕ+)) (pos : ℕ) (r : ReadResult) :
    serve wants read stream results pos (.returned r) = .returned r pos := by
  cases results with
  | nil => rfl
  | cons result results => cases result <;> rfl

theorem serve_outside (results : List (Option ℕ+)) (pos : ℕ) :
    serve wants read stream results pos .outside = .outside := by
  cases results with
  | nil => rfl
  | cons result results => cases result <;> rfl

theorem serve_hang (results : List (Option ℕ+)) (pos : ℕ) :
    serve wants read stream results pos .hang = .hang := by
  cases results with
  | nil => rfl
  | cons result results => cases result <;> rfl

/-- What every `read` preserves holds when the call returns. -/
theorem serve_invariant {wants : σ → ℕ} {read : σ → Option Text → CallState σ ReadResult}
    {stream : ℕ → Char} (Inv : ℕ → CallState σ ReadResult → Prop) {results : List (Option ℕ+)}
    (hfail : none ∈ results → ∀ pos call, Inv pos (.running call) → Inv pos (read call none))
    (hread : ∀ pos call (k : ℕ+), Inv pos (.running call) →
      Inv (pos + min (k : ℕ) (wants call))
        (read call (some (chars stream pos (min (k : ℕ) (wants call))))))
    {pos consumed : ℕ} {p : CallState σ ReadResult} {r : ReadResult} (h : Inv pos p)
    (hserve : serve wants read stream results pos p = .returned r consumed) :
    Inv consumed (.returned r) := by
  induction results generalizing pos p with
  | nil =>
    cases p with
    | returned r' =>
      cases hserve
      exact h
    | running | outside | hang => cases hserve
  | cons result results ih =>
    have hrest := fun hmem => hfail (List.mem_cons_of_mem result hmem)
    cases p with
    | running call =>
      cases result with
      | none => exact ih hrest (hfail List.mem_cons_self pos call h) hserve
      | some k => exact ih hrest (hread pos call k h) hserve
    | returned r' =>
      rw [serve_returned] at hserve
      cases hserve
      exact h
    | outside =>
      rw [serve_outside] at hserve
      cases hserve
    | hang =>
      rw [serve_hang] at hserve
      cases hserve

end Serve

/-- `readSocketLimiter` asks for one character at a time. -/
def limiterRun (BUFFER_SIZE : ℕ) (memory otherMemory stream : ℕ → Char)
    (results : List (Option ℕ+)) : Outcome :=
  serve (fun _ => 1) LimiterCall.read stream results 0
    (.running (.start BUFFER_SIZE memory otherMemory))

/-- `readSocket` asks for the rest of a block. -/
def socketRun (BUFFER_SIZE sz_received : ℕ) (stream : ℕ → Char) (results : List (Option ℕ+)) :
    Outcome :=
  serve SocketCall.wants SocketCall.read stream results 0
    (SocketCall.start BUFFER_SIZE sz_received)

/-- The reader returns, the same as if no `read` had failed, and stores the number of characters it
has taken. A reader that returns has not addressed its array outside. -/
def Accounts (run : List (Option ℕ+) → Outcome) (results : List (Option ℕ+)) : Prop :=
  ∃ r consumed r' consumed', run results = .returned r consumed ∧
    run (results.filter Option.isSome) = .returned r' consumed' ∧ r.buffer = r'.buffer ∧
    r.bytesRead = consumed

/-! ## `readSocketLimiter` -/

/-- An iteration adds `sz` to `count`, whatever comes next. -/
theorem LimiterCall.next_cases (call : LimiterCall) :
    call.next = .running { call with count := call.count + call.sz } ∨ call.next = .outside ∨
      ∃ buffer, call.next = .returned ⟨buffer, call.count + call.sz⟩ := by
  unfold next finish
  dsimp only
  split
  · exact .inl rfl
  · split
    · exact .inr (.inr ⟨_, rfl⟩)
    · split
      · exact .inr (.inr ⟨_, rfl⟩)
      · exact .inr (.inl rfl)

/-- `count` is ahead of what has been taken, and will be when the call returns. -/
def Ahead (pos : ℕ) : CallState LimiterCall ReadResult → Prop
  | .running call => 1 ≤ call.sz ∧ (pos : ℤ) ≤ call.count
  | .returned r => (pos : ℤ) < r.bytesRead
  | .outside | .hang => True

theorem Ahead.next (call : LimiterCall) {pos : ℕ} (hsz : 1 ≤ call.sz)
    (hcount : (pos : ℤ) < call.count + call.sz) : Ahead pos call.next := by
  rcases call.next_cases with hrunning | hout | ⟨buffer, hreturned⟩
  · rw [hrunning]
    exact ⟨hsz, hcount.le⟩
  · rw [hout]
    trivial
  · rw [hreturned]
    exact hcount

section Limiter

variable (memory otherMemory stream : ℕ → Char)

/-- With something in the array, every further `read` adds more to `count` than it takes. -/
theorem lt_bytesRead {stream : ℕ → Char} {results : List (Option ℕ+)} {pos consumed : ℕ}
    {call : LimiterCall} {r : ReadResult} (h : Ahead pos (.running call))
    (hserve : serve (fun _ => 1) LimiterCall.read stream results pos (.running call)
      = .returned r consumed) : (consumed : ℤ) < r.bytesRead := by
  refine serve_invariant Ahead ?_ ?_ h hserve
  · rintro - pos call ⟨hsz, hcount⟩
    rw [LimiterCall.read]
    split
    -- `sz` is 0 only at the start, and there is something in the array
    · trivial
    · rename_i hlong
      refine Ahead.next { call with sz := call.sz - 1 } ?_ ?_
      · show 1 ≤ call.sz - 1
        omega
      · show (pos : ℤ) < call.count + (call.sz - 1 : ℕ)
        omega
  · rintro pos call k ⟨hsz, hcount⟩
    rw [min_eq_right (show 1 ≤ (k : ℕ) from k.pos), LimiterCall.read]
    -- the one character is taken, but the whole of `sz` is added to `count`
    split
    · have hlength := length_chars stream pos 1
      refine Ahead.next { call with
        array := storeChars call.array call.sz (chars stream pos 1)
        sz := call.sz + (chars stream pos 1).length } ?_ ?_
      · show 1 ≤ call.sz + _
        omega
      · show ((pos + 1 : ℕ) : ℤ) < call.count + (call.sz + (chars stream pos 1).length : ℕ)
        omega
    · trivial

/-- The first `read`. -/
theorem limiterRun_cons (BUFFER_SIZE : ℕ) (k : ℕ+) (results : List (Option ℕ+)) :
    limiterRun BUFFER_SIZE memory otherMemory stream (some k :: results)
      = serve (fun _ => 1) LimiterCall.read stream results 1
          ((LimiterCall.start BUFFER_SIZE memory otherMemory).read (some [stream 0])) := by
  have hmin : min (k : ℕ) 1 = 1 := min_eq_right k.pos
  show serve _ _ stream results (0 + min (k : ℕ) 1)
    (LimiterCall.read _ (some (chars stream 0 (min (k : ℕ) 1)))) = _
  rw [hmin]
  rfl

/-- What a call returns whose first character ends the loop: the array begins with a NUL, and its
fourth character is copied, if it is not one. -/
def copied (BUFFER_SIZE : ℕ) : Text :=
  uptoNul (chars (LimiterCall.strncpy otherMemory (uptoNul [memory 3]) 1) 0 BUFFER_SIZE)

theorem read_start (BUFFER_SIZE : ℕ) (c : Char) :
    (LimiterCall.start BUFFER_SIZE memory otherMemory).read (some [c])
      = if c ≠ LIMITER ∧ 1 < BUFFER_SIZE then
          .running ((LimiterCall.start BUFFER_SIZE memory otherMemory).store c)
        else if 3 < BUFFER_SIZE then .returned ⟨copied memory otherMemory BUFFER_SIZE, 1⟩
        else .outside := by
  rcases Nat.eq_zero_or_pos BUFFER_SIZE with rfl | hpos
  · rw [if_neg fun h => absurd h.2 (by decide), if_neg (by decide)]
    rfl
  · have hfinish : ((LimiterCall.start BUFFER_SIZE memory otherMemory).store c).finish
        = if 3 < BUFFER_SIZE then .returned ⟨copied memory otherMemory BUFFER_SIZE, 1⟩
          else .outside := by
      rw [LimiterCall.finish]
      dsimp only
      rw [if_neg fun hne => hne rfl]
      show (if 3 + min (uptoNul [memory 3]).length 0 < BUFFER_SIZE then _ else _) = _
      rw [Nat.min_zero]
      rfl
    rw [(LimiterCall.hasRead_start BUFFER_SIZE memory otherMemory).read hpos c, hfinish]
    rfl

/-- The call accounts for what it reads exactly if the first `read` finds the LIMITER, and the array
has a fourth character. -/
theorem limiter_accounts_iff (BUFFER_SIZE : ℕ) (results : List (Option ℕ+)) :
    Accounts (limiterRun BUFFER_SIZE memory otherMemory stream) results
      ↔ 4 ≤ BUFFER_SIZE ∧ stream 0 = LIMITER ∧ ∃ k rest, results = some k :: rest := by
  constructor
  · rintro ⟨r, consumed, r', consumed', hrun, -, -, hcount⟩
    rcases results with - | ⟨- | k, rest⟩
    -- without a result the call waits; a failure stores in front of the array
    · cases hrun
    · rw [limiterRun, serve, LimiterCall.read] at hrun
      cases (serve_outside _ _ _ rest 0).symm.trans hrun
    · rw [limiterRun_cons, read_start] at hrun
      split at hrun
      case isTrue =>
        -- another `read` follows, and `count` gets ahead
        have hahead : Ahead 1 (.running
            ((LimiterCall.start BUFFER_SIZE memory otherMemory).store (stream 0))) :=
          ⟨le_rfl, le_rfl⟩
        have hlt := lt_bytesRead hahead hrun
        omega
      case isFalse hlast =>
        split at hrun
        case isTrue hlong =>
          refine ⟨hlong, ?_, k, rest, rfl⟩
          by_contra hne
          exact hlast ⟨hne, by omega⟩
        case isFalse =>
          rw [serve_outside] at hrun
          cases hrun
  · rintro ⟨hlong, hlimiter, k, rest, rfl⟩
    have hreturns : ∀ rest, limiterRun BUFFER_SIZE memory otherMemory stream (some k :: rest)
        = .returned ⟨copied memory otherMemory BUFFER_SIZE, 1⟩ 1 := by
      intro rest
      rw [limiterRun_cons, read_start, if_neg fun h => h.1 hlimiter,
        if_pos (show 3 < BUFFER_SIZE from hlong), serve_returned]
    exact ⟨_, 1, _, 1, hreturns rest, hreturns (rest.filter Option.isSome), rfl, rfl⟩

end Limiter

/-! ## `readSocket` -/

/-- A call in the middle of a block. A failure can take `sz` below 0. -/
structure Reading (B s : ℕ) (call : SocketCall) : Prop where
  BUFFER_SIZE_eq : call.BUFFER_SIZE = B
  sz_received_eq : call.sz_received = s
  pos : 0 < s
  dvd : s ∣ call.i
  lt : call.i < B
  sz_lt : call.sz < s

section Socket

variable {B s : ℕ} {call : SocketCall} {stream : ℕ → Char}

theorem Reading.read_none (h : Reading B s call) :
    call.read none = .running { call with sz := call.sz - 1, count := call.count + (call.sz - 1) } ∧
      Reading B s { call with sz := call.sz - 1, count := call.count + (call.sz - 1) } := by
  have hlt := h.sz_lt
  have hs := h.sz_received_eq
  refine ⟨if_neg ?_, ⟨h.BUFFER_SIZE_eq, hs, h.pos, h.dvd, h.lt, ?_⟩⟩
  · show ¬ call.sz - 1 = call.sz_received
    omega
  · show call.sz - 1 < s
    omega

/-- A `read` asks for something. -/
theorem Reading.wants_pos (h : Reading B s call) :
    0 < call.wants ∧ call.sz + call.wants = s := by
  have hlt := h.sz_lt
  have hs := h.sz_received_eq
  unfold SocketCall.wants
  omega

/-- Behind the loops a call returns its array if there is a NUL in it. -/
theorem SocketCall.finish_cases (call : SocketCall) :
    '\x00' ∈ chars call.array 0 call.BUFFER_SIZE ∧
        call.finish = .returned ⟨chars call.array 0 call.BUFFER_SIZE, call.count⟩ ∨
      '\x00' ∉ chars call.array 0 call.BUFFER_SIZE ∧ call.finish = .outside := by
  unfold SocketCall.finish
  dsimp only
  split
  case isTrue hnul => exact .inl ⟨hnul, rfl⟩
  case isFalse hnul => exact .inr ⟨hnul, rfl⟩

/-- What is stored inside the array: the block goes on, or the next one begins, or it was the
last. -/
theorem Reading.read_some (h : Reading B s call) {text : Text} (hle : call.sz + text.length ≤ s)
    (hin : 0 ≤ call.i + call.sz ∧ call.i + call.sz + text.length ≤ B) :
    ∃ call', call'.BUFFER_SIZE = B ∧
      call'.array = storeChars call.array (call.i + call.sz).toNat text ∧
      call'.count = call.count + (call.sz + text.length) ∧
      (call.sz + text.length < s ∧ call'.i = call.i ∧ call'.sz = call.sz + text.length ∧
          Reading B s call' ∧ call.read (some text) = .running call' ∨
        call.sz + text.length = s ∧ call'.i = call.i + s ∧ call'.sz = 0 ∧ Reading B s call' ∧
          call.read (some text) = .running call' ∨
        call.sz + text.length = s ∧ call.i + s = B ∧ call.read (some text) = call'.finish) := by
  obtain ⟨B', s', array, i, sz, count⟩ := call
  obtain ⟨rfl, rfl, hpos, hdvd, hlt, hsz⟩ := h
  dsimp only at hle hin hdvd hlt hsz ⊢
  have hread : SocketCall.read ⟨B', s', array, i, sz, count⟩ (some text)
      = SocketCall.next
          ⟨B', s', storeChars array (i + sz).toNat text, i, sz + text.length, count⟩ := if_pos hin
  by_cases hfull : sz + text.length = s'
  · have hnext : SocketCall.next
          ⟨B', s', storeChars array (i + sz).toNat text, i, sz + text.length, count⟩
        = SocketCall.enter ⟨B', s', storeChars array (i + sz).toNat text, i + s', 0,
            count + (sz + text.length)⟩ := if_pos hfull
    refine ⟨⟨B', s', storeChars array (i + sz).toNat text, i + s', 0, count + (sz + text.length)⟩,
      rfl, rfl, rfl, ?_⟩
    rw [hread, hnext, SocketCall.enter]
    dsimp only
    by_cases hmore : i + s' < B'
    · refine .inr (.inl ⟨hfull, rfl, rfl, ⟨rfl, rfl, hpos, ?_, hmore, ?_⟩, ?_⟩)
      · exact Dvd.dvd.add hdvd (dvd_refl s')
      · show (0 : ℤ) < s'
        exact_mod_cast hpos
      · rw [if_pos hmore, if_neg hpos.ne']
    · refine .inr (.inr ⟨hfull, by omega, ?_⟩)
      rw [if_neg hmore]
  · have hnext : SocketCall.next
          ⟨B', s', storeChars array (i + sz).toNat text, i, sz + text.length, count⟩
        = .running ⟨B', s', storeChars array (i + sz).toNat text, i, sz + text.length,
            count + (sz + text.length)⟩ := if_neg hfull
    have hlt' : sz + text.length < s' := by omega
    exact ⟨_, rfl, rfl, rfl, .inl ⟨hlt', rfl, rfl, ⟨rfl, rfl, hpos, hdvd, hlt, hlt'⟩,
      hread.trans hnext⟩⟩

/-- How far what is stored lags behind what has been taken: by a character for each failure.
When the call returns, the last character of the array is the last one taken. -/
def Shifted (B s : ℕ) (stream : ℕ → Char) (P : ℕ → Prop) (pos : ℕ) :
    CallState SocketCall ReadResult → Prop
  | .running call => Reading B s call ∧ ∃ F : ℕ, P F ∧ call.i + call.sz + F = pos
  | .returned r =>
    s ∣ B ∧ (∃ F, P F ∧ B + F = pos) ∧ r.buffer[B - 1]? = some (stream (pos - 1))
  | .outside | .hang => True

theorem Shifted.read_some {P : ℕ → Prop} {pos : ℕ}
    (h : Shifted B s stream P pos (.running call)) (k : ℕ+) :
    Shifted B s stream P (pos + min (k : ℕ) call.wants)
      (call.read (some (chars stream pos (min (k : ℕ) call.wants)))) := by
  obtain ⟨hreading, F, hF, hpos⟩ := h
  obtain ⟨hwants, hblock⟩ := hreading.wants_pos
  have hk := k.pos
  obtain ⟨n, hn⟩ : ∃ n, min (k : ℕ) call.wants = n + 1 := Nat.exists_eq_succ_of_ne_zero (by omega)
  have hlength := length_chars stream pos (n + 1)
  rw [hn]
  by_cases hin : 0 ≤ call.i + call.sz ∧
      call.i + call.sz + (chars stream pos (n + 1)).length ≤ (B : ℤ)
  · obtain ⟨call', hsize, harray, -, hcases⟩ := hreading.read_some (by rw [hlength]; omega) hin
    rw [hlength] at hin hcases
    obtain ⟨-, hi, hsz, hreading', hread⟩ | ⟨hfull, hi, hsz, hreading', hread⟩ |
      ⟨hfull, hlast, hread⟩ := hcases
    · rw [hread]
      refine ⟨hreading', F, hF, ?_⟩
      rw [hi, hsz]
      push_cast
      omega
    · rw [hread]
      refine ⟨hreading', F, hF, ?_⟩
      rw [hi, hsz]
      push_cast
      omega
    · rw [hread]
      obtain ⟨-, hfinish⟩ | ⟨-, hfinish⟩ := call'.finish_cases
      case inr =>
        rw [hfinish]
        trivial
      rw [hfinish, hsize]
      refine ⟨?_, ⟨F, hF, by omega⟩, ?_⟩
      · rw [← hlast]
        exact Dvd.dvd.add hreading.dvd (dvd_refl s)
      -- the last character of the array is stored by this `read`
      · have hplace : B - 1 = (call.i + call.sz).toNat + n := by omega
        have hn' : n < (chars stream pos (n + 1)).length := by omega
        have htaken : (chars stream pos (n + 1))[n] = stream (pos + n) := by
          have hget := getElem?_chars stream pos (Nat.lt_succ_self n)
          rw [List.getElem?_eq_getElem hn', Option.some.injEq] at hget
          exact hget
        have hpos' := hreading.lt
        rw [getElem?_chars _ _ (show B - 1 < B by omega), Nat.zero_add, harray, hplace,
          storeChars_apply _ _ _ hn', htaken]
        rfl
  · have hout : call.read (some (chars stream pos (n + 1))) = .outside := by
      rw [← hreading.BUFFER_SIZE_eq] at hin
      exact if_neg hin
    rw [hout]
    trivial

/-- When a call returns, its block size divides the array, and it has taken a character more for
each failure. -/
theorem shifted_of_returned {P : ℕ → Prop} {results : List (Option ℕ+)}
    (hP : none ∈ results → ∀ F, P F → P (F + 1)) {pos consumed : ℕ}
    {p : CallState SocketCall ReadResult} {r : ReadResult} (h : Shifted B s stream P pos p)
    (hserve : serve SocketCall.wants SocketCall.read stream results pos p = .returned r consumed) :
    Shifted B s stream P consumed (.returned r) := by
  refine serve_invariant _ (fun hmem => ?_) (fun _ _ k h => h.read_some k) h hserve
  rintro pos call ⟨hreading, F, hF, hpos⟩
  obtain ⟨hread, hreading'⟩ := hreading.read_none
  rw [hread]
  refine ⟨hreading', F + 1, hP hmem F hF, ?_⟩
  push_cast
  omega

/-- A call that has taken no more than the array holds when it returns, and counts right, has found
each block as a whole. -/
theorem full_of_returned {results : List (Option ℕ+)} {pos : ℕ} {r : ReadResult}
    (h : Reading B s call) (hsz : 0 ≤ call.sz) (hpos : call.i + call.sz = pos)
    (hcount : (pos : ℤ) ≤ call.count)
    (hserve : serve SocketCall.wants SocketCall.read stream results pos (.running call)
      = .returned r B) (hbytes : r.bytesRead = B) :
    call.sz = 0 ∧ call.count = pos ∧ ∃ (full : List ℕ+) (rest : List (Option ℕ+)),
      results = full.map some ++ rest ∧
      (∀ k ∈ full, s ≤ (k : ℕ)) ∧ call.i + full.length * s = B := by
  induction results generalizing pos call with
  | nil => cases hserve
  | cons result results ih =>
    cases result with
    | none =>
      -- a failure leaves the call behind for good
      obtain ⟨hread, hreading⟩ := h.read_none
      have hserve' : serve SocketCall.wants SocketCall.read stream results pos (call.read none)
          = .returned r B := hserve
      rw [hread] at hserve'
      have hshifted : Shifted B s stream (1 ≤ ·) pos (.running
          { call with sz := call.sz - 1, count := call.count + (call.sz - 1) }) := by
        refine ⟨hreading, 1, le_rfl, ?_⟩
        push_cast
        omega
      obtain ⟨-, ⟨F, hF, hB⟩, -⟩ :=
        shifted_of_returned (fun _ F hF => Nat.le_succ_of_le hF) hshifted hserve'
      omega
    | some k =>
      have hserve' : serve SocketCall.wants SocketCall.read stream results
          (pos + min (k : ℕ) call.wants)
          (call.read (some (chars stream pos (min (k : ℕ) call.wants)))) = .returned r B := hserve
      obtain ⟨hwants, hblock⟩ := h.wants_pos
      have hk := k.pos
      obtain ⟨n, hn⟩ : ∃ n, min (k : ℕ) call.wants = n := ⟨_, rfl⟩
      have hlength := length_chars stream pos n
      rw [hn] at hserve'
      by_cases hin : 0 ≤ call.i + call.sz ∧ call.i + call.sz + (chars stream pos n).length ≤ (B : ℤ)
      · obtain ⟨call', -, -, hcount', hcases⟩ := h.read_some (by rw [hlength]; omega) hin
        rw [hlength] at hcount' hcases
        obtain ⟨-, hi, hsz', hreading', hread⟩ | ⟨hfull, hi, hsz', hreading', hread⟩ |
          ⟨hfull, hlast, hread⟩ := hcases
        -- a part of a block: `count` is ahead at the next `read`, which begins with `sz` above 0
        · rw [hread] at hserve'
          obtain ⟨hzero, -⟩ := ih hreading' (by omega) (by push_cast; omega) (by push_cast; omega)
            hserve'
          omega
        -- a whole block, and more to come
        · rw [hread] at hserve'
          obtain ⟨-, heq, full, rest, rfl, hwhole, hlen⟩ :=
            ih hreading' (by omega) (by push_cast; omega) (by push_cast; omega) hserve'
          refine ⟨by omega, by omega, k :: full, rest, rfl, ?_, ?_⟩
          · exact List.forall_mem_cons.mpr ⟨by omega, hwhole⟩
          · rw [List.length_cons, Nat.add_mul, Nat.one_mul]
            omega
        -- the last block
        · rw [hread] at hserve'
          obtain ⟨-, hfinish⟩ | ⟨-, hfinish⟩ := call'.finish_cases
          case inr =>
            rw [hfinish, serve_outside] at hserve'
            cases hserve'
          rw [hfinish, serve_returned] at hserve'
          cases hserve'
          dsimp only at hbytes
          refine ⟨by omega, by omega, [k], results, rfl, ?_, ?_⟩
          · exact List.forall_mem_singleton.mpr (by omega)
          · rw [List.length_singleton, Nat.one_mul, hlast]
      · have hout : call.read (some (chars stream pos n)) = .outside := by
          rw [← h.BUFFER_SIZE_eq] at hin
          exact if_neg hin
        rw [hout, serve_outside] at hserve'
        cases hserve'

/-- Blocks that are found as a whole are read one after the other. -/
theorem serve_full {full : List ℕ+} (hwhole : ∀ k ∈ full, s ≤ (k : ℕ)) (h : Reading B s call)
    (hsz : call.sz = 0) (hcount : call.count = call.i)
    (hchars : chars call.array 0 call.i = chars stream 0 call.i)
    (hlen : call.i + full.length * s = B) (hnul : '\x00' ∈ chars stream 0 B)
    (rest : List (Option ℕ+)) :
    serve SocketCall.wants SocketCall.read stream (full.map some ++ rest) call.i (.running call)
      = .returned ⟨chars stream 0 B, B⟩ B := by
  induction full generalizing call with
  | nil =>
    have hlt := h.lt
    rw [List.length_nil, Nat.zero_mul] at hlen
    omega
  | cons k full ih =>
    obtain ⟨hk, hwhole⟩ := List.forall_mem_cons.mp hwhole
    rw [List.length_cons, Nat.add_mul, Nat.one_mul] at hlen
    obtain ⟨-, hblock⟩ := h.wants_pos
    have hn : min (k : ℕ) call.wants = s := by omega
    have hlength := length_chars stream call.i s
    have hin : 0 ≤ call.i + call.sz ∧
        call.i + call.sz + (chars stream call.i s).length ≤ (B : ℤ) := by omega
    obtain ⟨call', hsize, harray, hcount', hcases⟩ :=
      h.read_some (show call.sz + (chars stream call.i s).length ≤ s by omega) hin
    have hplace : (call.i + call.sz).toNat = call.i := by omega
    have hstored : chars call'.array 0 (call.i + s) = chars stream 0 (call.i + s) := by
      have hself := chars_storeChars_self call.array call.i (chars stream call.i s)
      rw [hlength] at hself
      rw [harray, hplace, chars_add, chars_add, Nat.zero_add, hself,
        chars_storeChars_of_le _ _ (by omega), hchars]
    show serve _ _ stream (full.map some ++ rest) (call.i + min (k : ℕ) call.wants)
      (call.read (some (chars stream call.i (min (k : ℕ) call.wants)))) = _
    rw [hn]
    obtain ⟨hmore, -⟩ | ⟨-, hi, hsz', hreading', hread⟩ | ⟨-, hlast, hread⟩ := hcases
    · omega
    · rw [hread, ← hi]
      exact ih hwhole hreading' hsz' (by omega) (by rw [hi]; exact hstored) (by omega)
    · obtain ⟨-, hfinish⟩ | ⟨hnot, -⟩ := call'.finish_cases
      case inr =>
        rw [hsize, ← hlast, hstored, hlast] at hnot
        exact absurd hnul hnot
      rw [hread, hfinish, serve_returned, hcount', hsize, ← hlast, hstored]
      congr 2
      push_cast
      omega

/-- A block for each `read`, as many as the array has. -/
def OneReadEach (B s : ℕ) (results : List (Option ℕ+)) : Prop :=
  ∃ (full : List ℕ+) (rest : List (Option ℕ+)), results = full.map some ++ rest ∧
    (∀ k ∈ full, s ≤ (k : ℕ)) ∧ full.length * s = B

theorem reading_start (hB : 0 < B) (hs : 0 < s) :
    ∃ call, SocketCall.start B s = .running call ∧ Reading B s call ∧ call.i = 0 ∧ call.sz = 0 ∧
      call.count = 0 := by
  refine ⟨⟨B, s, fun _ => '\x00', 0, 0, 0⟩, ?_, ⟨rfl, rfl, hs, dvd_zero s, hB, ?_⟩, rfl, rfl, rfl⟩
  · rw [SocketCall.start, SocketCall.enter, if_pos hB, if_neg hs.ne']
  · show (0 : ℤ) < s
    exact_mod_cast hs

/-- Without an array there is no NUL to stop at. -/
theorem not_accounts_noArray (s : ℕ) (results : List (Option ℕ+)) (stream : ℕ → Char) :
    ¬ Accounts (socketRun 0 s stream) results := by
  rintro ⟨r, consumed, -, -, hrun, -⟩
  have houtside : SocketCall.start 0 s = .outside := rfl
  rw [socketRun, houtside, serve_outside] at hrun
  cases hrun

/-- Without a block size the outer loop does not advance. -/
theorem not_accounts_noBlock (hB : 0 < B) (results : List (Option ℕ+)) (stream : ℕ → Char) :
    ¬ Accounts (socketRun B 0 stream) results := by
  have hhang : SocketCall.start B 0 = .hang := by
    rw [SocketCall.start, SocketCall.enter, if_pos hB, if_pos rfl]
  rintro ⟨r, consumed, -, -, hrun, -⟩
  rw [socketRun, hhang, serve_hang] at hrun
  cases hrun

theorem socketRun_eq (hstart : SocketCall.start B s = .running call) (stream : ℕ → Char)
    (results : List (Option ℕ+)) : socketRun B s stream results
      = serve SocketCall.wants SocketCall.read stream results 0 (.running call) :=
  congrArg (serve _ _ stream results 0) hstart

/-- What is stored without failures is what has been taken. When the call returns, there is a NUL
in it. -/
def StoredSoFar (B s : ℕ) (stream : ℕ → Char) (pos : ℕ) : CallState SocketCall ReadResult → Prop
  | .running call => Reading B s call ∧ call.i + call.sz = pos ∧
      chars call.array 0 pos = chars stream 0 pos
  | .returned r => '\x00' ∈ r.buffer ∧ r.buffer = chars stream 0 B
  | .outside | .hang => True

theorem StoredSoFar.read_some {pos : ℕ} (h : StoredSoFar B s stream pos (.running call)) (k : ℕ+) :
    StoredSoFar B s stream (pos + min (k : ℕ) call.wants)
      (call.read (some (chars stream pos (min (k : ℕ) call.wants)))) := by
  obtain ⟨hreading, hpos, hchars⟩ := h
  obtain ⟨hwants, hblock⟩ := hreading.wants_pos
  obtain ⟨n, hn⟩ : ∃ n, min (k : ℕ) call.wants = n := ⟨_, rfl⟩
  have hlength := length_chars stream pos n
  rw [hn]
  by_cases hin : 0 ≤ call.i + call.sz ∧ call.i + call.sz + (chars stream pos n).length ≤ (B : ℤ)
  · obtain ⟨call', hsize, harray, -, hcases⟩ := hreading.read_some (by rw [hlength]; omega) hin
    rw [hlength] at hcases
    have hplace : (call.i + call.sz).toNat = pos := by omega
    have hstored : chars call'.array 0 (pos + n) = chars stream 0 (pos + n) := by
      have hself := chars_storeChars_self call.array pos (chars stream pos n)
      rw [hlength] at hself
      rw [harray, hplace, chars_add, chars_add, Nat.zero_add, hself,
        chars_storeChars_of_le _ _ (by omega), hchars]
    obtain ⟨-, hi, hsz, hreading', hread⟩ | ⟨hfull, hi, hsz, hreading', hread⟩ |
      ⟨hfull, hlast, hread⟩ := hcases
    · rw [hread]
      refine ⟨hreading', ?_, hstored⟩
      rw [hi, hsz]
      push_cast
      omega
    · rw [hread]
      refine ⟨hreading', ?_, hstored⟩
      rw [hi, hsz]
      push_cast
      omega
    · rw [hread]
      obtain ⟨hnul, hfinish⟩ | ⟨-, hfinish⟩ := call'.finish_cases
      case inr =>
        rw [hfinish]
        trivial
      have hend : pos + n = B := by omega
      rw [hend] at hstored
      rw [hfinish]
      rw [hsize] at hnul ⊢
      exact ⟨hnul, hstored⟩
  · have hout : call.read (some (chars stream pos n)) = .outside := by
      rw [← hreading.BUFFER_SIZE_eq] at hin
      exact if_neg hin
    rw [hout]
    trivial

theorem none_notMem_filter (results : List (Option ℕ+)) :
    none ∉ results.filter Option.isSome := by
  intro hmem
  cases (List.mem_filter.mp hmem).2

/-- A call that returns without failures has found a NUL in the stream. -/
theorem exists_nul_of_accounts {results : List (Option ℕ+)}
    (h : Accounts (socketRun B s stream) results) : ∃ k < B, stream k = '\x00' := by
  rcases Nat.eq_zero_or_pos B with rfl | hB
  · exact absurd h (not_accounts_noArray s results stream)
  rcases Nat.eq_zero_or_pos s with rfl | hs
  · exact absurd h (not_accounts_noBlock hB results stream)
  obtain ⟨call, hstart, hreading, hi, hsz, -⟩ := reading_start hB hs
  obtain ⟨-, -, r', consumed', -, hclean, -, -⟩ := h
  rw [socketRun_eq hstart] at hclean
  have hstored : StoredSoFar B s stream 0 (.running call) := ⟨hreading, by rw [hi, hsz]; rfl, rfl⟩
  have hreturned : StoredSoFar B s stream consumed' (.returned r') :=
    serve_invariant _ (fun hmem => absurd hmem (none_notMem_filter results))
      (fun _ _ k h => h.read_some k) hstored hclean
  obtain ⟨hnul, hbuffer⟩ := hreturned
  rw [hbuffer, chars] at hnul
  obtain ⟨k, hk, heq⟩ := List.mem_map.mp hnul
  rw [Nat.zero_add] at heq
  exact ⟨k, List.mem_range.mp hk, heq⟩

/-- A stream with its only NUL at the end of the array. -/
def lastNul (B : ℕ) : ℕ → Char := fun k => if k + 1 = B then '\x00' else 'b'

theorem exists_lastNul (hB : 0 < B) : ∃ k < B, lastNul B k = '\x00' :=
  ⟨B - 1, by omega, if_pos (by omega)⟩

theorem oneReadEach_of_accounts {results : List (Option ℕ+)} (hB : 0 < B) (hs : 0 < s)
    (h : Accounts (socketRun B s (lastNul B)) results) : OneReadEach B s results := by
  obtain ⟨call, hstart, hreading, hi, hsz, hcount⟩ := reading_start hB hs
  obtain ⟨r, consumed, r', consumed', hrun, hclean, hbuffer, hbytes⟩ := h
  rw [socketRun_eq hstart] at hrun hclean
  have hshifted : ∀ P : ℕ → Prop, P 0 → Shifted B s (lastNul B) P 0 (.running call) :=
    fun P hP => ⟨hreading, 0, hP, by rw [hi, hsz]; rfl⟩
  obtain ⟨-, ⟨F, -, hF⟩, hlast⟩ :=
    shifted_of_returned (fun _ _ _ => trivial) (hshifted (fun _ => True) trivial) hrun
  -- without the failures as many characters are taken as the array has
  obtain ⟨-, ⟨_, rfl, hF'⟩, hlast'⟩ :=
    shifted_of_returned (fun hmem => absurd hmem (none_notMem_filter results))
      (hshifted (· = 0) rfl) hclean
  -- and the NUL is the last that was taken in both runs
  have hB' : consumed = B := by
    rw [hbuffer, hlast', Option.some.injEq] at hlast
    unfold lastNul at hlast
    rw [if_pos (show consumed' - 1 + 1 = B by omega)] at hlast
    split at hlast
    · omega
    · cases hlast
  subst hB'
  obtain ⟨-, -, full, rest, hresults, hwhole, hlen⟩ := full_of_returned hreading hsz.ge
    (by rw [hi, hsz]; rfl) (by rw [hcount]; rfl) hrun hbytes
  exact ⟨full, rest, hresults, hwhole, by omega⟩

theorem accounts_of_oneReadEach {results : List (Option ℕ+)} (hB : 0 < B) (hs : 0 < s)
    (h : OneReadEach B s results) (hnul : ∃ k < B, stream k = '\x00') :
    Accounts (socketRun B s stream) results := by
  obtain ⟨call, hstart, hreading, hi, hsz, hcount⟩ := reading_start hB hs
  obtain ⟨full, rest, rfl, hwhole, hlen⟩ := h
  have hmem : '\x00' ∈ chars stream 0 B := by
    obtain ⟨k, hk, heq⟩ := hnul
    refine List.mem_map.mpr ⟨k, List.mem_range.mpr hk, ?_⟩
    rw [Nat.zero_add, heq]
  have hreturns : ∀ rest, socketRun B s stream (full.map some ++ rest)
      = .returned ⟨chars stream 0 B, B⟩ B := by
    intro rest
    have hserve : serve SocketCall.wants SocketCall.read stream (full.map some ++ rest) call.i
        (.running call) = .returned ⟨chars stream 0 B, B⟩ B :=
      serve_full hwhole hreading hsz (by rw [hcount, hi]; rfl) (by rw [hi]; rfl) (by omega) hmem
        rest
    rwa [hi, ← socketRun_eq hstart] at hserve
  have hfilter : (full.map some ++ rest).filter Option.isSome
      = full.map some ++ rest.filter Option.isSome := by
    rw [List.filter_append, List.filter_eq_self.mpr fun result hmem => ?_]
    obtain ⟨k, -, rfl⟩ := List.mem_map.mp hmem
    rfl
  refine ⟨_, B, _, B, hreturns rest, ?_, rfl, rfl⟩
  rw [hfilter]
  exact hreturns _

/-- `readSocket` accounts for what it reads from every stream with a NUL exactly if it finds each
block as a whole. -/
theorem socket_accounts_iff (B s : ℕ) (results : List (Option ℕ+)) :
    (∀ stream, (∃ k < B, stream k = '\x00') → Accounts (socketRun B s stream) results)
      ↔ OneReadEach B s results := by
  rcases Nat.eq_zero_or_pos B with rfl | hB
  · exact iff_of_true (fun _ hnul => absurd hnul.choose_spec.1 (Nat.not_lt_zero _))
      ⟨[], results, rfl, fun k hk => absurd hk List.not_mem_nil, Nat.zero_mul s⟩
  rcases Nat.eq_zero_or_pos s with rfl | hs
  · refine iff_of_false (fun h => ?_) ?_
    · exact not_accounts_noBlock hB results _ (h (lastNul B) (exists_lastNul hB))
    · rintro ⟨full, rest, -, -, hlen⟩
      omega
  constructor
  · intro h
    exact oneReadEach_of_accounts hB hs (h _ (exists_lastNul hB))
  · exact fun h stream hnul => accounts_of_oneReadEach hB hs h hnul

end Socket

/-- Both readers: `readSocketLimiter` accounts for what it reads in the one case in which there is
nothing before the LIMITER. `readSocket` never does without a NUL among the first `BUFFER_SIZE`
characters of the stream, and with one where each `read` finds a whole block. No failure is ever
accounted for. -/
theorem readers_account_iff (BUFFER_SIZE sz_received : ℕ) (memory otherMemory : ℕ → Char)
    (results : List (Option ℕ+)) :
    (∀ stream, Accounts (limiterRun BUFFER_SIZE memory otherMemory stream) results
        ↔ 4 ≤ BUFFER_SIZE ∧ stream 0 = LIMITER ∧ ∃ k rest, results = some k :: rest) ∧
      (∀ stream, Accounts (socketRun BUFFER_SIZE sz_received stream) results →
        ∃ k < BUFFER_SIZE, stream k = '\x00') ∧
      ((∀ stream, (∃ k < BUFFER_SIZE, stream k = '\x00') →
          Accounts (socketRun BUFFER_SIZE sz_received stream) results)
        ↔ OneReadEach BUFFER_SIZE sz_received results) :=
  ⟨fun stream => limiter_accounts_iff memory otherMemory stream BUFFER_SIZE results,
    fun _ => exists_nul_of_accounts, socket_accounts_iff BUFFER_SIZE sz_received results⟩

/-- A stream that begins with a text. -/
def streamOf (text : Text) : ℕ → Char := fun k => text.getD k 'x'

/-- A failure costs `readSocketLimiter` a character, or takes it outside its array; and it counts
six characters where it has taken three, with or without. `readSocket` counts three for two, and
goes on behind an array without a NUL. -/
theorem not_account :
    limiterRun 10 (fun _ => 'x') (fun _ => 'x') (streamOf ['a', 'b', '*'])
        [some 1, some 1, none, some 1] = .returned ⟨['a'], 6⟩ 3 ∧
      limiterRun 10 (fun _ => 'x') (fun _ => 'x') (streamOf ['a', 'b', '*'])
        [some 1, some 1, some 1] = .returned ⟨['a', 'b'], 6⟩ 3 ∧
      limiterRun 10 (fun _ => 'x') (fun _ => 'x') (streamOf ['a', 'b', '*'])
        [none, some 1, some 1, some 1] = .outside ∧
      socketRun 2 2 (streamOf ['a', '\x00']) [some 1, some 1]
        = .returned ⟨['a', '\x00'], 3⟩ 2 ∧
      socketRun 2 2 (streamOf ['a', '\x00']) [none, some 2] = .outside ∧
      socketRun 2 2 (streamOf ['a', 'b']) [some 2] = .outside ∧
      ¬ Accounts (limiterRun 10 (fun _ => 'x') (fun _ => 'x') (streamOf ['a', 'b', '*']))
        [some 1, some 1, none, some 1] ∧
      ¬ Accounts (socketRun 2 2 (streamOf ['a', 'b'])) [some 2] := by
  have hlost : limiterRun 10 (fun _ => 'x') (fun _ => 'x') (streamOf ['a', 'b', '*'])
      [some 1, some 1, none, some 1] = .returned ⟨['a'], 6⟩ 3 := rfl
  have houtside : socketRun 2 2 (streamOf ['a', 'b']) [some 2] = .outside := rfl
  refine ⟨hlost, rfl, rfl, rfl, rfl, houtside, ?_, ?_⟩
  · rintro ⟨r, consumed, r', consumed', hrun, -, -, hcount⟩
    rw [hlost] at hrun
    cases hrun
    cases hcount
  · rintro ⟨r, consumed, r', consumed', hrun, -⟩
    rw [houtside] at hrun
    cases hrun

end OfcBenchmark
