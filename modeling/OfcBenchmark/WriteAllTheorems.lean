import OfcBenchmark.MsgbufTheorems

/-!
# Writing a buffer out

`msgbufWriteAll` adds up what it writes only once `count` is positive, and it never is: the value
of a call that drains the buffer is 0. And where less than `len` bytes are left, `msgbufWrite`
refuses them: the call fails or loops for ever, whichever `errno` happens to say. So the call does
what it is to do for no buffer with something in it (`writeAll_right_iff`).
-/

namespace OfcBenchmark

/-! ## What a call is to do -/

/-- Every `write` accepts something, and there are as many as bytes to write. -/
def MakesProgress (n : ℕ) (attempts : List Attempt) : Prop :=
  n ≤ attempts.length ∧ ∀ attempt ∈ attempts, ∃ k, 0 < k ∧ attempt = .upTo k

/-- A value that is not negative is the number of bytes written, of which there are none left; and
if every `write` makes progress, none are left. -/
structure WritesAll (m : Msgbuf) (sock : Socket) (len : ℤ) (errno : Errno)
    (attempts : List Attempt) : Prop where
  reports : ∀ m' sock' value, msgbufWriteAll m sock len errno attempts = .returned m' sock' value →
    0 ≤ value → m'.contents = [] ∧ ∃ bs, sock'.tx = sock.tx ++ bs ∧ value = bs.length
  drains : MakesProgress m.contents.length attempts → ∃ m' sock' value,
    msgbufWriteAll m sock len errno attempts = .returned m' sock' value ∧ m'.contents = []

/-- Whether the loop goes on behind an attempt. -/
def Attempt.isRetried : Attempt → Bool
  | .error errno => errno.isRetried
  | .upTo _ => true

/-- What an attempt takes, with enough to take from. -/
def Attempt.taken (len : ℕ) : Attempt → ℕ
  | .error _ => 0
  | .upTo k => if len = 0 then k else min k len

/-- The writes take `n` bytes, before one fails for good: all together as many, or, with a `len`,
such that the last one is left with `len` bytes and takes them all. -/
def Exhausts (len n : ℕ) (attempts : List Attempt) : Prop :=
  ∃ before k after, attempts = before ++ .upTo k :: after ∧
    (∀ attempt ∈ before, attempt.isRetried = true) ∧
    if len = 0 then n ≤ (before.map (Attempt.taken len)).sum + k
    else (before.map (Attempt.taken len)).sum + len = n ∧ len ≤ k

/-! ## What the writes take -/

section Exhausts

variable {len n : ℕ} {attempts : List Attempt}

theorem not_exhausts_nil : ¬ Exhausts len n [] := by
  rintro ⟨before, k, after, heq, -⟩
  exact absurd heq.symm (List.append_ne_nil_of_right_ne_nil _ (List.cons_ne_nil _ _))

theorem Exhausts.le (h : Exhausts len n attempts) : len ≤ n := by
  obtain ⟨before, k, after, -, -, hsum⟩ := h
  split at hsum <;> omega

/-- The first attempt takes everything, or the others take what it leaves. -/
theorem exhausts_cons (attempt : Attempt) :
    Exhausts len n (attempt :: attempts) ↔
      (∃ k, attempt = .upTo k ∧ if len = 0 then n ≤ k else len = n ∧ len ≤ k) ∨
        attempt.isRetried = true ∧ Exhausts len (n - attempt.taken len) attempts := by
  constructor
  · rintro ⟨before, k, after, heq, hretried, hsum⟩
    cases before with
    | nil =>
      obtain ⟨rfl, rfl⟩ := List.cons.inj heq
      refine .inl ⟨k, rfl, ?_⟩
      simpa using hsum
    | cons first before =>
      obtain ⟨rfl, rfl⟩ := List.cons.inj heq
      obtain ⟨hfirst, hretried⟩ := List.forall_mem_cons.mp hretried
      rw [List.map_cons, List.sum_cons] at hsum
      refine .inr ⟨hfirst, before, k, after, rfl, hretried, ?_⟩
      split at hsum
      case isTrue hlen =>
        rw [if_pos hlen]
        omega
      case isFalse hlen =>
        rw [if_neg hlen]
        omega
  · rintro (⟨k, rfl, htake⟩ | ⟨hfirst, before, k, after, rfl, hretried, hsum⟩)
    · exact ⟨[], k, attempts, rfl, fun _ hmem => absurd hmem List.not_mem_nil, by simpa using htake⟩
    · refine ⟨attempt :: before, k, after, rfl, List.forall_mem_cons.mpr ⟨hfirst, hretried⟩, ?_⟩
      rw [List.map_cons, List.sum_cons]
      split at hsum
      case isTrue hlen =>
        rw [if_pos hlen]
        omega
      case isFalse hlen =>
        rw [if_neg hlen]
        omega

/-- An error takes nothing. -/
theorem exhausts_error (errno : Errno) :
    Exhausts len n (.error errno :: attempts) ↔
      errno.isRetried = true ∧ Exhausts len n attempts := by
  rw [exhausts_cons]
  constructor
  · rintro (⟨k, heq, -⟩ | h)
    · cases heq
    · exact h
  · exact .inr

/-- With enough to take from, what is taken is all there is, or it is missing behind. -/
theorem exhausts_upTo (k : ℕ) (hle : len ≤ n) :
    Exhausts len n (.upTo k :: attempts) ↔
      n ≤ (Attempt.upTo k).taken len ∨ Exhausts len (n - (Attempt.upTo k).taken len) attempts := by
  have htaken : (if len = 0 then n ≤ k else len = n ∧ len ≤ k) ↔
      n ≤ (Attempt.upTo k).taken len := by
    unfold Attempt.taken
    dsimp only
    split <;> omega
  rw [exhausts_cons]
  constructor
  · rintro (⟨k', heq, htake⟩ | ⟨-, hrest⟩)
    · cases heq
      exact .inl (htaken.mp htake)
    · exact .inr hrest
  · exact Or.imp (fun htake => ⟨k, rfl, htaken.mpr htake⟩) fun hrest => ⟨rfl, hrest⟩

end Exhausts

/-! ## An iteration -/

section Iteration

variable {m : Msgbuf} {len : ℕ}

/-- A `write` that fails leaves everything as it is. -/
theorem msgbufWrite_error (sock : Socket) (hpos : 0 < m.contents.length)
    (hle : len ≤ m.contents.length) : msgbufWrite m sock len .error = (m, sock, -1) := by
  have hadvance := Msgbuf.advance_zero hpos
  rw [Msgbuf.length_contents, msgbufCountBuffered] at hle
  unfold msgbufWrite
  dsimp only
  rw [if_neg (by omega)]
  show (m.advance 0, { sock with tx := sock.tx ++ m.contents.take 0 }, (-1 : ℤ)) = _
  rw [hadvance, List.take_zero, List.append_nil]

/-- One that does not takes bytes off the front, and returns their number. -/
theorem msgbufWrite_upTo (sock : Socket) (hle : len ≤ m.contents.length) (k : ℕ) :
    msgbufWrite m sock len (.upTo k)
      = (m.advance (min ((Attempt.upTo k).taken len) m.contents.length),
        { sock with tx := sock.tx ++ m.contents.take ((Attempt.upTo k).taken len) },
        ((min ((Attempt.upTo k).taken len) m.contents.length : ℕ) : ℤ)) := by
  have hlength := m.length_contents
  unfold msgbufCountBuffered at hlength
  have htake (j : ℕ) : m.contents.take (min j m.contents.length) = m.contents.take j := by
    rw [← List.take_take, List.take_length]
  have haccepted : (Transfer.upTo k).accepted
        (if 0 < (len : ℤ) ∧ (len : ℤ) < (m.stop - m.start : ℕ) then (len : ℤ).toNat
          else m.stop - m.start)
      = min ((Attempt.upTo k).taken len) m.contents.length := by
    unfold Transfer.accepted Attempt.taken
    dsimp only
    split <;> split <;> omega
  unfold msgbufWrite
  dsimp only
  rw [if_neg (by omega), haccepted, htake]
  rfl

end Iteration

/-! ## The loop -/

section Loop

variable {len : ℕ} {attempts : List Attempt}

theorem serveWrites_returned (m : Msgbuf) (sock : Socket) (value : ℤ) :
    serveWrites attempts (.returned m sock value) = .returned m sock value := by
  cases attempts <;> rfl

theorem enter_of_nil {m : Msgbuf} (h : m.contents = []) (sock : Socket) (len : ℤ) (errno : Errno)
    (count : ℤ) : WriteAllCall.enter ⟨m, sock, len, errno, count⟩ = .returned m sock count := by
  have hlength := m.length_contents
  rw [h, List.length_nil, msgbufCountBuffered] at hlength
  exact if_neg (by dsimp only; omega)

/-- With less than `len` bytes in the buffer nothing is written any more. -/
theorem enter_of_lt {m : Msgbuf} (hpos : 0 < m.contents.length) (hlt : m.contents.length < len)
    (sock : Socket) (errno : Errno) (count : ℤ) :
    WriteAllCall.enter ⟨m, sock, len, errno, count⟩
      = if errno.isRetried then .hang else .returned m sock (-1) := by
  rw [Msgbuf.length_contents, msgbufCountBuffered] at hpos hlt
  rw [WriteAllCall.enter]
  dsimp only
  rw [if_pos (by omega), if_pos (by omega)]

theorem enter_of_le {m : Msgbuf} (hpos : 0 < m.contents.length) (hle : len ≤ m.contents.length)
    (sock : Socket) (errno : Errno) (count : ℤ) :
    WriteAllCall.enter ⟨m, sock, len, errno, count⟩ = .running ⟨m, sock, len, errno, count⟩ := by
  rw [Msgbuf.length_contents, msgbufCountBuffered] at hpos hle
  rw [WriteAllCall.enter]
  dsimp only
  rw [if_pos (by omega), if_neg (by omega)]

theorem write_error {m : Msgbuf} (hpos : 0 < m.contents.length) (hle : len ≤ m.contents.length)
    (sock : Socket) (errno errno' : Errno) :
    WriteAllCall.write ⟨m, sock, len, errno, 0⟩ (.error errno')
      = if errno'.isRetried then WriteAllCall.enter ⟨m, sock, len, errno', 0⟩
        else .returned m sock (-1) := by
  have hwrite := msgbufWrite_error sock hpos hle
  cases hretried : errno'.isRetried <;>
    simp [WriteAllCall.write, Attempt.transfer, Attempt.errno, hwrite, hretried]

/-- The value of `write` is not added: `count` is 0. -/
theorem write_upTo {m : Msgbuf} (hle : len ≤ m.contents.length) (sock : Socket) (errno : Errno)
    (k : ℕ) : WriteAllCall.write ⟨m, sock, len, errno, 0⟩ (.upTo k)
      = WriteAllCall.enter ⟨m.advance (min ((Attempt.upTo k).taken len) m.contents.length),
        { sock with tx := sock.tx ++ m.contents.take ((Attempt.upTo k).taken len) }, len, errno,
        0⟩ := by
  have hwrite := msgbufWrite_upTo sock hle k
  simp only [WriteAllCall.write, Attempt.transfer, Attempt.errno, hwrite]
  rw [if_neg (by omega), if_neg (lt_irrefl 0)]

/-- The end of a call on a buffer with something in it: all is written, and the value is 0, or some
is left, and the value is -1. -/
def EndsWith (m : Msgbuf) (sock : Socket) (drained : Prop) (s : WriteAllState) : Prop :=
  (drained → ∃ m', s = .returned m' { sock with tx := sock.tx ++ m.contents } 0 ∧
    m'.contents = []) ∧
  (¬ drained → ∀ m' sock' value, s = .returned m' sock' value → value = -1 ∧ m'.contents ≠ [])

/-- The value is never more than 0: `count` is 0 at the start, and stays it. -/
theorem endsWith_enter {m : Msgbuf} {sock : Socket} {errno : Errno} (hpos : 0 < m.contents.length) :
    EndsWith m sock (Exhausts len m.contents.length attempts)
      (serveWrites attempts (WriteAllCall.enter ⟨m, sock, len, errno, 0⟩)) := by
  induction attempts generalizing m sock errno with
  | nil =>
    refine ⟨fun h => absurd h not_exhausts_nil, fun _ m' sock' value hreturned => ?_⟩
    rcases lt_or_ge m.contents.length len with hlt | hle
    · rw [enter_of_lt hpos hlt] at hreturned
      split at hreturned
      · cases hreturned
      · cases hreturned
        exact ⟨rfl, List.length_pos_iff.mp hpos⟩
    · rw [enter_of_le hpos hle] at hreturned
      cases hreturned
  | cons attempt attempts ih =>
    -- with less than `len` bytes no `write` is made, whatever it would do
    rcases lt_or_ge m.contents.length len with hlt | hle
    · refine ⟨fun h => absurd h.le (by omega), fun _ m' sock' value hreturned => ?_⟩
      rw [enter_of_lt hpos hlt] at hreturned
      split at hreturned
      · cases hreturned
      · cases hreturned
        exact ⟨rfl, List.length_pos_iff.mp hpos⟩
    rw [enter_of_le hpos hle, serveWrites]
    cases attempt with
    | error errno' =>
      rw [write_error hpos hle, exhausts_error]
      split
      case isTrue hretried =>
        rw [and_iff_right hretried]
        exact ih hpos
      case isFalse hfailed =>
        rw [serveWrites_returned]
        refine ⟨fun h => absurd h.1 hfailed, fun _ m' sock' value hreturned => ?_⟩
        cases hreturned
        exact ⟨rfl, List.length_pos_iff.mp hpos⟩
    | upTo k =>
      rw [write_upTo hle, exhausts_upTo k hle]
      -- something is left, and the others take it or not; or this was all
      rcases Nat.lt_or_ge ((Attempt.upTo k).taken len) m.contents.length with hsome | hall
      · rw [min_eq_left hsome.le, or_iff_right (by omega)]
        have hrest : (m.advance ((Attempt.upTo k).taken len)).contents.length
            = m.contents.length - (Attempt.upTo k).taken len := by
          rw [Msgbuf.contents_advance, List.length_drop]
        obtain ⟨hdrained, hleft⟩ := @ih (m.advance ((Attempt.upTo k).taken len))
          { sock with tx := sock.tx ++ m.contents.take ((Attempt.upTo k).taken len) } errno
          (by omega)
        rw [hrest] at hdrained hleft
        refine ⟨fun h => ?_, hleft⟩
        obtain ⟨m', hreturned, hempty⟩ := hdrained h
        refine ⟨m', ?_, hempty⟩
        rw [hreturned, Msgbuf.contents_advance, List.append_assoc, List.take_append_drop]
      · have hempty : (m.advance m.contents.length).contents = [] := by
          rw [Msgbuf.contents_advance, List.drop_length]
        rw [min_eq_right hall, List.take_of_length_le hall, enter_of_nil hempty,
          serveWrites_returned]
        exact ⟨fun _ => ⟨_, rfl, hempty⟩, fun h => absurd (.inl hall) h⟩

end Loop

/-! ## When a call does it -/

/-- The call does what it is to do for a buffer that is empty, and else only where nothing is asked
of it: the writes do not drain the buffer, and some of them make no progress. -/
theorem writeAll_right_iff (m : Msgbuf) (sock : Socket) (len : ℕ) (errno : Errno) :
    (∀ attempts, WritesAll m sock len errno attempts ↔ m.contents = [] ∨
      ¬ Exhausts len m.contents.length attempts ∧ ¬ MakesProgress m.contents.length attempts) ∧
    ((∀ attempts, WritesAll m sock len errno attempts) ↔ m.contents = []) := by
  have hiff : ∀ attempts, WritesAll m sock len errno attempts ↔ m.contents = [] ∨
      ¬ Exhausts len m.contents.length attempts ∧ ¬ MakesProgress m.contents.length attempts := by
    intro attempts
    by_cases hempty : m.contents = []
    · refine iff_of_true ?_ (.inl hempty)
      have hreturned : msgbufWriteAll m sock len errno attempts = .returned m sock 0 := by
        rw [msgbufWriteAll, enter_of_nil hempty, serveWrites_returned]
      refine ⟨fun m' sock' value h _ => ?_, fun _ => ⟨m, sock, 0, hreturned, hempty⟩⟩
      cases hreturned.symm.trans h
      exact ⟨hempty, [], (List.append_nil _).symm, rfl⟩
    · rw [or_iff_right hempty]
      have hpos : 0 < m.contents.length := List.length_pos_iff.mpr hempty
      obtain ⟨hdrained, hleft⟩ :
        EndsWith m sock (Exhausts len m.contents.length attempts)
          (msgbufWriteAll m sock len errno attempts) := endsWith_enter hpos
      have hnot (hwrites : WritesAll m sock len errno attempts) :
          ¬ Exhausts len m.contents.length attempts := by
        intro hexhausts
        obtain ⟨m', hreturned, -⟩ := hdrained hexhausts
        obtain ⟨-, bs, htx, hvalue⟩ := hwrites.reports _ _ _ hreturned le_rfl
        rw [← List.append_cancel_left htx] at hvalue
        omega
      constructor
      · intro hwrites
        refine ⟨hnot hwrites, fun hprogress => ?_⟩
        obtain ⟨m', sock', value, hreturned, hcontents⟩ := hwrites.drains hprogress
        exact (hleft (hnot hwrites) _ _ _ hreturned).2 hcontents
      · rintro ⟨hexhausts, hprogress⟩
        refine ⟨fun m' sock' value hreturned hvalue => ?_, fun h => absurd h hprogress⟩
        have hfailed := (hleft hexhausts _ _ _ hreturned).1
        omega
  refine ⟨hiff, fun h => ?_, fun h attempts => (hiff attempts).mpr (.inl h)⟩
  -- one byte at a time is progress
  refine ((hiff (List.replicate m.contents.length (.upTo 1))).mp (h _)).resolve_right ?_
  rintro ⟨-, hprogress⟩
  refine hprogress ⟨(List.length_replicate).ge, fun attempt hmem => ⟨1, Nat.one_pos, ?_⟩⟩
  exact List.eq_of_mem_replicate hmem

/-- Three bytes. -/
def threeBytes : Msgbuf := msgbufPush (msgbufNew (fun _ => 0) 4 (by decide)) [1, 2, 3]

/-- A `write` takes all three: the value is 0. With `len` 2 it takes two, and the third is
refused. -/
theorem not_writesAll_threeBytes :
    (∃ m', msgbufWriteAll threeBytes ⟨[], []⟩ 0 (.other 0) [.upTo 3]
        = .returned m' ⟨[], [1, 2, 3]⟩ 0) ∧
      (∃ m', msgbufWriteAll threeBytes ⟨[], []⟩ 2 (.other 0) [.upTo 3, .upTo 3, .upTo 3]
        = .returned m' ⟨[], [1, 2]⟩ (-1) ∧ m'.contents = [3]) ∧
      msgbufWriteAll threeBytes ⟨[], []⟩ 2 .EAGAIN [.upTo 3, .upTo 3, .upTo 3] = .hang ∧
      ¬ WritesAll threeBytes ⟨[], []⟩ 0 (.other 0) [.upTo 3] ∧
      ¬ WritesAll threeBytes ⟨[], []⟩ 2 (.other 0) [.upTo 3, .upTo 3, .upTo 3] := by
  have hzero : ∃ m', msgbufWriteAll threeBytes ⟨[], []⟩ 0 (.other 0) [.upTo 3]
      = .returned m' ⟨[], [1, 2, 3]⟩ 0 := ⟨_, rfl⟩
  have hrefused : ∃ m', msgbufWriteAll threeBytes ⟨[], []⟩ 2 (.other 0)
      [.upTo 3, .upTo 3, .upTo 3] = .returned m' ⟨[], [1, 2]⟩ (-1) ∧ m'.contents = [3] :=
    ⟨_, rfl, rfl⟩
  refine ⟨hzero, hrefused, rfl, fun h => ?_, fun h => ?_⟩
  · obtain ⟨m', hreturned⟩ := hzero
    obtain ⟨-, bs, htx, hvalue⟩ := h.reports _ _ _ hreturned le_rfl
    rw [← show [1, 2, 3] = bs from htx] at hvalue
    cases hvalue
  · obtain ⟨m', hreturned, hcontents⟩ := hrefused
    have hprogress : MakesProgress threeBytes.contents.length [.upTo 3, .upTo 3, .upTo 3] :=
      ⟨by decide, fun attempt hmem => ⟨3, by decide, by simpa using hmem⟩⟩
    obtain ⟨m'', sock', value, hreturned', hempty⟩ := h.drains hprogress
    cases hreturned.symm.trans hreturned'
    rw [hcontents] at hempty
    cases hempty

end OfcBenchmark
