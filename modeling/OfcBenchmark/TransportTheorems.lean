import OfcBenchmark.Lib.Runs
import OfcBenchmark.Mymessages

/-!
# From slave to master

A slave that sends texts with `writeSocket` and a master that reads blocks with
`readSocketLimiter`, with the characters under way between them. The steps of the two come in any
order, and a `write` takes as many characters as it likes. The blocks arrive as they were sent,
wherever the texts were cut (`transport_delivers`). On other texts too the master reads what
`readSocketLimiter` reads from the texts put together (`transport_reads`).
-/

namespace OfcBenchmark
open Printf Runs

/-! ## The two parties -/

/-- The calls of `writeSocket` that have not returned, the characters under way, the calls of
`readSocketLimiter` that have not returned, and what the others have returned. The first of the
calls is under way. -/
structure Transport where
  sends : List WriteCall
  channel : Text
  calls : List LimiterCall
  returned : List ReadResult

/-- An iteration of a loop, or the end of one. -/
inductive TransportEvent
  | write (k : ℕ)
  | endWhile
  | endFor
  | read
deriving DecidableEq, Repr

/-- What an event does; `none` where the call under way does something else. A `read` waits for a
character. -/
def transportStep (e : TransportEvent) (s : Transport) : Option Transport :=
  match e, s.sends, s.channel, s.calls with
  | .write k, call :: sends, _, _ => (call.write k).map fun r =>
    { s with sends := r.1 :: sends, channel := s.channel ++ r.2 }
  | .endWhile, call :: sends, _, _ => call.endWhile.map fun call =>
    { s with sends := call :: sends }
  | .endFor, call :: sends, _, _ => if call.ended then some { s with sends := sends } else none
  | .read, _, c :: channel, call :: calls =>
    match call.read (some [c]) with
    | .running call => some { s with channel := channel, calls := call :: calls }
    | .returned r =>
      some { s with channel := channel, calls := calls, returned := s.returned ++ [r] }
    | .outside | .hang => none
  | _, _, _, _ => none

/-- A step of one of the two. -/
def TransportStep (s : Transport) (e : TransportEvent) (s' : Transport) : Prop :=
  transportStep e s = some s'

/-- The texts to send, and the calls to read with: each with its `BUFFER_SIZE` and what `malloc`
returns, for its array and for a copy. -/
def transportStart (pieces : List Text) (calls : List (ℕ × (ℕ → Char) × (ℕ → Char))) :
    Transport where
  sends := pieces.map .start
  channel := []
  calls := calls.map fun c => .start c.1 c.2.1 c.2.2
  returned := []

/-- What the call under way has read. -/
def Transport.read (s : Transport) : Text :=
  match s.calls with
  | [] => []
  | call :: _ => chars call.array 0 call.sz

/-- What is still to be written. -/
def Transport.unsent (s : Transport) : Text := s.sends.flatMap WriteCall.rest

/-- Messages, each followed by a LIMITER. -/
def delimited (messages : List Text) : Text := messages.flatMap (· ++ [LIMITER])

theorem delimited_cons (m : Text) (messages : List Text) :
    delimited (m :: messages) = m ++ LIMITER :: delimited messages := by
  rw [delimited, List.flatMap_cons, List.append_assoc]
  rfl

theorem delimited_append (messages messages' : List Text) :
    delimited (messages ++ messages') = delimited messages ++ delimited messages' :=
  List.flatMap_append

/-! ## Sending -/

/-- A call `writeSocket(fd, text, n, n)` with `n` the length of the text: all is written in the
first iteration of the outer loop. -/
structure Sending (call : WriteCall) : Prop where
  BUFFER_SIZE_eq : call.BUFFER_SIZE = call.array.length
  sz_emit_eq : call.sz_emit = call.array.length
  bounds : call.i = 0 ∧ call.sz ≤ call.array.length ∨ call.i = call.array.length ∧ call.sz = 0

theorem sending_start (text : Text) : Sending (.start text) :=
  ⟨rfl, rfl, .inl ⟨rfl, Nat.zero_le _⟩⟩

namespace Sending

variable {call call' : WriteCall}

/-- A `write` takes characters off the front of what is still to be written. -/
theorem write (h : Sending call) {k : ℕ} {text : Text}
    (hwrite : call.write k = some (call', text)) :
    Sending call' ∧ text ++ call'.rest = call.rest ∧ 0 < text.length ∧
      call'.i = call.i ∧ call'.BUFFER_SIZE = call.BUFFER_SIZE := by
  unfold WriteCall.write at hwrite
  split at hwrite
  case isFalse => cases hwrite
  case isTrue hk =>
    cases hwrite
    have hbuffer := h.BUFFER_SIZE_eq
    have hemit := h.sz_emit_eq
    have hbounds := h.bounds
    refine ⟨⟨hbuffer, hemit, .inl ?_⟩, ?_, ?_, rfl, rfl⟩
    · show call.i = 0 ∧ call.sz + k ≤ call.array.length
      omega
    · show call.rest.take k ++ call.array.drop (call.i + (call.sz + k)) = call.rest
      rw [← Nat.add_assoc, ← List.drop_drop]
      exact List.take_append_drop k call.rest
    · rw [List.length_take, WriteCall.rest, List.length_drop]
      omega

theorem endWhile (h : Sending call) (hend : call.endWhile = some call') :
    Sending call' ∧ call'.rest = call.rest ∧ call.i < call.BUFFER_SIZE ∧
      ¬ call'.i < call'.BUFFER_SIZE := by
  unfold WriteCall.endWhile at hend
  split at hend
  case isFalse => cases hend
  case isTrue hwritten =>
    cases hend
    have hbuffer := h.BUFFER_SIZE_eq
    have hemit := h.sz_emit_eq
    have hbounds := h.bounds
    refine ⟨⟨hbuffer, hemit, .inr ?_⟩, ?_, hwritten.1, ?_⟩
    · show call.i + call.sz_emit = call.array.length ∧ 0 = 0
      omega
    · show call.array.drop (call.i + call.sz_emit + 0) = call.array.drop (call.i + call.sz)
      rw [hwritten.2, Nat.add_zero]
    · show ¬ call.i + call.sz_emit < call.BUFFER_SIZE
      omega

theorem rest_of_ended (h : Sending call) (hend : call.ended = true) : call.rest = [] := by
  have hle : call.BUFFER_SIZE ≤ call.i := of_decide_eq_true hend
  have hbuffer := h.BUFFER_SIZE_eq
  exact List.drop_eq_nil_of_le (by omega)

end Sending

/-! ## Receiving -/

/-- The call for a message that is not read yet. -/
structure Fresh (m : Text) (call : LimiterCall) : Prop where
  isBlock : IsBlock m
  length_lt : m.length < call.BUFFER_SIZE
  hasRead : call.HasRead []

/-- The calls under way and to come, for the messages to come. The first has read a part of its
message. -/
inductive Awaits : List Text → List LimiterCall → Prop
  | nil : Awaits [] []
  | cons {m text : Text} {messages : List Text} {call : LimiterCall} {calls : List LimiterCall} :
      IsBlock m → m.length < call.BUFFER_SIZE → call.HasRead text → text <+: m →
      List.Forall₂ Fresh messages calls → Awaits (m :: messages) (call :: calls)

theorem Awaits.of_fresh {messages : List Text} {calls : List LimiterCall}
    (h : List.Forall₂ Fresh messages calls) : Awaits messages calls := by
  cases h with
  | nil => exact .nil
  | cons hfirst hrest =>
    exact .cons hfirst.isBlock hfirst.length_lt hfirst.hasRead List.nil_prefix hrest

/-- A call that has read its message up to the LIMITER returns it. -/
theorem read_limiter {m : Text} {call : LimiterCall} (hm : IsBlock m)
    (hlt : m.length < call.BUFFER_SIZE) (hread : call.HasRead m) :
    ∃ bytesRead, call.read (some [LIMITER]) = .returned ⟨m, bytesRead⟩ := by
  have hnul := uptoNul_of_not_mem hm.not_nul
  have hfinish := (hread.store LIMITER).finish (by rw [hnul]; exact hm.ne_nil)
  rw [hnul] at hfinish
  refine ⟨(call.store LIMITER).count, ?_⟩
  rw [hread.read hlt, if_neg fun h => h.1 rfl, hfinish]

/-- One that has not goes on. -/
theorem read_of_ne {m text rest : Text} {c : Char} {call : LimiterCall} (hm : IsBlock m)
    (hlt : m.length < call.BUFFER_SIZE) (hread : call.HasRead text) (heq : m = text ++ c :: rest) :
    call.read (some [c]) = .running (call.store c) ∧ (call.store c).HasRead (text ++ [c]) ∧
      text ++ [c] <+: m := by
  have hlen : m.length = text.length + rest.length + 1 := by
    rw [heq, List.length_append, List.length_cons, Nat.add_assoc]
  have hc : c ≠ LIMITER := by
    rintro rfl
    exact hm.not_limiter (heq ▸ List.mem_append_right _ List.mem_cons_self)
  refine ⟨?_, hread.store c, ⟨rest, ?_⟩⟩
  · rw [hread.read (by omega), if_pos ⟨hc, by omega⟩]
  · rw [heq, List.append_assoc]
    rfl

/-! ## The invariant -/

/-- What is read, under way and unsent makes up the messages that have not been returned. -/
structure Underway (messages : List Text) (s : Transport) : Prop where
  sending : ∀ call ∈ s.sends, Sending call
  receiving : ∃ todo, messages = s.returned.map ReadResult.buffer ++ todo ∧ Awaits todo s.calls ∧
    s.read ++ (s.channel ++ s.unsent) = delimited todo

/-- The next character is the next one of the message under way, or its LIMITER. -/
theorem read_step {todo : List Text} {s : Transport} {c : Char} {channel : Text}
    (hawaits : Awaits todo s.calls) (hchannel : s.channel = c :: channel)
    (heq : s.read ++ (s.channel ++ s.unsent) = delimited todo) :
    ∃ s', transportStep .read s = some s' ∧ s'.sends = s.sends ∧ s'.channel = channel ∧
      ∃ done todo', todo = done ++ todo' ∧
        s'.returned.map ReadResult.buffer = s.returned.map ReadResult.buffer ++ done ∧
        Awaits todo' s'.calls ∧ s'.read ++ (s'.channel ++ s'.unsent) = delimited todo' := by
  obtain ⟨sends, _, calls, returned⟩ := s
  cases hchannel
  cases hawaits with
  | nil => cases heq
  | @cons m text messages call calls hm hlt hread hbegins hfresh =>
    have hstream : text ++ c :: (channel ++ sends.flatMap WriteCall.rest)
        = m ++ LIMITER :: delimited messages := by
      rw [← hread.chars_eq, ← delimited_cons]
      exact heq
    obtain ⟨rest, rfl⟩ := hbegins
    rw [List.append_assoc] at hstream
    have hnext := List.append_cancel_left hstream
    cases rest with
    -- its LIMITER: the message is returned, and the next call is under way
    | nil =>
      obtain ⟨rfl, hrest⟩ := List.cons.inj hnext
      rw [List.append_nil] at hm hlt
      obtain ⟨bytesRead, hreturned⟩ := read_limiter hm hlt hread
      refine ⟨⟨sends, channel, calls, returned ++ [⟨text, bytesRead⟩]⟩, ?_, rfl, rfl, [text],
        messages, ?_, ?_, .of_fresh hfresh, ?_⟩
      · simp only [transportStep, hreturned]
      · rw [List.append_nil]
        rfl
      · exact List.map_append
      · rw [← hrest]
        cases hfresh with
        | nil => rfl
        | cons hfirst _ => exact congrArg (· ++ _) hfirst.hasRead.chars_eq
    -- another character of the message
    | cons d rest =>
      obtain ⟨rfl, hrest⟩ := List.cons.inj hnext
      obtain ⟨hrunning, hstore, hbegins⟩ := read_of_ne hm hlt hread rfl
      refine ⟨⟨sends, channel, call.store c :: calls, returned⟩, ?_, rfl, rfl, [], _, rfl, ?_,
        .cons hm hlt hstore hbegins hfresh, ?_⟩
      · simp only [transportStep, hrunning]
      · exact (List.append_nil _).symm
      · show chars _ 0 _ ++ (channel ++ sends.flatMap WriteCall.rest) = _
        rw [hstore.chars_eq, delimited_cons, hrest]
        simp only [List.append_assoc, List.cons_append, List.nil_append]
        rfl

/-- Whether the call under way has yet to leave its outer loop. -/
def looping : List WriteCall → ℕ
  | [] => 0
  | call :: _ => if call.i < call.BUFFER_SIZE then 1 else 0

theorem looping_le (sends : List WriteCall) : looping sends ≤ 1 := by
  unfold looping
  split
  · exact Nat.zero_le 1
  · split <;> decide

/-- How many steps the two can still take, at most. -/
def Transport.steps (s : Transport) : ℕ :=
  2 * s.unsent.length + s.channel.length + 2 * s.sends.length + looping s.sends

theorem length_unsent_cons (call : WriteCall) (sends : List WriteCall) (channel : Text)
    (calls : List LimiterCall) (returned : List ReadResult) :
    (Transport.unsent ⟨call :: sends, channel, calls, returned⟩).length
      = call.rest.length + (sends.flatMap WriteCall.rest).length := by
  rw [Transport.unsent, List.flatMap_cons, List.length_append]

/-- A step of the sender moves characters on, and leaves the reader alone. -/
theorem sender_step {s s' : Transport} {e : TransportEvent}
    (hsending : ∀ call ∈ s.sends, Sending call) (hstep : TransportStep s e s') (he : e ≠ .read) :
    (∀ call ∈ s'.sends, Sending call) ∧ s'.channel ++ s'.unsent = s.channel ++ s.unsent ∧
      s'.calls = s.calls ∧ s'.returned = s.returned ∧ s'.steps + 1 ≤ s.steps := by
  obtain ⟨sends, channel, calls, returned⟩ := s
  rcases e with k | - | - | -
  case read => exact absurd rfl he
  all_goals
    cases sends with
    | nil => cases hstep
    | cons call sends => ?_
  all_goals obtain ⟨hcall, hsends⟩ := List.forall_mem_cons.mp hsending
  case write.cons =>
    obtain ⟨⟨call', text⟩, hwrite, rfl⟩ := Option.map_eq_some_iff.mp hstep
    obtain ⟨hcall', htext, hpos, hi, hbuffer⟩ := hcall.write hwrite
    refine ⟨List.forall_mem_cons.mpr ⟨hcall', hsends⟩, ?_, rfl, rfl, ?_⟩
    · show (channel ++ text) ++ (call'.rest ++ _) = channel ++ (call.rest ++ _)
      rw [← htext, List.append_assoc, List.append_assoc]
    · have hlength := congrArg List.length htext
      rw [List.length_append] at hlength
      simp only [Transport.steps, length_unsent_cons, looping, hi, hbuffer, List.length_append,
        List.length_cons]
      omega
  case endWhile.cons =>
    obtain ⟨call', hend, rfl⟩ := Option.map_eq_some_iff.mp hstep
    obtain ⟨hcall', hrest, hloop, hloop'⟩ := hcall.endWhile hend
    refine ⟨List.forall_mem_cons.mpr ⟨hcall', hsends⟩, ?_, rfl, rfl, ?_⟩
    · show channel ++ (call'.rest ++ _) = channel ++ (call.rest ++ _)
      rw [hrest]
    · simp only [Transport.steps, length_unsent_cons, looping, hrest, if_pos hloop, if_neg hloop',
        List.length_cons]
      omega
  case endFor.cons =>
    have hsome : (if call.ended then some ⟨sends, channel, calls, returned⟩ else none) = some s' :=
      hstep
    split at hsome
    case isFalse => cases hsome
    case isTrue hend =>
      cases hsome
      have hrest := hcall.rest_of_ended hend
      have hlooping := looping_le sends
      refine ⟨hsends, ?_, rfl, rfl, ?_⟩
      · show channel ++ _ = channel ++ (call.rest ++ _)
        rw [hrest]
        rfl
      · simp only [Transport.steps, length_unsent_cons, List.length_cons]
        show 2 * (sends.flatMap WriteCall.rest).length + _ + _ + looping sends + 1 ≤ _
        omega

theorem read_congr {s s' : Transport} (h : s'.calls = s.calls) : s'.read = s.read := by
  rw [Transport.read, Transport.read, h]

/-- Every step leads on, and keeps the messages together. -/
theorem underway_step {messages : List Text} {s s' : Transport} {e : TransportEvent}
    (h : Underway messages s) (hstep : TransportStep s e s') :
    Underway messages s' ∧ s'.steps + 1 ≤ s.steps := by
  obtain ⟨hsending, todo, hmessages, hawaits, heq⟩ := h
  by_cases he : e = .read
  · subst he
    obtain ⟨sends, channel, calls, returned⟩ := s
    cases channel with
    | nil => cases hstep
    | cons c channel =>
      obtain ⟨s₁, hread, hsends, hchannel, done, todo', rfl, hreturned, hawaits', heq'⟩ :=
        read_step hawaits rfl heq
      obtain rfl : s₁ = s' := Option.some.inj (hread.symm.trans hstep)
      refine ⟨⟨hsends ▸ hsending, todo', ?_, hawaits', heq'⟩, ?_⟩
      · rw [hreturned, List.append_assoc]
        exact hmessages
      · rw [Transport.steps, Transport.steps, Transport.unsent, Transport.unsent, hsends, hchannel,
          List.length_cons]
        dsimp only
        omega
  · obtain ⟨hsending', hmoved, hcalls, hreturned, hsteps⟩ := sender_step hsending hstep he
    refine ⟨⟨hsending', todo, ?_, ?_, ?_⟩, hsteps⟩
    · rw [hreturned]
      exact hmessages
    · rw [hcalls]
      exact hawaits
    · rw [read_congr hcalls, hmoved]
      exact heq

/-! ## Getting on -/

/-- As long as something is to be written, the sender can do it. -/
theorem exists_send {s : Transport} (h : ∀ call ∈ s.sends, Sending call) (hne : s.sends ≠ []) :
    ∃ e s', transportStep e s = some s' := by
  obtain ⟨sends, channel, calls, returned⟩ := s
  obtain ⟨call, sends, rfl⟩ := List.exists_cons_of_ne_nil hne
  have hcall := h call List.mem_cons_self
  have hbuffer := hcall.BUFFER_SIZE_eq
  have hemit := hcall.sz_emit_eq
  have hbounds := hcall.bounds
  -- the outer loop is left, or `write` can take a character, or `while` is left
  by_cases hloop : call.i < call.BUFFER_SIZE
  · by_cases hsz : call.sz = call.sz_emit
    · refine ⟨.endWhile, Option.isSome_iff_exists.mp ?_⟩
      show (call.endWhile.map _).isSome = true
      rw [Option.isSome_map, WriteCall.endWhile, if_pos ⟨hloop, hsz⟩]
      rfl
    · refine ⟨.write 1, Option.isSome_iff_exists.mp ?_⟩
      show ((call.write 1).map _).isSome = true
      rw [Option.isSome_map, WriteCall.write, if_pos ⟨hloop, hsz, Nat.one_pos, by omega⟩]
      rfl
  · refine ⟨.endFor, ⟨sends, channel, calls, returned⟩, ?_⟩
    exact if_pos (decide_eq_true (Nat.le_of_not_lt hloop))

/-- Where neither can go on, all is done. -/
theorem finished_of_stuck {messages : List Text} {s : Transport} (h : Underway messages s)
    (hstuck : ∀ e, transportStep e s = none) :
    s.returned.map ReadResult.buffer = messages ∧ s.sends = [] ∧ s.channel = [] := by
  obtain ⟨hsending, todo, hmessages, hawaits, heq⟩ := h
  have hsends : s.sends = [] := by
    by_contra hne
    obtain ⟨e, s', hstep⟩ := exists_send hsending hne
    rw [hstuck e] at hstep
    cases hstep
  have hchannel : s.channel = [] := by
    by_contra hne
    obtain ⟨c, channel, hc⟩ := List.exists_cons_of_ne_nil hne
    obtain ⟨s', hread, -⟩ := read_step hawaits hc heq
    rw [hstuck .read] at hread
    cases hread
  rw [hchannel, Transport.unsent, hsends, List.flatMap_nil, List.append_nil, List.append_nil] at heq
  -- a message that has not been returned would have its LIMITER under way
  have htodo : todo = [] := by
    cases hawaits' : s.calls with
    | nil =>
      rw [hawaits'] at hawaits
      cases hawaits
      rfl
    | cons call calls =>
      rw [hawaits'] at hawaits
      cases hawaits with
      | cons hm hlt hread hbegins hfresh =>
        have htext := hread.chars_eq
        rw [Transport.read, hawaits', delimited_cons] at heq
        dsimp only at heq
        rw [htext] at heq
        have hle := hbegins.length_le
        have hlength := congrArg List.length heq
        rw [List.length_append, List.length_cons] at hlength
        omega
  rw [htodo, List.append_nil] at hmessages
  exact ⟨hmessages.symm, hsends, hchannel⟩

/-! ## The round trip -/

/-- What has become of the messages. -/
structure Delivers (messages : List Text) (s : Transport) : Prop where
  /-- the calls that have returned have returned the first of them, in their order -/
  returned_eq : s.returned.map ReadResult.buffer = messages.take s.returned.length
  /-- these, what the call under way has read, what is under way and what is still to be written
  make up all there is: nothing is lost and nothing is there twice -/
  conserved : delimited (messages.take s.returned.length) ++ (s.read ++ (s.channel ++ s.unsent))
    = delimited messages
  /-- and the call under way has not got to a LIMITER -/
  not_limiter : LIMITER ∉ s.read
  /-- where neither party can go on, all messages have been returned -/
  complete : (∀ e, transportStep e s = none) →
    s.returned.map ReadResult.buffer = messages ∧ s.sends = [] ∧ s.channel = []

theorem Underway.delivers {messages : List Text} {s : Transport} (h : Underway messages s) :
    Delivers messages s := by
  obtain ⟨sends, channel, calls, returned⟩ := s
  obtain ⟨hsending, todo, hmessages, hawaits, heq⟩ := h
  have htake : messages.take returned.length = returned.map ReadResult.buffer := by
    rw [hmessages, List.take_left' (List.length_map _)]
  refine ⟨htake.symm, ?_, ?_, finished_of_stuck ⟨hsending, todo, hmessages, hawaits, heq⟩⟩
  · rw [htake, heq, ← delimited_append]
    exact congrArg delimited hmessages.symm
  · unfold Transport.read
    cases hawaits with
    | nil => exact List.not_mem_nil
    | cons hm hlt hread hbegins hfresh =>
      show LIMITER ∉ chars _ 0 _
      rw [hread.chars_eq]
      exact fun hmem => hm.not_limiter (hbegins.mem hmem)

theorem flatMap_rest_start (pieces : List Text) :
    (pieces.map WriteCall.start).flatMap WriteCall.rest = pieces.flatten := by
  rw [List.flatMap_map]
  exact List.flatMap_id'

section Transport

variable (messages pieces : List Text) (calls : List (ℕ × (ℕ → Char) × (ℕ → Char)))

theorem forall₂_fresh (hblocks : ∀ m ∈ messages, IsBlock m)
    (hcalls : List.Forall₂ (fun m c => m.length < c.1) messages calls) :
    List.Forall₂ (fun m c => Fresh m (.start c.1 c.2.1 c.2.2)) messages calls := by
  induction hcalls with
  | nil => exact .nil
  | cons hlt _ ih =>
    obtain ⟨hm, hblocks⟩ := List.forall_mem_cons.mp hblocks
    exact .cons ⟨hm, hlt, LimiterCall.hasRead_start _ _ _⟩ (ih hblocks)

theorem underway_start (hblocks : ∀ m ∈ messages, IsBlock m)
    (hpieces : pieces.flatten = delimited messages)
    (hcalls : List.Forall₂ (fun m c => m.length < c.1) messages calls) :
    Underway messages (transportStart pieces calls) := by
  have hfresh : List.Forall₂ Fresh messages (transportStart pieces calls).calls := by
    rw [transportStart, List.forall₂_map_right_iff]
    exact forall₂_fresh messages calls hblocks hcalls
  refine ⟨?_, messages, rfl, .of_fresh hfresh, ?_⟩
  · intro call hcall
    obtain ⟨text, -, rfl⟩ := List.mem_map.mp hcall
    exact sending_start text
  · have hread : (transportStart pieces calls).read = [] := by
      cases calls <;> rfl
    rw [hread, ← hpieces]
    exact flatMap_rest_start pieces

/-- Whatever the order of the steps, the messages are returned one after the other, each from a
call that stops behind its delimiter; and there is an end to the steps. -/
theorem transport_delivers (hblocks : ∀ m ∈ messages, IsBlock m)
    (hpieces : pieces.flatten = delimited messages)
    (hcalls : List.Forall₂ (fun m c => m.length < c.1) messages calls)
    (history : List (Transition Transport TransportEvent)) (s' : Transport)
    (hrun : Run TransportStep (transportStart pieces calls) history s') :
    Delivers messages s' ∧
      history.length ≤ 2 * (delimited messages).length + 2 * pieces.length + 1 := by
  have hstart := underway_start messages pieces calls hblocks hpieces hcalls
  have hinv : ∀ (s : Transport) (e : TransportEvent) (s' : Transport),
      Underway messages s → TransportStep s e s' → Underway messages s' :=
    fun _ _ _ h hstep => (underway_step h hstep).1
  refine ⟨(hrun.invariant hinv hstart).1.delivers, ?_⟩
  have hbal := hrun.balance Transport.steps (fun _ => 1) (fun _ => 0) hinv
    (fun _ _ _ h hstep => (underway_step h hstep).2) hstart
  have hlooping := looping_le (pieces.map .start)
  have hsteps : (transportStart pieces calls).steps
      = 2 * (delimited messages).length + 0 + 2 * pieces.length
        + looping (pieces.map .start) := by
    rw [← hpieces, ← flatMap_rest_start, ← List.length_map (WriteCall.start)]
    rfl
  simp only [total, List.map_const', List.sum_replicate, smul_eq_mul, mul_one, mul_zero] at hbal
  omega

end Transport

/-- Two messages are sent in four texts, which are cut elsewhere, and read into arrays that hold
them and no more. -/
theorem transport_delivers_twoMessages :
    ∃ history s', Run TransportStep
        (transportStart [['a'], [], ['b', '*', 'c'], ['*']]
          [(3, fun _ => 'x', fun _ => 'x'), (2, fun _ => 'x', fun _ => 'x')]) history s' ∧
      s'.returned.map ReadResult.buffer = [['a', 'b'], ['c']] ∧
      Delivers [['a', 'b'], ['c']] s' ∧ history.length ≤ 2 * 5 + 2 * 4 + 1 := by
  have hfollow : (followSome transportStep [.write 1, .endWhile, .read, .endFor, .endFor, .write 2,
      .read, .read, .write 1, .endWhile, .endFor, .write 1, .read, .endWhile, .endFor, .read]
      (transportStart [['a'], [], ['b', '*', 'c'], ['*']]
        [(3, fun _ => 'x', fun _ => 'x'), (2, fun _ => 'x', fun _ => 'x')])).map
          (fun r => r.2.returned.map ReadResult.buffer) = some [['a', 'b'], ['c']] := rfl
  obtain ⟨⟨history, s'⟩, hsome, hreturned⟩ := Option.map_eq_some_iff.mp hfollow
  have hrun := Run.of_followSome hsome
  have hsizes : List.Forall₂
      (fun (m : Text) (c : ℕ × (ℕ → Char) × (ℕ → Char)) => m.length < c.1)
      [['a', 'b'], ['c']] [(3, fun _ => 'x', fun _ => 'x'), (2, fun _ => 'x', fun _ => 'x')] :=
    .cons (by decide) (.cons (by decide) .nil)
  exact ⟨history, s', hrun, hreturned, transport_delivers [['a', 'b'], ['c']]
    [['a'], [], ['b', '*', 'c'], ['*']] _ (by decide) rfl hsizes history s' hrun⟩

/-! ## Texts of any kind -/

/-- What calls return that read a text one after the other. -/
def feedAll : List LimiterCall → Text → Option (List ReadResult)
  | [], _ => some []
  | call :: calls, socket => (call.feed socket).bind fun r => (feedAll calls r.2).map (r.1 :: ·)

/-- What `readSocketLimiter` returns, called again and again, and what it stores at `bytesRead`. -/
def readAll : List ℕ → Text → Option (List ReadResult)
  | [], _ => some []
  | BUFFER_SIZE :: sizes, socket => (readSocketLimiter BUFFER_SIZE socket).bind fun r =>
    (readAll sizes r.socket).map (⟨r.buffer, r.bytesRead⟩ :: ·)

theorem feedAll_of_readAll {calls : List (ℕ × (ℕ → Char) × (ℕ → Char))} {socket : Text}
    {results : List ReadResult} (h : readAll (calls.map (·.1)) socket = some results) :
    feedAll (calls.map fun c => .start c.1 c.2.1 c.2.2) socket = some results := by
  induction calls generalizing socket results with
  | nil => exact h
  | cons c calls ih =>
    obtain ⟨r, hr, hrest⟩ := Option.bind_eq_some_iff.mp h
    obtain ⟨results', hresults, rfl⟩ := Option.map_eq_some_iff.mp hrest
    rw [List.map_cons, feedAll, LimiterCall.feed_of_readSocketLimiter hr, Option.bind_some,
      ih hresults]
    rfl

/-- What has been returned, and what the calls will return on what is under way and unsent. -/
structure Reads (results : List ReadResult) (s : Transport) : Prop where
  sending : ∀ call ∈ s.sends, Sending call
  reading : ∃ todo, feedAll s.calls (s.channel ++ s.unsent) = some todo ∧
    s.returned ++ todo = results

theorem reads_step {results : List ReadResult} {s s' : Transport} {e : TransportEvent}
    (h : Reads results s) (hstep : TransportStep s e s') : Reads results s' := by
  obtain ⟨hsending, todo, hfeed, heq⟩ := h
  by_cases he : e = .read
  case neg =>
    obtain ⟨hsending', hmoved, hcalls, hreturned, -⟩ := sender_step hsending hstep he
    refine ⟨hsending', todo, ?_, ?_⟩
    · rw [hcalls, hmoved]
      exact hfeed
    · rw [hreturned]
      exact heq
  subst he
  obtain ⟨sends, _ | ⟨c, channel⟩, _ | ⟨call, calls⟩, returned⟩ := s
  case cons.cons =>
    obtain ⟨⟨r, rest⟩, hcall, hrest⟩ := Option.bind_eq_some_iff.mp hfeed
    rw [List.cons_append, LimiterCall.feed] at hcall
    cases hnext : call.read (some [c]) with
    | running call' =>
      rw [hnext] at hcall
      simp only [TransportStep, transportStep, hnext, Option.some.injEq] at hstep
      subst hstep
      exact ⟨hsending, todo, Option.bind_eq_some_iff.mpr ⟨_, hcall, hrest⟩, heq⟩
    | returned r' =>
      rw [hnext] at hcall
      simp only [TransportStep, transportStep, hnext, Option.some.injEq] at hstep
      subst hstep
      cases hcall
      obtain ⟨todo', hfeed', rfl⟩ := Option.map_eq_some_iff.mp hrest
      refine ⟨hsending, todo', hfeed', ?_⟩
      rw [List.append_assoc]
      exact heq
    | outside | hang =>
      rw [hnext] at hcall
      cases hcall
  all_goals cases hstep

/-- Where neither can go on, all calls have returned. -/
theorem Reads.finished {results : List ReadResult} {s : Transport} (h : Reads results s)
    (hstuck : ∀ e, transportStep e s = none) : s.returned = results := by
  obtain ⟨hsending, todo, hfeed, heq⟩ := h
  have hsends : s.sends = [] := by
    by_contra hne
    obtain ⟨e, s', hstep⟩ := exists_send hsending hne
    rw [hstuck e] at hstep
    cases hstep
  obtain ⟨sends, channel, calls, returned⟩ := s
  cases hsends
  cases calls with
  | nil =>
    cases hfeed
    rwa [List.append_nil] at heq
  | cons call calls =>
    -- the call under way returns on what is left, so there is a character for it to read
    obtain ⟨⟨r, rest⟩, hcall, -⟩ := Option.bind_eq_some_iff.mp hfeed
    cases channel with
    | nil => cases hcall
    | cons c channel =>
      have hread := hstuck .read
      rw [List.cons_append, LimiterCall.feed] at hcall
      cases hnext : call.read (some [c]) with
      | running | returned =>
        simp only [transportStep, hnext] at hread
        cases hread
      | outside | hang =>
        rw [hnext] at hcall
        cases hcall

/-- Whatever the order of the steps, and whatever the texts hold, the calls return what
`readSocketLimiter` returns on the texts put together. -/
theorem transport_reads (pieces : List Text) (calls : List (ℕ × (ℕ → Char) × (ℕ → Char)))
    {results : List ReadResult} (hread : readAll (calls.map (·.1)) pieces.flatten = some results)
    {history : List (Transition Transport TransportEvent)} {s' : Transport}
    (hrun : Run TransportStep (transportStart pieces calls) history s') :
    s'.returned <+: results ∧
      ((∀ e, transportStep e s' = none) → s'.returned = results) := by
  have hstart : Reads results (transportStart pieces calls) := by
    refine ⟨?_, results, ?_, rfl⟩
    · intro call hcall
      obtain ⟨text, -, rfl⟩ := List.mem_map.mp hcall
      exact sending_start text
    · rw [Transport.unsent]
      show feedAll _ ([] ++ (pieces.map WriteCall.start).flatMap WriteCall.rest) = _
      rw [flatMap_rest_start]
      exact feedAll_of_readAll hread
  have hstep : ∀ (s : Transport) (e : TransportEvent) (s' : Transport),
      Reads results s → TransportStep s e s' → Reads results s' := fun _ _ _ => reads_step
  have hreads : Reads results s' := (hrun.invariant hstep hstart).1
  refine ⟨?_, hreads.finished⟩
  obtain ⟨todo, -, heq⟩ := hreads.reading
  exact ⟨todo, heq⟩

end OfcBenchmark
