import OfcBenchmark.Lib.Series
import OfcBenchmark.LockstepTheorems

/-!
# The SNMP series

The queues of samples are filled at different points of a polling cycle, which a timeout can cut
anywhere, and `plotDistributed` joins them by position, along the queue of the times. A time is
put there with the sample of the CPU. The rows belong together exactly if every cycle that gets
that far gets to its end, and no cycle is cut between the samples of the memory and the CPU before
one that gets that far (`seriesAligned_iff`).
-/

namespace OfcBenchmark
open Printf Runs Series

/-! ## Cycles -/

/-- The answers of a cycle, in their order: values, and when they come. -/
abbrev Answers := List (Text × Timeval)

/-- The response to a request for one variable. -/
def responseTo (a : Text × Timeval) : SnmpEvent := .response ⟨SNMP_ERR_NOERROR, [a.1]⟩ a.2 true

/-- A cycle in which these requests are answered, and the next one times out. -/
def cycleEvents (answers : Answers) : List SnmpEvent :=
  .start true :: (answers.map responseTo
    ++ if answers.length < oids.length then [.timeout] else [])

/-- The cycles in which the entries of a queue are put there, from the number `cycle` on. -/
def samplesFrom (id : QueueId) : ℕ → List SnmpTransition → List ℕ
  | _, [] => []
  | cycle, t :: history =>
    match t.event with
    | .start _ => samplesFrom id (cycle + 1) history
    | _ => List.replicate ((t.post.queues id).length - (t.pre.queues id).length) cycle
        ++ samplesFrom id cycle history

/-- The cycles the entries of a queue are from. The first cycle has the number 1. -/
def sampledIn (id : QueueId) (history : List SnmpTransition) : List ℕ := samplesFrom id 0 history

/-- The graphs can be plotted, and each of their rows comes from one cycle. -/
structure SeriesAligned (unset : ℤ) (history : List SnmpTransition) (queues : Queues) : Prop where
  plotted : (plotSnmp unset queues).isSome = true
  same_cycle : ∀ k < plotLength unset queues, ∀ id,
    (sampledIn id history)[k]? = (sampledIn TIME history)[k]?

/-! ## One response -/

/-- The answers it takes in a cycle until there is a sample for the queue. -/
def answersFor : QueueId → ℕ
  | .avgs => 2
  | .values | .time => 3
  | .results => 4
  | .snmp => 5

/-- The poller has asked for entry `k` of `oids`. -/
structure Asking (k : ℕ) (s : SnmpState) : Prop where
  op_eq : s.op = k
  current_oid_eq : s.current_oid = k
  active_hosts_eq : s.active_hosts = 1
  lt : k < 5

section Cycle

variable {fl : ℚ → ℚ} {tStart : Timeval} {s s' : SnmpState} {now : Timeval} {k : ℕ}

@[simp] theorem length_enqueue (s : SnmpState) (text : Text) (id id' : QueueId) (size : ℕ) :
    ((s.enqueue text id size).queues id').length
      = (s.queues id').length + if id' = id then 1 else 0 := by
  unfold SnmpState.enqueue
  by_cases h : id' = id
  · rw [h]
    simp
  · simp [h]

/-- A value is one sample for the queues whose turn it is. -/
theorem length_storeVariable {name : ReadableName} {token : Text} (hname : oids[k]? = some name)
    (h : storeVariable fl tStart now name token s = some s') (id : QueueId) :
    (s'.queues id).length = (s.queues id).length + if answersFor id = k + 1 then 1 else 0 := by
  have hk : k < 5 := (List.getElem?_eq_some_iff.mp hname).1
  interval_cases k <;> cases hname
  · cases h
    cases id <;> rfl
  · unfold storeVariable at h
    dsimp only at h
    split at h
    · exact absurd h nofun
    · cases h
      rw [length_enqueue]
      cases id <;> rfl
  · cases h
    rw [length_enqueue, length_enqueue]
    cases id <;> rfl
  · cases h
    rw [length_enqueue]
    cases id <;> rfl
  · cases h
    rw [length_enqueue]
    cases id <;> rfl

/-- An answer moves the poller on, up to the end of the cycle. -/
theorem Asking.answer (h : Asking k s) {a : Text × Timeval}
    (hstep : SnmpStep fl tStart s (responseTo a) s') :
    (if k + 1 < 5 then Asking (k + 1) s' else s'.active_hosts = 0) ∧
      ∀ id, (s'.queues id).length
        = (s.queues id).length + if answersFor id = k + 1 then 1 else 0 := by
  have hrun := runSnmp_of_step hstep
  obtain ⟨s₁, hprint, hrest⟩ := Option.bind_eq_some_iff.mp hrun
  obtain ⟨s₂, hvariable, hpure⟩ := Option.bind_eq_some_iff.mp hprint
  obtain ⟨token, -, hvariable⟩ := Option.bind_eq_some_iff.mp hvariable
  obtain ⟨name, hname, hvariable⟩ := Option.bind_eq_some_iff.mp hvariable
  obtain ⟨s₃, hstore, hmove⟩ := Option.bind_eq_some_iff.mp hvariable
  obtain ⟨hop, hoid, hactive⟩ := storeVariable_cursors hstore
  rw [h.op_eq] at hname
  have hlength := length_storeVariable hname hstore
  cases hpure
  cases hmove
  dsimp only at hrest
  have hoids : oids.length = 5 := rfl
  rw [hoids, hoid, h.current_oid_eq] at hrest
  by_cases hk : k + 1 < 5
  · rw [if_pos ⟨hk, rfl⟩] at hrest
    cases hrest
    rw [if_pos hk]
    exact ⟨⟨by rw [hop, h.op_eq], rfl, hactive.trans h.active_hosts_eq, hk⟩, hlength⟩
  · rw [if_neg (fun hand => hk hand.1)] at hrest
    cases hrest
    rw [if_neg hk]
    refine ⟨?_, hlength⟩
    show s₃.active_hosts - 1 = 0
    rw [hactive, h.active_hosts_eq]
    rfl

/-! ## One cycle -/

/-- A cycle that was begun goes on. -/
theorem samplesFrom_append (id : QueueId) (cycle : ℕ) (history history' : List SnmpTransition) :
    samplesFrom id cycle (history ++ history') = samplesFrom id cycle history
      ++ samplesFrom id (cycle + history.countP (·.event.IsStart)) history' := by
  induction history generalizing cycle with
  | nil => rfl
  | cons t history ih =>
    obtain ⟨s, e, s'⟩ := t
    rw [List.cons_append, List.countP_cons]
    cases e with
    | start sent =>
      show samplesFrom id (cycle + 1) (history ++ history')
        = samplesFrom id (cycle + 1) history ++ _
      rw [ih, Nat.add_assoc, Nat.add_comm 1]
      rfl
    | response | timeout =>
      show _ ++ samplesFrom id cycle (history ++ history')
        = (_ ++ samplesFrom id cycle history) ++ _
      rw [ih, List.append_assoc]
      rfl

/-- The requests of a cycle from entry `k` on. -/
theorem run_answers {answers : Answers} {history : List SnmpTransition} (h : Asking k s)
    (hle : k + answers.length ≤ 5) (hrun : Run (SnmpStep fl tStart) s history s')
    (hevents : history.map Transition.event = answers.map responseTo) (cycle : ℕ) :
    (if k + answers.length < 5 then Asking (k + answers.length) s' else s'.active_hosts = 0) ∧
      ∀ id, samplesFrom id cycle history
          = (if k < answersFor id ∧ answersFor id ≤ k + answers.length then [cycle] else []) ∧
        (s'.queues id).length = (s.queues id).length + (samplesFrom id cycle history).length := by
  induction answers generalizing k s history with
  | nil =>
    rw [List.map_nil, List.map_eq_nil_iff] at hevents
    rw [hevents] at hrun ⊢
    cases hrun
    refine ⟨(if_pos h.lt).symm ▸ h, fun id => ⟨(if_neg ?_).symm, rfl⟩⟩
    rw [List.length_nil]
    omega
  | cons a answers ih =>
    rw [List.map_cons] at hevents
    obtain ⟨⟨_, e, s₁⟩, rest, rfl, he, hrest⟩ := List.map_eq_cons_iff.mp hevents
    change e = responseTo a at he
    rw [he] at hrun ⊢
    rw [List.length_cons] at hle ⊢
    cases hrun with
    | cons hstep hrun =>
      obtain ⟨hnext, hlength⟩ := h.answer hstep
      have hfirst (id : QueueId) : samplesFrom id cycle (⟨s, responseTo a, s₁⟩ :: rest)
          = (if answersFor id = k + 1 then [cycle] else []) ++ samplesFrom id cycle rest := by
        show List.replicate ((s₁.queues id).length - (s.queues id).length) cycle ++ _ = _
        rw [hlength, Nat.add_sub_cancel_left]
        split <;> rfl
      by_cases hk : k + 1 < 5
      · rw [if_pos hk] at hnext
        obtain ⟨hend, hall⟩ := ih hnext (by omega) hrun hrest
        rw [show k + (answers.length + 1) = k + 1 + answers.length by omega]
        refine ⟨hend, fun id => ?_⟩
        obtain ⟨hsamples, hgrow⟩ := hall id
        rw [hfirst, hgrow, hlength, List.length_append, hsamples]
        constructor
        · split_ifs <;> first | rfl | omega
        · split_ifs <;> simp
      -- it was the last one
      · rw [if_neg hk] at hnext
        have hnil : answers = [] := List.eq_nil_of_length_eq_zero (by omega)
        rw [hnil, List.map_nil, List.map_eq_nil_iff] at hrest
        rw [hrest] at hrun
        cases hrun
        rw [hnil, List.length_nil, if_neg (by omega)]
        refine ⟨hnext, fun id => ?_⟩
        rw [hfirst, hrest, hlength]
        have hle5 : answersFor id ≤ 5 := by cases id <;> decide
        have h5 := h.lt
        show (_ ++ [] = _) ∧ _ = _ + (_ ++ []).length
        rw [List.append_nil]
        constructor
        · split_ifs <;> first | rfl | omega
        · split_ifs <;> rfl

/-- A request that times out ends the cycle. -/
theorem run_tail {answers : Answers} {history : List SnmpTransition}
    (h : if answers.length < 5 then Asking answers.length s else s.active_hosts = 0)
    (hrun : Run (SnmpStep fl tStart) s history s')
    (hevents : history.map Transition.event
      = if answers.length < oids.length then [.timeout] else []) (cycle : ℕ) :
    s'.active_hosts = 0 ∧ s'.queues = s.queues ∧ ∀ id, samplesFrom id cycle history = [] := by
  have hoids : oids.length = 5 := rfl
  rw [hoids] at hevents
  by_cases hlt : answers.length < 5
  · rw [if_pos hlt] at h hevents
    obtain ⟨⟨_, e, s₁⟩, rest, rfl, he, hrest⟩ := List.map_eq_cons_iff.mp hevents
    change e = .timeout at he
    rw [List.map_eq_nil_iff.mp hrest, he] at hrun ⊢
    cases hrun with
    | cons hstep hrun =>
      cases hrun
      cases runSnmp_of_step hstep
      refine ⟨?_, rfl, fun id => ?_⟩
      · show s.active_hosts - 1 = 0
        rw [h.active_hosts_eq]
        rfl
      · show List.replicate ((s.queues id).length - (s.queues id).length) cycle ++ [] = []
        rw [Nat.sub_self]
        rfl
  · rw [if_neg hlt] at h hevents
    rw [List.map_eq_nil_iff.mp hevents] at hrun ⊢
    cases hrun
    exact ⟨h, rfl, fun _ => rfl⟩

theorem countP_cycleEvents (answers : Answers) :
    (cycleEvents answers).countP (·.IsStart) = 1 := by
  have hanswers : (answers.map responseTo).countP (·.IsStart) = 0 := by
    rw [List.countP_eq_zero]
    intro e he
    obtain ⟨a, -, rfl⟩ := List.mem_map.mp he
    intro hstart
    exact of_decide_eq_true hstart
  have htail : (if answers.length < oids.length then [SnmpEvent.timeout] else []).countP (·.IsStart)
      = 0 := by
    split <;> rfl
  rw [cycleEvents, List.countP_cons, List.countP_append, hanswers, htail]
  rfl

/-- A whole cycle. -/
theorem run_cycle {answers : Answers} {history : List SnmpTransition} (h : s.active_hosts = 0)
    (hle : answers.length ≤ 5) (hrun : Run (SnmpStep fl tStart) s history s')
    (hevents : history.map Transition.event = cycleEvents answers) (cycle : ℕ) :
    s'.active_hosts = 0 ∧ history.countP (·.event.IsStart) = 1 ∧
      ∀ id, samplesFrom id cycle history
          = (if answersFor id ≤ answers.length then [cycle + 1] else []) ∧
        (s'.queues id).length = (s.queues id).length + (samplesFrom id cycle history).length := by
  have hstarts : history.countP (·.event.IsStart) = 1 := by
    rw [← countP_cycleEvents answers, ← hevents, List.countP_map]
    rfl
  obtain ⟨⟨_, e, s₁⟩, rest, rfl, he, hrest⟩ := List.map_eq_cons_iff.mp hevents
  change e = .start true at he
  rw [he] at hrun hstarts ⊢
  cases hrun with
  | cons hstep hrun =>
    cases runSnmp_of_step hstep
    have hasking : Asking 0 (startCycle true s) := by
      refine ⟨rfl, rfl, ?_, by decide⟩
      show s.active_hosts + 1 = 1
      rw [h]
      rfl
    obtain ⟨h₁, h₂, rfl, hanswers, htail⟩ := List.map_eq_append_iff.mp hrest
    obtain ⟨s₂, hrun₁, hrun₂⟩ := hrun.of_append
    have hle : 0 + answers.length ≤ 5 := by omega
    obtain ⟨hend, hall⟩ := run_answers hasking hle hrun₁ hanswers (cycle + 1)
    rw [Nat.zero_add] at hend
    obtain ⟨hactive, hqueues, hnone⟩ := run_tail hend hrun₂ htail
      (cycle + 1 + h₁.countP (·.event.IsStart))
    refine ⟨hactive, hstarts, fun id => ?_⟩
    obtain ⟨hsamples, hgrow⟩ := hall id
    have hpos : 0 < answersFor id := by cases id <;> decide
    have hwhole : samplesFrom id cycle (⟨s, .start true, startCycle true s⟩ :: (h₁ ++ h₂))
        = samplesFrom id (cycle + 1) h₁ := by
      show samplesFrom id (cycle + 1) (h₁ ++ h₂) = _
      rw [samplesFrom_append, hnone, List.append_nil]
    rw [hwhole, hqueues]
    refine ⟨?_, hgrow⟩
    rw [hsamples, Nat.zero_add]
    simp only [hpos, true_and]

/-- All cycles. -/
theorem run_cycles {cycles : List Answers} {history : List SnmpTransition} (h : s.active_hosts = 0)
    (hle : ∀ answers ∈ cycles, answers.length ≤ 5) (hrun : Run (SnmpStep fl tStart) s history s')
    (hevents : history.map Transition.event = cycles.flatMap cycleEvents) (cycle : ℕ)
    (id : QueueId) :
    samplesFrom id cycle history
        = (cycles.map List.length).findIdxs (answersFor id ≤ ·) (cycle + 1) ∧
      (s'.queues id).length = (s.queues id).length + (samplesFrom id cycle history).length := by
  induction cycles generalizing s history cycle with
  | nil =>
    rw [List.flatMap_nil, List.map_eq_nil_iff] at hevents
    rw [hevents] at hrun ⊢
    cases hrun
    exact ⟨rfl, rfl⟩
  | cons answers cycles ih =>
    obtain ⟨hfirst, hothers⟩ := List.forall_mem_cons.mp hle
    rw [List.flatMap_cons] at hevents
    obtain ⟨h₁, h₂, rfl, hevents₁, hevents₂⟩ := List.map_eq_append_iff.mp hevents
    obtain ⟨s₁, hrun₁, hrun₂⟩ := hrun.of_append
    obtain ⟨hactive, hstarts, hall⟩ := run_cycle h hfirst hrun₁ hevents₁ cycle
    obtain ⟨hsamples, hgrow⟩ := hall id
    obtain ⟨hsamples', hgrow'⟩ := ih hactive hothers hrun₂ hevents₂ (cycle + 1)
    rw [samplesFrom_append, hstarts, List.length_append, hgrow', hgrow, Nat.add_assoc]
    refine ⟨?_, rfl⟩
    rw [hsamples, hsamples', List.map_cons, List.findIdxs_cons]
    by_cases hlong : answersFor id ≤ answers.length <;> simp [hlong]

end Cycle

/-! ## Joining -/

theorem joinQueues_isSome_iff (length : ℕ) (times firsts seconds : List Text) :
    (joinQueues length times firsts seconds).isSome = true ↔
      length ≤ times.length ∧ length ≤ firsts.length ∧ length ≤ seconds.length := by
  induction length generalizing times firsts seconds with
  | zero => simp [joinQueues]
  | succ length ih =>
    rcases times with - | ⟨time, times⟩
    · simp [joinQueues]
    rcases firsts with - | ⟨first, firsts⟩
    · simp [joinQueues]
    rcases seconds with - | ⟨second, seconds⟩
    · simp [joinQueues]
    simp [joinQueues, ih]

/-- The graphs can be plotted if no queue is too short. -/
theorem plotSnmp_isSome_iff (unset : ℤ) (queues : Queues) :
    (plotSnmp unset queues).isSome = true ↔
      ∀ id, plotLength unset queues ≤ (queues id).length := by
  have hjoin : (plotSnmp unset queues).isSome = true ↔
      (joinQueues (plotLength unset queues) (queues TIME) (queues MEMORY) (queues CPU)).isSome
          = true ∧
        (joinQueues (plotLength unset queues) (queues TIME) (queues IN) (queues OUT)).isSome
          = true := by
    unfold plotSnmp
    dsimp only
    cases joinQueues (plotLength unset queues) (queues TIME) (queues MEMORY) (queues CPU) <;>
      cases joinQueues (plotLength unset queues) (queues TIME) (queues IN) (queues OUT) <;> simp
  rw [hjoin, joinQueues_isSome_iff, joinQueues_isSome_iff]
  constructor
  · intro ⟨⟨htime, hmemory, hcpu⟩, _, hin, hout⟩ id
    cases id <;> assumption
  · intro hall
    exact ⟨⟨hall TIME, hall MEMORY, hall CPU⟩, hall TIME, hall IN, hall OUT⟩

/-- What the numbers of requests answered in the cycles must be like. -/
structure InStep (unset : ℤ) (answered : List ℕ) : Prop where
  /-- The length of the queue of times is set, or is a number that is not walked to. -/
  timed : unset < 0 ∨ ∃ n ∈ answered, 3 ≤ n
  /-- A cycle that gets to the CPU gets to its end. -/
  whole : ∀ n ∈ answered, 3 ≤ n → n = 5
  /-- Before such a cycle none ends between the memory and the CPU. -/
  memory_last : answered.Pairwise fun n n' => n = 2 → n' < 3

/-- The queues have been filled in these cycles. -/
structure FilledBy (answered : List ℕ) (history : List SnmpTransition) (queues : Queues) :
    Prop where
  sampledIn_eq : ∀ id, sampledIn id history = answered.findIdxs (answersFor id ≤ ·) 1
  length_eq : ∀ id, (queues id).length = (sampledIn id history).length

section Aligned

variable {answered : List ℕ} {history : List SnmpTransition} {queues : Queues}

/-- With a time in its queue, rows belong together if the cycles of the times come first in every
queue. -/
theorem FilledBy.aligned_iff (h : FilledBy answered history queues) (unset : ℤ)
    (htime : queues TIME ≠ []) :
    SeriesAligned unset history queues ↔
      ∀ id, sampledIn TIME history <+: sampledIn id history := by
  have hne : ((queues TIME).length : ℤ) ≠ 0 := by
    have hpos := List.length_pos_of_ne_nil htime
    omega
  have hlength : plotLength unset queues = (sampledIn TIME history).length := by
    unfold plotLength timeLength
    rw [if_neg htime]
    dsimp only
    rw [if_neg hne, Int.toNat_natCast, h.length_eq]
  constructor
  · intro ⟨hplotted, hsame⟩ id
    rw [hlength] at hsame
    have hle := (plotSnmp_isSome_iff unset queues).mp hplotted id
    rw [hlength, h.length_eq] at hle
    exact isPrefix_iff_getElem?.mpr ⟨hle, fun k hk => hsame k hk id⟩
  · intro hall
    constructor
    · rw [plotSnmp_isSome_iff]
      intro id
      rw [hlength, h.length_eq]
      exact (hall id).length_le
    · intro k hk id
      rw [hlength] at hk
      exact (isPrefix_iff_getElem?.mp (hall id)).2 k hk

/-- Without one, the walk is along a queue that is not there. -/
theorem aligned_iff_of_nil (unset : ℤ) (htime : queues TIME = []) :
    SeriesAligned unset history queues ↔ unset < 0 := by
  have hlength : plotLength unset queues = 0 ↔ unset < 0 := by
    unfold plotLength timeLength
    rw [if_pos htime]
    dsimp only
    split <;> omega
  rw [← hlength]
  constructor
  · intro ⟨hplotted, _⟩
    have hle := (plotSnmp_isSome_iff unset queues).mp hplotted TIME
    rw [htime] at hle
    exact Nat.le_zero.mp hle
  · intro hzero
    constructor
    · rw [plotSnmp_isSome_iff, hzero]
      exact fun id => Nat.zero_le _
    · rw [hzero]
      exact fun k hk => absurd hk (Nat.not_lt_zero k)

/-- The cycles of the times come first in every queue if the cycles are cut where they may be. -/
theorem isPrefix_iff (hle : ∀ n ∈ answered, n ≤ 5) :
    (∀ id, answered.findIdxs (answersFor TIME ≤ ·) 1 <+: answered.findIdxs (answersFor id ≤ ·) 1) ↔
      (∀ n ∈ answered, 3 ≤ n → n = 5) ∧ answered.Pairwise fun n n' => n = 2 → n' < 3 := by
  have hmemory : answered.findIdxs (3 ≤ ·) 1 <+: answered.findIdxs (2 ≤ ·) 1 ↔
      answered.Pairwise fun n n' => n = 2 → n' < 3 := by
    rw [findIdxs_isPrefix_iff_of_imp (by simp; omega)]
    apply List.Pairwise.iff
    intro n n'
    simp only [decide_eq_true_eq]
    omega
  have hless {m : ℕ} (hm : 3 ≤ m) : answered.findIdxs (3 ≤ ·) 1 <+: answered.findIdxs (m ≤ ·) 1 ↔
      ∀ n ∈ answered, 3 ≤ n → m ≤ n := by
    rw [findIdxs_isPrefix_iff_of_imp' (by simp; omega)]
    simp only [decide_eq_true_eq]
  rw [← hmemory]
  constructor
  · intro hall
    refine ⟨?_, hall MEMORY⟩
    intro n hn hlong
    have hout := (hless (m := 5) (by decide)).mp (hall OUT) n hn hlong
    have h5 := hle n hn
    omega
  · intro ⟨hwhole, hprefix⟩ id
    have hfive : ∀ n ∈ answered, 3 ≤ n → 5 ≤ n := fun n hn hlong => (hwhole n hn hlong).ge
    cases id with
    | values | time => exact List.prefix_rfl
    | avgs => exact hprefix
    | results =>
      exact (hless (m := 4) (by decide)).mpr fun n hn hlong => (hfive n hn hlong).trans' (by decide)
    | snmp => exact (hless (m := 5) (by decide)).mpr hfive

theorem FilledBy.aligned_iff_inStep (h : FilledBy answered history queues)
    (hle : ∀ n ∈ answered, n ≤ 5) (unset : ℤ) :
    SeriesAligned unset history queues ↔ InStep unset answered := by
  have hempty : queues TIME = [] ↔ ∀ n ∈ answered, ¬ 3 ≤ n := by
    rw [← List.length_eq_zero_iff, h.length_eq, h.sampledIn_eq, List.length_eq_zero_iff,
      List.findIdxs_eq_nil_iff]
    exact forall₂_congr fun _ _ => decide_eq_false_iff_not
  by_cases htime : queues TIME = []
  · have hshort := hempty.mp htime
    rw [aligned_iff_of_nil unset htime]
    constructor
    · intro hunset
      refine ⟨.inl hunset, fun n hn hlong => absurd hlong (hshort n hn), ?_⟩
      apply List.pairwise_of_forall_mem_list
      intro _ _ n' hn' _
      exact Nat.not_le.mp (hshort n' hn')
    · intro ⟨htimed, _, _⟩
      rcases htimed with hunset | ⟨n, hn, hlong⟩
      · exact hunset
      · exact absurd hlong (hshort n hn)
  · rw [h.aligned_iff unset htime]
    simp only [h.sampledIn_eq]
    rw [isPrefix_iff hle]
    constructor
    · intro ⟨hwhole, hlast⟩
      refine ⟨.inr ?_, hwhole, hlast⟩
      by_contra hnone
      apply htime
      apply hempty.mpr
      intro n hn hlong
      exact hnone ⟨n, hn, hlong⟩
    · intro hstep
      exact ⟨hstep.whole, hstep.memory_last⟩

end Aligned

/-- After any number of cycles, each cut by a timeout anywhere, the series are aligned exactly if
the cycles are in step. -/
theorem seriesAligned_iff (fl : ℚ → ℚ) (tStart : Timeval) (unset : ℤ) (cycles : List Answers)
    (hle : ∀ answers ∈ cycles, answers.length ≤ oids.length) (history : List SnmpTransition)
    (s' : SnmpState) (hrun : Run (SnmpStep fl tStart) initializeSnmp history s')
    (hevents : history.map Transition.event = cycles.flatMap cycleEvents) :
    SeriesAligned unset history s'.queues ↔ InStep unset (cycles.map List.length) := by
  have hfilled : FilledBy (cycles.map List.length) history s'.queues := by
    have hall (id : QueueId) := run_cycles rfl hle hrun hevents 0 id
    constructor
    · intro id
      exact (hall id).1
    · intro id
      rw [(hall id).2]
      exact Nat.zero_add _
  apply hfilled.aligned_iff_inStep
  intro n hn
  obtain ⟨answers, hanswers, rfl⟩ := List.mem_map.mp hn
  exact hle answers hanswers

/-! ## Cycles that are cut -/

/-- The answers of a cycle that all come. -/
def wholeCycle : Answers :=
  ["8052656 kB", "4026328 kB", "97", "8388608", "1048576"].map fun value => (value.toList, ⟨0, 0⟩)

/-- A cycle that is cut after the memory, behind one that is not. -/
def cutLast : List Answers := [wholeCycle, wholeCycle.take 2]

/-- The same cycles in the other order. -/
def cutFirst : List Answers := [wholeCycle.take 2, wholeCycle]

theorem seriesAligned_iff_cutLast :
    ∃ history s', Run (SnmpStep id ⟨0, 0⟩) initializeSnmp history s' ∧
      history.map Transition.event = cutLast.flatMap cycleEvents ∧
      (SeriesAligned 0 history s'.queues ↔ InStep 0 (cutLast.map List.length)) := by
  have hfollow : (followSome (stepSnmp id ⟨0, 0⟩) (cutLast.flatMap cycleEvents)
      initializeSnmp).isSome = true := by
    decide
  obtain ⟨history, s', hrun, hevents⟩ := Run.exists_of_followSome hfollow
  have hle : ∀ answers ∈ cutLast, answers.length ≤ oids.length := by decide
  exact ⟨history, s', hrun, hevents,
    seriesAligned_iff id ⟨0, 0⟩ 0 cutLast hle history s' hrun hevents⟩

/-- The first row joins the memory of the first cycle with the CPU of the second. -/
theorem not_seriesAligned_cutFirst :
    ∃ history s', Run (SnmpStep id ⟨0, 0⟩) initializeSnmp history s' ∧
      history.map Transition.event = cutFirst.flatMap cycleEvents ∧
      ¬ SeriesAligned 0 history s'.queues := by
  have hfollow : (followSome (stepSnmp id ⟨0, 0⟩) (cutFirst.flatMap cycleEvents)
      initializeSnmp).isSome = true := by
    decide
  obtain ⟨history, s', hrun, hevents⟩ := Run.exists_of_followSome hfollow
  refine ⟨history, s', hrun, hevents, ?_⟩
  have hle : ∀ answers ∈ cutFirst, answers.length ≤ 5 := by decide
  have htime := run_cycles rfl hle hrun hevents 0 TIME
  have hmemory := run_cycles rfl hle hrun hevents 0 MEMORY
  intro haligned
  have hlength : (s'.queues TIME).length = 1 := by
    rw [htime.2, htime.1]
    rfl
  have hne : s'.queues TIME ≠ [] := List.ne_nil_of_length_pos (by omega)
  have hpos : 0 < plotLength 0 s'.queues := by
    unfold plotLength timeLength
    rw [if_neg hne, hlength]
    decide
  have hsame := haligned.same_cycle 0 hpos MEMORY
  rw [sampledIn, sampledIn, htime.1, hmemory.1] at hsame
  exact absurd hsame (by decide)

end OfcBenchmark
