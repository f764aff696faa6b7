import OfcBenchmark.Mysnmp

/-!
# The two cursors of the SNMP poller

`printResult` moves `op` on for every variable it stores, `asynchResponse` moves `current_oid` on
for every response. A response with an error status moves one of them only, and from then on the
values of the cycle are stored under the names of others: the cursors are equal whenever a response
is handled exactly if no response follows one with an error status in its cycle
(`inLockstep_iff`).
-/

namespace OfcBenchmark
open Printf Runs

/-! ## Events -/

namespace SnmpEvent

/-- A new cycle. -/
def IsStart : SnmpEvent → Prop
  | .start _ => True
  | _ => False

instance : DecidablePred IsStart
  | .start _ => inferInstanceAs (Decidable True)
  | .response .. | .timeout => inferInstanceAs (Decidable False)

/-- A response, whatever its status. -/
def IsResponse : SnmpEvent → Prop
  | .response .. => True
  | _ => False

/-- A response with an error status. -/
def IsError : SnmpEvent → Prop
  | .response pdu _ _ => pdu.errstat ≠ SNMP_ERR_NOERROR
  | _ => False

/-- A response without an error has the one variable that was asked for. -/
def SingleVariable : SnmpEvent → Prop
  | .response pdu _ _ => pdu.errstat = SNMP_ERR_NOERROR → ∃ vp, pdu.variable_list = [vp]
  | _ => True

/-- The errors of the cycle after the event, where there were `n` before it. -/
def errors (n : ℕ) : SnmpEvent → ℕ
  | .start _ => 0
  | .response pdu _ _ => if pdu.errstat = SNMP_ERR_NOERROR then n else n + 1
  | .timeout => n

end SnmpEvent

/-- The responses with an error status since the cycle began. -/
def openErrors (past : List SnmpTransition) : ℕ :=
  past.foldl (fun n t => t.event.errors n) 0

theorem openErrors_concat (past : List SnmpTransition) (t : SnmpTransition) :
    openErrors (past ++ [t]) = t.event.errors (openErrors past) := by
  rw [openErrors, List.foldl_append]
  rfl

/-- No response follows one with an error status in its cycle. -/
def ErrorsLast (history : List SnmpTransition) : Prop :=
  ∀ before t mid t' after, history = before ++ t :: (mid ++ t' :: after) → t.event.IsError →
    (∀ r ∈ mid, ¬ r.event.IsStart) → ¬ t'.event.IsResponse

/-- An error counts until the next cycle begins. -/
theorem openErrors_ne_zero_iff (past : List SnmpTransition) :
    openErrors past ≠ 0 ↔ ∃ before t mid, past = before ++ t :: mid ∧ t.event.IsError ∧
      ∀ r ∈ mid, ¬ r.event.IsStart := by
  induction past using List.reverseRecOn with
  | nil => simp [openErrors]
  | append_singleton past t ih =>
    rw [openErrors_concat]
    -- the error is the last event, or it is before it and no cycle begins now
    have hsplit : (∃ before t' mid, past ++ [t] = before ++ t' :: mid ∧ t'.event.IsError ∧
          ∀ r ∈ mid, ¬ r.event.IsStart) ↔
        t.event.IsError ∨ ¬ t.event.IsStart ∧ openErrors past ≠ 0 := by
      rw [ih]
      constructor
      · intro ⟨before, t', mid, heq, herror, hmid⟩
        rcases List.eq_nil_or_concat mid with rfl | ⟨mid', r, rfl⟩
        · obtain ⟨-, hlast⟩ := List.append_inj' heq rfl
          rw [(List.cons.inj hlast).1]
          exact .inl herror
        · rw [List.concat_eq_append] at heq hmid
          rw [← List.cons_append, ← List.append_assoc] at heq
          obtain ⟨hinit, hlast⟩ := List.append_inj' heq rfl
          rw [(List.cons.inj hlast).1]
          refine .inr ⟨hmid r (by simp), before, t', mid', hinit, herror, ?_⟩
          intro r' hr'
          exact hmid r' (List.mem_append_left _ hr')
      · rintro (herror | ⟨hstart, before, t', mid, rfl, herror, hmid⟩)
        · exact ⟨past, t, [], rfl, herror, fun _ hr => absurd hr List.not_mem_nil⟩
        · refine ⟨before, t', mid ++ [t], by simp, herror, ?_⟩
          intro r hr
          rcases List.mem_append.mp hr with hr | hr
          · exact hmid r hr
          · rw [List.mem_singleton.mp hr]
            exact hstart
    rw [hsplit]
    obtain ⟨s, e, s'⟩ := t
    cases e with
    | start sent => simp [SnmpEvent.errors, SnmpEvent.IsError, SnmpEvent.IsStart]
    | response pdu now sent =>
      by_cases hstatus : pdu.errstat = SNMP_ERR_NOERROR
      · simp [SnmpEvent.errors, SnmpEvent.IsError, SnmpEvent.IsStart, hstatus]
      · simp [SnmpEvent.errors, SnmpEvent.IsError, hstatus]
    | timeout => simp [SnmpEvent.errors, SnmpEvent.IsError, SnmpEvent.IsStart]

/-- So errors come last exactly if there are none when a response is handled. -/
theorem errorsLast_iff (history : List SnmpTransition) :
    ErrorsLast history ↔ ∀ before t after, history = before ++ t :: after →
      t.event.IsResponse → openErrors before = 0 := by
  constructor
  · intro hlast before t after heq hresponse
    by_contra hopen
    obtain ⟨before', t', mid, rfl, herror, hmid⟩ := (openErrors_ne_zero_iff before).mp hopen
    rw [List.append_assoc, List.cons_append] at heq
    exact hlast before' t' mid t after heq herror hmid hresponse
  · intro hnone before t mid t' after heq herror hmid hresponse
    rw [← List.cons_append, ← List.append_assoc] at heq
    have hopen := (openErrors_ne_zero_iff (before ++ t :: mid)).mpr
      ⟨before, t, mid, rfl, herror, hmid⟩
    exact hopen (hnone (before ++ t :: mid) t' after heq hresponse)

/-! ## The cursors -/

section Cursors

variable (fl : ℚ → ℚ) (tStart : Timeval)

/-- A value is stored as one of that name is. -/
def StoredUnder (now : Timeval) (name : ReadableName) (vp : Text) (s s' : SnmpState) : Prop :=
  ∃ token s₁, strtok vp = some token ∧ storeVariable fl tStart now name token s = some s₁ ∧
    s'.ramSize = s₁.ramSize ∧ s'.queues = s₁.queues

/-- Whenever a response is handled the cursors are equal, and its value is stored under the name
of what was asked for. -/
def InLockstep (history : List SnmpTransition) : Prop :=
  ∀ t ∈ history, ∀ pdu now sent, t.event = .response pdu now sent →
    t.pre.op = t.pre.current_oid ∧
      (pdu.errstat = SNMP_ERR_NOERROR → ∀ vp, pdu.variable_list = [vp] →
        ∃ name, oids[t.pre.current_oid]? = some name ∧
          StoredUnder fl tStart now name vp t.pre t.post)

variable {fl tStart} {s s' : SnmpState} {pdu : SnmpPdu} {now : Timeval} {sent : Bool}

theorem runSnmp_of_step {e : SnmpEvent} (h : SnmpStep fl tStart s e s') :
    runSnmp fl tStart e s = some s' := by
  unfold SnmpStep stepSnmp at h
  split at h
  · exact h
  · exact absurd h nofun

/-- Storing a value leaves the cursors alone. -/
theorem storeVariable_cursors {name : ReadableName} {token : Text}
    (h : storeVariable fl tStart now name token s = some s') :
    s'.op = s.op ∧ s'.current_oid = s.current_oid ∧ s'.active_hosts = s.active_hosts := by
  unfold storeVariable at h
  dsimp only at h
  cases name with
  | ramUsed =>
    dsimp only at h
    split at h
    · exact absurd h nofun
    · rw [← Option.some.inj h]
      exact ⟨rfl, rfl, rfl⟩
  | ramSize | cpuIdle | bytesIn | bytesOut =>
    rw [← Option.some.inj h]
    exact ⟨rfl, rfl, rfl⟩

/-- A response with one variable stores it under the name `op` points to. -/
theorem asynchResponse_single {vp : Text} (hstatus : pdu.errstat = SNMP_ERR_NOERROR)
    (hone : pdu.variable_list = [vp])
    (h : asynchResponse fl tStart pdu now sent s = some s') :
    (∃ name, oids[s.op]? = some name ∧ StoredUnder fl tStart now name vp s s') ∧
      s'.op = s.op + 1 ∧ s'.current_oid = s.current_oid + 1 := by
  obtain ⟨s₁, hprint, hrest⟩ := Option.bind_eq_some_iff.mp h
  rw [printResult, if_pos hstatus, hone] at hprint
  obtain ⟨s₂, hvariable, hpure⟩ := Option.bind_eq_some_iff.mp hprint
  obtain ⟨token, htoken, hvariable⟩ := Option.bind_eq_some_iff.mp hvariable
  obtain ⟨name, hname, hvariable⟩ := Option.bind_eq_some_iff.mp hvariable
  obtain ⟨s₃, hstore, hmove⟩ := Option.bind_eq_some_iff.mp hvariable
  obtain ⟨hop, hoid, -⟩ := storeVariable_cursors hstore
  cases hpure
  cases hmove
  have hfinal : s'.op = s₃.op + 1 ∧ s'.current_oid = s₃.current_oid + 1 ∧
      s'.ramSize = s₃.ramSize ∧ s'.queues = s₃.queues := by
    dsimp only at hrest
    split at hrest <;> cases hrest <;> exact ⟨rfl, rfl, rfl, rfl⟩
  obtain ⟨hop', hoid', hram, hqueues⟩ := hfinal
  exact ⟨⟨name, hname, token, s₃, htoken, hstore, hram, hqueues⟩, by rw [hop', hop],
    by rw [hoid', hoid]⟩

/-- One with an error status stores nothing. -/
theorem asynchResponse_error (hstatus : pdu.errstat ≠ SNMP_ERR_NOERROR)
    (h : asynchResponse fl tStart pdu now sent s = some s') :
    s'.op = s.op ∧ s'.current_oid = s.current_oid + 1 := by
  obtain ⟨s₁, hprint, hrest⟩ := Option.bind_eq_some_iff.mp h
  rw [printResult, if_neg hstatus] at hprint
  cases hprint
  dsimp only at hrest
  split at hrest <;> cases hrest <;> exact ⟨rfl, rfl⟩

/-- The errors of a cycle are what `current_oid` is ahead by. -/
theorem cursors_step {past : List SnmpTransition} {e : SnmpEvent}
    (h : s.current_oid = s.op + openErrors past) (hsingle : e.SingleVariable)
    (hstep : SnmpStep fl tStart s e s') :
    s'.current_oid = s'.op + openErrors (past ++ [⟨s, e, s'⟩]) := by
  have hrun := runSnmp_of_step hstep
  rw [openErrors_concat]
  cases e with
  | start sent =>
    cases hrun
    rfl
  | response pdu now sent =>
    dsimp only [SnmpEvent.errors]
    split
    case isTrue hstatus =>
      obtain ⟨vp, hone⟩ := hsingle hstatus
      obtain ⟨-, hop, hoid⟩ := asynchResponse_single hstatus hone hrun
      omega
    case isFalse hstatus =>
      obtain ⟨hop, hoid⟩ := asynchResponse_error hstatus hrun
      omega
  | timeout =>
    cases hrun
    exact h

/-- In every run. -/
theorem cursors_run {history : List SnmpTransition}
    (hrun : Run (SnmpStep fl tStart) initializeSnmp history s')
    (hsingle : ∀ t ∈ history, t.event.SingleVariable) {before after : List SnmpTransition}
    {t : SnmpTransition} (heq : history = before ++ t :: after) :
    t.pre.current_oid = t.pre.op + openErrors before := by
  have hsteps : ∀ (past : List SnmpTransition) s e s', s.current_oid = s.op + openErrors past →
      (SnmpEvent.SingleVariable e ∧ SnmpStep fl tStart s e s') →
      s'.current_oid = s'.op + openErrors (past ++ [⟨s, e, s'⟩]) :=
    fun _ _ _ _ hpast hstep => cursors_step hpast hstep.1 hstep.2
  have hstart : initializeSnmp.current_oid = initializeSnmp.op + openErrors [] := rfl
  exact ((hrun.restrict hsingle).invariant_history hsteps hstart).2 before t after heq

/-- In every run the cursors stay together, and each value goes where it belongs, exactly if errors
come last in their cycles. -/
theorem inLockstep_iff {history : List SnmpTransition}
    (hrun : Run (SnmpStep fl tStart) initializeSnmp history s')
    (hsingle : ∀ t ∈ history, t.event.SingleVariable) :
    InLockstep fl tStart history ↔ ErrorsLast history := by
  rw [errorsLast_iff]
  constructor
  · intro hlock before t after heq hresponse
    have hcursors := cursors_run hrun hsingle heq
    obtain ⟨s, e, s₁⟩ := t
    cases e with
    | response pdu now sent =>
      have hmem : ⟨s, .response pdu now sent, s₁⟩ ∈ history :=
        heq ▸ List.mem_append_right _ List.mem_cons_self
      have heq := (hlock _ hmem pdu now sent rfl).1
      omega
    | start | timeout => exact absurd hresponse id
  · intro hnone t ht pdu now sent hevent
    obtain ⟨before, after, heq⟩ := List.append_of_mem ht
    have hcursors := cursors_run hrun hsingle heq
    have hopen := hnone before t after heq (by rw [hevent]; trivial)
    have hequal : t.pre.op = t.pre.current_oid := by omega
    refine ⟨hequal, ?_⟩
    intro hstatus vp hone
    have hstep := runSnmp_of_step (hrun.step_of_mem ht)
    rw [hevent] at hstep
    rw [← hequal]
    exact (asynchResponse_single hstatus hone hstep).1

end Cursors

/-! ## Cycles with errors -/

/-- A response with a value. -/
def answer (value : String) : SnmpEvent :=
  .response ⟨SNMP_ERR_NOERROR, [value.toList]⟩ ⟨0, 0⟩ true

/-- A response that says there is no such name. -/
def refusal : SnmpEvent := .response ⟨2, []⟩ ⟨0, 0⟩ true

/-- A cycle that ends with an error and a timeout, and another cycle. -/
def refusedThenTimeout : List SnmpEvent :=
  [.start true, answer "8052656 kB", answer "4026328 kB", refusal, .timeout, .start true,
    answer "8052656 kB"]

/-- A cycle that goes on after an error. -/
def refusedThenAnswered : List SnmpEvent := [.start true, refusal, answer "4026328 kB"]

theorem inLockstep_iff_refusedThenTimeout :
    ∃ history s', Run (SnmpStep id ⟨0, 0⟩) initializeSnmp history s' ∧
      history.map Transition.event = refusedThenTimeout ∧
      (InLockstep id ⟨0, 0⟩ history ↔ ErrorsLast history) := by
  have hfollow :
      (followSome (stepSnmp id ⟨0, 0⟩) refusedThenTimeout initializeSnmp).isSome = true := by
    decide
  obtain ⟨history, s', hrun, hevents⟩ := Run.exists_of_followSome hfollow
  have hsingle : ∀ t ∈ history, t.event.SingleVariable := by
    intro t ht
    have hmem : t.event ∈ refusedThenTimeout := hevents ▸ List.mem_map_of_mem ht
    simp only [refusedThenTimeout, List.mem_cons, List.not_mem_nil, or_false] at hmem
    rcases hmem with h | h | h | h | h | h | h <;> rw [h]
    · trivial
    · exact fun _ => ⟨_, rfl⟩
    · exact fun _ => ⟨_, rfl⟩
    · intro hstatus
      exact absurd hstatus (by decide)
    · trivial
    · trivial
    · exact fun _ => ⟨_, rfl⟩
  exact ⟨history, s', hrun, hevents, inLockstep_iff hrun hsingle⟩

/-- The memory that is used is taken for the size of the memory. -/
theorem not_inLockstep_refusedThenAnswered :
    ∃ history s', Run (SnmpStep id ⟨0, 0⟩) initializeSnmp history s' ∧
      history.map Transition.event = refusedThenAnswered ∧ ¬ InLockstep id ⟨0, 0⟩ history := by
  have hfollow :
      (followSome (stepSnmp id ⟨0, 0⟩) refusedThenAnswered initializeSnmp).isSome = true := by
    decide
  obtain ⟨history, s', hrun, hevents⟩ := Run.exists_of_followSome hfollow
  refine ⟨history, s', hrun, hevents, ?_⟩
  obtain ⟨t₁, _, rfl, hstart, hrest⟩ := List.map_eq_cons_iff.mp hevents
  obtain ⟨t₂, _, rfl, hrefused, hrest⟩ := List.map_eq_cons_iff.mp hrest
  obtain ⟨t₃, _, rfl, hanswered, hrest⟩ := List.map_eq_cons_iff.mp hrest
  rw [List.map_eq_nil_iff.mp hrest] at hrun ⊢
  have hsingle : ∀ t ∈ [t₁, t₂, t₃], t.event.SingleVariable := by
    intro t ht
    simp only [List.mem_cons, List.not_mem_nil, or_false] at ht
    rcases ht with rfl | rfl | rfl
    · rw [hstart]
      trivial
    · rw [hrefused]
      intro hstatus
      exact absurd hstatus (by decide)
    · rw [hanswered]
      exact fun _ => ⟨_, rfl⟩
  have hcursors := cursors_run hrun hsingle (show [t₁, t₂, t₃] = [t₁, t₂] ++ t₃ :: [] from rfl)
  have hopen : openErrors [t₁, t₂] = 1 := by
    rw [openErrors, List.foldl_cons, List.foldl_cons, hstart, hrefused]
    rfl
  intro hlock
  have hequal := (hlock t₃ (by simp) _ _ _ hanswered).1
  omega

end OfcBenchmark
