import Mathlib.Tactic

/-!
# A counting barrier

Parties count themselves in under a mutex. The one that completes the count wakes all who
wait on a condition variable; a party goes on once the count is complete. Parties may wake
up for no reason, may come back and count themselves in again, and may use the mutex for
other things.

* `Inv`, kept by every step (`Step.inv`);
* `Inv.all_arrived`: who is past the barrier knows that all parties have arrived;
* `Inv.wakeup`: when all have arrived, nobody waits without a wake-up on its way.
-/

namespace Barrier

/-- Where a party is. -/
inductive Phase
  /-- elsewhere -/
  | away
  /-- in another critical section of the same mutex -/
  | busy
  /-- in the mutex, about to count itself in -/
  | arrive
  /-- about to wake the others if the count is complete -/
  | announce
  /-- about to look at the count -/
  | check
  /-- waiting, with the mutex released -/
  | wait
  /-- woken up, about to lock the mutex again -/
  | wake
  /-- past the barrier, still in the mutex -/
  | pass
  /-- past the barrier, out of the mutex -/
  | leave
deriving DecidableEq, Repr

namespace Phase

/-- In the mutex. -/
def holds : Phase → Bool
  | busy | arrive | announce | check | pass => true
  | away | wait | wake | leave => false

/-- Counted in and not past the barrier. -/
def inside : Phase → Bool
  | announce | check | wait | wake => true
  | away | busy | arrive | pass | leave => false

/-- Past the barrier. -/
def past : Phase → Bool
  | pass | leave => true
  | _ => false

/-- What a broadcast does. -/
def woken : Phase → Phase
  | wait => wake
  | p => p

@[simp] theorem holds_woken (p : Phase) : p.woken.holds = p.holds := by cases p <;> rfl
@[simp] theorem inside_woken (p : Phase) : p.woken.inside = p.inside := by cases p <;> rfl
@[simp] theorem past_woken (p : Phase) : p.woken.past = p.past := by cases p <;> rfl
theorem woken_ne_wait (p : Phase) : p.woken ≠ .wait := by cases p <;> nofun

end Phase

/-- The count, who is in the mutex, and the parties; `arrivals` is how often each has counted
itself in. -/
structure State (ι : Type*) where
  count : ℕ
  lock : Option ι
  phase : ι → Phase
  arrivals : ι → ℕ

section Barrier

variable {ι : Type*} [Fintype ι] [DecidableEq ι]

/-- Put a party somewhere. -/
def State.move (s : State ι) (i : ι) (p : Phase) : State ι :=
  { s with phase := Function.update s.phase i p }

/-- One step of one party. -/
inductive Step (s : State ι) : State ι → Prop
  | stay : Step s s
  | borrow (i : ι) : s.phase i = .away → s.lock = none →
      Step s { s.move i .busy with lock := some i }
  | giveBack (i : ι) : s.phase i = .busy → Step s { s.move i .away with lock := none }
  | enter (i : ι) : s.phase i = .away → s.lock = none →
      Step s { s.move i .arrive with lock := some i }
  | count (i : ι) : s.phase i = .arrive →
      Step s { s.move i .announce with
        count := s.count + 1, arrivals := Function.update s.arrivals i (s.arrivals i + 1) }
  | announce (i : ι) : s.phase i = .announce →
      Step s (State.move (if s.count = Fintype.card ι then
        { s with phase := fun j => (s.phase j).woken } else s) i .check)
  | wait (i : ι) : s.phase i = .check → s.count < Fintype.card ι →
      Step s { s.move i .wait with lock := none }
  | pass (i : ι) : s.phase i = .check → Fintype.card ι ≤ s.count → Step s (s.move i .pass)
  | leave (i : ι) : s.phase i = .pass → Step s { s.move i .leave with lock := none }
  | goOn (i : ι) : s.phase i = .leave → Step s (s.move i .away)
  | wakeUp (i : ι) : s.phase i = .wait → Step s (s.move i .wake)
  | relock (i : ι) : s.phase i = .wake → s.lock = none →
      Step s { s.move i .check with lock := some i }

/-- All parties have arrived. -/
def State.AllArrived (s : State ι) : Prop := ∀ i, 0 < s.arrivals i

/-- A broadcast is about to happen. -/
def State.AboutToWake (s : State ι) : Prop :=
  ∃ i, s.phase i = .announce ∧ s.count = Fintype.card ι

/-- What holds at every moment. -/
structure Inv (s : State ι) : Prop where
  lock_iff : ∀ i, (s.phase i).holds = true ↔ s.lock = some i
  count_eq : s.count = ∑ i, s.arrivals i
  waits : ¬ s.AllArrived → ∀ i, s.arrivals i = if (s.phase i).inside then 1 else 0
  all_arrived : ∀ i, (s.phase i).past = true → s.AllArrived
  wakeup : s.AllArrived → ∀ i, s.phase i = .wait → s.AboutToWake

namespace Inv

variable {s : State ι}

omit [DecidableEq ι] in
theorem count_lt (h : Inv s) (hall : ¬ s.AllArrived) : s.count < Fintype.card ι := by
  obtain ⟨i, hi⟩ := not_forall.mp hall
  have hle : ∀ j ∈ Finset.univ, s.arrivals j ≤ 1 := by
    intro j _
    rw [h.waits hall j]
    split <;> omega
  calc s.count = ∑ j, s.arrivals j := h.count_eq
    _ < ∑ _j : ι, 1 := Finset.sum_lt_sum hle ⟨i, Finset.mem_univ i, by omega⟩
    _ = Fintype.card ι := by simp

omit [DecidableEq ι] in
theorem le_count (h : Inv s) (hall : s.AllArrived) : Fintype.card ι ≤ s.count := by
  calc Fintype.card ι = ∑ _j : ι, 1 := by simp
    _ ≤ ∑ j, s.arrivals j := Finset.sum_le_sum fun j _ => hall j
    _ = s.count := h.count_eq.symm

/-! ## The mutex -/

/-- Who is in the mutex, as `Inv` has it. -/
def LockIff (phase : ι → Phase) (lock : Option ι) : Prop :=
  ∀ i, (phase i).holds = true ↔ lock = some i

theorem lockIff_keep (h : Inv s) {i : ι} {p : Phase} (hp : p.holds = (s.phase i).holds) :
    LockIff (Function.update s.phase i p) s.lock := by
  intro j
  by_cases hj : j = i
  · rw [hj, Function.update_self, hp]
    exact h.lock_iff i
  · rw [Function.update_of_ne hj]
    exact h.lock_iff j

theorem lockIff_take (h : Inv s) {i : ι} {p : Phase} (hfree : s.lock = none)
    (hp : p.holds = true) : LockIff (Function.update s.phase i p) (some i) := by
  intro j
  by_cases hj : j = i
  · rw [hj, Function.update_self, hp]
    exact ⟨fun _ => rfl, fun _ => rfl⟩
  · rw [Function.update_of_ne hj, h.lock_iff j, hfree]
    exact ⟨nofun, fun hij => absurd (Option.some.inj hij).symm hj⟩

theorem lockIff_release (h : Inv s) {i : ι} {p : Phase} (hold : (s.phase i).holds = true)
    (hp : p.holds = false) : LockIff (Function.update s.phase i p) none := by
  intro j
  by_cases hj : j = i
  · rw [hj, Function.update_self, hp]
    exact ⟨nofun, nofun⟩
  · rw [Function.update_of_ne hj, h.lock_iff j, (h.lock_iff i).mp hold]
    exact ⟨fun hij => absurd (Option.some.inj hij).symm hj, nofun⟩

/-! ## The steps -/

/-- A party moves, and nothing is counted. Nobody may leave the barrier before all have
arrived, nobody may start to wait after that, and no announcement may be left out while
somebody waits. -/
theorem move (h : Inv s) {i : ι} {p : Phase} {lock : Option ι}
    (hlock : LockIff (Function.update s.phase i p) lock)
    (hinside : ¬ s.AllArrived → p.inside = (s.phase i).inside)
    (hpast : p.past = true → s.AllArrived) (hwait : p = .wait → ¬ s.AllArrived)
    (hannounce : s.phase i = .announce → s.count = Fintype.card ι → ∀ j, s.phase j ≠ .wait) :
    Inv { s.move i p with lock := lock } where
  lock_iff := hlock
  count_eq := h.count_eq
  waits := by
    intro hall j
    show s.arrivals j = if (Function.update s.phase i p j).inside then 1 else 0
    rw [h.waits hall j]
    by_cases hj : j = i
    · rw [hj, Function.update_self, hinside hall]
    · rw [Function.update_of_ne hj]
  all_arrived := by
    intro j hj
    change (Function.update s.phase i p j).past = true at hj
    by_cases hij : j = i
    · rw [hij, Function.update_self] at hj
      exact hpast hj
    · rw [Function.update_of_ne hij] at hj
      exact h.all_arrived j hj
  wakeup := by
    intro hall j hj
    change Function.update s.phase i p j = .wait at hj
    by_cases hij : j = i
    · rw [hij, Function.update_self] at hj
      exact absurd hall (hwait hj)
    · rw [Function.update_of_ne hij] at hj
      obtain ⟨k, hk, hcount⟩ := h.wakeup hall j hj
      have hki : k ≠ i := fun hki => hannounce (hki ▸ hk) hcount j hj
      exact ⟨k, (Function.update_of_ne hki _ _).trans hk, hcount⟩

/-- A party counts itself in. If it is the last, its announcement is still to come. -/
theorem count (h : Inv s) {i : ι} (hi : s.phase i = .arrive) :
    Inv { s.move i .announce with
      count := s.count + 1, arrivals := Function.update s.arrivals i (s.arrivals i + 1) } := by
  let arrivals := Function.update s.arrivals i (s.arrivals i + 1)
  have hsum : s.count + 1 = ∑ j, arrivals j := by
    rw [h.count_eq, Finset.sum_update_of_mem (Finset.mem_univ i),
      ← Finset.add_sum_erase _ _ (Finset.mem_univ i), Finset.sdiff_singleton_eq_erase]
    omega
  have hmono (hall : s.AllArrived) (j : ι) : 0 < arrivals j := by
    by_cases hj : j = i
    · rw [hj, show arrivals i = _ from Function.update_self _ _ _]
      exact Nat.succ_pos _
    · rw [show arrivals j = _ from Function.update_of_ne hj _ _]
      exact hall j
  refine ⟨h.lockIff_keep (by rw [hi]; rfl), hsum, fun hall j => ?_, fun j hj => ?_,
    fun hall j hj => ?_⟩
  · have hwaits := h.waits fun hall' => hall (hmono hall')
    show arrivals j = if (Function.update s.phase i .announce j).inside then 1 else 0
    by_cases hj : j = i
    · have hzero : s.arrivals i = 0 := by
        rw [hwaits i, hi]
        rfl
      rw [hj, Function.update_self, show arrivals i = _ from Function.update_self _ _ _, hzero]
      rfl
    · rw [Function.update_of_ne hj, show arrivals j = _ from Function.update_of_ne hj _ _]
      exact hwaits j
  · change (Function.update s.phase i .announce j).past = true at hj
    by_cases hij : j = i
    · rw [hij, Function.update_self] at hj
      cases hj
    · rw [Function.update_of_ne hij] at hj
      exact hmono (h.all_arrived j hj)
  · change Function.update s.phase i .announce j = .wait at hj
    have hij : j ≠ i := by
      rintro rfl
      rw [Function.update_self] at hj
      cases hj
    rw [Function.update_of_ne hij] at hj
    refine ⟨i, Function.update_self _ _ _, ?_⟩
    by_cases hall' : s.AllArrived
    · -- an announcement that is still to come would be made in the mutex, where `i` is
      obtain ⟨k, hk, -⟩ := h.wakeup hall' j hj
      have hlocki := (h.lock_iff i).mp (by rw [hi]; rfl)
      have hlockk := (h.lock_iff k).mp (by rw [hk]; rfl)
      rw [Option.some.inj (hlocki.symm.trans hlockk), hk] at hi
      cases hi
    · have hlt := h.count_lt hall'
      have hle : Fintype.card ι ≤ s.count + 1 := by
        calc Fintype.card ι = ∑ _j : ι, 1 := by simp
          _ ≤ ∑ j, arrivals j := Finset.sum_le_sum fun j _ => hall j
          _ = s.count + 1 := hsum.symm
      show s.count + 1 = Fintype.card ι
      omega

omit [DecidableEq ι] in
/-- A broadcast leaves nobody waiting. -/
theorem broadcast (h : Inv s) : Inv { s with phase := fun j => (s.phase j).woken } where
  lock_iff := fun j => by
    rw [Phase.holds_woken]
    exact h.lock_iff j
  count_eq := h.count_eq
  waits := fun hall j => by
    rw [Phase.inside_woken]
    exact h.waits hall j
  all_arrived := fun j hj => by
    rw [Phase.past_woken] at hj
    exact h.all_arrived j hj
  wakeup := fun _ j hj => absurd hj (Phase.woken_ne_wait _)

theorem announce (h : Inv s) {i : ι} (hi : s.phase i = .announce) :
    Inv (State.move (if s.count = Fintype.card ι then
      { s with phase := fun j => (s.phase j).woken } else s) i .check) := by
  split
  · have hwoken : (s.phase i).woken = .announce := by rw [hi]; rfl
    refine h.broadcast.move (h.broadcast.lockIff_keep ?_) ?_ nofun nofun
      fun _ _ j => Phase.woken_ne_wait _
    · exact (congrArg Phase.holds hwoken).symm
    · intro _
      exact (congrArg Phase.inside hwoken).symm
  · rename_i hne
    refine h.move (h.lockIff_keep ?_) ?_ nofun nofun fun _ heq => absurd heq hne
    · rw [hi]
      rfl
    · intro _
      rw [hi]
      rfl

theorem step {s' : State ι} (h : Inv s) (hstep : Step s s') : Inv s' := by
  cases hstep with
  | stay => exact h
  | borrow i hi hfree =>
    exact h.move (h.lockIff_take hfree rfl) (fun _ => by rw [hi]; rfl) nofun nofun
      (by rw [hi]; nofun)
  | giveBack i hi =>
    exact h.move (h.lockIff_release (by rw [hi]; rfl) rfl) (fun _ => by rw [hi]; rfl) nofun nofun
      (by rw [hi]; nofun)
  | enter i hi hfree =>
    exact h.move (h.lockIff_take hfree rfl) (fun _ => by rw [hi]; rfl) nofun nofun
      (by rw [hi]; nofun)
  | count i hi => exact h.count hi
  | announce i hi => exact h.announce hi
  | wait i hi hlt =>
    refine h.move (h.lockIff_release (by rw [hi]; rfl) rfl) (fun _ => by rw [hi]; rfl) nofun ?_
      (by rw [hi]; nofun)
    exact fun _ hall => absurd (h.le_count hall) (Nat.not_le.mpr hlt)
  | pass i hi hle =>
    have hall : s.AllArrived := by
      by_contra hall
      exact absurd (h.count_lt hall) (Nat.not_lt.mpr hle)
    exact h.move (h.lockIff_keep (by rw [hi]; rfl)) (fun hnot => absurd hall hnot) (fun _ => hall)
      nofun (by rw [hi]; nofun)
  | leave i hi =>
    have hall := h.all_arrived i (by rw [hi]; rfl)
    exact h.move (h.lockIff_release (by rw [hi]; rfl) rfl) (fun hnot => absurd hall hnot)
      (fun _ => hall) nofun (by rw [hi]; nofun)
  | goOn i hi =>
    exact h.move (h.lockIff_keep (by rw [hi]; rfl)) (fun _ => by rw [hi]; rfl) nofun nofun
      (by rw [hi]; nofun)
  | wakeUp i hi =>
    exact h.move (h.lockIff_keep (by rw [hi]; rfl)) (fun _ => by rw [hi]; rfl) nofun nofun
      (by rw [hi]; nofun)
  | relock i hi hfree =>
    exact h.move (h.lockIff_take hfree rfl) (fun _ => by rw [hi]; rfl) nofun nofun
      (by rw [hi]; nofun)

end Inv

/-- Nobody is there yet. -/
def start (ι : Type*) : State ι where
  count := 0
  lock := none
  phase := fun _ => .away
  arrivals := fun _ => 0

omit [DecidableEq ι] in
theorem inv_start : Inv (start ι) where
  lock_iff := fun _ => ⟨nofun, nofun⟩
  count_eq := by simp [start]
  waits := fun _ _ => rfl
  all_arrived := nofun
  wakeup := nofun

end Barrier

end Barrier
