import Mathlib.Tactic

/-!
# Runs of a transition system

A system is a relation `step s e s'`: the event `e` leads from the state `s` to `s'`.

* `Run step s history s'`: a run, with the transitions it took;
* `follow`: the run that given events make, where the step is a function;
* `Run.invariant`: what every step preserves holds all along a run;
* `Run.invariant_history`: the same for a property of the state and the run up to it;
* `exists_of_getElem?_flatMap`: what the steps of a run produce, found in the step it is from;
* `Run.exists_of_rank`: where there is always a step that brings the end nearer, a run gets there;
* `Run.map`: a map of states that takes steps to steps takes runs to runs;
* `total w history`: how much of something, counted by `w` for each transition, a run adds
  up to;
* `Run.balance`: amortized counting. If in every step what is paid out and the new balance
  are covered by what comes in and the old balance, the same holds of the whole run.
-/

namespace Runs

/-- A step that was taken. -/
structure Transition (σ ε : Type*) where
  pre : σ
  event : ε
  post : σ

variable {σ ε : Type*} {step : σ → ε → σ → Prop}

/-- The transitions of `history` lead, in this order, from one state to the other. -/
inductive Run (step : σ → ε → σ → Prop) : σ → List (Transition σ ε) → σ → Prop
  | nil (s : σ) : Run step s [] s
  | cons {s s₁ s' : σ} {e : ε} {history : List (Transition σ ε)} :
      step s e s₁ → Run step s₁ history s' → Run step s (⟨s, e, s₁⟩ :: history) s'

/-- Carry the events out one after the other, with a step that can fail. -/
def follow {χ : Type*} (f : ε → σ → Except χ σ) :
    List ε → σ → Except χ (List (Transition σ ε) × σ)
  | [], s => .ok ([], s)
  | e :: es, s =>
    match f e s with
    | .error h => .error h
    | .ok s₁ => (follow f es s₁).map fun r => (⟨s, e, s₁⟩ :: r.1, r.2)

/-- The same with a step that is a partial function. -/
def followSome (f : ε → σ → Option σ) (es : List ε) (s : σ) :
    Option (List (Transition σ ε) × σ) :=
  (follow (fun e s => (f e s).elim (.error ()) .ok) es s).toOption

namespace Run

variable {s s₁ s' : σ} {history history' : List (Transition σ ε)}

/-- A run of one step. -/
theorem single {e : ε} (h : step s e s') : Run step s [⟨s, e, s'⟩] s' := .cons h (.nil s')

/-- Runs compose. -/
theorem append (h : Run step s history s₁) (h' : Run step s₁ history' s') :
    Run step s (history ++ history') s' := by
  induction h with
  | nil s => exact h'
  | cons hstep _ ih => exact .cons hstep (ih h')

/-- A run can be cut in two anywhere. -/
theorem of_append (h : Run step s (history ++ history') s') :
    ∃ s₁, Run step s history s₁ ∧ Run step s₁ history' s' := by
  induction history generalizing s with
  | nil => exact ⟨s, .nil s, h⟩
  | cons t history ih =>
    cases h with
    | cons hfirst hrest =>
      obtain ⟨s₁, hrun, hrun'⟩ := ih hrest
      exact ⟨s₁, .cons hfirst hrun, hrun'⟩

/-- Events that can be carried out make a run. -/
theorem of_follow {χ : Type*} {f : ε → σ → Except χ σ} {es : List ε}
    (h : follow f es s = .ok (history, s')) :
    Run (fun s e s' => f e s = .ok s') s history s' := by
  induction es generalizing s history with
  | nil =>
    cases h
    exact .nil _
  | cons e es ih =>
    rw [follow] at h
    split at h
    · cases h
    · rename_i s₁ hfirst
      rcases hrest : follow f es s₁ with err | ⟨rest, s₂⟩
      · rw [hrest] at h
        cases h
      · rw [hrest] at h
        cases h
        exact .cons hfirst (ih hrest)

/-- A run of one system is a run of another that can do the same steps. -/
theorem mono {step' : σ → ε → σ → Prop} (hstep : ∀ s e s', step s e s' → step' s e s')
    (h : Run step s history s') : Run step' s history s' := by
  induction h with
  | nil s => exact .nil s
  | cons hfirst _ ih => exact .cons (hstep _ _ _ hfirst) ih

theorem of_followSome {f : ε → σ → Option σ} {es : List ε}
    (h : followSome f es s = some (history, s')) :
    Run (fun s e s' => f e s = some s') s history s' := by
  have hfollow : follow (fun e s => (f e s).elim (.error ()) Except.ok) es s
      = .ok (history, s') := by
    unfold followSome at h
    cases hr : follow (fun e s => (f e s).elim (.error ()) Except.ok) es s with
    | error =>
      rw [hr] at h
      cases h
    | ok r =>
      rw [hr] at h
      exact congrArg Except.ok (Option.some.inj h)
  apply (of_follow hfollow).mono
  intro s e s' hstep
  cases hf : f e s with
  | none =>
    rw [hf] at hstep
    cases hstep
  | some s₁ =>
    rw [hf] at hstep
    exact congrArg some (Except.ok.inj hstep)

/-- The events of the run are the ones that were given. -/
theorem events_of_follow {χ : Type*} {f : ε → σ → Except χ σ} {es : List ε}
    (h : follow f es s = .ok (history, s')) : history.map Transition.event = es := by
  induction es generalizing s history with
  | nil =>
    cases h
    rfl
  | cons e es ih =>
    rw [follow] at h
    split at h
    · cases h
    · rename_i s₁ hfirst
      rcases hrest : follow f es s₁ with err | ⟨rest, s₂⟩
      · rw [hrest] at h
        cases h
      · rw [hrest] at h
        cases h
        rw [List.map_cons, ih hrest]

theorem events_of_followSome {f : ε → σ → Option σ} {es : List ε}
    (h : followSome f es s = some (history, s')) : history.map Transition.event = es := by
  unfold followSome at h
  cases hr : follow (fun e s => (f e s).elim (.error ()) Except.ok) es s with
  | error =>
    rw [hr] at h
    cases h
  | ok r =>
    rw [hr] at h
    cases h
    exact events_of_follow hr

/-- Where the events can be carried out, there is a run with them. -/
theorem exists_of_followSome {f : ε → σ → Option σ} {es : List ε}
    (h : (followSome f es s).isSome = true) :
    ∃ history s', Run (fun s e s' => f e s = some s') s history s' ∧
      history.map Transition.event = es := by
  obtain ⟨⟨history, s'⟩, hfollow⟩ := Option.isSome_iff_exists.mp h
  exact ⟨history, s', of_followSome hfollow, events_of_followSome hfollow⟩

/-- A run whose transitions have a property is a run of the steps that have it. -/
theorem restrict {Ok : Transition σ ε → Prop} (h : Run step s history s')
    (hok : ∀ t ∈ history, Ok t) :
    Run (fun s e s' => Ok ⟨s, e, s'⟩ ∧ step s e s') s history s' := by
  induction h with
  | nil s => exact .nil s
  | cons hfirst _ ih =>
    obtain ⟨hok₁, hrest⟩ := List.forall_mem_cons.mp hok
    exact .cons ⟨hok₁, hfirst⟩ (ih hrest)

/-- The transitions of a run are steps. -/
theorem step_of_mem {t : Transition σ ε} (h : Run step s history s') (ht : t ∈ history) :
    step t.pre t.event t.post := by
  induction h with
  | nil s => exact absurd ht List.not_mem_nil
  | cons hfirst _ ih =>
    rcases List.mem_cons.mp ht with rfl | ht
    · exact hfirst
    · exact ih ht

/-! ## Invariants -/

/-- What every step preserves holds at the end of a run and around each of its steps. -/
theorem invariant {Inv : σ → Prop} (hstep : ∀ s e s', Inv s → step s e s' → Inv s')
    (hrun : Run step s history s') (hs : Inv s) :
    Inv s' ∧ ∀ t ∈ history, Inv t.pre ∧ Inv t.post := by
  induction hrun with
  | nil s => exact ⟨hs, fun _ ht => absurd ht List.not_mem_nil⟩
  | cons hfirst _ ih =>
    have hnext := hstep _ _ _ hs hfirst
    obtain ⟨hend, hall⟩ := ih hnext
    refine ⟨hend, List.forall_mem_cons.mpr ⟨⟨hs, hnext⟩, hall⟩⟩

/-- What every step preserves, where a property may look back at the run so far, holds at
the end of a run and before each of its steps. -/
theorem invariant_history {Inv : List (Transition σ ε) → σ → Prop}
    (hstep : ∀ past s e s', Inv past s → step s e s' → Inv (past ++ [⟨s, e, s'⟩]) s')
    {past : List (Transition σ ε)} (hrun : Run step s history s') (hs : Inv past s) :
    Inv (past ++ history) s' ∧
      ∀ before t after, history = before ++ t :: after → Inv (past ++ before) t.pre := by
  induction hrun generalizing past with
  | nil s =>
    refine ⟨by rwa [List.append_nil], fun before t after h => ?_⟩
    exact absurd h.symm (List.append_ne_nil_of_right_ne_nil _ (List.cons_ne_nil _ _))
  | cons hfirst _ ih =>
    obtain ⟨hend, hall⟩ := ih (hstep _ _ _ _ hs hfirst)
    rw [List.append_assoc] at hend
    refine ⟨hend, ?_⟩
    intro before t after h
    cases before with
    | nil =>
      obtain ⟨rfl, -⟩ := List.cons.inj h
      rwa [List.append_nil]
    | cons t' before =>
      obtain ⟨rfl, hrest⟩ := List.cons.inj h
      have hpre := hall before t after hrest
      rwa [List.append_assoc] at hpre

/-! ## Progress -/

/-- Where every state but the final ones has a step that lowers the rank, there is a run to a
final state. -/
theorem exists_of_rank {Inv Final : σ → Prop} (rank : σ → ℕ)
    (hstep : ∀ s, Inv s → ¬ Final s → ∃ e s', step s e s' ∧ Inv s' ∧ rank s' < rank s)
    (hs : Inv s) : ∃ history s', Run step s history s' ∧ Inv s' ∧ Final s' := by
  induction h : rank s using Nat.strong_induction_on generalizing s with
  | h r ih =>
    by_cases hfinal : Final s
    · exact ⟨[], s, .nil s, hs, hfinal⟩
    · obtain ⟨e, s₁, hfirst, hs₁, hlt⟩ := hstep s hs hfinal
      obtain ⟨history, s', hrun, hs', hfinal'⟩ := ih (rank s₁) (h ▸ hlt) hs₁ rfl
      exact ⟨⟨s, e, s₁⟩ :: history, s', .cons hfirst hrun, hs', hfinal'⟩

end Run

/-! ## What the steps produce -/

/-- An element of what the steps of a history produce comes from one of them, at its place among
what is produced there. -/
theorem exists_of_getElem?_flatMap {α β : Type*} {f : α → List β} {history : List α} {k : ℕ} {b : β}
    (h : (history.flatMap f)[k]? = some b) :
    ∃ before t after i, history = before ++ t :: after ∧ (f t)[i]? = some b ∧
      k = (before.flatMap f).length + i := by
  induction history generalizing k with
  | nil => exact absurd h (by simp)
  | cons t history ih =>
    rw [List.flatMap_cons] at h
    by_cases hk : k < (f t).length
    · rw [List.getElem?_append_left hk] at h
      exact ⟨[], t, history, k, rfl, h, (Nat.zero_add k).symm⟩
    · rw [List.getElem?_append_right (Nat.not_lt.mp hk)] at h
      obtain ⟨before, t', after, i, rfl, hi, heq⟩ := ih h
      refine ⟨t :: before, t', after, i, rfl, hi, ?_⟩
      rw [List.flatMap_cons, List.length_append]
      omega

/-! ## Maps between systems -/

section Map

variable {τ : Type*}

/-- A transition seen through a map of states. -/
def Transition.map (f : σ → τ) (t : Transition σ ε) : Transition τ ε := ⟨f t.pre, t.event, f t.post⟩

/-- Forward simulation by a function: what a run does is seen through `f` as a run. -/
theorem Run.map {step' : τ → ε → τ → Prop} (f : σ → τ)
    (hstep : ∀ s e s', step s e s' → step' (f s) e (f s')) {s s' : σ}
    {history : List (Transition σ ε)} (h : Run step s history s') :
    Run step' (f s) (history.map (Transition.map f)) (f s') := by
  induction h with
  | nil s => exact .nil (f s)
  | cons hfirst _ ih => exact .cons (hstep _ _ _ hfirst) ih

end Map

/-! ## Totals -/

section Total

variable {M : Type*} [AddCommMonoid M]

/-- The sum of `w` over the transitions of a run. -/
def total (w : Transition σ ε → M) (history : List (Transition σ ε)) : M :=
  (history.map w).sum

@[simp] theorem total_cons (w : Transition σ ε → M) (t : Transition σ ε)
    (history : List (Transition σ ε)) : total w (t :: history) = w t + total w history :=
  List.sum_cons

theorem total_append (w : Transition σ ε → M) (history history' : List (Transition σ ε)) :
    total w (history ++ history') = total w history + total w history' := by
  rw [total, List.map_append, List.sum_append]
  rfl

theorem total_concat (w : Transition σ ε → M) (history : List (Transition σ ε))
    (t : Transition σ ε) : total w (history ++ [t]) = total w history + w t := by
  rw [total_append, total_cons]
  exact congrArg (total w history + ·) (add_zero (w t))

/-- Counting two things at once. -/
theorem total_add (w w' : Transition σ ε → M) (history : List (Transition σ ε)) :
    total (fun t => w t + w' t) history = total w history + total w' history := by
  induction history with
  | nil => exact (add_zero 0).symm
  | cons t history ih =>
    rw [total_cons, total_cons, total_cons, ih]
    exact add_add_add_comm _ _ _ _

/-- Totals of natural numbers, counted in a ring. -/
theorem total_natCast {R : Type*} [NonAssocSemiring R] (w : Transition σ ε → ℕ)
    (history : List (Transition σ ε)) :
    total (fun t => (w t : R)) history = (total w history : ℕ) := by
  induction history with
  | nil => exact Nat.cast_zero.symm
  | cons t history ih => rw [total_cons, total_cons, ih, Nat.cast_add]

end Total

/-! ## Balances -/

/-- Amortized counting, in the steps that start in a state with `Inv`: `paid` is covered by
`received` and what the balance goes down by, step by step and so in all. -/
theorem Run.balance {M : Type*} [AddCommMonoid M] [PartialOrder M] [IsOrderedAddMonoid M]
    {Inv : σ → Prop} (bal : σ → M) (paid received : Transition σ ε → M) {s s' : σ}
    {history : List (Transition σ ε)}
    (hinv : ∀ s e s', Inv s → step s e s' → Inv s')
    (hstep : ∀ s e s', Inv s → step s e s' →
      bal s' + paid ⟨s, e, s'⟩ ≤ bal s + received ⟨s, e, s'⟩)
    (hrun : Run step s history s') (hs : Inv s) :
    bal s' + total paid history ≤ bal s + total received history := by
  induction hrun with
  | nil s => exact le_rfl
  | @cons s s₁ s' e history hfirst _ ih =>
    rw [total_cons, total_cons]
    calc bal s' + (paid ⟨s, e, s₁⟩ + total paid history)
        = (bal s' + total paid history) + paid ⟨s, e, s₁⟩ := by
          rw [add_comm (paid _), add_assoc]
      _ ≤ (bal s₁ + total received history) + paid ⟨s, e, s₁⟩ :=
          add_le_add (ih (hinv _ _ _ hs hfirst)) le_rfl
      _ = (bal s₁ + paid ⟨s, e, s₁⟩) + total received history := add_right_comm _ _ _
      _ ≤ (bal s + received ⟨s, e, s₁⟩) + total received history :=
          add_le_add (hstep _ _ _ hs hfirst) le_rfl
      _ = bal s + (received ⟨s, e, s₁⟩ + total received history) := add_assoc _ _ _

end Runs
