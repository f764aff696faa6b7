import Mathlib.Tactic

/-!
# Length-delimited framing of a stream

A stream is a concatenation of messages, and `size xs` says how long the message at the
front of `xs` is, or `none` while too little of it has arrived to tell.

* `deframe`: cut complete messages off the front until none is left;
* `Stalls`: the inputs on which that cutting never ends, because it comes to a message
  that announces no length at all (`deframe_eq_none_of_stalls`, `exists_deframe`);
* `IsFrame`: a whole message, and `arrived ms n`, the messages of `ms` that lie wholly in
  the first `n` elements of the stream, which is what `deframe` finds there
  (`deframe_of_frames`) however the elements came in (`arrived_of_le`).
-/

namespace Framing

variable {α : Type*} {size : List α → Option ℕ}

/-! ## Cutting off complete messages -/

/-- Cut complete messages off the front of the input, at most `fuel - 1` of them. The
result is the messages, in order, and what is left. -/
def deframe (size : List α → Option ℕ) : ℕ → List α → Option (List (List α) × List α)
  | 0, _ => none
  | fuel + 1, xs =>
    match size xs with
    | none => some ([], xs)
    | some k =>
      if xs.length < k then some ([], xs)
      else (deframe size fuel (xs.drop k)).map fun r => (xs.take k :: r.1, r.2)

/-- The front of the input leads to a message of length zero. -/
inductive Stalls (size : List α → Option ℕ) : List α → Prop
  | zero {xs : List α} : size xs = some 0 → Stalls size xs
  | next {xs : List α} {k : ℕ} :
      size xs = some k → k ≤ xs.length → Stalls size (xs.drop k) → Stalls size xs

theorem deframe_none {xs : List α} (h : size xs = none) (fuel : ℕ) :
    deframe size (fuel + 1) xs = some ([], xs) := by
  simp only [deframe, h]

theorem deframe_short {xs : List α} {k : ℕ} (h : size xs = some k) (hlt : xs.length < k)
    (fuel : ℕ) : deframe size (fuel + 1) xs = some ([], xs) := by
  simp only [deframe, h, if_pos hlt]

theorem deframe_cons {xs : List α} {k : ℕ} (h : size xs = some k) (hle : k ≤ xs.length)
    (fuel : ℕ) :
    deframe size (fuel + 1) xs
      = (deframe size fuel (xs.drop k)).map fun r => (xs.take k :: r.1, r.2) := by
  simp only [deframe, h, if_neg (Nat.not_lt.mpr hle)]

/-- A stalled input is cut forever. -/
theorem deframe_eq_none_of_stalls {xs : List α} (h : Stalls size xs) :
    ∀ fuel, deframe size fuel xs = none := by
  induction h with
  | @zero xs h0 =>
    intro fuel
    induction fuel with
    | zero => rfl
    | succ fuel ih => rw [deframe_cons h0 (Nat.zero_le _), List.drop_zero, ih, Option.map_none]
  | next hk hle _ ih =>
    intro fuel
    cases fuel with
    | zero => rfl
    | succ fuel => rw [deframe_cons hk hle, ih, Option.map_none]

/-- Any other input is cut up within its length: every message takes something off it. -/
theorem exists_deframe {xs : List α} {fuel : ℕ} (h : ¬ Stalls size xs)
    (hfuel : xs.length < fuel) : ∃ r, deframe size fuel xs = some r := by
  induction fuel generalizing xs with
  | zero => omega
  | succ fuel ih =>
    cases hk : size xs with
    | none => exact ⟨_, deframe_none hk fuel⟩
    | some k =>
      by_cases hlt : xs.length < k
      · exact ⟨_, deframe_short hk hlt fuel⟩
      have hle : k ≤ xs.length := Nat.not_lt.mp hlt
      have hpos : k ≠ 0 := by
        rintro rfl
        exact h (Stalls.zero hk)
      have hdrop : (xs.drop k).length < fuel := by
        rw [List.length_drop]
        omega
      obtain ⟨r, hr⟩ := ih (fun hs => h (Stalls.next hk hle hs)) hdrop
      exact ⟨_, by rw [deframe_cons hk hle, hr, Option.map_some]⟩

/-- Nothing is lost or reordered, and what is left holds no complete message. -/
theorem deframe_spec {fuel : ℕ} {xs : List α} {ms : List (List α)} {rest : List α}
    (h : deframe size fuel xs = some (ms, rest)) :
    ms.flatten ++ rest = xs ∧ ∀ k, size rest = some k → rest.length < k := by
  induction fuel generalizing xs ms with
  | zero => cases h
  | succ fuel ih =>
    cases hk : size xs with
    | none =>
      rw [deframe_none hk] at h
      cases h
      exact ⟨rfl, fun k hk' => by rw [hk] at hk'; cases hk'⟩
    | some k =>
      by_cases hlt : xs.length < k
      · rw [deframe_short hk hlt] at h
        cases h
        exact ⟨rfl, fun k' hk' => by rw [hk] at hk'; cases hk'; exact hlt⟩
      rw [deframe_cons hk (Nat.not_lt.mp hlt)] at h
      obtain ⟨⟨ms', rest'⟩, hr, heq⟩ := Option.map_eq_some_iff.mp h
      cases heq
      obtain ⟨hflat, hrest⟩ := ih hr
      refine ⟨?_, hrest⟩
      rw [List.flatten_cons, List.append_assoc, hflat, List.take_append_drop]

/-! ## Whole messages -/

/-- `m` is one message: it announces its own length as soon as enough of it has arrived
to tell, and never another length. -/
structure IsFrame (size : List α → Option ℕ) (m : List α) : Prop where
  ne_nil : m ≠ []
  size_append : ∀ ys, size (m ++ ys) = some m.length
  size_part : ∀ xs, xs <+: m → size xs = none ∨ size xs = some m.length

/-- The messages of the stream that lie wholly in its first `n` elements. -/
def arrived : List (List α) → ℕ → List (List α)
  | [], _ => []
  | m :: ms, n => if m.length ≤ n then m :: arrived ms (n - m.length) else []

theorem arrived_cons_of_le {m : List α} {n : ℕ} (h : m.length ≤ n) (ms : List (List α)) :
    arrived (m :: ms) n = m :: arrived ms (n - m.length) := if_pos h

theorem arrived_cons_of_lt {m : List α} {n : ℕ} (h : n < m.length) (ms : List (List α)) :
    arrived (m :: ms) n = [] := if_neg (Nat.not_le.mpr h)

/-- They come first, in order. -/
theorem arrived_initial (ms : List (List α)) (n : ℕ) : arrived ms n <+: ms := by
  induction ms generalizing n with
  | nil => exact List.prefix_rfl
  | cons m ms ih =>
    rw [arrived]
    split
    · exact List.cons_prefix_cons.mpr ⟨rfl, ih _⟩
    · exact List.nil_prefix

/-- They fit in the `n` elements. -/
theorem length_flatten_arrived_le (ms : List (List α)) (n : ℕ) :
    (arrived ms n).flatten.length ≤ n := by
  induction ms generalizing n with
  | nil => exact Nat.zero_le n
  | cons m ms ih =>
    rw [arrived]
    split
    · rename_i h
      have := ih (n - m.length)
      rw [List.flatten_cons, List.length_append]
      omega
    · exact Nat.zero_le n

/-- The messages that have not arrived, after those that have. -/
def pending (ms : List (List α)) (n : ℕ) : List (List α) := ms.drop (arrived ms n).length

theorem arrived_append_pending (ms : List (List α)) (n : ℕ) :
    arrived ms n ++ pending ms n = ms := by
  have h := List.prefix_iff_eq_take.mp (arrived_initial ms n)
  conv_lhs => rw [h]
  rw [pending]
  exact List.take_append_drop _ ms

theorem pending_cons_of_le {m : List α} {n : ℕ} (h : m.length ≤ n) (ms : List (List α)) :
    pending (m :: ms) n = pending ms (n - m.length) := by
  rw [pending, pending, arrived_cons_of_le h, List.length_cons, List.drop_succ_cons]

/-- The first message that has not arrived sticks out of the `n` elements. -/
theorem lt_of_pending_cons {ms : List (List α)} {n : ℕ} {m : List α} {ms' : List (List α)}
    (h : pending ms n = m :: ms') : n < (arrived ms n).flatten.length + m.length := by
  induction ms generalizing n with
  | nil => cases h
  | cons a ms ih =>
    by_cases ha : a.length ≤ n
    · rw [pending_cons_of_le ha] at h
      have := ih h
      rw [arrived_cons_of_le ha, List.flatten_cons, List.length_append]
      omega
    · rw [pending, arrived_cons_of_lt (Nat.not_le.mp ha), List.length_nil, List.drop_zero] at h
      cases h
      rw [arrived_cons_of_lt (Nat.not_le.mp ha), List.flatten_nil, List.length_nil]
      omega

/-- When the whole stream is there, so are all its messages. -/
theorem arrived_eq_self {ms : List (List α)} {n : ℕ} (h : ms.flatten.length ≤ n) :
    arrived ms n = ms := by
  induction ms generalizing n with
  | nil => rfl
  | cons m ms ih =>
    rw [List.flatten_cons, List.length_append] at h
    rw [arrived_cons_of_le (by omega), ih (by omega)]

/-- What arrives later comes after what has arrived already. -/
theorem arrived_of_le (ms : List (List α)) {n n' : ℕ} (h : n ≤ n') :
    arrived ms n'
      = arrived ms n ++ arrived (pending ms n) (n' - (arrived ms n).flatten.length) := by
  induction ms generalizing n n' with
  | nil => rfl
  | cons m ms ih =>
    by_cases hm : m.length ≤ n
    · rw [pending_cons_of_le hm, arrived_cons_of_le hm, arrived_cons_of_le (hm.trans h),
        ih (Nat.sub_le_sub_right h m.length), List.cons_append, List.flatten_cons,
        List.length_append, Nat.sub_sub]
    · rw [pending, arrived_cons_of_lt (Nat.not_le.mp hm)]
      simp

/-- The count can start anew after the messages that have arrived. -/
theorem arrived_length_add (ms : List (List α)) {n n' : ℕ}
    (h : n ≤ (arrived ms n).flatten.length + n') :
    arrived ms ((arrived ms n).flatten.length + n')
      = arrived ms n ++ arrived (pending ms n) n' := by
  rw [arrived_of_le ms h, Nat.add_sub_cancel_left]

theorem pending_length_add (ms : List (List α)) {n n' : ℕ}
    (h : n ≤ (arrived ms n).flatten.length + n') :
    pending ms ((arrived ms n).flatten.length + n') = pending (pending ms n) n' := by
  rw [pending, arrived_length_add ms h, List.length_append, ← List.drop_drop]
  rfl

/-- Without the messages that have arrived, the stream goes on with those that have not. -/
theorem drop_flatten_arrived {ms : List (List α)} {xs rest : List α} {n : ℕ}
    (hn : n ≤ xs.length) (hxs : xs ++ rest = ms.flatten) :
    xs.drop (arrived ms n).flatten.length ++ rest = (pending ms n).flatten := by
  have hflat : (arrived ms n).flatten ++ (pending ms n).flatten = xs ++ rest := by
    rw [← List.flatten_append, arrived_append_pending, hxs]
  have hle := length_flatten_arrived_le ms n
  have hdrop := congrArg (List.drop (arrived ms n).flatten.length) hflat
  rw [List.drop_left, List.drop_append_of_le_length (hle.trans hn)] at hdrop
  exact hdrop.symm

/-- None of these is in what is left of the `n` elements. -/
theorem arrived_pending (ms : List (List α)) (n : ℕ) :
    arrived (pending ms n) (n - (arrived ms n).flatten.length) = [] := by
  rcases hp : pending ms n with - | ⟨m, ms'⟩
  · rfl
  · have hlt := lt_of_pending_cons hp
    have hle := length_flatten_arrived_le ms n
    exact arrived_cons_of_lt (by omega) ms'

/-- Part of a stream of whole messages is cut into the messages that have arrived. -/
theorem deframe_of_frames (hnil : size [] = none) {ms : List (List α)} {xs rest : List α}
    {fuel : ℕ} (hms : ∀ m ∈ ms, IsFrame size m) (hxs : xs ++ rest = ms.flatten)
    (hfuel : xs.length < fuel) :
    deframe size fuel xs
      = some (arrived ms xs.length, xs.drop (arrived ms xs.length).flatten.length) := by
  induction ms generalizing xs fuel with
  | nil =>
    obtain ⟨fuel, rfl⟩ : ∃ f, fuel = f + 1 := ⟨fuel - 1, by omega⟩
    obtain ⟨rfl, -⟩ := List.append_eq_nil_iff.mp hxs
    exact deframe_none hnil fuel
  | cons m ms ih =>
    obtain ⟨fuel, rfl⟩ : ∃ f, fuel = f + 1 := ⟨fuel - 1, by omega⟩
    have hm := hms m List.mem_cons_self
    rw [List.flatten_cons] at hxs
    by_cases hle : m.length ≤ xs.length
    · -- the first message is there in full: it is cut off and the rest is a shorter stream
      obtain ⟨ys, rfl⟩ : ∃ ys, xs = m ++ ys :=
        (List.prefix_of_prefix_length_le (List.prefix_append m ms.flatten)
          ⟨rest, hxs⟩ hle).imp fun ys h => h.symm
      have hys : ys ++ rest = ms.flatten := by
        rw [List.append_assoc] at hxs
        exact List.append_cancel_left hxs
      have hpos : 0 < m.length := List.length_pos_of_ne_nil hm.ne_nil
      have hlen : (m ++ ys).length - m.length = ys.length := by
        rw [List.length_append, Nat.add_sub_cancel_left]
      rw [List.length_append] at hfuel
      rw [deframe_cons (hm.size_append ys) hle, List.drop_left, List.take_left,
        ih (fun a ha => hms a (List.mem_cons_of_mem _ ha)) hys (by omega), Option.map_some,
        arrived_cons_of_le hle, hlen, List.flatten_cons, List.length_append,
        List.drop_length_add_append]
    · -- only part of it: its length is unknown, or more than what is there
      have hpre : xs <+: m :=
        List.prefix_of_prefix_length_le ⟨rest, hxs⟩ (List.prefix_append m ms.flatten)
          (Nat.le_of_not_le hle)
      rw [arrived_cons_of_lt (Nat.not_le.mp hle), List.flatten_nil, List.length_nil,
        List.drop_zero]
      rcases hm.size_part xs hpre with h | h
      · exact deframe_none h fuel
      · exact deframe_short h (Nat.not_le.mp hle) fuel

/-- A stream of whole messages is cut into these messages, and nothing is left. -/
theorem deframe_flatten (hnil : size [] = none) {ms : List (List α)}
    (hms : ∀ m ∈ ms, IsFrame size m) :
    deframe size (ms.flatten.length + 1) ms.flatten = some (ms, []) := by
  have h := deframe_of_frames hnil hms (List.append_nil ms.flatten) (Nat.lt_succ_self _)
  rwa [arrived_eq_self le_rfl, List.drop_length] at h

end Framing
