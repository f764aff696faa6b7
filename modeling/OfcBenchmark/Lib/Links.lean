import Mathlib.Data.List.Nodup
import Mathlib.Tactic

/-!
# Linked lists

Nodes with a link to another node, or to none, where the memory is a function.

* `Visits link p l`: following `link` from `p` visits the nodes `l`, one after the other, and ends.
  They are determined (`Visits.unique`) and different (`Visits.nodup`), and only their own links
  matter (`Visits.congr`);
* `Linked back next first last l`: two links in opposite directions. One is the inverse of the
  other (`Linked.back_eq_iff`), and a node can be appended (`Linked.concat`).
-/

namespace Links

variable {α : Type*}

/-! ## One link -/

/-- Following `link` from `p` visits these nodes and ends. -/
def Visits (link : α → Option α) : Option α → List α → Prop
  | p, [] => p = none
  | p, a :: l => p = some a ∧ Visits link (link a) l

namespace Visits

variable {link link' : α → Option α} {p : Option α} {l l' : List α}

theorem unique (h : Visits link p l) (h' : Visits link p l') : l = l' := by
  induction l generalizing p l' with
  | nil =>
    cases h
    cases l' with
    | nil => rfl
    | cons a l' => cases h'.1
  | cons a l ih =>
    obtain ⟨rfl, hrest⟩ := h
    cases l' with
    | nil => cases h'
    | cons b l' =>
      obtain ⟨heq, hrest'⟩ := h'
      cases heq
      rw [ih hrest hrest']

/-- From a node on. -/
theorem of_append {a : α} {s t : List α} (h : Visits link p (s ++ a :: t)) :
    Visits link (some a) (a :: t) := by
  induction s generalizing p with
  | nil => exact h.1 ▸ h
  | cons b s ih => exact ih h.2

/-- No node is visited twice: what follows it would go on for ever. -/
theorem nodup (h : Visits link p l) : l.Nodup := by
  induction l generalizing p with
  | nil => exact List.nodup_nil
  | cons a l ih =>
    obtain ⟨rfl, hrest⟩ := h
    refine List.nodup_cons.mpr ⟨fun hmem => ?_, ih hrest⟩
    obtain ⟨s, t, rfl⟩ := List.append_of_mem hmem
    have hlonger : a :: t = a :: (s ++ a :: t) := (of_append hrest).unique ⟨rfl, hrest⟩
    have hlength := congrArg List.length hlonger
    simp only [List.length_cons, List.length_append] at hlength
    omega

theorem congr (h : Visits link p l) (hlinks : ∀ a ∈ l, link' a = link a) : Visits link' p l := by
  induction l generalizing p with
  | nil => exact h
  | cons a l ih =>
    obtain ⟨ha, hlinks⟩ := List.forall_mem_cons.mp hlinks
    exact ⟨h.1, ha.symm ▸ ih h.2 hlinks⟩

theorem head?_eq (h : Visits link p l) : l.head? = p := by
  cases l with
  | nil => exact h.symm
  | cons a l => exact h.1.symm

/-- A node that the last one is made to link to. -/
theorem concat {b : α} (h : Visits link p l)
    (hlinks : ∀ a ∈ l, l.getLast? ≠ some a → link' a = link a)
    (hlast : ∀ a, l.getLast? = some a → link' a = some b) (hend : link' b = none) :
    Visits link' (p.or (some b)) (l ++ [b]) := by
  induction l generalizing p with
  | nil =>
    cases h
    exact ⟨rfl, hend⟩
  | cons a l ih =>
    have hnodup := h.nodup
    obtain ⟨rfl, hrest⟩ := h
    refine ⟨rfl, ?_⟩
    cases l with
    | nil =>
      rw [hlast a rfl]
      exact ⟨rfl, hend⟩
    | cons c l =>
      have hgetLast : (a :: c :: l).getLast? = (c :: l).getLast? := List.getLast?_cons_cons
      rw [hgetLast] at hlinks hlast
      obtain ⟨ha, hlinks⟩ := List.forall_mem_cons.mp hlinks
      have hne : (c :: l).getLast? ≠ some a := fun heq =>
        (List.nodup_cons.mp hnodup).1 (List.mem_of_getLast? heq)
      have hor : (link a).or (some b) = link a := by
        rw [hrest.1]
        rfl
      rw [ha hne, ← hor]
      exact ih hrest hlinks hlast

end Visits

/-! ## Two links -/

/-- Following `back` from `first` visits these nodes, and following `next` from `last` visits them
in the opposite order. -/
structure Linked (back next : α → Option α) (first last : Option α) (l : List α) : Prop where
  back : Visits back first l
  next : Visits next last l.reverse

namespace Linked

variable {back next back' next' : α → Option α} {first last : Option α} {l : List α} {a b : α}

theorem nil : Linked back next none none [] := ⟨rfl, rfl⟩

theorem symm (h : Linked back next first last l) : Linked next back last first l.reverse :=
  ⟨h.next, by rw [List.reverse_reverse]; exact h.back⟩

theorem first_eq (h : Linked back next first last l) : l.head? = first := h.back.head?_eq

theorem last_eq (h : Linked back next first last l) : l.getLast? = last := by
  rw [← List.head?_reverse]
  exact h.next.head?_eq

theorem congr (h : Linked back next first last l) (hback : ∀ a ∈ l, back' a = back a)
    (hnext : ∀ a ∈ l, next' a = next a) : Linked back' next' first last l :=
  ⟨h.back.congr hback, h.next.congr fun a ha => hnext a (List.mem_reverse.mp ha)⟩

theorem next_of_back (h : Linked back next first last l) (ha : a ∈ l) (hab : back a = some b) :
    next b = some a := by
  obtain ⟨s, t, rfl⟩ := List.append_of_mem ha
  have hrest : Visits back (back a) t := h.back.of_append.2
  rw [hab] at hrest
  cases t with
  | nil => cases hrest
  | cons c t =>
    cases hrest.1
    have hnext := h.next
    rw [List.reverse_append, List.reverse_cons, List.reverse_cons, List.append_assoc,
      List.append_assoc] at hnext
    exact hnext.of_append.2.1

/-- `next` is the inverse of `back`. -/
theorem back_eq_iff (h : Linked back next first last l) (ha : a ∈ l) (hb : b ∈ l) :
    back a = some b ↔ next b = some a :=
  ⟨h.next_of_back ha, h.symm.next_of_back (List.mem_reverse.mpr hb)⟩

/-- It ends at the first node. -/
theorem next_first (h : Linked back next first last l) (ha : l.head? = some a) : next a = none := by
  obtain ⟨l, rfl⟩ := List.head?_eq_some_iff.mp ha
  have hnext := h.next
  rw [List.reverse_cons] at hnext
  exact hnext.of_append.2

/-- A node behind the last one, where the links of no other node change. -/
theorem concat (h : Linked back next first last l)
    (hback : ∀ a ∈ l, last ≠ some a → back' a = back a) (hnext : ∀ a ∈ l, next' a = next a)
    (hlast : ∀ a, last = some a → back' a = some b) (hend : back' b = none)
    (hlink : next' b = last) : Linked back' next' (first.or (some b)) (some b) (l ++ [b]) := by
  have hgetLast := h.last_eq
  refine ⟨h.back.concat ?_ ?_ hend, ?_⟩
  · rw [hgetLast]
    exact hback
  · rw [hgetLast]
    exact hlast
  · rw [List.reverse_append]
    refine ⟨rfl, ?_⟩
    rw [hlink]
    exact h.next.congr fun a ha => hnext a (List.mem_reverse.mp ha)

end Linked

end Links
