import OfcBenchmark.ReportQueues

/-!
# The queues of a report as lists

Whatever is enqueued, and wherever `malloc` puts it: a queue is a list of its messages linked in
both directions. The one thing that may be wrong is the length, which is set by the first message
only, and is an `int` (`queues_right_iff`).
-/

namespace OfcBenchmark
open Printf Links

/-! ## What the queues are to be -/

/-- What a call puts into a queue: the item, with the delimiter if there is to be one, cut to
`size` characters. -/
def EnqueueCall.stored (c : EnqueueCall) : Text :=
  (if c.delimit then c.item ++ [LIMITER] else c.item).take c.size

/-- The texts of a queue, in the order in which they were enqueued. -/
def textsOf (id : QueueId) (calls : List EnqueueCall) : List Text :=
  (calls.filter fun c => c.id = id).map EnqueueCall.stored

/-- The messages with these texts, at the addresses `l`, are the ones of a queue. -/
structure IsQueue (r : Report) (id : QueueId) (texts : List Text) (l : List Pointer) : Prop where
  /-- following `back` from `first` visits them, and ends at `last` -/
  back : Visits r.back (r.queues id).first l
  last : (r.queues id).last = l.getLast?
  texts_eq : l.map r.text = texts.map some
  /-- `next` is the inverse of `back`, and NULL at `first` -/
  back_eq_iff : ∀ a ∈ l, ∀ b ∈ l, r.back a = some b ↔ r.next b = some a
  next_first : ∀ a, l.head? = some a → r.next a = none

/-- A queue with its messages is as it was. -/
def Unchanged (r r' : Report) (id : QueueId) : Prop :=
  r'.queues id = r.queues id ∧
    ∀ l, Visits r.back (r.queues id).first l → ∀ a ∈ l, r'.heap a = r.heap a

/-- What calls on a report with empty queues lead to. -/
structure QueuesRight (start : Report) (calls : List EnqueueCall) : Prop where
  /-- each queue is the list of its messages, and its length is their number -/
  queues : ∃ r, enqueueMessages calls start = some r ∧ ∀ id,
    (∃ l, IsQueue r id (textsOf id calls) l) ∧ (r.queues id).length = (textsOf id calls).length
  /-- and a call leaves the other queues alone -/
  others : ∀ before c after, calls = before ++ c :: after → ∃ r r',
    enqueueMessages before start = some r ∧ enqueueMessages (before ++ [c]) start = some r' ∧
      ∀ id ≠ c.id, Unchanged r r' id

/-! ## One call -/

/-- What a call does: a message behind the last one of its queue, and nothing else. -/
structure Enqueued (r : Report) (c : EnqueueCall) (r' : Report) : Prop where
  queue : r'.queues c.id = ⟨if (r.queues c.id).last = none then 1
      else toInt ((r.queues c.id).length + 1),
    (r.queues c.id).first.or (some c.temp), some c.temp⟩
  other_queues : ∀ id ≠ c.id, r'.queues id = r.queues id
  temp : r'.heap c.temp = some ⟨c.stored, (r.queues c.id).last, none⟩
  last : ∀ a, (r.queues c.id).last = some a →
    ∃ message, r.heap a = some message ∧ r'.heap a = some { message with back := some c.temp }
  others : ∀ a ≠ c.temp, (r.queues c.id).last ≠ some a → r'.heap a = r.heap a

/-- The queues as lists of texts, with the addresses of their messages. The length is unset at the
start. -/
structure Queued (r : Report) (lengths : QueueId → ℤ) (texts : QueueId → List Text)
    (ls : QueueId → List Pointer) : Prop where
  linked : ∀ id, Linked r.back r.next (r.queues id).first (r.queues id).last (ls id)
  texts_eq : ∀ id, (ls id).map r.text = (texts id).map some
  disjoint : ∀ id id', id ≠ id' → ∀ a ∈ ls id, a ∉ ls id'
  length_eq : ∀ id, (r.queues id).length
    = if texts id = [] then lengths id else toInt (texts id).length

section Step

variable {r r' : Report} {c : EnqueueCall} {lengths : QueueId → ℤ} {texts : QueueId → List Text}
  {ls : QueueId → List Pointer}

namespace Queued

theorem exists_message (h : Queued r lengths texts ls) {id : QueueId} {a : Pointer}
    (ha : a ∈ ls id) : ∃ message, r.heap a = some message := by
  have hmem : r.text a ∈ (ls id).map r.text := List.mem_map_of_mem ha
  rw [h.texts_eq] at hmem
  obtain ⟨text, -, htext⟩ := List.mem_map.mp hmem
  obtain ⟨message, hmessage, -⟩ := Option.map_eq_some_iff.mp htext.symm
  exact ⟨message, hmessage⟩

theorem last_mem (h : Queued r lengths texts ls) {id : QueueId} {a : Pointer}
    (ha : (r.queues id).last = some a) : a ∈ ls id :=
  List.mem_of_getLast? ((h.linked id).last_eq.trans ha)

/-- Memory that `malloc` returns holds no message of a queue. -/
theorem ne_of_fresh (h : Queued r lengths texts ls) (hfresh : r.heap c.temp = none) {id : QueueId}
    {a : Pointer} (ha : a ∈ ls id) : a ≠ c.temp := by
  rintro rfl
  obtain ⟨message, hmessage⟩ := h.exists_message ha
  cases hfresh.symm.trans hmessage

theorem texts_nil_iff (h : Queued r lengths texts ls) (id : QueueId) :
    texts id = [] ↔ (r.queues id).last = none := by
  rw [← (h.linked id).last_eq, List.getLast?_eq_none_iff, ← List.map_eq_nil_iff (f := r.text),
    h.texts_eq, List.map_eq_nil_iff]

/-- A call goes through. -/
theorem exists_enqueued (h : Queued r lengths texts ls) (hfresh : r.heap c.temp = none) :
    ∃ r', r.enqueueMessage c.item c.id c.delimit c.size c.temp = some r' ∧ Enqueued r c r' := by
  unfold Report.enqueueMessage
  dsimp only
  cases hlast : (r.queues c.id).last with
  | none =>
    have hfirst : (r.queues c.id).first = none := by
      rw [← (h.linked c.id).first_eq]
      rw [← (h.linked c.id).last_eq, List.getLast?_eq_none_iff] at hlast
      rw [hlast]
      rfl
    refine ⟨_, rfl, ?_, ?_, ?_, ?_, ?_⟩
    · rw [hlast, if_pos rfl, hfirst]
      exact Function.update_self _ _ _
    · exact fun id hid => Function.update_of_ne hid _ _
    · rw [hlast]
      exact Function.update_self _ _ _
    · intro a ha
      cases hlast.symm.trans ha
    · exact fun a ha _ => Function.update_of_ne ha _ _
  | some last =>
    obtain ⟨message, hmessage⟩ := h.exists_message (h.last_mem hlast)
    have hne : last ≠ c.temp := h.ne_of_fresh hfresh (h.last_mem hlast)
    have hfirst : (r.queues c.id).first.or (some c.temp) = (r.queues c.id).first := by
      rw [← (h.linked c.id).first_eq]
      cases hls : ls c.id with
      | nil =>
        rw [← (h.linked c.id).last_eq, hls] at hlast
        cases hlast
      | cons a l => rfl
    dsimp only
    rw [Function.update_of_ne hne, hmessage, Option.map_some]
    refine ⟨_, rfl, ?_, ?_, ?_, ?_, ?_⟩
    · rw [hlast, if_neg (Option.some_ne_none last), hfirst]
      exact Function.update_self _ _ _
    · exact fun id hid => Function.update_of_ne hid _ _
    · rw [hlast]
      dsimp only
      rw [Function.update_of_ne hne.symm]
      exact Function.update_self _ _ _
    · intro a ha
      cases hlast.symm.trans ha
      exact ⟨message, hmessage, Function.update_self _ _ _⟩
    · intro a ha hnot
      have hother : a ≠ last := fun heq => hnot (hlast.trans (congrArg some heq.symm))
      dsimp only
      rw [Function.update_of_ne hother, Function.update_of_ne ha]

end Queued

/-! ## What it keeps -/

namespace Enqueued

/-- The links and the text of a message that is not the last one of the queue stay. -/
theorem heap_eq (h : Enqueued r c r') (hq : Queued r lengths texts ls)
    (hfresh : r.heap c.temp = none) {id : QueueId} {a : Pointer} (ha : a ∈ ls id)
    (hother : id ≠ c.id ∨ (r.queues c.id).last ≠ some a) : r'.heap a = r.heap a := by
  refine h.others a (hq.ne_of_fresh hfresh ha) fun hlast => ?_
  rcases hother with hid | hne
  · exact hq.disjoint id c.id hid a ha (hq.last_mem hlast)
  · exact hne hlast

/-- `next` and the text of all messages do. -/
theorem next_text_eq (h : Enqueued r c r') (hq : Queued r lengths texts ls)
    (hfresh : r.heap c.temp = none) {id : QueueId} {a : Pointer} (ha : a ∈ ls id) :
    r'.next a = r.next a ∧ r'.text a = r.text a := by
  by_cases hlast : (r.queues c.id).last = some a
  · obtain ⟨message, hmessage, hmessage'⟩ := h.last a hlast
    rw [Report.next, Report.next, Report.text, Report.text, hmessage, hmessage']
    exact ⟨rfl, rfl⟩
  · have heq := h.heap_eq hq hfresh ha (.inr hlast)
    rw [Report.next, Report.next, Report.text, Report.text, heq]
    exact ⟨rfl, rfl⟩

theorem linked (h : Enqueued r c r') (hq : Queued r lengths texts ls)
    (hfresh : r.heap c.temp = none) : Linked r'.back r'.next (r'.queues c.id).first
      (r'.queues c.id).last (ls c.id ++ [c.temp]) := by
  rw [h.queue]
  refine (hq.linked c.id).concat ?_ ?_ ?_ ?_ ?_
  · intro a ha hlast
    rw [Report.back, Report.back, h.heap_eq hq hfresh ha (.inr hlast)]
  · exact fun a ha => (h.next_text_eq hq hfresh ha).1
  · intro a ha
    obtain ⟨message, -, hmessage'⟩ := h.last a ha
    rw [Report.back, hmessage']
    rfl
  · rw [Report.back, h.temp]
    rfl
  · rw [Report.next, h.temp]
    rfl

theorem unchanged (h : Enqueued r c r') (hq : Queued r lengths texts ls)
    (hfresh : r.heap c.temp = none) {id : QueueId} (hid : id ≠ c.id) : Unchanged r r' id := by
  refine ⟨h.other_queues id hid, fun l hl a ha => ?_⟩
  rw [hl.unique (hq.linked id).back] at ha
  exact h.heap_eq hq hfresh ha (.inl hid)

/-- The length counts on from what it was set to by the first message. -/
theorem length_eq (h : Enqueued r c r') (hq : Queued r lengths texts ls) :
    (r'.queues c.id).length = toInt (texts c.id ++ [c.stored]).length := by
  rw [h.queue]
  dsimp only
  rw [List.length_append, List.length_singleton, Nat.cast_add, Nat.cast_one]
  split
  case isTrue hnone =>
    rw [(hq.texts_nil_iff c.id).mpr hnone]
    rfl
  case isFalse hsome =>
    rw [hq.length_eq, if_neg (mt (hq.texts_nil_iff c.id).mp hsome), toInt_toInt_add]

/-- The queues after a call. -/
theorem queued (h : Enqueued r c r') (hq : Queued r lengths texts ls)
    (hfresh : r.heap c.temp = none) :
    Queued r' lengths (Function.update texts c.id (texts c.id ++ [c.stored]))
      (Function.update ls c.id (ls c.id ++ [c.temp])) := by
  refine ⟨fun id => ?_, fun id => ?_, fun id id' hne a ha => ?_, fun id => ?_⟩
  · by_cases hid : id = c.id
    · subst hid
      rw [Function.update_self]
      exact h.linked hq hfresh
    · rw [Function.update_of_ne hid, h.other_queues id hid]
      refine (hq.linked id).congr (fun a ha => ?_) fun a ha => (h.next_text_eq hq hfresh ha).1
      rw [Report.back, Report.back, h.heap_eq hq hfresh ha (.inl hid)]
  · have htexts : (ls id).map r'.text = (texts id).map some := by
      rw [← hq.texts_eq]
      exact List.map_congr_left fun a ha => (h.next_text_eq hq hfresh ha).2
    by_cases hid : id = c.id
    · subst hid
      have htemp : r'.text c.temp = some c.stored := by
        rw [Report.text, h.temp]
        rfl
      rw [Function.update_self, Function.update_self, List.map_append, List.map_append, htexts,
        List.map_singleton, List.map_singleton, htemp]
    · rw [Function.update_of_ne hid, Function.update_of_ne hid, htexts]
  · -- the new message is in no other queue
    by_cases hid : id = c.id
    · subst hid
      rw [Function.update_self] at ha
      rw [Function.update_of_ne hne.symm]
      rcases List.mem_append.mp ha with ha | ha
      · exact hq.disjoint _ _ hne a ha
      · exact fun ha' => hq.ne_of_fresh hfresh ha' (List.mem_singleton.mp ha)
    · rw [Function.update_of_ne hid] at ha
      by_cases hid' : id' = c.id
      · subst hid'
        rw [Function.update_self]
        intro ha'
        rcases List.mem_append.mp ha' with ha' | ha'
        · exact hq.disjoint _ _ hne a ha ha'
        · exact hq.ne_of_fresh hfresh ha (List.mem_singleton.mp ha')
      · rw [Function.update_of_ne hid']
        exact hq.disjoint _ _ hne a ha
  · by_cases hid : id = c.id
    · subst hid
      rw [Function.update_self, h.length_eq hq, if_neg (List.append_ne_nil_of_right_ne_nil _
        (List.cons_ne_nil _ _))]
    · rw [Function.update_of_ne hid, h.other_queues id hid]
      exact hq.length_eq id

/-- Memory that is free stays free, but for the message. -/
theorem fresh (h : Enqueued r c r') {a : Pointer} (ha : r.heap a = none) (hne : a ≠ c.temp) :
    r'.heap a = none := by
  rw [h.others a hne, ha]
  intro hlast
  obtain ⟨message, hmessage, -⟩ := h.last a hlast
  cases ha.symm.trans hmessage

end Enqueued

end Step

/-! ## Calls one after the other -/

/-- What `malloc` returns in the calls: memory that holds no message, and no memory twice. -/
def FreshBlocks (r : Report) (calls : List EnqueueCall) : Prop :=
  (calls.map EnqueueCall.temp).Nodup ∧ ∀ c ∈ calls, r.heap c.temp = none

section Calls

variable {r start : Report} {lengths : QueueId → ℤ} {texts : QueueId → List Text}
  {ls : QueueId → List Pointer} {calls : List EnqueueCall}

theorem enqueueMessages_cons (c : EnqueueCall) (calls : List EnqueueCall) (r : Report) :
    enqueueMessages (c :: calls) r
      = (r.enqueueMessage c.item c.id c.delimit c.size c.temp).bind (enqueueMessages calls) := rfl

theorem enqueueMessages_concat (before : List EnqueueCall) (c : EnqueueCall) (r : Report) :
    enqueueMessages (before ++ [c]) r = (enqueueMessages before r).bind
      fun r => r.enqueueMessage c.item c.id c.delimit c.size c.temp := by
  unfold enqueueMessages
  rw [List.foldlM_append]
  refine congrArg (Option.bind _) (funext fun r => ?_)
  exact Option.bind_fun_some _

/-- What one call puts into its queue, and what the calls after it do. -/
theorem update_append_textsOf (c : EnqueueCall) (id : QueueId) :
    Function.update texts c.id (texts c.id ++ [c.stored]) id ++ textsOf id calls
      = texts id ++ textsOf id (c :: calls) := by
  by_cases hid : id = c.id
  · subst hid
    have hfilter : (c :: calls).filter (fun c' => c'.id = c.id)
        = c :: calls.filter fun c' => c'.id = c.id := List.filter_cons_of_pos (decide_eq_true rfl)
    rw [Function.update_self, textsOf, textsOf, hfilter, List.map_cons, List.append_assoc]
    rfl
  · rw [Function.update_of_ne hid, textsOf, textsOf, List.filter_cons_of_neg]
    simpa using Ne.symm hid

/-- All calls go through, and the queues grow by what they store. -/
theorem exists_enqueueMessages (hq : Queued r lengths texts ls) (hfresh : FreshBlocks r calls) :
    ∃ r' ls', enqueueMessages calls r = some r' ∧
      Queued r' lengths (fun id => texts id ++ textsOf id calls) ls' ∧
      ∀ a, r.heap a = none → a ∉ calls.map EnqueueCall.temp → r'.heap a = none := by
  induction calls generalizing r texts ls with
  | nil =>
    refine ⟨r, ls, rfl, ?_, fun a ha _ => ha⟩
    convert hq using 2 with id
    exact List.append_nil _
  | cons c calls ih =>
    -- the invariant after the first call, and memory that is free for the others
    obtain ⟨hnodup, hfree⟩ := hfresh
    obtain ⟨hc, hfree⟩ := List.forall_mem_cons.mp hfree
    obtain ⟨hnot, hnodup⟩ := List.nodup_cons.mp hnodup
    obtain ⟨r₁, hfirst, henqueued⟩ := hq.exists_enqueued hc
    have hfresh₁ : FreshBlocks r₁ calls := by
      refine ⟨hnodup, fun c' hc' => henqueued.fresh (hfree c' hc') fun heq => hnot ?_⟩
      rw [← heq]
      exact List.mem_map_of_mem hc'
    obtain ⟨r', ls', hrest, hq', hkeep⟩ := ih (henqueued.queued hq hc) hfresh₁
    refine ⟨r', ls', ?_, ?_, ?_⟩
    · rw [enqueueMessages_cons, hfirst]
      exact hrest
    · simpa only [update_append_textsOf] using hq'
    · intro a ha hmem
      obtain ⟨hne, hmem⟩ := not_or.mp (mt List.mem_cons.mpr hmem)
      exact hkeep a (henqueued.fresh ha hne) hmem

/-- The queues at the start. -/
theorem queued_start
    (hstart : ∀ id, (start.queues id).first = none ∧ (start.queues id).last = none) :
    Queued start (fun id => (start.queues id).length) (fun _ => []) fun _ => [] := by
  refine ⟨fun id => ?_, fun _ => rfl, fun _ _ _ _ ha => absurd ha List.not_mem_nil, fun id => ?_⟩
  · rw [(hstart id).1, (hstart id).2]
    exact .nil
  · exact (if_pos rfl).symm

/-- A queue of the invariant is one. -/
theorem Queued.isQueue (hq : Queued r lengths texts ls) (id : QueueId) :
    IsQueue r id (texts id) (ls id) where
  back := (hq.linked id).back
  last := (hq.linked id).last_eq.symm
  texts_eq := hq.texts_eq id
  back_eq_iff := fun _ ha _ hb => (hq.linked id).back_eq_iff ha hb
  next_first := fun _ ha => (hq.linked id).next_first ha

end Calls

/-! ## Walking along a queue -/

/-- The loop that follows `back`, in `displayMessages` as in the senders and plotters, meets all
texts in their order and ends. -/
theorem displayLoop_eq {r : Report} {l : List Pointer} {p : Option Pointer} {texts : List Text}
    {n : ℕ} (hback : Visits r.back p l) (htexts : l.map r.text = texts.map some)
    (hn : texts.length ≤ n) : Report.displayLoop r.heap n p = some texts := by
  induction l generalizing p texts n with
  | nil =>
    cases hback
    rw [List.map_nil, eq_comm, List.map_eq_nil_iff] at htexts
    rw [htexts]
    cases n <;> rfl
  | cons a l ih =>
    obtain ⟨rfl, hrest⟩ := hback
    cases texts with
    | nil => cases htexts
    | cons text texts =>
      obtain ⟨htext, hothers⟩ := List.cons.inj htexts
      obtain ⟨message, hmessage, rfl⟩ := Option.map_eq_some_iff.mp htext
      obtain ⟨n, rfl⟩ : ∃ m, n = m + 1 := ⟨n - 1, by rw [List.length_cons] at hn; omega⟩
      rw [Report.back, hmessage, Option.bind_some] at hrest
      have hloop := ih hrest hothers (Nat.le_of_succ_le_succ hn)
      rw [Report.displayLoop, hmessage, Option.bind_some, hloop]
      rfl

/-- The queues that `Myreport.lean` has for the calls. -/
theorem foldl_enqueueMessage (queues : Queues) (calls : List EnqueueCall) (id : QueueId) :
    calls.foldl (fun queues c => enqueueMessage c.item queues c.id c.delimit c.size) queues id
      = queues id ++ textsOf id calls := by
  induction calls generalizing queues with
  | nil => exact (List.append_nil _).symm
  | cons c calls ih =>
    rw [List.foldl_cons, ih, ← update_append_textsOf]
    rfl

section Start

variable {start : Report} {calls : List EnqueueCall}

/-- In memory the queues are the ones of `Myreport.lean`, and `displayMessages` prints them. -/
theorem queues_refine
    (hstart : ∀ id, (start.queues id).first = none ∧ (start.queues id).last = none)
    (hfresh : FreshBlocks start calls) : ∃ r, ∃ ls : QueueId → List Pointer,
      enqueueMessages calls start = some r ∧ ∀ id, ∃ texts, texts = calls.foldl
          (fun queues c => enqueueMessage c.item queues c.id c.delimit c.size) emptyQueues id ∧
        IsQueue r id texts (ls id) ∧
        ∀ n, texts.length ≤ n → r.displayMessages n id = some (texts, texts.length) := by
  obtain ⟨r, ls, hrun, hq, -⟩ := exists_enqueueMessages (queued_start hstart) hfresh
  refine ⟨r, ls, hrun, fun id => ⟨_, rfl, ?_, fun n hn => ?_⟩⟩
  · rw [foldl_enqueueMessage]
    exact hq.isQueue id
  · rw [foldl_enqueueMessage] at hn ⊢
    have hqueue := hq.isQueue id
    rw [Report.displayMessages, displayLoop_eq hqueue.back hqueue.texts_eq hn]
    rfl

/-! ## When they are right -/

theorem toInt_natCast_eq_iff (n : ℕ) : toInt n = n ↔ n < 2 ^ 31 := by
  constructor
  · intro h
    have hlt := (toInt_bounds n).2
    omega
  · intro h
    exact toInt_of_fits (by omega) (by omega)

/-- The queues are what they are to be exactly if those without a message had the length 0 at the
start, and none has more messages than an `int` can count. -/
theorem queues_right_iff
    (hstart : ∀ id, (start.queues id).first = none ∧ (start.queues id).last = none)
    (hfresh : FreshBlocks start calls) : QueuesRight start calls ↔
      ∀ id, (textsOf id calls = [] → (start.queues id).length = 0) ∧
        (textsOf id calls).length < 2 ^ 31 := by
  obtain ⟨r, ls, hrun, hq, -⟩ := exists_enqueueMessages (queued_start hstart) hfresh
  simp only [List.nil_append] at hq
  have hlength : ∀ id, (r.queues id).length = (textsOf id calls).length ↔
      (textsOf id calls = [] → (start.queues id).length = 0) ∧
        (textsOf id calls).length < 2 ^ 31 := by
    intro id
    rw [hq.length_eq]
    split
    case isTrue hnil =>
      rw [hnil, List.length_nil, Nat.cast_zero]
      exact ⟨fun h => ⟨fun _ => h, by decide⟩, fun h => h.1 rfl⟩
    case isFalse hcons =>
      rw [toInt_natCast_eq_iff]
      exact ⟨fun h => ⟨fun hnil => absurd hnil hcons, h⟩, And.right⟩
  constructor
  · rintro ⟨⟨r', hrun', hqueues⟩, -⟩ id
    cases hrun.symm.trans hrun'
    exact (hlength id).mp (hqueues id).2
  · intro hlengths
    refine ⟨⟨r, hrun, fun id => ⟨⟨ls id, hq.isQueue id⟩, (hlength id).mpr (hlengths id)⟩⟩, ?_⟩
    rintro before c after rfl
    -- `malloc` has not returned the memory of the message in the calls before
    obtain ⟨hnodup, hfree⟩ := hfresh
    rw [List.map_append, List.nodup_append, List.map_cons] at hnodup
    obtain ⟨hbefore, -, hdisjoint⟩ := hnodup
    obtain ⟨r₁, ls₁, hrun₁, hq₁, hkeep⟩ := exists_enqueueMessages (queued_start hstart)
      ⟨hbefore, fun c' hc' => hfree c' (List.mem_append_left _ hc')⟩
    have hc : r₁.heap c.temp = none :=
      hkeep _ (hfree c (List.mem_append_right _ List.mem_cons_self))
        fun hmem => hdisjoint _ hmem _ List.mem_cons_self rfl
    obtain ⟨r₂, hstep, henqueued⟩ := hq₁.exists_enqueued hc
    refine ⟨r₁, r₂, hrun₁, ?_, fun id hid => henqueued.unchanged hq₁ hc hid⟩
    rw [enqueueMessages_concat, hrun₁]
    exact hstep

end Start

/-- A report with empty queues, in which the lengths have been left to `malloc`. -/
def emptyReport (length : ℤ) : Report := ⟨fun _ => none, fun _ => ⟨length, none, none⟩⟩

theorem queues_right_iff_threeCalls :
    QueuesRight (emptyReport 0) [⟨['4'], .values, true, 6, 1⟩, ⟨['a', 'b'], .avgs, false, 150, 2⟩,
      ⟨['1', '2', '3'], .values, true, 2, 3⟩] :=
  (queues_right_iff (fun _ => ⟨rfl, rfl⟩) ⟨by decide, fun _ _ => rfl⟩).mpr fun id => by
    cases id <;> exact ⟨fun _ => rfl, by decide⟩

/-- A message is put into VALUES; the length of TIME is what it was. -/
theorem not_queuesRight_unset :
    ¬ QueuesRight (emptyReport 7) [⟨['4'], .values, true, 6, 1⟩] := by
  rintro ⟨⟨r, hrun, hqueues⟩, -⟩
  cases hrun
  have hlength : (7 : ℤ) = 0 := (hqueues .time).2
  cases hlength

end OfcBenchmark
