import OfcBenchmark.Lib.Links
import OfcBenchmark.Mysnmp

/-!
# The queues of a report in memory

`myreport.c` with its pointers: the messages of a queue are linked in both directions, and a queue
points to its first and its last one. Seen as lists of texts the queues are those of
`Myreport.lean`.

`malloc` is an argument: the address it returns for a message. What it returns for the two links of
the message is overwritten, and lost. `size` is the number of characters there is space for.

`plotDistributed` in `myplot.c` appends the bodies of RESULTS to the first one. It frees each of
them and reads its link after that: memory that has been freed holds no message, and what points
to it points nowhere.
-/

namespace OfcBenchmark
open Printf

/-- An address, or rather what tells one from the other. NULL is none of them. -/
abbrev Pointer := ℕ

/-- `struct message`. -/
structure Message where
  buffer : Text
  next : Option Pointer
  back : Option Pointer

/-- `struct queue`. -/
structure Queue where
  length : ℤ
  first : Option Pointer
  last : Option Pointer

/-- `struct report`, with the memory in which its messages are, and other ones. -/
structure Report where
  heap : Pointer → Option Message
  queues : QueueId → Queue

namespace Report

/-- The field `back` of the message at an address. -/
def back (r : Report) (a : Pointer) : Option Pointer := (r.heap a).bind Message.back

/-- Its field `next`. -/
def next (r : Report) (a : Pointer) : Option Pointer := (r.heap a).bind Message.next

/-- Its text, if there is a message. -/
def text (r : Report) (a : Pointer) : Option Text := (r.heap a).map Message.buffer

/-- `enqueueMessage`, where `malloc` returns `temp`. There is no result if `last` points nowhere. -/
def enqueueMessage (item : Text) (r : Report) (id : QueueId) (delimit : Bool) (size : ℕ)
    (temp : Pointer) : Option Report :=
  let buffer := (if delimit then item ++ [LIMITER] else item).take size
  let queue := r.queues id
  match queue.last with
  | some last =>
    let heap := Function.update r.heap temp (some ⟨buffer, some last, none⟩)
    (heap last).map fun message =>
      { heap := Function.update heap last (some { message with back := some temp })
        queues := Function.update r.queues id
          ⟨toInt (queue.length + 1), queue.first, some temp⟩ }
  | none =>
    some { heap := Function.update r.heap temp (some ⟨buffer, none, none⟩)
           queues := Function.update r.queues id ⟨1, some temp, some temp⟩ }

/-- The loop of `displayMessages`: the texts it prints, the last of which has no `back`. There is
no result if a pointer points nowhere, or the loop does not end within so many messages. -/
def displayLoop (heap : Pointer → Option Message) : ℕ → Option Pointer → Option (List Text)
  | _, none => some []
  | 0, some _ => none
  | n + 1, some temp => (heap temp).bind fun message =>
    (displayLoop heap n message.back).map (message.buffer :: ·)

/-- `displayMessages`: the texts, and the total of `index`. -/
def displayMessages (n : ℕ) (r : Report) (id : QueueId) : Option (List Text × ℕ) :=
  (displayLoop r.heap n (r.queues id).first).map fun texts => (texts, texts.length)

end Report

/-! ## The text of the results -/

/-- `strncat(buffer, text, count)`, where `buffer` has `capacity` bytes. -/
def strncat (capacity : ℕ) (buffer text : Text) (count : ℕ) : Option Text :=
  let joined := buffer ++ text.take count
  if joined.length < capacity then some joined else none

namespace Report

/-- The loop over the messages behind the first body, where `buffer` is the text so far. There is
no result if a pointer points nowhere, or the loop does not end within so many messages. -/
def concatenate (capacity : ℕ) :
    ℕ → (Pointer → Option Message) → Text → Option Pointer → Option Text
  | _, _, buffer, none => some buffer
  | 0, _, _, some _ => none
  | n + 1, heap, buffer, some resultsIterator => do
    let message ← heap resultsIterator
    let buffer ← strncat capacity buffer message.buffer 150
    let heap := Function.update heap resultsIterator none
    -- `resultsIterator = resultsIterator->back`, behind `free(resultsIterator)`
    let message ← heap resultsIterator
    concatenate capacity n heap buffer message.back

/-- How many bytes `realloc` is told. -/
def resultsCapacity (length : ℤ) : ℕ := ((if length = 0 then 1 else length) * 150 + 2).toNat

/-- The text that `plotDistributed` makes of the bodies of RESULTS. -/
def joinResults (n : ℕ) (r : Report) : Option Text := do
  let first ← (r.queues .results).first
  let resultsMessage ← r.back first
  let message ← r.heap resultsMessage
  let capacity := resultsCapacity (r.queues .results).length
  let buffer ← concatenate capacity n r.heap message.buffer message.back
  strncat capacity buffer [CSV_NEWLINE] 2

end Report

/-! ## Calls -/

/-- A call of `enqueueMessage`, and what `malloc` returns in it. -/
structure EnqueueCall where
  item : Text
  id : QueueId
  delimit : Bool
  size : ℕ
  temp : Pointer

/-- Calls one after the other. -/
def enqueueMessages (calls : List EnqueueCall) (r : Report) : Option Report :=
  calls.foldlM (fun r c => r.enqueueMessage c.item c.id c.delimit c.size c.temp) r

end OfcBenchmark
