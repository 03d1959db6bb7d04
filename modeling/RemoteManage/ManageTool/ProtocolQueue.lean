import RemoteManage.Foundation.Mealy
import RemoteManage.Foundation.RingBuffer

/-!
# The command queue of the desktop tool

The windows of the tool post the commands of the user to a `CProtocolQueue`, and the thread that talks to
the device takes them out again. The queue keeps the objects in a ring of `MAX_QUEUE` slots. Its
purpose is a FIFO list of that capacity, and it answers every sequence of calls as the list does.

An object is posted once, with `new`, and belongs to the queue from then on, so a slot holds the object
itself. The slots start with whatever the memory holds, and `clear` leaves them as they are.
-/

namespace RemoteManage.ManageTool

open RemoteManage.Foundation

/-- `PROTOCOL_STATUS`. -/
inductive ProtocolStatus where
  | null
  | uart
  | tcp
  | udp
  deriving DecidableEq, Repr

/-- `SSendBuffer`, with pointers to buffers in `P` and functions in `F`. -/
structure SSendBuffer (P F : Type*) where
  bUploadStatus : Bool
  pBuffer : P
  nSize : ℤ
  nCommand : ℤ
  isWriteThrough : UInt8
  qPathInfo : String
  pFunc : F
  nProtocolStatus : ProtocolStatus

/-- `MAX_QUEUE`. -/
def maxQueue : ℤ := 20

/-- `QUEUE_INFO_OK`, `QUEUE_INFO_FULL` and `QUEUE_INFO_EMPTY`. -/
inductive QueueInfo where
  | ok
  | full
  | empty
  deriving DecidableEq, Repr

/-- `CProtocolQueue`; a null pointer is `none`. -/
structure CProtocolQueue (P F : Type*) where
  nFreeList : ℤ
  nWriteIndex : ℤ
  nReadIndex : ℤ
  qinfoPtr : ℤ → Option (SSendBuffer P F)

variable {P F : Type*}

/-- What `QueuePend` copies into the object it is given. -/
def SSendBuffer.copy (pSendbuffer item : SSendBuffer P F) : SSendBuffer P F :=
  { pSendbuffer with
    pBuffer := item.pBuffer
    nSize := item.nSize
    isWriteThrough := item.isWriteThrough
    nCommand := item.nCommand
    pFunc := item.pFunc
    nProtocolStatus := item.nProtocolStatus
    qPathInfo := item.qPathInfo }

namespace CProtocolQueue

/-- The constructor, on the memory of the slots. -/
def init (qinfoPtr : ℤ → Option (SSendBuffer P F)) : CProtocolQueue P F := ⟨maxQueue, 0, 0, qinfoPtr⟩

/-- `isEmpty`. -/
def isEmpty (q : CProtocolQueue P F) : Bool := q.nFreeList = maxQueue

/-- `clear`. -/
def clear (q : CProtocolQueue P F) : CProtocolQueue P F :=
  { q with nFreeList := maxQueue, nWriteIndex := 0, nReadIndex := 0 }

/-- `QueuePost`. -/
def queuePost (q : CProtocolQueue P F) (pSendBuffer : SSendBuffer P F) : CProtocolQueue P F × QueueInfo :=
  if q.nFreeList = 0 then (q, .full)
  else
    let q := { q with qinfoPtr := Function.update q.qinfoPtr q.nWriteIndex (some pSendBuffer) }
    let q := { q with nWriteIndex := q.nWriteIndex + 1 }
    let q := if q.nWriteIndex = maxQueue then { q with nWriteIndex := 0 } else q
    ({ q with nFreeList := q.nFreeList - 1 }, .ok)

/-- `QueuePend`: the queue, the object given with what has been copied into it, and the result. Reading
through a null pointer has no outcome. -/
def queuePend (q : CProtocolQueue P F) (pSendbuffer : SSendBuffer P F) :
    Option (CProtocolQueue P F × SSendBuffer P F × QueueInfo) :=
  if q.nFreeList < maxQueue then
    (q.qinfoPtr q.nReadIndex).map fun item =>
      let q := { q with qinfoPtr := Function.update q.qinfoPtr q.nReadIndex none }
      let q := { q with nReadIndex := q.nReadIndex + 1 }
      let q := if q.nReadIndex = maxQueue then { q with nReadIndex := 0 } else q
      ({ q with nFreeList := q.nFreeList + 1 }, pSendbuffer.copy item, .ok)
  else some (q, pSendbuffer, .empty)

/-- The queue as a ring of slots. -/
def ring (q : CProtocolQueue P F) : SlotRing (SSendBuffer P F) :=
  ⟨q.qinfoPtr, q.nFreeList, q.nWriteIndex, q.nReadIndex⟩

end CProtocolQueue

/-- The calls of the queue, each of which runs without interruption. -/
inductive QueueCall (P F : Type*) where
  | queuePost (pSendBuffer : SSendBuffer P F)
  | queuePend (pSendbuffer : SSendBuffer P F)
  | clear
  | isEmpty

/-- What a call shows its caller; `failed` stands for a call without an outcome. -/
inductive QueueReply (P F : Type*) where
  | queuePost (info : QueueInfo)
  | queuePend (pSendbuffer : SSendBuffer P F) (info : QueueInfo)
  | clear
  | isEmpty (answer : Bool)
  | failed

/-- One call of the queue. -/
def queueStep (q : CProtocolQueue P F) : QueueCall P F → CProtocolQueue P F × QueueReply P F
  | .queuePost pSendBuffer => ((q.queuePost pSendBuffer).1, .queuePost (q.queuePost pSendBuffer).2)
  | .queuePend pSendbuffer =>
    match q.queuePend pSendbuffer with
    | some (q, pSendbuffer, info) => (q, .queuePend pSendbuffer info)
    | none => (q, .failed)
  | .clear => (q.clear, .clear)
  | .isEmpty => (q, .isEmpty q.isEmpty)

/-- The slot that a call reads. -/
def slotRead (q : CProtocolQueue P F) : QueueCall P F → Option ℤ
  | .queuePend _ => if q.nFreeList < maxQueue then some q.nReadIndex else none
  | _ => none

/-- What a pend delivers: the object given has the data of the oldest item, and keeps its own upload
status. -/
def delivered (pSendbuffer item : SSendBuffer P F) : SSendBuffer P F where
  bUploadStatus := pSendbuffer.bUploadStatus
  pBuffer := item.pBuffer
  nSize := item.nSize
  nCommand := item.nCommand
  isWriteThrough := item.isWriteThrough
  qPathInfo := item.qPathInfo
  pFunc := item.pFunc
  nProtocolStatus := item.nProtocolStatus

/-- `QueuePend` copies what a pend delivers. -/
theorem SSendBuffer.copy_eq_delivered (pSendbuffer item : SSendBuffer P F) :
    pSendbuffer.copy item = delivered pSendbuffer item := rfl

/-- One call of the FIFO list that the queue stands for. -/
def fifoStep (items : List (SSendBuffer P F)) :
    QueueCall P F → List (SSendBuffer P F) × QueueReply P F
  | .queuePost pSendBuffer =>
    if items.length = maxQueue then (items, .queuePost .full)
    else (items ++ [pSendBuffer], .queuePost .ok)
  | .queuePend pSendbuffer =>
    match items with
    | [] => ([], .queuePend pSendbuffer .empty)
    | item :: rest => (rest, .queuePend (delivered pSendbuffer item) .ok)
  | .clear => ([], .clear)
  | .isEmpty => (items, .isEmpty items.isEmpty)

/-- The queue stands for the list: its indices lie in the array and are as far apart as slots are taken,
and the taken slots hold the items of the list. -/
structure RepresentsFifo (q : CProtocolQueue P F) (items : List (SSendBuffer P F)) : Prop where
  writeIndex : q.nWriteIndex = (q.nReadIndex + maxQueue - q.nFreeList) % maxQueue
  write_mem : 0 ≤ q.nWriteIndex ∧ q.nWriteIndex ≤ maxQueue - 1
  read_mem : 0 ≤ q.nReadIndex ∧ q.nReadIndex ≤ maxQueue - 1
  items_eq : q.ring.Holds maxQueue items

namespace CProtocolQueue

variable {q : CProtocolQueue P F} {items : List (SSendBuffer P F)}

/-- A ring that holds the items has its indices where they belong. -/
theorem representsFifo_of_holds (h : q.ring.Holds maxQueue items) : RepresentsFifo q items where
  writeIndex := by
    have hfree : q.nFreeList = maxQueue - items.length := h.free
    rw [hfree, Int.add_sub_assoc, Int.sub_sub_self]
    exact h.write
  write_mem := ⟨h.write_nonneg, Int.le_sub_one_of_lt h.write_lt⟩
  read_mem := ⟨h.read_nonneg, Int.le_sub_one_of_lt h.read_lt⟩
  items_eq := h

/-- `QueuePost` puts an object into a ring that is not full. -/
theorem queuePost_of_free (h : q.nFreeList ≠ 0) (pSendBuffer : SSendBuffer P F) :
    (q.queuePost pSendBuffer).1.ring = q.ring.push maxQueue pSendBuffer ∧
      (q.queuePost pSendBuffer).2 = .ok := by
  unfold queuePost
  rw [if_neg h]
  refine ⟨?_, rfl⟩
  by_cases hwrap : q.nWriteIndex + 1 = maxQueue <;> simp [SlotRing.push, SlotRing.next, ring, hwrap]

/-- `QueuePend` takes the object from the slot to be read next. -/
theorem queuePend_of_taken (h : q.nFreeList < maxQueue) {item : SSendBuffer P F}
    (hitem : q.qinfoPtr q.nReadIndex = some item) (pSendbuffer : SSendBuffer P F) :
    ∃ q', q.queuePend pSendbuffer = some (q', pSendbuffer.copy item, .ok) ∧
      q'.ring = q.ring.pop maxQueue := by
  unfold queuePend
  rw [if_pos h, hitem]
  refine ⟨_, rfl, ?_⟩
  by_cases hwrap : q.nReadIndex + 1 = maxQueue <;> simp [SlotRing.pop, SlotRing.next, ring, hwrap]

end CProtocolQueue

section Step

variable {q : CProtocolQueue P F} {items : List (SSendBuffer P F)}

/-- A post is refused by the queue and by the list alike, and otherwise puts the object behind the others. -/
theorem queueStep_queuePost (h : RepresentsFifo q items) (pSendBuffer : SSendBuffer P F) :
    RepresentsFifo (queueStep q (.queuePost pSendBuffer)).1 (fifoStep items (.queuePost pSendBuffer)).1 ∧
      (queueStep q (.queuePost pSendBuffer)).2 = (fifoStep items (.queuePost pSendBuffer)).2 := by
  have hfull : q.nFreeList = 0 ↔ (items.length : ℤ) = maxQueue := h.items_eq.free_eq_zero_iff
  simp only [queueStep, fifoStep]
  by_cases hlen : (items.length : ℤ) = maxQueue
  · rw [if_pos hlen, CProtocolQueue.queuePost, if_pos (hfull.mpr hlen)]
    exact ⟨h, rfl⟩
  · obtain ⟨hring, hinfo⟩ := CProtocolQueue.queuePost_of_free (fun hfree => hlen (hfull.mp hfree)) pSendBuffer
    rw [if_neg hlen, hinfo]
    refine ⟨CProtocolQueue.representsFifo_of_holds ?_, rfl⟩
    rw [hring]
    exact h.items_eq.push (lt_of_le_of_ne h.items_eq.room hlen) pSendBuffer

/-- A pend finds the queue and the list empty alike, and otherwise takes the same object from both. -/
theorem queueStep_queuePend (h : RepresentsFifo q items) (pSendbuffer : SSendBuffer P F) :
    RepresentsFifo (queueStep q (.queuePend pSendbuffer)).1 (fifoStep items (.queuePend pSendbuffer)).1 ∧
      (queueStep q (.queuePend pSendbuffer)).2 = (fifoStep items (.queuePend pSendbuffer)).2 := by
  have htaken : q.nFreeList < maxQueue ↔ items ≠ [] := h.items_eq.free_lt_iff
  simp only [queueStep]
  cases items with
  | nil =>
    rw [CProtocolQueue.queuePend, if_neg (fun hfree => htaken.mp hfree rfl)]
    exact ⟨h, rfl⟩
  | cons item rest =>
    obtain ⟨q', hpend, hring⟩ := CProtocolQueue.queuePend_of_taken
      (htaken.mpr (List.cons_ne_nil _ _)) h.items_eq.head pSendbuffer
    rw [hpend, SSendBuffer.copy_eq_delivered]
    refine ⟨CProtocolQueue.representsFifo_of_holds ?_, rfl⟩
    rw [hring]
    exact h.items_eq.pop

/-- Every call keeps the queue and the list together and is answered by both in the same way. -/
theorem queueStep_refines (h : RepresentsFifo q items) (call : QueueCall P F) :
    RepresentsFifo (queueStep q call).1 (fifoStep items call).1 ∧
      (queueStep q call).2 = (fifoStep items call).2 := by
  cases call with
  | queuePost pSendBuffer => exact queueStep_queuePost h pSendBuffer
  | queuePend pSendbuffer => exact queueStep_queuePend h pSendbuffer
  | clear =>
    refine ⟨CProtocolQueue.representsFifo_of_holds ?_, rfl⟩
    exact SlotRing.holds_cleared (by decide) q.qinfoPtr
  | isEmpty =>
    have htaken : q.nFreeList < maxQueue ↔ items ≠ [] := h.items_eq.free_lt_iff
    have hroom : q.nFreeList ≤ maxQueue := by
      have hfree : q.nFreeList = maxQueue - items.length := h.items_eq.free
      omega
    refine ⟨h, congrArg QueueReply.isEmpty (Bool.eq_iff_iff.mpr ?_)⟩
    rw [CProtocolQueue.isEmpty, decide_eq_true_iff, List.isEmpty_iff, ← not_iff_not, ← ne_eq,
      ← hroom.lt_iff_ne]
    exact htaken

/-- A post that is refused and a pend that finds nothing leave the queue alone. -/
theorem queueStep_unchanged (q : CProtocolQueue P F) (call : QueueCall P F)
    (h : (queueStep q call).2 = .queuePost .full ∨ ∃ s, (queueStep q call).2 = .queuePend s .empty) :
    (queueStep q call).1 = q := by
  cases call with
  | queuePost pSendBuffer =>
    simp only [queueStep, CProtocolQueue.queuePost] at h ⊢
    split at h
    case isTrue hfull => rw [if_pos hfull]
    case isFalse => simp at h
  | queuePend pSendbuffer =>
    simp only [queueStep, CProtocolQueue.queuePend] at h ⊢
    by_cases htaken : q.nFreeList < maxQueue
    · rw [if_pos htaken] at h
      cases hslot : q.qinfoPtr q.nReadIndex <;> simp [hslot] at h
    · rw [if_neg htaken]
  | clear => simp [queueStep] at h
  | isEmpty => rfl

/-- A slot is read only while it holds the oldest item of the list. -/
theorem slotRead_holds (h : RepresentsFifo q items) {call : QueueCall P F} {i : ℤ}
    (hread : slotRead q call = some i) : ∃ item rest, items = item :: rest ∧ q.qinfoPtr i = some item := by
  cases call with
  | queuePend pSendbuffer =>
    obtain ⟨htaken, hi⟩ := Option.ite_none_right_eq_some.mp hread
    obtain rfl := Option.some.inj hi
    obtain ⟨item, rest, rfl⟩ := List.exists_cons_of_ne_nil (h.items_eq.free_lt_iff.mp htaken)
    exact ⟨item, rest, rfl, h.items_eq.head⟩
  | _ => contradiction

end Step

/-- The queue answers every sequence of calls as the FIFO list of capacity `MAX_QUEUE` does and stands for
that list behind each of them; a refused call changes nothing, and a slot is read only while it holds an
item that has been posted and not yet delivered. -/
theorem protocolQueue_refines_fifo (qinfoPtr : ℤ → Option (SSendBuffer P F))
    (calls : List (QueueCall P F)) :
    let q := Mealy.after queueStep (CProtocolQueue.init qinfoPtr) calls
    let items := Mealy.after fifoStep [] calls
    Mealy.outputs queueStep (CProtocolQueue.init qinfoPtr) calls = Mealy.outputs fifoStep [] calls ∧
      RepresentsFifo q items ∧
      (∀ call, (queueStep q call).2 = .queuePost .full ∨ (∃ s, (queueStep q call).2 = .queuePend s .empty) →
        (queueStep q call).1 = q) ∧
      ∀ call i, slotRead q call = some i → ∃ item rest, items = item :: rest ∧ q.qinfoPtr i = some item := by
  have hinit : RepresentsFifo (CProtocolQueue.init qinfoPtr) [] :=
    CProtocolQueue.representsFifo_of_holds (SlotRing.holds_cleared (by decide) qinfoPtr)
  have houtputs := Mealy.outputs_simulation queueStep fifoStep id id RepresentsFifo
    (fun _ _ call h => queueStep_refines h call) _ _ hinit calls
  have hafter := Mealy.after_simulation queueStep fifoStep id RepresentsFifo
    (fun _ _ call h => (queueStep_refines h call).1) _ _ hinit calls
  rw [List.map_id, List.map_id] at houtputs
  rw [List.map_id] at hafter
  exact ⟨houtputs, hafter, queueStep_unchanged _, fun _ _ hread => slotRead_holds hafter hread⟩

end RemoteManage.ManageTool
