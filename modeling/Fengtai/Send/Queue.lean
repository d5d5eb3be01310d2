import Mathlib.Tactic

set_option autoImplicit false

/-! The ring of fragment IDs: `circular_queue.c`. -/

namespace Fengtai.Send

/-- `CIRCULAR_QUEUE` of `short`, with the slots of `pQueueStart`. -/
structure CircularQueue where
  queueSize : ℕ
  queueMaxSize : ℕ
  head : ℤ
  tail : ℤ
  slots : ℕ → ℤ

/-- An `int` read as an `unsigned int`. -/
def asUnsigned (x : ℤ) : ℕ := (x % 4294967296).toNat

namespace CircularQueue

def initCircleQueue (nSize : ℕ) : CircularQueue where
  queueSize := 0
  queueMaxSize := nSize
  head := -1
  tail := -1
  slots := fun _ => 0

def isFull (q : CircularQueue) : Bool := q.queueMaxSize ≤ q.queueSize

def isEmpty (q : CircularQueue) : Bool := q.queueSize == 0

/-- The counters `Push` leaves; a full queue first has its size set to the capacity, by `IsFull`. -/
def pushCounters (q : CircularQueue) : CircularQueue :=
  if q.isFull then
    if q.queueMaxSize ≤ asUnsigned (q.tail + 1) then
      { q with queueSize := q.queueMaxSize, head := 1, tail := 0 }
    else { q with queueSize := q.queueMaxSize, head := q.head + 2, tail := q.tail + 2 }
  else
    { q with
      queueSize := q.queueSize + 1
      head := if q.head = -1 then (q.head + 1) % q.queueMaxSize else q.head
      tail := if q.queueMaxSize ≤ asUnsigned (q.tail + 1) then 0 else q.tail + 1 }

def push (q : CircularQueue) (data : ℤ) : CircularQueue :=
  let q := q.pushCounters
  { q with slots := Function.update q.slots q.tail.toNat data }

def pop (q : CircularQueue) : CircularQueue :=
  if q.isEmpty then { q with head := -1, tail := -1 }
  else if 0 < q.queueSize - 1 then
    { q with
      queueSize := q.queueSize - 1
      head := if q.queueMaxSize ≤ asUnsigned (q.head + 1) then 0 else q.head + 1 }
  else { q with queueSize := q.queueSize - 1, head := -1, tail := -1 }

def clear (q : CircularQueue) : CircularQueue :=
  { q with
    queueSize := 0
    head := -1
    tail := -1
    slots := fun i => if i < q.queueMaxSize then 0 else q.slots i }

/-- The slot `pos` places behind the head; on an empty queue the head is -1 and the sum wraps. -/
def slotIndex (q : CircularQueue) (pos : ℕ) : ℕ := asUnsigned (q.head + pos) % q.queueMaxSize

def getElement (q : CircularQueue) (pos : ℕ) : Option ℤ :=
  if 0 < q.queueMaxSize ∧ pos ≤ q.queueMaxSize then some (q.slots (q.slotIndex pos)) else none

def setElement (q : CircularQueue) (pos : ℕ) (data : ℤ) : CircularQueue :=
  if pos ≤ q.queueMaxSize then
    { q with slots := Function.update q.slots (q.slotIndex pos) data }
  else q

structure Slots (q : CircularQueue) : Prop where
  size : q.queueMaxSize = 256
  low : ∀ i, -1 ≤ q.slots i
  high : ∀ i, q.slots i < 256

structure Vacant (q : CircularQueue) : Prop extends Slots q where
  empty : q.queueSize = 0
  head_eq : q.head = -1
  tail_eq : q.tail = -1

structure HoldsOnly (q : CircularQueue) (id : ℕ) : Prop extends Slots q where
  one : q.queueSize = 1
  head_eq : q.head = 0
  tail_eq : q.tail = 0
  slot_eq : q.slots 0 = id

lemma vacant_init : Vacant (initCircleQueue 256) where
  size := rfl
  low _ := by simp [initCircleQueue]
  high _ := by simp [initCircleQueue]
  empty := rfl
  head_eq := rfl
  tail_eq := rfl

lemma Slots.update {q : CircularQueue} (h : Slots q) (i : ℕ) (data : ℤ) (hl : -1 ≤ data)
    (hh : data < 256) : Slots { q with slots := Function.update q.slots i data } where
  size := h.size
  low j := by
    rcases eq_or_ne j i with rfl | hj
    · simpa using hl
    · simpa [hj] using h.low j
  high j := by
    rcases eq_or_ne j i with rfl | hj
    · simpa using hh
    · simpa [hj] using h.high j

lemma Vacant.push {q : CircularQueue} (h : Vacant q) {id : ℕ} (hid : id < 256) :
    HoldsOnly (q.push id) id := by
  have hf : q.isFull = false := by simp [isFull, h.empty, h.size]
  have hc : q.pushCounters = { q with queueSize := 1, head := 0, tail := 0 } := by
    simp [pushCounters, hf, h.empty, h.head_eq, h.tail_eq]
  have hs := h.toSlots.update 0 id (by omega) (by omega)
  rw [CircularQueue.push, hc]
  exact ⟨⟨hs.size, hs.low, hs.high⟩, rfl, rfl, rfl, by simp⟩

lemma HoldsOnly.getElement {q : CircularQueue} {id : ℕ} (h : HoldsOnly q id) :
    q.getElement 0 = some (id : ℤ) := by
  simp [CircularQueue.getElement, slotIndex, asUnsigned, h.size, h.head_eq, h.slot_eq]

lemma HoldsOnly.release {q : CircularQueue} {id : ℕ} (h : HoldsOnly q id) :
    Vacant (q.setElement 0 (-1)).pop := by
  have hset : q.setElement 0 (-1) = { q with slots := Function.update q.slots 0 (-1) } := by
    simp [setElement, slotIndex, asUnsigned, h.head_eq]
  have hs := h.toSlots.update 0 (-1) (by omega) (by omega)
  rw [hset]
  simp only [pop, isEmpty, h.one]
  exact ⟨⟨hs.size, hs.low, hs.high⟩, rfl, rfl, rfl⟩

lemma Vacant.getElement {q : CircularQueue} (h : Vacant q) :
    q.getElement 0 = some (q.slots 255) := by
  simp [CircularQueue.getElement, slotIndex, asUnsigned, h.size, h.head_eq]

end CircularQueue

end Fengtai.Send
