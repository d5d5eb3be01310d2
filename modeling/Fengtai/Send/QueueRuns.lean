import Fengtai.Library.Fifo
import Fengtai.Library.Runs
import Fengtai.Send.Queue

set_option autoImplicit false

/-! Runs of the ring of `circular_queue.c` against the queue it stands for. -/

namespace Fengtai.Send

open Library Library.Runs

inductive QueueOp
  | push (data : ℤ)
  | pop
  | setFirst (data : ℤ)
  | clear

/-- The ring and the queue it stands for, oldest element first. -/
structure QueuePair where
  ring : CircularQueue
  items : List ℤ

namespace QueuePair

def initial (nSize : ℕ) : QueuePair := ⟨.initCircleQueue nSize, []⟩

def apply (nSize : ℕ) (p : QueuePair) : QueueOp → QueuePair
  | .push data => ⟨p.ring.push data, Fifo.push nSize p.items data⟩
  | .pop => ⟨p.ring.pop, p.items.tail⟩
  | .setFirst data => ⟨p.ring.setElement 0 data, p.items.set 0 data⟩
  | .clear => ⟨p.ring.clear, []⟩

def step (nSize : ℕ) (p : QueuePair) (op : QueueOp) : Option (QueuePair × Unit) :=
  some (p.apply nSize op, ())

structure Refines (nSize : ℕ) (p : QueuePair) : Prop where
  size_le : p.ring.queueSize ≤ nSize
  size_eq : p.ring.queueSize = p.items.length
  empty : p.items = [] → p.ring.head = -1 ∧ p.ring.tail = -1
  head_bounds : p.items ≠ [] → 0 ≤ p.ring.head ∧ p.ring.head < nSize
  tail_bounds : p.items ≠ [] → 0 ≤ p.ring.tail ∧ p.ring.tail < nSize
  element : ∀ (i : ℕ) (h : i < p.items.length), p.ring.getElement i = some p.items[i]

/-- `SetElement` at the front is for a queue with elements. -/
def Used (p : QueuePair) : QueueOp → Prop
  | .setFirst _ => p.ring.isEmpty = false
  | _ => True

/-- A push onto a full ring moves its ends by one slot only when the tail is on the last
slot, and the head it then sets is another slot only if there are two. -/
def Meets (nSize : ℕ) (p : QueuePair) : QueueOp → Prop
  | .push _ => p.ring.isFull → 2 ≤ nSize ∧ p.ring.tail = nSize - 1
  | .setFirst _ => p.ring.isEmpty = false
  | _ => True

/-- The invariant: the ring's elements are the window of `items.length` slots from `head`. -/
structure Tracks (nSize : ℕ) (p : QueuePair) : Prop where
  max_eq : p.ring.queueMaxSize = nSize
  size_eq : p.ring.queueSize = p.items.length
  size_le : p.items.length ≤ nSize
  empty : p.items = [] → p.ring.head = -1 ∧ p.ring.tail = -1
  window : p.items ≠ [] → ∃ head < nSize, p.ring.head = head ∧
    p.ring.tail = ((head + (p.items.length - 1)) % nSize : ℕ) ∧
      Fifo.Window nSize head p.ring.slots p.items

lemma tracks_initial (nSize : ℕ) : Tracks nSize (initial nSize) where
  max_eq := rfl
  size_eq := rfl
  size_le := Nat.zero_le _
  empty _ := ⟨rfl, rfl⟩
  window h := absurd rfl h

lemma asUnsigned_natCast {n : ℕ} (h : n < 4294967296) : asUnsigned n = n := by
  rw [asUnsigned]
  omega

lemma next_slot {nSize i : ℕ} (h31 : nSize < 2147483648) (hi : i < nSize) :
    (if nSize ≤ asUnsigned ((i : ℤ) + 1) then (0 : ℤ) else (i : ℤ) + 1) =
      ((i + 1) % nSize : ℕ) := by
  have hcast : asUnsigned ((i : ℤ) + 1) = i + 1 := by
    exact_mod_cast asUnsigned_natCast (n := i + 1) (by omega)
  rw [hcast]
  by_cases h : nSize ≤ i + 1
  · rw [if_pos h, show i + 1 = nSize by omega, Nat.mod_self]
    rfl
  · rw [if_neg h, Nat.mod_eq_of_lt (by omega)]
    rfl

lemma Tracks.isFull_iff {nSize : ℕ} {p : QueuePair} (h : Tracks nSize p) :
    p.ring.isFull = true ↔ p.items.length = nSize := by
  rw [CircularQueue.isFull, h.max_eq, h.size_eq, decide_eq_true_eq]
  exact ⟨fun hle => h.size_le.antisymm hle, fun heq => heq.ge⟩

lemma Tracks.isEmpty_iff {nSize : ℕ} {p : QueuePair} (h : Tracks nSize p) :
    p.ring.isEmpty = true ↔ p.items = [] := by
  rw [CircularQueue.isEmpty, h.size_eq, beq_iff_eq, List.length_eq_zero_iff]

lemma Tracks.push_first {nSize : ℕ} {p : QueuePair} (h : Tracks nSize p) (hpos : 0 < nSize)
    (hnil : p.items = []) (data : ℤ) : Tracks nSize (p.apply nSize (.push data)) := by
  obtain ⟨hhead, htail⟩ := h.empty hnil
  have hroom : ¬ p.ring.isFull = true := by rw [h.isFull_iff, hnil, List.length_nil]; omega
  have hcounters : p.ring.pushCounters =
      { p.ring with queueSize := p.ring.queueSize + 1, head := 0, tail := 0 } := by
    simp [CircularQueue.pushCounters, hroom, hhead, htail]
  have hitems : (p.apply nSize (.push data)).items = [data] := by
    simp [apply, Fifo.push, hnil]
  have hring : (p.apply nSize (.push data)).ring = { p.ring with
      queueSize := p.ring.queueSize + 1, head := 0, tail := 0
      slots := Function.update p.ring.slots 0 data } := by
    rw [apply, CircularQueue.push, hcounters]
    rfl
  constructor
  case max_eq => rw [hring]; exact h.max_eq
  case size_eq => rw [hring, hitems, h.size_eq, hnil]; rfl
  case size_le => rw [hitems]; exact hpos
  case empty => rw [hitems]; exact fun hn => absurd hn (by simp)
  case window =>
    intro _
    rw [hring, hitems]
    refine ⟨0, hpos, rfl, by simp, ?_⟩
    intro i hi
    have hzero : i = 0 := Nat.lt_one_iff.mp hi
    subst hzero
    simp

lemma Tracks.push_room {nSize : ℕ} {p : QueuePair} (h : Tracks nSize p)
    (h31 : nSize < 2147483648) (hne : p.items ≠ []) (hroom : p.items.length < nSize) (data : ℤ) :
    Tracks nSize (p.apply nSize (.push data)) := by
  obtain ⟨head, hlt, hhead, htail, hwin⟩ := h.window hne
  have hlen : 0 < p.items.length := List.length_pos_iff.mpr hne
  have hnext : ((head + (p.items.length - 1)) % nSize + 1) % nSize =
      (head + p.items.length) % nSize := by
    rw [Nat.mod_add_mod, Nat.add_assoc, Nat.sub_add_cancel hlen]
  have hcounters : p.ring.pushCounters = { p.ring with
      queueSize := p.ring.queueSize + 1
      tail := ((head + p.items.length) % nSize : ℕ) } := by
    have hfull : ¬ p.ring.isFull = true := by rw [h.isFull_iff]; omega
    have hset : p.ring.head ≠ -1 := by omega
    rw [CircularQueue.pushCounters, if_neg hfull, if_neg hset, h.max_eq, htail,
      next_slot h31 (Nat.mod_lt _ (by omega)), hnext]
    simp [h.max_eq]
  have hitems : (p.apply nSize (.push data)).items = p.items ++ [data] := by
    simp [apply, Fifo.push, hroom]
  have hring : (p.apply nSize (.push data)).ring = { p.ring with
      queueSize := p.ring.queueSize + 1
      tail := ((head + p.items.length) % nSize : ℕ)
      slots := Function.update p.ring.slots ((head + p.items.length) % nSize) data } := by
    rw [apply, CircularQueue.push, hcounters]
    rfl
  constructor
  case max_eq => rw [hring]; exact h.max_eq
  case size_eq => rw [hring, hitems, List.length_append, h.size_eq]; rfl
  case size_le => rw [hitems, List.length_append]; exact hroom
  case empty => rw [hitems]; exact fun hn => absurd hn (by simp)
  case window =>
    intro _
    rw [hring, hitems]
    exact ⟨head, hlt, hhead, by simp, hwin.append hroom data⟩

lemma Tracks.push_full {nSize : ℕ} {p : QueuePair} (h : Tracks nSize p)
    (h31 : nSize < 2147483648) (hfull : p.items.length = nSize) (htwo : 2 ≤ nSize)
    (hlast : p.ring.tail = nSize - 1) (data : ℤ) :
    Tracks nSize (p.apply nSize (.push data)) := by
  have hne : p.items ≠ [] := List.ne_nil_of_length_pos (by omega)
  obtain ⟨head, hlt, hhead, htail, hwin⟩ := h.window hne
  -- the tail is on the last slot, so the oldest element is on the first
  have hzero : head = 0 := by
    by_contra hpos
    have hwrap : (head + (p.items.length - 1)) % nSize = head - 1 := by
      rw [hfull, show head + (nSize - 1) = head - 1 + nSize by omega, Nat.add_mod_right,
        Nat.mod_eq_of_lt (by omega)]
    omega
  subst hzero
  have hcounters : p.ring.pushCounters =
      { p.ring with queueSize := nSize, head := 1, tail := 0 } := by
    have hend : nSize ≤ asUnsigned (p.ring.tail + 1) := by
      rw [hlast, asUnsigned]
      omega
    rw [CircularQueue.pushCounters, if_pos (h.isFull_iff.mpr hfull), h.max_eq, if_pos hend]
    simp [h.max_eq]
  have hitems : (p.apply nSize (.push data)).items = p.items.tail ++ [data] := by
    simp [apply, Fifo.push, hfull]
  have hring : (p.apply nSize (.push data)).ring = { p.ring with
      queueSize := nSize, head := 1, tail := 0
      slots := Function.update p.ring.slots 0 data } := by
    rw [apply, CircularQueue.push, hcounters]
    rfl
  have hlen : (p.items.tail ++ [data]).length = nSize := by
    rw [List.length_append, List.length_tail, hfull, List.length_singleton]
    omega
  constructor
  case max_eq => rw [hring]; exact h.max_eq
  case size_eq => rw [hring, hitems, hlen]
  case size_le => rw [hitems, hlen]
  case empty => rw [hitems]; exact fun hn => absurd hn (by simp)
  case window =>
    intro _
    have hone : (0 + 1) % nSize = 1 := Nat.mod_eq_of_lt htwo
    have hmoved := hwin.replace hfull (by omega) data
    rw [hone, Nat.zero_mod] at hmoved
    rw [hring, hitems, hlen]
    refine ⟨1, htwo, rfl, ?_, hmoved⟩
    rw [Nat.add_sub_cancel' (by omega), Nat.mod_self]
    rfl

lemma Tracks.pop {nSize : ℕ} {p : QueuePair} (h : Tracks nSize p) (h31 : nSize < 2147483648) :
    Tracks nSize (p.apply nSize .pop) := by
  have hitems : (p.apply nSize .pop).items = p.items.tail := rfl
  have hlength : p.items.tail.length = p.items.length - 1 := List.length_tail
  have hle := h.size_le
  rcases Nat.lt_or_ge 1 p.items.length with hmany | hfew
  · obtain ⟨head, hlt, hhead, htail, hwin⟩ :=
      h.window (List.ne_nil_of_length_pos (by omega))
    have hring : (p.apply nSize .pop).ring = { p.ring with
        queueSize := p.ring.queueSize - 1, head := ((head + 1) % nSize : ℕ) } := by
      have hempty : ¬ p.ring.isEmpty = true := by
        rw [h.isEmpty_iff]
        exact List.ne_nil_of_length_pos (by omega)
      rw [apply, CircularQueue.pop, if_neg hempty, if_pos (by rw [h.size_eq]; omega), h.max_eq,
        hhead, next_slot h31 hlt]
      simp [h.max_eq]
    constructor
    case max_eq => rw [hring]; exact h.max_eq
    case size_eq => rw [hring, hitems, hlength, ← h.size_eq]
    case size_le => rw [hitems]; omega
    case empty =>
      rw [hitems]
      intro hnil
      rw [hnil, List.length_nil] at hlength
      omega
    case window =>
      intro _
      rw [hring, hitems]
      refine ⟨(head + 1) % nSize, Nat.mod_lt _ (by omega), rfl, ?_, hwin.tail⟩
      rw [hlength, Nat.mod_add_mod, ← Nat.add_sub_assoc (by omega), Nat.add_assoc,
        show head + (1 + (p.items.length - 1)) - 1 = head + (p.items.length - 1) by omega]
      exact htail
  · have hnil : p.items.tail = [] := List.length_eq_zero_iff.mp (by omega)
    have hring : (p.apply nSize .pop).ring =
        { p.ring with queueSize := p.ring.queueSize - 1, head := -1, tail := -1 } := by
      rw [apply, CircularQueue.pop]
      by_cases hempty : p.ring.isEmpty
      · rw [if_pos hempty]
        rw [CircularQueue.isEmpty, beq_iff_eq] at hempty
        rw [hempty]
      · rw [if_neg hempty, if_neg (by rw [h.size_eq]; omega)]
    constructor
    case max_eq => rw [hring]; exact h.max_eq
    case size_eq => rw [hring, hitems, hlength, ← h.size_eq]
    case size_le => rw [hitems]; omega
    case empty => rw [hring]; exact fun _ => ⟨rfl, rfl⟩
    case window => rw [hitems]; exact fun hne => absurd hnil hne

/-- Reading and writing behind the head, where `Head + pos` is taken without a sign. -/
lemma slotIndex_eq {nSize head pos : ℕ} {q : CircularQueue} (h31 : nSize < 2147483648)
    (hmax : q.queueMaxSize = nSize) (hhead : q.head = head) (hlt : head < nSize)
    (hpos : pos < nSize) : q.slotIndex pos = (head + pos) % nSize := by
  have hcast : asUnsigned ((head : ℤ) + pos) = head + pos := by
    exact_mod_cast asUnsigned_natCast (n := head + pos) (by omega)
  rw [CircularQueue.slotIndex, hhead, hcast, hmax]

lemma Tracks.setFirst {nSize : ℕ} {p : QueuePair} (h : Tracks nSize p)
    (h31 : nSize < 2147483648) (hne : p.items ≠ []) (data : ℤ) :
    Tracks nSize (p.apply nSize (.setFirst data)) := by
  obtain ⟨head, hlt, hhead, htail, hwin⟩ := h.window hne
  have hring : (p.apply nSize (.setFirst data)).ring =
      { p.ring with slots := Function.update p.ring.slots (head % nSize) data } := by
    rw [apply, CircularQueue.setElement, if_pos (Nat.zero_le _),
      slotIndex_eq h31 h.max_eq hhead hlt (by omega), Nat.add_zero]
  have hitems : (p.apply nSize (.setFirst data)).items = p.items.set 0 data := rfl
  constructor
  case max_eq => rw [hring]; exact h.max_eq
  case size_eq => rw [hring, hitems, List.length_set]; exact h.size_eq
  case size_le => rw [hitems, List.length_set]; exact h.size_le
  case empty =>
    intro hnil
    rw [hitems, List.set_eq_nil_iff] at hnil
    exact absurd hnil hne
  case window =>
    intro _
    rw [hring, hitems, List.length_set]
    exact ⟨head, hlt, hhead, htail, hwin.set_head h.size_le data⟩

lemma Tracks.clear {nSize : ℕ} {p : QueuePair} (h : Tracks nSize p) :
    Tracks nSize (p.apply nSize .clear) where
  max_eq := h.max_eq
  size_eq := rfl
  size_le := Nat.zero_le _
  empty _ := ⟨rfl, rfl⟩
  window hne := absurd rfl hne

lemma Tracks.step {nSize : ℕ} {p : QueuePair} (h : Tracks nSize p) (hpos : 0 < nSize)
    (h31 : nSize < 2147483648) {op : QueueOp} (hop : Meets nSize p op) :
    Tracks nSize (p.apply nSize op) := by
  cases op with
  | push data =>
    by_cases hnil : p.items = []
    · exact h.push_first hpos hnil data
    · rcases h.size_le.lt_or_eq with hroom | hfull
      · exact h.push_room h31 hnil hroom data
      · obtain ⟨htwo, hlast⟩ := hop (h.isFull_iff.mpr hfull)
        exact h.push_full h31 hfull htwo hlast data
  | pop => exact h.pop h31
  | setFirst data =>
    have hne : p.items ≠ [] := fun hnil => by
      rw [Meets, h.isEmpty_iff.mpr hnil] at hop
      cases hop
    exact h.setFirst h31 hne data
  | clear => exact h.clear

lemma Tracks.refines {nSize : ℕ} {p : QueuePair} (h : Tracks nSize p)
    (h31 : nSize < 2147483648) : Refines nSize p := by
  constructor
  case size_le => exact h.size_eq.trans_le h.size_le
  case size_eq => exact h.size_eq
  case empty => exact h.empty
  case head_bounds =>
    intro hne
    obtain ⟨head, hlt, hhead, -, -⟩ := h.window hne
    omega
  case tail_bounds =>
    intro hne
    obtain ⟨head, hlt, -, htail, -⟩ := h.window hne
    have hmod : (head + (p.items.length - 1)) % nSize < nSize := Nat.mod_lt _ (by omega)
    omega
  case element =>
    intro i hi
    obtain ⟨head, hlt, hhead, -, hwin⟩ := h.window (List.ne_nil_of_length_pos (by omega))
    have hle := h.size_le
    rw [CircularQueue.getElement, h.max_eq, if_pos ⟨by omega, by omega⟩,
      slotIndex_eq h31 h.max_eq hhead hlt (by omega), hwin i hi]

/-- As long as no push on a full ring has to move its ends anywhere but from the last
slot to the first, the ring is the queue that drops its oldest element. -/
theorem ring_refines (nSize : ℕ) (hpos : 1 ≤ nSize) (h31 : nSize < 2147483648) (p : QueuePair)
    (h : Reached (step nSize) (Meets nSize) (initial nSize) p) : Refines nSize p := by
  apply Tracks.refines _ h31
  apply h.invariant (Tracks nSize) (tracks_initial nSize)
  intro s op s' o hs hop hstep
  rw [QueuePair.step, Option.some.injEq, Prod.mk.injEq] at hstep
  rw [← hstep.1]
  exact hs.step hpos h31 hop

theorem ring_refines_wrap :
    Refines 2 ((((initial 2).apply 2 (.push 7)).apply 2 (.push 8)).apply 2 (.push 9)) := by
  apply ring_refines 2 (by decide) (by decide)
  refine .next (o := ()) (.next (o := ()) (.next (o := ()) .start ?_ rfl) ?_ rfl) ?_ rfl
  · exact fun h => absurd h (by decide)
  · exact fun h => absurd h (by decide)
  · exact fun _ => ⟨by decide, by decide⟩

/-- The second push onto a full ring skips a slot with both ends: the head leaves the ring. -/
theorem full_push_skips : ∃ nSize p, 1 ≤ nSize ∧ nSize < 2147483648 ∧
    Reached (step nSize) Used (initial nSize) p ∧ ¬ Refines nSize p := by
  refine ⟨3, (((((initial 3).apply 3 (.push 1)).apply 3 (.push 2)).apply 3 (.push 3)).apply 3
    (.push 4)).apply 3 (.push 5), by decide, by decide, ?_, ?_⟩
  · exact .next (i := .push 5) (.next (i := .push 4) (.next (i := .push 3) (.next (i := .push 2)
      (.next (i := .push 1) .start trivial rfl) trivial rfl) trivial rfl) trivial rfl) trivial rfl
  · intro h
    exact absurd (h.head_bounds (by decide)).2 (by decide)

end QueuePair

end Fengtai.Send
