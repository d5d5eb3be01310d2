import Mathlib.Tactic

set_option autoImplicit false

/-! Rings between threads, each with one consumer: the record of all that has been enqueued, and
how far each consumer has come. -/

namespace Fengtai.Library

variable {α : Type*}

structure Rings (α : Type*) where
  log : List (ℕ × α)
  head : ℕ → ℕ

namespace Rings

def empty : Rings α := ⟨[], fun _ => 0⟩

/-- All that has ever been put into ring `i`. -/
def ring (r : Rings α) (i : ℕ) : List α := (r.log.filter fun x => x.1 = i).map Prod.snd

def taken (r : Rings α) (i : ℕ) : List α := (r.ring i).take (r.head i)

def waiting (r : Rings α) (i : ℕ) : List α := (r.ring i).drop (r.head i)

def enqueue (i : ℕ) (x : α) (r : Rings α) : Rings α := { r with log := r.log ++ [(i, x)] }

/-- The consumer of ring `i` takes what stands at its head. -/
def dequeue (i : ℕ) (r : Rings α) : Option (α × Rings α) :=
  (r.waiting i).head?.map fun x => (x, { r with head := Function.update r.head i (r.head i + 1) })

def Sound (r : Rings α) : Prop := ∀ i, r.head i ≤ (r.ring i).length

variable {r : Rings α} {i j : ℕ} {x : α}

lemma sound_empty : (empty : Rings α).Sound := fun _ => le_rfl

@[simp] lemma taken_append_waiting (r : Rings α) (i : ℕ) : r.taken i ++ r.waiting i = r.ring i :=
  List.take_append_drop _ _

lemma taken_first (r : Rings α) (i : ℕ) : r.taken i <+: r.ring i := List.take_prefix _ _

lemma mem_of_mem_taken (h : x ∈ r.taken i) : x ∈ r.ring i := (r.taken_first i).subset h

lemma ring_mono {r' : Rings α} (h : r.log <+: r'.log) (i : ℕ) : r.ring i <+: r'.ring i :=
  (h.filter _).map _

lemma ring_append (log more : List (ℕ × α)) (head : ℕ → ℕ) (i : ℕ) :
    (⟨log ++ more, head⟩ : Rings α).ring i =
      (⟨log, head⟩ : Rings α).ring i ++ (⟨more, head⟩ : Rings α).ring i := by
  simp [ring]

lemma ring_pairs (xs : List α) (head : ℕ → ℕ) (i j : ℕ) :
    (⟨xs.map (Prod.mk j), head⟩ : Rings α).ring i = if j = i then xs else [] := by
  induction xs with
  | nil => simp [ring]
  | cons x xs ih =>
    rw [List.map_cons, ← List.singleton_append, ring_append, ih]
    split_ifs with h <;> simp [ring, h]

lemma mem_ring : x ∈ r.ring i ↔ (i, x) ∈ r.log := by
  simp only [ring, List.mem_map, List.mem_filter, decide_eq_true_eq]
  constructor
  · rintro ⟨⟨j, y⟩, ⟨hmem, rfl⟩, rfl⟩
    exact hmem
  · intro hmem
    exact ⟨(i, x), ⟨hmem, rfl⟩, rfl⟩

@[simp] lemma ring_enqueue_self (i : ℕ) (x : α) (r : Rings α) : (r.enqueue i x).ring i = r.ring i ++ [x] := by
  simp [enqueue, ring]

lemma ring_enqueue_ne (h : i ≠ j) (x : α) (r : Rings α) : (r.enqueue j x).ring i = r.ring i := by
  simp [enqueue, ring, h.symm]

lemma Sound.taken_append (h : r.Sound) (more : List (ℕ × α)) (i : ℕ) :
    (⟨r.log ++ more, r.head⟩ : Rings α).taken i = r.taken i := by
  rw [taken, ring_append, List.take_append_of_le_length (h i)]
  rfl

lemma Sound.taken_length (h : r.Sound) (i : ℕ) : (r.taken i).length = r.head i := by
  rw [taken, List.length_take, Nat.min_eq_left (h i)]

lemma prefix_taken {xs : List α} (h : xs <+: r.ring i) (hlen : xs.length ≤ r.head i) : xs <+: r.taken i :=
  List.prefix_take_iff.mpr ⟨h, hlen⟩

lemma Sound.waiting_append (h : r.Sound) (more : List (ℕ × α)) (i : ℕ) :
    (⟨r.log ++ more, r.head⟩ : Rings α).waiting i = r.waiting i ++ (⟨more, r.head⟩ : Rings α).ring i := by
  rw [waiting, ring_append, List.drop_append_of_le_length (h i)]
  rfl

lemma Sound.append (h : r.Sound) (more : List (ℕ × α)) : (⟨r.log ++ more, r.head⟩ : Rings α).Sound := by
  intro i
  rw [ring_append, List.length_append]
  exact (h i).trans (Nat.le_add_right _ _)

lemma dequeue_eq_none : r.dequeue i = none ↔ r.waiting i = [] := by
  rw [dequeue, Option.map_eq_none_iff, List.head?_eq_none_iff]

lemma waiting_ne_nil (h : r.head i < (r.ring i).length) : r.waiting i ≠ [] := by
  rw [waiting, Ne, List.drop_eq_nil_iff]
  exact not_le.mpr h

structure Takes (i : ℕ) (r : Rings α) (x : α) (r' : Rings α) : Prop where
  log : r'.log = r.log
  ring : ∀ j, r'.ring j = r.ring j
  waiting : r.waiting i = x :: r'.waiting i
  taken : r'.taken i = r.taken i ++ [x]
  head : r'.head i = r.head i + 1
  other : ∀ j, j ≠ i → r'.head j = r.head j

lemma dequeue_takes {r' : Rings α} (h : r.dequeue i = some (x, r')) : Takes i r x r' := by
  obtain ⟨y, hy, hpair⟩ := Option.map_eq_some_iff.mp h
  obtain ⟨rfl, rfl⟩ := Prod.mk.inj hpair
  obtain ⟨rest, hrest⟩ := List.head?_eq_some_iff.mp hy
  have hdrop : (r.ring i).drop (r.head i + 1) = rest := by
    rw [← List.tail_drop]
    exact congrArg List.tail hrest
  refine ⟨rfl, fun _ => rfl, ?_, ?_, Function.update_self .., fun j hj => Function.update_of_ne hj ..⟩
  · rw [hrest, waiting]
    simp only [Function.update_self]
    exact congrArg (y :: ·) hdrop.symm
  · have hget : (r.ring i)[r.head i]? = some y := by
      rw [← List.head?_drop]
      exact hy
    simp only [taken, Function.update_self]
    change (r.ring i).take (r.head i + 1) = _
    rw [List.take_add_one, hget]
    rfl

namespace Takes

variable {r' : Rings α}

lemma head_le (h : Takes i r x r') (j : ℕ) : r.head j ≤ r'.head j := by
  by_cases hj : j = i
  · subst hj
    rw [h.head]
    exact Nat.le_succ _
  · exact (h.other j hj).ge

lemma taken_other (h : Takes i r x r') (hj : j ≠ i) : r'.taken j = r.taken j := by
  rw [Rings.taken, Rings.taken, h.ring, h.other j hj]

lemma waiting_other (h : Takes i r x r') (hj : j ≠ i) : r'.waiting j = r.waiting j := by
  rw [Rings.waiting, Rings.waiting, h.ring, h.other j hj]

lemma sound (h : Takes i r x r') (hs : r.Sound) : r'.Sound := by
  intro j
  rw [h.ring]
  by_cases hj : j = i
  · subst hj
    have hlen := congrArg List.length h.waiting
    rw [Rings.waiting, List.length_drop, List.length_cons] at hlen
    have hhead := h.head
    omega
  · rw [h.other j hj]
    exact hs j

lemma mem (h : Takes i r x r') : (i, x) ∈ r.log := by
  rw [← mem_ring, ← taken_append_waiting, h.waiting]
  simp

end Takes

end Rings

end Fengtai.Library
