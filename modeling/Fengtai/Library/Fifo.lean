import Mathlib.Tactic

set_option autoImplicit false

/-! A bounded queue that drops its oldest element to make room, and the window of
a ring of slots that holds its elements. -/

namespace Fengtai.Library.Fifo

variable {α : Type*}

/-- The queue after `v` arrives, oldest first. -/
def push (capacity : ℕ) (l : List α) (v : α) : List α :=
  (if capacity ≤ l.length then l.tail else l) ++ [v]

/-- The elements of `l` lie one after the other in the ring, the oldest at `head`. -/
def Window (capacity head : ℕ) (slots : ℕ → α) (l : List α) : Prop :=
  ∀ (i : ℕ) (h : i < l.length), slots ((head + i) % capacity) = l[i]

lemma index_injective {capacity head i j : ℕ} (hi : i < capacity) (hj : j < capacity)
    (h : (head + i) % capacity = (head + j) % capacity) : i = j :=
  (Nat.ModEq.add_left_cancel' head h).eq_of_lt_of_lt hi hj

lemma index_ne {capacity head i j : ℕ} (hi : i < capacity) (hj : j < capacity) (hij : i ≠ j) :
    (head + i) % capacity ≠ (head + j) % capacity := fun h => hij (index_injective hi hj h)

lemma Window.append {capacity head : ℕ} {slots : ℕ → α} {l : List α}
    (h : Window capacity head slots l) (hl : l.length < capacity) (v : α) :
    Window capacity head (Function.update slots ((head + l.length) % capacity) v) (l ++ [v]) := by
  intro i hi
  rw [List.length_append, List.length_singleton] at hi
  rcases Nat.lt_succ_iff_lt_or_eq.mp hi with hlt | rfl
  · rw [Function.update_of_ne (index_ne (by omega) hl hlt.ne), List.getElem_append_left hlt]
    exact h i hlt
  · simp

lemma Window.tail {capacity head : ℕ} {slots : ℕ → α} {l : List α}
    (h : Window capacity head slots l) :
    Window capacity ((head + 1) % capacity) slots l.tail := by
  intro i hi
  rw [List.length_tail] at hi
  have hnext := h (i + 1) (by omega)
  rw [List.getElem_tail, ← hnext, Nat.mod_add_mod, Nat.add_assoc, Nat.add_comm 1 i]

lemma Window.replace {capacity head : ℕ} {slots : ℕ → α} {l : List α}
    (h : Window capacity head slots l) (hl : l.length = capacity) (hpos : 0 < capacity) (v : α) :
    Window capacity ((head + 1) % capacity) (Function.update slots (head % capacity) v)
      (l.tail ++ [v]) := by
  have hslot : ((head + 1) % capacity + l.tail.length) % capacity = head % capacity := by
    rw [Nat.mod_add_mod, List.length_tail, hl, Nat.add_assoc, Nat.add_sub_cancel' hpos,
      Nat.add_mod_right]
  rw [← hslot]
  exact h.tail.append (by rw [List.length_tail]; omega) v

lemma Window.set_head {capacity head : ℕ} {slots : ℕ → α} {l : List α}
    (h : Window capacity head slots l) (hl : l.length ≤ capacity) (v : α) :
    Window capacity head (Function.update slots (head % capacity) v) (l.set 0 v) := by
  intro i hi
  rw [List.length_set] at hi
  rcases Nat.eq_zero_or_pos i with rfl | hpos
  · simp
  · have hne : (head + i) % capacity ≠ (head + 0) % capacity :=
      index_ne (by omega) (by omega) hpos.ne'
    rw [Nat.add_zero] at hne
    rw [Function.update_of_ne hne, List.getElem_set_of_ne hpos.ne]
    exact h i hi

end Fengtai.Library.Fifo
