import Mathlib.Tactic

set_option autoImplicit false

/-! A list cut into numbered pieces, and the sets of pieces seen so far. -/

namespace Fengtai.Library

open Finset

structure Pieces (α : Type*) where
  whole : List α
  count : ℕ
  piece : ℕ → List α
  join : ((List.range count).map piece).flatten = whole

namespace Pieces

variable {α : Type*} (P : Pieces α)

def received (S : Finset ℕ) : ℕ := ∑ i ∈ S, (P.piece i).length

@[simp] lemma received_empty : P.received ∅ = 0 := rfl

lemma received_insert {S : Finset ℕ} {i : ℕ} (h : i ∉ S) :
    P.received (insert i S) = (P.piece i).length + P.received S := sum_insert h

lemma received_range : P.received (range P.count) = P.whole.length := by
  have h (n : ℕ) : ((List.range n).map P.piece).flatten.length = P.received (range n) := by
    induction n with
    | zero => rfl
    | succ n ih =>
      rw [List.range_succ, List.map_append, List.flatten_append, List.length_append, ih, received,
        received, sum_range_succ]
      simp
  rw [← P.join, h]

lemma received_le {S : Finset ℕ} (h : S ⊆ range P.count) : P.received S ≤ P.whole.length := by
  rw [← P.received_range]
  exact sum_le_sum_of_subset h

def onward (i k : ℕ) : List α := ((List.range k).map fun j => P.piece (i + j)).flatten

@[simp] lemma onward_zero (i : ℕ) : P.onward i 0 = [] := rfl

lemma onward_succ (i k : ℕ) : P.onward i (k + 1) = P.piece i ++ P.onward (i + 1) k := by
  simp only [onward, List.range_succ_eq_map, List.map_cons, List.flatten_cons, List.map_map,
    Nat.add_zero]
  congr 2
  apply List.map_congr_left
  intro j _
  simp [Nat.add_comm 1 j, Nat.add_assoc]

lemma onward_all : P.onward 0 P.count = P.whole := by
  rw [← P.join, onward]
  simp

end Pieces

/-- A set of numbers below `n` that holds the last one is full as soon as its size is
one more than its largest member. -/
lemma full_iff {S : Finset ℕ} {n : ℕ} (hS : S ⊆ range n) :
    (n - 1 ∈ S ∧ S.card = S.sup id + 1) ↔ 0 < n ∧ S = range n := by
  constructor
  · rintro ⟨hlast, hcard⟩
    have hn : n - 1 < n := mem_range.mp (hS hlast)
    have hsup : n - 1 ≤ S.sup id := le_sup (f := id) hlast
    refine ⟨by omega, eq_of_subset_of_card_le hS ?_⟩
    rw [card_range]
    omega
  · rintro ⟨hn, rfl⟩
    refine ⟨mem_range.mpr (by omega), ?_⟩
    have hle : (range n).sup id ≤ n - 1 := Finset.sup_le fun i hi => by
      have := mem_range.mp hi
      simp only [id]
      omega
    have hge : n - 1 ≤ (range n).sup id := le_sup (f := id) (mem_range.mpr (by omega))
    rw [card_range]
    omega

end Fengtai.Library
