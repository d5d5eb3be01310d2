import Mathlib.Tactic

set_option autoImplicit false

/-! Tables of lengths: how much they hold. -/

namespace Fengtai.Library

open Finset

variable {ι : Type*} [Fintype ι]

def total (f : ι → ℕ) : ℕ := ∑ i, f i

lemma le_total (f : ι → ℕ) (i : ι) : f i ≤ total f :=
  single_le_sum (fun _ _ => Nat.zero_le _) (mem_univ i)

lemma total_le (f : ι → ℕ) {b : ℕ} (h : ∀ i, f i ≤ b) : total f ≤ Fintype.card ι * b := by
  simpa [total] using sum_le_card_nsmul univ f b fun i _ => h i

lemma sum_first_le {n k : ℕ} (f : Fin n → ℕ) (g : ℕ → ℕ) (hg : ∀ i (h : i < n), g i = f ⟨i, h⟩)
    (hk : k ≤ n) : ((List.range k).map g).sum ≤ total f := by
  have hlist : ((List.range k).map g).sum = ∑ i ∈ range k, g i := by
    clear hk
    induction k with
    | zero => rfl
    | succ k ih => rw [List.range_succ, List.map_append, List.sum_append, ih, sum_range_succ]; simp
  calc ((List.range k).map g).sum = ∑ i ∈ range k, g i := hlist
    _ ≤ ∑ i ∈ range n, g i := sum_le_sum_of_subset (range_mono hk)
    _ = ∑ i : Fin n, g i := sum_range g
    _ = total f := sum_congr rfl fun i _ => hg i i.isLt

variable [DecidableEq ι]

lemma total_update (f : ι → ℕ) (i : ι) (v : ℕ) :
    total (Function.update f i v) + f i = total f + v := by
  rw [total, total, sum_update_of_mem (mem_univ i), ← sum_sdiff (subset_univ {i}), sum_singleton]
  omega

end Fengtai.Library
