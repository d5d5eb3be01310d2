import Mathlib.Tactic

set_option autoImplicit false

/-! What comes about in the end, in a run in which those who can help have their turn again and
again. -/

namespace Fengtai.Library

def Recurs (helpful : ℕ → Prop) : Prop := ∀ n, ∃ m ≥ n, helpful m

/-- A rank that nothing raises and each helpful turn lowers brings the goal about. -/
lemma eventually_of_rank {goal helpful : ℕ → Prop} {n : ℕ} (rank : ℕ → ℕ)
    (hnext : ∀ m ≥ n, ¬ goal m → goal (m + 1) ∨
      rank (m + 1) ≤ rank m ∧ (helpful m → rank (m + 1) < rank m))
    (hhelp : ∀ m ≥ n, ¬ goal m → ∃ k ≥ m, helpful k) : ∃ m ≥ n, goal m := by
  by_contra hnever
  have hgoal (m : ℕ) (hm : n ≤ m) : ¬ goal m := fun hc => hnever ⟨m, hm, hc⟩
  have hstep (m : ℕ) (hm : n ≤ m) := (hnext m hm (hgoal m hm)).resolve_left (hgoal _ (by omega))
  have hanti {a b : ℕ} (ha : n ≤ a) (hab : a ≤ b) : rank b ≤ rank a := by
    induction b, hab using Nat.le_induction with
    | base => exact le_rfl
    | succ b hab ih => exact (hstep b (by omega)).1.trans ih
  -- there is no last rank
  have hdescends (v : ℕ) : ∀ m ≥ n, rank m ≠ v := by
    induction v using Nat.strong_induction_on with
    | _ v ih =>
      intro m hm hv
      obtain ⟨k, hk, hhelpful⟩ := hhelp m hm (hgoal m hm)
      have hlt := (hstep k (by omega)).2 hhelpful
      have hle := hanti hm hk
      exact ih _ (by omega) (k + 1) (by omega) rfl
  exact hdescends (rank n) n le_rfl rfl

/-- What is counted up at each helpful turn, as long as it is below `bound`, comes there. -/
lemma eventually_reaches {count : ℕ → ℕ} {helpful : ℕ → Prop} {n bound : ℕ} (hmono : Monotone count)
    (hcount : ∀ m ≥ n, count m < bound → helpful m → count m < count (m + 1))
    (hhelp : ∀ m ≥ n, count m < bound → ∃ k ≥ m, helpful k) : ∃ m ≥ n, bound ≤ count m := by
  apply eventually_of_rank (fun m => bound - count m)
  · intro m hm hgoal
    have hle : count m ≤ count (m + 1) := hmono (Nat.le_succ m)
    have hlt := hcount m hm (not_le.mp hgoal)
    exact .inr ⟨by omega, fun hhelpful => by have h := hlt hhelpful; omega⟩
  · intro m hm hgoal
    exact hhelp m hm (not_le.mp hgoal)

/-- Who is moved on at each turn, and by nothing else, comes to `goal` in a turn again and again. -/
lemma Recurs.visits {turn goal : ℕ → Prop} (hturn : Recurs turn) (dist : ℕ → ℕ)
    (hkeep : ∀ m, ¬ turn m → dist (m + 1) ≤ dist m) (hlower : ∀ m, turn m → ¬ goal m → dist (m + 1) < dist m) :
    Recurs fun m => turn m ∧ goal m := by
  intro n
  refine eventually_of_rank dist (fun m _ hgoal => ?_) fun m _ _ => hturn m
  by_cases h : turn m
  · have hlt := hlower m h fun hc => hgoal ⟨h, hc⟩
    exact .inr ⟨hlt.le, fun _ => hlt⟩
  · exact .inr ⟨hkeep m h, fun hc => absurd hc h⟩

lemma exists_companions {α : Type*} {P : ℕ → α → Prop} {R : ℕ → α → α → Prop} (h₀ : ∃ a, P 0 a)
    (hnext : ∀ n a, P n a → ∃ b, P (n + 1) b ∧ R n a b) :
    ∃ f : ℕ → α, ∀ n, P n (f n) ∧ R n (f n) (f (n + 1)) := by
  choose next hnext using hnext
  obtain ⟨a, ha⟩ := h₀
  let f (n : ℕ) : { a // P n a } :=
    Nat.rec ⟨a, ha⟩ (fun n x => ⟨next n x.1 x.2, (hnext n x.1 x.2).1⟩) n
  exact ⟨fun n => (f n).1, fun n => ⟨(f n).2, (hnext n (f n).1 (f n).2).2⟩⟩

end Fengtai.Library
