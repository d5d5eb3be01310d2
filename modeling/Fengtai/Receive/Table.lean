import Fengtai.Library.Runs
import Fengtai.Receive.Cases
import Fengtai.Receive.Select

set_option autoImplicit false

/-! The whole of `g_frag_info`: one cell for each port and fragment ID. -/

namespace Fengtai.Receive

open Library.Runs

/-- `g_frag_info` with its index lists. -/
abbrev Table := ℕ → ℕ → FragCell

def Table.initial : Table := fun _ _ => .initial

def Table.set (T : Table) (port fragID : ℕ) (c : FragCell) : Table :=
  Function.update T port (Function.update (T port) fragID c)

lemma Table.set_self (T : Table) (port fragID : ℕ) (c : FragCell) :
    T.set port fragID c port fragID = c := by simp [Table.set]

lemma Table.set_set (T : Table) (port fragID : ℕ) (c d : FragCell) :
    (T.set port fragID c).set port fragID d = T.set port fragID d := by simp [Table.set]

lemma Table.set_cell (T : Table) (port fragID : ℕ) : T.set port fragID (T port fragID) = T := by
  rw [Table.set, Function.update_eq_self, Function.update_eq_self]

lemma Table.set_cases (T : Table) (port fragID i j : ℕ) (c : FragCell) :
    T.set port fragID c i j = if i = port ∧ j = fragID then c else T i j := by
  by_cases hi : i = port
  · subst hi
    by_cases hj : j = fragID <;> simp [Table.set, hj]
  · simp [Table.set, hi]

structure Call where
  port : ℕ
  fragID : ℕ
  arrival : Arrival

def Call.cell (T : Table) (k : Call) : FragCell := T k.port k.fragID

/-- One call of `start_reassemble_pdu` or `keep_reassemble_pdu`, and of
`finish_reassemble_pdu` if it returns 1; the answer is what the first call leaves. -/
def reassembleAt (env : Dpdk) (s : Table × Pool) (k : Call) : Option ((Table × Pool) × Reassembled) :=
  (receiveFragment env k.fragID k.arrival (k.cell s.1) s.2).bind fun r =>
    (r.finish env).map fun t => ((s.1.set k.port k.fragID t.1.1, t.1.2), r)

lemma reassembleAt_cases {env : Dpdk} {s s' : Table × Pool} {k : Call} {r : Reassembled}
    (h : reassembleAt env s k = some (s', r)) :
    receiveFragment env k.fragID k.arrival (k.cell s.1) s.2 = some r ∧
      ((r.code ≠ 1 ∧ s' = (s.1.set k.port k.fragID r.cell, r.pool)) ∨
      (r.code = 1 ∧ ∃ d, finishReassemblePdu env (r.cell.info r.index) r.pool = some d ∧
        s' = (s.1.set k.port k.fragID (r.cell.set r.index d.info), d.pool))) := by
  obtain ⟨r', hr, h⟩ := Option.bind_eq_some_iff.mp h
  obtain ⟨t, ht, hs⟩ := Option.map_eq_some_iff.mp h
  obtain ⟨rfl, rfl⟩ := Prod.mk.inj hs
  refine ⟨hr, ?_⟩
  unfold Reassembled.finish at ht
  split_ifs at ht with hc
  · obtain ⟨d, hd, rfl⟩ := Option.map_eq_some_iff.mp ht
    exact .inr ⟨hc, d, hd, rfl⟩
  · obtain rfl := Option.some.inj ht
    exact .inl ⟨hc, rfl⟩

lemma receiveFragment_cases {env : Dpdk} {fragID : ℕ} {a : Arrival} {c : FragCell} {p : Pool}
    {r : Reassembled} (h : receiveFragment env fragID a c p = some r) :
    (a.fragType = .start ∧ 0 < a.fragSeq ∧ r = ⟨-1, 0, c, p⟩) ∨
    (a.fragType = .start ∧ a.fragSeq = 0 ∧
      ∃ t, (c.info (c.select a.timeStamp).1).start env fragID a p = some t ∧
        r = (c.select a.timeStamp).2.put (c.select a.timeStamp).1 t) ∨
    (a.fragType ≠ .start ∧
      ∃ t, (c.info (c.select a.timeStamp).1).keep fragID a p = some t ∧
        r = (c.select a.timeStamp).2.put (c.select a.timeStamp).1 t) := by
  by_cases hrefused : a.fragType = .start ∧ 0 < a.fragSeq
  · rw [receiveFragment_refused env fragID c p hrefused] at h
    exact .inl ⟨hrefused.1, hrefused.2, (Option.some.inj h).symm⟩
  · rw [receiveFragment_eq env fragID c p hrefused] at h
    obtain ⟨t, ht, rfl⟩ := Option.map_eq_some_iff.mp h
    split_ifs at ht with hkind
    · have hseq : a.fragSeq = 0 := Nat.eq_zero_of_not_pos fun hs => hrefused ⟨hkind, hs⟩
      exact .inr (.inl ⟨hkind, hseq, t, ht, rfl⟩)
    · exact .inr (.inr ⟨hkind, t, ht, rfl⟩)

lemma put_forall {c : FragCell} {stamp : ℕ} {t : Received} {Q : FragInfo → Prop}
    (hc : ∀ i, Q (c.info i)) (ht : Q t.info) (i : Fin fragBufferNum) :
    Q (((c.select stamp).2.put (c.select stamp).1 t).cell.info i) := by
  by_cases hi : i = (c.select stamp).1
  · rw [hi]
    simpa [FragCell.put] using ht
  · rw [FragCell.put_ne c stamp t hi]
    exact hc i

lemma Table.forall_step {env : Dpdk} {s s' : Table × Pool} {k : Call} {r : Reassembled}
    (Q : ℕ → FragInfo → Prop) (h : ∀ port fragID i, Q fragID ((s.1 port fragID).info i))
    (hcell : ∀ i, Q k.fragID (r.cell.info i)) (hreset : ∀ i, Q k.fragID (r.cell.info i).reset)
    (hs : reassembleAt env s k = some (s', r)) (port fragID : ℕ) (i : Fin fragBufferNum) :
    Q fragID ((s'.1 port fragID).info i) := by
  obtain ⟨-, ⟨-, rfl⟩ | ⟨-, d, hd, rfl⟩⟩ := reassembleAt_cases hs
  · simp only [Table.set_cases]
    split_ifs with hk
    · rw [hk.2]
      exact hcell i
    · exact h port fragID i
  · simp only [Table.set_cases]
    split_ifs with hk
    · rw [hk.2]
      by_cases hi : i = r.index
      · rw [hi, FragCell.set_info, (finishReassemblePdu_cases hd).1]
        exact hreset r.index
      · rw [FragCell.set_info_ne _ hi]
        exact hcell i
    · exact h port fragID i

end Fengtai.Receive
