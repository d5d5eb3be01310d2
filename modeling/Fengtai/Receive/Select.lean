import Fengtai.Receive.Reassembly

set_option autoImplicit false

/-! Free buffers, and which buffer a fragment lands in. -/

namespace Fengtai.Receive

/-- A buffer in the state `reset_frag_info` leaves; the PDU type survives a reset but only
ever takes these values. -/
structure FragInfo.Free (f : FragInfo) : Prop where
  reset : f.reset = f
  pduType : f.pduType = ipPacket ∨ f.pduType = ctrlmsgFwd ∨ f.pduType = ctrlmsgRtn

lemma FragInfo.free_initial : FragInfo.initial.Free := ⟨rfl, .inl rfl⟩

lemma FragInfo.Free.timeStamp {f : FragInfo} (h : f.Free) : f.timeStamp = 0 := by
  rw [← h.reset]
  rfl

namespace IndexList

lemma order_cases (l : IndexList) : l.order = [0, 1] ∨ l.order = [1, 0] := by
  obtain ⟨order, hperm⟩ := l
  have h : order ∈ [0, 1].permutations := List.mem_permutations.mpr hperm
  simpa [List.permutations] using h

lemma rotate_header (l : IndexList) : l.rotate.header = l.header + 1 := by
  have h := l.order_cases
  obtain ⟨order, hperm⟩ := l
  obtain rfl | rfl := h <;> rfl

end IndexList

namespace FragCell

variable {c : FragCell} {stamp : ℕ}

def Free (c : FragCell) : Prop := ∀ i, (c.info i).Free

lemma select_first (h : stamp = (c.info 0).timeStamp) : c.select stamp = (0, c) := by
  have hf : c.findStamp stamp = some 0 := by simp [findStamp, List.finRange_succ, h]
  rw [select, hf]

lemma select_second (h₀ : stamp ≠ (c.info 0).timeStamp) (h₁ : stamp = (c.info 1).timeStamp) :
    c.select stamp = (1, c) := by
  have hf : c.findStamp stamp = some 1 := by simp [findStamp, List.finRange_succ, h₀, ← h₁]
  rw [select, hf]

lemma select_miss (h : ∀ i, stamp ≠ (c.info i).timeStamp) :
    c.select stamp = (c.indexList.header, { c with indexList := c.indexList.rotate }) := by
  have hf : c.findStamp stamp = none := by simp [findStamp, h]
  rw [select, hf]

lemma select_unique {b : Fin fragBufferNum} (h : stamp = (c.info b).timeStamp)
    (hne : ∀ i, i ≠ b → stamp ≠ (c.info i).timeStamp) : c.select stamp = (b, c) := by
  fin_cases b
  · exact select_first h
  · exact select_second (hne 0 (by decide)) h

@[simp] lemma select_info (c : FragCell) (stamp : ℕ) : (c.select stamp).2.info = c.info := by
  unfold select
  split <;> rfl

lemma put_ne (c : FragCell) (stamp : ℕ) (t : Received) {j : Fin fragBufferNum}
    (hj : j ≠ (c.select stamp).1) :
    ((c.select stamp).2.put (c.select stamp).1 t).cell.info j = c.info j := by
  rw [put, set_info_ne _ hj, select_info]

lemma select_cases (c : FragCell) (stamp : ℕ) :
    ((c.info (c.select stamp).1).timeStamp = stamp ∧ (c.select stamp).2 = c) ∨
    ((∀ i, stamp ≠ (c.info i).timeStamp) ∧
      c.select stamp = (c.indexList.header, { c with indexList := c.indexList.rotate })) := by
  by_cases h₀ : stamp = (c.info 0).timeStamp
  · rw [select_first h₀]
    exact .inl ⟨h₀.symm, rfl⟩
  · by_cases h₁ : stamp = (c.info 1).timeStamp
    · rw [select_second h₀ h₁]
      exact .inl ⟨h₁.symm, rfl⟩
    · have h : ∀ i, stamp ≠ (c.info i).timeStamp := by
        intro i
        fin_cases i
        exacts [h₀, h₁]
      exact .inr ⟨h, select_miss h⟩

lemma select_again {f : FragInfo} (h : f.timeStamp = stamp) :
    ((c.select stamp).2.set (c.select stamp).1 f).select stamp =
      ((c.select stamp).1, (c.select stamp).2.set (c.select stamp).1 f) := by
  by_cases h₀ : stamp = (c.info 0).timeStamp
  · rw [select_first h₀]
    exact select_first (by rw [set_info, h])
  · by_cases h₁ : stamp = (c.info 1).timeStamp
    · rw [select_second h₀ h₁]
      simp only
      exact select_second (by rwa [set_info_ne _ (by decide)]) (by rw [set_info, h])
    · have hmiss : ∀ i, stamp ≠ (c.info i).timeStamp := by
        intro i
        fin_cases i
        exacts [h₀, h₁]
      rw [select_miss hmiss]
      apply select_unique
      · rw [set_info, h]
      · intro i hi
        rw [set_info_ne _ hi]
        exact hmiss i

end FragCell

section Calls

variable {a : Arrival} (env : Dpdk) (fragID : ℕ) (c : FragCell) (p : Pool)

lemma receiveFragment_refused (h : a.fragType = .start ∧ 0 < a.fragSeq) :
    receiveFragment env fragID a c p = some ⟨-1, 0, c, p⟩ := by
  simp only [receiveFragment, startReassemblePdu, h.1, h.2, if_true]

lemma receiveFragment_eq (h : ¬ (a.fragType = .start ∧ 0 < a.fragSeq)) :
    receiveFragment env fragID a c p =
      (if a.fragType = .start then (c.info (c.select a.timeStamp).1).start env fragID a p
        else (c.info (c.select a.timeStamp).1).keep fragID a p).map
          ((c.select a.timeStamp).2.put (c.select a.timeStamp).1) := by
  cases ht : a.fragType with
  | start =>
    have hseq : ¬ 0 < a.fragSeq := fun hs => h ⟨ht, hs⟩
    simp [receiveFragment, startReassemblePdu, ht, hseq]
  | middle => simp [receiveFragment, keepReassemblePdu, ht]
  | last => simp [receiveFragment, keepReassemblePdu, ht]

lemma reassemble_eq (h : a.fragType = .start → a.fragSeq = 0) :
    reassemble env fragID (c, p) a =
      ((c.info (c.select a.timeStamp).1).receive env fragID a p).map fun t =>
        (((c.select a.timeStamp).2.set (c.select a.timeStamp).1 t.2.1, t.2.2), t.1) := by
  have hrefused : ¬ (a.fragType = .start ∧ 0 < a.fragSeq) := fun hs => hs.2.ne' (h hs.1)
  simp only [reassemble, receiveFragment_eq env fragID c p hrefused, FragInfo.receive]
  cases (if a.fragType = .start then (c.info (c.select a.timeStamp).1).start env fragID a p
      else (c.info (c.select a.timeStamp).1).keep fragID a p) with
  | none => rfl
  | some t =>
    by_cases hc : t.code = 1
    · simp [Reassembled.finish, FragCell.put, hc, Function.comp_def]
    · simp [Reassembled.finish, FragCell.put, hc]

end Calls

end Fengtai.Receive
