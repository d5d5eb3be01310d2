import Fengtai.Receive.Table
import Fengtai.Receive.Repeats

set_option autoImplicit false

/-! A buffer that is evicted with fragments in it mixes PDUs; where that never happens,
a completed buffer holds fragments of one PDU. -/

namespace Fengtai.Receive

open Library.Words Library.Runs

namespace FragInfo

def Unused (f : FragInfo) (i : Fin fragMaxNum) : Prop := f.storedBy i = none ∧ f.fragLen i = 0

def Unmixed (fragID : ℕ) (f : FragInfo) : Prop :=
  ∀ i, f.storedBy i = some (fragID, f.timeStamp) ∨ f.Unused i

-- a fragment without bytes counts as stored
def EmptyBut (seq : ℕ) (f : FragInfo) : Prop := ∀ i, i.val ≠ seq → f.storedBy i = none

variable {fragID stamp : ℕ} {f : FragInfo}

lemma unmixed_reset (f : FragInfo) : f.reset.Unmixed fragID := fun _ => .inr ⟨rfl, rfl⟩

lemma emptyBut_reset (seq : ℕ) (f : FragInfo) : f.reset.EmptyBut seq := fun _ _ => rfl

lemma unmixed_store (h : f.Unmixed fragID) {s : Fin fragMaxNum}
    (hs : f.timeStamp = stamp ∨ f.EmptyBut s) (bytes : List UInt8) :
    (f.store s fragID stamp bytes).Unmixed fragID := by
  intro i
  by_cases his : i = s
  · simp [store, his]
  · simp only [Unused, store, Function.update_of_ne his]
    obtain rfl | he := hs
    · exact h i
    · have hnone : f.storedBy i = none := he i fun hc => his (Fin.ext hc)
      obtain hby | hfree := h i
      · rw [hnone] at hby
        cases hby
      · exact .inr hfree

lemma unmixed_settle (h : f.Unmixed fragID) (now : ℕ) (p : Pool) :
    (f.settle now p).info.Unmixed fragID := by
  obtain ⟨-, hs⟩ | ⟨-, hs⟩ | ⟨-, hs⟩ := f.settle_cases now p <;> rw [hs]
  exacts [h, h, h]

lemma countLength_tables (s : Fin fragMaxNum) (isEnd : Bool) (fragLen : ℕ) :
    let g := (f.dropOld s).countLength isEnd fragLen
    g.fragLen = f.fragLen ∧ g.storedBy = f.storedBy ∧ g.timeStamp = f.timeStamp := by
  rw [dropOld, countLength]
  split_ifs <;> exact ⟨rfl, rfl, rfl⟩

lemma discardReceived_unmixed (h : f.Unmixed fragID) {p q : Pool} {g : FragInfo}
    (hd : discardReceived stamp f p = (g, q))
    (hs : f.timeStamp = stamp ∨ 0 < f.fragRecvNum ∨ f.EmptyBut 0) :
    g.Unmixed fragID ∧ (g.timeStamp = stamp ∨ g.EmptyBut 0) := by
  rw [discardReceived] at hd
  split_ifs at hd with hnum hstamp hlen <;> obtain ⟨rfl, -⟩ := Prod.mk.inj hd
  · exact ⟨unmixed_reset f, .inr (emptyBut_reset 0 f)⟩
  · exact ⟨fun _ => .inr ⟨rfl, rfl⟩, .inr fun _ _ => rfl⟩
  · exact ⟨h, .inl (not_not.mp hstamp).symm⟩
  · refine ⟨h, ?_⟩
    tauto

variable {env : Dpdk} {a : Arrival} {p : Pool} {r : Received}

lemma start_unmixed (h : f.Unmixed fragID) (hr : f.start env fragID a p = some r)
    (hs : f.timeStamp = a.timeStamp ∨ 0 < f.fragRecvNum ∨ f.EmptyBut 0) :
    r.info.Unmixed fragID ∧ (r.code = 1 → r.info.timeStamp = a.timeStamp) := by
  obtain ⟨g, q, hd, -, hr⟩ := start_cases hr
  obtain ⟨hg, hgs⟩ := discardReceived_unmixed h hd hs
  have hstore : (g.storeStart fragID a).Unmixed fragID :=
    unmixed_store hg (s := 0) hgs (window a.datafield 0 a.fragLen)
  obtain ⟨-, rfl⟩ | ⟨-, -, rfl⟩ | ⟨-, -, rfl⟩ := hr
  · exact ⟨hstore, fun hc => absurd hc (by norm_num)⟩
  · exact ⟨unmixed_reset _, fun hc => absurd hc (by norm_num)⟩
  · refine ⟨unmixed_settle (f := (g.storeStart fragID a).reserve env q.allocs a.protocolType)
      hstore a.now _, fun _ => ?_⟩
    rw [settle_timeStamp]
    rfl

lemma keep_unmixed (h : f.Unmixed fragID) (hr : f.keep fragID a p = some r)
    (hs : f.timeStamp = a.timeStamp ∨ f.EmptyBut a.fragSeq) :
    r.info.Unmixed fragID ∧ (r.code = 1 → r.info.timeStamp = a.timeStamp) := by
  obtain ⟨hseq, hr⟩ := keep_cases hr
  obtain ⟨hlen, hby, hstamp⟩ :=
    f.countLength_tables ⟨a.fragSeq, hseq⟩ (a.fragType = .last) a.fragLen
  obtain ⟨-, rfl⟩ | ⟨-, -, rfl⟩ := hr
  · exact ⟨unmixed_reset f, fun hc => absurd hc (by norm_num)⟩
  · refine ⟨unmixed_settle (unmixed_store ?_ ?_ _) a.now p, fun _ => ?_⟩
    · simp only [Unmixed, Unused]
      rwa [hlen, hby, hstamp]
    · rw [EmptyBut]
      rwa [hby, hstamp]
    · rw [settle_timeStamp]
      rfl

end FragInfo

/-- A fragment whose time stamp is in neither buffer takes one in which nothing is stored besides
an older copy of the fragment, or one that a START resets. -/
def NoStaleEviction (s : Table × Pool) (k : Call) : Prop :=
  let c := k.cell s.1
  let a := k.arrival
  (∀ i, a.timeStamp ≠ (c.info i).timeStamp) →
    (c.info c.indexList.header).EmptyBut a.fragSeq ∨
      (a.fragType = .start ∧ 0 < (c.info c.indexList.header).fragRecvNum)

def Table.Unmixed (s : Table × Pool) : Prop :=
  ∀ port fragID i, ((s.1 port fragID).info i).Unmixed fragID

lemma NoStaleEviction.chosen {s : Table × Pool} {k : Call} (h : NoStaleEviction s k) :
    let f := (k.cell s.1).info ((k.cell s.1).select k.arrival.timeStamp).1
    f.timeStamp = k.arrival.timeStamp ∨ f.EmptyBut k.arrival.fragSeq ∨
      (k.arrival.fragType = .start ∧ 0 < f.fragRecvNum) := by
  obtain ⟨hmatch, -⟩ | ⟨hmiss, hsel⟩ := (k.cell s.1).select_cases k.arrival.timeStamp
  · exact .inl hmatch
  · rw [hsel]
    exact .inr (h hmiss)

lemma receiveFragment_unmixed {env : Dpdk} {s : Table × Pool} {k : Call} {r : Reassembled}
    (h : Table.Unmixed s) (hok : NoStaleEviction s k)
    (hr : receiveFragment env k.fragID k.arrival (k.cell s.1) s.2 = some r) :
    (∀ i, (r.cell.info i).Unmixed k.fragID) ∧
      (r.code = 1 → (r.cell.info r.index).timeStamp = k.arrival.timeStamp) := by
  have hf := h k.port k.fragID
  have hchosen := hok.chosen
  obtain ⟨-, -, rfl⟩ | ⟨-, hseq, t, ht, rfl⟩ | ⟨hkind, t, ht, rfl⟩ := receiveFragment_cases hr
  · exact ⟨hf, fun hc => absurd hc (by norm_num)⟩
  · rw [hseq] at hchosen
    obtain ⟨hinfo, hstamp⟩ := FragInfo.start_unmixed (hf _) ht (by tauto)
    exact ⟨put_forall hf hinfo, by simpa [FragCell.put] using hstamp⟩
  · obtain ⟨hinfo, hstamp⟩ := FragInfo.keep_unmixed (hf _) ht (by tauto)
    exact ⟨put_forall hf hinfo, by simpa [FragCell.put] using hstamp⟩

lemma Table.unmixed_step {env : Dpdk} {s s' : Table × Pool} {k : Call} {r : Reassembled}
    (h : Table.Unmixed s) (hok : NoStaleEviction s k)
    (hs : reassembleAt env s k = some (s', r)) : Table.Unmixed s' := by
  obtain ⟨hcell, -⟩ := receiveFragment_unmixed h hok (reassembleAt_cases hs).1
  exact Table.forall_step (fun fragID f => f.Unmixed fragID) h hcell
    (fun _ => FragInfo.unmixed_reset _) hs

lemma Table.unmixed_initial : Table.Unmixed (.initial, .fresh) :=
  fun _ _ _ _ => .inr ⟨rfl, rfl⟩

/-- Fragment `i` of the sample, whose START announces one byte more than comes. -/
def shortCall (stamp : ℕ) (h : stamp < 8192) (i : ℕ) : Call :=
  ⟨0, 7, { (samplePdu stamp h).arrival i with totalLength := 9 }⟩

def wholeCall (stamp : ℕ) (h : stamp < 8192) (i : ℕ) : Call := ⟨0, 7, (samplePdu stamp h).arrival i⟩

instance (seq : ℕ) (f : FragInfo) : Decidable (f.EmptyBut seq) :=
  inferInstanceAs (Decidable (∀ i : Fin fragMaxNum, i.val ≠ seq → f.storedBy i = none))

instance (s : Table × Pool) (k : Call) : Decidable (NoStaleEviction s k) :=
  inferInstanceAs (Decidable ((∀ _ : Fin fragBufferNum, _ ≠ _) → _ ∨ _))

end Fengtai.Receive
