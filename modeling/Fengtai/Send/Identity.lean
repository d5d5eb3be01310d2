import Fengtai.Send.Loop

set_option autoImplicit false

/-! Which identity a fragment carries: the fragment ID of its PDU and the time stamp in front
of its sequence number, over any run that has one fragmentation under way at a time. -/

namespace Fengtai.Send

open Library.Words Library.Runs Receive

def numberedID (k : ℕ) : ℕ := k % 256

/-- Its time stamp: the first one of all does not raise the counter of its ID. -/
def numberedStamp (k : ℕ) : ℕ := (k + 254) / 256 % 8192

/-- The counter of each ID after `k` fragmentations: the stamp of the last one with that ID. -/
def countAfter (k i : ℕ) : ℕ := (k + 254 - (k + 256 - i) % 256) / 256 % 8192

lemma numberedID_lt (k : ℕ) : numberedID k < 256 := Nat.mod_lt _ (by norm_num)

lemma countAfter_self (k : ℕ) : countAfter k (numberedID k) = numberedStamp k := by
  have hd : (k + 256 - k % 256) % 256 = 0 := by omega
  rw [countAfter, numberedID, hd]
  rfl

lemma countAfter_next (k : ℕ) :
    countAfter k (numberedID (k + 1)) = (k - 1) / 256 % 8192 := by
  have hd : (k + 256 - (k + 1) % 256) % 256 = 255 := by omega
  rw [countAfter, numberedID, hd, show k + 254 - 255 = k - 1 by omega]

lemma countAfter_other {k i : ℕ} (hi : i < 256) (hne : i ≠ numberedID (k + 1)) :
    countAfter (k + 1) i = countAfter k i := by
  have hne' : i ≠ (k + 1) % 256 := hne
  have hd : (k + 1 + 256 - i) % 256 = (k + 256 - i) % 256 + 1 := by omega
  rw [countAfter, countAfter, hd,
    show k + 1 + 254 - ((k + 256 - i) % 256 + 1) = k + 254 - (k + 256 - i) % 256 by omega]

lemma numbered_injective {k k' : ℕ} (hid : numberedID k = numberedID k')
    (hstamp : numberedStamp k = numberedStamp k') (h : k < k' + 2097152) (h' : k' < k + 2097152) :
    k = k' := by
  have hid' : k % 256 = k' % 256 := hid
  have hstamp' : (k + 254) / 256 % 8192 = (k' + 254) / 256 % 8192 := hstamp
  omega

/-- The statics of `update_pdu_group` after `k` fragmentations. -/
structure SequenceCounters.Counted (k : ℕ) (c : SequenceCounters) : Prop where
  unused : k = 0 → c.firstEnterFlag = false ∧ ∀ i, c.fragCount i = 0
  flag : 0 < k → c.firstEnterFlag = true
  current : 0 < k → c.fragmentID = numberedID k
  counts : 0 < k → ∀ i < 256, c.fragCount i = countAfter k i

lemma SequenceCounters.counted_initial : SequenceCounters.initial.Counted 0 where
  unused _ := ⟨rfl, fun _ => rfl⟩
  flag h := absurd h (lt_irrefl 0)
  current h := absurd h (lt_irrefl 0)
  counts h := absurd h (lt_irrefl 0)

lemma SequenceCounters.Counted.enter_same {k : ℕ} {c : SequenceCounters} (h : c.Counted k)
    (hk : 0 < k) : c.enter (numberedID k) = c := by
  have hlt : c.fragCount (numberedID k) < 8192 := by
    rw [h.counts hk _ (numberedID_lt k)]
    exact Nat.mod_lt _ (by norm_num)
  simp only [enter, h.flag hk, if_true, h.current hk, ne_eq, not_true, if_false, not_le.mpr hlt]

lemma SequenceCounters.Counted.enter_next {k : ℕ} {c : SequenceCounters} (h : c.Counted k) :
    (c.enter (numberedID (k + 1))).Counted (k + 1) := by
  rcases Nat.eq_zero_or_pos k with rfl | hk
  · obtain ⟨hflag, hzero⟩ := h.unused rfl
    have henter : c.enter (numberedID 1) = ⟨c.fragCount, numberedID 1, true⟩ := by
      simp [enter, hflag, hzero]
    rw [henter]
    refine ⟨by omega, fun _ => rfl, fun _ => rfl, fun _ i hi => ?_⟩
    rw [hzero, countAfter]
    symm
    rw [Nat.div_eq_of_lt (by omega)]
  · have hne : ¬ c.fragmentID = numberedID (k + 1) := by
      rw [h.current hk, numberedID, numberedID]
      omega
    have hlt : numberedID (k + 1) < 256 := numberedID_lt (k + 1)
    have hcount : c.fragCount (numberedID (k + 1)) = (k - 1) / 256 % 8192 := by
      rw [h.counts hk _ hlt, countAfter_next]
    have hstamp : countAfter (k + 1) (numberedID (k + 1)) =
        if 8192 ≤ (k - 1) / 256 % 8192 + 1 then 0 else (k - 1) / 256 % 8192 + 1 := by
      rw [countAfter_self, numberedStamp]
      split_ifs <;> omega
    have hu : u16 ((k - 1) / 256 % 8192 + 1) = (k - 1) / 256 % 8192 + 1 := u16_of_lt (by omega)
    refine ⟨by omega, fun _ => ?_, fun _ => ?_, fun _ i hi => ?_⟩
    · simp only [enter, h.flag hk, if_true, if_pos hne]
      split_ifs <;> rfl
    · simp only [enter, h.flag hk, if_true, if_pos hne]
      split_ifs <;> rfl
    · simp only [enter, h.flag hk, if_true, if_pos hne, Function.update_self, hcount, hu]
      by_cases hi' : i = numberedID (k + 1)
      · rw [hi', hstamp]
        split_ifs <;> simp
      · rw [countAfter_other hi hi', ← h.counts hk i hi]
        split_ifs <;> simp [hi']

lemma SequenceCounters.timeSeq_eq {c : SequenceCounters} {seq : ℕ} (hseq : seq < 8)
    (hcount : c.fragCount c.fragmentID < 8192) :
    c.timeSeq seq = 8 * c.fragCount c.fragmentID + seq := by
  have hor : (c.fragCount c.fragmentID * 8) ||| seq = c.fragCount c.fragmentID * 8 + seq := by
    have h := Nat.shiftLeft_add_eq_or_of_lt (show seq < 2 ^ 3 from hseq)
      (c.fragCount c.fragmentID)
    rw [Nat.shiftLeft_eq] at h
    exact h.symm
  rw [timeSeq, hor, u16_of_lt (by omega), Nat.mul_comm]

lemma SequenceCounters.Counted.timeSeq {k seq : ℕ} {c : SequenceCounters} (h : c.Counted k)
    (hk : 0 < k) (hseq : seq < 8) : c.timeSeq seq = 8 * numberedStamp k + seq := by
  have hcount : c.fragCount c.fragmentID = numberedStamp k := by
    rw [h.current hk, h.counts hk _ (numberedID_lt k), countAfter_self]
  rw [timeSeq_eq hseq, hcount]
  rw [hcount]
  exact Nat.mod_lt _ (by norm_num)

def PduGroup.timeSeq (g : PduGroup) : ℕ :=
  (g.optExtHeaderInfo.head?.map fun h => beValue h.headerValue).getD 0

lemma setLastOpt_head (hs : List OptExtHeader) (nextType : ℕ) :
    (setLastOpt hs nextType).head?.map OptExtHeader.headerValue =
      hs.head?.map OptExtHeader.headerValue := by
  rcases List.eq_nil_or_concat hs with rfl | ⟨xs, x, rfl⟩
  · rfl
  · rw [List.concat_eq_append, setLastOpt, List.dropLast_concat, List.getLast?_concat]
    cases xs <;> rfl

lemma addOptExtensionHeader_head (h : OptExtHeader) (hs : List OptExtHeader) (src : OptExtHeader)
    (pduType : ℕ) : (addOptExtensionHeader (h :: hs) (some src) pduType).head?.map
      OptExtHeader.headerValue = some h.headerValue := by
  simp only [addOptExtensionHeader]
  split_ifs
  · rfl
  · rw [setLastOpt_head]
    have hne := setLastOpt_head (h :: hs) src.headerType
    cases hl : setLastOpt (h :: hs) src.headerType with
    | nil => simp [hl] at hne
    | cons x xs => simpa [hl] using hne

@[simp] lemma addToPduGroup_opt (n : EnPduNode) (g : PduGroup) (l : LabelType) (size : ℕ) :
    (addToPduGroup n g l size).optExtHeaderInfo = g.optExtHeaderInfo := by
  simp only [addToPduGroup]
  split_ifs <;> rfl

@[simp] lemma addToPduGroup_flag (n : EnPduNode) (g : PduGroup) (l : LabelType) (size : ℕ) :
    (addToPduGroup n g l size).fragmentFlag = n.fragmentFlag := by
  simp only [addToPduGroup]
  split_ifs <;> rfl

@[simp] lemma addToPduGroup_id (n : EnPduNode) (g : PduGroup) (l : LabelType) (size : ℕ) :
    (addToPduGroup n g l size).fragmentID = n.fragmentID := by
  simp only [addToPduGroup]
  split_ifs <;> rfl

lemma updatePduGroup_identity (n : EnPduNode) (g : PduGroup) (l : LabelType) (size : ℕ)
    (c : SequenceCounters) :
    let r := updatePduGroup n g l size c
    r.2 = c.after n ∧ r.1.fragmentFlag = n.fragmentFlag ∧ r.1.fragmentID = n.fragmentID ∧
      (n.fragmentFlag = true → (c.after n).timeSeq n.fragmentSeq < 65536 →
        (r.1.timeSeq = (c.after n).timeSeq n.fragmentSeq ∨
          g.optExtHeaderInfo ≠ [] ∧ r.1.timeSeq = g.timeSeq)) := by
  simp only [updatePduGroup, SequenceCounters.after, addToPduGroup_flag]
  refine ⟨trivial, ?_, ?_, ?_⟩
  · split_ifs <;> simp
  · split_ifs <;> simp
  · intro hf hlt
    simp only [hf, if_true] at hlt ⊢
    cases hg : g.optExtHeaderInfo with
    | nil =>
      left
      simp only [PduGroup.timeSeq, addToPduGroup_opt, hg, addOptExtensionHeader, fragSequenceHeader,
        setLastOpt, extHeaderMaxNum]
      simp only [List.length_nil, zero_add, List.dropLast_nil, List.getLast?_nil, Option.toList_none,
        List.map_nil, List.append_nil, List.nil_append, List.dropLast_singleton,
        List.getLast?_singleton, Option.toList_some, List.map_cons]
      rw [if_neg (by norm_num)]
      simp only [List.head?_cons, Option.map_some, Option.getD_some]
      rw [show List.take 2 (be16 _) = be16 _ from rfl, beValue_be16]
      exact u16_of_lt hlt
    | cons h hs =>
      refine .inr ⟨by simp, ?_⟩
      have hhead := addOptExtensionHeader_head h hs (fragSequenceHeader
        ((c.enter n.fragmentID).timeSeq n.fragmentSeq) (addToPduGroup n g l size).protocolType)
        (addToPduGroup n g l size).protocolType
      simp only [PduGroup.timeSeq, addToPduGroup_opt, hg]
      have hmap : ∀ o : Option OptExtHeader, o.map (fun h => beValue h.headerValue) =
          (o.map OptExtHeader.headerValue).map beValue := by
        intro o
        cases o <;> rfl
      rw [hmap, hhead]
      rfl

def EnPduNode.OfNumber (k : ℕ) (n : EnPduNode) : Prop :=
  n.fragmentFlag = true → 0 < k ∧ n.fragmentID = numberedID k ∧ n.fragmentSeq < 8

/-- A group that carries the identity of fragment `seq` of the `k`-th fragmentation. -/
structure PduGroup.Carries (k seq : ℕ) (g : PduGroup) : Prop where
  pos : 0 < k
  id_eq : g.fragmentID = numberedID k
  timeSeq_eq : g.timeSeq = 8 * numberedStamp k + seq
  seq_lt : seq < 8

lemma SequenceCounters.Counted.after_same {k : ℕ} {c : SequenceCounters} (h : c.Counted k)
    {n : EnPduNode} (hn : n.OfNumber k) : c.after n = c := by
  cases hf : n.fragmentFlag with
  | false => simp [after, hf]
  | true =>
    obtain ⟨hk, hid, -⟩ := hn hf
    rw [after, if_pos hf, hid, h.enter_same hk]

lemma SequenceCounters.Counted.after_next {k : ℕ} {c : SequenceCounters} (h : c.Counted k)
    {n : EnPduNode} (hn : n.OfNumber (k + 1)) (hf : n.fragmentFlag = true) :
    (c.after n).Counted (k + 1) := by
  obtain ⟨-, hid, -⟩ := hn hf
  rw [after, if_pos hf, hid]
  exact h.enter_next

/-- After `k` fragmentations: the last one is fetched, or it is under way and has at most 8
fragments. -/
structure Fragments.Underway (k : ℕ) (s : Fragments) : Prop where
  last : s.lastFragmentID = numberedID k
  state : s.Drained ∨ (0 < k ∧ s.Pending (numberedID k) ∧
    (s.fragmentBuffer (numberedID k)).fragmentInfo.totalNum ≤ 8)

namespace Fragments

variable {s : Fragments} {k : ℕ}

lemma advance_done {id : ℕ} (hq : s.fragmentIDQueue.HoldsOnly id)
    (hother : ∀ i < 256, i ≠ id → (s.fragmentBuffer i).used = false) (hlast : s.lastFragmentID < 256)
    (hdone : (s.fragmentBuffer id).fragmentInfo.totalNum ≤
      u8 ((s.fragmentBuffer id).fragmentInfo.transferedNum + 1)) : (s.advance id).Drained := by
  simp only [advance, hdone, if_true]
  refine ⟨hq.release, ?_, hlast⟩
  intro i hi
  by_cases hne : i = id
  · simp [hne]
  · simpa [hne] using hother i hi hne

lemma advance_totalNum (id : ℕ) :
    ((s.advance id).fragmentBuffer id).fragmentInfo.totalNum =
      (s.fragmentBuffer id).fragmentInfo.totalNum := by
  simp only [advance]
  split_ifs <;> simp

lemma Underway.fetch (h : s.Underway k) (conf : AppConf) (node : EnPduNode) :
    (fetchPduFragment conf node s).fragments.Underway k ∧
      (0 ≤ (fetchPduFragment conf node s).ret →
        (fetchPduFragment conf node s).node.OfNumber k) := by
  rcases h.state with hd | ⟨hk, hp, h8⟩
  · obtain ⟨hs, hret⟩ := fetchPduFragment_drained conf node hd
    rw [hs]
    exact ⟨h, fun hret' => absurd hret (not_lt.mpr hret')⟩
  · rw [fetchPduFragment_pending conf node hp]
    have hlt := hp.transfered
    refine ⟨⟨?_, ?_⟩, fun _ _ => ⟨hk, ?_, ?_⟩⟩
    · rw [advance_last_eq, h.last]
    · by_cases hlast : (s.fragmentBuffer (numberedID k)).fragmentInfo.transferedNum + 1 =
          (s.fragmentBuffer (numberedID k)).fragmentInfo.totalNum
      · exact .inl (hp.advance_last hlast)
      · refine .inr ⟨hk, (hp.advance_more (by omega)).1, ?_⟩
        rw [advance_totalNum]
        exact h8
    · exact u8_of_lt (numberedID_lt k)
    · change (s.fragmentBuffer (numberedID k)).fragmentInfo.transferedNum < 8
      omega

lemma Drained.fetch_adopt (hd : s.Drained) {id : ℕ} (hid : id < 256) {b : FragmentBuffer}
    (hused : b.used = true) (htr : b.fragmentInfo.transferedNum = 0) (conf : AppConf)
    (node : EnPduNode) : fetchPduFragment conf node (s.adopt id b) =
      ⟨(s.adopt id b).advance id, b.fragmentNode id .s b.fragmentInfo.startSize node, id⟩ := by
  have hbuf : (s.adopt id b).fragmentBuffer id = b := by simp [Fragments.adopt]
  have hqueue : (s.adopt id b).fragmentIDQueue.HoldsOnly id := hd.queue.push hid
  have hget : getFragmentID (s.adopt id b).fragmentIDQueue = id := by
    simp [getFragmentID, hqueue.getElement]
  have hvalid := conf.valid_of_id id (by omega) (by omega)
  have hnext : b.fragmentInfo.nextFragment = some (.s, b.fragmentInfo.startSize) := by
    simp [FragmentInfo.nextFragment, htr]
  simp only [fetchPduFragment, hget, hvalid, Int.toNat_natCast, hbuf, hused, hnext,
    Bool.false_eq_true, if_false, if_true]

lemma Drained.advance_adopt (hd : s.Drained) {id : ℕ} (hid : id < 256) {b : FragmentBuffer}
    (hused : b.used = true) (htr : b.fragmentInfo.transferedNum = 0)
    (h8 : b.fragmentInfo.totalNum ≤ 8) :
    ((s.adopt id b).advance id).Drained ∨ ((s.adopt id b).advance id).Pending id := by
  have hbuf : (s.adopt id b).fragmentBuffer id = b := by simp [Fragments.adopt]
  have hu : u8 (b.fragmentInfo.transferedNum + 1) = 1 := by rw [htr]; rfl
  by_cases hone : b.fragmentInfo.totalNum ≤ 1
  · refine .inl (advance_done (hd.queue.push hid) ?_ hid (by rw [hbuf, hu]; exact hone))
    intro i hi hne
    simpa [Fragments.adopt, hne] using hd.unused i hi
  · have hp : (s.adopt id b).Pending id := hd.adopt hid hused (by omega) (by omega)
    exact .inr (hp.advance_more (by rw [hbuf]; omega)).1

/-- A fragmentation that begins when no other is under way gets the next number, unless
`run_fragment` refuses it: then nothing changes. -/
lemma Underway.fragment (h : s.Underway k) (hd : s.Drained) (conf : AppConf) (bNewFrame : Bool)
    (maxPayload usable : ℕ) (node : EnPduNode) :
    let f := fetchPduFragment conf node (doFragment bNewFrame maxPayload usable node s).1
    (f.fragments = s ∧ f.node = node) ∨
      ((f.fragments.fragmentBuffer f.fragments.lastFragmentID).fragmentInfo.totalNum ≤ 8 →
        f.fragments.Underway (k + 1) ∧ f.node.OfNumber (k + 1) ∧ f.node.fragmentFlag = true) := by
  obtain ⟨id, halloc, hid, hnext⟩ := allocateFragmentID_drained hd
  have hnum : id = numberedID (k + 1) := by
    rw [hnext, h.last, numberedID, numberedID]
    omega
  simp only [doFragment, runFragment, halloc]
  split_ifs with hzero
  · obtain ⟨hs, hret⟩ := fetchPduFragment_drained conf node hd
    refine .inl ⟨hs, ?_⟩
    obtain ⟨r, -, hf⟩ | ⟨i, kind, size, -, -, hf⟩ := fetchPduFragment_cases conf node s
    · rw [hf]
    · rw [hf] at hret
      exact absurd hret (by simp)
  · right
    rw [hd.fetch_adopt hid rfl rfl]
    generalize hb : FragmentBuffer.mk true _ _ = b
    have hused : b.used = true := by rw [← hb]
    have htr : b.fragmentInfo.transferedNum = 0 := by rw [← hb]; rfl
    have hbuf : (s.adopt id b).fragmentBuffer id = b := by simp [Fragments.adopt]
    have hlast : ((s.adopt id b).advance id).lastFragmentID = id := advance_last_eq _ _
    simp only [hlast, advance_totalNum, hbuf]
    intro h8
    refine ⟨⟨hlast.trans hnum, ?_⟩, fun _ => ⟨by omega, ?_, ?_⟩, rfl⟩
    · rw [← hnum, advance_totalNum, hbuf]
      exact (hd.advance_adopt hid hused htr h8).imp_right fun hp => ⟨by omega, hp, h8⟩
    · rw [← hnum]
      exact u8_of_lt hid
    · change b.fragmentInfo.transferedNum < 8
      omega

end Fragments

namespace Sender

variable {env : SendEnv} {conf : AppConf} {s : Sender} {k : ℕ}

/-- `using_pdu` is in the group, with its identity. -/
structure Grouped (k : ℕ) (s : Sender) : Prop where
  counted : s.counters.Counted k
  node : s.usingPdu.OfNumber k
  flag : s.pduGroup.fragmentFlag = s.usingPdu.fragmentFlag
  carries : s.usingPdu.fragmentFlag = true → s.pduGroup.Carries k s.usingPdu.fragmentSeq

lemma grouped_update (label : LabelType × ℕ) (hc : (s.counters.after s.usingPdu).Counted k)
    (hn : s.usingPdu.OfNumber k) (hg : s.pduGroup = .zero ∨ s.Grouped k) :
    (s.updatePduGroup label).Grouped k := by
  obtain ⟨hcount, hflag, hid, htime⟩ := updatePduGroup_identity s.usingPdu s.pduGroup label.1 label.2
    s.counters
  refine ⟨?_, hn, hflag, ?_⟩
  · simp only [updatePduGroup]
    rw [hcount]
    exact hc
  · intro hf
    obtain ⟨hk, hnum, hseq⟩ := hn hf
    have htime' := hc.timeSeq hk hseq
    have hstamp : numberedStamp k < 8192 := Nat.mod_lt _ (by norm_num)
    refine ⟨hk, hid.trans hnum, ?_, hseq⟩
    rcases htime hf (by rw [htime']; omega) with ht | ⟨hne, ht⟩
    · exact ht.trans htime'
    · rcases hg with hz | hgr
      · exact absurd (by rw [hz]; rfl) hne
      · exact ht.trans (hgr.carries hf).timeSeq_eq

structure Identified (k : ℕ) (s : Sender) : Prop where
  group : s.pduGroup = .zero
  counted : s.counters.Counted k
  underway : s.fragments.Underway k

/-- A fragmentation begins only when the last one is fetched, and plans at most 8 fragments. -/
def OneAtATime (env : SendEnv) (conf : AppConf) (readOk : ReadOk) (s : Sender) : Prop :=
  s.EntersFragmentProcess env conf readOk →
    (∀ i < 256, (s.fragments.fragmentBuffer i).used = false) ∧
      let f := (s.encapsulateIslBb env conf readOk).fragments
      (f.fragmentBuffer f.lastFragmentID).fragmentInfo.totalNum ≤ 8

lemma grouped_entered (h : s.Identified k) (hn : s.usingPdu.OfNumber k) : s.entered.Grouped k := by
  refine grouped_update (s := s.openFrame) _ ?_ hn (.inl h.group)
  change (s.counters.after s.usingPdu).Counted k
  rw [h.counted.after_same hn]
  exact h.counted

lemma Grouped.reopened (h : s.Grouped k) : (s.reopened env conf).Grouped k := by
  let t : Sender :=
    { s.makeFrame env conf with framePayload := initFramePayload s.pduGroup.modcod }
  refine grouped_update (s := t.updateLastLabel) (t.decideLabel true) ?_ h.node
    (.inr ⟨h.counted, h.node, h.flag, h.carries⟩)
  change (s.counters.after s.usingPdu).Counted k
  rw [h.counted.after_same h.node]
  exact h.counted

lemma Grouped.splitOff (h : s.Grouped k) (hu : s.fragments.Underway k) (hd : s.fragments.Drained)
    (label : LabelType × ℕ) (nullFrame : Bool)
    (h8 : ((s.split conf nullFrame).fragments.fragmentBuffer
      (s.split conf nullFrame).fragments.lastFragmentID).fragmentInfo.totalNum ≤ 8) :
    ∃ k', (k' = k ∨ k' = k + 1) ∧ (s.splitOff conf label nullFrame).Grouped k' ∧
      (s.splitOff conf label nullFrame).fragments.Underway k' := by
  have hsplit := hu.fragment hd conf nullFrame s.framePayload.maxPayload
    s.framePayload.usablePayload s.usingPdu
  rcases hsplit with ⟨hf, hn⟩ | hnext
  · refine ⟨k, .inl rfl, ?_, by rw [← hf] at hu; exact hu⟩
    have hnode : (s.split conf nullFrame).usingPdu.OfNumber k := by
      rw [show (s.split conf nullFrame).usingPdu = s.usingPdu from hn]
      exact h.node
    refine grouped_update (s := { s.split conf nullFrame with pduGroup := .zero }) label ?_ hnode
      (.inl rfl)
    change (s.counters.after (s.split conf nullFrame).usingPdu).Counted k
    rw [h.counted.after_same hnode]
    exact h.counted
  · obtain ⟨hu', hnode, hflag⟩ := hnext h8
    refine ⟨k + 1, .inr rfl, ?_, hu'⟩
    refine grouped_update (s := { s.split conf nullFrame with pduGroup := .zero }) label ?_ hnode
      (.inl rfl)
    exact h.counted.after_next hnode hflag

variable {readOk : ReadOk}

lemma Grouped.packs (h : s.Grouped k) (hu : s.fragments.Underway k) (hne : s.pduGroup.pduNum ≠ 0) :
    s.updateGseGroup.Identified k :=
  ⟨updateGseGroup_group s fun h0 => absurd h0 hne, h.counted, hu⟩

/-- A call that packs `using_pdu` keeps the number or takes the next one. -/
def LeavesIdentified (k : ℕ) (t : Sender) (g : PduGroup) : Prop :=
  ∃ k', (k' = k ∨ k' = k + 1) ∧ t.Identified k' ∧
    (g.fragmentFlag = true → g.Carries k' t.usingPdu.fragmentSeq)

lemma Grouped.splitOff_identified (h : s.Grouped k) (hu : s.fragments.Underway k)
    (hd : s.fragments.Drained) (label : LabelType × ℕ) (nullFrame : Bool)
    (h8 : ((s.split conf nullFrame).fragments.fragmentBuffer
      (s.split conf nullFrame).fragments.lastFragmentID).fragmentInfo.totalNum ≤ 8) :
    LeavesIdentified k ((s.splitOff conf label nullFrame).updateGseGroup.makeFrame env conf)
      (s.splitOff conf label nullFrame).pduGroup := by
  obtain ⟨k', hk', hg, hu'⟩ := h.splitOff hu hd label nullFrame h8
  have h1 := splitOff_pduNum conf label nullFrame s
  have hid := hg.packs hu' (by omega)
  refine ⟨k', hk', ⟨hid.group, hid.counted, hid.underway⟩, fun hflag => ?_⟩
  exact hg.carries (hg.flag ▸ hflag)

lemma OneAtATime.drained (hone : s.OneAtATime env conf readOk) (h : s.Identified k)
    (henter : s.EntersFragmentProcess env conf readOk) : s.fragments.Drained := by
  rcases h.underway.state with hd | ⟨-, hp, -⟩
  · exact hd
  · have hunused := (hone henter).1 _ (numberedID_lt k)
    rw [hp.used] at hunused
    cases hunused

namespace Identified

lemma fits_identified (h : s.Identified k) (hn : s.usingPdu.OfNumber k) :
    LeavesIdentified k (s.entered.updateLastLabel.updateGseGroup.closeFull env conf)
      s.entered.pduGroup := by
  have h1 := entered_pduNum h.group
  have hgr := grouped_entered h hn
  have hid : s.entered.updateLastLabel.updateGseGroup.Identified k :=
    Grouped.packs (s := s.entered.updateLastLabel) ⟨hgr.counted, hgr.node, hgr.flag, hgr.carries⟩
      h.underway (by change s.entered.pduGroup.pduNum ≠ 0; omega)
  refine ⟨k, .inl rfl, ?_, fun hflag => ?_⟩
  · simp only [closeFull]
    split_ifs
    · exact ⟨hid.group, hid.counted, hid.underway⟩
    · exact hid
  · have hcarry := hgr.carries (hgr.flag ▸ hflag)
    simp only [closeFull]
    split_ifs <;> exact hcarry

lemma reopens_identified (h : s.Identified k) (hn : s.usingPdu.OfNumber k) :
    LeavesIdentified k (s.entered.reopened env conf).updateGseGroup
      (s.entered.reopened env conf).pduGroup := by
  have h2 := reopened_pduNum env conf (entered_pduNum h.group)
  have hgr : (s.entered.reopened env conf).Grouped k := (grouped_entered h hn).reopened
  refine ⟨k, .inl rfl, hgr.packs h.underway (by omega), fun hflag => ?_⟩
  exact hgr.carries (hgr.flag ▸ hflag)

lemma call (h : s.Identified k) (hn : s.usingPdu.OfNumber k)
    (hok : readOk ≠ .failedFetchModcod) (hone : s.OneAtATime env conf readOk) :
    ∃ g, (s.encapsulateIslBb env conf readOk).packed = s.packed ++ [g] ∧
      LeavesIdentified k (s.encapsulateIslBb env conf readOk) g := by
  have hgr := grouped_entered h hn
  obtain ⟨g, hpacking, hpacked⟩ := encapsulateIslBb_packing env conf hok h.group
  refine ⟨g, hpacked, ?_⟩
  have hplan := fun henter => (hone henter).2
  generalize s.encapsulateIslBb env conf readOk = t at hpacking hplan
  generalize s.closing env conf readOk = closed at hpacking
  cases hpacking with
  | fits hf => exact h.fits_identified hn
  | reopens hf hs hfit => exact h.reopens_identified hn
  | reopensAndSplits hf hs hfit ht =>
    have henter : s.EntersFragmentProcess env conf readOk := ⟨hok, hf, fun _ => hfit⟩
    subst ht
    exact hgr.reopened.splitOff_identified h.underway (hone.drained h henter) _ true (hplan henter)
  | splits hf hs =>
    have henter : s.EntersFragmentProcess env conf readOk := ⟨hok, hf, fun h => absurd h hs⟩
    have hgr' : s.entered.updateLastLabel.Grouped k := ⟨hgr.counted, hgr.node, hgr.flag, hgr.carries⟩
    exact hgr'.splitOff_identified h.underway (hone.drained h henter) s.label _ (hplan henter)

end Identified

end Sender

/-- A fragment handed to `encapsulate_gse`: which fragmentation it is of, its sequence number, its
group. -/
structure SentFragment where
  number : ℕ
  seq : ℕ
  group : PduGroup

/-- The loop with the number of fragmentations so far, the number of the one that filled each ID
last, and the fragments handed over. -/
structure Numbered where
  loop : Loop
  count : ℕ
  owner : ℕ → ℕ
  log : List SentFragment

namespace Numbered

def initial : Numbered := ⟨.initial, 0, fun _ => 0, []⟩

/-- `run_fragment` moves `last_FragmentID` when it fills a buffer. -/
def next (env : SendEnv) (conf : AppConf) (n : Numbered) (turn : Sender.Turn) : Numbered :=
  let s := n.loop.sender
  let s' := (n.loop.next env conf turn).sender
  let began := s'.fragments.lastFragmentID ≠ s.fragments.lastFragmentID
  let count := if began then n.count + 1 else n.count
  let owner :=
    if began then Function.update n.owner s'.fragments.lastFragmentID count else n.owner
  { loop := n.loop.next env conf turn
    count := count
    owner := owner
    log := n.log ++ ((s'.packed.drop s.packed.length).filter fun g => g.fragmentFlag).map fun g =>
      ⟨owner g.fragmentID, s'.usingPdu.fragmentSeq, g⟩ }

def step (env : SendEnv) (conf : AppConf) (n : Numbered) (turn : Sender.Turn) :
    Option (Numbered × Unit) := some (n.next env conf turn, ())

abbrev Reachable (env : SendEnv) (conf : AppConf) : Numbered → Prop :=
  Reached (step env conf)
    (fun n turn => ∀ t readOk, n.loop.call conf turn = some (t, readOk) →
      t.OneAtATime env conf readOk) initial

structure Holds (n : Numbered) : Prop where
  identified : n.loop.sender.Identified n.count
  node : n.loop.point = .fragment → n.loop.sender.usingPdu.OfNumber n.count
  owner : 0 < n.count → n.owner (numberedID n.count) = n.count
  log : ∀ e ∈ n.log, e.group.Carries e.number e.seq

variable {env : SendEnv} {conf : AppConf} {n : Numbered}

lemma holds_initial : Holds initial where
  identified :=
    ⟨rfl, SequenceCounters.counted_initial, ⟨rfl, .inl Fragments.drained_initial⟩⟩
  node h := by cases h
  owner h := absurd h (lt_irrefl 0)
  log e he := by cases he

lemma Holds.count_next {k' : ℕ} (h : n.Holds) {turn : Sender.Turn} (hk' : k' = n.count ∨ k' = n.count + 1)
    (hid : (n.loop.next env conf turn).sender.Identified k') :
    (n.next env conf turn).count = k' ∧
      (0 < k' → (n.next env conf turn).owner (numberedID k') = k') := by
  have hlast := h.identified.underway.last
  have hlast' := hid.underway.last
  rcases hk' with rfl | rfl
  · simp only [next, hlast, hlast', ne_eq, not_true, if_false, true_and]
    exact h.owner
  · have hne : ¬ numberedID (n.count + 1) = numberedID n.count := by
      simp only [numberedID]
      omega
    simp [next, hlast, hlast', hne]

lemma Holds.extend (h : n.Holds) {turn : Sender.Turn} (k' : ℕ) (gs : List PduGroup)
    (hk' : k' = n.count ∨ k' = n.count + 1)
    (hid : (n.loop.next env conf turn).sender.Identified k')
    (hnode : (n.loop.next env conf turn).point = .fragment →
      (n.loop.next env conf turn).sender.usingPdu.OfNumber k')
    (hpacked : (n.loop.next env conf turn).sender.packed = n.loop.sender.packed ++ gs)
    (hgs : ∀ g ∈ gs, g.fragmentFlag = true →
      g.Carries k' (n.loop.next env conf turn).sender.usingPdu.fragmentSeq) :
    (n.next env conf turn).Holds := by
  obtain ⟨hcount, howner⟩ := h.count_next hk' hid
  refine ⟨by rw [hcount]; exact hid, by rw [hcount]; exact hnode, by rw [hcount]; exact howner, ?_⟩
  intro e he
  have hlog : (n.next env conf turn).log = n.log ++ (gs.filter fun g => g.fragmentFlag).map fun g =>
      ⟨(n.next env conf turn).owner g.fragmentID,
        (n.loop.next env conf turn).sender.usingPdu.fragmentSeq, g⟩ := by
    simp only [Numbered.next, hpacked, List.drop_left]
  rw [hlog, List.mem_append] at he
  rcases he with he | he
  · exact h.log e he
  · obtain ⟨g, hg, rfl⟩ := List.mem_map.mp he
    obtain ⟨hmem, hflag⟩ := List.mem_filter.mp hg
    have hcarry := hgs g hmem hflag
    have hown : (n.next env conf turn).owner g.fragmentID = k' := by
      rw [hcarry.id_eq]
      exact howner hcarry.pos
    simp only [hown]
    exact hcarry

lemma Holds.before_call (h : n.Holds) {turn : Sender.Turn} {t : Sender} {readOk : Sender.ReadOk}
    (hcall : n.loop.call conf turn = some (t, readOk)) :
    t.Identified n.count ∧ t.packed = n.loop.sender.packed ∧
      (readOk ≠ .failedFetchModcod → t.usingPdu.OfNumber n.count) := by
  obtain ⟨⟨point, s⟩, count, owner, log⟩ := n
  have hs := h.identified
  cases point with
  | fetch => simp [Loop.call] at hcall
  | fragment =>
    obtain ⟨rfl, -⟩ := Prod.mk.inj (Option.some.inj (show some _ = _ from hcall))
    exact ⟨hs, rfl, fun _ => h.node rfl⟩
  | whole =>
    cases turn with
    | pdu m =>
      obtain ⟨rfl, -⟩ := Prod.mk.inj (Option.some.inj (show some _ = _ from hcall))
      exact ⟨⟨hs.group, hs.counted, hs.underway⟩, rfl, fun _ hf => by cases hf⟩
    | idle =>
      obtain ⟨rfl, rfl⟩ := Prod.mk.inj (Option.some.inj (show some _ = _ from hcall))
      exact ⟨hs, rfl, fun hok => absurd rfl hok⟩

lemma Holds.next (h : n.Holds) {turn : Sender.Turn}
    (ht : ∀ t readOk, n.loop.call conf turn = some (t, readOk) → t.OneAtATime env conf readOk) :
    (n.next env conf turn).Holds := by
  cases hcall : n.loop.call conf turn with
  | none =>
    have hnext : n.loop.next env conf turn =
        ⟨if (n.loop.sender.getFragPkt conf).1 then .fragment else .whole,
          (n.loop.sender.getFragPkt conf).2⟩ := by
      simp only [Loop.next, hcall]
    have hid := h.identified
    obtain ⟨hu, hnode⟩ := hid.underway.fetch conf .zero
    refine h.extend n.count [] (.inl rfl) ?_ ?_ ?_ (by simp)
    · rw [hnext]
      exact ⟨hid.group, hid.counted, hu⟩
    · rw [hnext]
      intro hp
      apply hnode
      by_contra hret
      simp [Sender.getFragPkt, hret] at hp
    · rw [hnext, List.append_nil]
      rfl
  | some r =>
    obtain ⟨t, readOk⟩ := r
    have hnext : n.loop.next env conf turn = ⟨.fetch, t.encapsulateIslBb env conf readOk⟩ := by
      simp only [Loop.next, hcall]
    obtain ⟨hid, hpk, hnode⟩ := h.before_call hcall
    by_cases hok : readOk = .failedFetchModcod
    · have hforce : t.encapsulateIslBb env conf readOk = t.forceSend env conf := by
        simp only [Sender.encapsulateIslBb, if_pos hok]
      rw [hforce] at hnext
      refine h.extend n.count [] (.inl rfl) ?_ (by rw [hnext]; simp) ?_ (by simp)
      · rw [hnext]
        simp only [Sender.forceSend]
        split_ifs
        · exact ⟨Sender.updateGseGroup_group t fun _ => hid.group, hid.counted, hid.underway⟩
        · exact hid
      · rw [hnext, List.append_nil, ← hpk]
        exact Sender.packed_forceSend env conf hid.group
    · obtain ⟨g, hpacked, k', hk', hid', hcarry⟩ := hid.call (hnode hok) hok (ht t readOk hcall)
      refine h.extend k' [g] hk' (by rw [hnext]; exact hid') (by rw [hnext]; simp)
        (by rw [hnext, ← hpk]; exact hpacked) ?_
      intro g' hg' hflag
      obtain rfl := List.mem_singleton.mp hg'
      rw [hnext]
      exact hcarry hflag

lemma Reachable.holds (h : Reachable env conf n) : n.Holds := by
  refine Reached.invariant Holds holds_initial ?_ h
  intro n turn n' _ hn ht hstep
  obtain ⟨rfl, -⟩ := Prod.mk.inj (Option.some.inj hstep)
  exact hn.next ht

end Numbered

/-- A PDU of 2500 bytes after its START has gone out, at the point `fetch`. -/
def splitLoop : Numbered :=
  (Numbered.initial.next sampleEnv sampleConf .idle).next sampleEnv sampleConf (.pdu (zeroMbuf 2500))

def splitWhole : Numbered :=
  (splitLoop.next sampleEnv sampleConf .idle).next sampleEnv sampleConf .idle

end Fengtai.Send
