import Fengtai.Send.Steps

set_option autoImplicit false

/-! The room left in a frame over the turns of the encapsulation loop: what fits, what is
fragmented, and how a fragmentation is drained. -/

namespace Fengtai.Send

open Library.Words Receive

lemma EnPduNode.lengths_whole {n : EnPduNode} (hf : n.fragmentFlag = false) (h1 : 1 ≤ n.pduSize)
    (h2 : n.pduSize < 60000) : n.dataField = n.pduSize ∧ n.packetLength = n.pduSize + 4 := by
  have hd : n.dataField = n.pduSize := by
    simp only [dataField, hf, Bool.false_eq_true, false_and, if_false, Nat.add_zero]
    exact u16_of_lt (by omega)
  refine ⟨hd, ?_⟩
  have hpos : 0 < n.pduSize := h1
  simp only [packetLength, headerSizes, hd, hf, calcGseVariableHeaderSize,
    GseVariableHeaderSize.total, LabelType.size, sizeofGseFixedHeader]
  simp [hpos]
  omega

lemma EnPduNode.lengths_start {n : EnPduNode} (hf : n.fragmentFlag = true)
    (ht : n.fragmentType = .s) (h : n.pduSize < 60000) :
    n.dataField = n.pduSize + 4 ∧ n.packetLength = n.pduSize + 11 := by
  have hd : n.dataField = n.pduSize + 4 := by
    simp only [dataField, hf, ht]
    exact u16_of_lt (by simp; omega)
  refine ⟨hd, ?_⟩
  simp only [packetLength, headerSizes, hd, hf, ht, calcGseVariableHeaderSize,
    GseVariableHeaderSize.total, LabelType.size, sizeofGseFixedHeader]
  simp
  omega

lemma EnPduNode.lengths_middle {n : EnPduNode} (hf : n.fragmentFlag = true)
    (ht : n.fragmentType = .m) (h : n.pduSize < 60000) :
    n.dataField = n.pduSize + 4 ∧ n.packetLength = n.pduSize + 9 := by
  have hd : n.dataField = n.pduSize + 4 := by
    simp only [dataField, hf, ht]
    exact u16_of_lt (by simp; omega)
  refine ⟨hd, ?_⟩
  simp only [packetLength, headerSizes, hd, hf, ht, calcGseVariableHeaderSize,
    GseVariableHeaderSize.total, LabelType.size, sizeofGseFixedHeader]
  simp
  omega

/-- The CRC brings an end size that has wrapped back to where it came from. -/
lemma EnPduNode.lengths_last {n : EnPduNode} (hf : n.fragmentFlag = true)
    (ht : n.fragmentType = .e) {e : ℕ} (he : e < 60000) (h : n.pduSize = sub16 e 4) :
    n.dataField = e + 4 ∧ n.packetLength = e + 9 := by
  have hd : n.dataField = e + 4 := by
    simp only [dataField, hf, ht, h, u16, sub16]
    simp
    omega
  refine ⟨hd, ?_⟩
  simp only [packetLength, headerSizes, hd, hf, ht, calcGseVariableHeaderSize,
    GseVariableHeaderSize.total, LabelType.size, sizeofGseFixedHeader]
  simp
  omega

lemma middleBytes_cases (payload : ℕ) :
    (payload ≤ gseMaxSize ∧ middleBytes payload = payload - 15) ∨
      (gseMaxSize < payload ∧ middleBytes payload = payload / 2 - 15) := by
  by_cases h : payload ≤ gseMaxSize
  · exact .inl ⟨h, if_pos h⟩
  · exact .inr ⟨not_le.mp h, if_neg h⟩

/-- A modcod with a payload, and a padding threshold that every frame can meet. -/
structure AppConf.Configured (conf : AppConf) : Prop where
  modcod_ge : 1 ≤ conf.modcode
  modcod_le : conf.modcode ≤ 28
  threshold_ge : 14 ≤ conf.paddingThreshold
  threshold_le : conf.paddingThreshold ≤ 1991

def AppConf.payload (conf : AppConf) : ℕ := mapModcodPayload conf.modcode

lemma AppConf.Configured.payload_bounds {conf : AppConf} (h : conf.Configured) :
    1991 ≤ conf.payload ∧ conf.payload ≤ 7264 := mapModcodPayload_bounds h.modcod_ge h.modcod_le

lemma AppConf.Configured.threshold_le_payload {conf : AppConf} (h : conf.Configured) :
    conf.paddingThreshold ≤ conf.payload :=
  h.threshold_le.trans h.payload_bounds.1

structure FramePayload.Balanced (conf : AppConf) (p : FramePayload) : Prop where
  max_eq : p.maxPayload = conf.payload
  sum_eq : p.usedPayload + p.usablePayload = conf.payload

lemma FramePayload.Balanced.update {conf : AppConf} {p : FramePayload} (h : p.Balanced conf)
    (hc : conf.Configured) {n : ℕ} (hn : n ≤ p.usablePayload) :
    (p.update n).Balanced conf ∧ (p.update n).usablePayload = p.usablePayload - n := by
  obtain ⟨-, hp⟩ := hc.payload_bounds
  have hsum := h.sum_eq
  have hsub : sub16 p.usablePayload n = p.usablePayload - n := sub16_of_le hn (by omega)
  have hadd : u16 (p.usedPayload + n) = p.usedPayload + n := u16_of_lt (by omega)
  refine ⟨⟨h.max_eq, ?_⟩, hsub⟩
  simp only [FramePayload.update, hsub, hadd]
  omega

namespace Sender

variable (env : SendEnv) {conf : AppConf} {s : Sender}

structure Idle (conf : AppConf) (s : Sender) : Prop where
  group : s.pduGroup = .zero
  drained : s.fragments.Drained
  payload : s.framePayload = .zero ∨
    s.framePayload.Balanced conf ∧ conf.paddingThreshold ≤ s.framePayload.usablePayload

/-- Fragments of `id` are pending. The frame is empty, or holds one of two middle packets. -/
structure Draining (conf : AppConf) (id : ℕ) (s : Sender) : Prop where
  group : s.pduGroup = .zero
  pending : s.fragments.Pending id
  middle : (s.fragments.fragmentBuffer id).fragmentInfo.middleSize = middleBytes conf.payload
  last : ∃ e < middleBytes conf.payload,
    (s.fragments.fragmentBuffer id).fragmentInfo.endSize = sub16 e 4
  mac : (s.fragments.fragmentBuffer id).pduNode.macAddress = boardcastAddress
  modcod : (s.fragments.fragmentBuffer id).pduNode.modcod = conf.modcode
  begun : 1 ≤ (s.fragments.fragmentBuffer id).fragmentInfo.transferedNum
  payload : s.framePayload = .zero ∨
    s.framePayload.Balanced conf ∧ gseMaxSize < conf.payload ∧
      s.framePayload.usablePayload = conf.payload - (middleBytes conf.payload + 9)

lemma idle_initial : Idle conf .initial where
  group := rfl
  drained := Fragments.drained_initial
  payload := .inl rfl

def room (conf : AppConf) (s : Sender) : ℕ :=
  if s.framePayload.maxPayload = 0 then conf.payload else s.framePayload.usablePayload

lemma openFrame_payload (hc : conf.Configured) (hm : s.usingPdu.modcod = conf.modcode)
    (hp : s.framePayload = .zero ∨ s.framePayload.Balanced conf) :
    s.openFrame.framePayload.Balanced conf ∧
      s.openFrame.framePayload.usablePayload = s.room conf := by
  obtain ⟨hlow, -⟩ := hc.payload_bounds
  rcases hp with hz | hb
  · have hinit : s.openFrame.framePayload = initFramePayload conf.modcode := by
      simp [openFrame, hz, FramePayload.zero, hm]
    rw [hinit]
    exact ⟨⟨rfl, by simp [initFramePayload, AppConf.payload]⟩, by simp [room, hz,
      FramePayload.zero, initFramePayload, AppConf.payload]⟩
  · have hne : s.framePayload.maxPayload ≠ 0 := by
      rw [hb.max_eq]
      omega
    have hkeep : s.openFrame.framePayload = s.framePayload := by simp [openFrame, hne]
    rw [hkeep]
    exact ⟨hb, by simp [room, hne]⟩

@[simp] lemma pack_group (s : Sender) : s.pack.pduGroup = s.pduGroup := rfl
@[simp] lemma pack_fragments (s : Sender) : s.pack.fragments = s.fragments := rfl

lemma pack_payload (hd : s.usingPdu.dataField < 60000) :
    s.pack.framePayload = s.framePayload.update s.usingPdu.packetLength := by
  simp only [pack, EnPduNode.group_total hd]

lemma closeFull_payload (env : SendEnv) (conf : AppConf) (s : Sender) :
    (s.closeFull env conf).framePayload = .zero ∨
      (s.closeFull env conf).framePayload = s.framePayload ∧
        conf.paddingThreshold ≤ s.framePayload.usablePayload := by
  simp only [closeFull]
  split_ifs with hfull
  · exact .inl rfl
  · exact .inr ⟨rfl, not_lt.mp hfull⟩

lemma closeFull_rest (env : SendEnv) (conf : AppConf) (s : Sender) :
    (s.closeFull env conf).pduGroup = s.pduGroup ∧
      (s.closeFull env conf).fragments = s.fragments ∧
      (s.closeFull env conf).packed = s.packed ∧
      (s.closeFull env conf).usingPdu = s.usingPdu := by
  simp only [closeFull]
  split_ifs <;> exact ⟨rfl, rfl, rfl, rfl⟩

/-- What a call of `encapsulate_isl_bb` with a packet that fits leaves. -/
structure Packed (conf : AppConf) (s s' : Sender) : Prop where
  group : s'.pduGroup = .zero
  fragments : s'.fragments = s.fragments
  packed : ∃ t, s'.packed = s.packed ++ [s.usingPdu.group t]
  payload : s'.framePayload = .zero ∨
    s'.framePayload.Balanced conf ∧ conf.paddingThreshold ≤ s'.framePayload.usablePayload ∧
      s'.framePayload.usablePayload = s.room conf - s.usingPdu.packetLength
  sent : s.room conf - s.usingPdu.packetLength < conf.paddingThreshold → s'.framePayload = .zero

lemma encapsulateIslBb_packed (hc : conf.Configured) {readOk : ReadOk}
    (hok : readOk ≠ .failedFetchModcod) (hz : s.pduGroup = .zero)
    (hmac : s.usingPdu.macAddress = boardcastAddress) (hm : s.usingPdu.modcod = conf.modcode)
    (hd : s.usingPdu.dataField < 60000)
    (hp : s.framePayload = .zero ∨ s.framePayload.Balanced conf)
    (hfit : s.usingPdu.packetLength ≤ s.room conf) :
    Packed conf s (s.encapsulateIslBb env conf readOk) := by
  obtain ⟨hbal, hroom⟩ := openFrame_payload hc hm hp
  rw [← hroom] at hfit
  rw [encapsulateIslBb_fits env hok hz hmac hd hfit]
  obtain ⟨hbal', husable⟩ := hbal.update hc hfit
  obtain ⟨hg, hf, hk, -⟩ := closeFull_rest env conf s.openFrame.pack.updateLastLabel
  have hpay : s.openFrame.pack.updateLastLabel.framePayload =
      s.openFrame.framePayload.update s.usingPdu.packetLength := pack_payload (s := s.openFrame) hd
  rw [← hpay] at hbal' husable
  rw [hroom] at husable
  refine ⟨by rw [hg]; exact hz, by rw [hf]; rfl, ⟨_, by rw [hk]; rfl⟩, ?_, ?_⟩
  · rcases closeFull_payload env conf s.openFrame.pack.updateLastLabel with h | ⟨h, hthr⟩
    · exact .inl h
    · rw [h]
      exact .inr ⟨hbal', hthr, husable⟩
  · intro hlt
    rw [← husable] at hlt
    simp only [closeFull, if_pos hlt]
    rfl

/-- The next fragment of a fragmentation, as `get_frag_pkt` leaves it in `using_pdu`. -/
def fetched (id : ℕ) (s : Sender) : EnPduNode :=
  let b := s.fragments.fragmentBuffer id
  b.fragmentNode id (kindOf b.fragmentInfo.totalNum b.fragmentInfo.transferedNum)
    (b.fragmentInfo.sizeOf b.fragmentInfo.transferedNum) .zero

/-- `get_frag_pkt` when fragments of `id` are pending. -/
def takeFragment (id : ℕ) (s : Sender) : Sender :=
  { s with fragments := s.fragments.advance id, usingPdu := s.fetched id }

lemma Draining.getFragPkt {id : ℕ} (h : s.Draining conf id) :
    s.getFragPkt conf = (true, s.takeFragment id) := by
  simp only [Sender.getFragPkt, fetchPduFragment_pending conf .zero h.pending, takeFragment, fetched]
  simp

lemma Draining.lengths {id : ℕ} (h : s.Draining conf id) (hc : conf.Configured) :
    (s.fetched id).dataField ≤ middleBytes conf.payload + 4 ∧
      (s.fetched id).packetLength = (s.fetched id).dataField + 5 ∧
      ((s.fragments.fragmentBuffer id).fragmentInfo.transferedNum + 1 <
          (s.fragments.fragmentBuffer id).fragmentInfo.totalNum →
        (s.fetched id).dataField = middleBytes conf.payload + 4) := by
  obtain ⟨hlow, hhigh⟩ := hc.payload_bounds
  obtain ⟨-, -, hmid⟩ := middleSize_eq hlow hhigh
  obtain ⟨e, he, hend⟩ := h.last
  have hb := h.begun
  have hne : ¬ (s.fragments.fragmentBuffer id).fragmentInfo.transferedNum = 0 := by omega
  by_cases hl : (s.fragments.fragmentBuffer id).fragmentInfo.transferedNum + 1 =
      (s.fragments.fragmentBuffer id).fragmentInfo.totalNum
  · have htype : (s.fetched id).fragmentType = .e := by
      simp [fetched, FragmentBuffer.fragmentNode, kindOf, hne, hl]
    have hsize : (s.fetched id).pduSize = sub16 e 4 := by
      simp [fetched, FragmentBuffer.fragmentNode, FragmentInfo.sizeOf, hne, hl, hend]
    obtain ⟨hd, hp⟩ := EnPduNode.lengths_last rfl htype (by omega) hsize
    omega
  · have htype : (s.fetched id).fragmentType = .m := by
      simp [fetched, FragmentBuffer.fragmentNode, kindOf, hne, hl]
    have hsize : (s.fetched id).pduSize = middleBytes conf.payload := by
      simp [fetched, FragmentBuffer.fragmentNode, FragmentInfo.sizeOf, hne, hl, h.middle]
    obtain ⟨hd, hp⟩ := EnPduNode.lengths_middle rfl htype (by omega)
    omega

def drainStep (env : SendEnv) (conf : AppConf) (id : ℕ) (s : Sender) : Sender :=
  (s.takeFragment id).encapsulateIslBb env conf .succeedFetchFragment

def left (id : ℕ) (s : Sender) : ℕ :=
  (s.fragments.fragmentBuffer id).fragmentInfo.totalNum -
    (s.fragments.fragmentBuffer id).fragmentInfo.transferedNum

lemma Draining.room_eq {id : ℕ} (h : s.Draining conf id) (hc : conf.Configured) :
    (s.takeFragment id).room conf = conf.payload ∨
      gseMaxSize < conf.payload ∧
        (s.takeFragment id).room conf = conf.payload - (middleBytes conf.payload + 9) := by
  obtain ⟨hlow, -⟩ := hc.payload_bounds
  rcases h.payload with hz | ⟨hb, hbig, hu⟩
  · left
    simp [room, takeFragment, hz, FramePayload.zero]
  · right
    have hne : s.framePayload.maxPayload ≠ 0 := by
      rw [hb.max_eq]
      omega
    exact ⟨hbig, by simp only [room, takeFragment, if_neg hne, hu]⟩

lemma Draining.fetched_fits {id : ℕ} (h : s.Draining conf id) (hc : conf.Configured) :
    (s.takeFragment id).usingPdu.dataField < 60000 ∧
      (s.takeFragment id).usingPdu.packetLength ≤ (s.takeFragment id).room conf := by
  obtain ⟨hlow, hhigh⟩ := hc.payload_bounds
  obtain ⟨-, hm1, hm2⟩ := middleSize_eq hlow hhigh
  obtain ⟨hd, hp, -⟩ := h.lengths hc
  have hcases := middleBytes_cases conf.payload
  have hroom := h.room_eq hc
  simp only [gseMaxSize] at hcases hroom
  change (s.fetched id).dataField < 60000 ∧ (s.fetched id).packetLength ≤ _
  omega

lemma Draining.packed {id : ℕ} (h : s.Draining conf id) (hc : conf.Configured) :
    Packed conf (s.takeFragment id) (s.drainStep env conf id) := by
  obtain ⟨hd, hfits⟩ := h.fetched_fits hc
  exact encapsulateIslBb_packed env hc (by decide) h.group h.mac h.modcod hd
    (h.payload.imp_right And.left) hfits

lemma Draining.step {id : ℕ} (h : s.Draining conf id) (hc : conf.Configured) :
    (s.left id = 1 → Idle conf (s.drainStep env conf id)) ∧
      (1 < s.left id → Draining conf id (s.drainStep env conf id) ∧
        (s.drainStep env conf id).left id + 1 = s.left id) := by
  obtain ⟨hlow, hhigh⟩ := hc.payload_bounds
  obtain ⟨-, hm1, hm2⟩ := middleSize_eq hlow hhigh
  obtain ⟨-, hp, hmid⟩ := h.lengths hc
  have hpacked : Packed conf (s.takeFragment id) (s.drainStep env conf id) := h.packed env hc
  have hlt := h.pending.transfered
  constructor
  · intro h1
    have hdrained := h.pending.advance_last (show _ + 1 = _ by simp only [left] at h1; omega)
    refine ⟨hpacked.group, ?_, hpacked.payload.imp_right fun hb => ⟨hb.1, hb.2.1⟩⟩
    rw [hpacked.fragments]
    exact hdrained
  · intro hmore
    have hmore' : (s.fragments.fragmentBuffer id).fragmentInfo.transferedNum + 1 <
        (s.fragments.fragmentBuffer id).fragmentInfo.totalNum := by
      simp only [left] at hmore
      omega
    obtain ⟨hpend, hbuf⟩ := h.pending.advance_more hmore'
    have hlen : (s.fetched id).packetLength = middleBytes conf.payload + 9 := by
      rw [hp, hmid hmore']
    have hfrag : (s.drainStep env conf id).fragments = s.fragments.advance id := hpacked.fragments
    have hpay : (s.drainStep env conf id).framePayload = .zero ∨
        (s.drainStep env conf id).framePayload.Balanced conf ∧ gseMaxSize < conf.payload ∧
          (s.drainStep env conf id).framePayload.usablePayload =
            conf.payload - (middleBytes conf.payload + 9) := by
      have hthr := hc.threshold_ge
      have hlen' : (s.takeFragment id).usingPdu.packetLength = middleBytes conf.payload + 9 := hlen
      have hcases := middleBytes_cases conf.payload
      have hroom := h.room_eq hc
      simp only [gseMaxSize] at hcases hroom ⊢
      -- one middle packet fills a frame, or half of a frame longer than a packet can be
      rcases hroom with hr | ⟨-, hr⟩
      · rcases hcases with ⟨-, hmb⟩ | ⟨hbig, -⟩
        · exact .inl (hpacked.sent (by omega))
        · rcases hpacked.payload with hz | ⟨hb, -, hu⟩
          · exact .inl hz
          · exact .inr ⟨hb, hbig, by omega⟩
      · exact .inl (hpacked.sent (by omega))
    refine ⟨⟨hpacked.group, ?_, ?_, ?_, ?_, ?_, ?_, hpay⟩, ?_⟩
    all_goals simp only [hfrag, hbuf, left]
    · exact hpend
    · exact h.middle
    · exact h.last
    · exact h.mac
    · exact h.modcod
    · omega
    · omega

lemma drain_idle (h : Idle conf s) (n : ℕ) :
    Idle conf (s.drain env conf (n + 1)) ∧ (s.drain env conf (n + 1)).packed = s.packed ∧
      (s.drain env conf (n + 1)).framePayload = s.framePayload := by
  obtain ⟨hs, hret⟩ := fetchPduFragment_drained conf .zero h.drained
  simp only [drain, Sender.getFragPkt, not_le.mpr hret, decide_false, Bool.false_eq_true,
    if_false, hs]
  exact ⟨⟨h.group, h.drained, h.payload⟩, trivial, trivial⟩

lemma drain_draining (hc : conf.Configured) (P : PduGroup → Prop)
    (hP : ∀ s id t, Draining conf id s → P ((s.fetched id).group t)) {id : ℕ} (n : ℕ)
    (h : s.Draining conf id) (hn : s.left id < n) :
    Idle conf (s.drain env conf n) ∧
      ∃ gs, (s.drain env conf n).packed = s.packed ++ gs ∧ ∀ g ∈ gs, P g := by
  induction n generalizing s with
  | zero => omega
  | succ n ih =>
    have hpos : 0 < s.left id := by
      have hlt := h.pending.transfered
      simp only [left]
      omega
    have hpacked : Packed conf (s.takeFragment id) (s.drainStep env conf id) := h.packed env hc
    obtain ⟨t, ht⟩ := hpacked.packed
    have hg : P ((s.fetched id).group t) := hP s id t h
    obtain ⟨hidle, hmore⟩ := h.step env hc
    simp only [drain, h.getFragPkt, if_true]
    change Idle conf ((s.drainStep env conf id).drain env conf n) ∧
      ∃ gs, ((s.drainStep env conf id).drain env conf n).packed = s.packed ++ gs ∧ ∀ g ∈ gs, P g
    by_cases h1 : s.left id = 1
    · obtain ⟨k, rfl⟩ : ∃ k, n = k + 1 := ⟨n - 1, by omega⟩
      obtain ⟨hfin, hsame, -⟩ := drain_idle env (hidle h1) k
      refine ⟨hfin, [(s.fetched id).group t], ?_, by simpa using hg⟩
      rw [hsame]
      exact ht
    · obtain ⟨hd, hleft⟩ := hmore (by omega)
      obtain ⟨hfin, gs, hgs, hall⟩ := ih hd (by omega)
      refine ⟨hfin, (s.fetched id).group t :: gs, ?_, ?_⟩
      · rw [hgs, ht, List.append_assoc]
        rfl
      · simpa using ⟨hg, hall⟩

lemma Idle.pdu_packed (h : Idle conf s) (hc : conf.Configured) {m : RteMbuf} (h1 : 1 ≤ m.dataLen)
    (h2 : m.dataLen ≤ 8050) (hfit : m.dataLen + 4 ≤ s.room conf) :
    Packed conf (s.getWholePkt conf m)
      ((s.getWholePkt conf m).encapsulateIslBb env conf .succeedFetchModcod) := by
  obtain ⟨hd, hp⟩ := EnPduNode.lengths_whole (n := readEnapsulateBuffer conf m) rfl h1
    (lt_of_le_of_lt h2 (by norm_num))
  refine encapsulateIslBb_packed env hc (by decide) h.group rfl rfl ?_ (h.payload.imp_right And.left) ?_
  · change (readEnapsulateBuffer conf m).dataField < 60000
    rw [hd]
    exact lt_of_le_of_lt h2 (by norm_num)
  · change (readEnapsulateBuffer conf m).packetLength ≤ s.room conf
    rw [hp]
    exact hfit

def nextID (s : Sender) : ℕ := (s.fragments.lastFragmentID + 1) % 256

def plan (conf : AppConf) (m : RteMbuf) (s : Sender) : FragmentBuffer :=
  plannedBuffer (s.framePayload.maxPayload == 0) conf.payload (s.room conf)
    (readEnapsulateBuffer conf m) s.nextID

def startNode (conf : AppConf) (m : RteMbuf) (s : Sender) : EnPduNode :=
  (s.plan conf m).fragmentNode s.nextID .s (s.room conf - 11) (readEnapsulateBuffer conf m)

lemma Idle.room_bounds (h : Idle conf s) (hc : conf.Configured) :
    conf.paddingThreshold ≤ s.room conf ∧ s.room conf ≤ conf.payload ∧
      (s.framePayload.maxPayload = 0 → s.room conf = conf.payload) := by
  obtain ⟨hlow, -⟩ := hc.payload_bounds
  have hthr := hc.threshold_le
  rcases h.payload with hz | ⟨hb, hu⟩
  · have hr : s.room conf = conf.payload := by simp [room, hz, FramePayload.zero]
    omega
  · have hne : s.framePayload.maxPayload ≠ 0 := by
      rw [hb.max_eq]
      omega
    have hsum := hb.sum_eq
    have hr : s.room conf = s.framePayload.usablePayload := if_neg hne
    refine ⟨by omega, by omega, fun h0 => absurd h0 hne⟩

lemma Idle.splits (h : Idle conf s) (hc : conf.Configured) {m : RteMbuf} (h1 : 1 ≤ m.dataLen)
    (h2 : m.dataLen ≤ 8050) (hlong : s.room conf < m.dataLen + 4) :
    Splits m.dataLen (s.room conf) conf.payload := by
  obtain ⟨hlow, hhigh⟩ := hc.payload_bounds
  obtain ⟨hr1, hr2, -⟩ := h.room_bounds hc
  have hthr := hc.threshold_ge
  exact ⟨h1, h2, hlow, hhigh, by omega, hr2, hlong⟩

lemma Idle.planned (h : Idle conf s) (hc : conf.Configured) {m : RteMbuf} (h1 : 1 ≤ m.dataLen)
    (h2 : m.dataLen ≤ 8050) (hlong : s.room conf < m.dataLen + 4) :
    let f := (s.plan conf m).fragmentInfo
    f.transferedNum = 0 ∧ f.startSize = s.room conf - 11 ∧
      f.middleSize = middleBytes conf.payload ∧
      f.totalNum = fragmentCount m.dataLen (s.room conf) conf.payload ∧
      f.endSize = sub16 (remainder m.dataLen (s.room conf) % middleBytes conf.payload) 4 := by
  obtain ⟨-, -, hnull⟩ := h.room_bounds hc
  have hnew : (s.framePayload.maxPayload == 0) = true → s.room conf = conf.payload :=
    fun h0 => hnull (by simpa using h0)
  exact (h.splits hc h1 h2 hlong).plan rfl
    (show getBroadcastType boardcastAddress = true by decide) hnew s.nextID

/-- The sender once the first fragment of `m` is in `using_pdu`. -/
def beginSplit (conf : AppConf) (m : RteMbuf) (s : Sender) : Sender :=
  { (s.getWholePkt conf m).openFrame.updateLastLabel with
    fragments := (s.fragments.adopt s.nextID (s.plan conf m)).advance s.nextID
    usingPdu := s.startNode conf m }

lemma Idle.pending (h : Idle conf s) (hc : conf.Configured) {m : RteMbuf} (h1 : 1 ≤ m.dataLen)
    (h2 : m.dataLen ≤ 8050) (hlong : s.room conf < m.dataLen + 4) :
    (s.fragments.adopt s.nextID (s.plan conf m)).Pending s.nextID := by
  obtain ⟨htr, -, -, htotal, -⟩ := h.planned hc h1 h2 hlong
  obtain ⟨hc1, hc2⟩ := (h.splits hc h1 h2 hlong).count_bounds
  exact h.drained.adopt (Nat.mod_lt _ (by norm_num)) rfl (by omega) (by omega)

lemma Idle.split_eq (h : Idle conf s) (hc : conf.Configured) {m : RteMbuf} (h1 : 1 ≤ m.dataLen)
    (h2 : m.dataLen ≤ 8050) (hlong : s.room conf < m.dataLen + 4) :
    split conf (s.framePayload.maxPayload == 0)
      { (s.getWholePkt conf m).openFrame.updateLastLabel with
        counters := (s.getWholePkt conf m).counters.after (s.getWholePkt conf m).usingPdu } =
      s.beginSplit conf m := by
  have hsize : (readEnapsulateBuffer conf m).pduSize = m.dataLen := rfl
  obtain ⟨hbal, hroom⟩ := openFrame_payload (s := s.getWholePkt conf m) hc rfl
    (h.payload.imp_right And.left)
  change _ = s.room conf at hroom
  have hdo := doFragment_drained h.drained (show (readEnapsulateBuffer conf m).pduSize < 65532 by omega)
    (s.framePayload.maxPayload == 0) conf.payload (s.room conf)
  have hpend := h.pending hc h1 h2 hlong
  obtain ⟨htr, hstart, -, htotal, -⟩ := h.planned hc h1 h2 hlong
  have hbuf : (s.fragments.adopt s.nextID (s.plan conf m)).fragmentBuffer s.nextID =
      s.plan conf m := by simp [Fragments.adopt]
  have hfetch := fetchPduFragment_pending conf (readEnapsulateBuffer conf m) hpend
  simp only [hbuf, htr, kindOf, FragmentInfo.sizeOf, if_true, hstart] at hfetch
  have hsplit : ∀ t : Sender, t.framePayload.maxPayload = conf.payload →
      t.framePayload.usablePayload = s.room conf → t.usingPdu = readEnapsulateBuffer conf m →
      t.fragments = s.fragments →
      t.split conf (s.framePayload.maxPayload == 0) =
        { t with
          fragments := (s.fragments.adopt s.nextID (s.plan conf m)).advance s.nextID
          usingPdu := s.startNode conf m } := by
    intro t hmax husable hnode hfrag
    simp only [split, hmax, husable, hnode, hfrag, hdo]
    change { t with fragments := (fetchPduFragment conf (readEnapsulateBuffer conf m)
        (s.fragments.adopt s.nextID (s.plan conf m))).fragments, usingPdu := (fetchPduFragment conf
        (readEnapsulateBuffer conf m) (s.fragments.adopt s.nextID (s.plan conf m))).node } = _
    rw [hfetch]
    rfl
  exact hsplit { (s.getWholePkt conf m).openFrame.updateLastLabel with
      counters := (s.getWholePkt conf m).counters.after (s.getWholePkt conf m).usingPdu }
    hbal.max_eq hroom rfl rfl

lemma Idle.pdu_long (h : Idle conf s) (hc : conf.Configured) {m : RteMbuf} (h1 : 1 ≤ m.dataLen)
    (h2 : m.dataLen ≤ 8050) (hlong : s.room conf < m.dataLen + 4) :
    (s.getWholePkt conf m).usingPdu.dataField < 60000 ∧
      (s.getWholePkt conf m).openFrame.framePayload.usablePayload <
        (s.getWholePkt conf m).usingPdu.packetLength ∧
      conf.paddingThreshold ≤ (s.getWholePkt conf m).openFrame.framePayload.usablePayload := by
  obtain ⟨hd, hp⟩ := EnPduNode.lengths_whole (n := readEnapsulateBuffer conf m) rfl h1
    (lt_of_le_of_lt h2 (by norm_num))
  have hsize : (readEnapsulateBuffer conf m).pduSize = m.dataLen := rfl
  obtain ⟨hr1, -, -⟩ := h.room_bounds hc
  obtain ⟨-, hroom⟩ := openFrame_payload (s := s.getWholePkt conf m) hc rfl
    (h.payload.imp_right And.left)
  change _ = s.room conf at hroom
  rw [hroom]
  change (readEnapsulateBuffer conf m).dataField < 60000 ∧
    _ < (readEnapsulateBuffer conf m).packetLength ∧ _
  omega

lemma Idle.pdu_split (h : Idle conf s) (hc : conf.Configured) {m : RteMbuf} (h1 : 1 ≤ m.dataLen)
    (h2 : m.dataLen ≤ 8050) (hlong : s.room conf < m.dataLen + 4) :
    (s.getWholePkt conf m).encapsulateIslBb env conf .succeedFetchModcod =
      ((s.beginSplit conf m).pack).makeFrame env conf := by
  obtain ⟨hfield, hlen, hroom⟩ := h.pdu_long hc h1 h2 hlong
  rw [encapsulateIslBb_splits env (s := s.getWholePkt conf m) (by decide) h.group rfl hfield hlen hroom]
  exact congrArg (fun t => (pack t).makeFrame env conf) (h.split_eq hc h1 h2 hlong)

lemma Idle.start_lengths (h : Idle conf s) (hc : conf.Configured) (m : RteMbuf) :
    (s.startNode conf m).dataField = s.room conf - 7 ∧
      (s.startNode conf m).packetLength = s.room conf := by
  obtain ⟨-, hhigh⟩ := hc.payload_bounds
  obtain ⟨hr1, hr2, -⟩ := h.room_bounds hc
  have hthr := hc.threshold_ge
  have hsize : (s.startNode conf m).pduSize = s.room conf - 11 := rfl
  obtain ⟨hd, hp⟩ := EnPduNode.lengths_start (n := s.startNode conf m) rfl rfl (by omega)
  omega

lemma Idle.pdu_draining (h : Idle conf s) (hc : conf.Configured) {m : RteMbuf} (h1 : 1 ≤ m.dataLen)
    (h2 : m.dataLen ≤ 8050) (hlong : s.room conf < m.dataLen + 4) :
    Draining conf s.nextID (((s.beginSplit conf m).pack).makeFrame env conf) := by
  have hpend := h.pending hc h1 h2 hlong
  obtain ⟨htr, -, hmid, htotal, hend⟩ := h.planned hc h1 h2 hlong
  obtain ⟨hc1, -⟩ := (h.splits hc h1 h2 hlong).count_bounds
  have hbuf : (s.fragments.adopt s.nextID (s.plan conf m)).fragmentBuffer s.nextID =
      s.plan conf m := by simp [Fragments.adopt]
  obtain ⟨hpend', hbuf'⟩ := hpend.advance_more (by rw [hbuf]; omega)
  rw [hbuf] at hbuf'
  obtain ⟨hlow, hhigh⟩ := hc.payload_bounds
  obtain ⟨-, hm1, -⟩ := middleSize_eq hlow hhigh
  have hfrag : (((s.beginSplit conf m).pack).makeFrame env conf).fragments =
      (s.fragments.adopt s.nextID (s.plan conf m)).advance s.nextID := rfl
  refine ⟨h.group, by rw [hfrag]; exact hpend', ?_, ?_, ?_, ?_, ?_, .inl rfl⟩
  all_goals rw [hfrag, hbuf']
  · exact hmid
  · exact ⟨_, Nat.mod_lt _ (by omega), hend⟩
  · rfl
  · rfl
  · exact Nat.le_add_left _ _

end Sender

end Fengtai.Send
