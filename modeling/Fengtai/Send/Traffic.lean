import Fengtai.Send.Identity
import Fengtai.Send.Labels
import Fengtai.Send.Packets

set_option autoImplicit false

/-! Runs of the loop with PDUs of 46 to 1500 bytes: each PDU goes out whole, or as a START at the
end of a frame and an END at the beginning of the next. -/

namespace Fengtai.Send

open Library.Words Receive Sender

structure Ordinary (m : RteMbuf) : Prop where
  size_ge : 46 ≤ m.dataLen
  size_le : m.dataLen ≤ 1500

/-- The first `size` bytes of `m`, as the `k`-th fragmentation sends them. -/
def startOf (conf : AppConf) (m : RteMbuf) (k size : ℕ) : EnPduNode :=
  { readEnapsulateBuffer conf m with
    pduSize := size
    fragmentFlag := true
    fragmentID := numberedID k
    crc32 := Crc.crc32LookupTable m.bytes }

def endOf (conf : AppConf) (m : RteMbuf) (k size : ℕ) : EnPduNode :=
  { EnPduNode.zero with
    pduSize := m.dataLen - size
    pPduStart := ⟨m.data, size⟩
    macAddress := boardcastAddress
    modcod := conf.modcode
    mbufAddress := some m.addr
    fragmentFlag := true
    fragmentID := numberedID k
    fragmentType := .e
    fragmentSeq := 1
    pduTotalLength := m.dataLen
    crc32 := Crc.crc32LookupTable m.bytes }

def startEntry (conf : AppConf) (m : RteMbuf) (k size : ℕ) : Entry :=
  ⟨startOf conf m k size, 8 * numberedStamp k⟩

def endEntry (conf : AppConf) (m : RteMbuf) (k size : ℕ) : Entry :=
  ⟨endOf conf m k size, 8 * numberedStamp k + 1⟩

inductive Chunks (conf : AppConf) (m : RteMbuf) : List Entry → Prop
  | whole (t : ℕ) : Chunks conf m [⟨readEnapsulateBuffer conf m, t⟩]
  | split (k size : ℕ) (hk : 0 < k) (h3 : 3 ≤ size) (h8 : size + 8 ≤ m.dataLen) :
      Chunks conf m [startEntry conf m k size, endEntry conf m k size]

lemma readEnapsulateBuffer_sized {conf : AppConf} {m : RteMbuf} (h : Ordinary m) :
    (readEnapsulateBuffer conf m).Sized :=
  ⟨le_trans (by norm_num) h.size_ge, le_trans h.size_le (by norm_num)⟩

lemma startOf_sized (conf : AppConf) {m : RteMbuf} (h : Ordinary m) (k : ℕ) {size : ℕ} (h3 : 3 ≤ size)
    (h8 : size + 8 ≤ m.dataLen) : (startOf conf m k size).Sized := by
  have hle := h.size_le
  exact ⟨show 1 ≤ size by omega, show size ≤ 4000 by omega⟩

lemma endOf_sized (conf : AppConf) {m : RteMbuf} (h : Ordinary m) (k : ℕ) {size : ℕ}
    (h8 : size + 8 ≤ m.dataLen) : (endOf conf m k size).Sized := by
  have hle := h.size_le
  exact ⟨show 1 ≤ m.dataLen - size by omega, show m.dataLen - size ≤ 4000 by omega⟩

/-- The open frame holds the packets of `frame`, and its counters say so. -/
structure FrameHolds (frame : List Entry) (s : Sender) : Prop where
  packets : s.gseGroup.packets = frame.map Entry.packet
  num : s.gseGroup.gseNum = frame.length
  used : s.framePayload.usedPayload = (frame.map fun e => e.node.packetLength).sum
  sized : ∀ e ∈ frame, e.node.Sized

/-- Every packet but the first has at least 50 bytes, so a frame never has 255 of them. -/
def Modest (frame : List Entry) (s : Sender) : Prop :=
  50 * frame.length ≤ s.framePayload.usedPayload + 50

/-- A frame that is handed to `encapsulate_frame`. -/
structure Sealed (conf : AppConf) (frame : List Entry) (s : Sender) : Prop where
  holds : FrameHolds frame s
  balanced : s.framePayload.Balanced conf
  nonempty : frame ≠ []

lemma frameHolds_zero {s : Sender} (hg : s.gseGroup.gseNum = 0) (hp : s.framePayload = .zero) :
    FrameHolds [] s := by
  refine ⟨?_, hg, ?_, by simp⟩
  · rw [GseGroup.packets_eq, hg]
    rfl
  · rw [hp]
    rfl

lemma FrameHolds.pack {conf : AppConf} (hc : conf.Configured) {frame : List Entry} {s : Sender}
    (h : FrameHolds frame s) (hb : s.framePayload.Balanced conf) (hsized : s.usingPdu.Sized)
    (hfit : s.usingPdu.packetLength ≤ s.framePayload.usablePayload) (hlen : frame.length < 255) :
    Sealed conf (frame ++ [⟨s.usingPdu,
      (s.counters.after s.usingPdu).timeSeq s.usingPdu.fragmentSeq⟩]) s.pack := by
  obtain ⟨-, hhigh⟩ := hc.payload_bounds
  have hsum := hb.sum_eq
  obtain ⟨-, hd⟩ := hsized.dataField_pos
  have htotal : ∀ t, (s.usingPdu.group t).gseTotalLength = s.usingPdu.packetLength := fun t =>
    EnPduNode.group_total (by omega) t
  obtain ⟨hbal, -⟩ := hb.update hc hfit
  have hused : (s.framePayload.update s.usingPdu.packetLength).usedPayload =
      s.framePayload.usedPayload + s.usingPdu.packetLength := u16_of_lt (by omega)
  have hnum := h.num
  obtain ⟨hpackets, hnum'⟩ := packets_encapsulateGse
    (g := s.usingPdu.group ((s.counters.after s.usingPdu).timeSeq s.usingPdu.fragmentSeq))
    (by simp [EnPduNode.group]) (show s.gseGroup.gseNum < 255 by omega)
  have hpay : s.pack.framePayload = s.framePayload.update s.usingPdu.packetLength :=
    pack_payload (by omega)
  refine ⟨⟨?_, ?_, ?_, ?_⟩, by rw [hpay]; exact hbal, by simp⟩
  · rw [List.map_append, ← h.packets]
    exact hpackets
  · rw [List.length_append, ← hnum]
    exact hnum'
  · rw [hpay, hused, h.used]
    simp
  · intro e he
    rcases List.mem_append.mp he with he | he
    · exact h.sized e he
    · obtain rfl := List.mem_singleton.mp he
      exact hsized

lemma Modest.length_lt {conf : AppConf} (hc : conf.Configured) {frame : List Entry} {s : Sender}
    (h : Modest frame s) (hp : s.framePayload = .zero ∨ s.framePayload.Balanced conf) :
    frame.length < 255 := by
  obtain ⟨-, hhigh⟩ := hc.payload_bounds
  have hle : s.framePayload.usedPayload ≤ conf.payload := by
    rcases hp with hz | hb
    · rw [hz]
      exact Nat.zero_le _
    · have hsum := hb.sum_eq
      omega
  simp only [Modest] at h
  omega

lemma FrameHolds.openFrame {conf : AppConf} (hc : conf.Configured) {frame : List Entry} {s : Sender}
    (h : FrameHolds frame s) (hp : s.framePayload = .zero ∨ s.framePayload.Balanced conf) :
    FrameHolds frame s.openFrame := by
  obtain ⟨hlow, -⟩ := hc.payload_bounds
  have hg : s.openFrame.gseGroup.packets = s.gseGroup.packets ∧
      s.openFrame.gseGroup.gseNum = s.gseGroup.gseNum := by
    simp only [Sender.openFrame]
    split_ifs <;> exact ⟨rfl, rfl⟩
  have hu : s.openFrame.framePayload.usedPayload = s.framePayload.usedPayload := by
    rcases hp with hz | hb
    · simp [Sender.openFrame, hz, FramePayload.zero, initFramePayload]
    · have hne : s.framePayload.maxPayload ≠ 0 := by
        rw [hb.max_eq]
        omega
      simp [Sender.openFrame, hne]
  exact ⟨hg.1.trans h.packets, hg.2.trans h.num, hu.trans h.used, h.sized⟩

/-- What is in the frame after a packet either stays there, or has been handed over. -/
def Passes (conf : AppConf) (full : List Entry) (closing : List Sender) (frame : List Entry) : Prop :=
  closing = [] ∧ frame = full ∨ frame = [] ∧ ∃ t, closing = [t] ∧ Sealed conf full t

section Calls

variable (env : SendEnv) {conf : AppConf} {s : Sender} {readOk : ReadOk}

lemma closing_fits (hok : readOk ≠ .failedFetchModcod) (hz : s.pduGroup = .zero)
    (hmac : s.usingPdu.macAddress = boardcastAddress) (hd : s.usingPdu.dataField < 60000)
    (hfit : s.usingPdu.packetLength ≤ s.openFrame.framePayload.usablePayload) :
    s.closing env conf readOk = if s.openFrame.pack.updateLastLabel.Short conf then
      [s.openFrame.pack.updateLastLabel] else [] := by
  have hlabel : s.openFrame.decideLabel (s.framePayload.maxPayload == 0) = (.broadcast, 0) :=
    decideLabel_broadcast hmac _
  have hgroup : s.openFrame.pduGroup = .zero := hz
  have hpacked : s.entered.updateLastLabel.updateGseGroup = s.openFrame.pack.updateLastLabel := by
    rw [← updateGseGroup_updatePduGroup hgroup, ← hlabel]
    rfl
  simp only [closing, if_neg hok, if_pos (entered_fits hz hmac hd hfit), hpacked]

lemma closing_splits (hok : readOk ≠ .failedFetchModcod) (hz : s.pduGroup = .zero)
    (hmac : s.usingPdu.macAddress = boardcastAddress) (hd : s.usingPdu.dataField < 60000)
    (hlong : s.openFrame.framePayload.usablePayload < s.usingPdu.packetLength)
    (hroom : conf.paddingThreshold ≤ s.openFrame.framePayload.usablePayload) :
    s.closing env conf readOk =
      [({ s.openFrame.updateLastLabel with counters := s.counters.after s.usingPdu }.split conf
        (s.framePayload.maxPayload == 0)).pack] := by
  have hlabel : s.openFrame.decideLabel (s.framePayload.maxPayload == 0) = (.broadcast, 0) :=
    decideLabel_broadcast hmac _
  have hgroup : s.openFrame.pduGroup = .zero := hz
  have hentered : s.entered = s.openFrame.updatePduGroup (.broadcast, 0) := by
    rw [entered, hlabel]
  have hfits : ¬ s.entered.Fits := by
    simp only [Fits, hentered, updatePduGroup_of_zero hgroup]
    rw [EnPduNode.group_total (by exact hd)]
    exact not_le.mpr hlong
  have hshort : ¬ s.entered.Short conf := not_lt.mpr hroom
  have hfirst : (s.firstFragment conf).updateGseGroup =
      ({ s.openFrame.updateLastLabel with counters := s.counters.after s.usingPdu }.split conf
        (s.framePayload.maxPayload == 0)).pack := by
    rw [firstFragment, splitOff, show s.label = (.broadcast, 0) from hlabel,
      updateGseGroup_updatePduGroup rfl, hentered, updatePduGroup_of_zero hgroup]
    simp only [Sender.updateLastLabel, split, hgroup]
    rfl
  simp only [closing, if_neg hok, if_neg hfits, if_neg hshort, hfirst]

lemma FrameHolds.fits {frame : List Entry} (h : FrameHolds frame s) (hmod : Modest frame s)
    (hc : conf.Configured)
    (hok : readOk ≠ .failedFetchModcod) (hz : s.pduGroup = .zero)
    (hmac : s.usingPdu.macAddress = boardcastAddress) (hm : s.usingPdu.modcod = conf.modcode)
    (hsized : s.usingPdu.Sized)
    (hp : s.framePayload = .zero ∨ s.framePayload.Balanced conf)
    (hfit : s.usingPdu.packetLength ≤ s.room conf)
    (h50 : 50 ≤ s.usingPdu.packetLength ∨ frame = []) :
    (s.encapsulateIslBb env conf readOk).counters = s.counters.after s.usingPdu ∧
      ∃ frame', FrameHolds frame' (s.encapsulateIslBb env conf readOk) ∧
        Modest frame' (s.encapsulateIslBb env conf readOk) ∧ Passes conf (frame ++ [⟨s.usingPdu,
          (s.counters.after s.usingPdu).timeSeq s.usingPdu.fragmentSeq⟩])
          (s.closing env conf readOk) frame' := by
  obtain ⟨hbal, hroom⟩ := openFrame_payload hc hm hp
  rw [← hroom] at hfit
  obtain ⟨-, hd⟩ := hsized.dataField_pos
  have hd' : s.usingPdu.dataField < 60000 := by omega
  have hsealed : Sealed conf (frame ++ [⟨s.usingPdu,
      (s.counters.after s.usingPdu).timeSeq s.usingPdu.fragmentSeq⟩])
      s.openFrame.pack.updateLastLabel := by
    obtain ⟨⟨h1, h2, h3, h4⟩, hb, hne⟩ :=
      (h.openFrame hc hp).pack hc hbal hsized hfit (hmod.length_lt hc hp)
    exact ⟨⟨h1, h2, h3, h4⟩, hb, hne⟩
  have hmodest : Modest (frame ++ [⟨s.usingPdu,
      (s.counters.after s.usingPdu).timeSeq s.usingPdu.fragmentSeq⟩])
      s.openFrame.pack.updateLastLabel := by
    have hu := h.used
    simp only [Modest, hsealed.holds.used] at hmod ⊢
    rw [List.map_append, List.sum_append, ← hu, List.length_append]
    simp only [List.map_cons, List.map_nil, List.sum_singleton, List.length_singleton]
    rcases h50 with h50 | rfl
    · omega
    · simp
  rw [encapsulateIslBb_fits env hok hz hmac hd' hfit, closing_fits env hok hz hmac hd' hfit, closeFull]
  by_cases hshort : s.openFrame.pack.updateLastLabel.Short conf
  · rw [if_pos hshort, if_pos (show _ < _ from hshort)]
    exact ⟨rfl, [], frameHolds_zero rfl rfl, by simp [Modest], .inr ⟨rfl, _, rfl, hsealed⟩⟩
  · rw [if_neg hshort, if_neg (show ¬ _ < _ from hshort)]
    exact ⟨rfl, _, hsealed.holds, hmodest, .inl ⟨rfl, rfl⟩⟩

end Calls

structure Clean (conf : AppConf) (k : ℕ) (frame : List Entry) (s : Sender) : Prop where
  idle : Idle conf s
  counted : s.counters.Counted k
  last : s.fragments.lastFragmentID = numberedID k
  holds : FrameHolds frame s
  modest : Modest frame s

/-- The START of `m` has been sent, its END is pending and the frame is empty. -/
structure Owing (conf : AppConf) (k : ℕ) (m : RteMbuf) (size : ℕ) (s : Sender) : Prop where
  draining : Draining conf (numberedID k) s
  left : s.left (numberedID k) = 1
  fetched : s.fetched (numberedID k) = endOf conf m k size
  counted : s.counters.Counted k
  last : s.fragments.lastFragmentID = numberedID k
  pos : 0 < k
  payload : s.framePayload = .zero
  holds : FrameHolds [] s
  size_ge : 3 ≤ size
  size_le : size + 8 ≤ m.dataLen

lemma clean_initial (conf : AppConf) : Clean conf 0 [] .initial where
  idle := idle_initial
  counted := SequenceCounters.counted_initial
  last := rfl
  holds := frameHolds_zero rfl rfl
  modest := by simp [Modest]

section Steps

variable (env : SendEnv) {conf : AppConf} {s : Sender} {k : ℕ} {frame : List Entry} {m : RteMbuf}

lemma Clean.pdu_fits (h : Clean conf k frame s) (hc : conf.Configured) (hm : Ordinary m)
    (hfit : m.dataLen + 4 ≤ s.room conf) :
    ∃ n frame', Clean conf k frame'
        ((s.getWholePkt conf m).encapsulateIslBb env conf .succeedFetchModcod) ∧
      Passes conf (frame ++ [⟨readEnapsulateBuffer conf m, n⟩])
        ((s.getWholePkt conf m).closing env conf .succeedFetchModcod) frame' := by
  have h1 := hm.size_ge
  have h2 := hm.size_le
  have hpacked := h.idle.pdu_packed env hc (show 1 ≤ m.dataLen by omega)
    (show m.dataLen ≤ 8050 by omega) hfit
  obtain ⟨-, hp⟩ := EnPduNode.lengths_whole (n := readEnapsulateBuffer conf m) rfl
    (show 1 ≤ m.dataLen by omega) (show m.dataLen < 60000 by omega)
  have hlen : (s.getWholePkt conf m).usingPdu.packetLength = m.dataLen + 4 := hp
  obtain ⟨hcounters, frame', hholds, hmodest, hpasses⟩ :=
    FrameHolds.fits env (s := s.getWholePkt conf m)
      ⟨h.holds.packets, h.holds.num, h.holds.used, h.holds.sized⟩ h.modest hc
      (show ReadOk.succeedFetchModcod ≠ .failedFetchModcod by decide)
      h.idle.group rfl rfl (readEnapsulateBuffer_sized hm) (h.idle.payload.imp_right And.left)
      (hlen.trans_le hfit) (.inl (by omega))
  refine ⟨_, frame', ⟨⟨hpacked.group, ?_, ?_⟩, ?_, ?_, hholds, hmodest⟩, hpasses⟩
  · rw [hpacked.fragments]
    exact h.idle.drained
  · exact hpacked.payload.imp_right fun hb => ⟨hb.1, hb.2.1⟩
  · rw [hcounters]
    exact h.counted
  · rw [hpacked.fragments]
    exact h.last

lemma Clean.nextID_eq (h : Clean conf k frame s) : s.nextID = numberedID (k + 1) := by
  rw [nextID, h.last, numberedID, numberedID]
  omega

lemma Clean.startNode_eq (h : Clean conf k frame s) (hc : conf.Configured) (hm : Ordinary m)
    (hlong : s.room conf < m.dataLen + 4) :
    s.startNode conf m = startOf conf m (k + 1) (s.room conf - 11) := by
  have hge := hm.size_ge
  have hle := hm.size_le
  obtain ⟨htr, -⟩ := h.idle.planned hc (show 1 ≤ m.dataLen by omega) (show m.dataLen ≤ 8050 by omega)
    hlong
  have hoff : (s.plan conf m).fragmentInfo.nextOffset = 0 := by
    simp [FragmentInfo.nextOffset, htr]
  have hid : u8 s.nextID = numberedID (k + 1) := by
    rw [h.nextID_eq, u8_of_lt (numberedID_lt _)]
  rw [startNode, FragmentBuffer.fragmentNode, hoff, htr, hid, Ptr.add_zero]
  rfl

lemma Clean.plan_eq (h : Clean conf k frame s) (hc : conf.Configured) (hm : Ordinary m)
    (hlong : s.room conf < m.dataLen + 4) :
    let b := s.plan conf m
    b.fragmentInfo.transferedNum = 0 ∧ b.fragmentInfo.totalNum = 2 ∧
      b.fragmentInfo.startSize = s.room conf - 11 ∧
      b.fragmentInfo.endSize = m.dataLen - (s.room conf - 11) := by
  have hge := hm.size_ge
  have hle := hm.size_le
  obtain ⟨hlow, hhigh⟩ := hc.payload_bounds
  obtain ⟨-, hm1, -⟩ := middleSize_eq hlow hhigh
  obtain ⟨hr1, hr2, -⟩ := h.idle.room_bounds hc
  have hthr := hc.threshold_ge
  obtain ⟨htr, hstart, -, htotal, hend⟩ := h.idle.planned hc (show 1 ≤ m.dataLen by omega)
    (show m.dataLen ≤ 8050 by omega) hlong
  have hrem : remainder m.dataLen (s.room conf) = m.dataLen + 15 - s.room conf := rfl
  have hlt : remainder m.dataLen (s.room conf) < middleBytes conf.payload := by omega
  refine ⟨htr, ?_, hstart, ?_⟩
  · rw [htotal, fragmentCount, Nat.div_eq_of_lt hlt, Nat.mod_eq_of_lt hlt, if_pos (by omega)]
  · rw [hend, Nat.mod_eq_of_lt hlt, sub16_of_le (by omega) (by omega)]
    omega

lemma Clean.owing (h : Clean conf k frame s) (hc : conf.Configured) (hm : Ordinary m)
    (hlong : s.room conf < m.dataLen + 4) :
    Owing conf (k + 1) m (s.room conf - 11) (((s.beginSplit conf m).pack).makeFrame env conf) := by
  have hge := hm.size_ge
  have hle := hm.size_le
  have hthr := hc.threshold_ge
  obtain ⟨hr1, -, -⟩ := h.idle.room_bounds hc
  have hid := h.nextID_eq
  have hstart := h.startNode_eq hc hm hlong
  obtain ⟨htr, htotal, hsize, hend⟩ := h.plan_eq hc hm hlong
  have hdrain := h.idle.pdu_draining env hc (by omega) (by omega) hlong
  have hpend := h.idle.pending hc (show 1 ≤ m.dataLen by omega) (by omega) hlong
  have hbuf : (s.fragments.adopt s.nextID (s.plan conf m)).fragmentBuffer s.nextID =
      s.plan conf m := by simp [Fragments.adopt]
  obtain ⟨-, hbuf'⟩ := hpend.advance_more (by rw [hbuf]; omega)
  rw [hbuf, htr] at hbuf'
  have hfrag : (((s.beginSplit conf m).pack).makeFrame env conf).fragments =
      (s.fragments.adopt s.nextID (s.plan conf m)).advance s.nextID := rfl
  have hnumber : (s.startNode conf m).OfNumber (k + 1) := by
    rw [hstart]
    exact fun _ => ⟨k.succ_pos, rfl, show 0 < 8 by norm_num⟩
  rw [hid] at hdrain hbuf' hfrag
  refine ⟨hdrain, ?_, ?_, h.counted.after_next hnumber rfl, ?_, k.succ_pos, rfl,
    frameHolds_zero rfl rfl, by omega, by omega⟩
  · rw [left, hfrag, hbuf']
    change (s.plan conf m).fragmentInfo.totalNum - 1 = 1
    rw [htotal]
  · simp only [fetched, hfrag, hbuf']
    simp only [FragmentBuffer.fragmentNode, FragmentInfo.sizeOf, FragmentInfo.nextOffset, kindOf,
      htotal, hsize, hend, u8_of_lt (numberedID_lt _)]
    simp [endOf, Ptr.add]
    exact ⟨⟨rfl, rfl⟩, rfl, rfl, rfl, rfl, rfl, rfl⟩
  · rw [hfrag, Fragments.advance_last_eq]
    rfl

lemma Clean.pdu_splits (h : Clean conf k frame s) (hc : conf.Configured) (hm : Ordinary m)
    (hlong : s.room conf < m.dataLen + 4) :
    ∃ size, Owing conf (k + 1) m size
        ((s.getWholePkt conf m).encapsulateIslBb env conf .succeedFetchModcod) ∧
      ∃ t, (s.getWholePkt conf m).closing env conf .succeedFetchModcod = [t] ∧
        Sealed conf (frame ++ [startEntry conf m (k + 1) size]) t := by
  have hge := hm.size_ge
  have hle := hm.size_le
  have h1 : 1 ≤ m.dataLen := by omega
  have h2 : m.dataLen ≤ 8050 := by omega
  obtain ⟨hr1, hr2, -⟩ := h.idle.room_bounds hc
  have hthr := hc.threshold_ge
  have hstart := h.startNode_eq hc hm hlong
  obtain ⟨-, hplen⟩ := h.idle.start_lengths hc m
  obtain ⟨hfield, hlen, hroom⟩ := h.idle.pdu_long hc h1 h2 hlong
  obtain ⟨hbal, husable⟩ := openFrame_payload (s := s.getWholePkt conf m) hc rfl
    (h.idle.payload.imp_right And.left)
  refine ⟨s.room conf - 11, ?_, (s.beginSplit conf m).pack, ?_, ?_⟩
  · rw [h.idle.pdu_split env hc h1 h2 hlong]
    exact h.owing env hc hm hlong
  · rw [closing_splits env (s := s.getWholePkt conf m) (by decide) h.idle.group rfl hfield hlen hroom]
    exact congrArg (fun t => [pack t]) (h.idle.split_eq hc h1 h2 hlong)
  · have hholds : FrameHolds frame (s.getWholePkt conf m).openFrame :=
      FrameHolds.openFrame (s := s.getWholePkt conf m) hc
        ⟨h.holds.packets, h.holds.num, h.holds.used, h.holds.sized⟩
        (h.idle.payload.imp_right And.left)
    have hsized : (s.startNode conf m).Sized := by
      rw [hstart]
      exact startOf_sized conf hm (k + 1) (by omega) (by omega)
    have hpack := FrameHolds.pack (s := s.beginSplit conf m) hc
      ⟨hholds.packets, hholds.num, hholds.used, hholds.sized⟩ hbal hsized
      (show (s.startNode conf m).packetLength ≤ _ from hplen.trans_le husable.ge)
      (h.modest.length_lt hc (h.idle.payload.imp_right And.left))
    have hnumber : (s.startNode conf m).OfNumber (k + 1) := by
      rw [hstart]
      exact fun _ => ⟨k.succ_pos, rfl, show 0 < 8 by norm_num⟩
    have hseq : (s.startNode conf m).fragmentSeq = 0 := by rw [hstart]; rfl
    have hstamp : (s.counters.after (s.startNode conf m)).timeSeq (s.startNode conf m).fragmentSeq =
        8 * numberedStamp (k + 1) := by
      rw [hseq, (h.counted.after_next hnumber rfl).timeSeq k.succ_pos (by norm_num), Nat.add_zero]
    rw [startEntry, ← hstart, ← hstamp]
    exact hpack

lemma Owing.fragment {size : ℕ} (h : Owing conf k m size s) (hc : conf.Configured) (hm : Ordinary m) :
    ∃ frame', Clean conf k frame' (s.drainStep env conf (numberedID k)) ∧
      Passes conf [endEntry conf m k size]
        ((s.takeFragment (numberedID k)).closing env conf .succeedFetchFragment) frame' := by
  have hle := hm.size_le
  have hsize := h.size_le
  obtain ⟨hlow, -⟩ := hc.payload_bounds
  have hsized := endOf_sized conf hm k hsize
  obtain ⟨hd, hp⟩ := EnPduNode.lengths_last (n := endOf conf m k size) rfl rfl
    (show m.dataLen - size + 4 < 60000 by omega)
    (show m.dataLen - size = _ by rw [sub16_of_le (by omega) (by omega)]; omega)
  have hroom : (s.takeFragment (numberedID k)).room conf = conf.payload := by
    simp [room, takeFragment, h.payload, FramePayload.zero]
  have hnumber : (endOf conf m k size).OfNumber k := fun _ => ⟨h.pos, rfl, show 1 < 8 by norm_num⟩
  have hsame : s.counters.after (endOf conf m k size) = s.counters := h.counted.after_same hnumber
  have husing : (s.takeFragment (numberedID k)).usingPdu = endOf conf m k size := h.fetched
  obtain ⟨hcounters, frame', hholds, hmodest, hpasses⟩ :=
    FrameHolds.fits env (s := s.takeFragment (numberedID k))
      ⟨h.holds.packets, h.holds.num, h.holds.used, h.holds.sized⟩ (by simp [Modest]) hc
      (show ReadOk.succeedFetchFragment ≠ .failedFetchModcod by decide)
      h.draining.group (by rw [husing]; rfl) (by rw [husing]; rfl) (by rw [husing]; exact hsized)
      (.inl h.payload) (by rw [husing, hroom]; omega) (.inr rfl)
  have hcounters' : (s.takeFragment (numberedID k)).counters = s.counters := rfl
  rw [husing, hcounters', hsame] at hcounters hpasses
  have hidle : Idle conf (s.drainStep env conf (numberedID k)) := (h.draining.step env hc).1 h.left
  have hfrag : (s.drainStep env conf (numberedID k)).fragments =
      s.fragments.advance (numberedID k) := (h.draining.packed env hc).fragments
  have hlast : (s.drainStep env conf (numberedID k)).fragments.lastFragmentID = numberedID k := by
    rw [hfrag, Fragments.advance_last_eq]
    exact h.last
  refine ⟨frame', ⟨hidle, ?_, hlast, hholds, hmodest⟩, ?_⟩
  · rw [drainStep, hcounters]
    exact h.counted
  · rw [endEntry, ← h.counted.timeSeq h.pos (show 1 < 8 by norm_num)]
    exact hpasses

lemma Sealed.idle {conf : AppConf} (h : Clean conf k frame s) (hc : conf.Configured)
    (hne : frame ≠ []) : Sealed conf frame s.updateGseGroup := by
  obtain ⟨-, hhigh⟩ := hc.payload_bounds
  have hnum : s.pduGroup.pduNum = 0 := by rw [h.idle.group]; rfl
  have htotal : s.pduGroup.gseTotalLength = 0 := by rw [h.idle.group]; rfl
  have hgroup : s.updateGseGroup.gseGroup = s.gseGroup := by
    simp [updateGseGroup, encapsulateGse, hnum]
  have hpay : s.updateGseGroup.framePayload = s.framePayload.update 0 := by
    rw [← htotal]
    rfl
  rcases h.idle.payload with hz | ⟨hb, -⟩
  · obtain ⟨e, es, rfl⟩ := List.exists_cons_of_ne_nil hne
    have hused := h.holds.used
    rw [hz] at hused
    simp only [FramePayload.zero, List.map_cons, List.sum_cons, EnPduNode.packetLength,
      sizeofGseFixedHeader] at hused
    omega
  · have hsum := hb.sum_eq
    obtain ⟨hbal, -⟩ := hb.update hc (Nat.zero_le _)
    have hused : (s.framePayload.update 0).usedPayload = s.framePayload.usedPayload :=
      u16_of_lt (by omega)
    refine ⟨⟨?_, ?_, ?_, h.holds.sized⟩, ?_, hne⟩
    · rw [hgroup, h.holds.packets]
    · rw [hgroup, h.holds.num]
    · rw [hpay, hused, h.holds.used]
    · rw [hpay]
      exact hbal

lemma Clean.idle_call (h : Clean conf k frame s) (hc : conf.Configured) :
    ∃ frame', Clean conf k frame' (s.encapsulateIslBb env conf .failedFetchModcod) ∧
      Passes conf frame (s.closing env conf .failedFetchModcod) frame' := by
  have hforce : Idle conf (s.encapsulateIslBb env conf .failedFetchModcod) :=
    (h.idle.forceSend env).1
  have hnum := h.holds.num
  by_cases hne : frame = []
  · have hzero : ¬ 0 < s.gseGroup.gseNum := by simp [hnum, hne]
    have hsame : s.encapsulateIslBb env conf .failedFetchModcod = s := by
      simp [encapsulateIslBb, Sender.forceSend, hzero]
    refine ⟨frame, by rw [hsame]; exact h, .inl ⟨?_, rfl⟩⟩
    simp [closing, hzero]
  · have hpos : 0 < s.gseGroup.gseNum := by
      rw [hnum]
      exact List.length_pos_iff.mpr hne
    have hsent : s.encapsulateIslBb env conf .failedFetchModcod =
        s.updateGseGroup.makeFrame env conf := by
      simp [encapsulateIslBb, Sender.forceSend, hpos]
    rw [hsent] at hforce ⊢
    refine ⟨[], ⟨hforce, h.counted, h.last, frameHolds_zero rfl rfl, by simp [Modest]⟩,
      .inr ⟨rfl, _, ?_, .idle h hc hne⟩⟩
    simp [closing, hpos]

end Steps

end Fengtai.Send
