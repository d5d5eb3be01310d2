import Fengtai.Send.Encapsulate
import Fengtai.Send.Partition

set_option autoImplicit false

/-! What one call of `encapsulate_isl_bb` does to an empty group: the group it packs, and the
two cases in which it packs it. -/

namespace Fengtai.Send

open Library.Words Receive

/-- The data field of a lone PDU: the CRC of an END and the extension header of a fragment. -/
def EnPduNode.dataField (n : EnPduNode) : ℕ :=
  u16 (n.pduSize + (if n.fragmentFlag ∧ n.fragmentType = .e then 4 else 0) +
    (if n.fragmentFlag then 4 else 0))

def EnPduNode.headerSizes (n : EnPduNode) : GseVariableHeaderSize :=
  calcGseVariableHeaderSize (if n.fragmentFlag then .frag else .whole) n.fragmentType .broadcast
    n.dataField

def EnPduNode.group (n : EnPduNode) (timeSeq : ℕ) : PduGroup where
  macAddress := n.macAddress
  pduNum := 1
  protocolType := n.protocoltype
  pduTotalLength := n.pduSize
  fragmentFlag := n.fragmentFlag
  fragmentType := n.fragmentType
  fragmentID := n.fragmentID
  fragmentedPduLength := if n.fragmentFlag then n.pduTotalLength else 0
  crc32 := n.crc32
  onePdu := Function.update (fun _ => .zero) 0 ⟨n.pduSize, n.pPduStart, n.mbufAddress⟩
  optExtHeaderInfo :=
    if n.fragmentFlag then
      [⟨bswap16 fragSequence, 4, be16 timeSeq, bswap16 n.protocoltype⟩]
    else []
  manExtHeaderInfo := []
  modcod := n.modcod
  labelType := .broadcast
  labelSize := 0
  gseHeaderLength := sizeofGseFixedHeader + n.headerSizes.total
  extHeaderLength := if n.fragmentFlag then 4 else 0
  gseDataLength := n.dataField
  gseTotalLength := u16 (sizeofGseFixedHeader + calcGseLength n.headerSizes n.dataField)

def SequenceCounters.after (c : SequenceCounters) (n : EnPduNode) : SequenceCounters :=
  if n.fragmentFlag then c.enter n.fragmentID else c

def EnPduNode.sizesWith (n : EnPduNode) (l : LabelType) : GseVariableHeaderSize :=
  calcGseVariableHeaderSize (if n.fragmentFlag then .frag else .whole) n.fragmentType l n.dataField

def EnPduNode.labelled (n : EnPduNode) (l : LabelType) (labelSize timeSeq : ℕ) : PduGroup :=
  { n.group timeSeq with
    labelType := l
    labelSize := labelSize
    gseHeaderLength := sizeofGseFixedHeader + (n.sizesWith l).total
    gseTotalLength := u16 (sizeofGseFixedHeader + calcGseLength (n.sizesWith l) n.dataField) }

lemma updatePduGroup_labelled (n : EnPduNode) (l : LabelType) (labelSize : ℕ) (c : SequenceCounters) :
    updatePduGroup n .zero l labelSize c =
      (n.labelled l labelSize ((c.after n).timeSeq n.fragmentSeq), c.after n) := by
  cases hf : n.fragmentFlag
  · simp [updatePduGroup, addToPduGroup, PduGroup.addFirst, PduGroup.zero, EnPduNode.labelled,
      EnPduNode.group, EnPduNode.sizesWith, EnPduNode.dataField, PduGroup.calcDatafieldLength,
      PduGroup.calcExtHeaderLength, getEncapsulationType, addOptExtensionHeader,
      addManExtensionHeader, pduMaxNum, hf, u16, SequenceCounters.after]
  · simp [updatePduGroup, addToPduGroup, PduGroup.addFirst, PduGroup.zero, EnPduNode.labelled,
      EnPduNode.group, EnPduNode.sizesWith, EnPduNode.dataField, PduGroup.calcDatafieldLength,
      PduGroup.calcExtHeaderLength, getEncapsulationType, addOptExtensionHeader,
      addManExtensionHeader, pduMaxNum, hf, u16, SequenceCounters.after, fragSequenceHeader,
      setLastOpt, be16, extHeaderMaxNum]

lemma updatePduGroup_zero (n : EnPduNode) (c : SequenceCounters) :
    updatePduGroup n .zero .broadcast 0 c =
      (n.group ((c.after n).timeSeq n.fragmentSeq), c.after n) :=
  updatePduGroup_labelled n .broadcast 0 c

lemma EnPduNode.group_datafield (n : EnPduNode) (t : ℕ) :
    (n.group t).calcDatafieldLength = n.dataField := by
  cases hf : n.fragmentFlag <;>
    simp [EnPduNode.group, PduGroup.calcDatafieldLength, EnPduNode.dataField, hf, extHeaderMaxNum]

lemma EnPduNode.group_encapsulationType (n : EnPduNode) (t : ℕ) :
    getEncapsulationType (n.group t).pduNum (n.group t).fragmentFlag =
      if n.fragmentFlag then .frag else .whole := by
  cases hf : n.fragmentFlag <;> simp [EnPduNode.group, getEncapsulationType, hf]

def EnPduNode.packetLength (n : EnPduNode) : ℕ :=
  sizeofGseFixedHeader + n.headerSizes.total + n.dataField

lemma EnPduNode.headerSizes_le (n : EnPduNode) : n.headerSizes.total ≤ 5 := by
  simp only [headerSizes, calcGseVariableHeaderSize, GseVariableHeaderSize.total, LabelType.size]
  split_ifs <;> omega

lemma EnPduNode.group_total {n : EnPduNode} (h : n.dataField < 60000) (t : ℕ) :
    (n.group t).gseTotalLength = n.packetLength := by
  have hs := n.headerSizes_le
  have hc : calcGseLength n.headerSizes n.dataField = n.headerSizes.total + n.dataField :=
    u16_of_lt (by omega)
  simp only [EnPduNode.group, hc, EnPduNode.packetLength, ← Nat.add_assoc]
  exact u16_of_lt (by simp only [sizeofGseFixedHeader]; omega)

namespace Sender

lemma decideLabel_broadcast {s : Sender} (h : s.usingPdu.macAddress = boardcastAddress)
    (nullFrame : Bool) : s.decideLabel nullFrame = (.broadcast, 0) := by
  have hb : getBroadcastType boardcastAddress = true := by decide
  simp [decideLabel, Send.decideLabel, h, hb]

lemma updatePduGroup_of_zero {s : Sender} (h : s.pduGroup = .zero) :
    s.updatePduGroup (.broadcast, 0) =
      { s with
        pduGroup := s.usingPdu.group ((s.counters.after s.usingPdu).timeSeq s.usingPdu.fragmentSeq)
        counters := s.counters.after s.usingPdu } := by
  simp only [updatePduGroup, h, updatePduGroup_zero]

/-- The packet of `using_pdu` joins the frame. -/
def pack (s : Sender) : Sender :=
  let c := s.counters.after s.usingPdu
  let g := s.usingPdu.group (c.timeSeq s.usingPdu.fragmentSeq)
  { s with
    counters := c
    framePayload := s.framePayload.update g.gseTotalLength
    gseGroup := encapsulateGse g s.gseGroup
    packed := s.packed ++ [g] }

lemma updateGseGroup_updatePduGroup {s : Sender} (h : s.pduGroup = .zero) :
    (s.updatePduGroup (.broadcast, 0)).updateGseGroup = s.pack := by
  rw [updatePduGroup_of_zero h]
  simp [updateGseGroup, pack, EnPduNode.group, h]

def closeFull (env : SendEnv) (conf : AppConf) (s : Sender) : Sender :=
  if s.framePayload.usablePayload < conf.paddingThreshold then s.makeFrame env conf else s

variable (env : SendEnv) {conf : AppConf} {s : Sender} {readOk : ReadOk}

/-- Case 1.1: the packet fits. -/
lemma encapsulateIslBb_fits (hok : readOk ≠ .failedFetchModcod) (hz : s.pduGroup = .zero)
    (hmac : s.usingPdu.macAddress = boardcastAddress) (hd : s.usingPdu.dataField < 60000)
    (hfit : s.usingPdu.packetLength ≤ s.openFrame.framePayload.usablePayload) :
    s.encapsulateIslBb env conf readOk = s.openFrame.pack.updateLastLabel.closeFull env conf := by
  have hlabel : s.openFrame.decideLabel (s.framePayload.maxPayload == 0) = (.broadcast, 0) :=
    decideLabel_broadcast hmac _
  have hgroup : s.openFrame.pduGroup = .zero := hz
  simp only [encapsulateIslBb, if_neg hok, hlabel, placeGroup]
  rw [updateGseGroup_updatePduGroup hgroup, updatePduGroup_of_zero hgroup, if_pos]
  · rfl
  · rw [EnPduNode.group_total (by exact hd)]
    exact hfit

/-- The first fragment of `using_pdu`, and the plan for the others. -/
def split (conf : AppConf) (nullFrame : Bool) (s : Sender) : Sender :=
  let r := doFragment nullFrame s.framePayload.maxPayload s.framePayload.usablePayload s.usingPdu
    s.fragments
  let f := fetchPduFragment conf s.usingPdu r.1
  { s with fragments := f.fragments, usingPdu := f.node }

/-- Case 1.2.2: the packet does not fit, but a first fragment does. -/
lemma encapsulateIslBb_splits (hok : readOk ≠ .failedFetchModcod) (hz : s.pduGroup = .zero)
    (hmac : s.usingPdu.macAddress = boardcastAddress) (hd : s.usingPdu.dataField < 60000)
    (hlong : s.openFrame.framePayload.usablePayload < s.usingPdu.packetLength)
    (hroom : conf.paddingThreshold ≤ s.openFrame.framePayload.usablePayload) :
    s.encapsulateIslBb env conf readOk =
      (({ s.openFrame.updateLastLabel with counters := s.counters.after s.usingPdu }.split conf
        (s.framePayload.maxPayload == 0)).pack).makeFrame env conf := by
  have hlabel : s.openFrame.decideLabel (s.framePayload.maxPayload == 0) = (.broadcast, 0) :=
    decideLabel_broadcast hmac _
  have hgroup : s.openFrame.pduGroup = .zero := hz
  simp only [encapsulateIslBb, if_neg hok, hlabel, placeGroup]
  rw [updatePduGroup_of_zero hgroup, if_neg, if_neg (not_lt.mpr hroom)]
  · rw [fragmentProcess, updateGseGroup_updatePduGroup rfl]
    simp only [updateLastLabel, split, hgroup]
    rfl
  · rw [EnPduNode.group_total (by exact hd)]
    exact not_le.mpr hlong

end Sender

end Fengtai.Send
