import Fengtai.GseHeader
import Fengtai.Send.Fragment

set_option autoImplicit false

/-! Packing PDUs into GSE packets: `encapsulate_gse.c`. -/

namespace Fengtai.Send

open Library.Words Receive

def pduMaxNum : ℕ := 180

/-- One entry of `OPT_EXT_HEADER_INFO`; types stand as they lie in memory, swapped. -/
structure OptExtHeader where
  headerType : ℕ
  headerSize : ℕ
  headerValue : List UInt8
  nextType : ℕ

/-- One entry of `MAN_EXT_HEADER_INFO`. Its value is never written to a frame. -/
structure ManExtHeader where
  headerType : ℕ
  headerSize : ℕ
  nextType : ℕ

structure OnePdu where
  pduSize : ℕ
  pStart : Ptr
  mbufAddress : Option MbufAddr

def OnePdu.zero : OnePdu := ⟨0, .null, none⟩

structure PduGroup where
  macAddress : List UInt8
  pduNum : ℕ
  protocolType : ℕ
  pduTotalLength : ℕ
  fragmentFlag : Bool
  fragmentType : FragmentType
  fragmentID : ℕ
  fragmentedPduLength : ℕ
  crc32 : BitVec 32
  onePdu : ℕ → OnePdu
  optExtHeaderInfo : List OptExtHeader
  manExtHeaderInfo : List ManExtHeader
  modcod : ℕ
  labelType : LabelType
  labelSize : ℕ
  gseHeaderLength : ℕ
  extHeaderLength : ℕ
  gseDataLength : ℕ
  gseTotalLength : ℕ

/-- `reset_pdu_group`. -/
def PduGroup.zero : PduGroup where
  macAddress := List.replicate 6 0
  pduNum := 0
  protocolType := 0
  pduTotalLength := 0
  fragmentFlag := false
  fragmentType := .s
  fragmentID := 0
  fragmentedPduLength := 0
  crc32 := 0
  onePdu := fun _ => .zero
  optExtHeaderInfo := []
  manExtHeaderInfo := []
  modcod := 0
  labelType := .sixBytes
  labelSize := 0
  gseHeaderLength := 0
  extHeaderLength := 0
  gseDataLength := 0
  gseTotalLength := 0

def setLastOpt (hs : List OptExtHeader) (nextType : ℕ) : List OptExtHeader :=
  hs.dropLast ++ hs.getLast?.toList.map fun h => { h with nextType }

def setLastMan (hs : List ManExtHeader) (nextType : ℕ) : List ManExtHeader :=
  hs.dropLast ++ hs.getLast?.toList.map fun h => { h with nextType }

/-- `add_opt_extension_header` for a source of one header; `none` is the null pointer. -/
def addOptExtensionHeader (pheaderInfo : List OptExtHeader) (srcHeader : Option OptExtHeader)
    (pduType : ℕ) : List OptExtHeader :=
  match srcHeader with
  | none => pheaderInfo
  | some src =>
    if extHeaderMaxNum < pheaderInfo.length + 1 then pheaderInfo
    else
      setLastOpt (setLastOpt pheaderInfo src.headerType ++
        [{ src with
          headerSize := u16 (src.headerSize + 2)
          headerValue := src.headerValue.take src.headerSize }]) (bswap16 pduType)

def addManExtensionHeader (pheaderInfo : List ManExtHeader) (srcHeader : Option ManExtHeader)
    (pduType : ℕ) : List ManExtHeader :=
  match srcHeader with
  | none => pheaderInfo
  | some src =>
    if extHeaderMaxNum < pheaderInfo.length + 1 then pheaderInfo
    else
      setLastMan (setLastMan pheaderInfo src.headerType ++
        [{ src with headerSize := u16 (src.headerSize + 2) }]) (bswap16 pduType)

def PduGroup.addFirst (g : PduGroup) (node : EnPduNode) (labelType : LabelType) (labelSize : ℕ) :
    PduGroup :=
  { g with
    macAddress := node.macAddress
    protocolType := node.protocoltype
    pduTotalLength := node.pduSize
    fragmentedPduLength := if node.fragmentFlag then node.pduTotalLength else g.fragmentedPduLength
    labelType := labelType
    labelSize := labelSize
    modcod := node.modcod
    optExtHeaderInfo := addOptExtensionHeader g.optExtHeaderInfo none node.protocoltype
    manExtHeaderInfo := addManExtensionHeader g.manExtHeaderInfo none node.protocoltype }

def addToPduGroup (node : EnPduNode) (g : PduGroup) (labelType : LabelType) (labelSize : ℕ) :
    PduGroup :=
  let n := u16 (g.pduNum + 1)
  let g :=
    { g with
      pduNum := n
      fragmentFlag := node.fragmentFlag
      fragmentType := node.fragmentType
      fragmentID := node.fragmentID
      crc32 := node.crc32 }
  let g :=
    if n = 1 then g.addFirst node labelType labelSize
    else if n = 2 then { g with pduTotalLength := u16 (g.pduTotalLength + node.pduSize + 4) }
    else if 2 < n then { g with pduTotalLength := u16 (g.pduTotalLength + node.pduSize + 2) }
    else g
  if n ≤ pduMaxNum then
    { g with
      onePdu := Function.update g.onePdu (n - 1) ⟨node.pduSize, node.pPduStart, node.mbufAddress⟩ }
  else g

inductive EncapsulationType
  | whole
  | concat
  | frag
  | paramError
  deriving DecidableEq, Repr

def getEncapsulationType (pduNum : ℕ) (fragmentFlag : Bool) : EncapsulationType :=
  if pduNum = 1 then if fragmentFlag then .frag else .whole
  else if 1 < pduNum then if fragmentFlag then .paramError else .concat
  else .paramError

def calcGseVariableHeaderSize (encapsulationType : EncapsulationType) (fragmentType : FragmentType)
    (labelType : LabelType) (dataLength : ℕ) : GseVariableHeaderSize where
  fragmentIDSize := if encapsulationType = .frag then 1 else 0
  totalLengthSize := if encapsulationType = .frag ∧ fragmentType = .s then 2 else 0
  protocolTypeSize := if 0 < dataLength then 2 else 0
  labelSize := labelType.size

def calcGseLength (v : GseVariableHeaderSize) (dataLength : ℕ) : ℕ := u16 (v.total + dataLength)

/-- `calc_ext_header_length`, before it is cut to 16 bits. -/
def PduGroup.calcExtHeaderLength (g : PduGroup) : ℕ :=
  if g.manExtHeaderInfo.length ≤ extHeaderMaxNum then
    (g.optExtHeaderInfo.map OptExtHeader.headerSize).sum +
      (g.manExtHeaderInfo.map ManExtHeader.headerSize).sum
  else 0

/-- `calc_datafield_length`: PDUs, their length prefixes, the CRC of an END, extension headers. -/
def PduGroup.calcDatafieldLength (g : PduGroup) : ℕ :=
  let pdus :=
    if g.pduNum = 1 then
      (g.onePdu 0).pduSize + (if g.fragmentFlag ∧ g.fragmentType = .e then 4 else 0)
    else if g.pduNum ≤ pduMaxNum then
      ((List.range g.pduNum).map fun i => (g.onePdu i).pduSize + 2).sum
    else 0
  let opts :=
    if g.optExtHeaderInfo.length ≤ extHeaderMaxNum then
      (g.optExtHeaderInfo.map OptExtHeader.headerSize).sum
    else 0
  let mans :=
    if g.manExtHeaderInfo.length ≤ extHeaderMaxNum then
      (g.manExtHeaderInfo.map ManExtHeader.headerSize).sum
    else 0
  u16 (pdus + opts + mans)

/-- The statics of `update_pdu_group` that belong to one mapping. -/
structure SequenceCounters where
  fragCount : ℕ → ℕ
  fragmentID : ℕ
  firstEnterFlag : Bool

def SequenceCounters.initial : SequenceCounters := ⟨fun _ => 0, 0, false⟩

/-- A fragment of `id` comes by: a change of the ID starts a new count, kept below 8192. -/
def SequenceCounters.enter (c : SequenceCounters) (id : ℕ) : SequenceCounters :=
  let c := if c.firstEnterFlag then c else { c with fragmentID := id, firstEnterFlag := true }
  let c :=
    if c.fragmentID ≠ id then
      { c with fragmentID := id, fragCount := Function.update c.fragCount id (u16 (c.fragCount id + 1)) }
    else c
  if 8192 ≤ c.fragCount c.fragmentID then
    { c with fragCount := Function.update c.fragCount c.fragmentID 0 }
  else c

def SequenceCounters.timeSeq (c : SequenceCounters) (fragmentSeq : ℕ) : ℕ :=
  u16 ((c.fragCount c.fragmentID * 8) ||| fragmentSeq)

def fragSequenceHeader (timeSeq protocolType : ℕ) : OptExtHeader where
  headerType := bswap16 fragSequence
  headerSize := 2
  headerValue := be16 timeSeq
  nextType := bswap16 protocolType

def pduConcatHeader (protocolType : ℕ) : ManExtHeader where
  headerType := bswap16 pduConcat
  headerSize := 0
  nextType := bswap16 protocolType

/-- `update_pdu_group`: the PDU joins the group, its extension header follows, the lengths
are computed anew. The label type of the lengths is the argument. -/
def updatePduGroup (node : EnPduNode) (g : PduGroup) (labelType : LabelType) (labelSize : ℕ)
    (c : SequenceCounters) : PduGroup × SequenceCounters :=
  let g := addToPduGroup node g labelType labelSize
  let c := if node.fragmentFlag then c.enter node.fragmentID else c
  let g :=
    if node.fragmentFlag then
      { g with
        optExtHeaderInfo := addOptExtensionHeader g.optExtHeaderInfo
          (some (fragSequenceHeader (c.timeSeq node.fragmentSeq) g.protocolType)) g.protocolType }
    else if g.pduNum = 2 then
      { g with
        manExtHeaderInfo := addManExtensionHeader g.manExtHeaderInfo
          (some (pduConcatHeader g.protocolType)) g.protocolType }
    else g
  let datafieldLength := g.calcDatafieldLength
  let v := calcGseVariableHeaderSize (getEncapsulationType g.pduNum g.fragmentFlag)
    node.fragmentType labelType datafieldLength
  ({ g with
      gseHeaderLength := sizeofGseFixedHeader + v.total
      extHeaderLength := u16 g.calcExtHeaderLength
      gseDataLength := datafieldLength
      gseTotalLength := u16 (sizeofGseFixedHeader + calcGseLength v datafieldLength) }, c)

/-- `package_gse_fixed_header`: `GSE_Length` has twelve bits. -/
def packageGseFixedHeader (encapsulationType : EncapsulationType) (labelType : LabelType)
    (fragmentType : FragmentType) (dataLength : ℕ) : GseFixedHeader × GseVariableHeaderSize :=
  let v := calcGseVariableHeaderSize encapsulationType fragmentType labelType dataLength
  ({ gseLength := calcGseLength v dataLength % 4096
     labelType := labelType
     endIndicator :=
      match encapsulationType with
      | .whole => true
      | .concat => true
      | .frag => fragmentType == .e
      | .paramError => false
     startIndicator :=
      match encapsulationType with
      | .whole => true
      | .concat => true
      | .frag => fragmentType == .s
      | .paramError => false }, v)

def PduGroup.typeField (g : PduGroup) : List UInt8 :=
  match g.optExtHeaderInfo, g.manExtHeaderInfo with
  | h :: _, _ => le16 h.headerType
  | [], h :: _ => le16 h.headerType
  | [], [] => be16 g.protocolType

/-- The `total_length` field. -/
def PduGroup.totalLengthField (v : GseVariableHeaderSize) (g : PduGroup) : ℕ :=
  u16 (v.protocolTypeSize + v.labelSize + g.fragmentedPduLength + g.calcExtHeaderLength)

def packageGseVariableHeader (v : GseVariableHeaderSize) (g : PduGroup) : List UInt8 :=
  (if 0 < v.fragmentIDSize then [UInt8.ofNat g.fragmentID] else []) ++
  (if 0 < v.totalLengthSize then be16 (g.totalLengthField v) else []) ++
  (if 0 < v.protocolTypeSize then g.typeField else []) ++
  g.macAddress.take v.labelSize

/-- `ONE_GSE`. The header is `none` when `GSE_Length` is smaller than the data field: the size of
the header copy is then negative, which as a `size_t` is past every object. -/
structure OneGse where
  gseHeader : Option (List UInt8)
  gseHeaderSize : ℕ
  pduNum : ℕ
  fragmentFlag : Bool
  fragmentType : FragmentType
  fragmentID : ℕ
  crc32 : List UInt8
  onePdu : ℕ → OnePdu
  optExtHeaderInfo : List OptExtHeader
  manExtHeaderInfo : List ManExtHeader

def OneGse.zero : OneGse := ⟨some [], 0, 0, false, .s, 0, [], fun _ => .zero, [], []⟩

/-- `GSE_GROUP`, with the array behind `pOneGSE`; an index can be -1 once `gse_num` has wrapped. -/
structure GseGroup where
  modcod : ℕ
  totalLength : ℕ
  gseNum : ℕ
  pOneGse : ℤ → OneGse

def GseGroup.initial : GseGroup := ⟨0, 0, 0, fun _ => .zero⟩

/-- `reset_gse_group`. -/
def GseGroup.reset (g : GseGroup) : GseGroup := { g with modcod := 0, gseNum := 0, totalLength := 0 }

/-- The packet `encapsulate_gse` makes of a group. -/
def PduGroup.packet (g : PduGroup) : OneGse :=
  let datafieldLength := g.calcDatafieldLength
  let p := packageGseFixedHeader (getEncapsulationType g.pduNum g.fragmentFlag) g.labelType
    g.fragmentType datafieldLength
  { gseHeader :=
      if datafieldLength ≤ p.1.gseLength then
        some (be16 p.1.word ++
          (packageGseVariableHeader p.2 g).take (p.1.gseLength - datafieldLength))
      else none
    gseHeaderSize := u8 (sizeofGseFixedHeader + p.1.gseLength - datafieldLength)
    pduNum := g.pduNum
    fragmentFlag := g.fragmentFlag
    fragmentType := g.fragmentType
    fragmentID := g.fragmentID
    crc32 := be32 g.crc32.toNat
    onePdu := g.onePdu
    optExtHeaderInfo :=
      match g.manExtHeaderInfo with
      | [] => g.optExtHeaderInfo
      | h :: _ => setLastOpt g.optExtHeaderInfo h.headerType
    manExtHeaderInfo := g.manExtHeaderInfo }

/-- `encapsulate_gse`: the packet joins the group; the first one decides the modcod. -/
def encapsulateGse (pduGroup : PduGroup) (g : GseGroup) : GseGroup :=
  if pduGroup.pduNum = 0 then g
  else
    let n := u8 (g.gseNum + 1)
    { totalLength := u32 (g.totalLength + pduGroup.gseTotalLength)
      gseNum := n
      modcod := if n = 1 then pduGroup.modcod else g.modcod
      pOneGse := Function.update g.pOneGse ((n : ℤ) - 1) pduGroup.packet }

lemma encapsulateGse_newest {p : PduGroup} (hne : p.pduNum ≠ 0) (g : GseGroup) :
    (encapsulateGse p g).pOneGse (((encapsulateGse p g).gseNum : ℤ) - 1) = p.packet := by
  simp only [encapsulateGse, if_neg hne]
  exact Function.update_self _ _ _

def decideLabel (macLength1 : ℕ) (macAddress1 : List UInt8) (macLength2 : ℕ)
    (macAddress2 : List UInt8) (nullFrame : Bool) : LabelType × ℕ :=
  if getBroadcastType macAddress1 then (.broadcast, 0)
  else if !nullFrame && macLength1 == macLength2 &&
      macAddress1.take macLength1 == macAddress2.take macLength1 then (.reuse, 0)
  else (if macLength1 = 6 then .sixBytes else .threeBytes, macLength1)

/-- The label used last: the globals `last_mac_length` and `last_mac_address`. -/
structure LastLabel where
  macLength : ℕ
  macAddress : List UInt8

def LastLabel.initial : LastLabel := ⟨0, List.replicate 6 0⟩

def updateLastLabel (macLength1 : ℕ) (macAddress1 : List UInt8) (l : LastLabel) : LastLabel :=
  ⟨macLength1, macAddress1.take macLength1 ++ l.macAddress.drop macLength1⟩

structure FramePayload where
  usedPayload : ℕ
  usablePayload : ℕ
  maxPayload : ℕ
  frameModcod : ℕ
  deriving DecidableEq, Repr

def FramePayload.zero : FramePayload := ⟨0, 0, 0, 0⟩

def initFramePayload (modcod : ℕ) : FramePayload where
  maxPayload := mapModcodPayload modcod
  usedPayload := 0
  usablePayload := mapModcodPayload modcod
  frameModcod := modcod

/-- `update_frame_payload`. -/
def FramePayload.update (p : FramePayload) (deltaLength : ℕ) : FramePayload :=
  { p with
    usablePayload := sub16 p.usablePayload deltaLength
    usedPayload := u16 (p.usedPayload + deltaLength) }

end Fengtai.Send
