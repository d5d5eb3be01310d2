import Fengtai.Receive.FrameHeader

set_option autoImplicit false

/-! A received frame as a whole: `get_single_pdu`, the loop of `decapsulate_gse`, and
`dispatch_decap_pkt` in the default build. -/

namespace Fengtai.Receive

open Library.Words

/-- The packet library as the receiver meets it, with `g_st_app_conf.local_mac[0]`. -/
structure RecvEnv extends Dpdk where
  localAirMac : List UInt8

/-- What `decapsulate.c` keeps from one frame to the next, and the world. -/
structure Receiver where
  table : Table
  previousMacInfo : PreviousMacInfo
  pool : Pool

def Receiver.initial : Receiver := ⟨.initial, .initial, .fresh⟩

/-- `get_single_pdu`, and what it reads of the frame. -/
def getSinglePdu (env : Dpdk) (mem : Memory) (ptrDatafield datafieldLength protocolType : ℕ)
    (p : Pool) : Pool × Reads :=
  if protocolType = protocolCtrl then (p, [(ptrDatafield + 1, 1)])
  else
    match p.alloc env with
    | (none, p) => (p, [])
    | (some m, p) =>
      if mbufTailroom < datafieldLength then (p.free m.addr, [])
      else
        (p.enqueueEncapRing env
          { m with
            data := overwrite m.data (window mem ptrDatafield datafieldLength)
            dataLen := datafieldLength
            protocolType := protocolType } 0, [(ptrDatafield, datafieldLength)])

structure Parsed where
  fixedHeader : GseFixedHeader
  varHeader : GseVariableHeader
  ext : ExtWalk
  ptrDatafield : ℕ
  datafieldLength : ℕ

/-- `var_header_size` holds the variable header and the last extension header. -/
def parsePacket (mem : Memory) (pGSE timestampSeq : ℕ) : Option Parsed :=
  let (fixedHeader, v) := decapsulateGseHeader mem pGSE
  (walkExtHeaders mem pGSE v timestampSeq).map fun w =>
    { fixedHeader := fixedHeader
      varHeader := v
      ext := w
      ptrDatafield := pGSE + w.offset
      datafieldLength := sub16 fixedHeader.gseLength (u16 (w.varHeaderSize + v.size.total)) }

namespace Parsed

/-- `start_end_indicator`, for the packets that are fragments. -/
def fragType (p : Parsed) : Option FragType :=
  match p.fixedHeader.startIndicator, p.fixedHeader.endIndicator with
  | true, true => none
  | true, false => some .start
  | false, false => some .middle
  | false, true => some .last

/-- The fragment as the reassembly functions get it; `temp_header_size` has eight bits. -/
def arrival (mem : Memory) (now : ℕ) (kind : FragType) (p : Parsed) : Arrival where
  fragType := kind
  datafield := fun i => mem (p.ptrDatafield + i)
  timestampSeq := p.ext.timestampSeq
  fragLen := p.datafieldLength
  now := now
  totalLength := p.varHeader.totalLength
  headerLength := u8 (u16 (p.ext.varHeaderSize + p.varHeader.size.total) -
    (p.varHeader.size.fragmentIDSize + p.varHeader.size.totalLengthSize))
  protocolType := p.ext.nextType

/-- What the reassembly functions read of the data field when they store the fragment. -/
def fragmentReads (mem : Memory) (now : ℕ) (c : FragCell) (kind : FragType) (p : Parsed) : Reads :=
  let a := p.arrival mem now kind
  let copy := (p.ptrDatafield, p.datafieldLength)
  match kind with
  | .start =>
    if 0 < a.fragSeq then []
    else if a.protocolType = protocolCtrl then [copy, (p.ptrDatafield + 1, 1)] else [copy]
  | _ =>
    if hs : a.fragSeq < fragMaxNum then
      let f := c.info (c.select a.timeStamp).1
      let f := (f.dropOld ⟨a.fragSeq, hs⟩).countLength (kind = .last) a.fragLen
      if f.overrun then [] else [copy]
    else [copy]

end Parsed

/-- What handling a packet reads, and the receiver after it; `none` when the packet has made a
function leave its tables, and nothing is defined any more. -/
structure Handled where
  reads : Reads
  receiver : Option Receiver

def Parsed.handle (env : RecvEnv) (mem : Memory) (port now : ℕ) (r : Receiver) (p : Parsed) :
    Handled :=
  match p.fragType with
  | none =>
    if p.ext.protocolType = pduConcat then
      match getConcatPdu mem p.ptrDatafield p.datafieldLength with
      | none => ⟨[], none⟩
      | some c => ⟨c.reads, some r⟩
    else
      let s := getSinglePdu env.toDpdk mem p.ptrDatafield p.datafieldLength p.ext.nextType r.pool
      ⟨s.2, some { r with pool := s.1 }⟩
  | some kind =>
    let fragID := p.varHeader.fragmentID
    ⟨p.fragmentReads mem now (r.table port fragID) kind,
      (reassemble env.toDpdk fragID (r.table port fragID, r.pool) (p.arrival mem now kind)).map
        fun s => { r with table := r.table.set port fragID s.1.1, pool := s.1.2 }⟩

/-- The variables of the loop of `decapsulate_gse`. -/
structure GseWalk where
  pGSE : ℕ
  handleTotalSize : ℕ
  timestampSeq : ℕ
  bfirstGse : Bool
  reads : Reads
  receiver : Option Receiver

/-- `filter_address` on the packet at hand. -/
def GseWalk.filter (env : RecvEnv) (mem : Memory) (r : Receiver) (w : GseWalk) :
    ℤ × PreviousMacInfo :=
  let (fixedHeader, v) := decapsulateGseHeader mem w.pGSE
  filterAddress fixedHeader.labelType v.label env.localAirMac w.bfirstGse r.previousMacInfo

/-- One turn. A packet whose label is not ours is passed over; `now` is the time at which the
packet at an offset is handled. -/
def GseWalk.turn (env : RecvEnv) (mem : Memory) (port : ℕ) (now : ℕ → ℕ) (w : GseWalk) : GseWalk :=
  match w.receiver with
  | none => w
  | some r =>
    let (fixedHeader, v) := decapsulateGseHeader mem w.pGSE
    let (macMatch, previous) := w.filter env mem r
    let r := { r with previousMacInfo := previous }
    let passed : GseWalk :=
      { w with
        pGSE := w.pGSE + sizeofGseFixedHeader + fixedHeader.gseLength
        handleTotalSize := u32 (w.handleTotalSize + sizeofGseFixedHeader + fixedHeader.gseLength)
        reads := w.reads ++ [(w.pGSE, sizeofGseFixedHeader + v.size.total)]
        receiver := some r }
    if macMatch = 1 then
      match parsePacket mem w.pGSE w.timestampSeq with
      | none => { passed with receiver := none }
      | some p =>
        let h := p.handle env mem port (now w.pGSE) r
        { passed with
          timestampSeq := p.ext.timestampSeq
          bfirstGse := false
          reads := passed.reads ++ p.ext.reads ++ h.reads
          receiver := h.receiver }
    else passed

/-- `header_size` of `decapsulate_gse`. -/
def gseHeaderSize (packType : ℕ) : ℕ :=
  if packType = islPack then sizeofIslHeader else sizeofBbHeader

/-- The test at the end of the loop, in 32 bits. -/
def GseWalk.goesOn (para : FrameParam) (w : GseWalk) : Bool :=
  u32 (gseHeaderSize para.packType + w.handleTotalSize + para.paddingBytes) < para.frameSize

def GseWalk.run (env : RecvEnv) (mem : Memory) (port : ℕ) (now : ℕ → ℕ) (para : FrameParam) :
    ℕ → GseWalk → Option GseWalk
  | 0, _ => none
  | k + 1, w =>
    let w := w.turn env mem port now
    if w.receiver.isSome ∧ w.goesOn para then GseWalk.run env mem port now para k w else some w

/-- More packets than a frame of 65535 bytes can hold. -/
def gseTurns : ℕ := 32769

def GseWalk.first (gseOffset : ℕ) (r : Receiver) : GseWalk where
  pGSE := gseOffset
  handleTotalSize := 0
  timestampSeq := 0
  bfirstGse := true
  reads := []
  receiver := some r

/-- `decapsulate_gse` up to the free of the frame. -/
def walkGse (env : RecvEnv) (mem : Memory) (port : ℕ) (now : ℕ → ℕ) (para : FrameParam)
    (r : Receiver) : Option GseWalk :=
  GseWalk.run env mem port now para gseTurns (.first para.gseOffset r)

def decapsulateGse (env : RecvEnv) (m : RteMbuf) (port : ℕ) (now : ℕ → ℕ) (para : FrameParam)
    (r : Receiver) : Option Receiver :=
  (walkGse env m.data port now para r).bind fun w =>
    w.receiver.map fun r => { r with pool := r.pool.free m.addr }

/-- `dispatch_decap_pkt`. The multi-PDU packs are left out: `process_frame_header` of this build
never names one. -/
def dispatchDecapPkt (env : RecvEnv) (m : RteMbuf) (queueId : ℕ) (now : ℕ → ℕ) (para : FrameParam)
    (r : Receiver) : Option Receiver :=
  let h := processFrameHeader m para r.pool
  let r := { r with pool := h.pool }
  if h.ret = -1 ∨ h.ret = 2 then some r
  else if h.para.packType = islPack ∨ h.para.packType = enumFwdTxFwdData ∨
      h.para.packType = enumFwdRxFwdData then
    decapsulateGse env h.mbuf queueId now h.para r
  else if h.para.packType = fwdTunnelPdu ∨ h.para.packType = rtnTunnelPdu then
    some { r with pool := r.pool.enqueueEncapRing env.toDpdk h.mbuf queueId }
  else some r

def fragTimeoutThresholdUs : ℕ := 5

/-- `t_us - t0_us` of `fragment_timeout`, in 64 bits. -/
def elapsedUs (tUs t0Us : ℕ) : ℕ := (tUs + (18446744073709551616 - t0Us)) % 18446744073709551616

/-- `fragment_timeout` for one port and fragment ID: the buffer at the head of the index list. -/
def FragCell.timeout (tUs : ℕ) (s : FragCell × Pool) : FragCell × Pool :=
  let i := s.1.indexList.header
  let f := s.1.info i
  if 0 < f.t0Us ∧ fragTimeoutThresholdUs ≤ elapsedUs tUs f.t0Us then
    ({ s.1 with indexList := s.1.indexList.rotate }.set i f.reset, s.2.freeHeld f.pduNode.ptrPdu)
  else (s.1.set i { f with timeoutFlag := false }, s.2)

def maxDeviceNum : ℕ := 8
def maxFragId : ℕ := 256

def fragmentTimeout (tUs : ℕ) (r : Receiver) : Receiver :=
  (List.product (List.range maxDeviceNum) (List.range maxFragId)).foldl (fun r x =>
    let s := FragCell.timeout tUs (r.table x.1 x.2, r.pool)
    { r with table := r.table.set x.1 x.2 s.1, pool := s.2 }) r

end Fengtai.Receive
