import Fengtai.Crc
import Fengtai.Receive.Packet

set_option autoImplicit false

/-! The headers in front of the GSE packets: `process_frame_header`, without the build option
`TAG_ROUTE`. -/

namespace Fengtai.Receive

open Library.Words Crc

def enumFwdTxIndication : ℕ := 0x01
def enumFwdRxFwdData : ℕ := 0x16
def fwdTunnelPdu : ℕ := 1
def rtnTunnelPdu : ℕ := 2

def sizeofRteEtherHdr : ℕ := 14
def sizeofFwdTxIndication : ℕ := 48

/-- `rte_pktmbuf_adj`. -/
def RteMbuf.adj (len : ℕ) (m : RteMbuf) : RteMbuf :=
  if m.dataLen < len then m
  else { m with data := fun i => m.data (len + i), dataLen := m.dataLen - len }

/-- `FRAME_PARAM`, as far as the receiver uses it. `frame_size` is stored as an `int16_t` and read
as a `uint16_t`. -/
structure FrameParam where
  paddingBytes : ℕ
  packType : ℕ
  gseOffset : ℕ
  headerSize : ℕ
  frameSize : ℕ

/-- `identify_gs`: the CRC holds and `TS_GS` names a generic stream. -/
def identifyGs (mem : Memory) (pBBHeader : ℕ) : Bool :=
  mcsGetCrc8 (window mem pBBHeader (sizeofBbHeader - 1)) == mem (pBBHeader + 9) &&
    (mem pBBHeader).toNat / 64 < 2

/-- What `process_frame_header` returns and leaves, and what it has read of the frame. -/
structure HeaderResult where
  ret : ℤ
  para : FrameParam
  mbuf : RteMbuf
  pool : Pool
  reads : Reads

/-- The cases `ENUM_FWD_Tx_FWD_Data` and `ENUM_FWD_Rx_FWD_Data`. The priority is read for the
statistics alone. -/
def processFwdData (m : RteMbuf) (msgType : ℕ) (para : FrameParam) (pool : Pool) : HeaderResult :=
  let pCodeBlock := sizeofL2L1MsgHeader
  let pFrame := pCodeBlock + sizeofL2L1Header
  let frameSize := bswap16 (load16 m.data (pCodeBlock + 10))
  let dfl := bswap16 (load16 m.data (pFrame + 4))
  let reads := [(12, 2), (17, 1), (pCodeBlock + 8, 1), (pCodeBlock + 10, 2), (pFrame + 4, 2),
    (pFrame, sizeofBbHeader)]
  if identifyGs m.data pFrame then
    { ret := 0
      para :=
        { paddingBytes := (((frameSize : ℤ) - sizeofBbHeader - dfl / 8) % 4294967296).toNat
          packType := msgType
          gseOffset := pFrame + sizeofBbHeader
          headerSize := sizeofBbHeader
          frameSize := frameSize }
      mbuf := m
      pool := pool
      reads := reads }
  else ⟨-1, { para with headerSize := sizeofBbHeader }, m, pool.free m.addr, reads⟩

/-- The case `ENUM_FWD_Tx_Indication`: a report of the modem, not a frame. What is done with it is
left out. -/
def processTxIndication (m : RteMbuf) (para : FrameParam) (pool : Pool) : HeaderResult :=
  let reads := [(12, 2), (17, 1), (18, 2)]
  if bswap16 (load16 m.data 18) = sizeofL2L1MsgHeader + sizeofFwdTxIndication - sizeofRteEtherHdr then
    ⟨2, para, m.adj sizeofL2L1MsgHeader, pool.free m.addr, reads⟩
  else ⟨-1, para, m, pool.free m.addr, reads⟩

/-- `process_frame_header`; `para` is what the caller has on its stack. -/
def processFrameHeader (m : RteMbuf) (para : FrameParam) (pool : Pool) : HeaderResult :=
  let etherType := bswap16 (load16 m.data 12)
  if etherType = 0x9101 then
    let msgType := (m.data 17).toNat
    if msgType = enumFwdTxFwdData ∨ msgType = enumFwdRxFwdData then processFwdData m msgType para pool
    else if msgType = enumFwdTxIndication then processTxIndication m para pool
    else ⟨-1, para, m, pool.free m.addr, [(12, 2), (17, 1)]⟩
  else if etherType = protocolArp ∨ etherType = protocolIpv4 then
    ⟨0, { para with packType := rtnTunnelPdu },
      { m.adj sizeofRteEtherHdr with protocolType := etherType }, pool, [(12, 2)]⟩
  else ⟨-1, para, m, pool.free m.addr, [(12, 2)]⟩

section Forward

variable {m : RteMbuf} {para : FrameParam} {pool : Pool}

lemma processFrameHeader_forward (hret : (processFrameHeader m para pool).ret = 0)
    (htype : (processFrameHeader m para pool).para.packType = enumFwdTxFwdData ∨
      (processFrameHeader m para pool).para.packType = enumFwdRxFwdData) :
    bswap16 (load16 m.data 12) = 0x9101 ∧
      ((m.data 17).toNat = enumFwdTxFwdData ∨ (m.data 17).toNat = enumFwdRxFwdData) ∧
      identifyGs m.data 56 = true := by
  simp only [processFrameHeader] at hret htype
  split_ifs at hret htype with hether hmsg
  · refine ⟨hether, hmsg, ?_⟩
    simp only [processFwdData] at hret
    split_ifs at hret with hgs
    · exact hgs
    · simp at hret
  · simp only [processTxIndication] at hret
    split_ifs at hret
    · simp at hret
    · simp at hret
  · simp at hret
  · simp [rtnTunnelPdu, enumFwdTxFwdData, enumFwdRxFwdData] at htype
  · simp at hret

lemma processFrameHeader_of_forward (hether : bswap16 (load16 m.data 12) = 0x9101)
    (hmsg : (m.data 17).toNat = enumFwdTxFwdData ∨ (m.data 17).toNat = enumFwdRxFwdData) :
    processFrameHeader m para pool = processFwdData m (m.data 17).toNat para pool := by
  simp only [processFrameHeader, if_pos hether, if_pos hmsg]

end Forward

end Fengtai.Receive
