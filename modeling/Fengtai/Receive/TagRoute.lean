import Fengtai.Receive.FrameHeader

set_option autoImplicit false

/-! `process_frame_header` with the build option `TAG_ROUTE`, without `PCIE_SWITCH`. -/

namespace Fengtai.Receive.TagRoute

open Library.Words Crc

def multiFwdPduPack : ℕ := 17
def multiRtnPduPack : ℕ := 18

/-- `identify_isl`; the CRC stands in host order. -/
def identifyIsl (mem : Memory) (pISLHeader : ℕ) : Bool :=
  (crc32LookupTable (window mem pISLHeader (sizeofIslHeader - 4))).toNat == load32 mem (pISLHeader + 7)

/-- The case `ISL_PACK`. `msg_len` is taken as it lies in memory; `DFL` is converted where it
stands. -/
def processIsl (m : RteMbuf) (para : FrameParam) (pool : Pool) : HeaderResult :=
  let pISLHeader := sizeofL2L1MsgHeader
  let frameSize := sub16 (load16 m.data 18 + sizeofMacFrameHeader) sizeofL2L1MsgHeader
  let m := { m with data := ntohsAt m.data (pISLHeader + 5) }
  let dfl := load16 m.data (pISLHeader + 5)
  let reads := [(12, 2), (17, 1), (18, 2), (pISLHeader + 5, 2), (pISLHeader, sizeofIslHeader)]
  if identifyIsl m.data pISLHeader then
    { ret := 0
      para :=
        { paddingBytes := (((frameSize : ℤ) - sizeofIslHeader - dfl / 8) % 4294967296).toNat
          packType := (m.data 17).toNat
          gseOffset := sizeofL2L1MsgHeader + sizeofIslHeader
          headerSize := sizeofIslHeader
          frameSize := frameSize }
      mbuf := m
      pool := pool
      reads := reads }
  else ⟨-1, { para with headerSize := sizeofIslHeader }, m, pool.free m.addr, reads⟩

/-- The cases of the packs of PDUs: `msg_len` is converted where it stands. The offset that is
stored for them was never set; nobody reads it. -/
def processPdus (m : RteMbuf) (para : FrameParam) (pool : Pool) : HeaderResult :=
  let m := { m with data := ntohsAt m.data 18 }
  let msgLen := load16 m.data 18
  let reads := [(12, 2), (17, 1), (18, 2)]
  if msgLen = 0 then ⟨-1, para, m, pool.free m.addr, reads⟩
  else
    { ret := 0
      para :=
        { para with
          paddingBytes := 0
          packType := (m.data 17).toNat
          frameSize := sub16 (msgLen + sizeofMacFrameHeader) sizeofL2L1MsgHeader }
      mbuf := m
      pool := pool
      reads := reads }

/-- `process_frame_header`. `prepare_l2l1_pdu` rewrites an IP or ARP packet, or rejects it. -/
def processFrameHeader (prepareL2l1Pdu : RteMbuf → Option RteMbuf) (m : RteMbuf) (para : FrameParam)
    (pool : Pool) : HeaderResult :=
  let etherType := bswap16 (load16 m.data 12)
  let prepared :=
    if etherType = protocolIpv4 ∨ etherType = protocolArp then prepareL2l1Pdu m else some m
  match prepared with
  | none => ⟨-1, para, m, pool.free m.addr, [(12, 2)]⟩
  | some m =>
    let msgType := (m.data 17).toNat
    if etherType = 0x9101 then
      if msgType = enumFwdTxFwdData ∨ msgType = enumFwdRxFwdData then processFwdData m msgType para pool
      else if msgType = enumFwdTxIndication then processTxIndication m para pool
      else ⟨-1, para, m, pool.free m.addr, [(12, 2), (17, 1)]⟩
    else if msgType = islPack then processIsl m para pool
    else if msgType = multiFwdPduPack ∨ msgType = multiRtnPduPack ∨ msgType = fwdTunnelPdu ∨
        msgType = rtnTunnelPdu then
      processPdus m para pool
    else ⟨-1, para, m, pool.free m.addr, [(12, 2), (17, 1)]⟩

end Fengtai.Receive.TagRoute
