import Fengtai.Router

set_option autoImplicit false

/-! Taking a multi-PDU pack apart: `decapsulate_pdu`. -/

namespace Fengtai.Receive

open Library.Words

def decapMbufSize : ℕ := 8192

/-- What `decapsulate_pdu` works on: the global `router_header`, and what went to `router_func`. -/
structure PduDecap where
  pool : Pool
  routerHeader : ℕ → Memory
  routed : List RteMbuf

/-- `rte_pktmbuf_append` on a new buffer, filled; without the room for it a null pointer is
written through. -/
def RteMbuf.fill (m : RteMbuf) (bytes : List UInt8) : Option RteMbuf :=
  if bytes.length ≤ mbufTailroom then
    some { m with data := overwrite m.data bytes, dataLen := bytes.length }
  else none

/-- The header that came with a return packet gives its `S` and `T` to the one of the table. -/
def PduDecap.setST (rc : RouterConf) (mem : Memory) (id : ℕ) (s : PduDecap) : PduDecap :=
  { s with
    routerHeader := Function.update s.routerHeader id
      (overwrite (s.routerHeader id)
        (rc.copyST (window (s.routerHeader id) 0 rc.routerHeaderLen)
          (window mem 0 rc.routerHeaderLen))) }

def PduDecap.route (d : RteMbuf) (s : PduDecap) : PduDecap := { s with routed := s.routed ++ [d] }

/-- One PDU, at the start of what is left of `m` and `len` bytes long: the buffer behind it, and
the buffer `d` on its way. -/
def PduDecap.takePdu (rc : RouterConf) (m d : RteMbuf) (len : ℕ) (s : PduDecap) :
    Option (RteMbuf × PduDecap) :=
  let routerHeaderSize := rc.sizeAt m.data 0
  if rc.isRtn m.data 0 then
    match rc.decideRouterTable m.data 0 with
    | none => none
    | some (id, mem) =>
      let s := s.setST rc m.data id
      let m := { m with data := mem }.adj routerHeaderSize
      let msgLen := sub16 len routerHeaderSize
      (d.fill (window (s.routerHeader id) 0 (rc.routerHeaderSize id) ++
        window m.data 0 msgLen)).map fun d => (m.adj msgLen, s.route d)
  else
    (d.fill (window m.data 0 len)).map fun d =>
      ((m.adj routerHeaderSize).adj (sub16 len routerHeaderSize), s.route d)

/-- The loop of `decapsulate_pdu`. -/
def PduDecap.loop (env : Dpdk) (rc : RouterConf) (protocolType : ℕ) (frameSize : ℤ) :
    ℕ → RteMbuf → ℕ → PduDecap → Option PduDecap
  | 0, _, _, _ => none
  | k + 1, m, pduTotalLen, s =>
    if (pduTotalLen : ℤ) < frameSize then
      let dataLen := bswap16 (load16 m.data 0)
      let m := m.adj 2
      if decapMbufSize < dataLen then some { s with pool := s.pool.free m.addr }
      else
        match s.pool.alloc env with
        | (none, pool) => some { s with pool := pool.free m.addr }
        | (some d, pool) =>
          match PduDecap.takePdu rc m { d with protocolType := protocolType } dataLen
              { s with pool := pool } with
          | none => none
          | some (m, s) =>
            PduDecap.loop env rc protocolType frameSize k m (u16 (pduTotalLen + dataLen + 2)) s
    else some { s with pool := s.pool.free m.addr }

/-- More PDUs than a frame of 32767 bytes can hold. -/
def pduTurns : ℕ := 32768

def decapsulatePdu (env : Dpdk) (rc : RouterConf) (m : RteMbuf) (frameSize : ℤ) (s : PduDecap) :
    Option PduDecap :=
  PduDecap.loop env rc m.protocolType frameSize pduTurns (m.adj sizeofL2L1MsgHeader) 0 s

/-- The `frame_size` of a multi-PDU pack, from the `msg_len` of its header. -/
def multiPduFrameSize (mem : Memory) : ℤ :=
  bswap16 (load16 mem 18) + sizeofMacFrameHeader - sizeofL2L1MsgHeader

end Fengtai.Receive
