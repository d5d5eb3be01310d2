import Fengtai.Send.Gse

set_option autoImplicit false

/-! From a group of GSE packets to a frame on the ring: `encapsulate_frame.c`, without the
build option `TAG_ROUTE`. -/

namespace Fengtai.Send

open Library.Words Crc Receive

def fifoItemSize : ℕ := 7373

def plsCodeNormalCbInsertPilot : List ℕ :=
  [2, 5, 9, 13, 17, 21, 25, 29, 33, 37, 41, 45, 49, 53, 57, 61, 65, 69, 73, 77, 81, 85, 89, 93, 97,
    101, 105, 109, 113]

/-- `mcs_get_pls_code` for normal code blocks. -/
def mcsGetPlsCode (modcod : ℕ) : ℕ := if 28 < modcod then 0 else plsCodeNormalCbInsertPilot.getD modcod 0

/-- The packet library as the sender meets it; `mac_rev` is a field nobody writes. -/
structure SendEnv extends Dpdk where
  macRev : ℕ → UInt8 × UInt8

/-- The first nine bytes of the header `init_BBHeader` prepares, with `DFL` filled in. -/
def bbHeaderFields (dfl : ℕ) : List UInt8 := [0x60, 0, 0, 0] ++ be16 dfl ++ [0, 0, 0]

/-- `package_BBHeader`: the data field length counts bits. -/
def packageBBHeader (bbframeSize dataSize : ℕ) : Option (List UInt8) :=
  if dataSize ≤ bbframeSize - sizeofBbHeader then
    some (bbHeaderFields (u16 (dataSize * 8)) ++ [mcsGetCrc8 (bbHeaderFields (u16 (dataSize * 8)))])
  else none

/-- `padding`, for a header that carries `dataSize`. -/
def padding (bbframeSize dataSize : ℕ) : ℕ :=
  sub16 (sub16 bbframeSize sizeofBbHeader) (u16 (dataSize * 8) / 8)

/-- The first seven bytes of an ISL header; the length is stored in host order. -/
def islHeaderFields (dfl : List UInt8) : List UInt8 := [0, 0, 0, 0, 0] ++ dfl

/-- `package_ISLHeader`. The CRC is computed before `encapsulate_frame` swaps the length. -/
def packageISLHeader (islframeSize dataSize : ℕ) : Option (List UInt8) :=
  if dataSize ≤ islframeSize - sizeofIslHeader then
    some (islHeaderFields (be16 (u16 (dataSize * 8))) ++
      (be32 (crc32LookupTable (islHeaderFields (le16 (u16 (dataSize * 8))))).toNat).reverse)
  else none

def islPadding (islframeSize dataSize : ℕ) : ℕ :=
  sub16 (sub16 islframeSize sizeofIslHeader) (u16 (dataSize * 8) / 8)

def packageL2L1Header (frameSize modcod : ℕ) : List UInt8 :=
  [0, 0, 0, 0, 0x11, 1, UInt8.ofNat (mcsGetPlsCode modcod), 1, 0x20, 0] ++ be16 frameSize ++
    List.replicate 20 0

def encodeInnerHeader (conf : AppConf) (macRev : UInt8 × UInt8) (frameSize : ℕ) : List UInt8 :=
  let msgLen :=
    if conf.portToPktType = bbframePack ∨ conf.portToPktType = enumFwdTxFwdData then
      sizeofL2L1MsgHeader - sizeofMacFrameHeader + sizeofL2L1Header + frameSize
    else sizeofL2L1MsgHeader - sizeofMacFrameHeader + frameSize
  [0x10, 0, 0, 0, 0, 0x50] ++ conf.localMac ++ be16 0x9101 ++ [macRev.1, macRev.2] ++
    [0x01, UInt8.ofNat conf.portToPktType] ++ be16 msgLen ++ [0, 0, 0, 0]

/-- What stands behind the GSE header: the value of an optional header and the next type. -/
def OptExtHeader.bytes (h : OptExtHeader) : List UInt8 :=
  (h.headerValue ++ List.replicate 20 0).take (h.headerSize - 2) ++ le16 h.nextType

/-- For a mandatory header the bytes come from the next types, whatever its value. -/
def manExtBytes : List ManExtHeader → List UInt8
  | [] => []
  | h :: hs =>
    ((h :: hs).flatMap fun m => le16 m.nextType).take (h.headerSize - 2) ++ le16 h.nextType ++
      manExtBytes hs

def OneGse.pduBytes (o : OneGse) : List UInt8 :=
  (List.range o.pduNum).flatMap fun j =>
    (o.onePdu j).pStart.read (o.onePdu j).pduSize ++
      (if o.fragmentFlag ∧ o.fragmentType = .e then o.crc32 else [])

/-- A packet as `write_codeblock` copies it, its parts one after the other. -/
def OneGse.bytes (o : OneGse) : Option (List UInt8) :=
  o.gseHeader.map fun header =>
    header ++ o.optExtHeaderInfo.flatMap OptExtHeader.bytes ++ manExtBytes o.manExtHeaderInfo ++
      o.pduBytes

lemma OneGse.mapM_bytes {α : Type} {packet : α → OneGse} {bytes : α → List UInt8} {xs : List α}
    (h : ∀ x ∈ xs, (packet x).bytes = some (bytes x)) :
    (xs.map packet).mapM OneGse.bytes = some (xs.map bytes) := by
  induction xs with
  | nil => rfl
  | cons x xs ih =>
    have hx := h x (by simp)
    have hrest := ih fun y hy => h y (List.mem_cons_of_mem x hy)
    simp only [List.map_cons, List.mapM_cons, hx, hrest]
    rfl

def OneGse.freed (o : OneGse) : List MbufAddr :=
  if o.fragmentFlag = false ∨ o.fragmentType = .e then
    (List.range o.pduNum).flatMap fun j => (o.onePdu j).mbufAddress.toList
  else []

def GseGroup.packets (g : GseGroup) : List OneGse :=
  (List.range g.gseNum).map fun i => g.pOneGse (i : ℤ)

lemma GseGroup.packets_eq (g : GseGroup) :
    g.packets = (List.range g.gseNum).map fun i : ℕ => g.pOneGse i := by
  simp [GseGroup.packets, ← List.map_eq_flatMap]

lemma packets_encapsulateGse {g : PduGroup} {gs : GseGroup} (hne : g.pduNum ≠ 0)
    (hcount : gs.gseNum < 255) :
    (encapsulateGse g gs).packets = gs.packets ++ [g.packet] ∧
      (encapsulateGse g gs).gseNum = gs.gseNum + 1 := by
  have hnum : u8 (gs.gseNum + 1) = gs.gseNum + 1 := u8_of_lt (by omega)
  simp only [GseGroup.packets_eq, encapsulateGse, if_neg hne, hnum, List.range_succ, List.map_append,
    List.map_cons, List.map_nil, and_true]
  refine congrArg₂ (· ++ ·) (List.map_congr_left fun i hi => ?_) ?_
  · have hlt := List.mem_range.mp hi
    rw [Function.update_of_ne (by push_cast; omega)]
  · rw [show ((gs.gseNum + 1 : ℕ) : ℤ) - 1 = gs.gseNum by push_cast; omega, Function.update_self]

/-- The contents of `buffer` in `write_codeblock`; `none` when a copy leaves its object. -/
def writeBuffer (innerMsgHeader l2l1Header frameHeader : List UInt8) (g : GseGroup)
    (paddingBytes : ℕ) : Option (List UInt8) :=
  match g.packets.mapM OneGse.bytes with
  | none => none
  | some packets =>
    let buffer := innerMsgHeader ++ l2l1Header ++ frameHeader ++ packets.flatten ++
      List.replicate paddingBytes 0
    if buffer.length ≤ fifoItemSize then some buffer else none

/-- What the sending side does to the world. After a `fault` nothing is defined any more. -/
structure Output where
  pool : Pool
  fault : Bool

/-- `enqueue_snd_bb_ring`; a frame that finds no room is lost. -/
def Output.enqueueSndBbRing (env : SendEnv) (m : RteMbuf) (ringId : ℕ) (o : Output) : Output :=
  { o with
    pool :=
      { o.pool with
        enqueues := o.pool.enqueues + 1
        ring := if env.enqueues o.pool.enqueues then o.pool.ring ++ [(ringId, m)] else o.pool.ring } }

/-- `write_codeblock`: its return value, and what it does. -/
def writeCodeblock (env : SendEnv) (conf : AppConf) (innerMsgHeader l2l1Header frameHeader : List UInt8)
    (g : GseGroup) (paddingBytes : ℕ) (o : Output) : ℕ × Output :=
  match writeBuffer innerMsgHeader l2l1Header frameHeader g paddingBytes with
  | none => (0, { o with fault := true })
  | some buffer =>
    let pool := { o.pool with freed := o.pool.freed ++ g.packets.flatMap OneGse.freed }
    match pool.alloc env.toDpdk with
    | (none, pool) => (0, { o with pool := pool })
    | (some m, pool) =>
      (buffer.length - l2l1Header.length - innerMsgHeader.length,
        Output.enqueueSndBbRing env
          { m with data := overwrite m.data buffer, dataLen := buffer.length } conf.mappingId
          { o with pool := pool })

structure FrameHeader where
  frameSize : ℕ
  header : List UInt8
  l2l1Header : List UInt8
  paddingBytes : ℕ

/-- The packet types `encapsulate_frame` knows. -/
def AppConf.framed (conf : AppConf) : Bool :=
  conf.portToPktType = islPack ∨ conf.portToPktType = bbframePack ∨
    conf.portToPktType = enumFwdTxFwdData

def frameHeaderOf (conf : AppConf) (modcod frameMaxPayload dataSize : ℕ) : Option FrameHeader :=
  if conf.portToPktType = islPack then
    let frameSize := u16 (sizeofIslHeader + frameMaxPayload)
    (packageISLHeader frameSize dataSize).map fun header =>
      ⟨frameSize, header, [], islPadding frameSize dataSize⟩
  else
    let frameSize := u16 (sizeofBbHeader + frameMaxPayload)
    (packageBBHeader frameSize dataSize).map fun header =>
      ⟨frameSize, header, packageL2L1Header frameSize modcod, padding frameSize dataSize⟩

/-- `encapsulate_frame`: its return value, and what it does. For an unknown packet type
nothing is written. -/
def encapsulateFrame (env : SendEnv) (conf : AppConf) (g : GseGroup) (frameMaxPayload dataSize : ℕ)
    (o : Output) : ℤ × Output :=
  if g.gseNum = 0 then (-1, o)
  else if !conf.framed then (-128, o)
  else
    match frameHeaderOf conf g.modcod frameMaxPayload dataSize with
    | none => (-1, o)
    | some h =>
      let inner := encodeInnerHeader conf (env.macRev o.pool.allocs) h.frameSize
      let r := writeCodeblock env conf inner h.l2l1Header h.header g h.paddingBytes o
      (if r.1 = 0 then -128 else if r.1 = h.frameSize then 0 else -1, r.2)

end Fengtai.Send
