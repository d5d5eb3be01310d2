import Fengtai.GseHeader
import Fengtai.Receive.Table

set_option autoImplicit false

/-! Reading the headers of a GSE packet: `decapsulate_gse_header`, `filter_address` and the
walk along the extension headers in `decapsulate_gse`. -/

namespace Fengtai.Receive

open Library.Words

abbrev Reads := List (ℕ × ℕ)

/-- `GSE_VARIABLE_HEADER`. An absent field keeps what was on the stack, here 0; it is not used. -/
structure GseVariableHeader where
  size : GseVariableHeaderSize
  fragmentID : ℕ
  totalLength : ℕ
  protocolType : ℕ
  label : List UInt8

/-- The sizes `decapsulate_gse_header` derives from the fixed header. -/
def GseFixedHeader.variableSize (h : GseFixedHeader) : GseVariableHeaderSize where
  fragmentIDSize := if h.startIndicator && h.endIndicator then 0 else 1
  totalLengthSize := if h.startIndicator && !h.endIndicator then 2 else 0
  protocolTypeSize := 2
  labelSize := h.labelType.size

/-- `decapsulate_gse_header`; the header it reads is `sizeofGseFixedHeader` and the sizes long. -/
def decapsulateGseHeader (mem : Memory) (pGSE : ℕ) : GseFixedHeader × GseVariableHeader :=
  let fixedHeader := GseFixedHeader.ofWord (bswap16 (load16 mem pGSE))
  let size := GseFixedHeader.variableSize fixedHeader
  let idAt := pGSE + sizeofGseFixedHeader
  let lengthAt := idAt + size.fragmentIDSize
  let typeAt := lengthAt + size.totalLengthSize
  let labelAt := typeAt + size.protocolTypeSize
  (fixedHeader,
    { size := size
      fragmentID := if size.fragmentIDSize = 1 then (mem idAt).toNat else 0
      totalLength := if size.totalLengthSize = 2 then bswap16 (load16 mem lengthAt) else 0
      protocolType := bswap16 (load16 mem typeAt)
      label := window mem labelAt size.labelSize })

def equalMac (mac1 mac2 : List UInt8) (len : ℕ) : Bool := mac1.take len == mac2.take len

/-- `PREVIOUS_MAC_INFO`, a zeroed global. -/
structure PreviousMacInfo where
  labelType : LabelType
  macLength : ℕ
  macAddress : List UInt8

def PreviousMacInfo.initial : PreviousMacInfo := ⟨.sixBytes, 0, List.replicate 6 0⟩

def macMatch (same : Bool) : ℤ := if same then 1 else 0

def filterAddress (labelType : LabelType) (label localAirMac : List UInt8) (bfirstGse : Bool)
    (previous : PreviousMacInfo) : ℤ × PreviousMacInfo :=
  if bfirstGse && labelType == .reuse then (-1, previous)
  else
    match labelType with
    | .broadcast => (1, { previous with labelType := .broadcast })
    | .reuse =>
      if previous.labelType = .broadcast then (1, previous)
      else (macMatch (equalMac localAirMac previous.macAddress previous.macLength), previous)
    | _ =>
      let addressSize := if labelType = .sixBytes then 6 else 3
      (macMatch (equalMac label localAirMac addressSize),
        { labelType := labelType
          macLength := addressSize
          macAddress := label.take addressSize ++ previous.macAddress.drop addressSize })

def regularExtHeaderType (headerType : ℕ) : Bool :=
  headerType = pduConcat ∨ headerType = timeStemp ∨ headerType = fragSequence

/-- `get_extension_header_info`: the size of the header and the type of what follows it.
The type behind a mandatory header is taken as it lies in memory. -/
def getExtensionHeaderInfo (mem : Memory) (pExtHeader curHeaderType nextType : ℕ) : ℕ × ℕ :=
  let hLen := curHeaderType / 256
  if hLen = 0 then
    if curHeaderType % 256 = pduConcat then (2, load16 mem pExtHeader) else (0, nextType)
  else
    let headerDataSize := 2 * (hLen - 1)
    (headerDataSize + 2, bswap16 (load16 mem (pExtHeader + headerDataSize)))

/-- The variables of the walk: `offset` has sixteen bits, and `varHeaderSize` is the size of the
last extension header alone. -/
structure ExtWalk where
  offset : ℕ
  protocolType : ℕ
  nextType : ℕ
  varHeaderSize : ℕ
  timestampSeq : ℕ
  reads : Reads

def ExtWalk.turn (mem : Memory) (pGSE : ℕ) (w : ExtWalk) : ExtWalk :=
  let pExtHeader := pGSE + w.offset
  let (extHeaderSize, nextType) := getExtensionHeaderInfo mem pExtHeader w.nextType w.nextType
  { offset := u16 (w.offset + extHeaderSize)
    protocolType := w.nextType
    nextType := nextType
    varHeaderSize := extHeaderSize
    timestampSeq :=
      if w.nextType = fragSequence then bswap16 (load16 mem pExtHeader) else w.timestampSeq
    reads := w.reads ++ [(pExtHeader, extHeaderSize)] }

/-- The loop itself. After 32768 turns the offset has gone round through the 64 KiB behind
the packet, past every buffer, and nothing is defined any more. -/
def ExtWalk.run (mem : Memory) (pGSE : ℕ) : ℕ → ExtWalk → Option ExtWalk
  | 0, _ => none
  | k + 1, w =>
    if regularExtHeaderType w.nextType then ExtWalk.run mem pGSE k (w.turn mem pGSE) else some w

def extWalkTurns : ℕ := 32768

/-- The walk along the extension headers of the packet at `pGSE`. -/
def walkExtHeaders (mem : Memory) (pGSE : ℕ) (v : GseVariableHeader) (timestampSeq : ℕ) :
    Option ExtWalk :=
  ExtWalk.run mem pGSE extWalkTurns
    { offset := sizeofGseFixedHeader + v.size.total
      protocolType := 0
      nextType := v.protocolType
      varHeaderSize := 0
      timestampSeq := timestampSeq
      reads := [] }

/-- The variables of `get_concat_pdu`; the lengths it reads stand in host order. -/
structure ConcatRead where
  position : ℕ
  totalReadLength : ℕ
  pdus : List (List UInt8)
  reads : Reads

def ConcatRead.turn (mem : Memory) (c : ConcatRead) : ConcatRead :=
  let readLength := load16 mem c.position
  { position := c.position + 2 + readLength
    totalReadLength := u16 (c.totalReadLength + readLength + 2)
    pdus := c.pdus ++ [window mem (c.position + 2) readLength]
    reads := c.reads ++ [(c.position, 2), (c.position + 2, readLength)] }

/-- The loop. After 32768 turns it has gone through more than the 64 KiB behind the packet. -/
def ConcatRead.run (mem : Memory) (datafieldLength : ℕ) : ℕ → ConcatRead → Option ConcatRead
  | 0, _ => none
  | k + 1, c =>
    if c.totalReadLength < datafieldLength then ConcatRead.run mem datafieldLength k (c.turn mem)
    else some c

def getConcatPdu (mem : Memory) (ptrDatafield datafieldLength : ℕ) : Option ConcatRead :=
  ConcatRead.run mem datafieldLength extWalkTurns ⟨ptrDatafield, 0, [], []⟩

/-- What `decapsulate_gse` makes of a packet of concatenated PDUs: the PDUs and their type. -/
def readConcat (mem : Memory) (pGSE : ℕ) : Option (List (List UInt8) × ℕ) :=
  let (fixedHeader, v) := decapsulateGseHeader mem pGSE
  match walkExtHeaders mem pGSE v 0 with
  | none => none
  | some w =>
    if fixedHeader.startIndicator ∧ fixedHeader.endIndicator ∧ w.protocolType = pduConcat then
      (getConcatPdu mem (pGSE + w.offset)
        (sub16 fixedHeader.gseLength (w.varHeaderSize + v.size.total))).map fun c =>
          (c.pdus, w.nextType)
    else none

end Fengtai.Receive
