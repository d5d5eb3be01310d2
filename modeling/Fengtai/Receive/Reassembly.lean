import Fengtai.Crc
import Fengtai.Receive.Pool

set_option autoImplicit false

/-! Reassembly of fragmented PDUs: `reset_frag_info`, `start_reassemble_pdu`,
`keep_reassemble_pdu` and `finish_reassemble_pdu` of `decapsulate.c`. -/

namespace Fengtai.Receive

open Library.Words Crc

abbrev fragMaxNum : ℕ := 6
def fragMaxLength : ℕ := 1518
abbrev fragBufferNum : ℕ := 2

instance : NeZero fragMaxNum := ⟨Nat.succ_ne_zero 5⟩

def protocolIpv4 : ℕ := 0x0800
def protocolIpv6 : ℕ := 0x86DD
def protocolArp : ℕ := 0x0806
def protocolCtrl : ℕ := 0x00C9

def ipPacket : ℕ := 0
def ctrlmsgFwd : ℕ := 1
def ctrlmsgRtn : ℕ := 2

/-- `DE_PDU_NODE`: `ptr_pdu` holds the buffer reserved for the whole PDU. -/
structure DePduNode where
  pduLength : ℕ
  ptrPdu : Option RteMbuf

/-- `FRAG_INFO`. `storedBy` is no field of the source: it remembers, for each table
slot written since the last reset, the fragment ID and time stamp of the writer. -/
structure FragInfo where
  timeStamp : ℕ
  pduType : ℕ
  maxFragSeq : ℕ
  pduRecvLen : ℕ
  fragRecvNum : ℕ
  recvEnd : Bool
  t0Us : ℕ
  t1Us : ℕ
  timeoutFlag : Bool
  fragLen : Fin fragMaxNum → ℕ
  dataAddr : Fin fragMaxNum → List UInt8
  protocolType : ℕ
  pduNode : DePduNode
  crc : BitVec 32
  storedBy : Fin fragMaxNum → Option (ℕ × ℕ)

/-- `reset_frag_info`. The bytes in the table stay, as do the PDU and protocol types. -/
def FragInfo.reset (f : FragInfo) : FragInfo :=
  { f with
    maxFragSeq := 0
    pduRecvLen := 0
    fragRecvNum := 0
    fragLen := fun _ => 0
    recvEnd := false
    t0Us := 0
    t1Us := 0
    timeoutFlag := false
    pduNode := ⟨0, none⟩
    timeStamp := 0
    crc := 0
    storedBy := fun _ => none }

/-- `g_frag_info` is a zeroed global; `init_frag_info` hangs the tables on it. -/
def FragInfo.initial : FragInfo where
  timeStamp := 0
  pduType := 0
  maxFragSeq := 0
  pduRecvLen := 0
  fragRecvNum := 0
  recvEnd := false
  t0Us := 0
  t1Us := 0
  timeoutFlag := false
  fragLen := fun _ => 0
  dataAddr := fun _ => []
  protocolType := 0
  pduNode := ⟨0, none⟩
  crc := 0
  storedBy := fun _ => none

/-- The members of a `frag_buffer_index_list`: every buffer index once. -/
structure IndexList where
  order : List (Fin fragBufferNum)
  complete : order.Perm (List.finRange fragBufferNum)

lemma IndexList.order_ne_nil (l : IndexList) : l.order ≠ [] := by
  intro h
  have := l.complete.length_eq
  simp [h, fragBufferNum] at this

/-- `Get_Header_Data`. -/
def IndexList.header (l : IndexList) : Fin fragBufferNum := l.order.head l.order_ne_nil

/-- `Remove_Node_point` of the header node and `Push_List` of it. -/
def IndexList.rotate (l : IndexList) : IndexList where
  order := l.order.tail ++ [l.header]
  complete := by
    refine (List.perm_append_singleton _ _).trans ?_
    rw [IndexList.header, List.cons_head_tail]
    exact l.complete

/-- After `init_decap_mem` the nodes stand in the order they were pushed. -/
def IndexList.initial : IndexList := ⟨List.finRange fragBufferNum, List.Perm.refl _⟩

/-- What belongs to one port and one fragment ID: the row of `frag_info` and its index list. -/
structure FragCell where
  info : Fin fragBufferNum → FragInfo
  indexList : IndexList

def FragCell.initial : FragCell := ⟨fun _ => .initial, .initial⟩

def FragCell.set (c : FragCell) (i : Fin fragBufferNum) (f : FragInfo) : FragCell :=
  { c with info := Function.update c.info i f }

def FragCell.findStamp (c : FragCell) (timeStamp : ℕ) : Option (Fin fragBufferNum) :=
  (List.finRange fragBufferNum).find? fun i => timeStamp = (c.info i).timeStamp

/-- The choice both reassembly functions make: a matching buffer, else the header
of the index list, which moves to the tail. -/
def FragCell.select (c : FragCell) (timeStamp : ℕ) : Fin fragBufferNum × FragCell :=
  match c.findStamp timeStamp with
  | some i => (i, c)
  | none => (c.indexList.header, { c with indexList := c.indexList.rotate })

inductive FragType
  | start
  | middle
  | last
  deriving DecidableEq, Repr

/-- A fragment as `decapsulate_gse` hands it over; the last three fields matter for a START only. -/
structure Arrival where
  fragType : FragType
  datafield : Memory
  timestampSeq : ℕ
  fragLen : ℕ
  now : ℕ
  totalLength : ℕ
  headerLength : ℕ
  protocolType : ℕ

def Arrival.fragSeq (a : Arrival) : ℕ := a.timestampSeq % 8
def Arrival.timeStamp (a : Arrival) : ℕ := a.timestampSeq / 8

structure Received where
  code : ℤ
  info : FragInfo
  pool : Pool

/-- A START meets what its buffer already holds: another PDU is dropped, and so is an
earlier copy of the START. -/
def discardReceived (stamp : ℕ) (f : FragInfo) (p : Pool) : FragInfo × Pool :=
  if 0 < f.fragRecvNum then
    if stamp ≠ f.timeStamp then (f.reset, p.freeHeld f.pduNode.ptrPdu)
    else if 0 < f.fragLen 0 then
      ({ f.reset with
          fragRecvNum := sub16 f.reset.fragRecvNum 1
          pduRecvLen := sub16 f.reset.pduRecvLen (f.reset.fragLen 0) },
        p.freeHeld f.pduNode.ptrPdu)
    else (f, p)
  else (f, p)

def FragInfo.store (f : FragInfo) (s : Fin fragMaxNum) (fragID stamp : ℕ) (bytes : List UInt8) :
    FragInfo :=
  { f with
    maxFragSeq := max f.maxFragSeq s
    fragRecvNum := u16 (f.fragRecvNum + 1)
    fragLen := Function.update f.fragLen s bytes.length
    dataAddr := Function.update f.dataAddr s bytes
    timeStamp := stamp
    storedBy := Function.update f.storedBy s (some (fragID, stamp)) }

/-- The PDU type a START records; other protocols leave the old one. -/
def startPduType (protocolType : ℕ) (datafield : Memory) (old : ℕ) : ℕ :=
  if protocolType = protocolIpv4 ∨ protocolType = protocolIpv6 then ipPacket
  else if protocolType = protocolCtrl then
    if (datafield 1).toNat / 64 % 2 = 0 then ctrlmsgFwd else ctrlmsgRtn
  else old

/-- All fragments are there: the test after which both functions return 1. -/
def FragInfo.complete (f : FragInfo) : Bool :=
  f.recvEnd && f.fragRecvNum == f.maxFragSeq + 1

/-- The end of both functions: 1 when all fragments are there, else the clock starts
with the first fragment. -/
def FragInfo.settle (f : FragInfo) (now : ℕ) (p : Pool) : Received :=
  if f.complete then ⟨1, f, p⟩
  else if f.fragRecvNum = 1 then ⟨0, { f with t0Us := now }, p⟩
  else ⟨0, f, p⟩

def FragInfo.storeStart (f : FragInfo) (fragID : ℕ) (a : Arrival) : FragInfo :=
  let f := f.store 0 fragID a.timeStamp (window a.datafield 0 a.fragLen)
  { f with
    pduRecvLen := u16 (f.pduRecvLen + a.fragLen)
    pduNode := { f.pduNode with pduLength := sub16 a.totalLength a.headerLength }
    protocolType := a.protocolType
    pduType := startPduType a.protocolType a.datafield f.pduType }

/-- `start_reassemble_pdu` on the chosen buffer; `none` when the copy would leave its slot. -/
def FragInfo.start (env : Dpdk) (fragID : ℕ) (a : Arrival) (f : FragInfo) (p : Pool) :
    Option Received :=
  let (f, p) := discardReceived a.timeStamp f p
  if fragMaxLength < a.fragLen then none
  else
    let f := f.storeStart fragID a
    match p.alloc env with
    | (none, p) => some ⟨-1, f, p⟩
    | (some m, p) =>
      if mbufTailroom < f.pduNode.pduLength + 4 then some ⟨-1, f.reset, p.free m.addr⟩
      else
        let m := { m with dataLen := f.pduNode.pduLength, protocolType := a.protocolType }
        some (FragInfo.settle { f with pduNode := { f.pduNode with ptrPdu := some m } } a.now p)

def FragInfo.dropOld (f : FragInfo) (s : Fin fragMaxNum) : FragInfo :=
  if 0 < f.fragLen s ∧ 0 < f.fragRecvNum then
    { f with
      fragRecvNum := sub16 f.fragRecvNum 1
      pduRecvLen := sub16 f.pduRecvLen (f.fragLen s) }
  else f

/-- The length is counted; the last fragment ends with four CRC bytes. -/
def FragInfo.countLength (f : FragInfo) (isEnd : Bool) (fragLen : ℕ) : FragInfo :=
  if isEnd then { f with pduRecvLen := sub16 (f.pduRecvLen + fragLen) 4, recvEnd := true }
  else { f with pduRecvLen := u16 (f.pduRecvLen + fragLen) }

def FragInfo.overrun (f : FragInfo) : Bool :=
  0 < f.pduNode.pduLength && f.pduNode.pduLength < f.pduRecvLen

/-- `keep_reassemble_pdu` on the chosen buffer; `none` when it would leave the tables. -/
def FragInfo.keep (fragID : ℕ) (a : Arrival) (f : FragInfo) (p : Pool) : Option Received :=
  if hs : a.fragSeq < fragMaxNum then
    let s : Fin fragMaxNum := ⟨a.fragSeq, hs⟩
    let f := (f.dropOld s).countLength (a.fragType = .last) a.fragLen
    if f.overrun then some ⟨-1, f.reset, p.freeHeld f.pduNode.ptrPdu⟩
    else if fragMaxLength < a.fragLen then none
    else
      let f := f.store s fragID a.timeStamp (window a.datafield 0 a.fragLen)
      some (f.settle a.now p)
  else none

/-- The copy loop of `finish_reassemble_pdu` from slot `i` on, `k` slots to go: the bytes
copied and the CRC read behind them; `none` when a slot or a length is out of range. -/
def FragInfo.copyFrom (f : FragInfo) (i : ℕ) : ℕ → Option (List UInt8 × BitVec 32)
  | 0 => some ([], f.crc)
  | k + 1 =>
    if hi : i < fragMaxNum then
      let len := f.fragLen ⟨i, hi⟩
      let bytes := f.dataAddr ⟨i, hi⟩
      if k = 0 then
        if len < 4 then none
        else some (bytes.take (len - 4),
          BitVec.ofNat 32 (beValue ((bytes.drop (len - 4)).take 4)))
      else (f.copyFrom (i + 1) k).map fun r => (bytes.take len ++ r.1, r.2)
    else none

structure Finished where
  ret : ℤ
  info : FragInfo
  pool : Pool

/-- `finish_reassemble_pdu`; every path resets the buffer. -/
def finishReassemblePdu (env : Dpdk) (f : FragInfo) (p : Pool) : Option Finished :=
  match f.pduNode.ptrPdu with
  | none => some ⟨-128, f.reset, p⟩
  | some m =>
    if m.dataLen < f.pduRecvLen then some ⟨-1, f.reset, p.free m.addr⟩
    else if f.pduType ≠ ipPacket ∧ f.pduType ≠ ctrlmsgFwd ∧ f.pduType ≠ ctrlmsgRtn then
      some ⟨-1, f.reset, p.free m.addr⟩
    else
      match f.copyFrom 0 f.fragRecvNum with
      | none => none
      | some (copied, crc) =>
        if copied.length = f.pduNode.pduLength then
          if crc32LookupTable copied ≠ crc then some ⟨-2, f.reset, p.free m.addr⟩
          else
            some ⟨0, f.reset, p.enqueueEncapRing env { m with data := overwrite m.data copied } 0⟩
        else some ⟨-3, f.reset, p.free m.addr⟩

structure Reassembled where
  code : ℤ
  index : Fin fragBufferNum
  cell : FragCell
  pool : Pool

def FragCell.put (c : FragCell) (i : Fin fragBufferNum) (r : Received) : Reassembled :=
  ⟨r.code, i, c.set i r.info, r.pool⟩

/-- `start_reassemble_pdu`: a START has sequence number 0. -/
def startReassemblePdu (env : Dpdk) (fragID : ℕ) (a : Arrival) (c : FragCell) (p : Pool) :
    Option Reassembled :=
  if 0 < a.fragSeq then some ⟨-1, 0, c, p⟩
  else
    let (index, c) := c.select a.timeStamp
    ((c.info index).start env fragID a p).map (c.put index)

/-- `keep_reassemble_pdu`, for MIDDLE and END. -/
def keepReassemblePdu (fragID : ℕ) (a : Arrival) (c : FragCell) (p : Pool) : Option Reassembled :=
  let (index, c) := c.select a.timeStamp
  ((c.info index).keep fragID a p).map (c.put index)

/-- What the two calls return: the reassembly function, and `finish_reassemble_pdu` if it ran. -/
structure Outcome where
  code : ℤ
  finish : Option ℤ
  deriving DecidableEq, Repr

def receiveFragment (env : Dpdk) (fragID : ℕ) (a : Arrival) (c : FragCell) (p : Pool) :
    Option Reassembled :=
  match a.fragType with
  | .start => startReassemblePdu env fragID a c p
  | _ => keepReassemblePdu fragID a c p

/-- A return of 1 is followed by `finish_reassemble_pdu` on the chosen buffer. -/
def Reassembled.finish (env : Dpdk) (r : Reassembled) : Option ((FragCell × Pool) × Outcome) :=
  if r.code = 1 then
    (finishReassemblePdu env (r.cell.info r.index) r.pool).map fun d =>
      ((r.cell.set r.index d.info, d.pool), ⟨1, some d.ret⟩)
  else some ((r.cell, r.pool), ⟨r.code, none⟩)

/-- The fragment cases of `decapsulate_gse`. -/
def reassemble (env : Dpdk) (fragID : ℕ) (s : FragCell × Pool) (a : Arrival) :
    Option ((FragCell × Pool) × Outcome) :=
  (receiveFragment env fragID a s.1 s.2).bind (Reassembled.finish env)

def FragInfo.receive (env : Dpdk) (fragID : ℕ) (a : Arrival) (f : FragInfo) (p : Pool) :
    Option (Outcome × FragInfo × Pool) :=
  match (if a.fragType = .start then f.start env fragID a p else f.keep fragID a p) with
  | none => none
  | some r =>
    if r.code = 1 then
      (finishReassemblePdu env r.info r.pool).map fun d => (⟨1, some d.ret⟩, d.info, d.pool)
    else some (⟨r.code, none⟩, r.info, r.pool)

@[simp] lemma FragCell.set_info (c : FragCell) (i : Fin fragBufferNum) (f : FragInfo) :
    (c.set i f).info i = f := by simp [FragCell.set]

lemma FragCell.set_info_ne (c : FragCell) {i j : Fin fragBufferNum} (h : j ≠ i) (f : FragInfo) :
    (c.set i f).info j = c.info j := by simp [FragCell.set, h]

@[simp] lemma FragCell.set_set (c : FragCell) (i : Fin fragBufferNum) (f g : FragInfo) :
    (c.set i f).set i g = c.set i g := by simp [FragCell.set]

end Fengtai.Receive
