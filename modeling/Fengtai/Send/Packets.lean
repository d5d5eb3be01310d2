import Fengtai.Send.FrameCodec
import Fengtai.Send.Labelled

set_option autoImplicit false

/-! The bytes of the packet of a lone PDU, and of a frame of such packets. -/

namespace Fengtai.Send

open Library.Words Crc Receive

def EnPduNode.headerWord (n : EnPduNode) : ℕ :=
  GseFixedHeader.word
    { gseLength := n.headerSizes.total + n.dataField
      labelType := .broadcast
      endIndicator := !n.fragmentFlag || n.fragmentType == .e
      startIndicator := !n.fragmentFlag || n.fragmentType == .s }

def EnPduNode.headerFields (n : EnPduNode) (timeSeq : ℕ) : List UInt8 :=
  if n.fragmentFlag then
    [UInt8.ofNat n.fragmentID] ++
      (if n.fragmentType = .s then be16 (u16 (6 + n.pduTotalLength)) else []) ++
      be16 fragSequence ++ be16 timeSeq ++ be16 n.protocoltype
  else be16 n.protocoltype

def EnPduNode.packetBytes (n : EnPduNode) (timeSeq : ℕ) : List UInt8 :=
  be16 n.headerWord ++ n.headerFields timeSeq ++ n.data ++ n.trailer

structure EnPduNode.Sized (n : EnPduNode) : Prop where
  size_pos : 1 ≤ n.pduSize
  size_le : n.pduSize ≤ 4000

namespace EnPduNode.Sized

variable {n : EnPduNode}

lemma packable (h : n.Sized) : n.Packable .broadcast where
  label_le := Nat.zero_le _
  size_pos := h.size_pos
  within := by
    have hs : (n.sizesWith .broadcast).total ≤ 5 := n.headerSizes_le
    have hle := h.size_le
    have htrailer := n.trailer_le
    simp only [gseLength, gseMaxSize]
    split_ifs <;> omega

lemma dataField_eq (h : n.Sized) :
    n.dataField = n.pduSize + n.trailer.length + (if n.fragmentFlag then 4 else 0) :=
  h.packable.dataField_eq

lemma dataField_pos (h : n.Sized) : 0 < n.dataField ∧ n.dataField ≤ 4008 := by
  have hpos := h.size_pos
  have hle := h.size_le
  have htrailer := n.trailer_le
  rw [h.dataField_eq]
  split_ifs <;> omega

lemma packetLength_eq (h : n.Sized) : n.packetLength = 2 + n.gseLength .broadcast := by
  rw [← h.packable.total_eq, packetLength, sizeofGseFixedHeader, Nat.add_assoc]
  rfl

lemma packetBytes_eq (h : n.Sized) (timeSeq : ℕ) :
    n.packetBytes timeSeq = n.labelledBytes .broadcast timeSeq := by
  have hword : n.headerWord = (n.fixedHeaderWith .broadcast).word := by
    rw [headerWord, fixedHeaderWith, ← h.packable.total_eq]
    rfl
  simp only [packetBytes, labelledBytes, frontBytes, headerFields, variableBytes, extBytes, hword]
  cases n.fragmentFlag <;> simp [LabelType.size]

lemma packet_bytes (h : n.Sized) (timeSeq : ℕ) :
    (n.group timeSeq).packet.bytes = some (n.packetBytes timeSeq) := by
  rw [h.packetBytes_eq]
  exact h.packable.packet_bytes 0 timeSeq

lemma packetBytes_length (h : n.Sized) (timeSeq : ℕ) :
    (n.packetBytes timeSeq).length = n.packetLength := by
  rw [h.packetBytes_eq, h.packable.labelledBytes_length, h.packetLength_eq]

end EnPduNode.Sized

def EnPduNode.freedBuffers (n : EnPduNode) : List MbufAddr :=
  if n.fragmentFlag = false ∨ n.fragmentType = .e then n.mbufAddress.toList else []

lemma EnPduNode.group_freed (n : EnPduNode) (timeSeq : ℕ) :
    (n.group timeSeq).packet.freed = n.freedBuffers := by
  simp [PduGroup.packet, group, OneGse.freed, freedBuffers]

structure Entry where
  node : EnPduNode
  timeSeq : ℕ

namespace Entry

def packet (e : Entry) : OneGse := (e.node.group e.timeSeq).packet

def bytes (e : Entry) : List UInt8 := e.node.packetBytes e.timeSeq

lemma mapM_bytes {es : List Entry} (h : ∀ e ∈ es, e.node.Sized) :
    (es.map packet).mapM OneGse.bytes = some (es.map bytes) :=
  OneGse.mapM_bytes fun e he => (h e he).packet_bytes e.timeSeq

lemma flatten_length {es : List Entry} (h : ∀ e ∈ es, e.node.Sized) :
    (es.map bytes).flatten.length = (es.map fun e => e.node.packetLength).sum := by
  rw [List.length_flatten, List.map_map]
  congr 1
  apply List.map_congr_left
  intro e he
  exact (h e he).packetBytes_length e.timeSeq

end Entry

end Fengtai.Send
