import Fengtai.Send.Lengths

set_option autoImplicit false

/-! The packet of a lone PDU with any label: its lengths and its bytes. -/

namespace Fengtai.Send

open Library.Words Receive

lemma PduGroup.packet_gseHeader (g : PduGroup) :
    g.packet.gseHeader = if g.calcDatafieldLength ≤ g.fixedHeader.gseLength then
      some (be16 g.fixedHeader.word ++ (packageGseVariableHeader g.headerSizes g).take
        (g.fixedHeader.gseLength - g.calcDatafieldLength)) else none := rfl

lemma PduGroup.LengthHolds.gseHeader {g : PduGroup} (h : g.LengthHolds)
    (hvar : (packageGseVariableHeader g.headerSizes g).length = g.headerSizes.total) :
    g.packet.gseHeader =
      some (be16 g.fixedHeader.word ++ packageGseVariableHeader g.headerSizes g) := by
  rw [g.packet_gseHeader, if_pos h.datafield_le, h.header, List.take_of_length_le hvar.le]

namespace EnPduNode

def trailer (n : EnPduNode) : List UInt8 :=
  if n.fragmentFlag ∧ n.fragmentType = .e then be32 n.crc32.toNat else []

def data (n : EnPduNode) : List UInt8 := n.pPduStart.read n.pduSize

@[simp] lemma data_length (n : EnPduNode) : n.data.length = n.pduSize := by simp [data]

lemma trailer_length (n : EnPduNode) :
    n.trailer.length = if n.fragmentFlag ∧ n.fragmentType = .e then 4 else 0 := by
  simp only [trailer]
  split_ifs <;> rfl

lemma trailer_le (n : EnPduNode) : n.trailer.length ≤ 4 := by
  rw [trailer_length]
  split_ifs <;> omega

def extBytes (n : EnPduNode) (timeSeq : ℕ) : List UInt8 :=
  if n.fragmentFlag then be16 timeSeq ++ be16 n.protocoltype else []

lemma extBytes_length (n : EnPduNode) (timeSeq : ℕ) :
    (n.extBytes timeSeq).length = if n.fragmentFlag then 4 else 0 := by
  simp only [extBytes]
  split_ifs <;> rfl

def gseLength (n : EnPduNode) (l : LabelType) : ℕ :=
  (n.sizesWith l).total + (if n.fragmentFlag then 4 else 0) + n.pduSize + n.trailer.length

def fixedHeaderWith (n : EnPduNode) (l : LabelType) : GseFixedHeader where
  gseLength := n.gseLength l
  labelType := l
  endIndicator := !n.fragmentFlag || n.fragmentType == .e
  startIndicator := !n.fragmentFlag || n.fragmentType == .s

def variableBytes (n : EnPduNode) (l : LabelType) : List UInt8 :=
  (if n.fragmentFlag then [UInt8.ofNat n.fragmentID] else []) ++
    (if n.fragmentFlag ∧ n.fragmentType = .s then be16 (u16 (6 + l.size + n.pduTotalLength)) else []) ++
    be16 (if n.fragmentFlag then fragSequence else n.protocoltype) ++ n.macAddress.take l.size

def frontBytes (n : EnPduNode) (l : LabelType) (timeSeq : ℕ) : List UInt8 :=
  be16 (n.fixedHeaderWith l).word ++ n.variableBytes l ++ n.extBytes timeSeq

def labelledBytes (n : EnPduNode) (l : LabelType) (timeSeq : ℕ) : List UInt8 :=
  n.frontBytes l timeSeq ++ n.data ++ n.trailer

structure Packable (n : EnPduNode) (l : LabelType) : Prop where
  label_le : l.size ≤ n.macAddress.length
  size_pos : 1 ≤ n.pduSize
  within : n.gseLength l ≤ gseMaxSize

lemma labelled_datafield (n : EnPduNode) (l : LabelType) (labelSize t : ℕ) :
    (n.labelled l labelSize t).calcDatafieldLength = n.dataField := n.group_datafield t

lemma labelled_encapsulationType (n : EnPduNode) (l : LabelType) (labelSize t : ℕ) :
    getEncapsulationType (n.labelled l labelSize t).pduNum (n.labelled l labelSize t).fragmentFlag =
      if n.fragmentFlag then .frag else .whole := n.group_encapsulationType t

lemma labelled_headerSizes (n : EnPduNode) (l : LabelType) (labelSize t : ℕ) :
    (n.labelled l labelSize t).headerSizes = n.sizesWith l := by
  simp only [PduGroup.headerSizes, packageGseFixedHeader]
  rw [labelled_encapsulationType, labelled_datafield]
  rfl

lemma labelled_optBytes (n : EnPduNode) (l : LabelType) (labelSize t : ℕ) :
    (n.labelled l labelSize t).packet.optExtHeaderInfo.flatMap OptExtHeader.bytes = n.extBytes t := by
  cases hf : n.fragmentFlag with
  | false => simp [PduGroup.packet, labelled, group, extBytes, hf]
  | true =>
    simp [PduGroup.packet, labelled, group, extBytes, hf, OptExtHeader.bytes]
    rfl

lemma labelled_pduBytes (n : EnPduNode) (l : LabelType) (labelSize t : ℕ) :
    (n.labelled l labelSize t).packet.pduBytes = n.data ++ n.trailer := by
  simp only [PduGroup.packet, labelled, group, OneGse.pduBytes, data, trailer, List.range_one,
    List.flatMap_cons, List.flatMap_nil, List.append_nil, Function.update_self]
  congr 1

namespace Packable

variable {n : EnPduNode} {l : LabelType}

lemma dataField_eq (h : n.Packable l) :
    n.dataField = n.pduSize + n.trailer.length + (if n.fragmentFlag then 4 else 0) := by
  have hle := h.within
  simp only [gseLength, gseMaxSize] at hle
  rw [dataField, ← trailer_length]
  apply u16_of_lt
  omega

lemma total_eq (h : n.Packable l) : (n.sizesWith l).total + n.dataField = n.gseLength l := by
  rw [h.dataField_eq, gseLength]
  omega

lemma sizes_eq (h : n.Packable l) :
    n.sizesWith l =
      ⟨if n.fragmentFlag then 1 else 0, if n.fragmentFlag ∧ n.fragmentType = .s then 2 else 0, 2,
        l.size⟩ := by
  have hd := h.dataField_eq
  have hpos : 0 < n.dataField := by
    have := h.size_pos
    omega
  cases hf : n.fragmentFlag <;> simp [sizesWith, calcGseVariableHeaderSize, hf, hpos]

lemma fixedHeader (h : n.Packable l) (labelSize t : ℕ) :
    (n.labelled l labelSize t).fixedHeader = n.fixedHeaderWith l := by
  have hle := h.within
  have htotal := h.total_eq
  have hlen : calcGseLength (n.sizesWith l) n.dataField % 4096 = n.gseLength l := by
    simp only [gseMaxSize] at hle
    rw [calcGseLength, htotal, u16_of_lt (by omega), Nat.mod_eq_of_lt (by omega)]
  rw [sizesWith] at hlen
  simp only [PduGroup.fixedHeader, labelled_encapsulationType, labelled_datafield]
  cases hf : n.fragmentFlag <;>
    simp [packageGseFixedHeader, fixedHeaderWith, labelled, group, hf] at hlen ⊢ <;> exact hlen

lemma variableHeader (h : n.Packable l) (labelSize t : ℕ) :
    packageGseVariableHeader (n.sizesWith l) (n.labelled l labelSize t) = n.variableBytes l := by
  rw [h.sizes_eq]
  cases hf : n.fragmentFlag with
  | false =>
    simp [packageGseVariableHeader, variableBytes, hf, PduGroup.typeField, labelled, group]
  | true =>
    have htype : PduGroup.typeField (n.labelled l labelSize t) = be16 fragSequence := by
      simp [PduGroup.typeField, labelled, group, hf]
    by_cases hs : n.fragmentType = .s
    · have htotal : PduGroup.totalLengthField ⟨1, 2, 2, l.size⟩ (n.labelled l labelSize t) =
          u16 (6 + l.size + n.pduTotalLength) := by
        simp [PduGroup.totalLengthField, PduGroup.calcExtHeaderLength, labelled, group, hf,
          extHeaderMaxNum]
        congr 1
        omega
      simp only [packageGseVariableHeader, variableBytes, hf, hs, htype, and_self, if_true, htotal]
      rfl
    · simp only [packageGseVariableHeader, variableBytes, hf, hs, htype, and_false, if_true, if_false]
      rfl

lemma variableBytes_length (h : n.Packable l) :
    (n.variableBytes l).length = (n.sizesWith l).total := by
  have hle := h.label_le
  rw [h.sizes_eq]
  simp only [variableBytes, GseVariableHeaderSize.total, List.length_append, be16_length,
    List.length_take, min_eq_left hle]
  split_ifs <;> simp

lemma lengthHolds (h : n.Packable l) (labelSize t : ℕ) : (n.labelled l labelSize t).LengthHolds := by
  have hle := h.within
  have htotal := h.total_eq
  have hfixed := h.fixedHeader labelSize t
  have hlen : calcGseLength (n.sizesWith l) n.dataField = n.gseLength l := by
    simp only [gseMaxSize] at hle
    rw [calcGseLength, htotal, u16_of_lt (by omega)]
  refine ⟨?_, ?_, ?_, ?_⟩
  · rw [labelled_headerSizes, labelled_datafield, hlen]
    exact hle
  · rw [hfixed]
    simp only [labelled, fixedHeaderWith, hlen, sizeofGseFixedHeader, gseMaxSize] at hle ⊢
    exact (u16_of_lt (by omega)).symm
  · rw [hfixed, labelled_datafield, fixedHeaderWith, ← htotal]
    exact Nat.le_add_left _ _
  · rw [hfixed, labelled_datafield, labelled_headerSizes, fixedHeaderWith, ← htotal]
    exact Nat.add_sub_cancel _ _

lemma gseTotalLength (h : n.Packable l) (labelSize t : ℕ) :
    (n.labelled l labelSize t).gseTotalLength = 2 + n.gseLength l := by
  rw [← (h.lengthHolds labelSize t).total, h.fixedHeader, sizeofGseFixedHeader, fixedHeaderWith]

lemma packet_bytes (h : n.Packable l) (labelSize t : ℕ) :
    (n.labelled l labelSize t).packet.bytes = some (n.labelledBytes l t) := by
  have hvar := h.variableHeader labelSize t
  have hheader := (h.lengthHolds labelSize t).gseHeader (by
    rw [labelled_headerSizes, hvar, h.variableBytes_length])
  have hman : (n.labelled l labelSize t).packet.manExtHeaderInfo = [] := rfl
  rw [labelled_headerSizes, hvar, h.fixedHeader] at hheader
  simp only [OneGse.bytes, hheader, Option.map_some, hman, labelled_optBytes, labelled_pduBytes,
    manExtBytes, labelledBytes, frontBytes, List.append_nil, List.append_assoc]

lemma frontBytes_length (h : n.Packable l) (t : ℕ) :
    (n.frontBytes l t).length =
      2 + (n.sizesWith l).total + if n.fragmentFlag then 4 else 0 := by
  simp only [frontBytes, List.length_append, be16_length, h.variableBytes_length, extBytes_length]

lemma labelledBytes_length (h : n.Packable l) (t : ℕ) :
    (n.labelledBytes l t).length = 2 + n.gseLength l := by
  simp only [labelledBytes, gseLength, List.length_append, h.frontBytes_length, data_length]
  omega

end Packable

end EnPduNode

end Fengtai.Send
