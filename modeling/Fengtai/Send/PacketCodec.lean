import Fengtai.Send.HeaderCodec
import Fengtai.Send.Packets

set_option autoImplicit false

/-! The packet of a lone PDU, read by `decapsulate_gse`. -/

namespace Fengtai.Send

open Library.Words Crc Receive

lemma parsePacket_of_walk {mem : Memory} {pGSE timestampSeq : ℕ} {w : ExtWalk}
    (h : walkExtHeaders mem pGSE (decapsulateGseHeader mem pGSE).2 timestampSeq = some w) :
    parsePacket mem pGSE timestampSeq = some
      { fixedHeader := (decapsulateGseHeader mem pGSE).1
        varHeader := (decapsulateGseHeader mem pGSE).2
        ext := w
        ptrDatafield := pGSE + w.offset
        datafieldLength := sub16 (decapsulateGseHeader mem pGSE).1.gseLength
          (u16 (w.varHeaderSize + (decapsulateGseHeader mem pGSE).2.size.total)) } := by
  change (walkExtHeaders mem pGSE (decapsulateGseHeader mem pGSE).2 timestampSeq).map _ = _
  rw [h]
  rfl

namespace EnPduNode

def gseFixedHeader (n : EnPduNode) : GseFixedHeader where
  gseLength := n.headerSizes.total + n.dataField
  labelType := .broadcast
  endIndicator := !n.fragmentFlag || n.fragmentType == .e
  startIndicator := !n.fragmentFlag || n.fragmentType == .s

namespace Sized

variable {n : EnPduNode} {mem : Memory} {pGSE t : ℕ}

lemma gseFixedHeader_eq (h : n.Sized) : n.gseFixedHeader = n.fixedHeaderWith .broadcast := by
  rw [gseFixedHeader, fixedHeaderWith, ← h.packable.total_eq]
  rfl

lemma parts (h : n.Sized) (hmem : Holds mem pGSE (n.packetBytes t)) :
    Holds mem pGSE (n.frontBytes .broadcast t) ∧
      Holds mem (pGSE + (2 + n.headerSizes.total + if n.fragmentFlag then 4 else 0))
        (n.data ++ n.trailer) := by
  rw [h.packetBytes_eq, labelledBytes, List.append_assoc, holds_append,
    h.packable.frontBytes_length] at hmem
  exact hmem

lemma header_read (h : n.Sized) (hmem : Holds mem pGSE (n.packetBytes t)) :
    (decapsulateGseHeader mem pGSE).1 = n.gseFixedHeader ∧
      (decapsulateGseHeader mem pGSE).2.size = n.headerSizes := by
  obtain ⟨hword, -, -⟩ := h.packable.front_parts (h.parts hmem).1
  rw [h.gseFixedHeader_eq]
  exact h.packable.header_read hword

lemma packet_end (h : n.Sized) (hmem : Holds mem pGSE (n.packetBytes t)) :
    2 + (decapsulateGseHeader mem pGSE).1.gseLength = (n.packetBytes t).length := by
  rw [(h.header_read hmem).1, h.packetBytes_length, packetLength, gseFixedHeader, sizeofGseFixedHeader]
  simp only
  omega

lemma parse_whole (h : n.Sized) (hflag : n.fragmentFlag = false)
    (htype : regularExtHeaderType (u16 n.protocoltype) = false)
    (hmem : Holds mem pGSE (n.packetBytes t)) (timestampSeq : ℕ) :
    ∃ p, parsePacket mem pGSE timestampSeq = some p ∧ p.fragType = none ∧ p.ext.protocolType = 0 ∧
      p.ext.nextType = u16 n.protocoltype ∧ p.ext.timestampSeq = timestampSeq ∧
      p.datafieldLength = n.pduSize ∧ window mem p.ptrDatafield n.pduSize = n.data := by
  obtain ⟨hfixed, hsize⟩ := h.header_read hmem
  obtain ⟨hfront, hdata⟩ := h.parts hmem
  obtain ⟨hword, hvar, -⟩ := h.packable.front_parts hfront
  obtain ⟨-, -, hnext, -⟩ := h.packable.fields_read hword hvar
  have hle := h.size_le
  have hd := h.dataField_eq
  have htrailer : n.trailer = [] := by simp [trailer, hflag]
  have htotal : n.headerSizes = ⟨0, 0, 2, 0⟩ := by
    have hsizes := h.packable.sizes_eq
    simp only [hflag, Bool.false_eq_true, false_and, if_false] at hsizes
    exact hsizes
  simp only [hflag, Bool.false_eq_true, if_false] at hnext hdata
  simp only [htrailer, List.append_nil, htotal] at hdata
  have hwalk : walkExtHeaders mem pGSE (decapsulateGseHeader mem pGSE).2 timestampSeq =
      some ⟨4, 0, u16 n.protocoltype, 0, timestampSeq, []⟩ := by
    rw [walkExtHeaders, hsize, hnext, htotal, show extWalkTurns = 32767 + 1 from rfl, ExtWalk.run]
    simp [htype, sizeofGseFixedHeader, GseVariableHeaderSize.total]
  have hlen : sub16 n.gseFixedHeader.gseLength (u16 (0 + n.headerSizes.total)) = n.pduSize := by
    simp only [gseFixedHeader, hd, htrailer, hflag, htotal, GseVariableHeaderSize.total]
    rw [u16_of_lt (by norm_num), sub16_of_le (by simp) (by simp; omega)]
    simp
  refine ⟨_, parsePacket_of_walk hwalk, ?_, rfl, rfl, rfl, ?_, ?_⟩
  · simp only [Parsed.fragType, hfixed, gseFixedHeader, hflag]
    rfl
  · simp only [hfixed, hsize]
    exact hlen
  · have hwin : window mem (pGSE + 2 + 2) n.data.length = n.data := hdata
    rw [data_length] at hwin
    exact hwin

lemma headerSizes_start (h : n.Sized) (hflag : n.fragmentFlag = true) (hs : n.fragmentType = .s) :
    n.headerSizes = ⟨1, 2, 2, 0⟩ := by
  have hsizes := h.packable.sizes_eq
  simp only [hflag, hs, and_self, if_true] at hsizes
  exact hsizes

lemma fragment_fields (h : n.Sized) (hflag : n.fragmentFlag = true)
    (hmem : Holds mem pGSE (n.packetBytes t)) :
    (decapsulateGseHeader mem pGSE).2.fragmentID = n.fragmentID % 256 ∧
      (n.fragmentType = .s →
        (decapsulateGseHeader mem pGSE).2.totalLength = u16 (6 + n.pduTotalLength)) ∧
      (decapsulateGseHeader mem pGSE).2.protocolType = fragSequence ∧
      Holds mem (pGSE + (2 + n.headerSizes.total)) (n.extBytes t) ∧
      Holds mem (pGSE + (2 + n.headerSizes.total + 4)) (n.data ++ n.trailer) := by
  obtain ⟨hfront, hdata⟩ := h.parts hmem
  obtain ⟨hword, hvar, hext⟩ := h.packable.front_parts hfront
  obtain ⟨hid, htotal, htype, -⟩ := h.packable.fields_read hword hvar
  simp only [hflag, if_true] at htype hdata
  exact ⟨hid hflag, htotal hflag, htype, hext, hdata⟩

lemma parse_fragment (h : n.Sized) (hflag : n.fragmentFlag = true)
    (htype : regularExtHeaderType (u16 n.protocoltype) = false)
    (hmem : Holds mem pGSE (n.packetBytes t)) (timestampSeq : ℕ) :
    ∃ p, parsePacket mem pGSE timestampSeq = some p ∧ p.fixedHeader = n.gseFixedHeader ∧
      p.varHeader = (decapsulateGseHeader mem pGSE).2 ∧ p.ext.varHeaderSize = 4 ∧
      p.ext.nextType = u16 n.protocoltype ∧ p.ext.timestampSeq = u16 t ∧
      p.datafieldLength = (n.data ++ n.trailer).length ∧
      Holds mem p.ptrDatafield (n.data ++ n.trailer) := by
  obtain ⟨hfixed, hsize⟩ := h.header_read hmem
  obtain ⟨-, -, hregular, hext, hdata⟩ := h.fragment_fields hflag hmem
  have htotal := n.headerSizes_le
  have hle := h.size_le
  have hd := h.dataField_eq
  obtain ⟨-, hd'⟩ := h.dataField_pos
  obtain ⟨hinfo, hstamp⟩ := Packable.extension_read hflag hext fragSequence
  have hoffset : u16 (2 + n.headerSizes.total + 4) = 2 + n.headerSizes.total + 4 :=
    u16_of_lt (by omega)
  have hwalk : ∃ rs, walkExtHeaders mem pGSE (decapsulateGseHeader mem pGSE).2 timestampSeq =
      some ⟨2 + n.headerSizes.total + 4, fragSequence, u16 n.protocoltype, 4, u16 t, rs⟩ := by
    refine ⟨[(pGSE + (2 + n.headerSizes.total), 4)], ?_⟩
    have hfirst : regularExtHeaderType fragSequence = true := by decide
    have hturn : ExtWalk.turn mem pGSE
        ⟨2 + n.headerSizes.total, 0, fragSequence, 0, timestampSeq, []⟩ =
        ⟨2 + n.headerSizes.total + 4, fragSequence, u16 n.protocoltype, 4, u16 t,
          [(pGSE + (2 + n.headerSizes.total), 4)]⟩ := by
      simp only [ExtWalk.turn, hinfo, hstamp, if_true, hoffset, List.nil_append]
    rw [walkExtHeaders, hsize, hregular, show extWalkTurns = 32766 + 1 + 1 from rfl, ExtWalk.run,
      if_pos hfirst, sizeofGseFixedHeader, hturn, ExtWalk.run]
    simp [htype]
  obtain ⟨rs, hwalk⟩ := hwalk
  refine ⟨_, parsePacket_of_walk hwalk, hfixed, rfl, rfl, rfl, rfl, ?_, ?_⟩
  · have hlen : n.gseFixedHeader.gseLength = n.headerSizes.total + n.dataField := rfl
    simp only [hfixed, hsize, hlen]
    rw [u16_of_lt (by omega), sub16_of_le (by rw [hd, hflag]; simp; omega) (by omega), hd]
    simp only [hflag, if_true, List.length_append, data_length]
    omega
  · exact hdata

end Sized

end EnPduNode

end Fengtai.Send
