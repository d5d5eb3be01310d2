import Fengtai.Receive.Decapsulate
import Fengtai.Send.Labelled

set_option autoImplicit false

/-! The headers of the packet of a lone PDU, read by `decapsulate_gse_header` and
`get_extension_header_info`. -/

namespace Fengtai.Send

open Library.Words Receive

namespace EnPduNode.Packable

variable {n : EnPduNode} {l : LabelType} {mem : Memory} {pGSE t : ℕ}

lemma variableSize_eq (h : n.Packable l) :
    GseFixedHeader.variableSize (n.fixedHeaderWith l) = n.sizesWith l := by
  rw [h.sizes_eq]
  cases hf : n.fragmentFlag <;> cases ht : n.fragmentType <;>
    simp [GseFixedHeader.variableSize, fixedHeaderWith, hf, ht]

lemma front_parts (h : n.Packable l) (hmem : Holds mem pGSE (n.frontBytes l t)) :
    Holds mem pGSE (be16 (n.fixedHeaderWith l).word) ∧ Holds mem (pGSE + 2) (n.variableBytes l) ∧
      Holds mem (pGSE + (2 + (n.sizesWith l).total)) (n.extBytes t) := by
  simp only [frontBytes, holds_append, List.length_append, be16_length, h.variableBytes_length] at hmem
  exact ⟨hmem.1.1, hmem.1.2, hmem.2⟩

lemma header_read (h : n.Packable l) (hword : Holds mem pGSE (be16 (n.fixedHeaderWith l).word)) :
    (decapsulateGseHeader mem pGSE).1 = n.fixedHeaderWith l ∧
      (decapsulateGseHeader mem pGSE).2.size = n.sizesWith l := by
  have hlt : (n.fixedHeaderWith l).gseLength < 4096 := Nat.lt_succ_of_le h.within
  have hfixed : GseFixedHeader.ofWord (bswap16 (load16 mem pGSE)) = n.fixedHeaderWith l := by
    rw [load16_be16 hword, u16_of_lt (n.fixedHeaderWith l).word_lt, GseFixedHeader.ofWord_word hlt]
  simp only [decapsulateGseHeader, hfixed, h.variableSize_eq, and_self]

lemma fields_read (h : n.Packable l) (hword : Holds mem pGSE (be16 (n.fixedHeaderWith l).word))
    (hvar : Holds mem (pGSE + 2) (n.variableBytes l)) :
    (n.fragmentFlag = true → (decapsulateGseHeader mem pGSE).2.fragmentID = u8 n.fragmentID) ∧
      (n.fragmentFlag = true → n.fragmentType = .s →
        (decapsulateGseHeader mem pGSE).2.totalLength = u16 (6 + l.size + n.pduTotalLength)) ∧
      (decapsulateGseHeader mem pGSE).2.protocolType =
        u16 (if n.fragmentFlag then fragSequence else n.protocoltype) ∧
      (decapsulateGseHeader mem pGSE).2.label = n.macAddress.take l.size := by
  obtain ⟨hfixed, -⟩ := h.header_read hword
  have hsize : GseFixedHeader.variableSize (decapsulateGseHeader mem pGSE).1 = n.sizesWith l := by
    rw [hfixed, h.variableSize_eq]
  have hlabel : ∀ {p : ℕ}, Holds mem p (n.macAddress.take l.size) →
      window mem p l.size = n.macAddress.take l.size := by
    intro p hp
    rwa [Holds, List.length_take, min_eq_left h.label_le] at hp
  rw [h.sizes_eq] at hsize
  simp only [decapsulateGseHeader] at hsize ⊢
  rw [hsize]
  simp only [variableBytes] at hvar
  cases hf : n.fragmentFlag with
  | false =>
    simp only [hf, Bool.false_eq_true, false_and, if_false, List.nil_append, holds_append,
      be16_length] at hvar
    obtain ⟨htype, hmac⟩ := hvar
    exact ⟨fun h => absurd h Bool.false_ne_true, fun h => absurd h Bool.false_ne_true,
      load16_be16 htype, hlabel hmac⟩
  | true =>
    by_cases hs : n.fragmentType = .s
    · simp only [hf, hs, and_self, if_true, holds_append, holds_cons, holds_nil, and_true,
        List.length_append, List.length_cons, List.length_nil, be16_length] at hvar
      obtain ⟨⟨⟨hid, htotal⟩, htype⟩, hmac⟩ := hvar
      simp only [sizeofGseFixedHeader, and_self, if_true, hid, load16_be16 htotal,
        UInt8.toNat_ofNat', hs]
      exact ⟨fun _ => rfl, fun _ _ => u16_of_lt (u16_lt _), load16_be16 htype, hlabel hmac⟩
    · simp only [hf, hs, and_false, if_true, if_false, List.append_nil, holds_append, holds_cons,
        holds_nil, and_true, List.length_append, List.length_cons, List.length_nil,
        be16_length] at hvar
      obtain ⟨⟨hid, htype⟩, hmac⟩ := hvar
      simp only [sizeofGseFixedHeader, and_false, if_true, if_false, hid, UInt8.toNat_ofNat', hs]
      exact ⟨fun _ => rfl, fun _ h => h.elim, load16_be16 htype, hlabel hmac⟩

lemma extension_read (hflag : n.fragmentFlag = true) {pExtHeader : ℕ}
    (hext : Holds mem pExtHeader (n.extBytes t)) (nextType : ℕ) :
    getExtensionHeaderInfo mem pExtHeader fragSequence nextType = (4, u16 n.protocoltype) ∧
      bswap16 (load16 mem pExtHeader) = u16 t := by
  simp only [extBytes, hflag, if_true, holds_append, be16_length] at hext
  obtain ⟨hstamp, hnext⟩ := hext
  have hnext' : bswap16 (load16 mem (pExtHeader + 2)) = u16 n.protocoltype := load16_be16 hnext
  refine ⟨?_, load16_be16 hstamp⟩
  simp only [getExtensionHeaderInfo, fragSequence]
  simp [hnext']

end EnPduNode.Packable

/-- `temp_header_size` of `decapsulate_gse`, behind an extension header of `extHeaderSize` bytes. -/
def tempHeaderSize (v : GseVariableHeader) (extHeaderSize : ℕ) : ℕ :=
  u8 (u16 (extHeaderSize + v.size.total) - (v.size.fragmentIDSize + v.size.totalLengthSize))

/-- What the receiver is to find in the headers of the packet of `n`; its PDU begins behind
`front` bytes. -/
structure HeadersAgree (mem : Memory) (pGSE : ℕ) (n : EnPduNode) (l : LabelType)
    (timeSeq front : ℕ) : Prop where
  start_eq : (decapsulateGseHeader mem pGSE).1.startIndicator =
    (!n.fragmentFlag || n.fragmentType == .s)
  end_eq : (decapsulateGseHeader mem pGSE).1.endIndicator =
    (!n.fragmentFlag || n.fragmentType == .e)
  labelType_eq : (decapsulateGseHeader mem pGSE).1.labelType = l
  gseLength_eq : (decapsulateGseHeader mem pGSE).1.gseLength = n.gseLength l
  label_eq : (decapsulateGseHeader mem pGSE).2.label = n.macAddress.take l.size
  whole : n.fragmentFlag = false →
    (decapsulateGseHeader mem pGSE).2.protocolType = u16 n.protocoltype ∧
      sizeofGseFixedHeader + (decapsulateGseHeader mem pGSE).2.size.total = front
  fragment : n.fragmentFlag = true →
    let v := (decapsulateGseHeader mem pGSE).2
    let offset := sizeofGseFixedHeader + v.size.total
    let ext := getExtensionHeaderInfo mem (pGSE + offset) v.protocolType v.protocolType
    v.fragmentID = u8 n.fragmentID ∧ v.protocolType = fragSequence ∧ ext.2 = u16 n.protocoltype ∧
      bswap16 (load16 mem (pGSE + offset)) = timeSeq ∧ offset + ext.1 = front ∧
      (n.fragmentType = .s →
        tempHeaderSize v ext.1 = v.size.protocolTypeSize + v.size.labelSize + ext.1 ∧
        sub16 v.totalLength (tempHeaderSize v ext.1) = u16 n.pduTotalLength)

namespace EnPduNode.Packable

variable {n : EnPduNode} {l : LabelType} {mem : Memory} {pGSE t : ℕ}

lemma headers_agree (h : n.Packable l) (hmem : Holds mem pGSE (n.frontBytes l t)) :
    HeadersAgree mem pGSE n l (u16 t) (n.frontBytes l t).length := by
  have hlen := h.frontBytes_length t
  obtain ⟨hword, hvar, hext⟩ := h.front_parts hmem
  obtain ⟨hfixed, hsize⟩ := h.header_read hword
  obtain ⟨hid, htotal, htype, hlabel⟩ := h.fields_read hword hvar
  rw [hlen]
  refine ⟨?_, ?_, ?_, ?_, hlabel, fun hflag => ⟨?_, ?_⟩, fun hflag => ?_⟩
  · rw [hfixed, fixedHeaderWith]
  · rw [hfixed, fixedHeaderWith]
  · rw [hfixed, fixedHeaderWith]
  · rw [hfixed, fixedHeaderWith]
  · rw [htype, hflag]
    rfl
  · rw [hsize, hflag]
    rfl
  · simp only [hflag, if_true] at htype ⊢
    have htype' : (decapsulateGseHeader mem pGSE).2.protocolType = fragSequence := htype
    obtain ⟨hinfo, hstamp⟩ := extension_read hflag hext fragSequence
    have hlab := l.size_le
    simp only [htype', hsize, sizeofGseFixedHeader, hinfo]
    refine ⟨hid hflag, trivial, trivial, hstamp, trivial, fun hs => ?_⟩
    have htemp : tempHeaderSize (decapsulateGseHeader mem pGSE).2 4 =
        2 + l.size + 4 := by
      simp only [tempHeaderSize, hsize, h.sizes_eq, hflag, hs, and_self, if_true,
        GseVariableHeaderSize.total]
      rw [u16_of_lt (by omega), u8_of_lt (by omega)]
      omega
    refine ⟨?_, ?_⟩
    · rw [htemp, h.sizes_eq]
    · rw [htemp, htotal hflag hs]
      simp only [sub16, u16]
      omega

end EnPduNode.Packable

/-- Both sides of the header agree, for a whole PDU as for a fragment and for every label. -/
theorem gse_header_codec {n : EnPduNode} (hmac : n.macAddress.length = 6) (hpos : 1 ≤ n.pduSize)
    (l : LabelType) (labelSize : ℕ) (hlen : n.gseLength l ≤ gseMaxSize) (c : SequenceCounters)
    (g : GseGroup) :
    let s := updatePduGroup n .zero l labelSize c
    let g := encapsulateGse s.1 g
    ∃ front, (g.pOneGse ((g.gseNum : ℤ) - 1)).bytes = some (front ++ n.data ++ n.trailer) ∧
      ∀ mem pGSE, Holds mem pGSE (front ++ n.data ++ n.trailer) →
        HeadersAgree mem pGSE n l (s.2.timeSeq n.fragmentSeq) front.length := by
  have hlab := l.size_le
  have h : n.Packable l := ⟨by omega, hpos, hlen⟩
  have hseq : u16 ((c.after n).timeSeq n.fragmentSeq) = (c.after n).timeSeq n.fragmentSeq :=
    u16_of_lt (u16_lt _)
  simp only [updatePduGroup_labelled]
  refine ⟨n.frontBytes l ((c.after n).timeSeq n.fragmentSeq), ?_, fun mem pGSE hmem => ?_⟩
  · rw [encapsulateGse_newest Nat.one_ne_zero, h.packet_bytes, EnPduNode.labelledBytes]
  · simp only [List.append_assoc, holds_append] at hmem
    have hagree := h.headers_agree hmem.1
    rwa [hseq] at hagree

def labelledStart : EnPduNode :=
  { zeroPdu 10 with
    macAddress := [2, 0, 0, 0, 0, 1]
    protocoltype := 0x0800
    fragmentFlag := true
    fragmentID := 7
    fragmentSeq := 0
    pduTotalLength := 300 }

theorem gse_header_codec_start :
    ∃ front mem, HeadersAgree mem 0 labelledStart .sixBytes
      ((updatePduGroup labelledStart .zero .sixBytes 6 .initial).2.timeSeq 0) front := by
  obtain ⟨front, -, hread⟩ := @gse_header_codec labelledStart (by decide) (by decide) .sixBytes 6
    (by decide) .initial .initial
  exact ⟨front.length, _, hread _ 0 (holds_overwrite (fun _ => 0) _)⟩

end Fengtai.Send
