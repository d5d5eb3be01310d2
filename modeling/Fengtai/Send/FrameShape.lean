import Fengtai.Send.FrameCodec
import Fengtai.Send.HeaderCodec

set_option autoImplicit false

/-! The shape of a frame for `ENUM_FWD_Tx_FWD_Data`: three computations of its lengths agree. -/

namespace Fengtai.Send

open Library.Words Receive

/-- A lone PDU as `update_pdu_group` gets it, with an empty group. -/
structure Load where
  node : EnPduNode
  labelType : LabelType
  labelSize : ℕ
  counters : SequenceCounters

namespace Load

def group (x : Load) : PduGroup :=
  (updatePduGroup x.node .zero x.labelType x.labelSize x.counters).1

structure Sized (x : Load) : Prop where
  mac_length : x.node.macAddress.length = 6
  size_pos : 1 ≤ x.node.pduSize
  size_le : x.node.pduSize ≤ 4000

def bytes (x : Load) : List UInt8 :=
  x.node.labelledBytes x.labelType ((x.counters.after x.node).timeSeq x.node.fragmentSeq)

lemma group_eq (x : Load) :
    x.group = x.node.labelled x.labelType x.labelSize
      ((x.counters.after x.node).timeSeq x.node.fragmentSeq) := by
  rw [group, updatePduGroup_labelled]

namespace Sized

variable {x : Load}

lemma packable (h : x.Sized) : x.node.Packable x.labelType where
  label_le := by
    have hlabel := x.labelType.size_le
    rw [h.mac_length]
    exact hlabel
  size_pos := h.size_pos
  within := by
    have hlabel := x.labelType.size_le
    have htrailer := x.node.trailer_le
    have hle := h.size_le
    have hsizes : (x.node.sizesWith x.labelType).total ≤ 5 + x.labelType.size := by
      simp only [EnPduNode.sizesWith, calcGseVariableHeaderSize, GseVariableHeaderSize.total]
      split_ifs <;> omega
    simp only [EnPduNode.gseLength, gseMaxSize]
    split_ifs <;> omega

lemma packet_bytes (h : x.Sized) : x.group.packet.bytes = some x.bytes := by
  rw [group_eq, h.packable.packet_bytes, bytes]

lemma bytes_length (h : x.Sized) : x.bytes.length = x.group.gseTotalLength := by
  rw [bytes, h.packable.labelledBytes_length, group_eq, h.packable.gseTotalLength]

lemma gseLength_read (h : x.Sized) {mem : Memory} {pGSE : ℕ} (hmem : Holds mem pGSE x.bytes) :
    x.group.gseTotalLength = 2 + (decapsulateGseHeader mem pGSE).1.gseLength := by
  rw [bytes, EnPduNode.labelledBytes, List.append_assoc, holds_append] at hmem
  obtain ⟨hword, -, -⟩ := h.packable.front_parts hmem.1
  rw [(h.packable.header_read hword).1, group_eq, h.packable.gseTotalLength,
    EnPduNode.fixedHeaderWith]

end Sized

lemma group_pduNum (x : Load) : x.group.pduNum ≠ 0 := by
  rw [group_eq]
  exact Nat.one_ne_zero

end Load

lemma packets_foldl {ps : List PduGroup} (hne : ∀ p ∈ ps, p.pduNum ≠ 0) {g : GseGroup}
    (hcount : g.gseNum + ps.length ≤ 255) :
    (ps.foldl (fun g p => encapsulateGse p g) g).packets = g.packets ++ ps.map PduGroup.packet ∧
      (ps.foldl (fun g p => encapsulateGse p g) g).gseNum = g.gseNum + ps.length := by
  induction ps generalizing g with
  | nil => simp
  | cons p ps ih =>
    simp only [List.length_cons] at hcount
    obtain ⟨hpackets, hnum⟩ := @packets_encapsulateGse p g (hne p (by simp)) (by omega)
    obtain ⟨hpackets', hnum'⟩ := ih (fun q hq => hne q (List.mem_cons_of_mem p hq))
      (g := encapsulateGse p g) (by omega)
    refine ⟨?_, ?_⟩
    · rw [List.foldl_cons, hpackets', hpackets, List.map_cons, List.append_assoc]
      rfl
    · rw [List.foldl_cons, hnum', hnum, List.length_cons]
      omega

/-- `buffer` of `write_codeblock` in a call of `encapsulate_frame`. -/
def writtenBuffer (env : SendEnv) (conf : AppConf) (g : GseGroup) (frameMaxPayload dataSize : ℕ)
    (o : Output) : Option (List UInt8) :=
  (frameHeaderOf conf g.modcod frameMaxPayload dataSize).bind fun h =>
    writeBuffer (encodeInnerHeader conf (env.macRev o.pool.allocs) h.frameSize) h.l2l1Header h.header
      g h.paddingBytes

structure FrameShape (loads : List Load) (payload dataSize : ℕ) (buffer : List UInt8) : Prop where
  length_eq : buffer.length = sizeofL2L1MsgHeader + sizeofL2L1Header + sizeofBbHeader + payload
  length_le : buffer.length ≤ fifoItemSize
  layout : ∃ (front : List UInt8) (packets : List (List UInt8)),
    buffer = front ++ packets.flatten ++ List.replicate (payload - dataSize) 0 ∧
    front.length = sizeofL2L1MsgHeader + sizeofL2L1Header + sizeofBbHeader ∧
    packets.flatten.length = dataSize ∧
    packets.map List.length = loads.map (fun x => x.group.gseTotalLength) ∧
    ∀ p ∈ packets, ∀ mem pGSE, Holds mem pGSE p →
      p.length = sizeofGseFixedHeader + (decapsulateGseHeader mem pGSE).1.gseLength
  dfl_eq : ∀ mem, Holds mem 0 buffer →
    bswap16 (load16 mem (sizeofL2L1MsgHeader + sizeofL2L1Header + 4)) / 8 = dataSize

lemma frameShape_of_packets {conf : AppConf} {macRev : UInt8 × UInt8} {payload modcod used : ℕ}
    {loads : List Load} (hsized : ∀ x ∈ loads, x.Sized) (hpay : payload ≤ 7264)
    (hsum : (loads.map fun x => x.group.gseTotalLength).sum = used) (hroom : used ≤ payload) :
    FrameShape loads payload used
      (encodeInnerHeader conf macRev (10 + payload) ++ packageL2L1Header (10 + payload) modcod ++
        bbHeader used ++ (loads.map Load.bytes).flatten ++ List.replicate (payload - used) 0) := by
  have hlengths : (loads.map Load.bytes).map List.length = loads.map fun x => x.group.gseTotalLength := by
    rw [List.map_map]
    apply List.map_congr_left
    intro x hx
    exact (hsized x hx).bytes_length
  have hflat : (loads.map Load.bytes).flatten.length = used := by
    rw [List.length_flatten, hlengths, hsum]
  have hlen : (encodeInnerHeader conf macRev (10 + payload) ++
      packageL2L1Header (10 + payload) modcod ++ bbHeader used ++ (loads.map Load.bytes).flatten ++
      List.replicate (payload - used) 0).length = 66 + payload := by
    simp only [List.length_append, encodeInnerHeader_length, packageL2L1Header_length,
      bbHeader_length, hflat, List.length_replicate]
    omega
  refine ⟨?_, ?_, ?_, ?_⟩
  · rw [hlen]
    rfl
  · rw [hlen, fifoItemSize]
    omega
  · refine ⟨_, loads.map Load.bytes, rfl, ?_, hflat, hlengths, ?_⟩
    · simp [sizeofL2L1MsgHeader, sizeofL2L1Header, sizeofBbHeader]
    · intro p hp mem pGSE hmem
      obtain ⟨x, hx, rfl⟩ := List.mem_map.mp hp
      rw [(hsized x hx).bytes_length]
      exact (hsized x hx).gseLength_read hmem
  · intro mem hmem
    simp only [holds_append, List.length_append, encodeInnerHeader_length,
      packageL2L1Header_length] at hmem
    obtain ⟨hdfl, -⟩ := holds_bbHeader hmem.1.1.2 (by omega)
    have hdfl' : bswap16 (load16 mem (sizeofL2L1MsgHeader + sizeofL2L1Header + 4)) = 8 * used := hdfl
    rw [hdfl', Nat.mul_div_cancel_left _ (by norm_num)]

/-- Every frame has the shape it announces. Without a buffer of the packet library nothing is
sent. -/
theorem frame_has_shape (env : SendEnv) {conf : AppConf}
    (htype : conf.portToPktType = enumFwdTxFwdData) {modcod : ℕ} (h1 : 1 ≤ modcod)
    (h28 : modcod ≤ 28) {loads : List Load} (hne : loads ≠ []) (hmax : loads.length ≤ 255)
    (hsized : ∀ x ∈ loads, x.Sized) {dataSize : ℕ}
    (hsum : (loads.map fun x => x.group.gseTotalLength).sum = dataSize)
    (hroom : dataSize ≤ mapModcodPayload modcod) (g : GseGroup) (o : Output) :
    let g := (loads.map Load.group).foldl (fun g p => encapsulateGse p g) g.reset
    let r := encapsulateFrame env conf g (mapModcodPayload modcod) dataSize o
    r.1 = (if env.allocates o.pool.allocs then 0 else -128) ∧ r.2.fault = o.fault ∧
      ∃ buffer, writtenBuffer env conf g (mapModcodPayload modcod) dataSize o = some buffer ∧
        FrameShape loads (mapModcodPayload modcod) dataSize buffer ∧
        (env.allocates o.pool.allocs = true → env.enqueues o.pool.enqueues = true →
          ∃ m : RteMbuf, r.2.pool.ring = o.pool.ring ++ [(conf.mappingId, m)] ∧
            m.dataLen = buffer.length ∧ Holds m.data 0 buffer) := by
  obtain ⟨-, hpay⟩ := mapModcodPayload_bounds h1 h28
  generalize mapModcodPayload modcod = payload at *
  have hgroups : ∀ p ∈ loads.map Load.group, p.pduNum ≠ 0 := by
    intro p hp
    obtain ⟨x, -, rfl⟩ := List.mem_map.mp hp
    exact x.group_pduNum
  have hcount : g.reset.gseNum + (loads.map Load.group).length ≤ 255 := by
    simpa [GseGroup.reset] using hmax
  obtain ⟨hpackets, hnum⟩ := packets_foldl hgroups hcount
  generalize (loads.map Load.group).foldl (fun g p => encapsulateGse p g) g.reset = g' at *
  have hnum' : g'.gseNum ≠ 0 := by
    rw [hnum, List.length_map]
    have hpos := List.length_pos_iff.mpr hne
    omega
  have hbytes : g'.packets.mapM OneGse.bytes = some (loads.map Load.bytes) := by
    rw [hpackets, List.map_map]
    exact OneGse.mapM_bytes fun x hx => (hsized x hx).packet_bytes
  have hother : conf.portToPktType ≠ islPack := by rw [htype]; decide
  have hframed : conf.framed = true := by simp [AppConf.framed, htype]
  have hh := frameHeaderOf_bb hother g'.modcod (hpay.trans (by norm_num)) hroom
  have hshape : FrameShape loads payload dataSize
      (encodeInnerHeader conf (env.macRev o.pool.allocs) (10 + payload) ++
        packageL2L1Header (10 + payload) g'.modcod ++ bbHeader dataSize ++
        (loads.map Load.bytes).flatten ++ List.replicate (payload - dataSize) 0) :=
    frameShape_of_packets hsized hpay hsum hroom
  have hbuf : writeBuffer (encodeInnerHeader conf (env.macRev o.pool.allocs) (10 + payload))
      (packageL2L1Header (10 + payload) g'.modcod) (bbHeader dataSize) g' (payload - dataSize) =
        some _ :=
    writeBuffer_eq hbytes (by
      have hle := hshape.length_le
      simp only [List.length_append, List.length_replicate] at hle
      exact hle)
  obtain ⟨hret, hfault⟩ := writeCodeblock_ret conf o hbuf
  have hwritten := hshape.length_eq
  simp only [encapsulateFrame, if_neg hnum', hframed, hh, Bool.not_true, Bool.false_eq_true, if_false]
  refine ⟨?_, hfault, _, ?_, hshape, fun halloc henq => writeCodeblock_ring conf hbuf halloc henq⟩
  · rw [hret, hwritten, packageL2L1Header_length, encodeInnerHeader_length]
    simp only [sizeofL2L1MsgHeader, sizeofL2L1Header, sizeofBbHeader]
    cases env.allocates o.pool.allocs with
    | false => rfl
    | true =>
      simp only [if_true]
      rw [if_neg (by omega), if_pos (by omega)]
  · rw [writtenBuffer, hh, Option.bind_some, hbuf]

def twoLoads : List Load := [⟨zeroPdu 100, .sixBytes, 6, .initial⟩, ⟨labelledStart, .reuse, 0, .initial⟩]

lemma twoLoads_sized : ∀ x ∈ twoLoads, x.Sized := by
  simp only [twoLoads, List.mem_cons, List.not_mem_nil, or_false, forall_eq_or_imp, forall_eq]
  constructor <;> constructor <;> decide

theorem frame_has_shape_two :
    (twoLoads.map fun x => x.group.gseTotalLength).sum = 131 ∧
      ∃ buffer, FrameShape twoLoads 1991 131 buffer := by
  have hsum : (twoLoads.map fun x => x.group.gseTotalLength).sum = 131 := by decide
  obtain ⟨-, -, buffer, -, hshape, -⟩ := @frame_has_shape sampleEnv sampleConf rfl 1 (by decide)
    (by decide) twoLoads (by decide) (by decide) twoLoads_sized 131 hsum (by decide) .initial
    ⟨.fresh, false⟩
  exact ⟨hsum, buffer, hshape⟩

end Fengtai.Send
