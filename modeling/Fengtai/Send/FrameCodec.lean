import Fengtai.Receive.FrameHeader
import Fengtai.Send.Lengths

set_option autoImplicit false

/-! The headers `encapsulate_frame` writes, read by `process_frame_header`. -/

namespace Fengtai.Send

open Library.Words Crc Receive

lemma writeCodeblock_ring {env : SendEnv} (conf : AppConf) {inner l2l1 header : List UInt8}
    {g : GseGroup} {paddingBytes : ℕ} {o : Output} {buffer : List UInt8}
    (hbuf : writeBuffer inner l2l1 header g paddingBytes = some buffer)
    (halloc : env.allocates o.pool.allocs = true) (henq : env.enqueues o.pool.enqueues = true) :
    ∃ m : RteMbuf, (writeCodeblock env conf inner l2l1 header g paddingBytes o).2.pool.ring =
        o.pool.ring ++ [(conf.mappingId, m)] ∧ m.dataLen = buffer.length ∧ Holds m.data 0 buffer := by
  refine ⟨⟨.allocated o.pool.allocs, overwrite (env.room o.pool.allocs) buffer, buffer.length, 0⟩, ?_,
    rfl, holds_overwrite _ _⟩
  simp [writeCodeblock, hbuf, Pool.alloc, halloc, Output.enqueueSndBbRing, henq]

lemma writeCodeblock_ret {env : SendEnv} (conf : AppConf) {inner l2l1 header : List UInt8}
    {g : GseGroup} {paddingBytes : ℕ} (o : Output) {buffer : List UInt8}
    (hbuf : writeBuffer inner l2l1 header g paddingBytes = some buffer) :
    (writeCodeblock env conf inner l2l1 header g paddingBytes o).1 =
        (if env.allocates o.pool.allocs then buffer.length - l2l1.length - inner.length else 0) ∧
      (writeCodeblock env conf inner l2l1 header g paddingBytes o).2.fault = o.fault := by
  cases halloc : env.allocates o.pool.allocs <;>
    simp [writeCodeblock, hbuf, Pool.alloc, halloc, Output.enqueueSndBbRing]

lemma writeBuffer_eq {inner l2l1 header : List UInt8} {g : GseGroup} {paddingBytes : ℕ}
    {packets : List (List UInt8)} (hp : g.packets.mapM OneGse.bytes = some packets)
    (hlen : inner.length + l2l1.length + header.length + packets.flatten.length + paddingBytes ≤
      fifoItemSize) :
    writeBuffer inner l2l1 header g paddingBytes =
      some (inner ++ l2l1 ++ header ++ packets.flatten ++ List.replicate paddingBytes 0) := by
  simp only [writeBuffer, hp]
  rw [if_pos]
  simp only [List.length_append, List.length_replicate]
  omega

@[simp] lemma encodeInnerHeader_length (conf : AppConf) (macRev : UInt8 × UInt8) (frameSize : ℕ) :
    (encodeInnerHeader conf macRev frameSize).length = 24 := by
  simp [encodeInnerHeader, conf.localMac_length]

@[simp] lemma packageL2L1Header_length (frameSize modcod : ℕ) :
    (packageL2L1Header frameSize modcod).length = 32 := by
  simp [packageL2L1Header]

/-- The BB header for `dataSize` bytes. -/
def bbHeader (dataSize : ℕ) : List UInt8 :=
  bbHeaderFields (u16 (dataSize * 8)) ++ [mcsGetCrc8 (bbHeaderFields (u16 (dataSize * 8)))]

@[simp] lemma bbHeader_length (dataSize : ℕ) : (bbHeader dataSize).length = 10 := rfl

lemma holds_encodeInnerHeader {mem : Memory} {conf : AppConf} {macRev : UInt8 × UInt8} {frameSize : ℕ}
    (h : Holds mem 0 (encodeInnerHeader conf macRev frameSize)) :
    bswap16 (load16 mem 12) = 0x9101 ∧ mem 17 = UInt8.ofNat conf.portToPktType := by
  simp only [encodeInnerHeader, holds_append, holds_cons, List.length_append, List.length_cons,
    List.length_nil, conf.localMac_length, be16_length] at h
  obtain ⟨⟨⟨⟨⟨-, htype⟩, -⟩, -, hmsg, -⟩, -⟩, -⟩ := h
  exact ⟨load16_be16 htype, hmsg⟩

lemma holds_packageL2L1Header {mem : Memory} {frameSize modcod pL2L1Header : ℕ}
    (h : Holds mem pL2L1Header (packageL2L1Header frameSize modcod)) :
    bswap16 (load16 mem (pL2L1Header + 10)) = u16 frameSize := by
  simp only [packageL2L1Header, holds_append] at h
  exact load16_be16 h.1.2

lemma holds_bbHeader {mem : Memory} {dataSize pBBHeader : ℕ} (h : Holds mem pBBHeader (bbHeader dataSize))
    (hsize : dataSize < 8192) :
    bswap16 (load16 mem (pBBHeader + 4)) = 8 * dataSize ∧ identifyGs mem pBBHeader = true := by
  simp only [bbHeader, holds_append] at h
  obtain ⟨hfields, hcrc⟩ := h
  have hread : window mem pBBHeader (sizeofBbHeader - 1) = bbHeaderFields (u16 (dataSize * 8)) :=
    hfields
  simp only [holds_cons, holds_nil, and_true] at hcrc
  simp only [bbHeaderFields, holds_append, holds_cons] at hfields
  obtain ⟨⟨⟨hma, -⟩, hdfl⟩, -⟩ := hfields
  refine ⟨?_, ?_⟩
  · have hload : bswap16 (load16 mem (pBBHeader + 4)) = u16 (u16 (dataSize * 8)) :=
      load16_be16 hdfl
    rw [hload, u16_of_lt (u16_lt _), u16_of_lt (by omega), Nat.mul_comm]
  · have hcrc' : mem (pBBHeader + 9) = mcsGetCrc8 (bbHeaderFields (u16 (dataSize * 8))) := hcrc
    simp only [identifyGs, hread, hcrc', beq_self_eq_true, Bool.true_and, hma]
    decide

lemma holds_packets {mem : Memory} {conf : AppConf} {macRev : UInt8 × UInt8}
    {frameSize modcod used : ℕ} {packets rest : List UInt8}
    (h : Holds mem 0 (encodeInnerHeader conf macRev frameSize ++ packageL2L1Header frameSize modcod ++
      bbHeader used ++ packets ++ rest)) : Holds mem 66 packets := by
  simp only [holds_append, List.length_append, encodeInnerHeader_length, packageL2L1Header_length,
    bbHeader_length] at h
  exact h.1.2

lemma processFrameHeader_fwdData {m : RteMbuf} {conf : AppConf} {macRev : UInt8 × UInt8}
    {payload modcod used : ℕ} {rest : List UInt8} (htype : conf.portToPktType = enumFwdTxFwdData)
    (h : Holds m.data 0 (encodeInnerHeader conf macRev (10 + payload) ++
      packageL2L1Header (10 + payload) modcod ++ bbHeader used ++ rest))
    (hpay : payload ≤ 8000) (hused : used ≤ payload) (para : FrameParam) (pool : Pool) :
    (processFrameHeader m para pool).ret = 0 ∧
      (processFrameHeader m para pool).para = ⟨payload - used, enumFwdTxFwdData, 66, 10, 10 + payload⟩ ∧
      (processFrameHeader m para pool).mbuf = m ∧ (processFrameHeader m para pool).pool = pool := by
  simp only [holds_append, List.length_append, encodeInnerHeader_length, packageL2L1Header_length] at h
  obtain ⟨⟨⟨hinner, hl2l1⟩, hbb⟩, -⟩ := h
  obtain ⟨hether, hmsg⟩ := holds_encodeInnerHeader hinner
  have hsize : bswap16 (load16 m.data 34) = 10 + payload := by
    have hload : bswap16 (load16 m.data 34) = u16 (10 + payload) := holds_packageL2L1Header hl2l1
    rw [hload, u16_of_lt (by omega)]
  obtain ⟨hdfl, hgs⟩ := holds_bbHeader hbb (by omega)
  have hmsg' : (m.data 17).toNat = enumFwdTxFwdData := by rw [hmsg, htype]; rfl
  have hproc : processFrameHeader m para pool = processFwdData m enumFwdTxFwdData para pool := by
    simp only [processFrameHeader, hether, if_true, hmsg', true_or]
  have hfwd : processFwdData m enumFwdTxFwdData para pool =
      { ret := 0
        para := ⟨payload - used, enumFwdTxFwdData, 66, 10, 10 + payload⟩
        mbuf := m
        pool := pool
        reads := [(12, 2), (17, 1), (32, 1), (34, 2), (60, 2), (56, 10)] } := by
    simp only [processFwdData, sizeofL2L1MsgHeader, sizeofL2L1Header, sizeofBbHeader, hsize]
    have hdfl' : bswap16 (load16 m.data (24 + 32 + 4)) = 8 * used := hdfl
    have hgs' : identifyGs m.data (24 + 32) = true := hgs
    rw [hdfl', if_pos hgs']
    have hpad : (((10 + payload : ℕ) : ℤ) - (10 : ℕ) - ((8 * used : ℕ) : ℤ) / 8) % 4294967296 =
        ((payload - used : ℕ) : ℤ) := by omega
    rw [hpad, Int.toNat_natCast]
  rw [hproc, hfwd]
  exact ⟨rfl, rfl, rfl, rfl⟩

lemma processFrameHeader_other {m : RteMbuf} {conf : AppConf} {macRev : UInt8 × UInt8}
    {frameSize : ℕ} {rest : List UInt8}
    (htype : conf.portToPktType = islPack ∨ conf.portToPktType = bbframePack)
    (h : Holds m.data 0 (encodeInnerHeader conf macRev frameSize ++ rest))
    (para : FrameParam) (pool : Pool) :
    (processFrameHeader m para pool).ret = -1 ∧
      (processFrameHeader m para pool).pool = pool.free m.addr := by
  obtain ⟨hether, hmsg⟩ := holds_encodeInnerHeader ((holds_append _ _ _ _).mp h).1
  have hmsg' : (m.data 17).toNat = 3 ∨ (m.data 17).toNat = 4 := by
    rw [hmsg]
    rcases htype with h | h <;> rw [h] <;> simp [islPack, bbframePack]
  have hproc : processFrameHeader m para pool =
      ⟨-1, para, m, pool.free m.addr, [(12, 2), (17, 1)]⟩ := by
    rcases hmsg' with h3 | h4
    · simp [processFrameHeader, hether, h3, enumFwdTxFwdData, enumFwdRxFwdData, enumFwdTxIndication]
    · simp [processFrameHeader, hether, h4, enumFwdTxFwdData, enumFwdRxFwdData, enumFwdTxIndication]
  rw [hproc]
  exact ⟨rfl, rfl⟩

/-- What `process_frame_header` is to make of a frame of `payload` bytes, of which `packets` are
used. -/
def HeaderAgrees (conf : AppConf) (headerSize payload : ℕ) (packets : List UInt8) (m : RteMbuf) :
    Prop :=
  ∀ para pool, let r := processFrameHeader m para pool
    r.ret = 0 ∧ r.para.frameSize = headerSize + payload ∧
      r.para.paddingBytes = payload - packets.length ∧ r.para.packType = conf.portToPktType ∧
      window m.data r.para.gseOffset packets.length = packets

def AppConf.headerSize (conf : AppConf) : ℕ :=
  if conf.portToPktType = islPack then sizeofIslHeader else sizeofBbHeader

/-- The ISL header for `dataSize` bytes. -/
def islHeader (dataSize : ℕ) : List UInt8 :=
  islHeaderFields (be16 (u16 (dataSize * 8))) ++
    (be32 (crc32LookupTable (islHeaderFields (le16 (u16 (dataSize * 8))))).toNat).reverse

@[simp] lemma islHeader_length (dataSize : ℕ) : (islHeader dataSize).length = 11 := rfl

lemma frameHeaderOf_isl {conf : AppConf} (htype : conf.portToPktType = islPack) (modcod : ℕ)
    {payload used : ℕ} (hpay : payload ≤ 8000) (hused : used ≤ payload) :
    frameHeaderOf conf modcod payload used =
      some ⟨11 + payload, islHeader used, [], payload - used⟩ := by
  have hsize : u16 (sizeofIslHeader + payload) = 11 + payload := by
    rw [sizeofIslHeader, u16_of_lt (by omega)]
  have hpad : islPadding (11 + payload) used = payload - used := by
    have h8 : u16 (used * 8) = used * 8 := u16_of_lt (by omega)
    have hroom : sub16 (11 + payload) sizeofIslHeader = payload := by
      rw [sizeofIslHeader, sub16_of_le (by omega) (by omega)]
      omega
    rw [islPadding, h8, Nat.mul_div_cancel _ (by norm_num), hroom, sub16_of_le hused (by omega)]
  simp only [frameHeaderOf, if_pos htype, hsize, hpad, packageISLHeader]
  rw [if_pos (by rw [sizeofIslHeader]; omega)]
  rfl

lemma frameHeaderOf_bb {conf : AppConf} (htype : conf.portToPktType ≠ islPack) (modcod : ℕ)
    {payload used : ℕ} (hpay : payload ≤ 8000) (hused : used ≤ payload) :
    frameHeaderOf conf modcod payload used =
      some ⟨10 + payload, bbHeader used, packageL2L1Header (10 + payload) modcod, payload - used⟩ := by
  have hsize : u16 (sizeofBbHeader + payload) = 10 + payload := by
    rw [sizeofBbHeader, u16_of_lt (by omega)]
  have hpad : padding (10 + payload) used = payload - used := by
    have h8 : u16 (used * 8) = used * 8 := u16_of_lt (by omega)
    have hroom : sub16 (10 + payload) sizeofBbHeader = payload := by
      rw [sizeofBbHeader, sub16_of_le (by omega) (by omega)]
      omega
    rw [padding, h8, Nat.mul_div_cancel _ (by norm_num), hroom, sub16_of_le hused (by omega)]
  simp only [frameHeaderOf, if_neg htype, hsize, hpad, packageBBHeader]
  rw [if_pos (by rw [sizeofBbHeader]; omega)]
  rfl

lemma encapsulateFrame_ring {env : SendEnv} {conf : AppConf} {g : GseGroup} {payload used : ℕ}
    (hnum : g.gseNum ≠ 0) (hframed : conf.framed = true) {packets : List (List UInt8)}
    (hp : g.packets.mapM OneGse.bytes = some packets) (hlen : packets.flatten.length = used)
    (hpay : payload ≤ 7300) (hused : used ≤ payload) {o : Output}
    (halloc : env.allocates o.pool.allocs = true) (henq : env.enqueues o.pool.enqueues = true) :
    ∃ m : RteMbuf, (encapsulateFrame env conf g payload used o).2.pool.ring =
        o.pool.ring ++ [(conf.mappingId, m)] ∧
      ∃ h, frameHeaderOf conf g.modcod payload used = some h ∧
        Holds m.data 0 (encodeInnerHeader conf (env.macRev o.pool.allocs) h.frameSize ++
          h.l2l1Header ++ h.header ++ packets.flatten ++ List.replicate h.paddingBytes 0) := by
  have hframe : ∃ h, frameHeaderOf conf g.modcod payload used = some h ∧
      h.l2l1Header.length + h.header.length ≤ 42 ∧ h.paddingBytes = payload - used := by
    by_cases htype : conf.portToPktType = islPack
    · exact ⟨_, frameHeaderOf_isl htype _ (by omega) hused, by simp, rfl⟩
    · exact ⟨_, frameHeaderOf_bb htype _ (by omega) hused, by simp, rfl⟩
  obtain ⟨h, hh, hle, hpad⟩ := hframe
  have hbuf : writeBuffer (encodeInnerHeader conf (env.macRev o.pool.allocs) h.frameSize) h.l2l1Header
      h.header g h.paddingBytes = some _ := writeBuffer_eq hp (by
      rw [encodeInnerHeader_length, hlen, hpad, fifoItemSize]
      omega)
  obtain ⟨m, hring, -, hdata⟩ := writeCodeblock_ring conf hbuf halloc henq
  refine ⟨m, ?_, h, hh, hdata⟩
  simp only [encapsulateFrame, if_neg hnum, hframed, hh, Bool.not_true, Bool.false_eq_true, if_false]
  exact hring

/-- Of the packet types `encapsulate_frame` knows, `process_frame_header` accepts one, with the
fields the frame was made from; it frees the frames of the two others. -/
theorem frame_header_codec {env : SendEnv} {conf : AppConf} (hframed : conf.framed = true)
    {modcod : ℕ} (h1 : 1 ≤ modcod) (h28 : modcod ≤ 28) {g : GseGroup} (hnum : g.gseNum ≠ 0)
    {packets : List (List UInt8)} (hp : g.packets.mapM OneGse.bytes = some packets) {used : ℕ}
    (hlen : packets.flatten.length = used) (hhigh : used ≤ mapModcodPayload modcod)
    {o : Output} (halloc : env.allocates o.pool.allocs = true)
    (henq : env.enqueues o.pool.enqueues = true) :
    ∃ m : RteMbuf,
      (encapsulateFrame env conf g (mapModcodPayload modcod) used o).2.pool.ring =
          o.pool.ring ++ [(conf.mappingId, m)] ∧
        (HeaderAgrees conf conf.headerSize (mapModcodPayload modcod) packets.flatten m ↔
          conf.portToPktType = enumFwdTxFwdData) ∧
        (conf.portToPktType ≠ enumFwdTxFwdData → ∀ para pool,
          (processFrameHeader m para pool).ret = -1 ∧
            (processFrameHeader m para pool).pool = pool.free m.addr) := by
  obtain ⟨-, hpay⟩ := mapModcodPayload_bounds h1 h28
  generalize mapModcodPayload modcod = payload at *
  obtain ⟨m, hring, h, hh, hdata⟩ :=
    encapsulateFrame_ring hnum hframed hp hlen (by omega) hhigh halloc henq
  refine ⟨m, hring, ?_⟩
  by_cases htype : conf.portToPktType = enumFwdTxFwdData
  · have hne : conf.portToPktType ≠ islPack := by rw [htype]; decide
    rw [frameHeaderOf_bb hne _ (by omega) hhigh] at hh
    obtain rfl := Option.some.inj hh
    have hpackets : Holds m.data 66 packets.flatten := holds_packets hdata
    rw [List.append_assoc _ packets.flatten] at hdata
    refine ⟨iff_of_true (fun para pool => ?_) htype, fun hother => absurd htype hother⟩
    obtain ⟨hret, hpara, -, -⟩ := processFrameHeader_fwdData htype hdata (by omega) hhigh para pool
    refine ⟨hret, ?_, ?_, ?_, ?_⟩
    · rw [hpara, AppConf.headerSize, if_neg hne]
      rfl
    · rw [hpara, hlen]
    · rw [hpara, htype]
    · rw [hpara]
      exact hpackets
  · have hother : conf.portToPktType = islPack ∨ conf.portToPktType = bbframePack := by
      rcases of_decide_eq_true hframed with h | h | h
      · exact .inl h
      · exact .inr h
      · exact absurd h htype
    simp only [List.append_assoc] at hdata
    have hdrop := processFrameHeader_other hother hdata
    refine ⟨iff_of_false (fun hagree => ?_) htype, fun _ => hdrop⟩
    have hret := (hagree ⟨0, 0, 0, 0, 0⟩ .fresh).1
    rw [(hdrop ⟨0, 0, 0, 0, 0⟩ .fresh).1] at hret
    exact absurd hret (by decide)

def hundredGroup : GseGroup := encapsulateGse ((zeroPdu 100).group 0) .initial

def hundredBytes : List UInt8 := be16 0xE066 ++ be16 0 ++ List.replicate 100 0

lemma hundredGroup_bytes : hundredGroup.packets.mapM OneGse.bytes = some [hundredBytes] := by decide

/-- A frame of 104 used bytes goes through. -/
theorem frame_header_codec_hundred :
    ∃ m : RteMbuf, HeaderAgrees sampleConf 10 1991 hundredBytes m := by
  obtain ⟨m, -, hagree, -⟩ := @frame_header_codec sampleEnv sampleConf (by decide) 1 (by decide)
    (by decide) hundredGroup (by decide) [hundredBytes] hundredGroup_bytes 104 rfl (by decide)
    ⟨.fresh, false⟩ rfl rfl
  exact ⟨m, hagree.mpr rfl⟩

/-- The frame of `hundredGroup` for packet type `t` is read back. -/
def HundredAgrees (t : ℕ) : Prop :=
  ∃ m : RteMbuf,
    (encapsulateFrame sampleEnv { sampleConf with portToPktType := t } hundredGroup
        (mapModcodPayload 1) 104 ⟨.fresh, false⟩).2.pool.ring = [(0, m)] ∧
      HeaderAgrees { sampleConf with portToPktType := t }
        (AppConf.headerSize { sampleConf with portToPktType := t }) (mapModcodPayload 1)
        hundredBytes m

lemma not_hundredAgrees {t : ℕ} (hother : t = islPack ∨ t = bbframePack) : ¬ HundredAgrees t := by
  rintro ⟨m, hring, hagree⟩
  obtain ⟨m', hring', h, -, hdata⟩ := @encapsulateFrame_ring sampleEnv
    { sampleConf with portToPktType := t } hundredGroup (mapModcodPayload 1) 104 (by decide)
    (by rcases hother with rfl | rfl <;> rfl) [hundredBytes] hundredGroup_bytes rfl (by decide)
    (by decide) ⟨.fresh, false⟩ rfl rfl
  have hm : m = m' := by
    rw [hring'] at hring
    exact (Prod.mk.inj (List.cons.inj hring).1).2.symm
  simp only [List.append_assoc] at hdata
  have hdrop := (processFrameHeader_other hother hdata ⟨0, 0, 0, 0, 0⟩ .fresh).1
  have hret := (hagree ⟨0, 0, 0, 0, 0⟩ .fresh).1
  rw [hm, hdrop] at hret
  exact absurd hret (by decide)

/-- For the two other packet types it is freed. -/
theorem other_pack_types_dropped : ¬ HundredAgrees islPack ∧ ¬ HundredAgrees bbframePack :=
  ⟨not_hundredAgrees (.inl rfl), not_hundredAgrees (.inr rfl)⟩

end Fengtai.Send
