import Fengtai.Receive.TagRoute
import Fengtai.Send.FrameCodec

set_option autoImplicit false

/-! ISL frames with the build option `TAG_ROUTE`: what `encapsulate_frame` writes, read by
`process_frame_header`. -/

namespace Fengtai.Send

open Library.Words Crc Receive

structure TagRouteConf extends AppConf where
  protocolType : ℕ
  dstMac : List UInt8
  dstMac_length : dstMac.length = 6

namespace TagRouteConf

variable (conf : TagRouteConf)

/-- `encode_inner_header`, without `PCIE_SWITCH`. `rte_cpu_to_be_16` takes the lower half of the
protocol type. -/
def encodeInnerHeader (macRev : UInt8 × UInt8) (frameSize : ℕ) : List UInt8 :=
  let msgLen :=
    if conf.portToPktType = bbframePack ∨ conf.portToPktType = enumFwdTxFwdData then
      sizeofL2L1MsgHeader - sizeofMacFrameHeader + sizeofL2L1Header + frameSize
    else sizeofL2L1MsgHeader - sizeofMacFrameHeader + frameSize
  conf.dstMac ++ conf.localMac ++ be16 (u16 conf.protocolType) ++ [macRev.1, macRev.2] ++
    [0x01, UInt8.ofNat conf.portToPktType] ++ be16 msgLen ++ [0, 0, 0, 0]

def encapsulateFrame (env : SendEnv) (g : GseGroup) (frameMaxPayload dataSize : ℕ) (o : Output) :
    ℤ × Output :=
  if g.gseNum = 0 then (-1, o)
  else if !conf.framed then (-128, o)
  else
    match frameHeaderOf conf.toAppConf g.modcod frameMaxPayload dataSize with
    | none => (-1, o)
    | some h =>
      let inner := conf.encodeInnerHeader (env.macRev o.pool.allocs) h.frameSize
      let r := writeCodeblock env conf.toAppConf inner h.l2l1Header h.header g h.paddingBytes o
      (if r.1 = 0 then -128 else if r.1 = h.frameSize then 0 else -1, r.2)

@[simp] lemma encodeInnerHeader_length (macRev : UInt8 × UInt8) (frameSize : ℕ) :
    (conf.encodeInnerHeader macRev frameSize).length = 24 := by
  simp [encodeInnerHeader, conf.localMac_length, conf.dstMac_length]

variable {conf} {mem : Memory} {macRev : UInt8 × UInt8} {frameSize used : ℕ}

lemma holds_encodeInnerHeader (hisl : conf.portToPktType = islPack)
    (h : Holds mem 0 (conf.encodeInnerHeader macRev frameSize)) :
    bswap16 (load16 mem 12) = u16 conf.protocolType ∧ (mem 17).toNat = islPack ∧
      load16 mem 18 = bswap16 (10 + frameSize) := by
  simp only [encodeInnerHeader, hisl, holds_append, holds_cons, List.length_append, List.length_cons,
    List.length_nil, conf.localMac_length, conf.dstMac_length, be16_length] at h
  obtain ⟨⟨⟨⟨⟨-, htype⟩, -⟩, -, hmsg, -⟩, hlen⟩, -⟩ := h
  refine ⟨?_, ?_, ?_⟩
  · have hload : bswap16 (load16 mem 12) = u16 (u16 conf.protocolType) := load16_be16 htype
    rw [hload, u16_of_lt (u16_lt _)]
  · have hmsg' : mem 17 = UInt8.ofNat islPack := hmsg
    rw [hmsg']
    rfl
  · have hload : bswap16 (load16 mem 18) = u16 (10 + frameSize) := load16_be16 hlen
    rw [← bswap16_bswap16 (load16_lt mem 18), hload]
    simp only [bswap16, u16]
    omega

lemma identifyIsl_ntohsAt {p : ℕ} (h : Holds mem p (islHeader used)) (hused : used < 8192) :
    load16 (ntohsAt mem (p + 5)) (p + 5) = 8 * used ∧
      TagRoute.identifyIsl (ntohsAt mem (p + 5)) p = true := by
  simp only [islHeader, islHeaderFields, holds_append] at h
  obtain ⟨⟨hzero, hdfl⟩, hcrc⟩ := h
  have hdfl' : Holds (ntohsAt mem (p + 5)) (p + 5) (le16 (u16 (used * 8))) := holds_ntohsAt hdfl
  have hzero' : Holds (ntohsAt mem (p + 5)) p [0, 0, 0, 0, 0] :=
    holds_ntohsAt_of_disjoint hzero (.inl le_rfl)
  have hfields : Holds (ntohsAt mem (p + 5)) p (islHeaderFields (le16 (u16 (used * 8)))) :=
    (holds_append _ _ _ _).mpr ⟨hzero', hdfl'⟩
  have hcrc' : Holds (ntohsAt mem (p + 5)) (p + 7)
      (be32 (crc32LookupTable (islHeaderFields (le16 (u16 (used * 8))))).toNat).reverse :=
    holds_ntohsAt_of_disjoint hcrc (.inr le_rfl)
  refine ⟨?_, ?_⟩
  · rw [load16_le16 hdfl', u16_of_lt (u16_lt _), u16_of_lt (by omega), Nat.mul_comm]
  · have hread : window (ntohsAt mem (p + 5)) p (sizeofIslHeader - 4) =
        islHeaderFields (le16 (u16 (used * 8))) := hfields
    rw [TagRoute.identifyIsl, hread, load32_reverse_be32 hcrc' (BitVec.isLt _), beq_self_eq_true]

def frameSizeRead (payload : ℕ) : ℕ :=
  sub16 (bswap16 (10 + (11 + payload)) + sizeofMacFrameHeader) sizeofL2L1MsgHeader

lemma processFrameHeader_isl (hisl : conf.portToPktType = islPack)
    (hproto : u16 conf.protocolType ≠ 0x9101 ∧ u16 conf.protocolType ≠ protocolIpv4 ∧
      u16 conf.protocolType ≠ protocolArp)
    {m : RteMbuf} {payload : ℕ} {packets rest : List UInt8}
    (h : Holds m.data 0 (conf.encodeInnerHeader macRev (11 + payload) ++ islHeader used ++ packets ++
      rest)) (hused : used < 8192) (prepare : RteMbuf → Option RteMbuf) (para : FrameParam)
    (pool : Pool) :
    let r := TagRoute.processFrameHeader prepare m para pool
    r.ret = 0 ∧ r.para.packType = islPack ∧ window r.mbuf.data r.para.gseOffset packets.length = packets ∧
      r.para.frameSize = frameSizeRead payload ∧
      r.para.paddingBytes = (((frameSizeRead payload : ℕ) - (11 : ℤ) - used) % 4294967296).toNat := by
  simp only [holds_append, List.length_append, encodeInnerHeader_length, islHeader_length] at h
  obtain ⟨⟨⟨hinner, hheader⟩, hpackets⟩, -⟩ := h
  obtain ⟨hether, hmsg, hlen⟩ := holds_encodeInnerHeader hisl hinner
  obtain ⟨hdfl, hcrc⟩ := identifyIsl_ntohsAt hheader hused
  obtain ⟨hne, hip, harp⟩ := hproto
  have hproc : TagRoute.processFrameHeader prepare m para pool = TagRoute.processIsl m para pool := by
    simp only [TagRoute.processFrameHeader, hether, hip, harp, or_self, if_false, hne, hmsg, if_true]
  have hmsg' : (ntohsAt m.data 29 17).toNat = islPack := hmsg
  have hpackets' : Holds (ntohsAt m.data 29) 35 packets :=
    holds_ntohsAt_of_disjoint hpackets (.inr (by norm_num))
  have hdfl' : load16 (ntohsAt m.data 29) 29 = 8 * used := hdfl
  have hcrc' : TagRoute.identifyIsl (ntohsAt m.data 29) 24 = true := hcrc
  simp only [hproc, TagRoute.processIsl, sizeofL2L1MsgHeader, sizeofIslHeader, hcrc', if_true, hmsg',
    hdfl', hlen]
  refine ⟨trivial, trivial, hpackets', rfl, ?_⟩
  have hbits : ((8 * used : ℕ) : ℤ) / 8 = used := by omega
  rw [hbits]
  rfl

end TagRouteConf

/-- What `process_frame_header` is to make of an ISL frame of `payload` bytes, of which `packets`
are used. -/
def IslAgrees (prepare : RteMbuf → Option RteMbuf) (payload : ℕ) (packets : List UInt8) (m : RteMbuf) :
    Prop :=
  ∀ para pool, let r := TagRoute.processFrameHeader prepare m para pool
    r.ret = 0 ∧ r.para.frameSize = sizeofIslHeader + payload ∧
      r.para.paddingBytes = payload - packets.length ∧
      window r.mbuf.data r.para.gseOffset packets.length = packets

lemma isl_frame_read {env : SendEnv} {conf : TagRouteConf} (hisl : conf.portToPktType = islPack)
    (hproto : u16 conf.protocolType ≠ 0x9101 ∧ u16 conf.protocolType ≠ protocolIpv4 ∧
      u16 conf.protocolType ≠ protocolArp)
    {payload : ℕ} (hpay : payload ≤ 7264) {g : GseGroup} (hnum : g.gseNum ≠ 0)
    {packets : List (List UInt8)} (hp : g.packets.mapM OneGse.bytes = some packets) {used : ℕ}
    (hlen : packets.flatten.length = used) (hhigh : used ≤ payload) {o : Output}
    (halloc : env.allocates o.pool.allocs = true) (henq : env.enqueues o.pool.enqueues = true) :
    ∃ m : RteMbuf,
      (conf.encapsulateFrame env g payload used o).2.pool.ring =
          o.pool.ring ++ [(conf.mappingId, m)] ∧
        ∀ prepare para pool, let r := TagRoute.processFrameHeader prepare m para pool
          r.ret = 0 ∧ window r.mbuf.data r.para.gseOffset used = packets.flatten ∧
            r.para.frameSize = TagRouteConf.frameSizeRead payload ∧
            r.para.paddingBytes =
              (((TagRouteConf.frameSizeRead payload : ℕ) - (11 : ℤ) - used) % 4294967296).toNat := by
  have hh := frameHeaderOf_isl hisl g.modcod (hpay.trans (by norm_num)) hhigh
  have hframed : conf.framed = true := by simp [AppConf.framed, hisl]
  have hbuf : writeBuffer (conf.encodeInnerHeader (env.macRev o.pool.allocs) (11 + payload)) []
      (islHeader used) g (payload - used) = some _ := writeBuffer_eq hp (by
        rw [TagRouteConf.encodeInnerHeader_length, islHeader_length, hlen, fifoItemSize]
        simp only [List.length_nil]
        omega)
  obtain ⟨m, hring, -, hdata⟩ := writeCodeblock_ring conf.toAppConf hbuf halloc henq
  rw [List.append_nil] at hdata
  refine ⟨m, ?_, fun prepare para pool => ?_⟩
  · simp only [TagRouteConf.encapsulateFrame, if_neg hnum, hframed, hh, Bool.not_true,
      Bool.false_eq_true, if_false]
    exact hring
  · obtain ⟨hret, -, hpackets, hsize, hpad⟩ :=
      TagRouteConf.processFrameHeader_isl hisl hproto hdata (by omega) prepare para pool
    rw [hlen] at hpackets
    exact ⟨hret, hpackets, hsize, hpad⟩

lemma frameSizeRead_ne {modcod : ℕ} (h1 : 1 ≤ modcod) (h28 : modcod ≤ 28) :
    TagRouteConf.frameSizeRead (mapModcodPayload modcod) ≠ 11 + mapModcodPayload modcod := by
  interval_cases modcod <;> decide

lemma paddingRead_ne {size payload used : ℕ} (hlt : size < 65536) (hpay : payload ≤ 7264)
    (hhigh : used ≤ payload) (hne : size ≠ 11 + payload) :
    (((size : ℤ) - 11 - used) % 4294967296).toNat ≠ payload - used := by
  rcases Nat.lt_or_ge size (11 + used) with hsmall | hlarge
  · -- the difference has wrapped below zero, and is larger than any padding
    have hwrap : (((size : ℤ) - 11 - used) % 4294967296) = size - 11 - used + 4294967296 := by
      omega
    rw [hwrap]
    omega
  · have hkeep : (((size : ℤ) - 11 - used) % 4294967296) = size - 11 - used :=
      Int.emod_eq_of_lt (by omega) (by omega)
    rw [hkeep]
    omega

/-- An ISL frame passes its CRC and its packets are found, but the frame size and the padding are
never right: the receiver takes `msg_len` without converting it. -/
theorem isl_frame_size_wrong {env : SendEnv} {conf : TagRouteConf}
    (hisl : conf.portToPktType = islPack)
    (hproto : u16 conf.protocolType ≠ 0x9101 ∧ u16 conf.protocolType ≠ protocolIpv4 ∧
      u16 conf.protocolType ≠ protocolArp)
    {modcod : ℕ} (h1 : 1 ≤ modcod) (h28 : modcod ≤ 28) {g : GseGroup} (hnum : g.gseNum ≠ 0)
    {packets : List (List UInt8)} (hp : g.packets.mapM OneGse.bytes = some packets) {used : ℕ}
    (hlen : packets.flatten.length = used) (hhigh : used ≤ mapModcodPayload modcod)
    {o : Output} (halloc : env.allocates o.pool.allocs = true)
    (henq : env.enqueues o.pool.enqueues = true) :
    ∃ m : RteMbuf,
      (conf.encapsulateFrame env g (mapModcodPayload modcod) used o).2.pool.ring =
          o.pool.ring ++ [(conf.mappingId, m)] ∧
        ∀ prepare, ¬ IslAgrees prepare (mapModcodPayload modcod) packets.flatten m ∧
          ∀ para pool, let r := TagRoute.processFrameHeader prepare m para pool
            r.ret = 0 ∧ window r.mbuf.data r.para.gseOffset used = packets.flatten ∧
              r.para.frameSize ≠ sizeofIslHeader + mapModcodPayload modcod ∧
              r.para.paddingBytes ≠ mapModcodPayload modcod - used := by
  obtain ⟨-, hpay⟩ := mapModcodPayload_bounds h1 h28
  have hne := frameSizeRead_ne h1 h28
  generalize mapModcodPayload modcod = payload at *
  obtain ⟨m, hring, hread⟩ := isl_frame_read hisl hproto hpay hnum hp hlen hhigh halloc henq
  have hlt : TagRouteConf.frameSizeRead payload < 65536 := sub16_lt _ _
  refine ⟨m, hring, fun prepare => ⟨fun hagree => ?_, fun para pool => ?_⟩⟩
  · obtain ⟨-, -, hsize, -⟩ := hread prepare ⟨0, 0, 0, 0, 0⟩ .fresh
    obtain ⟨-, hsize', -, -⟩ := hagree ⟨0, 0, 0, 0, 0⟩ .fresh
    exact hne (hsize.symm.trans hsize')
  · obtain ⟨hret, hpackets, hsize, hpad⟩ := hread prepare para pool
    refine ⟨hret, hpackets, ?_, ?_⟩
    · rw [hsize]
      exact hne
    · rw [hpad]
      exact paddingRead_ne hlt hpay hhigh hne

def islConf : TagRouteConf where
  toAppConf := { sampleConf with portToPktType := islPack }
  protocolType := 0x9103
  dstMac := List.replicate 6 0
  dstMac_length := sampleConf.localMac_length

theorem isl_frame_size_wrong_hundred :
    ∃ m : RteMbuf, ∀ prepare, ¬ IslAgrees prepare (mapModcodPayload 1) hundredBytes m := by
  obtain ⟨m, -, hread⟩ := @isl_frame_size_wrong sampleEnv islConf rfl (by decide) 1 (by decide)
    (by decide) hundredGroup (by decide) [hundredBytes] hundredGroup_bytes 104 rfl (by decide)
    ⟨.fresh, false⟩ rfl rfl
  exact ⟨m, fun prepare => (hread prepare).1⟩

/-- The frame of 2002 bytes for `hundredGroup` is read back as one of 56317. -/
theorem isl_frame_misread :
    ¬ ∃ m : RteMbuf,
      (islConf.encapsulateFrame sampleEnv hundredGroup (mapModcodPayload 1) 104
          ⟨.fresh, false⟩).2.pool.ring = [(0, m)] ∧
        IslAgrees some (mapModcodPayload 1) hundredBytes m := by
  rintro ⟨m, hring, hagree⟩
  obtain ⟨m', hring', hread⟩ := @isl_frame_read sampleEnv islConf rfl (by decide)
    (mapModcodPayload 1) (by decide) hundredGroup (by decide) [hundredBytes] hundredGroup_bytes 104
    rfl (by decide) ⟨.fresh, false⟩ rfl rfl
  have hm : m = m' := by
    rw [hring'] at hring
    exact (Prod.mk.inj (List.cons.inj hring).1).2.symm
  obtain ⟨-, -, hsize, -⟩ := hread some ⟨0, 0, 0, 0, 0⟩ .fresh
  obtain ⟨-, hsize', -, -⟩ := hagree ⟨0, 0, 0, 0, 0⟩ .fresh
  rw [hm, hsize] at hsize'
  revert hsize'
  decide

end Fengtai.Send
