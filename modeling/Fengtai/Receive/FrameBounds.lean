import Fengtai.Receive.ConcatSafety
import Fengtai.Receive.Coverage

set_option autoImplicit false

/-! How far into a frame the receiver reads: `process_frame_header` and `decapsulate_gse` never
look at the length of the buffer, and stay in it when it holds what the frame announces. -/

namespace Fengtai.Receive

open Library.Words Reads

section Headers

variable (mem : Memory) (pGSE : ℕ)

def extSize : ℕ :=
  let v := (decapsulateGseHeader mem pGSE).2
  if regularExtHeaderType v.protocolType then extHeaderSize v.protocolType else 0

def innerType : ℕ :=
  let v := (decapsulateGseHeader mem pGSE).2
  if regularExtHeaderType v.protocolType then
    typeBehind mem (pGSE + 2 + v.size.total) v.protocolType
  else v.protocolType

def dataAt : ℕ := pGSE + 2 + (decapsulateGseHeader mem pGSE).2.size.total + extSize mem pGSE

/-- A packet that is in order within its own `GSE_Length`: at most one extension header, all headers
within the length, concatenated PDUs that fill the rest of it, and a control message of at least
two bytes. -/
structure Tidy : Prop where
  single : regularExtHeaderType (innerType mem pGSE) = false
  headers : dataAt mem pGSE ≤ nextGse mem pGSE
  concat : (decapsulateGseHeader mem pGSE).1.startIndicator = true →
    (decapsulateGseHeader mem pGSE).1.endIndicator = true →
    (decapsulateGseHeader mem pGSE).2.protocolType = pduConcat →
    Fills mem (dataAt mem pGSE) (nextGse mem pGSE - dataAt mem pGSE)
  ctrl : (decapsulateGseHeader mem pGSE).1.startIndicator = true →
    innerType mem pGSE = protocolCtrl → dataAt mem pGSE + 2 ≤ nextGse mem pGSE

end Headers

section Packet

variable {mem : Memory} {pGSE timestampSeq : ℕ}

lemma Tidy.walk (h : Tidy mem pGSE) (timestampSeq : ℕ) :
    ∃ w, walkExtHeaders mem pGSE (decapsulateGseHeader mem pGSE).2 timestampSeq = some w ∧
      pGSE + w.offset = dataAt mem pGSE ∧ w.varHeaderSize = extSize mem pGSE ∧
      w.nextType = innerType mem pGSE ∧ Below (dataAt mem pGSE) w.reads ∧
      (w.protocolType = pduConcat → (decapsulateGseHeader mem pGSE).2.protocolType = pduConcat) := by
  have htotal := decapsulateGseHeader_size_le mem pGSE
  have hsingle := h.single
  set start : ExtWalk := ⟨2 + (decapsulateGseHeader mem pGSE).2.size.total, 0,
    (decapsulateGseHeader mem pGSE).2.protocolType, 0, timestampSeq, []⟩ with hstart
  have hwalk : walkExtHeaders mem pGSE (decapsulateGseHeader mem pGSE).2 timestampSeq =
      ExtWalk.run mem pGSE (32767 + 1) start := rfl
  rw [hwalk]
  cases hregular : regularExtHeaderType (decapsulateGseHeader mem pGSE).2.protocolType with
  | false =>
    refine ⟨start, ExtWalk.run_stop hregular, ?_, ?_, ?_, below_nil, fun hc => ?_⟩
    · simp [dataAt, extSize, hregular, hstart, Nat.add_assoc]
    · simp [extSize, hregular, hstart]
    · simp [innerType, hregular, hstart]
    · exact absurd hc (by simp only [hstart]; decide)
  | true =>
    have hsize := extHeaderSize_bounds hregular
    obtain ⟨hoffset, hvar, hreads, -⟩ := ExtWalk.turn_places (w := start) mem pGSE hregular
    have hnext := ExtWalk.turn_nextType (w := start) mem pGSE hregular
    have hoff : start.offset = 2 + (decapsulateGseHeader mem pGSE).2.size.total := rfl
    have htype : start.nextType = (decapsulateGseHeader mem pGSE).2.protocolType := rfl
    rw [hoff, htype, u16_of_lt (by omega)] at hoffset
    rw [htype] at hvar
    rw [hoff, htype, ← Nat.add_assoc] at hreads hnext
    have hinner : (start.turn mem pGSE).nextType = innerType mem pGSE := by
      simp [hnext, innerType, hregular]
    have hext : extSize mem pGSE = extHeaderSize (decapsulateGseHeader mem pGSE).2.protocolType := by
      simp [extSize, hregular]
    refine ⟨start.turn mem pGSE, ?_, ?_, by rw [hvar, hext], hinner, ?_, id⟩
    · rw [ExtWalk.run_turn hregular]
      exact ExtWalk.run_stop (by rw [hinner, hsingle])
    · rw [dataAt, hext, hoffset]
      omega
    · rw [hreads, dataAt, hext]
      exact (below_singleton _).mpr le_rfl

lemma Tidy.parsed (h : Tidy mem pGSE) (timestampSeq : ℕ) :
    ∃ p, parsePacket mem pGSE timestampSeq = some p ∧
      p.fixedHeader = (decapsulateGseHeader mem pGSE).1 ∧ p.ptrDatafield = dataAt mem pGSE ∧
      p.datafieldLength = nextGse mem pGSE - dataAt mem pGSE ∧ p.ext.nextType = innerType mem pGSE ∧
      Below (dataAt mem pGSE) p.ext.reads ∧
      (p.ext.protocolType = pduConcat →
        (decapsulateGseHeader mem pGSE).2.protocolType = pduConcat) := by
  obtain ⟨w, hwalk, hoffset, hvar, hnext, hreads, hconcat⟩ := h.walk timestampSeq
  have htotal := decapsulateGseHeader_size_le mem pGSE
  have hlen := GseWalk.gseLength_lt mem pGSE
  have hheaders := h.headers
  rw [nextGse, dataAt] at hheaders
  refine ⟨parsedOf mem pGSE w, by rw [parsePacket_eq, hwalk]; rfl, rfl, hoffset, ?_, hnext, hreads,
    hconcat⟩
  simp only [parsedOf, hvar]
  rw [u16_of_lt (by omega), sub16_of_le (by omega) (by omega), nextGse, dataAt]
  omega

lemma Parsed.startIndicator_of_fragType {p : Parsed}
    (h : p.fragType = none ∨ p.fragType = some .start) : p.fixedHeader.startIndicator = true := by
  rw [Parsed.fragType] at h
  cases hs : p.fixedHeader.startIndicator with
  | true => rfl
  | false => cases he : p.fixedHeader.endIndicator <;> simp [hs, he] at h

lemma Parsed.indicators_of_whole {p : Parsed} (h : p.fragType = none) :
    p.fixedHeader.startIndicator = true ∧ p.fixedHeader.endIndicator = true := by
  rw [Parsed.fragType] at h
  cases hs : p.fixedHeader.startIndicator <;> cases he : p.fixedHeader.endIndicator <;>
    simp [hs, he] at h ⊢

lemma Tidy.reads (h : Tidy mem pGSE) (env : RecvEnv) (port now timestampSeq : ℕ) (r : Receiver) :
    ∃ p, parsePacket mem pGSE timestampSeq = some p ∧
      Below (nextGse mem pGSE) (p.ext.reads ++ (p.handle env mem port now r).reads) := by
  obtain ⟨p, hp, hfixed, hptr, hlen, hnext, hreads, hconcat⟩ := h.parsed timestampSeq
  have hheaders := h.headers
  have hend : p.ptrDatafield + p.datafieldLength = nextGse mem pGSE := by
    rw [hptr, hlen]
    omega
  have hctrl (hkind : p.fragType = none ∨ p.fragType = some .start)
      (hc : p.ext.nextType = protocolCtrl) : p.ptrDatafield + 2 ≤ nextGse mem pGSE := by
    rw [hptr]
    exact h.ctrl (hfixed ▸ Parsed.startIndicator_of_fragType hkind) (hnext ▸ hc)
  refine ⟨p, hp, ?_⟩
  rw [below_append]
  refine ⟨hreads.mono hheaders, ?_⟩
  simp only [Parsed.handle]
  cases hk : p.fragType with
  | none =>
    split_ifs with hc
    · obtain ⟨hs, he⟩ := Parsed.indicators_of_whole hk
      have hfills := h.concat (hfixed ▸ hs) (hfixed ▸ he) (hconcat hc)
      have hsmall := GseWalk.gseLength_lt mem pGSE
      rw [← hlen, ← hptr] at hfills
      obtain ⟨c, hrun, hin⟩ := hfills.run (k := 32767) (c := ⟨p.ptrDatafield, 0, [], []⟩) rfl
        (Nat.zero_add _) (by rw [hlen, nextGse, dataAt]; omega) (by rw [hlen, nextGse, dataAt]; omega)
      have hget : getConcatPdu mem p.ptrDatafield p.datafieldLength = some c := hrun
      rw [hget]
      intro x hx
      rcases hin x hx with hx | hx
      · cases hx
      · exact hx.2.trans hend.le
    · exact getSinglePdu_reads env.toDpdk r.pool hend.le (hctrl (.inl hk))
  | some kind =>
    exact Parsed.fragmentReads_below kind hend.le fun hstart => hctrl (.inr (hk.trans (congrArg _ hstart)))

end Packet

namespace GseWalk

variable {env : RecvEnv} {mem : Memory} {port : ℕ} {now : ℕ → ℕ} {para : FrameParam} {len : ℕ}
  {w w' : GseWalk}

/-- The packet at hand is in order; of one that is passed over only the header counts. -/
structure InOrder (env : RecvEnv) (mem : Memory) (w : GseWalk) : Prop where
  header : w.pGSE + 2 + (decapsulateGseHeader mem w.pGSE).2.size.total ≤ nextGse mem w.pGSE
  accepted : ∀ r, w.receiver = some r → (w.filter env mem r).1 = 1 → Tidy mem w.pGSE

lemma turn_below (h : w.InOrder env mem) (hend : nextGse mem w.pGSE ≤ len) (hreads : Below len w.reads) :
    Below len (w.turn env mem port now).reads := by
  have hheader := h.header
  simp only [turn]
  cases hr : w.receiver with
  | none => exact hreads
  | some r =>
    have hpassed : Below len (w.reads ++ [(w.pGSE, sizeofGseFixedHeader +
        (decapsulateGseHeader mem w.pGSE).2.size.total)]) := by
      rw [below_append, below_singleton]
      refine ⟨hreads, ?_⟩
      simp only [sizeofGseFixedHeader]
      omega
    simp only
    split_ifs with hmatch
    · obtain ⟨p, hp, hbelow⟩ := (h.accepted r hr hmatch).reads env port (now w.pGSE) w.timestampSeq
        { r with previousMacInfo := (w.filter env mem r).2 }
      simp only [hp]
      rw [List.append_assoc, below_append]
      exact ⟨hpassed, hbelow.mono hend⟩
    · exact hpassed

lemma run_below {k : ℕ} (hends : ∀ v, Visits env mem port now para w v → nextGse mem v.pGSE ≤ len)
    (horder : ∀ v, Visits env mem port now para w v → v.InOrder env mem)
    (hrun : GseWalk.run env mem port now para k w = some w') (hreads : Below len w.reads) :
    Below len w'.reads := by
  induction k generalizing w with
  | zero => cases hrun
  | succ k ih =>
    have hturn : Below len (w.turn env mem port now).reads :=
      turn_below (horder w (.here w)) (hends w (.here w)) hreads
    simp only [GseWalk.run] at hrun
    split_ifs at hrun with hon
    · exact ih (fun v hv => hends v (.next hon.1 hon.2 hv))
        (fun v hv => horder v (.next hon.1 hon.2 hv)) hrun hturn
    · obtain rfl := Option.some.inj hrun
      exact hturn

lemma Visits.starts {base dataBytes : ℕ} {v : GseWalk} (hv : Visits env mem port now para w v)
    (hp : GsePlace.Announces dataBytes para) (halive : w.receiver.isSome)
    (h : w.place.At base dataBytes) :
    ∃ i, v.pGSE = (nextGse mem)^[i] w.pGSE ∧ (i = 0 ∨ v.pGSE < base + dataBytes) := by
  induction hv with
  | here => exact ⟨0, rfl, .inl rfl⟩
  | @next w v hnext hon _ ih =>
    obtain ⟨hplace, -, hlt⟩ := h.turn hp.small mem
    have hturn := place_turn env mem port now halive
    rw [← hturn] at hplace hlt
    rw [← goesOn_place hp.frameSize] at hon
    have hdata := (hp.goesOn hlt).1 hon
    obtain ⟨i, hv, hstarts⟩ := ih hnext ⟨hplace, hdata.le⟩
    have hpGSE : (w.turn env mem port now).pGSE = nextGse mem w.pGSE := congrArg GsePlace.pGSE hturn
    refine ⟨i + 1, by rw [hv, hpGSE, Function.iterate_succ_apply], .inr ?_⟩
    rcases hstarts with rfl | hlow
    · change (w.turn env mem port now).pGSE = _ at hplace
      rw [hv, Function.iterate_zero_apply, hplace]
      omega
    · exact hlow

end GseWalk

/-- What `process_frame_header` makes of the frame. -/
def headerOf (m : RteMbuf) : HeaderResult := processFrameHeader m ⟨0, 0, 0, 0, 0⟩ .fresh

def frameReads (m : RteMbuf) : Option Reads :=
  (walkGse sampleRecvEnv m.data 0 (fun _ => 0) (headerOf m).para .initial).map fun w =>
    (headerOf m).reads ++ w.reads

/-- A START with a FRAG_SEQUENCE header, a PDU for another address, and one for all. -/
def threePackets : List UInt8 :=
  be16 (GseFixedHeader.word ⟨14, .broadcast, false, true⟩) ++ [7] ++ be16 20 ++ be16 fragSequence ++
    be16 72 ++ be16 protocolIpv4 ++ List.replicate 5 69 ++
  be16 (GseFixedHeader.word ⟨18, .sixBytes, true, true⟩) ++ be16 protocolIpv4 ++
    List.replicate 6 9 ++ List.replicate 10 69 ++
  be16 (GseFixedHeader.word ⟨22, .broadcast, true, true⟩) ++ be16 protocolIpv4 ++ List.replicate 20 69

def threeFrame : RteMbuf := forwardFrame 1000 60 (overwrite (fun _ => 0) threePackets) 126

lemma threeFrame_tidy : ∀ pGSE ∈ [66, 82, 102], Tidy threeFrame.data pGSE := by
  have hsingle : ∀ pGSE ∈ [66, 82, 102],
      regularExtHeaderType (innerType threeFrame.data pGSE) = false := by decide +kernel
  have hheaders : ∀ pGSE ∈ [66, 82, 102],
      dataAt threeFrame.data pGSE ≤ nextGse threeFrame.data pGSE := by decide +kernel
  have hconcat : ∀ pGSE ∈ [66, 82, 102],
      (decapsulateGseHeader threeFrame.data pGSE).2.protocolType ≠ pduConcat := by decide +kernel
  have hctrl : ∀ pGSE ∈ [66, 82, 102], innerType threeFrame.data pGSE ≠ protocolCtrl := by
    decide +kernel
  exact fun pGSE hp => ⟨hsingle pGSE hp, hheaders pGSE hp, fun _ _ hc => absurd hc (hconcat pGSE hp),
    fun _ hc => absurd hc (hctrl pGSE hp)⟩

def Leaves (m : RteMbuf) : Prop :=
  (headerOf m).ret = 0 ∧ (headerOf m).para.packType = enumFwdTxFwdData ∧
    ∃ rs, frameReads m = some rs ∧ ¬ Below m.dataLen rs

lemma Leaves.of_read {m : RteMbuf} {rs : Reads} (x : ℕ × ℕ) (hret : (headerOf m).ret = 0)
    (htype : (headerOf m).para.packType = enumFwdTxFwdData) (hreads : frameReads m = some rs)
    (hx : x ∈ rs) (hout : m.dataLen < x.1 + x.2) : Leaves m :=
  ⟨hret, htype, rs, hreads, fun hbelow => absurd (hbelow x hx) (not_le.mpr hout)⟩

end Fengtai.Receive
