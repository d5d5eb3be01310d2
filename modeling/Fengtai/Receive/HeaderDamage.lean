import Fengtai.CrcDivision
import Fengtai.Library.Bursts
import Fengtai.Receive.Containment

set_option autoImplicit false

/-! A BB header in which a few bits in a row have been changed. -/

namespace Fengtai.Receive

open Library Library.Words Crc

/-- The bits of the BB header at `p`, in the order of the line. -/
def bbHeaderBits (mem : Memory) (p : ℕ) : List Bool :=
  (window mem p sizeofBbHeader).flatMap fun b => BitPolynomial.msbBits b.toBitVec

/-- The BB header at `p` is another one, by bits in a window of no more than eight. -/
def HeaderBurst (mem mem' : Memory) (p : ℕ) : Prop :=
  ∃ a x y z, bbHeaderBits mem p = a ++ x ++ z ∧ bbHeaderBits mem' p = a ++ y ++ z ∧ x ≠ y ∧
    x.length = y.length ∧ x.length ≤ 8

def crc8Divisor : BitVec 8 := mcsCrc8Poly.setWidth 8

lemma mcsGetCrc8_eq (data : List UInt8) (b : UInt8) :
    mcsGetCrc8 data = b ↔ BitPolynomial.modulus crc8Divisor ∣
      BitPolynomial.bitPoly ((data ++ [b]).flatMap fun b => BitPolynomial.msbBits b.toBitVec) := by
  have hmap : (data ++ [b]).flatMap (fun b => BitPolynomial.msbBits b.toBitVec) =
      (data.map UInt8.toBitVec ++ [b.toBitVec]).flatMap BitPolynomial.msbBits := by
    simp [List.flatMap_map]
  rw [hmap, ← BitPolynomial.foldl_eq_iff, List.foldl_map, mcsGetCrc8, funext₂ fun _ _ => mcsInitCrc8Table_eq _ _]
  constructor
  · rintro rfl
    rfl
  · exact fun h => UInt8.toBitVec_inj.mp h

lemma identifyGs_crc {mem : Memory} {p : ℕ} (h : identifyGs mem p = true) :
    BitPolynomial.modulus crc8Divisor ∣ BitPolynomial.bitPoly (bbHeaderBits mem p) := by
  rw [identifyGs, Bool.and_eq_true, beq_iff_eq] at h
  have hwindow : window mem p sizeofBbHeader = window mem p (sizeofBbHeader - 1) ++ [mem (p + 9)] := by
    simp [sizeofBbHeader, window, List.range_succ]
  rw [bbHeaderBits, hwindow]
  exact (mcsGetCrc8_eq _ _).mp h.1

lemma HeaderBurst.refused {mem mem' : Memory} {p : ℕ} (h : HeaderBurst mem mem' p)
    (hgs : identifyGs mem p = true) : identifyGs mem' p = false := by
  obtain ⟨a, x, y, z, hmem, hmem', hne, hlen, h8⟩ := h
  by_contra hpass
  rw [Bool.not_eq_false] at hpass
  have hx := identifyGs_crc hgs
  have hy := identifyGs_crc hpass
  rw [hmem] at hx
  rw [hmem'] at hy
  exact hne (BitPolynomial.dvd_burst crc8Divisor (by decide) hlen h8 hx hy)

structure DamagedHeader (mem mem' : Memory) : Prop where
  front : ∀ i, i < 56 → mem' i = mem i
  burst : HeaderBurst mem mem' 56

lemma DamagedHeader.load {mem mem' : Memory} (h : DamagedHeader mem mem') {i : ℕ} (hi : i + 1 < 56) :
    load16 mem' i = load16 mem i := by
  rw [load16, load16, h.front i (by omega), h.front (i + 1) hi]

section Dispatch

variable {m m' : RteMbuf} {para : FrameParam} {pool : Pool}

lemma DamagedHeader.dropped (h : DamagedHeader m.data m'.data) (env : RecvEnv)
    (hether : bswap16 (load16 m.data 12) = 0x9101)
    (hmsg : (m.data 17).toNat = enumFwdTxFwdData ∨ (m.data 17).toNat = enumFwdRxFwdData)
    (hgs : identifyGs m.data 56 = true) (queueId : ℕ) (now : ℕ → ℕ) (para : FrameParam) (r : Receiver) :
    dispatchDecapPkt env m' queueId now para r = some { r with pool := r.pool.free m'.addr } := by
  have hether' : bswap16 (load16 m'.data 12) = 0x9101 := by rw [h.load (by norm_num), hether]
  have hmsg' : (m'.data 17).toNat = enumFwdTxFwdData ∨ (m'.data 17).toNat = enumFwdRxFwdData := by
    rw [h.front 17 (by norm_num)]
    exact hmsg
  have hrefused : identifyGs m'.data (sizeofL2L1MsgHeader + sizeofL2L1Header) = false := h.burst.refused hgs
  simp only [dispatchDecapPkt, processFrameHeader, if_pos hether', if_pos hmsg', processFwdData, hrefused,
    Bool.false_eq_true, if_false, true_or, if_true]

/-- A frame of forward data that would be taken is given up when up to eight bits in a row of its BB
header are wrong, in whatever state the receiver is: its buffer is freed, and that is all. -/
theorem damaged_header_dropped (env : RecvEnv) (hret : (processFrameHeader m para pool).ret = 0)
    (htype : (processFrameHeader m para pool).para.packType = enumFwdTxFwdData ∨
      (processFrameHeader m para pool).para.packType = enumFwdRxFwdData)
    (h : DamagedHeader m.data m'.data) (queueId : ℕ) (now : ℕ → ℕ) (para' : FrameParam) (r : Receiver) :
    dispatchDecapPkt env m' queueId now para' r = some { r with pool := r.pool.free m'.addr } := by
  obtain ⟨hether, hmsg, hgs⟩ := processFrameHeader_forward hret htype
  exact h.dropped env hether hmsg hgs queueId now para' r

end Dispatch

/-- The frame of 90 bytes with the last bit of its data field length wrong. -/
theorem damaged_header_dropped_ninety :
    dispatchDecapPkt sampleRecvEnv { sampleFrame 90 with data := Function.update (sampleFrame 90).data 61 0xC1 } 0
        (fun _ => 0) ⟨0, 0, 0, 0, 0⟩ .initial =
      some { Receiver.initial with pool := Receiver.initial.pool.free (.received 0) } := by
  have hret : (processFrameHeader (sampleFrame 90) ⟨0, 0, 0, 0, 0⟩ Receiver.initial.pool).ret = 0 := by
    decide +kernel
  have htype : (processFrameHeader (sampleFrame 90) ⟨0, 0, 0, 0, 0⟩ Receiver.initial.pool).para.packType =
      enumFwdTxFwdData := by decide +kernel
  refine damaged_header_dropped sampleRecvEnv hret (.inl htype) ⟨fun i hi => ?_, ?_⟩ 0 (fun _ => 0) _ _
  · exact Function.update_of_ne (by omega) _ _
  · refine ⟨List.replicate 40 false, BitPolynomial.msbBits (0xC0 : BitVec 8),
      BitPolynomial.msbBits (0xC1 : BitVec 8),
      List.replicate 24 false ++ BitPolynomial.msbBits (0x9C : BitVec 8), ?_, ?_, ?_, rfl, le_rfl⟩
    · decide +kernel
    · decide +kernel
    · decide

end Fengtai.Receive
