import Fengtai.Receive.Decapsulate

set_option autoImplicit false

/-! What the receiver reads of a frame, and that its loop over the packets ends. -/

namespace Fengtai.Receive

open Library.Words

def Reads.Below (len : ℕ) (rs : Reads) : Prop := ∀ x ∈ rs, x.1 + x.2 ≤ len

namespace Reads

variable {len : ℕ}

@[simp] lemma below_nil : Below len [] := by simp [Below]

@[simp] lemma below_singleton (x : ℕ × ℕ) : Below len [x] ↔ x.1 + x.2 ≤ len := by simp [Below]

@[simp] lemma below_append (rs rs' : Reads) : Below len (rs ++ rs') ↔ Below len rs ∧ Below len rs' :=
  List.forall_mem_append

lemma Below.mono {len' : ℕ} {rs : Reads} (h : Below len rs) (hle : len ≤ len') : Below len' rs :=
  fun x hx => le_trans (h x hx) hle

end Reads

open Reads

def ExtWalk.chain (w : ExtWalk) : ℕ := (w.reads.map Prod.snd).sum

inductive GseWalk.Visits (env : RecvEnv) (mem : Memory) (port : ℕ) (now : ℕ → ℕ) (para : FrameParam) :
    GseWalk → GseWalk → Prop
  | here (w : GseWalk) : Visits env mem port now para w w
  | next {w w' : GseWalk} (halive : (w.turn env mem port now).receiver.isSome)
      (hon : (w.turn env mem port now).goesOn para)
      (h : Visits env mem port now para (w.turn env mem port now) w') :
      Visits env mem port now para w w'

section Packet

variable {mem : Memory} {len pGSE timestampSeq : ℕ} {p : Parsed}

lemma getSinglePdu_reads (env : Dpdk) {ptr n protocolType : ℕ} (pool : Pool) (h : ptr + n ≤ len)
    (hctrl : protocolType = protocolCtrl → ptr + 2 ≤ len) :
    Below len (getSinglePdu env mem ptr n protocolType pool).2 := by
  simp only [getSinglePdu]
  by_cases hc : protocolType = protocolCtrl
  · rw [if_pos hc, below_singleton]
    have hle := hctrl hc
    simp only
    omega
  · rw [if_neg hc]
    rcases pool.alloc env with ⟨_ | m, q⟩
    · exact below_nil
    · simp only
      split_ifs
      · exact below_nil
      · exact (below_singleton _).mpr h

lemma Parsed.fragmentReads_below {now : ℕ} {c : FragCell} (kind : FragType)
    (h : p.ptrDatafield + p.datafieldLength ≤ len)
    (hctrl : kind = .start → p.ext.nextType = protocolCtrl → p.ptrDatafield + 2 ≤ len) :
    Below len (p.fragmentReads mem now c kind) := by
  have hcopy : Below len [(p.ptrDatafield, p.datafieldLength)] := (below_singleton _).mpr h
  cases kind with
  | start =>
    simp only [Parsed.fragmentReads]
    split_ifs with hseq hc
    · exact below_nil
    · have hle := hctrl rfl hc
      rw [← List.singleton_append, below_append]
      exact ⟨hcopy, (below_singleton _).mpr (by simp only; omega)⟩
    · exact hcopy
  | middle =>
    simp only [Parsed.fragmentReads]
    split_ifs <;> first | exact below_nil | exact hcopy
  | last =>
    simp only [Parsed.fragmentReads]
    split_ifs <;> first | exact below_nil | exact hcopy

end Packet

namespace GseWalk

variable {env : RecvEnv} {mem : Memory} {port : ℕ} {now : ℕ → ℕ} {para : FrameParam} {len : ℕ}
  {w w' : GseWalk}

lemma turn_places (env : RecvEnv) (mem : Memory) (port : ℕ) (now : ℕ → ℕ) {r : Receiver}
    (hr : w.receiver = some r) :
    (w.turn env mem port now).pGSE =
        w.pGSE + (2 + (decapsulateGseHeader mem w.pGSE).1.gseLength) ∧
      (w.turn env mem port now).handleTotalSize =
        u32 (w.handleTotalSize + (2 + (decapsulateGseHeader mem w.pGSE).1.gseLength)) := by
  simp only [turn, hr]
  split_ifs
  · split <;> exact ⟨Nat.add_assoc .., congrArg u32 (Nat.add_assoc ..)⟩
  · exact ⟨Nat.add_assoc .., congrArg u32 (Nat.add_assoc ..)⟩

lemma receiver_of_turn (halive : (w.turn env mem port now).receiver.isSome) :
    ∃ r, w.receiver = some r := by
  cases hr : w.receiver with
  | none =>
    simp only [turn, hr] at halive
    cases halive
  | some r => exact ⟨r, rfl⟩

lemma gseLength_lt (mem : Memory) (pGSE : ℕ) : (decapsulateGseHeader mem pGSE).1.gseLength < 4096 :=
  Nat.mod_lt _ (by norm_num)

def position (para : FrameParam) (w : GseWalk) : ℕ :=
  u32 (gseHeaderSize para.packType + w.handleTotalSize + para.paddingBytes)

lemma run_isSome (hsize : para.frameSize < 65536) {k : ℕ} (hlow : w.position para < para.frameSize)
    (hk : para.frameSize ≤ w.position para + 2 * k) :
    (GseWalk.run env mem port now para k w).isSome := by
  induction k generalizing w with
  | zero => omega
  | succ k ih =>
    simp only [GseWalk.run]
    split_ifs with hon
    · obtain ⟨halive, hgo⟩ := hon
      have hlt := gseLength_lt mem w.pGSE
      have hpos : (w.turn env mem port now).position para =
          w.position para + 2 + (decapsulateGseHeader mem w.pGSE).1.gseLength := by
        obtain ⟨r, hr⟩ := receiver_of_turn halive
        obtain ⟨-, htotal⟩ := turn_places env mem port now hr
        rw [position, htotal]
        simp only [position, u32] at hlow ⊢
        omega
      have hgo' : (w.turn env mem port now).position para < para.frameSize := of_decide_eq_true hgo
      exact ih hgo' (by omega)
    · rfl

lemma walk_isSome (hsize : para.frameSize < 65536) (r : Receiver) :
    (walkGse env mem port now para r).isSome := by
  change (GseWalk.run env mem port now para (32768 + 1) _).isSome
  rw [GseWalk.run]
  split_ifs with hon
  · have hgo : position para _ < para.frameSize := of_decide_eq_true hon.2
    exact run_isSome hsize hgo (by omega)
  · rfl

end GseWalk

lemma processFrameHeader_accepted {m : RteMbuf} {para : FrameParam} {pool : Pool}
    (hret : (processFrameHeader m para pool).ret = 0)
    (htype : (processFrameHeader m para pool).para.packType = enumFwdTxFwdData ∨
      (processFrameHeader m para pool).para.packType = enumFwdRxFwdData) :
    Below 66 (processFrameHeader m para pool).reads ∧
      (processFrameHeader m para pool).para.frameSize < 65536 ∧
      (processFrameHeader m para pool).mbuf = m ∧
      (processFrameHeader m para pool).pool = pool := by
  obtain ⟨hether, hmsg, hgs⟩ := processFrameHeader_forward hret htype
  rw [processFrameHeader_of_forward hether hmsg]
  have hgs' : identifyGs m.data (sizeofL2L1MsgHeader + sizeofL2L1Header) = true := hgs
  simp only [processFwdData]
  rw [if_pos hgs']
  refine ⟨?_, bswap16_lt _, rfl, rfl⟩
  simp [Reads.Below, sizeofL2L1MsgHeader, sizeofL2L1Header, sizeofBbHeader]

def sampleFrame (dataLen : ℕ) : RteMbuf :=
  ⟨.received 0, overwrite (fun _ => 0) (List.replicate 12 0 ++ [0x91, 0x01, 0, 0, 0, 6] ++
    List.replicate 16 0 ++ be16 1000 ++ List.replicate 20 0 ++ [0, 0, 0, 0] ++ be16 192 ++
    [0, 0, 0, 0x9C] ++ [0xE0, 0x16, 0x08, 0x00]), dataLen, 0⟩

def sampleRecvEnv : RecvEnv where
  allocates := fun _ => true
  room := fun _ _ => 0
  enqueues := fun _ => true
  localAirMac := List.replicate 6 0

end Fengtai.Receive
