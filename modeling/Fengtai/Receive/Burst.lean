import Fengtai.CrcDivision
import Fengtai.Receive.Bounds
import Fengtai.Receive.Timeout

set_option autoImplicit false

/-! What `finish_reassemble_pdu` makes of a PDU with a short burst of wrong bits. -/

namespace Fengtai.Receive

open Library.Words Crc

structure Burst (x y : List UInt8) : Prop where
  length_eq : x.length = y.length
  length_le : x.length ≤ 4
  ne : x ≠ y

lemma Burst.crc_ne {x y : List UInt8} (h : Burst x y) (a z : List UInt8) :
    crc32LookupTable (a ++ x ++ z) ≠ crc32LookupTable (a ++ y ++ z) :=
  fun hcrc => h.ne (crc32_burst a z h.length_eq h.length_le hcrc)

namespace FragInfo

variable {f : FragInfo}

def slotBytes (f : FragInfo) (i : ℕ) : List UInt8 :=
  if h : i < fragMaxNum then (f.dataAddr ⟨i, h⟩).take (f.fragLen ⟨i, h⟩) else []

def recordedFrom (f : FragInfo) (i k : ℕ) : List UInt8 := (List.range' i k).flatMap f.slotBytes

def recorded (f : FragInfo) : List UInt8 := f.recordedFrom 0 f.fragRecvNum

structure Tabled (f : FragInfo) : Prop where
  lens : ∀ i, f.fragLen i ≤ (f.dataAddr i).length
  pduType : f.pduType = ipPacket ∨ f.pduType = ctrlmsgFwd ∨ f.pduType = ctrlmsgRtn
  maxSeq : f.maxFragSeq < fragMaxNum

/-- The burst is found: the buffer is freed, and that is all. -/
def Detects (env : Dpdk) (f : FragInfo) (p : Pool) : Prop :=
  ∃ m d, f.pduNode.ptrPdu = some m ∧ finishReassemblePdu env f p = some d ∧ d.ret = -2 ∧
    d.pool = p.free m.addr

/-- The START has got its buffer, the count of bytes is not beyond it, and the four bytes of the
CRC are in one fragment. -/
def Counts (f : FragInfo) : Prop :=
  (∃ m, f.pduNode.ptrPdu = some m ∧ f.pduRecvLen ≤ m.dataLen) ∧ 4 ≤ f.lenAt (f.fragRecvNum - 1)

lemma recordedFrom_succ (f : FragInfo) (i k : ℕ) :
    f.recordedFrom i (k + 1) = f.slotBytes i ++ f.recordedFrom (i + 1) k := by
  rw [recordedFrom, List.range'_succ, List.flatMap_cons]
  rfl

lemma recordedFrom_one (f : FragInfo) (i : ℕ) : f.recordedFrom i 1 = f.slotBytes i := by
  rw [recordedFrom_succ, recordedFrom, List.range'_zero, List.flatMap_nil, List.append_nil]

lemma slotBytes_length (h : f.Tabled) (i : ℕ) : (f.slotBytes i).length = f.lenAt i := by
  rw [slotBytes, lenAt]
  split
  next hi =>
    rw [List.length_take]
    exact min_eq_left (h.lens _)
  next => rfl

lemma lenAt_le_recordedFrom (h : f.Tabled) (i k : ℕ) :
    f.lenAt (i + k) ≤ (f.recordedFrom i (k + 1)).length := by
  rw [recordedFrom, List.range'_concat, List.flatMap_append, List.length_append, Nat.one_mul,
    List.flatMap_singleton, slotBytes_length h]
  exact Nat.le_add_left _ _

lemma copyFrom_none (k i : ℕ) (hk : i + (k + 1) ≤ fragMaxNum) (htop : f.lenAt (i + k) < 4) :
    f.copyFrom i (k + 1) = none := by
  induction k generalizing i with
  | zero =>
    have hi : i < fragMaxNum := by omega
    rw [Nat.add_zero, lenAt_of_lt hi] at htop
    simp [copyFrom, hi, htop]
  | succ k ih =>
    have hi : i < fragMaxNum := by omega
    have hnext := ih (i + 1) (by omega) (by rwa [Nat.add_right_comm])
    rw [copyFrom, dif_pos hi]
    simp [hnext]

lemma copyFrom_eq (h : f.Tabled) (k i : ℕ) (hk : i + (k + 1) ≤ fragMaxNum)
    (htop : 4 ≤ f.lenAt (i + k)) {body crc : List UInt8} (hcrc : crc.length = 4)
    (hrec : f.recordedFrom i (k + 1) = body ++ crc) :
    f.copyFrom i (k + 1) = some (body, BitVec.ofNat 32 (beValue crc)) := by
  induction k generalizing i body with
  | zero =>
    have hi : i < fragMaxNum := by omega
    rw [Nat.add_zero, lenAt_of_lt hi] at htop
    rw [recordedFrom_one, slotBytes, dif_pos hi] at hrec
    have hlen : f.fragLen ⟨i, hi⟩ = body.length + 4 := by
      rw [← hcrc, ← List.length_append, ← hrec, List.length_take, min_eq_left (h.lens _)]
    have hbody : (f.dataAddr ⟨i, hi⟩).take (f.fragLen ⟨i, hi⟩ - 4) = body := by
      have hprefix := congrArg (List.take body.length) hrec
      rw [List.take_take, List.take_left, min_eq_left (by omega)] at hprefix
      rwa [hlen, Nat.add_sub_cancel]
    have hlast : ((f.dataAddr ⟨i, hi⟩).drop (f.fragLen ⟨i, hi⟩ - 4)).take 4 = crc := by
      have hsuffix := congrArg (List.drop body.length) hrec
      rw [List.drop_take, List.drop_left, hlen, Nat.add_sub_cancel_left] at hsuffix
      rwa [hlen, Nat.add_sub_cancel]
    rw [copyFrom, dif_pos hi]
    simp only [if_true, not_lt.2 htop, if_false, hbody, hlast]
  | succ k ih =>
    have hi : i < fragMaxNum := by omega
    have htop : 4 ≤ f.lenAt (i + 1 + k) := by rwa [Nat.add_right_comm]
    have hrest := lenAt_le_recordedFrom h (i + 1) k
    rw [recordedFrom_succ] at hrec
    obtain ⟨rest, hbody, hrec⟩ : ∃ rest, body = f.slotBytes i ++ rest ∧
        f.recordedFrom (i + 1) (k + 1) = rest ++ crc := by
      rcases List.append_eq_append_iff.1 hrec with hsplit | ⟨front, hslot, hcrc'⟩
      · exact hsplit
      · have hlength := congrArg List.length hcrc'
        rw [List.length_append] at hlength
        have hfront : front = [] := List.eq_nil_of_length_eq_zero (by omega)
        refine ⟨[], ?_, ?_⟩
        · rw [hslot, hfront, List.append_nil, List.append_nil]
        · rw [hcrc', hfront, List.nil_append, List.nil_append]
    have hnext := ih (i + 1) (by omega) htop hrec
    rw [copyFrom, dif_pos hi]
    simp only [Nat.succ_ne_zero, if_false, hnext, Option.map_some, hbody, slotBytes, dif_pos hi]

lemma complete_within (h : f.Tabled) (hc : f.complete = true) :
    f.fragRecvNum = f.maxFragSeq + 1 ∧ f.fragRecvNum ≤ fragMaxNum := by
  have hnum := complete_num hc
  have hmax := h.maxSeq
  omega

end FragInfo

section Finish

variable {env : Dpdk} {f : FragInfo} {p : Pool} {a x y z : List UInt8}

lemma burst_not_delivered (h : f.Tabled) (hc : f.complete = true) (hb : Burst x y)
    (hrec : f.recorded = a ++ y ++ z ++ crcBytes (a ++ x ++ z)) {d : Finished}
    (hd : finishReassemblePdu env f p = some d) :
    d.ret ≠ 0 ∧ d.pool = p.freeHeld f.pduNode.ptrPdu := by
  obtain ⟨hnum, hle⟩ := f.complete_within h hc
  obtain ⟨-, ⟨hptr, hret, hpool⟩ | ⟨m, hptr, ⟨hret, hpool⟩ | ⟨copied, crc, hcopy, -, hcrc, -⟩⟩⟩ :=
    finishReassemblePdu_cases hd
  · rw [hptr, hret, hpool]
    exact ⟨by decide, rfl⟩
  · rw [hptr, hpool]
    exact ⟨hret.ne, rfl⟩
  · rw [hnum] at hcopy hle
    rw [FragInfo.recorded, hnum] at hrec
    rcases Nat.lt_or_ge (f.lenAt (0 + f.maxFragSeq)) 4 with htop | htop
    · rw [FragInfo.copyFrom_none _ _ (by omega) htop] at hcopy
      cases hcopy
    · rw [FragInfo.copyFrom_eq h _ _ (by omega) htop (crcBytes_length _) hrec, Option.some.injEq,
        Prod.mk.injEq, beValue_crcBytes] at hcopy
      obtain ⟨rfl, rfl⟩ := hcopy
      exact absurd hcrc.symm (hb.crc_ne a z)

lemma burst_detected_iff (h : f.Tabled) (hc : f.complete = true) (hb : Burst x y)
    (hpdu : (a ++ x ++ z).length = f.pduNode.pduLength)
    (hrec : f.recorded = a ++ y ++ z ++ crcBytes (a ++ x ++ z)) :
    f.Detects env p ↔ f.Counts := by
  obtain ⟨hnum, hle⟩ := f.complete_within h hc
  have htype : ¬ (f.pduType ≠ ipPacket ∧ f.pduType ≠ ctrlmsgFwd ∧ f.pduType ≠ ctrlmsgRtn) := by
    have := h.pduType
    tauto
  rw [FragInfo.Detects, FragInfo.Counts, hnum, Nat.add_sub_cancel]
  rw [hnum] at hle
  rw [FragInfo.recorded, hnum] at hrec
  cases hptr : f.pduNode.ptrPdu with
  | none => simp
  | some m =>
    simp only [Option.some.injEq, exists_eq_left', exists_and_left]
    by_cases hsize : m.dataLen < f.pduRecvLen
    · have hfinish : finishReassemblePdu env f p = some ⟨-1, f.reset, p.free m.addr⟩ := by
        simp only [finishReassemblePdu, hptr, if_pos hsize]
      rw [hfinish]
      constructor
      · rintro ⟨d, hd, hret, -⟩
        obtain rfl := Option.some.inj hd
        exact absurd hret (by norm_num)
      · rintro ⟨hcount, -⟩
        omega
    rcases Nat.lt_or_ge (f.lenAt (0 + f.maxFragSeq)) 4 with htop | htop
    · have hcopy := FragInfo.copyFrom_none _ _ (by omega) htop
      have hfinish : finishReassemblePdu env f p = none := by
        simp only [finishReassemblePdu, hptr, if_neg hsize, htype, if_false, hnum, hcopy]
      rw [Nat.zero_add] at htop
      rw [hfinish]
      constructor
      · rintro ⟨d, hd, -⟩
        cases hd
      · rintro ⟨-, hcon⟩
        omega
    · have hcopy := FragInfo.copyFrom_eq h _ _ (by omega) htop (crcBytes_length _) hrec
      have hlength : (a ++ y ++ z).length = f.pduNode.pduLength := by
        rw [← hpdu]
        simp only [List.length_append, hb.length_eq]
      have hwrong := (hb.crc_ne a z).symm
      have hfinish : finishReassemblePdu env f p = some ⟨-2, f.reset, p.free m.addr⟩ := by
        simp only [finishReassemblePdu, hptr, if_neg hsize, htype, if_false, hnum, hcopy,
          beValue_crcBytes, if_pos hlength, if_pos hwrong]
      rw [Nat.zero_add] at htop
      exact iff_of_true ⟨_, hfinish, rfl, rfl⟩ ⟨not_lt.1 hsize, htop⟩

end Finish

namespace FragInfo.Tabled

variable {f g : FragInfo}

lemma of_reset (h : f.Tabled) : f.reset.Tabled where
  lens _ := Nat.zero_le _
  pduType := h.pduType
  maxSeq := Nat.zero_lt_succ 5

lemma of_settle (h : f.Tabled) (now : ℕ) (p : Pool) : (f.settle now p).info.Tabled := by
  obtain ⟨-, hs⟩ | ⟨-, hs⟩ | ⟨-, hs⟩ := f.settle_cases now p
  all_goals
    rw [hs]
    exact ⟨h.lens, h.pduType, h.maxSeq⟩

lemma of_store (h : f.Tabled) (s : Fin fragMaxNum) (fragID stamp : ℕ) (bytes : List UInt8) :
    (f.store s fragID stamp bytes).Tabled where
  lens i := by
    simp only [FragInfo.store, Function.update_apply]
    split_ifs
    · exact le_rfl
    · exact h.lens i
  pduType := h.pduType
  maxSeq := max_lt h.maxSeq s.isLt

lemma of_counters (h : f.Tabled) (s : Fin fragMaxNum) (isEnd : Bool) (fragLen : ℕ) :
    ((f.dropOld s).countLength isEnd fragLen).Tabled := by
  rw [FragInfo.dropOld, FragInfo.countLength]
  split_ifs
  all_goals exact ⟨h.lens, h.pduType, h.maxSeq⟩

lemma of_discard (h : f.Tabled) {stamp : ℕ} {p q : Pool}
    (hd : discardReceived stamp f p = (g, q)) : g.Tabled := by
  have hreset := h.of_reset
  simp only [discardReceived] at hd
  split_ifs at hd
  all_goals obtain ⟨rfl, -⟩ := Prod.mk.inj hd
  · exact hreset
  · exact ⟨hreset.lens, hreset.pduType, hreset.maxSeq⟩
  · exact h
  · exact h

lemma of_storeStart (h : f.Tabled) (fragID : ℕ) (a : Arrival) : (f.storeStart fragID a).Tabled := by
  have hstore := h.of_store 0 fragID a.timeStamp (window a.datafield 0 a.fragLen)
  refine ⟨hstore.lens, ?_, hstore.maxSeq⟩
  simp only [FragInfo.storeStart, startPduType]
  split_ifs
  · exact .inl rfl
  · exact .inr (.inl rfl)
  · exact .inr (.inr rfl)
  · exact h.pduType

lemma of_start (h : f.Tabled) {env : Dpdk} {fragID : ℕ} {a : Arrival} {p : Pool} {r : Received}
    (hr : f.start env fragID a p = some r) : r.info.Tabled := by
  obtain ⟨g, q, hd, -, hcases⟩ := FragInfo.start_cases hr
  have hstart := (h.of_discard hd).of_storeStart fragID a
  obtain ⟨-, rfl⟩ | ⟨-, -, rfl⟩ | ⟨-, -, rfl⟩ := hcases
  · exact hstart
  · exact hstart.of_reset
  · have hreserve : ((g.storeStart fragID a).reserve env q.allocs a.protocolType).Tabled :=
      ⟨hstart.lens, hstart.pduType, hstart.maxSeq⟩
    exact hreserve.of_settle _ _

lemma of_keep (h : f.Tabled) {fragID : ℕ} {a : Arrival} {p : Pool} {r : Received}
    (hr : f.keep fragID a p = some r) : r.info.Tabled := by
  obtain ⟨hs, ⟨-, rfl⟩ | ⟨-, -, rfl⟩⟩ := FragInfo.keep_cases hr
  · exact h.of_reset
  · exact ((h.of_counters _ _ _).of_store _ _ _ _).of_settle _ _

end FragInfo.Tabled

lemma tabled_of_leads {env : Dpdk} {s : RecvState} (h : RecvState.Leads env .initial s)
    (port fragID : ℕ) (i : Fin fragBufferNum) :
    ((s.receiver.table port fragID).info i).Tabled := by
  induction h generalizing port fragID i with
  | refl => exact ⟨fun _ => le_rfl, .inl rfl, Nat.zero_lt_succ 5⟩
  | tail _ hs ih =>
    exact RecvState.forall_micro (fun _ hf => hf.of_reset)
      (fun _ hf => ⟨hf.lens, hf.pduType, hf.maxSeq⟩) (fun _ _ _ _ _ hf hr => hf.of_start hr)
      (fun _ _ _ _ _ hf hr => hf.of_keep hr) ih hs port fragID i

lemma reassembled_tabled {env : Dpdk} {s : RecvState} (hs : RecvState.Leads env .initial s)
    {k : Call} {r : Reassembled}
    (h : receiveFragment env k.fragID k.arrival (k.cell s.receiver.table) s.receiver.pool = some r)
    (hone : r.code = 1) :
    (r.cell.info r.index).Tabled ∧ (r.cell.info r.index).complete = true := by
  have htabled : ∀ i, ((k.cell s.receiver.table).info i).Tabled := tabled_of_leads hs _ _
  obtain ⟨-, -, rfl⟩ | ⟨-, -, t, ht, rfl⟩ | ⟨-, t, ht, rfl⟩ := receiveFragment_cases h
  · exact absurd hone (by norm_num)
  · simp only [FragCell.put, FragCell.set_info]
    exact ⟨(htabled _).of_start ht, FragInfo.start_complete ht hone⟩
  · simp only [FragCell.put, FragCell.set_info]
    exact ⟨(htabled _).of_keep ht, FragInfo.keep_complete ht hone⟩

/-- Two messages with a burst between them have different CRCs, so no reassembled PDU with a
burst is handed on; it is found to be one by its CRC exactly when the counts are right. -/
theorem bursts_found {x y : List UInt8} (hb : Burst x y) :
    (∀ a z, crc32LookupTable (a ++ x ++ z) ≠ crc32LookupTable (a ++ y ++ z)) ∧
    ∀ (env : Dpdk) (s : RecvState), RecvState.Leads env .initial s → ∀ (k : Call) (r : Reassembled),
      receiveFragment env k.fragID k.arrival (k.cell s.receiver.table) s.receiver.pool = some r →
        r.code = 1 → ∀ a z, (a ++ x ++ z).length = (r.cell.info r.index).pduNode.pduLength →
          (r.cell.info r.index).recorded = a ++ y ++ z ++ crcBytes (a ++ x ++ z) →
            ((r.cell.info r.index).Detects env r.pool ↔ (r.cell.info r.index).Counts) ∧
              ∀ d, finishReassemblePdu env (r.cell.info r.index) r.pool = some d →
                d.ret ≠ 0 ∧ d.pool = r.pool.freeHeld (r.cell.info r.index).pduNode.ptrPdu := by
  refine ⟨hb.crc_ne, ?_⟩
  intro env s hs k r h hone a z hpdu hrec
  obtain ⟨htabled, hcomplete⟩ := reassembled_tabled hs h hone
  exact ⟨burst_detected_iff htabled hcomplete hb hpdu hrec,
    fun d hd => burst_not_delivered htabled hcomplete hb hrec hd⟩

/-- The START of a PDU of three bytes with its last byte wrong, and the END with the CRC. -/
def wrongStart : Arrival :=
  ⟨.start, overwrite (fun _ => 0) [1, 2, 4], 40, 3, 1, 3, 0, protocolIpv4⟩

def crcEnd : Arrival := ⟨.last, overwrite (fun _ => 0) (crcBytes [1, 2, 3]), 41, 4, 1, 0, 0, 0⟩

def burstEnv : Dpdk := ⟨fun _ => true, fun _ _ => 0, fun _ => true⟩

lemma burst_three : Burst [3] [4] := ⟨rfl, by decide, by decide⟩

def cellState (t : FragCell × Pool) : RecvState :=
  ⟨⟨Table.initial.set 0 7 t.1, .initial, t.2⟩, 0⟩

lemma cellState_cell (t : FragCell × Pool) : (cellState t).receiver.table 0 7 = t.1 := by
  simp only [cellState, Table.set_self]

lemma cellState_first {t : FragCell × Pool} {a : Arrival} {o : Outcome}
    (h : reassemble burstEnv 7 (.initial, .fresh) a = some (t, o)) :
    RecvState.Leads burstEnv .initial (cellState t) :=
  .single (.fragment .initial h)

lemma cellState_next {s t : FragCell × Pool} {a : Arrival} {o : Outcome}
    (h : reassemble burstEnv 7 s a = some (t, o)) :
    RecvState.Leads burstEnv (cellState s) (cellState t) := by
  have hcall : reassemble burstEnv 7
      ((cellState s).receiver.table 0 7, (cellState s).receiver.pool) a = some (t, o) := by
    rw [cellState_cell]
    exact h
  have hset : (Table.initial.set 0 7 s.1).set 0 7 t.1 = Table.initial.set 0 7 t.1 := by
    rw [Table.set, Table.set, Table.set, Function.update_idem, Function.update_self,
      Function.update_idem]
  have hnext : cellState t = ⟨{ (cellState s).receiver with
      table := (cellState s).receiver.table.set 0 7 t.1, pool := t.2 }, 0⟩ := by
    simp only [cellState, hset]
  rw [hnext]
  exact .single (.fragment (cellState s) hcall)

/-- What the next fragment makes of a cell: the code, the length announced, the bytes recorded,
and what `finish_reassemble_pdu` returns then. -/
def outcomeOf (a : Arrival) (t : FragCell × Pool) : Option (ℤ × ℕ × List UInt8 × Option ℤ) :=
  (receiveFragment burstEnv 7 a t.1 t.2).map fun r =>
    (r.code, (r.cell.info r.index).pduNode.pduLength, (r.cell.info r.index).recorded,
      (finishReassemblePdu burstEnv (r.cell.info r.index) r.pool).map Finished.ret)

/-- One copy of each fragment. -/
theorem bursts_found_once : ∃ s r, RecvState.Leads burstEnv .initial s ∧
    receiveFragment burstEnv 7 crcEnd (s.receiver.table 0 7) s.receiver.pool = some r ∧
      (r.cell.info r.index).Detects burstEnv r.pool := by
  have hrun : ((reassemble burstEnv 7 (.initial, .fresh) wrongStart).bind fun t =>
      outcomeOf crcEnd t.1) = some (1, 3, [1, 2, 4] ++ crcBytes [1, 2, 3], some (-2)) := by
    decide +kernel
  obtain ⟨⟨t, o⟩, ht, hrun⟩ := Option.bind_eq_some_iff.1 hrun
  obtain ⟨r, hr, hout⟩ := Option.map_eq_some_iff.1 hrun
  simp only [Prod.mk.injEq] at hout
  obtain ⟨hcode, hlen, hrec, hfinish⟩ := hout
  have hcall : receiveFragment burstEnv 7 crcEnd ((cellState t).receiver.table 0 7)
      (cellState t).receiver.pool = some r := by
    rw [cellState_cell]
    exact hr
  refine ⟨cellState t, r, cellState_first ht, hcall, ?_⟩
  refine ((bursts_found burst_three).2 burstEnv (cellState t) (cellState_first ht) ⟨0, 7, crcEnd⟩ r
    hcall hcode [1, 2] [] (by rw [hlen]; rfl) hrec).1.2 ?_
  have hcounts : ((reassemble burstEnv 7 (.initial, .fresh) wrongStart).bind fun t =>
      receiveFragment burstEnv 7 crcEnd t.1.1 t.1.2).map (fun r =>
        ((r.cell.info r.index).pduNode.ptrPdu.map RteMbuf.dataLen,
          (r.cell.info r.index).pduRecvLen,
          (r.cell.info r.index).lenAt ((r.cell.info r.index).fragRecvNum - 1))) =
        some (some 3, 3, 4) := by
    decide +kernel
  rw [ht, Option.bind_some, hr, Option.map_some, Option.some.injEq, Prod.mk.injEq,
    Prod.mk.injEq] at hcounts
  obtain ⟨hptr, hrecv, htop⟩ := hcounts
  obtain ⟨m, hm, hdata⟩ := Option.map_eq_some_iff.1 hptr
  exact ⟨⟨m, hm, (hrecv.trans hdata.symm).le⟩, htop.ge⟩

/-- After two copies of the END the count is beyond any buffer, and the CRC is not looked at. -/
theorem burst_not_found : ¬ ∀ (env : Dpdk) (s : RecvState), RecvState.Leads env .initial s →
    ∀ (k : Call) (r : Reassembled),
      receiveFragment env k.fragID k.arrival (k.cell s.receiver.table) s.receiver.pool = some r →
        r.code = 1 → ∀ a x y z, Burst x y →
          (a ++ x ++ z).length = (r.cell.info r.index).pduNode.pduLength →
            (r.cell.info r.index).recorded = a ++ y ++ z ++ crcBytes (a ++ x ++ z) →
              (r.cell.info r.index).Detects env r.pool := by
  intro h
  have hrun : ((reassemble burstEnv 7 (.initial, .fresh) crcEnd).bind fun t =>
      (reassemble burstEnv 7 t.1 crcEnd).bind fun u => outcomeOf wrongStart u.1) =
        some (1, 3, [1, 2, 4] ++ crcBytes [1, 2, 3], some (-1)) := by
    decide +kernel
  obtain ⟨⟨t, o⟩, ht, hrun⟩ := Option.bind_eq_some_iff.1 hrun
  obtain ⟨⟨u, o'⟩, hu, hrun⟩ := Option.bind_eq_some_iff.1 hrun
  obtain ⟨r, hr, hout⟩ := Option.map_eq_some_iff.1 hrun
  simp only [Prod.mk.injEq] at hout
  obtain ⟨hcode, hlen, hrec, hfinish⟩ := hout
  have hcall : receiveFragment burstEnv 7 wrongStart ((cellState u).receiver.table 0 7)
      (cellState u).receiver.pool = some r := by
    rw [cellState_cell]
    exact hr
  obtain ⟨m, d, -, hd, hret, -⟩ := h burstEnv (cellState u)
    ((cellState_first ht).trans (cellState_next hu)) ⟨0, 7, wrongStart⟩ r hcall hcode
    [1, 2] [3] [4] [] burst_three (by rw [hlen]; rfl) hrec
  rw [hd, Option.map_some, hret] at hfinish
  exact absurd hfinish (by decide)

end Fengtai.Receive
