import Fengtai.Receive.Reassembly

set_option autoImplicit false

/-! What each reassembly function can do, said once. -/

namespace Fengtai.Receive

open Library.Words Crc

variable {env : Dpdk} {fragID : ℕ} {a : Arrival} {f : FragInfo} {p : Pool}

@[simp] lemma Pool.free_allocs (p : Pool) (m : MbufAddr) : (p.free m).allocs = p.allocs := rfl

@[simp] lemma Pool.freeHeld_allocs (p : Pool) (m : Option RteMbuf) :
    (p.freeHeld m).allocs = p.allocs := by
  cases m <;> rfl

@[simp] lemma Pool.enqueueEncapRing_allocs (p : Pool) (m : RteMbuf) (ringId : ℕ) :
    (p.enqueueEncapRing env m ringId).allocs = p.allocs := by
  rw [enqueueEncapRing]
  split <;> rfl

namespace FragInfo

lemma reset_countLength (s : Fin fragMaxNum) (isEnd : Bool) (fragLen : ℕ) :
    ((f.dropOld s).countLength isEnd fragLen).reset = f.reset := by
  rw [dropOld, countLength]
  split_ifs <;> simp only [reset]

lemma node_countLength (s : Fin fragMaxNum) (isEnd : Bool) (fragLen : ℕ) :
    ((f.dropOld s).countLength isEnd fragLen).pduNode = f.pduNode := by
  rw [dropOld, countLength]
  split_ifs <;> rfl

lemma settle_cases (f : FragInfo) (now : ℕ) (p : Pool) :
    (f.complete = true ∧ f.settle now p = ⟨1, f, p⟩) ∨
    (f.complete = false ∧ f.settle now p = ⟨0, { f with t0Us := now }, p⟩) ∨
    (f.complete = false ∧ f.settle now p = ⟨0, f, p⟩) := by
  rw [settle]
  cases f.complete with
  | true => simp
  | false =>
    by_cases h₁ : f.fragRecvNum = 1 <;> simp [h₁]

lemma settle_timeStamp (f : FragInfo) (now : ℕ) (p : Pool) :
    (f.settle now p).info.timeStamp = f.timeStamp := by
  obtain ⟨-, hs⟩ | ⟨-, hs⟩ | ⟨-, hs⟩ := f.settle_cases now p <;> rw [hs]

lemma settle_complete {f : FragInfo} {now : ℕ} {p : Pool} (h : (f.settle now p).code = 1) :
    (f.settle now p).info.complete = true := by
  obtain ⟨hc, hs⟩ | ⟨-, hs⟩ | ⟨-, hs⟩ := f.settle_cases now p <;> rw [hs] at h ⊢
  · exact hc
  · exact absurd h (by norm_num)
  · exact absurd h (by norm_num)

def reserve (f : FragInfo) (env : Dpdk) (n protocolType : ℕ) : FragInfo :=
  { f with pduNode :=
      ⟨f.pduNode.pduLength, some ⟨.allocated n, env.room n, f.pduNode.pduLength, protocolType⟩⟩ }

lemma start_cases {r : Received} (h : f.start env fragID a p = some r) :
    ∃ g q, discardReceived a.timeStamp f p = (g, q) ∧ a.fragLen ≤ fragMaxLength ∧
      ((env.allocates q.allocs = false ∧
          r = ⟨-1, g.storeStart fragID a, { q with allocs := q.allocs + 1 }⟩) ∨
       (env.allocates q.allocs = true ∧
        mbufTailroom < (g.storeStart fragID a).pduNode.pduLength + 4 ∧
        r = ⟨-1, (g.storeStart fragID a).reset, { q with
          allocs := q.allocs + 1
          freed := q.freed ++ [.allocated q.allocs] }⟩) ∨
       (env.allocates q.allocs = true ∧
        (g.storeStart fragID a).pduNode.pduLength + 4 ≤ mbufTailroom ∧
        r = ((g.storeStart fragID a).reserve env q.allocs a.protocolType).settle a.now
          { q with allocs := q.allocs + 1 })) := by
  rw [start] at h
  generalize discardReceived a.timeStamp f p = d at h
  obtain ⟨g, q⟩ := d
  refine ⟨g, q, rfl, ?_⟩
  by_cases hlen : fragMaxLength < a.fragLen
  · simp [hlen] at h
  refine ⟨not_lt.mp hlen, ?_⟩
  cases halloc : env.allocates q.allocs with
  | false =>
    simp only [hlen, if_false, Pool.alloc, halloc, Bool.false_eq_true, Option.some.injEq] at h
    exact .inl ⟨rfl, h.symm⟩
  | true =>
    simp only [hlen, if_false, Pool.alloc, halloc, if_true] at h
    split_ifs at h with hroom
    · exact .inr (.inl ⟨rfl, hroom, (Option.some.inj h).symm⟩)
    · exact .inr (.inr ⟨rfl, not_lt.mp hroom, (Option.some.inj h).symm⟩)

lemma keep_cases {r : Received} (h : f.keep fragID a p = some r) :
    ∃ hs : a.fragSeq < fragMaxNum,
      let g := (f.dropOld ⟨a.fragSeq, hs⟩).countLength (a.fragType = .last) a.fragLen
      (g.overrun = true ∧ r = ⟨-1, f.reset, p.freeHeld f.pduNode.ptrPdu⟩) ∨
      (g.overrun = false ∧ a.fragLen ≤ fragMaxLength ∧
        r = (g.store ⟨a.fragSeq, hs⟩ fragID a.timeStamp (window a.datafield 0 a.fragLen)).settle
          a.now p) := by
  by_cases hs : a.fragSeq < fragMaxNum
  · refine ⟨hs, ?_⟩
    simp only [keep, hs, dif_pos] at h
    split_ifs at h with hover hlen
    · rw [reset_countLength, node_countLength] at h
      exact .inl ⟨hover, (Option.some.inj h).symm⟩
    · exact .inr ⟨by simpa using hover, not_lt.mp hlen, (Option.some.inj h).symm⟩
  · simp [keep, hs] at h

lemma start_complete {r : Received} (h : f.start env fragID a p = some r) (hc : r.code = 1) :
    r.info.complete = true := by
  obtain ⟨g, q, -, -, hr⟩ := start_cases h
  obtain ⟨-, rfl⟩ | ⟨-, -, rfl⟩ | ⟨-, -, rfl⟩ := hr
  · exact absurd hc (by norm_num)
  · exact absurd hc (by norm_num)
  · exact settle_complete hc

lemma keep_complete {r : Received} (h : f.keep fragID a p = some r) (hc : r.code = 1) :
    r.info.complete = true := by
  obtain ⟨_, ⟨-, rfl⟩ | ⟨-, -, rfl⟩⟩ := keep_cases h
  · exact absurd hc (by norm_num)
  · exact settle_complete hc

lemma start_isSome (env : Dpdk) (fragID : ℕ) (f : FragInfo) (p : Pool)
    (h : a.fragLen ≤ fragMaxLength) : ∃ r, f.start env fragID a p = some r := by
  rw [start]
  generalize discardReceived a.timeStamp f p = d
  obtain ⟨g, q⟩ := d
  simp only [not_lt.mpr h, if_false, Pool.alloc]
  cases env.allocates q.allocs with
  | false => exact ⟨_, rfl⟩
  | true =>
    simp only [if_true]
    split_ifs
    exacts [⟨_, rfl⟩, ⟨_, rfl⟩]

lemma keep_isSome (fragID : ℕ) (f : FragInfo) (p : Pool) (hs : a.fragSeq < fragMaxNum)
    (h : a.fragLen ≤ fragMaxLength) : ∃ r, f.keep fragID a p = some r := by
  simp only [keep, hs, dif_pos, not_lt.mpr h, if_false]
  split_ifs
  exacts [⟨_, rfl⟩, ⟨_, rfl⟩]

end FragInfo

lemma finishReassemblePdu_isSome (h : ∀ m, f.pduNode.ptrPdu = some m → f.pduRecvLen ≤ m.dataLen →
    ∃ t, f.copyFrom 0 f.fragRecvNum = some t) :
    ∃ d, finishReassemblePdu env f p = some d := by
  rw [finishReassemblePdu]
  cases hptr : f.pduNode.ptrPdu with
  | none => exact ⟨_, rfl⟩
  | some m =>
    simp only
    split_ifs with hsize
    · exact ⟨_, rfl⟩
    · exact ⟨_, rfl⟩
    · obtain ⟨t, ht⟩ := h m hptr (not_lt.mp hsize)
      simp only [ht]
      split_ifs <;> exact ⟨_, rfl⟩

lemma finishReassemblePdu_cases {d : Finished} (h : finishReassemblePdu env f p = some d) :
    d.info = f.reset ∧
      ((f.pduNode.ptrPdu = none ∧ d.ret = -128 ∧ d.pool = p) ∨
      ∃ m, f.pduNode.ptrPdu = some m ∧
        ((d.ret < 0 ∧ d.pool = p.free m.addr) ∨
        ∃ copied crc, f.copyFrom 0 f.fragRecvNum = some (copied, crc) ∧
          copied.length = f.pduNode.pduLength ∧ crc32LookupTable copied = crc ∧
          (f.pduType = ipPacket ∨ f.pduType = ctrlmsgFwd ∨ f.pduType = ctrlmsgRtn) ∧ d.ret = 0 ∧
          d.pool = p.enqueueEncapRing env { m with data := overwrite m.data copied } 0)) := by
  rw [finishReassemblePdu] at h
  cases hptr : f.pduNode.ptrPdu with
  | none =>
    simp only [hptr, Option.some.injEq] at h
    subst h
    simp
  | some m =>
    simp only [hptr] at h
    split_ifs at h with hsize htype
    · obtain rfl := Option.some.inj h
      exact ⟨rfl, .inr ⟨m, rfl, .inl ⟨by norm_num, rfl⟩⟩⟩
    · obtain rfl := Option.some.inj h
      exact ⟨rfl, .inr ⟨m, rfl, .inl ⟨by norm_num, rfl⟩⟩⟩
    · cases hcopy : f.copyFrom 0 f.fragRecvNum with
      | none => simp [hcopy] at h
      | some t =>
        obtain ⟨copied, crc⟩ := t
        simp only [hcopy] at h
        split_ifs at h with hlen hcrc
        · obtain rfl := Option.some.inj h
          exact ⟨rfl, .inr ⟨m, rfl, .inl ⟨by norm_num, rfl⟩⟩⟩
        · obtain rfl := Option.some.inj h
          exact ⟨rfl, .inr ⟨m, rfl, 
            .inr ⟨copied, crc, rfl, hlen, not_not.mp hcrc, by tauto, rfl, rfl⟩⟩⟩
        · obtain rfl := Option.some.inj h
          exact ⟨rfl, .inr ⟨m, rfl, .inl ⟨by norm_num, rfl⟩⟩⟩

lemma FragInfo.receive_cases {t : Outcome × FragInfo × Pool}
    (h : f.receive env fragID a p = some t) :
    ∃ r, (if a.fragType = .start then f.start env fragID a p else f.keep fragID a p) = some r ∧
      ((r.code ≠ 1 ∧ t = (⟨r.code, none⟩, r.info, r.pool)) ∨
      (r.code = 1 ∧ ∃ d, finishReassemblePdu env r.info r.pool = some d ∧
        t = (⟨1, some d.ret⟩, d.info, d.pool))) := by
  rw [receive] at h
  split at h
  · cases h
  · rename_i r hr
    refine ⟨r, hr, ?_⟩
    by_cases hc : r.code = 1
    · rw [if_pos hc] at h
      obtain ⟨d, hd, rfl⟩ := Option.map_eq_some_iff.mp h
      exact .inr ⟨hc, d, hd, rfl⟩
    · rw [if_neg hc] at h
      exact .inl ⟨hc, (Option.some.inj h).symm⟩

section Allocs

lemma discardReceived_allocs (stamp : ℕ) (f : FragInfo) (p : Pool) :
    (discardReceived stamp f p).2.allocs = p.allocs := by
  rw [discardReceived]
  split_ifs <;> simp

@[simp] lemma FragInfo.settle_pool (f : FragInfo) (now : ℕ) (p : Pool) :
    (f.settle now p).pool = p := by
  rw [settle]
  split_ifs <;> rfl

lemma FragInfo.receive_allocs {t : Outcome × FragInfo × Pool}
    (h : f.receive env fragID a p = some t) :
    t.2.2.allocs = p.allocs + if a.fragType = .start then 1 else 0 := by
  obtain ⟨r, hr, ht⟩ := receive_cases h
  have hpool : r.pool.allocs = p.allocs + if a.fragType = .start then 1 else 0 := by
    split_ifs at hr ⊢
    · obtain ⟨g, q, hd, -, hr⟩ := start_cases hr
      have hq : q.allocs = p.allocs := by simpa [hd] using discardReceived_allocs a.timeStamp f p
      obtain ⟨-, rfl⟩ | ⟨-, -, rfl⟩ | ⟨-, -, rfl⟩ := hr <;> simp [hq]
    · obtain ⟨-, ⟨-, rfl⟩ | ⟨-, -, rfl⟩⟩ := keep_cases hr <;> simp
  obtain ⟨-, rfl⟩ | ⟨-, d, hd, rfl⟩ := ht
  · exact hpool
  · obtain ⟨-, ⟨-, -, hp⟩ | ⟨m, -, ⟨-, hp⟩ | ⟨_, _, -, -, -, -, -, hp⟩⟩⟩ := finishReassemblePdu_cases hd
    all_goals simp [hp, hpool]

end Allocs

end Fengtai.Receive
