import Fengtai.Receive.Timeout

set_option autoImplicit false

/-! What a call of `start_reassemble_pdu` or `keep_reassemble_pdu` that fails leaves behind. -/

namespace Fengtai.Receive

open Library.Words Library.Custody

def FragInfo.fields (f : FragInfo) : FragInfo := { f with storedBy := fun _ => none }

/-- A buffer is as before, or as `reset_frag_info` leaves it and the buffer it held is freed. -/
def Restored (f g : FragInfo) (p q : Pool) : Prop :=
  g.fields = f.fields ∨
    (g.fields = g.reset ∧
      ∀ m, f.pduNode.ptrPdu = some m → m.addr ∈ q.freed.drop p.freed.length)

/-- What a call from `s` to `s'` that returns a negative value owes. -/
def FailsCleanly (s : Table × Pool) (k : Call) (s' : Table × Pool) (r : Reassembled) : Prop :=
  r.code < 0 →
    Restored ((k.cell s.1).info r.index) ((k.cell s'.1).info r.index) s.2 s'.2 ∧
      ∀ port fragID i, (port, fragID, i) ≠ (k.port, k.fragID, r.index) →
        (s'.1 port fragID).info i = (s.1 port fragID).info i

/-- As `reset_frag_info` leaves it, but for a count that the next fragment brings back to zero. -/
structure FragInfo.NearlyReset (f : FragInfo) : Prop where
  fragRecvNum : u16 (f.fragRecvNum + 1) = 0
  pduRecvLen : u16 f.pduRecvLen = 0
  maxFragSeq : f.maxFragSeq = 0
  fragLen : ∀ i, f.fragLen i = 0
  recvEnd : f.recvEnd = false
  t0Us : f.t0Us = 0
  t1Us : f.t1Us = 0
  timeoutFlag : f.timeoutFlag = false
  ptrPdu : f.pduNode.ptrPdu = none
  timeStamp : f.timeStamp = 0
  crc : f.crc = 0

/-- A START that looks like none once it is stored: it is empty, announces nothing and has no time
stamp, and it replaces an earlier copy of itself, or brings the count back to zero. -/
def FragInfo.LeavesNothing (a : Arrival) (f : FragInfo) : Prop :=
  a.fragLen = 0 ∧ a.timeStamp = 0 ∧ sub16 a.totalLength a.headerLength = 0 ∧
    ((f.Drops 0 ∧ f.timeStamp = 0) ∨ f.NearlyReset)

/-- A START that gets no buffer is one that leaves nothing; one that gets too short a buffer finds
none held, or drops what is held. -/
def FragInfo.Recovers (env : Dpdk) (a : Arrival) (f : FragInfo) (p : Pool) : Prop :=
  if env.allocates p.allocs = true then
    mbufTailroom < sub16 a.totalLength a.headerLength + 4 →
      f.pduNode.ptrPdu = none ∨ f.Drops a.timeStamp
  else f.LeavesNothing a

def Recovers (env : Dpdk) (s : Table × Pool) (k : Call) : Prop :=
  k.arrival.fragType = .start → k.arrival.fragSeq = 0 →
    ((k.cell s.1).info ((k.cell s.1).select k.arrival.timeStamp).1).Recovers env k.arrival s.2

section Start

variable {env : Dpdk} {fragID : ℕ} {a : Arrival} {f g : FragInfo} {p : Pool}

lemma discardReceived_cases (stamp : ℕ) (f : FragInfo) (p : Pool) :
    (¬ f.Drops stamp ∧ discardReceived stamp f p = (f, p)) ∨
    (f.Drops stamp ∧ stamp ≠ f.timeStamp ∧
      discardReceived stamp f p = (f.reset, p.freeHeld f.pduNode.ptrPdu)) ∨
    (f.Drops stamp ∧ stamp = f.timeStamp ∧ discardReceived stamp f p =
      ({ f.reset with fragRecvNum := sub16 0 1, pduRecvLen := sub16 0 0 },
        p.freeHeld f.pduNode.ptrPdu)) := by
  rw [discardReceived]
  split_ifs with hnum hstamp hlen
  · exact .inr (.inl ⟨⟨hnum, .inl hstamp⟩, hstamp, rfl⟩)
  · exact .inr (.inr ⟨⟨hnum, .inr hlen⟩, not_not.1 hstamp, rfl⟩)
  · exact .inl ⟨fun h => h.2.elim hstamp hlen, rfl⟩
  · exact .inl ⟨fun h => hnum h.1, rfl⟩

/-- The buffer a START is stored in is blank only if the START and the buffer were. -/
lemma storeStart_blank_iff : (g.storeStart fragID a).fields = (g.storeStart fragID a).reset ↔
    a.fragLen = 0 ∧ a.timeStamp = 0 ∧ sub16 a.totalLength a.headerLength = 0 ∧
      (u16 (g.fragRecvNum + 1) = 0 ∧ u16 g.pduRecvLen = 0 ∧ g.maxFragSeq = 0 ∧
        (∀ i ≠ 0, g.fragLen i = 0) ∧ g.recvEnd = false ∧ g.t0Us = 0 ∧ g.t1Us = 0 ∧
          g.timeoutFlag = false ∧ g.pduNode.ptrPdu = none ∧ g.crc = 0) := by
  simp only [FragInfo.fields, FragInfo.reset, FragInfo.storeStart, FragInfo.store,
    FragInfo.mk.injEq, window_length]
  constructor
  · rintro ⟨hstamp, -, hmax, hlen, hnum, hend, ht0, ht1, hflag, hlens, -, -, hnode, hcrc, -⟩
    have hfrag : a.fragLen = 0 := by simpa using congrFun hlens 0
    obtain ⟨hpdu, hptr⟩ := DePduNode.mk.inj hnode
    rw [hfrag, Nat.add_zero] at hlen
    refine ⟨hfrag, hstamp, hpdu, hnum, hlen, by simpa using hmax, ?_, hend, ht0, ht1, hflag, hptr,
      hcrc⟩
    intro i hi
    simpa [hi] using congrFun hlens i
  · rintro ⟨hfrag, hstamp, hpdu, hnum, hlen, hmax, hlens, hend, ht0, ht1, hflag, hptr, hcrc⟩
    rw [hfrag, Nat.add_zero, hpdu, hptr]
    refine ⟨hstamp, trivial, by simp [hmax], hlen, hnum, hend, ht0, ht1, hflag, ?_, trivial,
      trivial, rfl, hcrc, trivial⟩
    funext i
    by_cases hi : i = 0
    · rw [hi, Function.update_self]
    · rw [Function.update_of_ne hi, hlens i hi]

lemma freeHeld_freed (f : FragInfo) (p : Pool) :
    ∀ m, f.pduNode.ptrPdu = some m →
      m.addr ∈ (p.freeHeld f.pduNode.ptrPdu).freed.drop p.freed.length := by
  intro m hm
  rw [hm, Pool.freeHeld, Pool.free, List.drop_left]
  exact List.mem_singleton_self _

lemma storeStart_fields_stamp (h : (g.storeStart fragID a).fields = f.fields) :
    a.timeStamp = f.timeStamp := congrArg FragInfo.timeStamp h

lemma storeStart_fields_num (h : (g.storeStart fragID a).fields = f.fields) :
    u16 (g.fragRecvNum + 1) = f.fragRecvNum := congrArg FragInfo.fragRecvNum h

lemma refused_kept_iff (hdrops : ¬ f.Drops a.timeStamp) :
    Restored f (f.storeStart fragID a) p { p with allocs := p.allocs + 1 } ↔ f.LeavesNothing a := by
  constructor
  · rintro (hsame | ⟨hblank, -⟩)
    · have hnum := storeStart_fields_num hsame
      rw [u16] at hnum
      omega
    · obtain ⟨hfrag, hstamp, hpdu, hnum, hlen, hmax, hlens, hend, ht0, ht1, hflag, hptr, hcrc⟩ :=
        storeStart_blank_iff.1 hblank
      have hpos : 0 < f.fragRecvNum := by
        rw [u16] at hnum
        omega
      have htime : f.timeStamp = 0 := by
        by_contra hne
        exact hdrops ⟨hpos, .inl fun heq => hne (heq.symm.trans hstamp)⟩
      have hfirst : f.fragLen 0 = 0 := by
        by_contra hne
        exact hdrops ⟨hpos, .inr (Nat.pos_of_ne_zero hne)⟩
      refine ⟨hfrag, hstamp, hpdu, .inr ⟨hnum, hlen, hmax, ?_, hend, ht0, ht1, hflag, hptr, htime,
        hcrc⟩⟩
      intro i
      by_cases hi : i = 0
      · rw [hi, hfirst]
      · exact hlens i hi
  · rintro ⟨hfrag, hstamp, hpdu, ⟨hzero, -⟩ | hnear⟩
    · exact absurd (hstamp ▸ hzero) hdrops
    · refine .inr ⟨storeStart_blank_iff.2 ⟨hfrag, hstamp, hpdu, hnear.fragRecvNum,
        hnear.pduRecvLen, hnear.maxFragSeq, fun i _ => hnear.fragLen i, hnear.recvEnd, hnear.t0Us,
        hnear.t1Us, hnear.timeoutFlag, hnear.ptrPdu, hnear.crc⟩, ?_⟩
      intro m hm
      rw [hnear.ptrPdu] at hm
      cases hm

lemma refused_other_iff (hstamp : a.timeStamp ≠ f.timeStamp) (q : Pool) :
    Restored f (f.reset.storeStart fragID a) p q ↔ f.LeavesNothing a := by
  constructor
  · rintro (hsame | ⟨hblank, -⟩)
    · exact absurd (storeStart_fields_stamp hsame) hstamp
    · obtain ⟨-, -, -, hnum, -⟩ := storeStart_blank_iff.1 hblank
      exact absurd hnum (by simp [FragInfo.reset, u16])
  · rintro ⟨-, hzero, -, ⟨-, htime⟩ | hnear⟩
    · exact absurd (hzero.trans htime.symm) hstamp
    · exact absurd (hzero.trans hnear.timeStamp.symm) hstamp

lemma refused_copy_iff (hdrops : f.Drops a.timeStamp) (hstamp : a.timeStamp = f.timeStamp) :
    Restored f (({ f.reset with fragRecvNum := sub16 0 1, pduRecvLen := sub16 0 0 } :
        FragInfo).storeStart fragID a) p
        { p.freeHeld f.pduNode.ptrPdu with allocs := (p.freeHeld f.pduNode.ptrPdu).allocs + 1 } ↔
      f.LeavesNothing a := by
  have hwrap : u16 (sub16 0 1 + 1) = 0 := by decide
  have hnone : u16 (sub16 0 0) = 0 := by decide
  constructor
  · rintro (hsame | ⟨hblank, -⟩)
    · have hnum := storeStart_fields_num hsame
      have hpos := hdrops.1
      simp only [hwrap] at hnum
      omega
    · obtain ⟨hfrag, hzero, hpdu, -⟩ := storeStart_blank_iff.1 hblank
      exact ⟨hfrag, hzero, hpdu, .inl ⟨hzero ▸ hdrops, hstamp ▸ hzero⟩⟩
  · rintro ⟨hfrag, hzero, hpdu, -⟩
    exact .inr ⟨storeStart_blank_iff.2 ⟨hfrag, hzero, hpdu, hwrap, hnone, rfl,
      fun _ _ => rfl, rfl, rfl, rfl, rfl, rfl, rfl⟩, freeHeld_freed f p⟩

lemma start_refused_iff {q : Pool} (hd : discardReceived a.timeStamp f p = (g, q)) :
    Restored f (g.storeStart fragID a) p { q with allocs := q.allocs + 1 } ↔ f.LeavesNothing a := by
  obtain ⟨hdrops, hcase⟩ | ⟨-, hstamp, hcase⟩ | ⟨hdrops, hstamp, hcase⟩ :=
    discardReceived_cases a.timeStamp f p
  · rw [hd] at hcase
    obtain ⟨rfl, rfl⟩ := Prod.mk.inj hcase
    exact refused_kept_iff hdrops
  · rw [hd] at hcase
    obtain ⟨rfl, rfl⟩ := Prod.mk.inj hcase
    exact refused_other_iff hstamp _
  · rw [hd] at hcase
    obtain ⟨rfl, rfl⟩ := Prod.mk.inj hcase
    exact refused_copy_iff hdrops hstamp

@[simp] lemma fields_reset (f : FragInfo) : f.reset.fields = f.reset.reset := rfl

lemma start_too_short_iff {q : Pool} (hd : discardReceived a.timeStamp f p = (g, q))
    (hfresh : ∀ m, f.pduNode.ptrPdu = some m → m.addr ≠ .allocated q.allocs) :
    Restored f (g.storeStart fragID a).reset p
        { q with allocs := q.allocs + 1, freed := q.freed ++ [.allocated q.allocs] } ↔
      f.pduNode.ptrPdu = none ∨ f.Drops a.timeStamp := by
  have hreset : (g.storeStart fragID a).reset.fields = (g.storeStart fragID a).reset.reset :=
    fields_reset _
  have hdropped (hq : q = p.freeHeld f.pduNode.ptrPdu) :
      Restored f (g.storeStart fragID a).reset p
        { q with allocs := q.allocs + 1, freed := q.freed ++ [.allocated q.allocs] } := by
    refine .inr ⟨hreset, ?_⟩
    intro m hm
    rw [hq, hm, Pool.freeHeld, Pool.free, List.append_assoc, List.drop_left]
    exact List.mem_cons_self
  obtain ⟨hdrops, hcase⟩ | ⟨hdrops, -, hcase⟩ | ⟨hdrops, -, hcase⟩ :=
    discardReceived_cases a.timeStamp f p
  · rw [hd] at hcase
    obtain ⟨-, rfl⟩ := Prod.mk.inj hcase
    constructor
    · rintro (hsame | ⟨-, hfreed⟩)
      · exact .inl (congrArg (fun f => f.pduNode.ptrPdu) hsame).symm
      · cases hptr : f.pduNode.ptrPdu with
        | none => exact .inl rfl
        | some m =>
          have hmem := hfreed m hptr
          rw [List.drop_left, List.mem_singleton] at hmem
          exact absurd hmem (hfresh m hptr)
    · rintro (hnone | hcon)
      · refine .inr ⟨hreset, ?_⟩
        intro m hm
        rw [hnone] at hm
        cases hm
      · exact absurd hcon hdrops
  · rw [hd] at hcase
    exact iff_of_true (hdropped (Prod.mk.inj hcase).2) (.inr hdrops)
  · rw [hd] at hcase
    exact iff_of_true (hdropped (Prod.mk.inj hcase).2) (.inr hdrops)

lemma settle_code (f : FragInfo) (now : ℕ) (p : Pool) : 0 ≤ (f.settle now p).code := by
  obtain ⟨-, hs⟩ | ⟨-, hs⟩ | ⟨-, hs⟩ := f.settle_cases now p
  · rw [hs]
    exact zero_le_one
  · rw [hs]
  · rw [hs]

lemma start_restored_iff {r : Received} (h : f.start env fragID a p = some r)
    (hfresh : ∀ m, f.pduNode.ptrPdu = some m → m.addr ≠ .allocated p.allocs) :
    (r.code < 0 → Restored f r.info p r.pool) ↔ f.Recovers env a p := by
  obtain ⟨g, q, hd, -, hcases⟩ := FragInfo.start_cases h
  have hallocs : q.allocs = p.allocs := by
    simpa [hd] using discardReceived_allocs a.timeStamp f p
  have hshort : Restored f (g.storeStart fragID a).reset p
      { q with allocs := q.allocs + 1, freed := q.freed ++ [.allocated q.allocs] } ↔
        f.pduNode.ptrPdu = none ∨ f.Drops a.timeStamp :=
    start_too_short_iff hd (hallocs.symm ▸ hfresh)
  rw [FragInfo.Recovers, ← hallocs]
  obtain ⟨hno, rfl⟩ | ⟨hyes, hroom, rfl⟩ | ⟨hyes, hroom, rfl⟩ := hcases
  · rw [if_neg (by simp [hno]), ← start_refused_iff hd]
    exact ⟨fun hcon => hcon neg_one_lt_zero, fun hcon _ => hcon⟩
  · rw [if_pos hyes]
    constructor
    · intro hcon _
      exact hshort.1 (hcon neg_one_lt_zero)
    · intro hcon _
      exact hshort.2 (hcon hroom)
  · rw [if_pos hyes]
    have hlong : ¬ mbufTailroom < sub16 a.totalLength a.headerLength + 4 := not_lt.2 hroom
    exact ⟨fun _ hcon => absurd hcon hlong, fun _ hcon => absurd hcon (not_lt.2 (settle_code _ _ _))⟩

lemma keep_restored {r : Received} (h : f.keep fragID a p = some r) (hr : r.code < 0) :
    Restored f r.info p r.pool := by
  obtain ⟨hs, ⟨-, rfl⟩ | ⟨-, -, rfl⟩⟩ := FragInfo.keep_cases h
  · exact .inr ⟨fields_reset f, freeHeld_freed f p⟩
  · exact absurd hr (not_lt.2 (settle_code _ _ _))

end Start

section Call

variable {env : Dpdk} {s s' : Table × Pool} {k : Call} {r : Reassembled}

lemma failed_state (h : reassembleAt env s k = some (s', r)) (hr : r.code < 0) :
    s' = (s.1.set k.port k.fragID r.cell, r.pool) := by
  obtain ⟨-, ⟨-, hs⟩ | ⟨hone, -⟩⟩ := reassembleAt_cases h
  · exact hs
  · omega

lemma set_others {i : Fin fragBufferNum} {c : FragCell} {T : Table}
    (hc : ∀ j ≠ i, c.info j = (T k.port k.fragID).info j) (port fragID : ℕ) (j : Fin fragBufferNum)
    (hne : (port, fragID, j) ≠ (k.port, k.fragID, i)) :
    (T.set k.port k.fragID c port fragID).info j = (T port fragID).info j := by
  rw [Table.set_cases]
  split_ifs with hk
  · obtain ⟨rfl, rfl⟩ := hk
    exact hc j fun hj => hne (by rw [hj])
  · rfl

lemma failsCleanly_iff (h : reassembleAt env s k = some (s', r)) {t : Received}
    (hr : r = ((k.cell s.1).select k.arrival.timeStamp).2.put
      ((k.cell s.1).select k.arrival.timeStamp).1 t) :
    FailsCleanly s k s' r ↔ (t.code < 0 →
      Restored ((k.cell s.1).info ((k.cell s.1).select k.arrival.timeStamp).1) t.info s.2 t.pool) := by
  subst hr
  refine forall_congr' fun hcode => ?_
  rw [failed_state h hcode]
  have hothers := set_others (T := s.1) fun _ hj =>
    FragCell.put_ne (k.cell s.1) k.arrival.timeStamp t hj
  refine (and_iff_left hothers).trans ?_
  simp only [Call.cell, Table.set_self, FragCell.put, FragCell.set_info]

lemma failsCleanly_iff_recovers (h : reassembleAt env s k = some (s', r))
    (hfresh : ∀ i m, ((k.cell s.1).info i).pduNode.ptrPdu = some m →
      m.addr ≠ .allocated s.2.allocs) : FailsCleanly s k s' r ↔ Recovers env s k := by
  obtain ⟨-, hseq, hr⟩ | ⟨htype, hseq, t, ht, hr⟩ | ⟨htype, t, ht, hr⟩ :=
    receiveFragment_cases (reassembleAt_cases h).1
  · refine iff_of_true ?_ fun _ hzero => by omega
    subst hr
    intro hcode
    rw [failed_state h hcode]
    have hsame := set_others (T := s.1) (k := k) (i := 0) (c := k.cell s.1) fun _ _ => rfl
    refine ⟨.inl ?_, hsame⟩
    simp only [Call.cell, Table.set_self]
  · rw [failsCleanly_iff h hr, start_restored_iff ht fun m hm => hfresh _ m hm]
    exact ⟨fun hcon _ _ => hcon, fun hcon => hcon htype hseq⟩
  · rw [failsCleanly_iff h hr]
    exact iff_of_true (keep_restored ht) fun hstart => absurd hstart htype

end Call

lemma safe_of_leads {env : RecvEnv} {s : RecvState}
    (h : RecvState.Leads env.toDpdk .initial s) : s.Safe env.toDpdk := by
  induction h with
  | refl => exact RecvState.sound_initial.safe
  | tail _ hs ih => exact ih.micro hs

/-- A call that fails leaves its buffer as it was or reset, and the others alone, exactly when it
is not a START that goes without a buffer or, the buffer being too short, forgets one. -/
theorem failed_calls_clean {env : RecvEnv} {s : RecvState}
    (hs : RecvState.Leads env.toDpdk .initial s) {k : Call} {s' : Table × Pool} {r : Reassembled}
    (h : reassembleAt env.toDpdk (s.receiver.table, s.receiver.pool) k = some (s', r)) :
    FailsCleanly (s.receiver.table, s.receiver.pool) k s' r ↔
      Recovers env.toDpdk (s.receiver.table, s.receiver.pool) k := by
  apply failsCleanly_iff_recovers h
  intro i m hm haddr
  obtain ⟨lost, hsafe⟩ := safe_of_leads hs
  have hheld : s.receiver.table.held (k.port, k.fragID, i) = some (.allocated s.receiver.pool.allocs) := by
    rw [Table.held, FragInfo.heldAddr]
    simp only [Call.cell] at hm
    rw [hm, Option.map_some, haddr]
  have hknown := hsafe.held_known _ _ hheld
  exact lt_irrefl _ (allocated_mem_known.1 hknown).1

def announce (totalLength : ℕ) : Call :=
  ⟨0, 0, ⟨.start, fun _ => 7, 40, 3, 1, totalLength, 0, protocolIpv4⟩⟩

def initialTable : Table × Pool := (RecvState.initial.receiver.table, RecvState.initial.receiver.pool)

/-- A PDU that no buffer holds. -/
theorem failed_calls_clean_too_long : ∃ s' r,
    reassembleAt sampleRecvEnv.toDpdk initialTable (announce 60000) = some (s', r) ∧ r.code = -1 ∧
      FailsCleanly initialTable (announce 60000) s' r := by
  have hcode : (reassembleAt sampleRecvEnv.toDpdk initialTable (announce 60000)).map
      (fun t => t.2.code) = some (-1) := by
    decide +kernel
  obtain ⟨⟨s', r⟩, hs, hr⟩ := Option.map_eq_some_iff.1 hcode
  refine ⟨s', r, hs, hr, (failed_calls_clean .refl hs).2 ?_⟩
  intro _ _
  rw [FragInfo.Recovers, if_pos]
  · exact fun _ => .inl rfl
  · rfl

def refusingEnv : RecvEnv := { sampleRecvEnv with allocates := fun _ => false }

/-- A START that gets no buffer stays in the table, with its time stamp and its count. -/
theorem refused_start_recorded : ¬ ∀ (env : RecvEnv) (s : RecvState),
    RecvState.Leads env.toDpdk .initial s → ∀ k s' r,
      reassembleAt env.toDpdk (s.receiver.table, s.receiver.pool) k = some (s', r) →
        FailsCleanly (s.receiver.table, s.receiver.pool) k s' r := by
  intro h
  have hsome : (reassembleAt refusingEnv.toDpdk initialTable (announce 100)).isSome := by
    decide +kernel
  obtain ⟨⟨s', r⟩, hs⟩ := Option.isSome_iff_exists.1 hsome
  have hclean := h refusingEnv .initial .refl (announce 100) s' r hs
  have hrecovers := (failsCleanly_iff_recovers hs fun _ _ hm => by cases hm).1 hclean rfl rfl
  rw [FragInfo.Recovers, if_neg (by decide)] at hrecovers
  exact absurd hrecovers.1 (by decide)

end Fengtai.Receive
