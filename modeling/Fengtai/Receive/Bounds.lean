import Fengtai.Library.Slots
import Fengtai.Receive.NoMixing

set_option autoImplicit false

/-! The bounds of the reassembly tables and of the copies into the PDU's mbuf. -/

namespace Fengtai.Receive

open Library Library.Words Library.Runs

/-- `frag_len[i]`, and 0 beyond the table. -/
def FragInfo.lenAt (f : FragInfo) (i : ℕ) : ℕ := if h : i < fragMaxNum then f.fragLen ⟨i, h⟩ else 0

lemma FragInfo.lenAt_of_lt {f : FragInfo} {i : ℕ} (h : i < fragMaxNum) :
    f.lenAt i = f.fragLen ⟨i, h⟩ := dif_pos h

/-- The counters agree with the table: they may run ahead by `d` bytes after a START that
met an older copy of itself. -/
structure Counted (f : FragInfo) : Prop where
  lens : ∀ i, f.fragLen i ≤ fragMaxLength
  maxSeq : f.maxFragSeq < fragMaxNum
  recvNum : f.fragRecvNum < 65536
  recvLen : ∃ d ≤ fragMaxLength, (f.fragRecvNum = 0 → d = 0) ∧
    f.pduRecvLen = sub16 (total f.fragLen + d) (if f.recvEnd then 4 else 0)
  idle : f.fragRecvNum = 0 → f.recvEnd = false ∧ ∀ i, i ≠ 0 → f.fragLen i = 0

def Arrival.reserved (a : Arrival) (env : Dpdk) (p : Pool) : Option ℕ :=
  if env.allocates p.allocs = true ∧ sub16 a.totalLength a.headerLength + 4 ≤ mbufTailroom then
    some (sub16 a.totalLength a.headerLength)
  else none

namespace FragInfo

variable (f : FragInfo) (a : Arrival)

/-- The fragments counted once the arrival is among them: an earlier copy counts no more. -/
def countWith : ℕ :=
  (if 0 < f.lenAt a.fragSeq ∧ 0 < f.fragRecvNum then f.fragRecvNum - 1 else f.fragRecvNum) + 1

/-- The bytes counted then; the last four bytes of an END are the CRC. -/
def lenWith : ℕ :=
  sub16 ((if 0 < f.lenAt a.fragSeq ∧ 0 < f.fragRecvNum then sub16 f.pduRecvLen (f.lenAt a.fragSeq)
    else f.pduRecvLen) + a.fragLen) (if a.fragType = .last then 4 else 0)

/-- More bytes than the START announced: the buffer is given up. -/
def Overruns : Prop := 0 < f.pduNode.pduLength ∧ f.pduNode.pduLength < f.lenWith a

def Completes : Prop :=
  (f.recvEnd = true ∨ a.fragType = .last) ∧ f.countWith a = max f.maxFragSeq a.fragSeq + 1

def topLen : ℕ := if f.maxFragSeq ≤ a.fragSeq then a.fragLen else f.lenAt f.maxFragSeq

/-- The count stays within 16 bits, and if the PDU is complete and goes into an mbuf of `n`
bytes, then the CRC is in its last fragment. -/
structure Takes (mbufLen : Option ℕ) : Prop where
  count : f.countWith a < 65536
  top : ∀ n ∈ mbufLen, f.lenWith a ≤ n → f.Completes a → 4 ≤ f.topLen a

/-- A MIDDLE or END that fits the tables and is not a second END, or gives the buffer up. -/
structure Admits : Prop where
  seq : a.fragSeq < fragMaxNum
  stored : f.Overruns a ∨ (a.fragLen ≤ fragMaxLength ∧
    (a.fragType = .last → f.recvEnd = false) ∧ f.Takes a (f.pduNode.ptrPdu.map RteMbuf.dataLen))

/-- What a buffer is after it took the arrival in slot `s`. -/
structure Took (s : Fin fragMaxNum) (g : FragInfo) : Prop where
  count : g.fragRecvNum = f.countWith a
  recvEnd : g.recvEnd = (f.recvEnd || decide (a.fragType = .last))
  maxSeq : g.maxFragSeq = max f.maxFragSeq a.fragSeq
  recvLen : g.pduRecvLen = f.lenWith a
  lens : g.fragLen = Function.update f.fragLen s a.fragLen

variable {f a} {s : Fin fragMaxNum} {g : FragInfo} {fragID : ℕ}

lemma countWith_pos : 0 < f.countWith a := Nat.succ_pos _

lemma Took.completes (h : f.Took a s g) (hc : g.complete = true) : f.Completes a := by
  rw [complete, Bool.and_eq_true, beq_iff_eq, h.recvEnd, h.count, h.maxSeq] at hc
  exact ⟨by simpa using hc.1, hc.2⟩

lemma Took.lenAt_top (h : f.Took a s g) (hs : s.val = a.fragSeq) (hmax : f.maxFragSeq < fragMaxNum) :
    g.lenAt g.maxFragSeq = f.topLen a := by
  have hlt := s.isLt
  rw [h.maxSeq, topLen]
  split_ifs with hle
  · rw [max_eq_right hle, ← hs, lenAt_of_lt hlt, h.lens, Fin.eta, Function.update_self]
  · have hne : (⟨f.maxFragSeq, hmax⟩ : Fin fragMaxNum) ≠ s := by
      intro hc
      have : f.maxFragSeq = s := congrArg Fin.val hc
      omega
    rw [max_eq_left (by omega), lenAt_of_lt hmax, lenAt_of_lt hmax, h.lens,
      Function.update_of_ne hne]

lemma lenAt_slot (hs : s.val = a.fragSeq) : f.lenAt a.fragSeq = f.fragLen s := by
  rw [← hs, lenAt_of_lt s.isLt]

lemma recvLen_countLength (hs : s.val = a.fragSeq) :
    ((f.dropOld s).countLength (a.fragType = .last) a.fragLen).pduRecvLen = f.lenWith a := by
  have hsub (x : ℕ) : u16 x = sub16 x 0 := by simp [sub16, u16]
  rw [lenWith, lenAt_slot hs]
  by_cases hold : 0 < f.fragLen s ∧ 0 < f.fragRecvNum <;>
    by_cases hk : a.fragType = .last <;> simp [countLength, dropOld, hold, hk, hsub]

lemma overrun_iff (hs : s.val = a.fragSeq) :
    ((f.dropOld s).countLength (a.fragType = .last) a.fragLen).overrun = true ↔ f.Overruns a := by
  rw [overrun, node_countLength, recvLen_countLength hs, Overruns]
  simp

lemma took_keep (fragID : ℕ) (hs : s.val = a.fragSeq) (hnum : f.fragRecvNum < 65536)
    (hcount : f.countWith a < 65536) :
    f.Took a s (((f.dropOld s).countLength (a.fragType = .last) a.fragLen).store s fragID
      a.timeStamp (window a.datafield 0 a.fragLen)) := by
  rw [countWith, lenAt_slot hs] at hcount
  have hdrop (hpos : 0 < f.fragRecvNum) : sub16 f.fragRecvNum 1 = f.fragRecvNum - 1 :=
    sub16_of_le hpos hnum
  have hlen := recvLen_countLength (f := f) hs
  by_cases hold : 0 < f.fragLen s ∧ 0 < f.fragRecvNum
  · rw [if_pos hold] at hcount
    by_cases hk : a.fragType = .last <;>
    exact
      { count := by simp [store, countLength, dropOld, hold, hk, countWith, lenAt_slot hs,
          hdrop hold.2, u16_of_lt hcount]
        recvEnd := by simp [store, countLength, dropOld, hold, hk]
        maxSeq := by simp [store, countLength, dropOld, hold, hk, hs]
        recvLen := hlen
        lens := by simp [store, countLength, dropOld, hold, hk] }
  · rw [if_neg hold] at hcount
    by_cases hk : a.fragType = .last <;>
    exact
      { count := by simp [store, countLength, dropOld, hold, hk, countWith, lenAt_slot hs,
          u16_of_lt hcount]
        recvEnd := by simp [store, countLength, dropOld, hold, hk]
        maxSeq := by simp [store, countLength, dropOld, hold, hk, hs]
        recvLen := hlen
        lens := by simp [store, countLength, dropOld, hold, hk] }

lemma took_start (fragID : ℕ) (hkind : a.fragType = .start) (hseq : a.fragSeq = 0)
    (hfree : ¬(0 < f.fragLen 0 ∧ 0 < f.fragRecvNum)) (hcount : f.countWith a < 65536) :
    f.Took a 0 (f.storeStart fragID a) := by
  have hs : (0 : Fin fragMaxNum).val = a.fragSeq := hseq.symm
  rw [countWith, lenAt_slot hs, if_neg hfree] at hcount
  exact
    { count := by simp [storeStart, store, countWith, lenAt_slot hs, hfree, u16_of_lt hcount]
      recvEnd := by simp [storeStart, store, hkind]
      maxSeq := by simp [storeStart, store, hseq]
      recvLen := by simp [storeStart, store, lenWith, lenAt_slot hs, hfree, hkind, sub16, u16]
      lens := by simp [storeStart, store] }

end FragInfo

namespace Counted

variable {f g : FragInfo} {a : Arrival} {fragID : ℕ} {p : Pool} {s : Fin fragMaxNum}

lemma of_reset (f : FragInfo) : Counted f.reset where
  lens _ := Nat.zero_le _
  maxSeq := by simp [FragInfo.reset]
  recvNum := by simp [FragInfo.reset]
  recvLen := ⟨0, Nat.zero_le _, fun _ => rfl, by simp [FragInfo.reset, total, sub16]⟩
  idle _ := ⟨rfl, fun _ _ => rfl⟩

lemma of_settle (h : Counted f) (now : ℕ) (p : Pool) : Counted (f.settle now p).info := by
  obtain ⟨-, hs⟩ | ⟨-, hs⟩ | ⟨-, hs⟩ := f.settle_cases now p <;> rw [hs]
  exacts [h, { h with }, h]

lemma total_lt (h : Counted f) : total f.fragLen ≤ 6 * 1518 := by
  have ht := total_le f.fragLen h.lens
  rwa [Fintype.card_fin] at ht

lemma of_took (h : Counted f) (ht : f.Took a s g) (hs : s.val = a.fragSeq)
    (hle : a.fragLen ≤ fragMaxLength) (hcount : f.countWith a < 65536)
    (honce : a.fragType = .last → f.recvEnd = false) : Counted g := by
  have hslot : f.lenAt a.fragSeq = f.fragLen s := FragInfo.lenAt_slot hs
  have hpos : 0 < g.fragRecvNum := ht.count ▸ FragInfo.countWith_pos
  exact
    { lens := by
        intro i
        rw [ht.lens]
        by_cases hi : i = s
        · simpa [hi] using hle
        · simpa [hi] using h.lens i
      maxSeq := by
        rw [ht.maxSeq, ← hs]
        exact max_lt h.maxSeq s.isLt
      recvNum := by rwa [ht.count]
      recvLen := by
        obtain ⟨d, hd, hd₀, hrecv⟩ := h.recvLen
        have hlt := h.total_lt
        have htot := total_update f.fragLen s a.fragLen
        -- a copy that is not taken out of the counts is one of a START
        refine ⟨if 0 < f.fragLen s ∧ f.fragRecvNum = 0 then f.fragLen s else d, ?_,
          fun hc => absurd hc hpos.ne', ?_⟩
        · split_ifs
          exacts [h.lens s, hd]
        · rw [ht.recvLen, ht.recvEnd, ht.lens, FragInfo.lenWith, hslot, hrecv]
          by_cases hk : a.fragType = .last
          · simp only [hk, honce hk, decide_true, Bool.or_true, if_true, Bool.false_eq_true,
              if_false, sub16]
            split_ifs <;> omega
          · cases f.recvEnd <;> simp only [hk, decide_false, Bool.or_false, if_true,
              Bool.false_eq_true, if_false, sub16] <;> split_ifs <;> omega
      idle := fun hc => absurd hc hpos.ne' }

end Counted

/-- The lengths `finish_reassemble_pdu` passes to `rte_memcpy`. -/
def FragInfo.copyLengths (f : FragInfo) : List ℤ :=
  (List.range f.fragRecvNum).map fun i =>
    if i + 1 = f.fragRecvNum then (f.lenAt i : ℤ) - 4 else f.lenAt i

/-- Where `finish_reassemble_pdu` comes to its copies, they read slots of the table, have
lengths and stay within what was appended to the mbuf. -/
def FragInfo.CopiesFit (f : FragInfo) : Prop :=
  ∀ m, f.pduNode.ptrPdu = some m → f.pduRecvLen ≤ m.dataLen →
    f.fragRecvNum ≤ fragMaxNum ∧ (∀ len ∈ f.copyLengths, 0 ≤ len) ∧ f.copyLengths.sum ≤ m.dataLen

namespace FragInfo

variable {f : FragInfo}

lemma complete_num (hc : f.complete = true) : f.fragRecvNum = f.maxFragSeq + 1 := by
  rw [complete, Bool.and_eq_true, beq_iff_eq] at hc
  exact hc.2

lemma copyLengths_succ {n : ℕ} (h : f.fragRecvNum = n + 1) :
    f.copyLengths = ((List.range n).map fun i => (f.lenAt i : ℤ)) ++ [(f.lenAt n : ℤ) - 4] := by
  rw [copyLengths, h, List.range_succ, List.map_append]
  congr 1
  · apply List.map_congr_left
    intro i hi
    have := List.mem_range.mp hi
    rw [if_neg (by omega)]
  · simp

lemma copyFrom_isSome (k i : ℕ) (hk : i + (k + 1) ≤ fragMaxNum) (htop : 4 ≤ f.lenAt (i + k)) :
    ∃ t, f.copyFrom i (k + 1) = some t := by
  induction k generalizing i with
  | zero =>
    have hi : i < fragMaxNum := by omega
    rw [Nat.add_zero, lenAt_of_lt hi] at htop
    simp [copyFrom, hi, not_lt.mpr htop]
  | succ k ih =>
    have hi : i < fragMaxNum := by omega
    obtain ⟨t, ht⟩ := ih (i + 1) (by omega) (by rwa [Nat.add_right_comm])
    rw [copyFrom, dif_pos hi]
    simp [ht]

lemma CopiesFit.finishes (h : f.CopiesFit) (hc : f.complete = true) (env : Dpdk) (p : Pool) :
    ∃ d, finishReassemblePdu env f p = some d := by
  apply finishReassemblePdu_isSome
  intro m hm hsize
  obtain ⟨hnum, hlens, -⟩ := h m hm hsize
  have hone := complete_num hc
  have hlast : 4 ≤ f.lenAt f.maxFragSeq := by
    have hmem : (f.lenAt f.maxFragSeq : ℤ) - 4 ∈ f.copyLengths := by
      rw [copyLengths_succ hone]
      simp
    have := hlens _ hmem
    omega
  rw [hone] at hnum ⊢
  exact copyFrom_isSome f.maxFragSeq 0 (by omega) (by simpa using hlast)

end FragInfo

namespace Counted

variable {f g : FragInfo} {a : Arrival} {fragID : ℕ} {env : Dpdk} {p q : Pool}

lemma copiesFit (h : Counted f) (hc : f.complete = true)
    (htop : ∀ m, f.pduNode.ptrPdu = some m → f.pduRecvLen ≤ m.dataLen → 4 ≤ f.lenAt f.maxFragSeq) :
    f.CopiesFit := by
  intro m hm hsize
  have hlast := htop m hm hsize
  have hnum := FragInfo.complete_num hc
  have hend : f.recvEnd = true := by
    rw [FragInfo.complete, Bool.and_eq_true] at hc
    exact hc.1
  have hmax := h.maxSeq
  have hlens := FragInfo.copyLengths_succ hnum
  refine ⟨by omega, fun len hlen => ?_, ?_⟩
  · rw [hlens, List.mem_append, List.mem_map, List.mem_singleton] at hlen
    obtain ⟨i, -, rfl⟩ | rfl := hlen <;> omega
  · obtain ⟨d, hd, -, hrecv⟩ := h.recvLen
    have hlt := h.total_lt
    have hfirst := sum_first_le f.fragLen f.lenAt (fun i hi => FragInfo.lenAt_of_lt hi)
      (k := f.maxFragSeq + 1) hmax
    have hslot := le_total f.fragLen ⟨f.maxFragSeq, hmax⟩
    rw [← FragInfo.lenAt_of_lt] at hslot
    have hcast : f.copyLengths.sum = (((List.range (f.maxFragSeq + 1)).map f.lenAt).sum : ℤ) - 4 := by
      rw [hlens, List.range_succ, List.map_append, List.sum_append, List.sum_append, Nat.cast_add,
        Nat.cast_list_sum, List.map_map]
      simp only [List.map_cons, List.map_nil, List.sum_singleton, Function.comp_def]
      omega
    simp only [fragMaxLength] at hd
    rw [hrecv, hend] at hsize
    simp only [if_true, sub16] at hsize
    omega

lemma settle_fits (h : Counted f) (now : ℕ)
    (htop : f.complete = true → ∀ m, f.pduNode.ptrPdu = some m → f.pduRecvLen ≤ m.dataLen →
      4 ≤ f.lenAt f.maxFragSeq) :
    Counted (f.settle now p).info ∧ ((f.settle now p).code = 1 → (f.settle now p).info.CopiesFit) := by
  refine ⟨h.of_settle now p, fun hc => ?_⟩
  obtain ⟨hcomp, hs⟩ | ⟨-, hs⟩ | ⟨-, hs⟩ := f.settle_cases now p <;> rw [hs] at hc ⊢
  · exact h.copiesFit hcomp (htop hcomp)
  · exact absurd hc (by norm_num)
  · exact absurd hc (by norm_num)

lemma of_keep (h : Counted f) {r : Received} (ha : f.Admits a)
    (hr : f.keep fragID a p = some r) :
    Counted r.info ∧ (r.code = 1 → r.info.CopiesFit) := by
  obtain ⟨hseq, ⟨-, rfl⟩ | ⟨hover, -, rfl⟩⟩ := FragInfo.keep_cases hr
  · exact ⟨.of_reset f, fun hc => absurd hc (by norm_num)⟩
  · obtain hgone | ⟨hle, honce, hcount, htop⟩ := ha.stored
    · rw [(FragInfo.overrun_iff rfl).mpr hgone] at hover
      cases hover
    · have htook := FragInfo.took_keep (s := ⟨a.fragSeq, hseq⟩) fragID rfl h.recvNum hcount
      refine (h.of_took htook rfl hle hcount honce).settle_fits a.now fun hcomp m hm hsize => ?_
      rw [htook.lenAt_top rfl h.maxSeq]
      rw [htook.recvLen] at hsize
      have hptr : f.pduNode.ptrPdu = some m := by
        rw [← FragInfo.node_countLength ⟨a.fragSeq, hseq⟩ (a.fragType = .last) a.fragLen]
        exact hm
      exact htop m.dataLen (by rw [hptr]; rfl) hsize (htook.completes hcomp)

lemma keep_admitted (fragID : ℕ) (p : Pool) (ha : f.Admits a) : ∃ r, f.keep fragID a p = some r := by
  obtain hgone | ⟨hle, -, -⟩ := ha.stored
  · rw [FragInfo.keep, dif_pos ha.seq]
    simp only [(FragInfo.overrun_iff (s := ⟨a.fragSeq, ha.seq⟩) rfl).mpr hgone, if_true]
    exact ⟨_, rfl⟩
  · exact FragInfo.keep_isSome fragID f p ha.seq hle

/-- What a START with the stamp of the buffer's PDU finds, in which no copy of it is counted,
it joins; every other START is alone in its buffer. -/
lemma started (h : Counted f) (fragID : ℕ) (hkind : a.fragType = .start) (hseq : a.fragSeq = 0)
    (hle : a.fragLen ≤ fragMaxLength) (hd : discardReceived a.timeStamp f p = (g, q)) :
    (Counted (g.storeStart fragID a) ∧ g.recvEnd = false) ∨
      (f.timeStamp = a.timeStamp ∧ g = f ∧ q = p ∧ ¬(0 < f.fragLen 0 ∧ 0 < f.fragRecvNum)) := by
  have honce (f : FragInfo) (hk : a.fragType = .last) : f.recvEnd = false := by
    rw [hkind] at hk
    cases hk
  have hone {f : FragInfo} (hnum : f.fragRecvNum = 0) : f.countWith a < 65536 := by
    simp [FragInfo.countWith, hnum]
  have hzero : total f.reset.fragLen = 0 := by simp [FragInfo.reset, total]
  rw [discardReceived] at hd
  split_ifs at hd with hpos hstamp hcopy <;> obtain ⟨rfl, rfl⟩ := Prod.mk.inj hd
  · have htook := FragInfo.took_start (f := f.reset) fragID hkind hseq
      (by simp [FragInfo.reset]) (hone rfl)
    exact .inl ⟨(of_reset f).of_took htook hseq.symm hle (hone rfl) (honce _), rfl⟩
  · -- the copy taken out of a count of zero leaves it at the top, and the store makes it zero
    refine .inl ⟨?_, rfl⟩
    have htot := total_update f.reset.fragLen 0 a.fragLen
    exact
      { lens := fun i => by
          by_cases hi : i = 0
          · simpa [FragInfo.storeStart, FragInfo.store, hi] using hle
          · simp [FragInfo.storeStart, FragInfo.store, FragInfo.reset, hi]
        maxSeq := by simp [FragInfo.storeStart, FragInfo.store, FragInfo.reset]
        recvNum := by simp [FragInfo.storeStart, FragInfo.store]
        recvLen := by
          refine ⟨0, Nat.zero_le _, fun _ => rfl, ?_⟩
          simp only [FragInfo.storeStart, FragInfo.store, window_length]
          have hz : f.reset.fragLen 0 = 0 := rfl
          rw [hzero, hz] at htot
          simp only [FragInfo.reset, sub16, u16, Bool.false_eq_true, if_false] at htot ⊢
          omega
        idle := fun _ => ⟨rfl, fun i hi => by
          simp [FragInfo.storeStart, FragInfo.store, FragInfo.reset, hi]⟩ }
  · exact .inr ⟨(not_not.mp hstamp).symm, rfl, rfl, fun hc => hcopy hc.1⟩
  · have hnum : f.fragRecvNum = 0 := Nat.eq_zero_of_not_pos hpos
    have htook := FragInfo.took_start (f := f) fragID hkind hseq
      (fun hc => hpos hc.2) (hone hnum)
    exact .inl ⟨h.of_took htook hseq.symm hle (hone hnum) (honce _), (h.idle hnum).1⟩

lemma of_start (h : Counted f) {r : Received} (hkind : a.fragType = .start) (hseq : a.fragSeq = 0)
    (hagain : f.timeStamp = a.timeStamp → f.Takes a (a.reserved env p))
    (hr : f.start env fragID a p = some r) :
    Counted r.info ∧ (r.code = 1 → r.info.CopiesFit) := by
  obtain ⟨g, q, hd, hle, hr⟩ := FragInfo.start_cases hr
  have hstarted := h.started fragID hkind hseq hle hd
  have hcounted : Counted (g.storeStart fragID a) := by
    obtain ⟨hc, -⟩ | ⟨hstamp, rfl, -, hfree⟩ := hstarted
    · exact hc
    · have hcount := (hagain hstamp).count
      refine h.of_took (FragInfo.took_start fragID hkind hseq hfree hcount) hseq.symm hle hcount fun hk => ?_
      rw [hkind] at hk
      cases hk
  obtain ⟨-, rfl⟩ | ⟨-, -, rfl⟩ | ⟨halloc, hroom, rfl⟩ := hr
  · exact ⟨hcounted, fun hc => absurd hc (by norm_num)⟩
  · exact ⟨.of_reset _, fun hc => absurd hc (by norm_num)⟩
  · have hres : Counted ((g.storeStart fragID a).reserve env q.allocs a.protocolType) :=
      { hcounted with }
    refine hres.settle_fits a.now fun hcomp m hm hsize => ?_
    obtain ⟨-, hend⟩ | ⟨hstamp, rfl, rfl, hfree⟩ := hstarted
    · rw [FragInfo.complete, Bool.and_eq_true] at hcomp
      have htrue : g.recvEnd = true := hcomp.1
      rw [hend] at htrue
      cases htrue
    · have htook := FragInfo.took_start fragID hkind hseq hfree (hagain hstamp).count
      have hlen : a.reserved env q = some m.dataLen := by
        cases hm
        exact if_pos ⟨halloc, hroom⟩
      have htop := (hagain hstamp).top m.dataLen hlen (htook.recvLen ▸ hsize) (htook.completes hcomp)
      exact (htook.lenAt_top hseq.symm h.maxSeq).symm ▸ htop

end Counted

/-- A START brings no more than a slot holds, and fits the buffer when that is the PDU's already;
a MIDDLE or END fits the buffer it chooses. -/
def FitsTables (env : Dpdk) (s : Table × Pool) (k : Call) : Prop :=
  let c := k.cell s.1
  let a := k.arrival
  let f := c.info (c.select a.timeStamp).1
  if a.fragType = .start then
    a.fragSeq = 0 → a.fragLen ≤ fragMaxLength ∧
      (f.timeStamp = a.timeStamp → f.Takes a (a.reserved env s.2))
  else f.Admits a

def Table.Counted (s : Table × Pool) : Prop :=
  ∀ port fragID i, Receive.Counted ((s.1 port fragID).info i)

section Table

variable {env : Dpdk} {s s' : Table × Pool} {k : Call} {r : Reassembled}

lemma receiveFragment_counted (h : Table.Counted s) (hok : FitsTables env s k)
    (hr : receiveFragment env k.fragID k.arrival (k.cell s.1) s.2 = some r) :
    (∀ i, Counted (r.cell.info i)) ∧
      (r.code = 1 → (r.cell.info r.index).complete = true ∧ (r.cell.info r.index).CopiesFit) := by
  have hf := h k.port k.fragID
  obtain ⟨-, -, rfl⟩ | ⟨hkind, hseq, t, ht, rfl⟩ | ⟨hkind, t, ht, rfl⟩ := receiveFragment_cases hr
  · exact ⟨hf, fun hc => absurd hc (by norm_num)⟩
  · simp only [FitsTables, hkind, if_true] at hok
    obtain ⟨hcount, hfit⟩ := (hf _).of_start hkind hseq (hok hseq).2 ht
    refine ⟨put_forall hf hcount, fun hc => ?_⟩
    simpa [FragCell.put] using And.intro (FragInfo.start_complete ht hc) (hfit hc)
  · simp only [FitsTables, hkind, if_false] at hok
    obtain ⟨hcount, hfit⟩ := (hf _).of_keep hok ht
    refine ⟨put_forall hf hcount, fun hc => ?_⟩
    simpa [FragCell.put] using And.intro (FragInfo.keep_complete ht hc) (hfit hc)

lemma receiveFragment_isSome (hok : FitsTables env s k) :
    ∃ r, receiveFragment env k.fragID k.arrival (k.cell s.1) s.2 = some r := by
  rw [FitsTables] at hok
  by_cases hrefused : k.arrival.fragType = .start ∧ 0 < k.arrival.fragSeq
  · exact ⟨_, receiveFragment_refused env _ _ _ hrefused⟩
  · rw [receiveFragment_eq env _ _ _ hrefused]
    simp only [Option.map_eq_some_iff, exists_comm, exists_and_left, exists_eq', and_true]
    split_ifs at hok ⊢ with hkind
    · have hseq : k.arrival.fragSeq = 0 := Nat.eq_zero_of_not_pos fun hs => hrefused ⟨hkind, hs⟩
      exact FragInfo.start_isSome env k.fragID _ s.2 (hok hseq).1
    · exact Counted.keep_admitted k.fragID s.2 hok

lemma Table.counted_step (h : Table.Counted s) (hok : FitsTables env s k)
    (hs : reassembleAt env s k = some (s', r)) : Table.Counted s' :=
  Table.forall_step (fun _ f => Receive.Counted f) h
    (receiveFragment_counted h hok (reassembleAt_cases hs).1).1
    (fun _ => Receive.Counted.of_reset _) hs

lemma Table.counted_initial : Table.Counted (.initial, .fresh) := fun _ _ _ =>
  Receive.Counted.of_reset FragInfo.initial

instance (f : FragInfo) (a : Arrival) : Decidable (f.Overruns a) :=
  inferInstanceAs (Decidable (_ ∧ _))

instance (f : FragInfo) (a : Arrival) : Decidable (f.Completes a) :=
  inferInstanceAs (Decidable (_ ∧ _))

instance (f : FragInfo) (a : Arrival) (mbufLen : Option ℕ) : Decidable (f.Takes a mbufLen) :=
  decidable_of_iff (f.countWith a < 65536 ∧
      ∀ n ∈ mbufLen, f.lenWith a ≤ n → f.Completes a → 4 ≤ f.topLen a)
    ⟨fun h => ⟨h.1, h.2⟩, fun h => ⟨h.count, h.top⟩⟩

instance (f : FragInfo) (a : Arrival) : Decidable (f.Admits a) :=
  decidable_of_iff (a.fragSeq < fragMaxNum ∧ (f.Overruns a ∨ (a.fragLen ≤ fragMaxLength ∧
      (a.fragType = .last → f.recvEnd = false) ∧ f.Takes a (f.pduNode.ptrPdu.map RteMbuf.dataLen))))
    ⟨fun h => ⟨h.1, h.2⟩, fun h => ⟨h.seq, h.stored⟩⟩

instance (env : Dpdk) (s : Table × Pool) (k : Call) : Decidable (FitsTables env s k) := by
  unfold FitsTables
  infer_instance

end Table

end Fengtai.Receive
