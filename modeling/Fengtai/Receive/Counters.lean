import Fengtai.Library.Slots
import Fengtai.Receive.Cases
import Fengtai.Receive.Select

set_option autoImplicit false

/-! What `keep_reassemble_pdu` counts while the MIDDLE and END fragments of a PDU come in, each as
often as it likes. -/

namespace Fengtai.Receive

open Library Library.Words

def seqNums (as : List Arrival) : Finset ℕ := (as.map Arrival.fragSeq).toFinset

def highest (as : List Arrival) : ℕ := (as.map Arrival.fragSeq).foldl max 0

/-- The length of the latest copy of fragment `s`, and 0 when none has come. -/
def latestLen (as : List Arrival) (s : Fin fragMaxNum) : ℕ :=
  as.foldl (fun len a => if a.fragSeq = (s : ℕ) then a.fragLen else len) 0

def endCopies (as : List Arrival) : ℕ := as.countP fun a => a.fragType = .last

structure FragInfo.Accounts (as : List Arrival) (f : FragInfo) : Prop where
  fragRecvNum : f.fragRecvNum = (seqNums as).card
  maxFragSeq : f.maxFragSeq = highest as
  fragLen : ∀ s, f.fragLen s = latestLen as s
  pduRecvLen : f.pduRecvLen = total (latestLen as) - if 0 < endCopies as then 4 else 0

structure Arrival.Continues (stamp : ℕ) (a : Arrival) : Prop where
  kind : a.fragType ≠ .start
  timeStamp : a.timeStamp = stamp
  seq : a.fragSeq < fragMaxNum
  min : 5 ≤ a.fragLen
  max : a.fragLen ≤ fragMaxLength

section Counting

variable {as : List Arrival} {a : Arrival} {stamp : ℕ}

lemma seqNums_snoc (as : List Arrival) (a : Arrival) :
    seqNums (as ++ [a]) = insert a.fragSeq (seqNums as) := by
  rw [seqNums, List.map_append, List.toFinset_append, Finset.union_comm]
  rfl

lemma highest_snoc (as : List Arrival) (a : Arrival) :
    highest (as ++ [a]) = max (highest as) a.fragSeq := by
  simp [highest]

lemma latestLen_snoc (as : List Arrival) (a : Arrival) (h : a.fragSeq < fragMaxNum) :
    latestLen (as ++ [a]) = Function.update (latestLen as) ⟨a.fragSeq, h⟩ a.fragLen := by
  funext s
  simp only [latestLen, List.foldl_append, List.foldl_cons, List.foldl_nil]
  by_cases hs : s = ⟨a.fragSeq, h⟩
  · subst hs
    simp
  · have hne : a.fragSeq ≠ (s : ℕ) := fun hc => hs (Fin.ext hc.symm)
    rw [Function.update_of_ne hs, if_neg hne]
    rfl

lemma endCopies_snoc (as : List Arrival) (a : Arrival) :
    endCopies (as ++ [a]) = endCopies as + if a.fragType = .last then 1 else 0 := by
  simp [endCopies, List.countP_append, List.countP_cons]

lemma seqNums_card_le {as : List Arrival} (h : ∀ a ∈ as, Arrival.Continues stamp a) : (seqNums as).card ≤ 6 := by
  have hsub : seqNums as ⊆ Finset.range fragMaxNum := by
    intro s hs
    obtain ⟨a, ha, rfl⟩ := List.mem_map.mp (List.mem_toFinset.mp hs)
    exact Finset.mem_range.mpr (h a ha).seq
  exact Finset.card_le_card hsub

lemma latestLen_bounds (h : ∀ a ∈ as, Arrival.Continues stamp a) (s : Fin fragMaxNum) :
    latestLen as s ≤ fragMaxLength ∧ (0 < latestLen as s ↔ (s : ℕ) ∈ seqNums as) ∧
      ((s : ℕ) ∈ seqNums as → 5 ≤ latestLen as s) := by
  induction as using List.reverseRecOn with
  | nil => simp [latestLen, seqNums]
  | append_singleton as a ih =>
    obtain ⟨hmax, hpos, hmin⟩ := ih fun x hx => h x (List.mem_append_left _ hx)
    have ha := h a (by simp)
    have hlen := ha.min
    rw [latestLen_snoc as a ha.seq, seqNums_snoc, Finset.mem_insert]
    by_cases hs : s = ⟨a.fragSeq, ha.seq⟩
    · subst hs
      rw [Function.update_self]
      exact ⟨ha.max, iff_of_true (by omega) (.inl rfl), fun _ => ha.min⟩
    · have hne : (s : ℕ) ≠ a.fragSeq := fun hc => hs (Fin.ext hc)
      rw [Function.update_of_ne hs]
      exact ⟨hmax, by rw [hpos, or_iff_right hne], fun hmem => hmin (hmem.resolve_left hne)⟩

lemma total_latestLen (h : ∀ a ∈ as, Arrival.Continues stamp a) :
    total (latestLen as) ≤ 6 * 1518 ∧ (0 < endCopies as → 5 ≤ total (latestLen as)) := by
  constructor
  · have hle := total_le (latestLen as) fun s => (latestLen_bounds h s).1
    rwa [Fintype.card_fin] at hle
  · intro hend
    obtain ⟨a, ha, -⟩ := List.countP_pos_iff.mp hend
    have hcame : a.fragSeq ∈ seqNums as := List.mem_toFinset.mpr (List.mem_map_of_mem ha)
    have hslot := (latestLen_bounds h ⟨a.fragSeq, (h a ha).seq⟩).2.2 hcame
    exact hslot.trans (le_total _ _)

end Counting

/-- What the buffer of a PDU holds after the arrivals: each copy of the END has taken four bytes
off what has been received. -/
structure FragInfo.Keeps (as : List Arrival) (f : FragInfo) : Prop where
  fragRecvNum : f.fragRecvNum = (seqNums as).card
  maxFragSeq : f.maxFragSeq = highest as
  fragLen : f.fragLen = latestLen as
  pduRecvLen : f.pduRecvLen = sub16 (total (latestLen as)) (4 * endCopies as)
  pduLength : f.pduNode.pduLength = 0

lemma FragInfo.countLength_counts {f : FragInfo} (s : Fin fragMaxNum) (isEnd : Bool) (fragLen : ℕ) :
    let g := (f.dropOld s).countLength isEnd fragLen
    g.fragLen = f.fragLen ∧ g.maxFragSeq = f.maxFragSeq ∧
      g.fragRecvNum = (f.dropOld s).fragRecvNum := by
  simp only [FragInfo.dropOld, FragInfo.countLength]
  split_ifs <;> exact ⟨rfl, rfl, rfl⟩

namespace FragInfo.Keeps

variable {as : List Arrival} {a : Arrival} {stamp fragID : ℕ} {f : FragInfo}

lemma of_free (hf : f.Free) : f.Keeps [] := by
  rw [← hf.reset]
  exact ⟨rfl, rfl, rfl, by simp [FragInfo.reset, latestLen, endCopies, total, sub16], rfl⟩

lemma dropOld (h : f.Keeps as) (has : ∀ x ∈ as, Arrival.Continues stamp x)
    (ha : a.Continues stamp) :
    (f.dropOld ⟨a.fragSeq, ha.seq⟩).fragRecvNum + 1 = (seqNums (as ++ [a])).card ∧
      (f.dropOld ⟨a.fragSeq, ha.seq⟩).pduRecvLen =
        sub16 f.pduRecvLen (f.fragLen ⟨a.fragSeq, ha.seq⟩) := by
  have hcard := seqNums_card_le has
  obtain ⟨-, hcame, -⟩ := latestLen_bounds has ⟨a.fragSeq, ha.seq⟩
  rw [← h.fragLen] at hcame
  rw [seqNums_snoc]
  by_cases hseq : a.fragSeq ∈ seqNums as
  · have hpos : 0 < f.fragRecvNum := by
      rw [h.fragRecvNum]
      exact Finset.card_pos.mpr ⟨_, hseq⟩
    have hnum := h.fragRecvNum
    rw [FragInfo.dropOld, if_pos ⟨hcame.mpr hseq, hpos⟩, Finset.insert_eq_of_mem hseq]
    exact ⟨by simp only; rw [sub16_of_le hpos (by omega)]; omega, rfl⟩
  · have hzero : f.fragLen ⟨a.fragSeq, ha.seq⟩ = 0 := by
      by_contra hne
      exact hseq (hcame.mp (Nat.pos_of_ne_zero hne))
    have hlt : f.pduRecvLen < 65536 := by
      rw [h.pduRecvLen]
      exact sub16_lt _ _
    rw [FragInfo.dropOld, hzero, if_neg (by simp), Finset.card_insert_of_notMem hseq, h.fragRecvNum]
    exact ⟨rfl, (sub16_of_le (Nat.zero_le _) hlt).symm⟩

lemma of_settle {now : ℕ} {p : Pool} (h : f.Keeps as) : (f.settle now p).info.Keeps as := by
  obtain ⟨-, hs⟩ | ⟨-, hs⟩ | ⟨-, hs⟩ := f.settle_cases now p <;> rw [hs]
  exacts [h, { h with }, h]

lemma keep (h : f.Keeps as) (has : ∀ x ∈ as, Arrival.Continues stamp x) (ha : a.Continues stamp)
    (fragID : ℕ) (p : Pool) :
    ∃ r, f.keep fragID a p = some r ∧ r.info.Keeps (as ++ [a]) ∧ r.info.timeStamp = stamp := by
  obtain ⟨r, hr⟩ := FragInfo.keep_isSome fragID f p ha.seq ha.max
  refine ⟨r, hr, ?_⟩
  obtain ⟨hseq, ⟨hover, -⟩ | ⟨-, -, rfl⟩⟩ := FragInfo.keep_cases hr
  · rw [FragInfo.overrun, FragInfo.node_countLength, h.pduLength] at hover
    cases hover
  · obtain ⟨hnum, hlen⟩ := h.dropOld has ha
    have hcard := seqNums_card_le (List.forall_mem_append.mpr ⟨has, List.forall_mem_singleton.mpr ha⟩)
    have htotal := total_update (latestLen as) ⟨a.fragSeq, hseq⟩ a.fragLen
    have hrecv := h.pduRecvLen
    obtain ⟨hlens, hmax, hcount⟩ := FragInfo.countLength_counts (f := f) ⟨a.fragSeq, hseq⟩
      (a.fragType = .last) a.fragLen
    rw [h.fragLen] at hlen
    refine ⟨of_settle ⟨?_, ?_, ?_, ?_, ?_⟩, ?_⟩
    · simp only [FragInfo.store, hcount]
      rw [u16_of_lt (by omega), hnum]
    · simp only [FragInfo.store, hmax]
      rw [highest_snoc, h.maxFragSeq]
    · simp only [FragInfo.store, hlens, window_length]
      rw [latestLen_snoc as a hseq, h.fragLen]
    · rw [FragInfo.store, latestLen_snoc as a hseq, endCopies_snoc]
      by_cases hend : a.fragType = .last
      · simp only [FragInfo.countLength, hend, decide_true, if_true, hlen, hrecv, sub16]
        omega
      · simp only [FragInfo.countLength, hend, decide_false, Bool.false_eq_true, if_false, hlen, hrecv,
          sub16, u16]
        omega
    · simp only [FragInfo.store, FragInfo.node_countLength, h.pduLength]
    · rw [FragInfo.settle_timeStamp]
      exact ha.timeStamp

/-- The counts of the buffer are those of the arrivals unless the END has come again, save for
a number of times that takes the 16 bits of `pdu_recv_len` round. -/
lemma accounts_iff (h : f.Keeps as) (has : ∀ x ∈ as, Arrival.Continues stamp x) :
    f.Accounts as ↔ endCopies as = 0 ∨ endCopies as % 16384 = 1 := by
  obtain ⟨hle, hend⟩ := total_latestLen has
  have hrecv := h.pduRecvLen
  rw [sub16] at hrecv
  constructor
  · intro hacc
    have hlen := hacc.pduRecvLen
    split_ifs at hlen <;> omega
  · intro hcopies
    refine ⟨h.fragRecvNum, h.maxFragSeq, fun s => by rw [h.fragLen], ?_⟩
    split_ifs <;> omega

end FragInfo.Keeps

/-- `keep_reassemble_pdu` on one fragment after the other. -/
def keepAll (fragID : ℕ) : FragCell × Pool → List Arrival → Option (FragCell × Pool)
  | s, [] => some s
  | s, a :: as =>
    (keepReassemblePdu fragID a s.1 s.2).bind fun r => keepAll fragID (r.cell, r.pool) as

lemma keepAll_keeps {stamp : ℕ} (fragID : ℕ) {c : FragCell} (p : Pool) {came as : List Arrival}
    (h : (c.info (c.select stamp).1).Keeps came) (hcame : ∀ x ∈ came, Arrival.Continues stamp x)
    (has : ∀ x ∈ as, Arrival.Continues stamp x) :
    ∃ c' p', keepAll fragID (c, p) as = some (c', p') ∧
      (c'.info (c.select stamp).1).Keeps (came ++ as) := by
  induction as generalizing c p came with
  | nil => exact ⟨c, p, rfl, by rwa [List.append_nil]⟩
  | cons a as ih =>
    have ha := has a (List.mem_cons_self ..)
    obtain ⟨r, hr, hkeeps, hstamp⟩ := h.keep hcame ha fragID p
    have hagain := FragCell.select_again (c := c) hstamp
    obtain ⟨c', p', hall, hrest⟩ := ih (c := (c.select stamp).2.set (c.select stamp).1 r.info)
      r.pool (by rwa [hagain, FragCell.set_info])
      (List.forall_mem_append.mpr ⟨hcame, List.forall_mem_singleton.mpr ha⟩)
      fun x hx => has x (List.mem_cons_of_mem _ hx)
    rw [hagain, List.append_assoc, List.singleton_append] at hrest
    refine ⟨c', p', ?_, hrest⟩
    rw [keepAll, keepReassemblePdu, ha.timeStamp]
    simp only [FragCell.select_info, hr, Option.map_some, Option.bind_some]
    exact hall

/-- However the MIDDLE and END fragments of a PDU come into a free buffer, its counters account
for them exactly when the END has not come, or once (or once more than a multiple of 16384). -/
theorem keep_accounts_iff {stamp : ℕ} (fragID : ℕ) {c : FragCell} (p : Pool) {as : List Arrival}
    (hfree : (c.info (c.select stamp).1).Free) (has : ∀ a ∈ as, Arrival.Continues stamp a) :
    ∃ c' p', keepAll fragID (c, p) as = some (c', p') ∧
      ((c'.info (c.select stamp).1).Accounts as ↔ endCopies as = 0 ∨ endCopies as % 16384 = 1) := by
  obtain ⟨c', p', hall, hkeeps⟩ := keepAll_keeps fragID p
    (FragInfo.Keeps.of_free hfree) (by simp) has
  rw [List.nil_append] at hkeeps
  exact ⟨c', p', hall, hkeeps.accounts_iff has⟩

def hundredEnd : Arrival := ⟨.last, fun _ => 0, 8 * 5 + 1, 100, 0, 0, 0, 0⟩

/-- The END of a PDU and the fragments before it, out of order, one of them twice and with another
length. -/
def sampleArrivals : List Arrival :=
  [⟨.middle, fun _ => 0, 8 * 5 + 1, 40, 0, 0, 0, 0⟩, ⟨.middle, fun _ => 0, 8 * 5 + 3, 30, 1, 0, 0, 0⟩,
    ⟨.middle, fun _ => 0, 8 * 5 + 1, 50, 2, 0, 0, 0⟩, ⟨.last, fun _ => 0, 8 * 5 + 4, 20, 3, 0, 0, 0⟩,
    ⟨.middle, fun _ => 0, 8 * 5 + 2, 60, 4, 0, 0, 0⟩]

theorem keep_accounts_repeated : ∃ c' p',
    keepAll 7 (.initial, .fresh) sampleArrivals = some (c', p') ∧
      (c'.info 0).Accounts sampleArrivals ∧ (c'.info 0).fragRecvNum = 4 ∧
      (c'.info 0).pduRecvLen = 156 := by
  have hcontinues : ∀ a ∈ sampleArrivals, Arrival.Continues 5 a := by
    simp only [sampleArrivals, List.forall_mem_cons, List.not_mem_nil, false_implies, implies_true,
      and_true]
    refine ⟨?_, ?_, ?_, ?_, ?_⟩ <;> constructor <;> decide
  have hfree : (FragCell.initial.info (FragCell.initial.select 5).1).Free := FragInfo.free_initial
  obtain ⟨c', p', hall, hiff⟩ := keep_accounts_iff 7 .fresh hfree hcontinues
  have hacc : (c'.info 0).Accounts sampleArrivals := hiff.mpr (.inr (by decide))
  refine ⟨c', p', hall, hacc, ?_, ?_⟩
  · rw [hacc.fragRecvNum]
    decide
  · rw [hacc.pduRecvLen]
    decide

/-- The same END twice: 92 bytes are counted instead of 96. -/
theorem second_end_miscounted :
    (keepAll 7 (.initial, .fresh) [hundredEnd, hundredEnd]).map (fun s => (s.1.info 0).pduRecvLen) =
        some 92 ∧
      ¬ ∃ c' p', keepAll 7 (.initial, .fresh) [hundredEnd, hundredEnd] = some (c', p') ∧
        (c'.info 0).Accounts [hundredEnd, hundredEnd] := by
  have hlen : (keepAll 7 (.initial, .fresh) [hundredEnd, hundredEnd]).map
      (fun s => (s.1.info 0).pduRecvLen) = some 92 := by decide +kernel
  refine ⟨hlen, ?_⟩
  rintro ⟨c', p', hall, hacc⟩
  have hcount := hacc.pduRecvLen
  rw [hall, Option.map_some, Option.some.injEq] at hlen
  rw [hlen] at hcount
  exact absurd hcount (by decide)

end Fengtai.Receive
