import Fengtai.Library.Pieces
import Fengtai.Receive.Select

set_option autoImplicit false

/-! A PDU cut into fragments, and what a reassembly buffer holds after some of
them, in any order and with repeated MIDDLE and END fragments. -/

namespace Fengtai.Receive

open Library Library.Words Crc Finset

/-- A PDU cut as a sender may cut it: a START, MIDDLEs, and an END that carries the CRC. -/
structure SplitPdu extends Pieces UInt8 where
  stamp : ℕ
  protocolType : ℕ
  stamp_lt : stamp < 8192
  two_le : 2 ≤ count
  le_max : count ≤ fragMaxNum
  piece_pos : ∀ i, i + 1 < count → 1 ≤ (piece i).length
  piece_le : ∀ i, i + 1 < count → (piece i).length ≤ fragMaxLength
  last_le : (piece (count - 1)).length + 4 ≤ fragMaxLength
  room : whole.length + 4 ≤ mbufTailroom

namespace SplitPdu

variable (P : SplitPdu)

def fragBytes (i : ℕ) : List UInt8 :=
  if i + 1 = P.count then P.piece i ++ crcBytes P.whole else P.piece i

def fragType (i : ℕ) : FragType :=
  if i = 0 then .start else if i + 1 = P.count then .last else .middle

/-- An arrival of fragment `i`; only the START's header tells the length and the protocol. -/
structure IsFragment (i : ℕ) (a : Arrival) : Prop where
  kind : a.fragType = P.fragType i
  len : a.fragLen = (P.fragBytes i).length
  data : Holds a.datafield 0 (P.fragBytes i)
  seq : a.timestampSeq = P.stamp * 8 + i
  total : i = 0 → sub16 a.totalLength a.headerLength = P.whole.length
  protocol : i = 0 → a.protocolType = P.protocolType

/-- One more when fragment `i` is the END and has come before. -/
def repeats (S : Finset ℕ) (i : ℕ) : ℕ := if i + 1 = P.count ∧ i ∈ S then 1 else 0

/-- The recorded length with the fragments in `S` there, when each of `k` repeats of the END
has taken off four bytes too many. -/
def recvLen (S : Finset ℕ) (k : ℕ) : ℕ := sub16 (P.received S) (4 * k)

def reserved (env : Dpdk) (n : ℕ) : RteMbuf :=
  ⟨.allocated n, env.room n, P.whole.length, P.protocolType⟩

def delivered (env : Dpdk) (n : ℕ) : RteMbuf :=
  { P.reserved env n with data := overwrite (env.room n) P.whole }

@[simp] lemma delivered_bytes (env : Dpdk) (n : ℕ) : (P.delivered env n).bytes = P.whole :=
  holds_overwrite _ _

@[simp] lemma delivered_protocolType (env : Dpdk) (n : ℕ) :
    (P.delivered env n).protocolType = P.protocolType := rfl

variable {P}

lemma fragBytes_length (i : ℕ) :
    (P.fragBytes i).length = (P.piece i).length + if i + 1 = P.count then 4 else 0 := by
  rw [fragBytes]
  split <;> simp

lemma fragBytes_pos {i : ℕ} (hi : i < P.count) : 0 < (P.fragBytes i).length := by
  rw [fragBytes_length]
  split
  · omega
  · have := P.piece_pos i (by omega)
    omega

lemma fragBytes_le {i : ℕ} (hi : i < P.count) : (P.fragBytes i).length ≤ fragMaxLength := by
  rw [fragBytes_length]
  split
  · have := P.last_le
    rwa [show i = P.count - 1 by omega]
  · have := P.piece_le i (by omega)
    omega

lemma whole_pos : 0 < P.whole.length := by
  have h := P.received_le (S := {0}) (by have := P.two_le; simp; omega)
  have h₀ := P.piece_pos 0 (by have := P.two_le; omega)
  simp only [Pieces.received, sum_singleton] at h
  omega

lemma whole_lt : P.whole.length < 8061 := by
  have := P.room
  simp only [mbufTailroom] at this
  omega

lemma received_lt {S : Finset ℕ} (h : S ⊆ range P.count) : P.received S < 8061 :=
  (P.received_le h).trans_lt P.whole_lt

lemma recvLen_zero {S : Finset ℕ} (h : S ⊆ range P.count) : P.recvLen S 0 = P.received S := by
  have := received_lt h
  exact sub16_of_le (Nat.zero_le _) (by omega)

namespace IsFragment

variable {i : ℕ} {a : Arrival}

lemma timeStamp_eq (h : P.IsFragment i a) (hi : i < P.count) : a.timeStamp = P.stamp := by
  have hn : P.count ≤ 6 := P.le_max
  rw [Arrival.timeStamp, h.seq]
  omega

lemma fragSeq_eq (h : P.IsFragment i a) (hi : i < P.count) : a.fragSeq = i := by
  have hn : P.count ≤ 6 := P.le_max
  rw [Arrival.fragSeq, h.seq]
  omega

lemma window_eq (h : P.IsFragment i a) : window a.datafield 0 a.fragLen = P.fragBytes i := by
  rw [h.len]
  exact h.data

lemma isStart (h : P.IsFragment i a) : a.fragType = .start ↔ i = 0 := by
  rw [h.kind, fragType]
  split
  · simpa
  · split <;> simpa

lemma isLast (h : P.IsFragment i a) (h₀ : i ≠ 0) : a.fragType = .last ↔ i + 1 = P.count := by
  rw [h.kind, fragType, if_neg h₀]
  split <;> simpa

end IsFragment

def arrival (P : SplitPdu) (i : ℕ) : Arrival where
  fragType := P.fragType i
  datafield := overwrite (fun _ => 0) (P.fragBytes i)
  timestampSeq := P.stamp * 8 + i
  fragLen := (P.fragBytes i).length
  now := 0
  totalLength := P.whole.length + 2
  headerLength := 2
  protocolType := P.protocolType

lemma arrival_isFragment (i : ℕ) : P.IsFragment i (P.arrival i) where
  kind := rfl
  len := rfl
  data := holds_overwrite _ _
  seq := rfl
  total _ := by
    have := P.whole_lt
    simp only [arrival]
    rw [sub16_of_le (by omega) (by omega)]
    omega
  protocol _ := rfl

def twoParts (stamp protocolType : ℕ) (xs ys : List UInt8) (hstamp : stamp < 8192)
    (hx : 1 ≤ xs.length) (hx' : xs.length ≤ fragMaxLength)
    (hy : ys.length + 4 ≤ fragMaxLength) : SplitPdu where
  whole := xs ++ ys
  count := 2
  piece i := if i = 0 then xs else ys
  join := by simp [List.range_succ]
  stamp := stamp
  protocolType := protocolType
  stamp_lt := hstamp
  two_le := le_rfl
  le_max := by decide
  piece_pos i hi := by rwa [if_pos (by omega)]
  piece_le i hi := by rwa [if_pos (by omega)]
  last_le := hy
  room := by
    simp only [fragMaxLength] at hx' hy
    simp only [List.length_append, mbufTailroom]
    omega

end SplitPdu

/-- The buffer holds the fragments in `S` of the PDU, after `k` repeats of the END; with the
START it also holds the mbuf `m`. -/
structure Holding (P : SplitPdu) (m : RteMbuf) (S : Finset ℕ) (k : ℕ) (f : FragInfo) : Prop where
  within : S ⊆ range P.count
  stamp : f.timeStamp = if S = ∅ then 0 else P.stamp
  pduType : f.pduType = ipPacket ∨ f.pduType = ctrlmsgFwd ∨ f.pduType = ctrlmsgRtn
  maxSeq : f.maxFragSeq = S.sup id
  recvNum : f.fragRecvNum = S.card
  recvLen : f.pduRecvLen = P.recvLen S k
  recvEnd : f.recvEnd = decide (P.count - 1 ∈ S)
  fragLen : ∀ s : Fin fragMaxNum, f.fragLen s = if s.val ∈ S then (P.fragBytes s).length else 0
  data : ∀ s : Fin fragMaxNum, s.val ∈ S → f.dataAddr s = P.fragBytes s
  node : f.pduNode = if 0 ∈ S then ⟨P.whole.length, some m⟩ else ⟨0, none⟩

namespace Holding

variable {P : SplitPdu} {m : RteMbuf} {k : ℕ} {S : Finset ℕ} {f : FragInfo}

lemma of_free (h : f.Free) : Holding P m ∅ 0 f := by
  obtain ⟨hr, ht⟩ := h
  rw [← hr]
  exact
    { within := by simp
      stamp := rfl
      pduType := ht
      maxSeq := rfl
      recvNum := rfl
      recvLen := by simp [SplitPdu.recvLen, sub16, FragInfo.reset]
      recvEnd := by simp [FragInfo.reset]
      fragLen := by simp [FragInfo.reset]
      data := by simp
      node := rfl }

lemma free_reset (h : Holding P m S k f) : f.reset.Free := ⟨rfl, h.pduType⟩

lemma card_le (h : Holding P m S k f) : S.card ≤ fragMaxNum := by
  have hc := card_le_card h.within
  have := P.le_max
  rw [card_range] at hc
  omega

lemma of_clock (h : Holding P m S k f) (now : ℕ) : Holding P m S k { f with t0Us := now } :=
  { h with }

lemma of_unstarted (h : Holding P m S k f) (h₀ : 0 ∉ S) (m' : RteMbuf) : Holding P m' S k f :=
  { h with node := by rw [h.node, if_neg h₀, if_neg h₀] }

lemma present_iff (h : Holding P m S k f) {q : ℕ} (hq : q < P.count) {s : Fin fragMaxNum}
    (hs : s.val = q) : (0 < f.fragLen s ∧ 0 < f.fragRecvNum) ↔ q ∈ S := by
  rw [h.fragLen, h.recvNum, hs]
  have hp := P.fragBytes_pos hq
  constructor
  · rintro ⟨h₁, -⟩
    by_contra hn
    simp [hn] at h₁
  · intro hm
    simp only [hm, if_true]
    exact ⟨hp, card_pos.mpr ⟨q, hm⟩⟩

end Holding

namespace SplitPdu

variable {P : SplitPdu} {S : Finset ℕ} {q : ℕ}

lemma recvLen_insert (k : ℕ) (hq : q ∉ S) :
    P.recvLen (insert q S) (k + P.repeats S q) =
      if q + 1 = P.count then sub16 (P.recvLen S k + (P.fragBytes q).length) 4
      else u16 (P.recvLen S k + (P.fragBytes q).length) := by
  simp only [recvLen, P.received_insert hq, fragBytes_length, repeats, hq, and_false, if_false]
  split
  · simp only [sub16]
    omega
  · simp only [sub16, u16]
    omega

lemma recvLen_again (k : ℕ) (hq : q ∈ S) :
    P.recvLen (insert q S) (k + P.repeats S q) =
      if q + 1 = P.count then
        sub16 (sub16 (P.recvLen S k) (P.fragBytes q).length + (P.fragBytes q).length) 4
      else u16 (sub16 (P.recvLen S k) (P.fragBytes q).length + (P.fragBytes q).length) := by
  rw [insert_eq_of_mem hq]
  simp only [recvLen, repeats, hq, and_true]
  split
  · simp only [sub16]
    omega
  · simp only [sub16, u16]
    omega

end SplitPdu

namespace Holding

variable {P : SplitPdu} {m : RteMbuf} {k : ℕ} {S : Finset ℕ} {f : FragInfo}

lemma counted (h : Holding P m S k f) {q : ℕ} (hq : q < P.count) {s : Fin fragMaxNum}
    (hs : s.val = q) :
    (f.dropOld s).countLength (q + 1 = P.count) (P.fragBytes q).length =
      { f with
        fragRecvNum := (S.erase q).card
        pduRecvLen := P.recvLen (insert q S) (k + P.repeats S q)
        recvEnd := decide (P.count - 1 ∈ insert q S) } := by
  have hcard : S.card ≤ 6 := h.card_le
  have hold := h.present_iff hq hs
  have hend : decide (P.count - 1 ∈ insert q S) = (decide (q + 1 = P.count) || f.recvEnd) := by
    rw [h.recvEnd, ← Bool.decide_or, decide_eq_decide, mem_insert]
    exact or_congr_left (by omega)
  rw [hend]
  by_cases hm : q ∈ S
  · have hd : f.dropOld s = { f with
        fragRecvNum := (S.erase q).card
        pduRecvLen := sub16 (P.recvLen S k) (P.fragBytes q).length } := by
      have hpos : 0 < S.card := card_pos.mpr ⟨q, hm⟩
      rw [FragInfo.dropOld, if_pos (hold.mpr hm), h.recvNum, h.recvLen, h.fragLen s, hs, if_pos hm,
        sub16_of_le hpos (by omega), card_erase_of_mem hm]
    rw [hd, P.recvLen_again k hm]
    by_cases hl : q + 1 = P.count <;> simp [FragInfo.countLength, hl]
  · have hd : f.dropOld s = f := if_neg fun hc => hm (hold.mp hc)
    rw [hd, P.recvLen_insert k hm, erase_eq_of_notMem hm, ← h.recvNum, ← h.recvLen]
    by_cases hl : q + 1 = P.count <;> simp [FragInfo.countLength, hl]

lemma stored (h : Holding P m S k f) (k' : ℕ) {q : ℕ} (hq : q < P.count) {s : Fin fragMaxNum}
    (hs : s.val = q) {node : DePduNode} {pduType : ℕ} (fragID protocolType : ℕ)
    (ht : pduType = ipPacket ∨ pduType = ctrlmsgFwd ∨ pduType = ctrlmsgRtn)
    (hn : node = if 0 ∈ insert q S then ⟨P.whole.length, some m⟩ else ⟨0, none⟩) :
    Holding P m (insert q S) k' (FragInfo.store
      { f with
        fragRecvNum := (S.erase q).card
        pduRecvLen := P.recvLen (insert q S) k'
        recvEnd := decide (P.count - 1 ∈ insert q S)
        pduType := pduType
        pduNode := node
        protocolType := protocolType } s fragID P.stamp (P.fragBytes q)) where
  within := insert_subset (mem_range.mpr hq) h.within
  stamp := by simp [FragInfo.store]
  pduType := ht
  maxSeq := by simp [FragInfo.store, h.maxSeq, hs, max_comm]
  recvNum := by
    have hcard : S.card ≤ 6 := h.card_le
    have hc := card_erase_le (s := S) (a := q)
    have hi : insert q (S.erase q) = insert q S := by grind
    have hu : u16 ((S.erase q).card + 1) = (S.erase q).card + 1 := u16_of_lt (by omega)
    rw [← hi, card_insert_of_notMem (notMem_erase q S)]
    exact hu
  recvLen := rfl
  recvEnd := rfl
  fragLen := by
    intro t
    by_cases hts : t = s
    · simp [FragInfo.store, hts, hs]
    · have htq : t.val ≠ q := fun hc => hts (Fin.ext (hc.trans hs.symm))
      simp [FragInfo.store, hts, htq, h.fragLen]
  data := by
    intro t ht
    by_cases hts : t = s
    · simp [FragInfo.store, hts, hs]
    · have htq : t.val ≠ q := fun hc => hts (Fin.ext (hc.trans hs.symm))
      have htS : t.val ∈ S := by simpa [htq] using ht
      simp [FragInfo.store, hts, h.data t htS]
  node := hn

lemma keep (h : Holding P m S k f) {q : ℕ} (hq : q < P.count) (h₀ : q ≠ 0) {a : Arrival}
    (ha : P.IsFragment q a) (fragID : ℕ) (p : Pool) :
    (0 ∈ S ∧ P.whole.length < P.recvLen (insert q S) (k + P.repeats S q) ∧
      f.keep fragID a p = some ⟨-1, f.reset, p.free m.addr⟩) ∨
    (¬(0 ∈ S ∧ P.whole.length < P.recvLen (insert q S) (k + P.repeats S q)) ∧
      ∃ g, Holding P m (insert q S) (k + P.repeats S q) g ∧
        f.keep fragID a p = some (g.settle a.now p)) := by
  have hmax : q < fragMaxNum := hq.trans_le P.le_max
  have hseq := ha.fragSeq_eq hq
  have hs : a.fragSeq < fragMaxNum := hseq.symm ▸ hmax
  have hcount := h.counted hq (s := ⟨a.fragSeq, hs⟩) hseq
  have hlast : decide (a.fragType = .last) = decide (q + 1 = P.count) := by
    rw [decide_eq_decide, ha.isLast h₀]
  have hwin := ha.window_eq
  rw [FragInfo.keep, dif_pos hs]
  simp only [hlast, hwin, ha.timeStamp_eq hq]
  rw [ha.len, hcount]
  have hover : FragInfo.overrun { f with
      fragRecvNum := (S.erase q).card
      pduRecvLen := P.recvLen (insert q S) (k + P.repeats S q)
      recvEnd := decide (P.count - 1 ∈ insert q S) } =
        decide (0 ∈ S ∧ P.whole.length < P.recvLen (insert q S) (k + P.repeats S q)) := by
    have hpos := P.whole_pos
    by_cases hz : 0 ∈ S <;> simp [FragInfo.overrun, h.node, hz, hpos]
  rw [hover]
  by_cases hc : 0 ∈ S ∧ P.whole.length < P.recvLen (insert q S) (k + P.repeats S q)
  · refine .inl ⟨hc.1, hc.2, ?_⟩
    simp [hc, h.node, FragInfo.reset, Pool.freeHeld]
  · have hnode : f.pduNode = if 0 ∈ insert q S then ⟨P.whole.length, some m⟩ else ⟨0, none⟩ := by
      simp [h.node, Ne.symm h₀]
    refine .inr ⟨hc, _, h.stored _ hq (s := ⟨a.fragSeq, hs⟩) hseq fragID f.protocolType h.pduType
      hnode, ?_⟩
    simp [hc, P.fragBytes_le hq]

lemma start (h : Holding P m S k f) (h₀ : 0 ∉ S) {a : Arrival} (ha : P.IsFragment 0 a)
    {env : Dpdk} (fragID : ℕ) {p : Pool} (halloc : env.allocates p.allocs = true) :
    ∃ g, Holding P (P.reserved env p.allocs) (insert 0 S) k g ∧
      f.start env fragID a p = some (g.settle a.now { p with allocs := p.allocs + 1 }) := by
  have hq : 0 < P.count := by have := P.two_le; omega
  have hdisc : discardReceived a.timeStamp f p = (f, p) := by
    have hlen : f.fragLen 0 = 0 := by rw [h.fragLen]; exact if_neg h₀
    by_cases hS : S = ∅
    · simp [discardReceived, h.recvNum, hS]
    · simp [discardReceived, h.stamp, hS, ha.timeStamp_eq hq, hlen]
  have hnum : f.fragRecvNum = (S.erase 0).card := by rw [h.recvNum, erase_eq_of_notMem h₀]
  have hlen : u16 (f.pduRecvLen + (P.fragBytes 0).length) = P.recvLen (insert 0 S) k := by
    have hr := P.recvLen_insert k h₀
    have h₁ : 0 + 1 ≠ P.count := by have := P.two_le; omega
    rw [if_neg h₁] at hr
    simpa [SplitPdu.repeats, h₀, h.recvLen] using hr.symm
  have hend : f.recvEnd = decide (P.count - 1 ∈ insert 0 S) := by
    have := P.two_le
    rw [h.recvEnd, decide_eq_decide, mem_insert, or_iff_right (by omega)]
  have htype : startPduType a.protocolType a.datafield f.pduType = ipPacket ∨
      startPduType a.protocolType a.datafield f.pduType = ctrlmsgFwd ∨
      startPduType a.protocolType a.datafield f.pduType = ctrlmsgRtn := by
    have := h.pduType
    rw [startPduType]
    split_ifs <;> simp_all
  have hnode : (⟨P.whole.length, some (P.reserved env p.allocs)⟩ : DePduNode) =
      if 0 ∈ insert 0 S then ⟨P.whole.length, some (P.reserved env p.allocs)⟩ else ⟨0, none⟩ := by
    simp
  have hg := (h.of_unstarted h₀ (P.reserved env p.allocs)).stored k hq (s := 0) rfl fragID
    a.protocolType htype hnode
  refine ⟨_, hg, ?_⟩
  rw [FragInfo.start, hdisc]
  have hwin : window a.datafield 0 (P.fragBytes 0).length = P.fragBytes 0 := ha.data
  simp only [FragInfo.storeStart, ha.timeStamp_eq hq, ha.total rfl, ha.len, hwin,
    not_lt.mpr (P.fragBytes_le hq), if_false, Pool.alloc, halloc, if_true, not_lt.mpr P.room]
  simp only [FragInfo.store, hlen, hnum, hend, ha.protocol rfl, SplitPdu.reserved]

lemma complete_iff (h : Holding P m S k f) : f.complete = true ↔ S = range P.count := by
  have hn := P.two_le
  rw [FragInfo.complete, h.recvEnd, h.recvNum, h.maxSeq, Bool.and_eq_true, decide_eq_true_eq,
    beq_iff_eq, full_iff h.within]
  exact and_iff_right (by omega)

lemma settle_wait (h : Holding P m S k f) (hS : S ≠ range P.count) (now : ℕ) (p : Pool) :
    ∃ g, Holding P m S k g ∧ f.settle now p = ⟨0, g, p⟩ := by
  have hc : f.complete = false := by
    rw [← Bool.not_eq_true, h.complete_iff]
    exact hS
  rw [FragInfo.settle, if_neg (by simp [hc])]
  by_cases h₁ : f.fragRecvNum = 1
  · exact ⟨_, h.of_clock now, if_pos h₁⟩
  · exact ⟨f, h, if_neg h₁⟩

lemma settle_full (h : Holding P m (range P.count) k f) (now : ℕ) (p : Pool) :
    f.settle now p = ⟨1, f, p⟩ := by
  rw [FragInfo.settle, if_pos (h.complete_iff.mpr rfl)]

lemma slot (h : Holding P m (range P.count) k f) {i : ℕ} (hi : i < P.count) :
    ∃ hm : i < fragMaxNum, f.fragLen ⟨i, hm⟩ = (P.fragBytes i).length ∧
      f.dataAddr ⟨i, hm⟩ = P.fragBytes i := by
  have hmem := mem_range.mpr hi
  refine ⟨hi.trans_le P.le_max, ?_, h.data ⟨i, _⟩ hmem⟩
  rw [h.fragLen]
  exact if_pos hmem

lemma copyFrom (h : Holding P m (range P.count) k f) (j i : ℕ) (hj : i + (j + 1) = P.count) :
    f.copyFrom i (j + 1) = some (P.onward i (j + 1), crc32LookupTable P.whole) := by
  induction j generalizing i with
  | zero =>
    obtain ⟨hi, hlen, hdata⟩ := h.slot (i := i) (by omega)
    have hb : P.fragBytes i = P.piece i ++ crcBytes P.whole := if_pos (by omega)
    have hl : (P.fragBytes i).length - 4 = (P.piece i).length := by simp [hb]
    have h4 : ¬(P.fragBytes i).length < 4 := by simp [hb]
    rw [FragInfo.copyFrom, dif_pos hi]
    simp only [if_true, hlen, hdata, h4, if_false, hl]
    rw [hb, List.take_left, List.drop_left, List.take_of_length_le (by simp), beValue_crcBytes]
    simp [Pieces.onward]
  | succ j ih =>
    obtain ⟨hi, hlen, hdata⟩ := h.slot (i := i) (by omega)
    have hb : P.fragBytes i = P.piece i := if_neg (by omega)
    have hnext := ih (i + 1) (by omega)
    rw [FragInfo.copyFrom, dif_pos hi]
    simp only [Nat.succ_ne_zero, if_false, hlen, hdata, hb, hnext, Option.map_some, List.take_length]
    rw [P.onward_succ i (j + 1)]

lemma finish {n : ℕ} {env : Dpdk} (h : Holding P (P.reserved env n) (range P.count) k f)
    (p : Pool) :
    finishReassemblePdu env f p =
      if P.whole.length < P.recvLen (range P.count) k then
        some ⟨-1, f.reset, p.free (.allocated n)⟩
      else some ⟨0, f.reset, p.enqueueEncapRing env (P.delivered env n) 0⟩ := by
  have hn := P.two_le
  have h₀ : 0 ∈ range P.count := mem_range.mpr (by omega)
  have hnode := h.node
  rw [if_pos h₀] at hnode
  have htype : ¬(f.pduType ≠ ipPacket ∧ f.pduType ≠ ctrlmsgFwd ∧ f.pduType ≠ ctrlmsgRtn) := by
    have := h.pduType
    tauto
  have hcopy : f.copyFrom 0 f.fragRecvNum = some (P.whole, crc32LookupTable P.whole) := by
    obtain ⟨j, hj⟩ : ∃ j, P.count = j + 1 := ⟨P.count - 1, by omega⟩
    have hall := P.onward_all
    have hloop := h.copyFrom j 0 (by omega)
    rw [← hj] at hloop
    rw [h.recvNum, card_range, hloop, hall]
  rw [finishReassemblePdu, hnode]
  simp only [h.recvLen, hcopy, htype, if_false, SplitPdu.reserved, SplitPdu.delivered, ne_eq,
    not_true_eq_false, if_true]

end Holding

end Fengtai.Receive
