import Fengtai.Receive.Reassembly
import Fengtai.Receive.Steps

set_option autoImplicit false

/-! Which PDUs `fragment_timeout` gives up: it looks at the head of each index list alone. -/

namespace Fengtai.Receive

open Library.Words Library.Runs Library.Custody

def FragInfo.Stale (tUs : ℕ) (f : FragInfo) : Prop :=
  0 < f.t0Us ∧ fragTimeoutThresholdUs ≤ elapsedUs tUs f.t0Us

instance (tUs : ℕ) (f : FragInfo) : Decidable (f.Stale tUs) :=
  inferInstanceAs (Decidable (_ ∧ _))

def Receiver.buffer (r : Receiver) (x : Place) : FragInfo := (r.table x.1 x.2.1).info x.2.2

def Receiver.Expired (tUs : ℕ) (r : Receiver) (x : Place) : Prop :=
  x.1 < maxDeviceNum ∧ x.2.1 < maxFragId ∧ (r.buffer x).Stale tUs

instance (tUs : ℕ) (r : Receiver) (x : Place) : Decidable (r.Expired tUs x) :=
  inferInstanceAs (Decidable (_ ∧ _ ∧ _))

/-- `r'` is left of `r` when the old PDUs have been given up, and nothing else has been done. -/
structure ExpiresExactly (tUs : ℕ) (r r' : Receiver) : Prop where
  expired : ∀ x, r.Expired tUs x → r'.buffer x = (r.buffer x).reset
  kept : ∀ x, ¬ r.Expired tUs x → r'.buffer x = r.buffer x
  freed : ∀ x a, r.Expired tUs x → (r.buffer x).heldAddr = some a → r'.pool.freed.count a = 1
  freedOnly : ∀ a, r'.pool.freed.count a ≠ r.pool.freed.count a →
    ∃ x, r.Expired tUs x ∧ (r.buffer x).heldAddr = some a
  lists : ∀ port fragID i, (r'.table port fragID).indexList.order.count i = 1

section Invariants

variable {env : Dpdk} {fragID : ℕ} {a : Arrival} {p : Pool} {s s' : RecvState}

lemma reassemble_forall {Q : FragInfo → Prop} (hreset : ∀ f : FragInfo, Q f → Q f.reset)
    (hstart : ∀ f r, Q f → FragInfo.start env fragID a f p = some r → Q r.info)
    (hkeep : ∀ f r, Q f → FragInfo.keep fragID a f p = some r → Q r.info)
    {c : FragCell} {t : FragCell × Pool} {o : Outcome} (hc : ∀ i, Q (c.info i))
    (h : reassemble env fragID (c, p) a = some (t, o)) (i : Fin fragBufferNum) : Q (t.1.info i) := by
  obtain ⟨r, hr, hfin⟩ := Option.bind_eq_some_iff.mp h
  have hcell : ∀ i, Q (r.cell.info i) := by
    obtain ⟨-, -, rfl⟩ | ⟨-, -, u, hu, rfl⟩ | ⟨-, u, hu, rfl⟩ := receiveFragment_cases hr
    · exact hc
    · exact put_forall hc (hstart _ u (hc _) hu)
    · exact put_forall hc (hkeep _ u (hc _) hu)
  simp only [Reassembled.finish] at hfin
  split_ifs at hfin
  · obtain ⟨d, hd, hs⟩ := Option.map_eq_some_iff.mp hfin
    obtain ⟨rfl, -⟩ := Prod.mk.inj hs
    by_cases hi : i = r.index
    · rw [hi, FragCell.set_info, (finishReassemblePdu_cases hd).1]
      exact hreset _ (hcell _)
    · rw [FragCell.set_info_ne _ hi]
      exact hcell i
  · obtain ⟨rfl, -⟩ := Prod.mk.inj (Option.some.inj hfin)
    exact hcell i

lemma timeout_forall {Q : FragInfo → Prop} (hreset : ∀ f : FragInfo, Q f → Q f.reset)
    (hflag : ∀ f : FragInfo, Q f → Q { f with timeoutFlag := false }) (tUs : ℕ) {c : FragCell} {p : Pool}
    (hc : ∀ i, Q (c.info i)) (i : Fin fragBufferNum) : Q ((FragCell.timeout tUs (c, p)).1.info i) := by
  simp only [FragCell.timeout]
  by_cases hi : i = c.indexList.header
  · subst hi
    split_ifs <;> rw [FragCell.set_info]
    · exact hreset _ (hc _)
    · exact hflag _ (hc _)
  · split_ifs <;> rw [FragCell.set_info_ne _ hi]
    · exact hc i
    · exact hc i

lemma RecvState.forall_micro {Q : FragInfo → Prop} (hreset : ∀ f : FragInfo, Q f → Q f.reset)
    (hflag : ∀ f : FragInfo, Q f → Q { f with timeoutFlag := false })
    (hstart : ∀ fragID a f p r, Q f → FragInfo.start env fragID a f p = some r → Q r.info)
    (hkeep : ∀ fragID a f p r, Q f → FragInfo.keep fragID a f p = some r → Q r.info)
    (h : ∀ port fragID i, Q ((s.receiver.table port fragID).info i))
    (hs : RecvState.Micro env s s') (port fragID : ℕ) (i : Fin fragBufferNum) :
    Q ((s'.receiver.table port fragID).info i) := by
  cases hs with
  | hear => exact h port fragID i
  | single => exact h port fragID i
  | frame => exact h port fragID i
  | @fragment port' fragID' a t o ht =>
    simp only [Table.set_cases]
    split_ifs
    · exact reassemble_forall hreset (fun f r => hstart _ _ f _ r) (fun f r => hkeep _ _ f _ r)
        (h port' fragID') ht i
    · exact h port fragID i
  | timeout tUs port' fragID' =>
    simp only [Receiver.timeoutAt, Table.set_cases]
    split_ifs
    · exact timeout_forall hreset hflag tUs (h port' fragID') i
    · exact h port fragID i

/-- `timeout_flag` is only ever set between two lines of `fragment_timeout`. -/
def RecvState.Unflagged (s : RecvState) : Prop :=
  ∀ port fragID i, ((s.receiver.table port fragID).info i).timeoutFlag = false

lemma settle_flag (f : FragInfo) (now : ℕ) (p : Pool) :
    (f.settle now p).info.timeoutFlag = f.timeoutFlag := by
  obtain ⟨-, hs⟩ | ⟨-, hs⟩ | ⟨-, hs⟩ := f.settle_cases now p <;> rw [hs]

lemma start_flag {f : FragInfo} {r : Received} (h : f.timeoutFlag = false)
    (hr : f.start env fragID a p = some r) : r.info.timeoutFlag = false := by
  obtain ⟨g, q, hd, -, hr⟩ := FragInfo.start_cases hr
  have hg : g.timeoutFlag = false := by
    simp only [discardReceived] at hd
    split_ifs at hd <;> obtain ⟨rfl, -⟩ := Prod.mk.inj hd <;> first | exact h | rfl
  obtain ⟨-, rfl⟩ | ⟨-, -, rfl⟩ | ⟨-, -, rfl⟩ := hr
  · exact hg
  · rfl
  · rw [settle_flag]
    exact hg

lemma keep_flag {f : FragInfo} {r : Received} (h : f.timeoutFlag = false)
    (hr : f.keep fragID a p = some r) : r.info.timeoutFlag = false := by
  obtain ⟨_, ⟨-, rfl⟩ | ⟨-, -, rfl⟩⟩ := FragInfo.keep_cases hr
  · rfl
  · rw [settle_flag]
    simp only [FragInfo.store, FragInfo.dropOld, FragInfo.countLength]
    split_ifs <;> exact h

lemma RecvState.Unflagged.micro (h : s.Unflagged) (hs : RecvState.Micro env s s') :
    s'.Unflagged :=
  RecvState.forall_micro (fun _ _ => rfl) (fun _ _ => rfl) (fun _ _ _ _ _ => start_flag)
    (fun _ _ _ _ _ => keep_flag) h hs

def RecvState.Safe (env : Dpdk) (s : RecvState) : Prop :=
  (ledger env s.received s.receiver.table.held s.receiver.pool).Safe

lemma RecvState.Safe.micro (h : s.Safe env) (hs : RecvState.Micro env s s') : s'.Safe env :=
  hs.keeps Ledger.Safe.rules Ledger.Safe.forgets h

end Invariants

/-- A cell after `fragment_timeout` has looked at it. -/
def FragCell.expire (tUs : ℕ) (c : FragCell) : FragCell :=
  if (c.info c.indexList.header).Stale tUs then
    { c with indexList := c.indexList.rotate }.set c.indexList.header (c.info c.indexList.header).reset
  else c

def FragCell.released (tUs : ℕ) (c : FragCell) : Option MbufAddr :=
  if (c.info c.indexList.header).Stale tUs then (c.info c.indexList.header).heldAddr else none

def searched : List (ℕ × ℕ) := List.product (List.range maxDeviceNum) (List.range maxFragId)

section Sweep

variable {tUs : ℕ} {r : Receiver} {cells : List (ℕ × ℕ)}

lemma mem_searched {x : ℕ × ℕ} : x ∈ searched ↔ x.1 < maxDeviceNum ∧ x.2 < maxFragId := by
  obtain ⟨port, fragID⟩ := x
  simp [searched]

lemma searched_nodup : searched.Nodup := (List.nodup_range).product List.nodup_range

lemma FragCell.timeout_eq (tUs : ℕ) {c : FragCell} (p : Pool)
    (h : (c.info c.indexList.header).timeoutFlag = false) :
    (FragCell.timeout tUs (c, p)).1 = c.expire tUs ∧
      (FragCell.timeout tUs (c, p)).2.freed = p.freed ++ (c.released tUs).toList := by
  by_cases hs : (c.info c.indexList.header).Stale tUs
  · have hold : 0 < (c.info c.indexList.header).t0Us ∧
        fragTimeoutThresholdUs ≤ elapsedUs tUs (c.info c.indexList.header).t0Us := hs
    simp only [FragCell.timeout, FragCell.expire, FragCell.released, if_pos hs, if_pos hold,
      Pool.freeHeld, FragInfo.heldAddr, true_and]
    cases (c.info c.indexList.header).pduNode.ptrPdu <;> simp [Pool.free]
  · have hnew : ¬ (0 < (c.info c.indexList.header).t0Us ∧
        fragTimeoutThresholdUs ≤ elapsedUs tUs (c.info c.indexList.header).t0Us) := hs
    have hflag : { c.info c.indexList.header with timeoutFlag := false } = c.info c.indexList.header := by
      rw [← h]
    simp only [FragCell.timeout, FragCell.expire, FragCell.released, if_neg hs, if_neg hnew, hflag]
    exact ⟨by rw [FragCell.set, Function.update_eq_self], by simp⟩

lemma FragCell.expire_info (tUs : ℕ) (c : FragCell) (i : Fin fragBufferNum) :
    (c.expire tUs).info i =
      if i = c.indexList.header ∧ (c.info i).Stale tUs then (c.info i).reset else c.info i := by
  rw [FragCell.expire]
  by_cases hi : i = c.indexList.header
  · subst hi
    split_ifs with hs hc
    · rw [FragCell.set_info]
    · exact absurd ⟨rfl, hs⟩ hc
    · exact absurd (by assumption : _ ∧ _).2 hs
    · rfl
  · have hnot : ¬ (i = c.indexList.header ∧ (c.info i).Stale tUs) := fun hc => hi hc.1
    rw [if_neg hnot]
    split_ifs
    · rw [FragCell.set_info_ne _ hi]
    · rfl

lemma sweep_cells (tUs : ℕ)
    (h : ∀ port fragID i, ((r.table port fragID).info i).timeoutFlag = false)
    (hnodup : cells.Nodup) :
    (∀ port fragID, (cells.foldl (fun r x => r.timeoutAt tUs x.1 x.2) r).table port fragID =
        if (port, fragID) ∈ cells then (r.table port fragID).expire tUs else r.table port fragID) ∧
      (cells.foldl (fun r x => r.timeoutAt tUs x.1 x.2) r).pool.freed =
        r.pool.freed ++ cells.filterMap fun x => (r.table x.1 x.2).released tUs := by
  induction cells generalizing r with
  | nil => simp
  | cons x cells ih =>
    obtain ⟨hx, hcells⟩ := List.nodup_cons.mp hnodup
    obtain ⟨hcell, hfree⟩ := FragCell.timeout_eq tUs r.pool (h x.1 x.2 _)
    have htable : (r.timeoutAt tUs x.1 x.2).table = r.table.set x.1 x.2 ((r.table x.1 x.2).expire tUs) := by
      rw [Receiver.timeoutAt, hcell]
    have hpool : (r.timeoutAt tUs x.1 x.2).pool.freed =
        r.pool.freed ++ ((r.table x.1 x.2).released tUs).toList := hfree
    have hflags : ∀ port fragID i,
        (((r.timeoutAt tUs x.1 x.2).table port fragID).info i).timeoutFlag = false := by
      intro port fragID i
      rw [htable, Table.set_cases]
      split_ifs
      · rw [FragCell.expire_info]
        split_ifs
        · rfl
        · exact h x.1 x.2 i
      · exact h port fragID i
    obtain ⟨hrest, hfreed⟩ := ih hflags hcells
    have hother (y : ℕ × ℕ) (hy : y ≠ x) :
        (r.timeoutAt tUs x.1 x.2).table y.1 y.2 = r.table y.1 y.2 := by
      rw [htable, Table.set_cases, if_neg]
      exact fun hc => hy (Prod.ext hc.1 hc.2)
    constructor
    · intro port fragID
      rw [List.foldl_cons, hrest]
      by_cases hxy : (port, fragID) = x
      · subst hxy
        rw [if_neg hx, if_pos (List.mem_cons_self ..), htable, Table.set_self]
      · rw [hother (port, fragID) hxy]
        simp [hxy]
    · rw [List.foldl_cons, hfreed, hpool, List.append_assoc, List.filterMap_cons]
      congr 1
      have hmap : cells.filterMap (fun y => ((r.timeoutAt tUs x.1 x.2).table y.1 y.2).released tUs) =
          cells.filterMap fun y => (r.table y.1 y.2).released tUs := by
        apply List.filterMap_congr
        intro y hy
        rw [hother y fun hc => hx (hc ▸ hy)]
      rw [hmap]
      cases (r.table x.1 x.2).released tUs <;> rfl

lemma fragmentTimeout_eq (tUs : ℕ) (r : Receiver) :
    fragmentTimeout tUs r = searched.foldl (fun r x => r.timeoutAt tUs x.1 x.2) r := by
  simp only [fragmentTimeout, searched, Receiver.timeoutAt]

lemma fragmentTimeout_buffer (tUs : ℕ)
    (h : ∀ port fragID i, ((r.table port fragID).info i).timeoutFlag = false) (x : Place) :
    (fragmentTimeout tUs r).buffer x =
      if r.Expired tUs x ∧ x.2.2 = (r.table x.1 x.2.1).indexList.header then (r.buffer x).reset
      else r.buffer x := by
  obtain ⟨hcells, -⟩ := sweep_cells tUs h searched_nodup
  rw [fragmentTimeout_eq, Receiver.buffer, hcells]
  by_cases hin : x.1 < maxDeviceNum ∧ x.2.1 < maxFragId
  · rw [if_pos (mem_searched.mpr hin), FragCell.expire_info]
    exact if_congr ⟨fun hc => ⟨⟨hin.1, hin.2, hc.2⟩, hc.1⟩, fun hc => ⟨hc.2, hc.1.2.2⟩⟩ rfl rfl
  · have hnot : ¬ (r.Expired tUs x ∧ x.2.2 = (r.table x.1 x.2.1).indexList.header) :=
      fun hc => hin ⟨hc.1.1, hc.1.2.1⟩
    rw [if_neg fun hc => hin (mem_searched.mp hc), if_neg hnot]
    rfl

lemma released_eq_some {c : FragCell} {a : MbufAddr} :
    c.released tUs = some a ↔ (c.info c.indexList.header).Stale tUs ∧
      (c.info c.indexList.header).heldAddr = some a := by
  rw [FragCell.released]
  split_ifs with hs <;> simp [hs]

/-- An old buffer at the head of its list, with `a` behind `ptr_pdu`. -/
def Receiver.Heads (tUs : ℕ) (r : Receiver) (a : MbufAddr) (x : Place) : Prop :=
  r.Expired tUs x ∧ x.2.2 = (r.table x.1 x.2.1).indexList.header ∧ (r.buffer x).heldAddr = some a

lemma mem_released {a : MbufAddr} :
    a ∈ searched.filterMap (fun x => (r.table x.1 x.2).released tUs) ↔ ∃ x, r.Heads tUs a x := by
  rw [List.mem_filterMap]
  constructor
  · rintro ⟨y, hy, hreleased⟩
    obtain ⟨hstale, hheld⟩ := released_eq_some.mp hreleased
    obtain ⟨hport, hid⟩ := mem_searched.mp hy
    exact ⟨(y.1, y.2, _), ⟨hport, hid, hstale⟩, rfl, hheld⟩
  · rintro ⟨⟨port, fragID, i⟩, ⟨hport, hid, hstale⟩, hhead, hheld⟩
    change i = (r.table port fragID).indexList.header at hhead
    subst hhead
    exact ⟨(port, fragID), mem_searched.mpr ⟨hport, hid⟩, released_eq_some.mpr ⟨hstale, hheld⟩⟩

lemma fragmentTimeout_freed (tUs : ℕ) {s : RecvState} {env : Dpdk} (hflag : s.Unflagged) (hsafe : s.Safe env)
    (a : MbufAddr) :
    ((∃ x, s.receiver.Heads tUs a x) → (fragmentTimeout tUs s.receiver).pool.freed.count a =
        s.receiver.pool.freed.count a + 1) ∧
      ((¬ ∃ x, s.receiver.Heads tUs a x) → (fragmentTimeout tUs s.receiver).pool.freed.count a =
        s.receiver.pool.freed.count a) := by
  obtain ⟨lost, hsound⟩ := hsafe
  obtain ⟨-, hfreed⟩ := sweep_cells tUs hflag searched_nodup
  have hnodup : (searched.filterMap fun x => (s.receiver.table x.1 x.2).released tUs).Nodup := by
    apply searched_nodup.filterMap
    intro x y b hx hy
    have hplace := hsound.alone (x.1, x.2, (s.receiver.table x.1 x.2).indexList.header)
      (y.1, y.2, (s.receiver.table y.1 y.2).indexList.header) b (released_eq_some.mp hx).2
      (released_eq_some.mp hy).2
    simp only [Prod.mk.injEq] at hplace
    exact Prod.ext hplace.1 hplace.2.1
  rw [fragmentTimeout_eq, hfreed, List.count_append]
  constructor
  · intro hx
    rw [List.count_eq_one_of_mem hnodup (mem_released.mpr hx)]
  · intro hx
    rw [List.count_eq_zero_of_not_mem fun hmem => hx (mem_released.mp hmem), Nat.add_zero]

lemma ExpiresExactly.heads (h : ∀ port fragID i, ((r.table port fragID).info i).timeoutFlag = false)
    (hexact : ExpiresExactly tUs r (fragmentTimeout tUs r)) {x : Place} (hx : r.Expired tUs x) :
    x.2.2 = (r.table x.1 x.2.1).indexList.header := by
  by_contra hhead
  have hnot : ¬ (r.Expired tUs x ∧ x.2.2 = (r.table x.1 x.2.1).indexList.header) :=
    fun hc => hhead hc.2
  have hreset := hexact.expired x hx
  rw [fragmentTimeout_buffer tUs h, if_neg hnot] at hreset
  have hclock := hx.2.2.1
  rw [hreset] at hclock
  exact absurd hclock (lt_irrefl 0)

end Sweep

lemma RecvState.unflagged_of_reached {env : RecvEnv} {ok : RecvState → RecvEvent → Prop} {s : RecvState}
    (h : Reached (recvStep env) ok .initial s) : s.Unflagged :=
  RecvState.reached_invariant RecvState.Unflagged (fun _ _ _ => rfl) (fun _ _ hs hmicro => hs.micro hmicro) h

/-- In every state that packets and timeouts lead to, `fragment_timeout` gives up the old PDUs and
does nothing else exactly when their buffers are the heads of the index lists. -/
theorem expires_exactly_iff (env : RecvEnv) {s : RecvState}
    (h : Reached (recvStep env) (fun _ _ => True) .initial s) (tUs : ℕ) :
    ExpiresExactly tUs s.receiver (fragmentTimeout tUs s.receiver) ↔
      ∀ x, s.receiver.Expired tUs x → x.2.2 = (s.receiver.table x.1 x.2.1).indexList.header := by
  have hflag := RecvState.unflagged_of_reached h
  have hsafe : s.Safe env.toDpdk := RecvState.reached_invariant (RecvState.Safe env.toDpdk)
    RecvState.sound_initial.safe (fun _ _ hs hmicro => hs.micro hmicro) h
  have hbuffer := fragmentTimeout_buffer tUs hflag
  have hcount := fragmentTimeout_freed tUs hflag hsafe
  constructor
  · exact fun hexact x hx => hexact.heads hflag hx
  · intro hheads
    refine ⟨fun x hx => ?_, fun x hx => ?_, fun x a hx hheld => ?_, fun a ha => ?_, fun port fragID i => ?_⟩
    · rw [hbuffer, if_pos ⟨hx, hheads x hx⟩]
    · have hnot : ¬ (s.receiver.Expired tUs x ∧
          x.2.2 = (s.receiver.table x.1 x.2.1).indexList.header) := fun hc => hx hc.1
      rw [hbuffer, if_neg hnot]
    · obtain ⟨lost, hsound⟩ := hsafe
      have hnew : s.receiver.pool.freed.count a = 0 := by
        apply List.count_eq_zero_of_not_mem
        intro hmem
        apply hsound.apart x a hheld
        exact Multiset.mem_add.mpr (.inr (Multiset.mem_coe.mpr (List.mem_append_left _ hmem)))
      rw [(hcount a).1 ⟨x, hx, hheads x hx, hheld⟩, hnew]
    · by_contra hnone
      apply ha
      apply (hcount a).2
      rintro ⟨x, hexpired, -, hheld⟩
      exact hnone ⟨x, hexpired, hheld⟩
    · rw [(IndexList.complete _).count_eq]
      exact List.count_eq_one_of_mem (List.nodup_finRange _) (List.mem_finRange i)

/-- The first fragment of a PDU with fragment ID 5 and the time stamp `stamp`. -/
def stampedStart (stamp : ℕ) : List UInt8 :=
  [0xA0, 13, 5, 0, 106] ++ be16 fragSequence ++ be16 (8 * stamp) ++ [8, 0, 1, 2, 3, 4]

def stampedFrame (stamps : List ℕ) : Memory :=
  let packets := (stamps.map stampedStart).flatten
  let bbHeader := [0, 0, 0, 0] ++ be16 (8 * packets.length) ++ [0, 0, 0]
  overwrite (fun _ => 0) (List.replicate 12 0 ++ [0x91, 0x01, 0, 0, 0, 6] ++ List.replicate 16 0 ++
    be16 1000 ++ List.replicate 20 0 ++ bbHeader ++ [Crc.mcsGetCrc8 bbHeader] ++ packets)

def stampedEvent (stamps : List ℕ) (now : ℕ → ℕ) : RecvEvent :=
  .packet (stampedFrame stamps) 200 0 0 now ⟨0, 0, 0, 0, 0⟩

def afterStamped (stamps : List ℕ) (now : ℕ → ℕ) : Option RecvState :=
  (recvStep sampleRecvEnv .initial (stampedEvent stamps now)).map Prod.fst

/-- A PDU whose START came at time 10, alone: its buffer has gone to the tail of the list, and
`fragment_timeout` leaves it there at time 1000. -/
theorem old_pdu_stays : ∃ s, Reached (recvStep sampleRecvEnv) (fun _ _ => True) .initial s ∧
    s.receiver.Expired 1000 (0, 5, 0) ∧
      ¬ ExpiresExactly 1000 s.receiver (fragmentTimeout 1000 s.receiver) := by
  have hdone : (afterStamped [1] fun _ => 10).isSome := by decide +kernel
  have hcell : (afterStamped [1] fun _ => 10).map (fun s =>
      (((s.receiver.table 0 5).info 0).t0Us, (s.receiver.table 0 5).indexList.header)) =
      some (10, 1) := by decide +kernel
  obtain ⟨s, hs⟩ := Option.isSome_iff_exists.mp hdone
  obtain ⟨⟨s₁, u⟩, hstep, rfl⟩ := Option.map_eq_some_iff.mp hs
  simp only [hs, Option.map_some, Option.some.injEq, Prod.mk.injEq] at hcell
  have hreached : Reached (recvStep sampleRecvEnv) (fun _ _ => True) .initial s₁ :=
    .next .start trivial hstep
  have hexpired : s₁.receiver.Expired 1000 (0, 5, 0) := by
    refine ⟨by decide, by decide, ?_⟩
    rw [FragInfo.Stale, Receiver.buffer, hcell.1]
    decide
  refine ⟨_, hreached, hexpired, fun hexact => ?_⟩
  have hhead := hexact.heads (RecvState.unflagged_of_reached hreached) hexpired
  exact absurd (hhead.trans hcell.2) (by decide)

def secondLater (pGSE : ℕ) : ℕ := if pGSE = 66 then 10 else 1000

lemma stampedFrame_fragmentID {m : RteMbuf} {para : FrameParam} {r : Receiver}
    (hm : m = ⟨.received 0, stampedFrame [1, 2], 200, 0⟩) (hpara : para = ⟨0, 0, 0, 0, 0⟩)
    (hr : r = .initial) (v : GseWalk)
    (hv : GseWalk.Visits sampleRecvEnv (processFrameHeader m para r.pool).mbuf.data 0 secondLater
      (processFrameHeader m para r.pool).para (.first (processFrameHeader m para r.pool).para.gseOffset
        { r with pool := (processFrameHeader m para r.pool).pool }) v) :
    (decapsulateGseHeader (processFrameHeader m para r.pool).mbuf.data v.pGSE).2.fragmentID = 5 := by
  subst hm hpara hr
  rcases hv.here_or_next with hv | ⟨-, hv⟩
  · rw [hv]
    decide +kernel
  rcases hv.here_or_next with hv | ⟨hon, -⟩
  · rw [hv]
    decide +kernel
  · exact absurd hon (by decide +kernel)

theorem expires_exactly_first : ∃ s, afterStamped [1, 2] secondLater = some s ∧
    ExpiresExactly 1003 s.receiver (fragmentTimeout 1003 s.receiver) := by
  have hdone : (afterStamped [1, 2] secondLater).isSome := by decide +kernel
  have hcell : (afterStamped [1, 2] secondLater).map (fun s =>
      (((s.receiver.table 0 5).info 1).t0Us, (s.receiver.table 0 5).indexList.header)) =
      some (1000, 0) := by decide +kernel
  obtain ⟨s, hs⟩ := Option.isSome_iff_exists.mp hdone
  refine ⟨s, hs, ?_⟩
  obtain ⟨⟨s₁, u⟩, hstep, rfl⟩ := Option.map_eq_some_iff.mp hs
  simp only [hs, Option.map_some, Option.some.injEq, Prod.mk.injEq] at hcell
  refine (expires_exactly_iff sampleRecvEnv (.next .start trivial hstep) 1003).mpr ?_
  rintro ⟨i, j, k⟩ ⟨-, -, hstale⟩
  rw [stampedEvent, recvStep] at hstep
  obtain ⟨r, hr, hpair⟩ := Option.map_eq_some_iff.mp hstep
  obtain ⟨rfl, -⟩ := Prod.mk.inj hpair
  simp only at hcell hstale ⊢
  by_cases hij : i = 0 ∧ j = 5
  · obtain ⟨rfl, rfl⟩ := hij
    fin_cases k
    · exact hcell.2.symm
    · rw [FragInfo.Stale, Receiver.buffer] at hstale
      simp only at hstale
      rw [Fin.mk_one, hcell.1] at hstale
      exact absurd hstale (by decide)
  · generalize hm : (⟨.received RecvState.initial.received, stampedFrame [1, 2], 200, 0⟩ : RteMbuf) =
      m at hr
    generalize hpara : (⟨0, 0, 0, 0, 0⟩ : FrameParam) = para at hr
    generalize hinit : RecvState.initial.receiver = r₀ at hr
    have htable := dispatchDecapPkt_table
      (stampedFrame_fragmentID hm.symm hpara.symm hinit.symm) hr hij
    rw [FragInfo.Stale, Receiver.buffer] at hstale
    simp only at hstale
    rw [htable, ← hinit] at hstale
    exact absurd hstale.1 (lt_irrefl 0)

end Fengtai.Receive
