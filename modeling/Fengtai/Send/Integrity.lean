import Fengtai.Receive.EncapRing
import Fengtai.Receive.HeaderDamage
import Fengtai.Send.RoundTrip

set_option autoImplicit false

/-! Frames that are lost, repeated, swapped or damaged in their headers, and fragments given up: what the
receiver hands on was sent, or two PDUs are joined that the CRC does not tell apart. -/

namespace Fengtai.Send

open Library.Words Library.Runs Crc Receive Sender

/-- The START of `m` before the END of `m'`: the length is the one that `m` announced, and the CRC is that
of `m'`. -/
def Joins (m m' : RteMbuf) (pdu : List UInt8 × ℕ) : Prop :=
  ∃ size size', size < m.dataLen ∧ size' < m'.dataLen ∧
    pdu = (m.bytes.take size ++ m'.bytes.drop size', m.protocolType) ∧ pdu.1.length = m.dataLen ∧
    crc32LookupTable pdu.1 = crc32LookupTable m'.bytes

def Spliced (ms : List RteMbuf) (pdu : List UInt8 × ℕ) : Prop := ∃ m ∈ ms, ∃ m' ∈ ms, m ≠ m' ∧ Joins m m' pdu

def Genuine (ms : List RteMbuf) (pdu : List UInt8 × ℕ) : Prop := pdu ∈ ms.map pduOf ∨ Spliced ms pdu

lemma bytes_take {m : RteMbuf} {size : ℕ} (h : size ≤ m.dataLen) : window m.data 0 size = m.bytes.take size := by
  rw [RteMbuf.bytes, show m.dataLen = size + (m.dataLen - size) by omega, window_add,
    List.take_left' (window_length _ _ _)]

lemma bytes_drop {m : RteMbuf} {size : ℕ} (h : size ≤ m.dataLen) :
    window m.data size (m.dataLen - size) = m.bytes.drop size := by
  have hlen : m.dataLen = size + (m.dataLen - size) := by omega
  rw [RteMbuf.bytes]
  nth_rewrite 2 [hlen]
  rw [window_add, List.drop_left' (window_length _ _ _), Nat.zero_add]

structure HoldsStart (m : RteMbuf) (size : ℕ) (bytes : List UInt8) (len : ℕ) (node : DePduNode) : Prop where
  size_lt : size < m.dataLen
  bytes_eq : bytes = m.bytes.take size
  len_eq : len = size
  announced : node.pduLength = m.dataLen
  reserved : ∀ b, node.ptrPdu = some b → b.dataLen = m.dataLen ∧ b.protocolType = m.protocolType

structure HoldsEnd (m : RteMbuf) (size : ℕ) (bytes : List UInt8) (len : ℕ) : Prop where
  size_lt : size < m.dataLen
  bytes_eq : bytes = m.bytes.drop size ++ crcBytes m.bytes
  len_eq : len = (m.bytes.drop size).length + 4

def filled (f : FragInfo) (s : Fin fragMaxNum) : ℕ := if 0 < f.fragLen s then 1 else 0

/-- What the buffer holds: the START of a PDU in `starts`, and the END of one in `lasts`. -/
structure Woven (starts lasts : List RteMbuf) (f : FragInfo) : Prop where
  start : 0 < f.fragLen 0 → ∃ m ∈ starts, ∃ size, HoldsStart m size (f.dataAddr 0) (f.fragLen 0) f.pduNode
  last : 0 < f.fragLen 1 → ∃ m ∈ lasts, ∃ size, HoldsEnd m size (f.dataAddr 1) (f.fragLen 1)
  recvNum : f.fragRecvNum ≤ filled f 0 + filled f 1
  maxSeq : f.maxFragSeq ≤ 1
  recvEnd : f.recvEnd = true → f.maxFragSeq = 1

/-- The ring has got no more than one PDU, and that is joined of a START in `starts` and an END in
`lasts`. -/
def Gains (starts lasts : List RteMbuf) (p q : Pool) : Prop :=
  ringPdus q = ringPdus p ∨
    ∃ m ∈ starts, ∃ m' ∈ lasts, ∃ pdu, Joins m m' pdu ∧ ringPdus q = ringPdus p ++ [pdu]

lemma ringPdus_enqueue (env : Dpdk) (p : Pool) (m : RteMbuf) :
    ringPdus (p.enqueueEncapRing env m 0) = ringPdus p ∨
      ringPdus (p.enqueueEncapRing env m 0) = ringPdus p ++ [pduOf m] := by
  simp only [Pool.enqueueEncapRing, ringPdus]
  split_ifs
  · exact .inr (List.map_append ..)
  · exact .inl rfl

namespace Woven

variable {starts lasts : List RteMbuf} {f : FragInfo} {p : Pool} {env : Dpdk}

lemma mono {starts' lasts' : List RteMbuf} (h : Woven starts lasts f) (hstarts : starts ⊆ starts')
    (hlasts : lasts ⊆ lasts') : Woven starts' lasts' f where
  start hpos := (h.start hpos).imp fun _ hm => ⟨hstarts hm.1, hm.2⟩
  last hpos := (h.last hpos).imp fun _ hm => ⟨hlasts hm.1, hm.2⟩
  recvNum := h.recvNum
  maxSeq := h.maxSeq
  recvEnd := h.recvEnd

lemma reset (starts lasts : List RteMbuf) (f : FragInfo) : Woven starts lasts f.reset where
  start h := absurd h (lt_irrefl 0)
  last h := absurd h (lt_irrefl 0)
  recvNum := Nat.zero_le _
  maxSeq := Nat.zero_le _
  recvEnd h := absurd h Bool.false_ne_true

lemma settle (h : Woven starts lasts f) (now : ℕ) (p : Pool) : Woven starts lasts (f.settle now p).info := by
  obtain ⟨-, hs⟩ | ⟨-, hs⟩ | ⟨-, hs⟩ := f.settle_cases now p
  all_goals rw [hs]
  · exact h
  · exact ⟨h.start, h.last, h.recvNum, h.maxSeq, h.recvEnd⟩
  · exact h

lemma copy (h : Woven starts lasts f) (hc : f.complete = true) :
    ∃ m ∈ starts, ∃ m' ∈ lasts, ∃ size size', size < m.dataLen ∧ size' < m'.dataLen ∧
      f.pduNode.pduLength = m.dataLen ∧
      (∀ b, f.pduNode.ptrPdu = some b → b.dataLen = m.dataLen ∧ b.protocolType = m.protocolType) ∧
      f.copyFrom 0 f.fragRecvNum =
        some (m.bytes.take size ++ m'.bytes.drop size', crc32LookupTable m'.bytes) := by
  rw [FragInfo.complete, Bool.and_eq_true, beq_iff_eq] at hc
  obtain ⟨hend, hnum⟩ := hc
  rw [h.recvEnd hend] at hnum
  have hrecv := h.recvNum
  have hstart : 0 < f.fragLen 0 := by
    by_contra hempty
    simp only [filled, if_neg hempty] at hrecv
    split_ifs at hrecv <;> omega
  have hlast : 0 < f.fragLen 1 := by
    by_contra hempty
    simp only [filled, if_neg hempty] at hrecv
    split_ifs at hrecv
    omega
  obtain ⟨m, hm, size, hs⟩ := h.start hstart
  obtain ⟨m', hm', size', he⟩ := h.last hlast
  refine ⟨m, hm, m', hm', size, size', hs.size_lt, he.size_lt, hs.announced, hs.reserved, ?_⟩
  have hzero : (f.dataAddr ⟨0, by decide⟩).take (f.fragLen ⟨0, by decide⟩) = m.bytes.take size := by
    change (f.dataAddr 0).take (f.fragLen 0) = _
    rw [hs.bytes_eq, hs.len_eq, List.take_take, min_self]
  have hone : f.dataAddr ⟨1, by decide⟩ = m'.bytes.drop size' ++ crcBytes m'.bytes := he.bytes_eq
  have hlen : f.fragLen ⟨1, by decide⟩ = (m'.bytes.drop size').length + 4 := he.len_eq
  have hcrc : (crcBytes m'.bytes).take 4 = crcBytes m'.bytes := List.take_of_length_le le_rfl
  rw [hnum]
  simp only [FragInfo.copyFrom, show 0 < fragMaxNum from by decide, show 0 + 1 < fragMaxNum from by decide,
    dif_pos, one_ne_zero, if_false, if_true, hzero, Nat.zero_add, hone, hlen, Nat.add_sub_cancel,
    List.take_left, List.drop_left, hcrc, beValue_crcBytes]
  rw [if_neg (show ¬ (m'.bytes.drop size').length + 4 < 4 by omega), Option.map_some]

/-- What is left for a START to be stored in. A repeated START has its count set to 65535 first. -/
lemma discarded (h : Woven starts lasts f) {stamp : ℕ} {g : FragInfo} {q : Pool}
    (hd : discardReceived stamp f p = (g, q)) :
    (0 < g.fragLen 1 → ∃ m ∈ lasts, ∃ size, HoldsEnd m size (g.dataAddr 1) (g.fragLen 1)) ∧
      u16 (g.fragRecvNum + 1) ≤ 1 + filled g 1 ∧ g.maxFragSeq ≤ 1 ∧ (g.recvEnd = true → g.maxFragSeq = 1) := by
  have hreset := Woven.reset starts lasts f
  have hnum := h.recvNum
  have hmod (n : ℕ) : u16 n ≤ n := Nat.mod_le _ _
  rw [discardReceived] at hd
  split_ifs at hd with hpos hstamp hlen <;> obtain ⟨rfl, -⟩ := Prod.mk.inj hd
  · exact ⟨hreset.last, le_trans (hmod _) (Nat.le_add_right 1 _), hreset.maxSeq, hreset.recvEnd⟩
  · have hnone : u16 (sub16 0 1 + 1) = 0 := by norm_num [sub16, u16]
    refine ⟨hreset.last, ?_, hreset.maxSeq, hreset.recvEnd⟩
    change u16 (sub16 0 1 + 1) ≤ _
    rw [hnone]
    exact Nat.zero_le _
  · refine ⟨h.last, (hmod _).trans ?_, h.maxSeq, h.recvEnd⟩
    simp only [filled, if_neg hlen] at hnum ⊢
    omega
  · refine ⟨h.last, (hmod _).trans ?_, h.maxSeq, h.recvEnd⟩
    omega

section Arriving

variable {m : RteMbuf} {k size fragID : ℕ} {a : Arrival} {r : Received}

lemma started (h : Woven starts lasts f) (halloc : ∀ i, env.allocates i = true) (hm : Plain m)
    (hmem : m ∈ starts) (h3 : 3 ≤ size) (h8 : size + 8 ≤ m.dataLen)
    (ha : (splitOf m k size hm.ordinary h3 h8).IsFragment 0 a)
    (hr : f.start env fragID a p = some r) : Woven starts lasts r.info := by
  obtain ⟨g, q, hd, -, hr⟩ := FragInfo.start_cases hr
  obtain ⟨hlast, hnum, hmax, hend⟩ := h.discarded hd
  have hlen : a.fragLen = size := by
    rw [ha.len]
    exact window_length _ _ _
  have hbytes : window a.datafield 0 a.fragLen = m.bytes.take size := by
    rw [ha.window_eq]
    exact bytes_take (by omega)
  have htotal : sub16 a.totalLength a.headerLength = m.dataLen := by
    rw [ha.total rfl, splitOf_whole, RteMbuf.bytes, window_length]
  have hproto : a.protocolType = m.protocolType := ha.protocol rfl
  obtain ⟨hnone, -⟩ | ⟨-, -, rfl⟩ | ⟨-, -, rfl⟩ := hr
  · rw [halloc] at hnone
    exact absurd hnone (by decide)
  · exact Woven.reset starts lasts _
  · refine Woven.settle ⟨fun _ => ⟨m, hmem, size, ?_⟩, fun hone => ?_, ?_, ?_, ?_⟩ a.now _
    · refine ⟨by omega, ?_, ?_, htotal, fun b hb => ?_⟩
      · exact hbytes
      · change (window a.datafield 0 a.fragLen).length = size
        rw [window_length, hlen]
      · obtain rfl := Option.some.inj hb
        exact ⟨htotal, hproto⟩
    · exact hlast hone
    · have hzero : filled ((g.storeStart fragID a).reserve env q.allocs a.protocolType) 0 = 1 := by
        have hpos : 0 < (window a.datafield 0 a.fragLen).length := by
          rw [window_length]
          omega
        exact if_pos hpos
      rw [hzero]
      exact hnum
    · exact max_le hmax (Nat.zero_le 1)
    · intro hrecv
      change max g.maxFragSeq 0 = 1
      rw [hend hrecv]
      rfl

lemma counted (f : FragInfo) (s : Fin fragMaxNum) (isEnd : Bool) (fragLen : ℕ) :
    let g := (f.dropOld s).countLength isEnd fragLen
    g.fragLen = f.fragLen ∧ g.dataAddr = f.dataAddr ∧ g.pduNode = f.pduNode ∧ g.maxFragSeq = f.maxFragSeq ∧
      g.fragRecvNum = if 0 < f.fragLen s ∧ 0 < f.fragRecvNum then sub16 f.fragRecvNum 1 else f.fragRecvNum := by
  simp only [FragInfo.dropOld, FragInfo.countLength]
  split_ifs <;> exact ⟨rfl, rfl, rfl, rfl, rfl⟩

lemma recounted (h : Woven starts lasts f) :
    u16 ((if 0 < f.fragLen 1 ∧ 0 < f.fragRecvNum then sub16 f.fragRecvNum 1 else f.fragRecvNum) + 1) ≤
      filled f 0 + 1 := by
  have hle := h.recvNum
  have hsmall : filled f 0 ≤ 1 ∧ filled f 1 ≤ 1 := by
    simp only [filled]
    split_ifs <;> simp
  refine le_trans (Nat.mod_le _ _) ?_
  by_cases hold : 0 < f.fragLen 1 ∧ 0 < f.fragRecvNum
  · rw [if_pos hold, sub16_of_le (by omega) (by omega)]
    omega
  · rw [if_neg hold]
    by_cases hlen : 0 < f.fragLen 1
    · omega
    · have hempty : filled f 1 = 0 := if_neg hlen
      omega

lemma kept (h : Woven starts lasts f) (hm : Plain m) (h3 : 3 ≤ size) (h8 : size + 8 ≤ m.dataLen)
    (ha : (splitOf m k size hm.ordinary h3 h8).IsFragment 1 a) (hr : f.keep fragID a p = some r) :
    Woven starts [m] r.info := by
  obtain ⟨hs, hr⟩ := FragInfo.keep_cases hr
  have hseq : (⟨a.fragSeq, hs⟩ : Fin fragMaxNum) = 1 := Fin.ext (ha.fragSeq_eq (show 1 < 2 by decide))
  have hbytes : window a.datafield 0 a.fragLen = m.bytes.drop size ++ crcBytes m.bytes := by
    rw [ha.window_eq, ← bytes_drop (by omega), ← splitOf_whole (k := k) hm.ordinary h3 h8]
    rfl
  rw [hseq, hbytes] at hr
  obtain ⟨hlens, haddrs, hnode, hmax, hnum⟩ := counted f 1 (a.fragType = .last) a.fragLen
  simp only at hr hlens haddrs hnode hmax hnum
  generalize (f.dropOld 1).countLength (a.fragType = .last) a.fragLen = g at hr hlens haddrs hnode hmax hnum
  generalize hend : m.bytes.drop size ++ crcBytes m.bytes = bytes at hr
  have hlen : bytes.length = (m.bytes.drop size).length + 4 := by
    rw [← hend, List.length_append, crcBytes_length]
  obtain ⟨-, rfl⟩ | ⟨-, -, rfl⟩ := hr
  · exact Woven.reset starts [m] f
  · refine Woven.settle
      ⟨fun hzero => ?_, fun _ => ⟨m, List.mem_singleton_self m, size, by omega, hend.symm, hlen⟩, ?_, ?_,
      fun _ => ?_⟩ a.now _
    · have hfirst : 0 < f.fragLen 0 := by
        rw [← hlens]
        exact hzero
      have hstart := h.start hfirst
      rw [← haddrs, ← hlens, ← hnode] at hstart
      exact hstart
    · have hone : filled (g.store 1 fragID a.timeStamp bytes) 1 = 1 :=
        if_pos (show 0 < bytes.length by omega)
      have hzero : filled (g.store 1 fragID a.timeStamp bytes) 0 = filled f 0 := by
        rw [filled, filled, ← hlens]
        rfl
      rw [hone, hzero]
      change u16 (g.fragRecvNum + 1) ≤ _
      rw [hnum]
      exact h.recounted
    · change max g.maxFragSeq 1 ≤ 1
      rw [hmax]
      exact max_le h.maxSeq le_rfl
    · change max g.maxFragSeq 1 = 1
      rw [hmax]
      exact max_eq_right h.maxSeq

end Arriving

lemma finished (h : Woven starts lasts f) (hc : f.complete = true) (env : Dpdk) (p : Pool) :
    ∃ d, finishReassemblePdu env f p = some d ∧ d.info = f.reset ∧ Gains starts lasts p d.pool := by
  obtain ⟨m, hm, m', hm', size, size', hsize, hsize', hnode, hptr, hcopy⟩ := h.copy hc
  obtain ⟨d, hd⟩ := finishReassemblePdu_isSome (p := p) fun _ _ _ => ⟨_, hcopy⟩
  obtain ⟨hinfo, hcases⟩ := finishReassemblePdu_cases hd
  refine ⟨d, hd, hinfo, ?_⟩
  obtain ⟨-, -, hp⟩ | ⟨b, hb, ⟨-, hp⟩ | ⟨copied, crc, hcopy', hlen, hcrc, -, -, hp⟩⟩ := hcases
  · exact .inl (by rw [hp])
  · exact .inl (by rw [hp]; rfl)
  · rw [hcopy, Option.some.injEq, Prod.mk.injEq] at hcopy'
    obtain ⟨rfl, rfl⟩ := hcopy'
    rw [hnode] at hlen
    obtain ⟨hdata, hproto⟩ := hptr b hb
    have hbytes : pduOf { b with data := overwrite b.data (m.bytes.take size ++ m'.bytes.drop size') } =
        (m.bytes.take size ++ m'.bytes.drop size', m.protocolType) := by
      rw [pduOf, RteMbuf.bytes]
      simp only [hdata, hproto, ← hlen]
      rw [holds_overwrite]
    rw [hp]
    refine (ringPdus_enqueue env p _).imp_right fun hjoined => ?_
    rw [hbytes] at hjoined
    exact ⟨m, hm, m', hm', _, ⟨size, size', hsize, hsize', rfl, hlen, hcrc⟩, hjoined⟩

lemma received {fragID : ℕ} {a : Arrival} {r : Received}
    (hr : (if a.fragType = .start then f.start env fragID a p else f.keep fragID a p) = some r)
    (h : Woven starts lasts r.info) :
    ∃ t, f.receive env fragID a p = some t ∧ (t.2.1 = r.info ∨ t.2.1 = r.info.reset) ∧
      Gains starts lasts p t.2.2 := by
  have hring : r.pool.ring = p.ring := by
    split_ifs at hr
    · exact start_ring hr
    · exact keep_ring hr
  have hpdus : ringPdus r.pool = ringPdus p := by rw [ringPdus, hring, ringPdus]
  rw [FragInfo.receive, hr]
  by_cases hc : r.code = 1
  · have hcomplete : r.info.complete = true := by
      split_ifs at hr
      · exact FragInfo.start_complete hr hc
      · exact FragInfo.keep_complete hr hc
    obtain ⟨d, hd, hinfo, hgains⟩ := h.finished hcomplete env r.pool
    rw [Gains, hpdus] at hgains
    exact ⟨(⟨1, some d.ret⟩, d.info, d.pool), by simp only [if_pos hc, hd, Option.map_some], .inr hinfo, hgains⟩
  · exact ⟨(⟨r.code, none⟩, r.info, r.pool), by simp only [if_neg hc], .inl rfl, .inl hpdus⟩

end Woven

lemma Joins.genuine {ms : List RteMbuf} {m m' : RteMbuf} {pdu : List UInt8 × ℕ} (h : Joins m m' pdu) (hm : m ∈ ms)
    (hm' : m' ∈ ms) : Genuine ms pdu := by
  by_cases hsame : m = m'
  · obtain ⟨size, size', hsize, hsize', rfl, hlen, -⟩ := h
    subst hsame
    have hbytes : m.bytes.length = m.dataLen := window_length _ _ _
    rw [List.length_append, List.length_take, List.length_drop] at hlen
    obtain rfl : size = size' := by omega
    rw [List.take_append_drop]
    exact .inl (List.mem_map_of_mem hm)
  · exact .inr ⟨m, hm, m', hm', hsame, h⟩

lemma Gains.genuine {ms : List RteMbuf} {p q : Pool} (h : Gains ms ms p q)
    (hp : ∀ pdu ∈ ringPdus p, Genuine ms pdu) : ∀ pdu ∈ ringPdus q, Genuine ms pdu := by
  obtain hsame | ⟨m, hm, m', hm', joined, hjoins, hring⟩ := h
  · rwa [hsame]
  · rw [hring]
    intro pdu hpdu
    rcases List.mem_append.mp hpdu with hold | hnew
    · exact hp pdu hold
    · obtain rfl := List.mem_singleton.mp hnew
      exact hjoins.genuine hm hm'

section Chosen

variable {env : RecvEnv} {mem : Memory} {port fragID : ℕ} {r : Receiver}

lemma handle_chosen {p : Parsed} {kind : FragType} (hkind : p.fragType = some kind) {tUs stamp : ℕ}
    (hid : p.varHeader.fragmentID = fragID) (hstamp : (p.arrival mem tUs kind).timeStamp = stamp)
    (hseq : (p.arrival mem tUs kind).fragType = .start → (p.arrival mem tUs kind).fragSeq = 0)
    {t : Outcome × FragInfo × Pool}
    (ht : ((r.table port fragID).info ((r.table port fragID).select stamp).1).receive env.toDpdk fragID
      (p.arrival mem tUs kind) r.pool = some t) :
    (p.handle env mem port tUs r).receiver = some { r with
      table := r.table.set port fragID
        (((r.table port fragID).select stamp).2.set ((r.table port fragID).select stamp).1 t.2.1)
      pool := t.2.2 } := by
  have hstep := reassemble_eq env.toDpdk fragID (r.table port fragID) r.pool hseq
  rw [hstamp, ht, Option.map_some] at hstep
  simp only [Parsed.handle, hkind, hid, hstep, Option.map_some]

lemma set_chosen (T : Table) (port fragID stamp : ℕ) (f : FragInfo) (i j : ℕ) (s : Fin fragBufferNum) :
    (T.set port fragID (((T port fragID).select stamp).2.set ((T port fragID).select stamp).1 f) i j).info s =
      if i = port ∧ j = fragID ∧ s = ((T port fragID).select stamp).1 then f else (T i j).info s := by
  rw [Table.set_cases]
  by_cases hcell : i = port ∧ j = fragID
  · obtain ⟨rfl, rfl⟩ := hcell
    by_cases hs : s = ((T i j).select stamp).1
    · rw [if_pos ⟨rfl, rfl⟩, if_pos ⟨rfl, rfl, hs⟩, hs, FragCell.set_info]
    · rw [if_pos ⟨rfl, rfl⟩, if_neg fun h => hs h.2.2, FragCell.set_info_ne _ hs, FragCell.select_info]
  · rw [if_neg hcell, if_neg fun h => hcell ⟨h.1, h.2.1⟩]

end Chosen

/-- The packet is the one, or one of the two, that a PDU in `ms` is sent in. -/
def PacketOf (conf : AppConf) (ms : List RteMbuf) (e : Entry) : Prop :=
  ∃ m ∈ ms, Plain m ∧ ∃ part, Chunks conf m part ∧ e ∈ part

structure Integral (ms : List RteMbuf) (r : Receiver) : Prop where
  woven : ∀ port fragID i, Woven ms ms ((r.table port fragID).info i)
  genuine : ∀ pdu ∈ ringPdus r.pool, Genuine ms pdu

namespace Integral

variable {env : RecvEnv} {mem : Memory} {port : ℕ} {now : ℕ → ℕ} {ms : List RteMbuf} {conf : AppConf}
  {r : Receiver}

lemma initial (ms : List RteMbuf) : Integral ms .initial where
  woven _ _ _ := Woven.reset ms ms FragInfo.initial
  genuine _ h := absurd h (List.not_mem_nil)

lemma fragment (h : Integral ms r) {p : Parsed} {kind : FragType} (hkind : p.fragType = some kind) {tUs : ℕ}
    (hseq : (p.arrival mem tUs kind).fragType = .start → (p.arrival mem tUs kind).fragSeq = 0)
    (hstored : ∀ f, Woven ms ms f → ∃ t, (if (p.arrival mem tUs kind).fragType = .start then
        f.start env.toDpdk p.varHeader.fragmentID (p.arrival mem tUs kind) r.pool
      else f.keep p.varHeader.fragmentID (p.arrival mem tUs kind) r.pool) = some t ∧ Woven ms ms t.info) :
    ∃ r', (p.handle env mem port tUs r).receiver = some r' ∧ Integral ms r' := by
  obtain ⟨t, ht, hwoven⟩ := hstored _ (h.woven port p.varHeader.fragmentID
    ((r.table port p.varHeader.fragmentID).select (p.arrival mem tUs kind).timeStamp).1)
  obtain ⟨u, hu, hinfo, hgains⟩ := Woven.received ht hwoven
  refine ⟨_, handle_chosen hkind rfl rfl hseq hu, fun i j s => ?_, hgains.genuine h.genuine⟩
  rw [set_chosen]
  split_ifs
  · obtain hinfo | hinfo := hinfo
    · rw [hinfo]
      exact hwoven
    · rw [hinfo]
      exact Woven.reset ms ms t.info
  · exact h.woven i j s

lemma turn (halloc : ∀ i, env.allocates i = true) (h : Integral ms r) {e : Entry} (he : PacketOf conf ms e)
    {w : GseWalk} (hr : w.receiver = some r) (hmem : Holds mem w.pGSE e.bytes) :
    e.node.Sized ∧ ∃ r', (w.turn env mem port now).receiver = some r' ∧ Integral ms r' := by
  have hlabel (hsized : e.node.Sized) :
      (decapsulateGseHeader mem w.pGSE).1.labelType = .broadcast := by
    rw [(hsized.header_read hmem).1]
    rfl
  have hheard : Integral ms (heard r) := ⟨h.woven, h.genuine⟩
  obtain ⟨m, hm, hplain, part, hpart, hmempart⟩ := he
  cases hpart with
  | whole t =>
    obtain rfl := List.mem_singleton.mp hmempart
    have hsized : (readEnapsulateBuffer conf m).Sized := readEnapsulateBuffer_sized hplain.ordinary
    obtain ⟨p, hp, hkind, hconcat, hnext, hlen, hdata⟩ := parsePacket_whole hplain hmem w.timestampSeq
    obtain ⟨b, hb, hpool⟩ := getSinglePdu_plain halloc hplain hdata r.pool
    refine ⟨hsized, { heard r with pool := (getSinglePdu env.toDpdk mem p.ptrDatafield m.dataLen
      m.protocolType r.pool).1 }, ?_, h.woven, fun pdu hpdu => ?_⟩
    · rw [turn_accepted hr (hlabel hsized) hp]
      simp only [Parsed.handle, hkind, if_neg hconcat, hnext, hlen]
      rfl
    · simp only [hpool] at hpdu
      rcases ringPdus_enqueue env.toDpdk { r.pool with allocs := r.pool.allocs + 1 } b with hring | hring
      · rw [hring] at hpdu
        exact h.genuine pdu hpdu
      · rw [hring, hb] at hpdu
        rcases List.mem_append.mp hpdu with hold | hnew
        · exact h.genuine pdu hold
        · obtain rfl := List.mem_singleton.mp hnew
          exact .inl (List.mem_map_of_mem hm)
  | split k size hk h3 h8 =>
    simp only [List.mem_cons, List.not_mem_nil, or_false] at hmempart
    rcases hmempart with rfl | rfl
    · have hsized : (startEntry conf m k size).node.Sized := startOf_sized conf hplain.ordinary k h3 h8
      obtain ⟨p, hp, hkind, -, hfrag⟩ := parsePacket_start hplain h3 h8 hmem w.timestampSeq (now w.pGSE)
      rw [turn_accepted hr (hlabel hsized) hp]
      refine ⟨hsized, hheard.fragment hkind (fun _ => hfrag.fragSeq_eq (show 0 < 2 by decide)) fun f hf => ?_⟩
      have hlen : (p.arrival mem (now w.pGSE) .start).fragLen ≤ fragMaxLength := by
        rw [hfrag.len]
        exact SplitPdu.fragBytes_le (show 0 < 2 by decide)
      obtain ⟨t, ht⟩ := FragInfo.start_isSome env.toDpdk p.varHeader.fragmentID f (heard r).pool hlen
      exact ⟨t, ht, hf.started halloc hplain hm h3 h8 hfrag ht⟩
    · have hsized : (endEntry conf m k size).node.Sized := endOf_sized conf hplain.ordinary k h8
      obtain ⟨p, hp, hkind, -, hfrag⟩ := parsePacket_last hplain h3 h8 hmem w.timestampSeq (now w.pGSE)
      rw [turn_accepted hr (hlabel hsized) hp]
      refine ⟨hsized, hheard.fragment hkind (fun hstart => ?_) fun f hf => ?_⟩
      · cases hstart
      · have hlen : (p.arrival mem (now w.pGSE) .last).fragLen ≤ fragMaxLength := by
          rw [hfrag.len]
          exact SplitPdu.fragBytes_le (show 1 < 2 by decide)
        have hseq : (p.arrival mem (now w.pGSE) .last).fragSeq < fragMaxNum := by
          rw [hfrag.fragSeq_eq (show 1 < 2 by decide)]
          decide
        obtain ⟨t, ht⟩ := FragInfo.keep_isSome p.varHeader.fragmentID f (heard r).pool hseq hlen
        exact ⟨t, ht, (hf.kept hplain h3 h8 hfrag ht).mono (List.Subset.refl ms) (by simpa using hm)⟩

lemma frame (halloc : ∀ i, env.allocates i = true) (hc : conf.Configured)
    (htype : conf.portToPktType = enumFwdTxFwdData) (h : Integral ms r) {frame : List Entry}
    (hf : Filled conf frame) (hpackets : ∀ e ∈ frame, PacketOf conf ms e) {m : RteMbuf}
    {macRev : UInt8 × UInt8} {modcod : ℕ} (hm : Holds m.data 0 (frameBuffer conf macRev modcod frame))
    (para : FrameParam) :
    ∃ r', dispatchDecapPkt env m port now para r = some r' ∧ Integral ms r' := by
  have hturn : TakesEach env m.data port now fun es r' => (∀ e ∈ es, PacketOf conf ms e) ∧ Integral ms r' := by
    rintro e es w r₁ ⟨hes, h₁⟩ hr hmem
    obtain ⟨hsized, r', hr', h'⟩ := h₁.turn halloc (hes e List.mem_cons_self) hr hmem
    exact ⟨hsized, r', hr', fun e' he' => hes e' (List.mem_cons_of_mem e he'), h'⟩
  obtain ⟨r', hstep, -, h'⟩ := hturn.dispatch hc htype hf ⟨hpackets, h⟩ hm para
  exact ⟨_, hstep, h'.woven, h'.genuine⟩

lemma fragmentTimeout (h : Integral ms r) (tUs : ℕ) : Integral ms (fragmentTimeout tUs r) where
  woven := by
    have hcells := h.woven
    rw [fragmentTimeout_eq]
    clear h
    induction searched generalizing r with
    | nil => exact hcells
    | cons x cells ih =>
      refine ih fun i j s => ?_
      simp only [Receiver.timeoutAt, Table.set_cases]
      split_ifs
      · exact timeout_forall (fun f _ => Woven.reset ms ms f)
          (fun f hf => ⟨hf.start, hf.last, hf.recvNum, hf.maxSeq, hf.recvEnd⟩) tUs (hcells x.1 x.2) s
      · exact hcells i j s
  genuine := by
    rw [ringPdus, fragmentTimeout_ring]
    exact h.genuine

end Integral

section Sending

variable {env : SendEnv} {conf : AppConf}

lemma Sent.packetOf {ms : List RteMbuf} {es : List Entry} (h : Sent conf ms es) (hplain : ∀ m ∈ ms, Plain m) :
    ∀ e ∈ es, PacketOf conf ms e := by
  induction h with
  | nil => simp
  | @snoc ms es m part _ _ hpart ih =>
    intro e he
    rcases List.mem_append.mp he with he | he
    · obtain ⟨m', hm', hrest⟩ := ih (fun m' hm' => hplain m' (List.mem_append_left [m] hm')) e he
      exact ⟨m', List.mem_append_left [m] hm', hrest⟩
    · exact ⟨m, by simp, hplain m (by simp), part, hpart, he⟩

lemma sealed_ring_mem (hc : conf.Configured) (htype : conf.portToPktType = enumFwdTxFwdData)
    {frames : List (List Entry)} {handed : List Sender} (h : List.Forall₂ (Sealed conf) frames handed)
    {o : Output} {x : ℕ × RteMbuf}
    (hx : x ∈ (handed.foldl (fun o t => (encapsulateFrame env conf t.gseGroup t.framePayload.maxPayload
      t.framePayload.usedPayload o).2) o).pool.ring) :
    x ∈ o.pool.ring ∨ ∃ frame ∈ frames, CarriesFrame conf frame x.2 := by
  induction h generalizing o with
  | nil => exact .inl hx
  | @cons frame t frames handed hsealed _ ih =>
    rw [List.foldl_cons] at hx
    rcases ih hx with hout | ⟨frame', hframe', hcarries⟩
    · rw [@Sealed.output env conf hc htype _ _ hsealed o] at hout
      split_ifs at hout
      · simp only [Output.enqueueSndBbRing] at hout
        split_ifs at hout
        · rcases List.mem_append.mp hout with hold | hnew
          · exact .inl hold
          · obtain rfl := List.mem_singleton.mp hnew
            exact .inr ⟨frame, List.mem_cons_self, hsealed.filled, _, _, holds_overwrite _ _⟩
        · exact .inl hout
      · exact .inl hout
    · exact .inr ⟨frame', List.mem_cons_of_mem frame hframe', hcarries⟩

end Sending

lemma pdusOf_plain {turns : List Turn} (h : ∀ m, Turn.pdu m ∈ turns → Plain m) : ∀ m ∈ pdusOf turns, Plain m := by
  intro m hm
  obtain ⟨t, ht, hmt⟩ := List.mem_flatMap.mp hm
  cases t with
  | pdu m' =>
    obtain rfl := List.mem_singleton.mp hmt
    exact h m ht
  | idle => simp [Turn.pdus] at hmt

/-- A buffer with the bytes of one of `sent`, on any queue, or with damage in its header; or the
clock. -/
def MayArrive (sent : List RteMbuf) : RecvEvent → Prop
  | .packet data dataLen _ _ _ _ => ∃ m ∈ sent, window data 0 dataLen = m.bytes ∨ DamagedHeader m.data data
  | .timeout _ => True

lemma frameBuffer_forward {conf : AppConf} (hc : conf.Configured) (htype : conf.portToPktType = enumFwdTxFwdData)
    {frame : List Entry} (hf : Filled conf frame) {m : RteMbuf} {macRev : UInt8 × UInt8} {modcod : ℕ}
    (hm : Holds m.data 0 (frameBuffer conf macRev modcod frame)) :
    bswap16 (load16 m.data 12) = 0x9101 ∧
      ((m.data 17).toNat = enumFwdTxFwdData ∨ (m.data 17).toNat = enumFwdRxFwdData) ∧
      identifyGs m.data 56 = true := by
  obtain ⟨-, hpay⟩ := hc.payload_bounds
  rw [frameBuffer, List.append_assoc _ (frame.map Entry.bytes).flatten] at hm
  obtain ⟨hret, hpara, -, -⟩ := processFrameHeader_fwdData htype hm (show conf.payload ≤ 8000 by omega)
    hf.used_le ⟨0, 0, 0, 0, 0⟩ .fresh
  refine processFrameHeader_forward hret (.inl ?_)
  rw [hpara]

lemma Integral.run {env : RecvEnv} {conf : AppConf} {ms sent : List RteMbuf} {events : List RecvEvent}
    (hc : conf.Configured) (htype : conf.portToPktType = enumFwdTxFwdData)
    (halloc : ∀ i, env.allocates i = true)
    (hsent : ∀ m ∈ sent, ∃ frame, CarriesFrame conf frame m ∧ ∀ e ∈ frame, PacketOf conf ms e)
    (hevents : ∀ e ∈ events, MayArrive sent e) {s : RecvState} (h : Integral ms s.receiver) :
    ∃ s' os, Library.Runs.run (recvStep env) s events = some (s', os) ∧ Integral ms s'.receiver := by
  induction events generalizing s with
  | nil => exact ⟨s, [], rfl, h⟩
  | cons e events ih =>
    have hstep : ∃ s₁, recvStep env s e = some (s₁, ()) ∧ Integral ms s₁.receiver := by
      have he := hevents e List.mem_cons_self
      cases e with
      | timeout tUs =>
        have h' := h.fragmentTimeout tUs
        simp only [recvStep]
        generalize Receive.fragmentTimeout tUs s.receiver = r at h' ⊢
        exact ⟨⟨r, s.received⟩, rfl, h'⟩
      | packet data dataLen protocolType queue now para =>
        obtain ⟨m, hm, hdata⟩ := he
        obtain ⟨frame, ⟨hfilled, macRev, modcod, hbytes⟩, hpackets⟩ := hsent m hm
        rcases hdata with hdata | hdamage
        · have hholds : Holds data 0 (frameBuffer conf macRev modcod frame) := by
            rw [← hbytes, ← hdata, Holds, window_length]
          obtain ⟨r, hr, h'⟩ := h.frame (m := ⟨.received s.received, data, dataLen, protocolType⟩)
            halloc hc htype hfilled hpackets hholds para
          exact ⟨⟨r, s.received + 1⟩, by rw [recvStep, hr]; rfl, h'⟩
        · have hholds : Holds m.data 0 (frameBuffer conf macRev modcod frame) := by
            rw [← hbytes, Holds, RteMbuf.bytes, window_length]
          obtain ⟨hether, hmsg, hgs⟩ := frameBuffer_forward hc htype hfilled hholds
          have hr := @DamagedHeader.dropped m ⟨.received s.received, data, dataLen, protocolType⟩ hdamage env
            hether hmsg hgs queue now para s.receiver
          refine ⟨⟨{ s.receiver with pool := s.receiver.pool.free (.received s.received) }, s.received + 1⟩, ?_,
            h.woven, h.genuine⟩
          rw [recvStep, hr]
          rfl
    obtain ⟨s₁, hs, h₁⟩ := hstep
    obtain ⟨s', os, hrun, h'⟩ := ih (fun e' he' => hevents e' (List.mem_cons_of_mem e he')) h₁
    refine ⟨s', () :: os, ?_, h'⟩
    rw [run_cons_eq_some]
    exact ⟨s₁, (), os, hs, hrun, rfl⟩

/-- A receiver that gets frames of a run in any order and any number, some of them with damaged
headers, and timeouts between them, hands on what was sent, or a splice. -/
theorem delivered_was_sent {sendEnv : SendEnv} {recvEnv : RecvEnv} {conf : AppConf}
    (hc : conf.Configured) (htype : conf.portToPktType = enumFwdTxFwdData)
    (halloc : ∀ i, recvEnv.allocates i = true) {turns : List Turn}
    (hturns : ∀ m, Turn.pdu m ∈ turns → Plain m) {events : List RecvEvent}
    (hevents : ∀ e ∈ events,
      MayArrive ((Sender.initial.runTurns sendEnv conf turns).output.pool.ring.map Prod.snd) e) :
    ∃ s os, run (recvStep recvEnv) .initial events = some (s, os) ∧
      ∀ pdu ∈ ringPdus s.receiver.pool, Genuine (pdusOf turns) pdu := by
  obtain ⟨j, hj, htaken, hloop⟩ := Journal.Reachable.turns
    (show Journal.Reachable sendEnv conf .initial from .start) hc rfl fun m hm => (hturns m hm).ordinary
  obtain ⟨frames, rest, hf⟩ := hj.follows hc
  have hsender : j.loop.sender = Sender.initial.runTurns sendEnv conf turns := by rw [hloop]
  have hplain : ∀ m ∈ j.taken, Plain m := by
    rw [htaken]
    exact pdusOf_plain hturns
  have hpackets := hf.sent.packetOf hplain
  rw [htaken] at hpackets
  have hsent (m : RteMbuf) (hm : m ∈ (Sender.initial.runTurns sendEnv conf turns).output.pool.ring.map Prod.snd) :
      ∃ frame, CarriesFrame conf frame m ∧ ∀ e ∈ frame, PacketOf conf (pdusOf turns) e := by
    obtain ⟨x, hx, rfl⟩ := List.mem_map.mp hm
    rw [← hsender, hj.output] at hx
    rcases sealed_ring_mem hc htype hf.frames_sealed hx with hnone | ⟨frame, hframe, hcarries⟩
    · exact absurd hnone List.not_mem_nil
    · exact ⟨frame, hcarries, fun e he =>
        hpackets e (List.mem_append_left rest (List.mem_flatten.mpr ⟨frame, hframe, he⟩))⟩
  obtain ⟨s, os, hrun, hintegral⟩ := Integral.run (s := .initial) hc htype halloc hsent hevents
    (Integral.initial (pdusOf turns))
  exact ⟨s, os, hrun, hintegral.genuine⟩

/-- The frames of a run twice over, the later ones first, and a timeout between the two. -/
theorem delivered_was_sent_hundred :
    let ring := (Sender.initial.runTurns sampleEnv sampleConf (hundredTurns ++ [.idle])).output.pool.ring
    ∃ s os, run (recvStep sampleRecvEnv) .initial
        (arrivals ring.reverse ++ [.timeout 1000] ++ arrivals ring) = some (s, os) ∧
      ∀ pdu ∈ ringPdus s.receiver.pool, Genuine (pdusOf (hundredTurns ++ [.idle])) pdu := by
  have harrive (ring ring' : List (ℕ × RteMbuf)) (hring : ∀ x ∈ ring', x ∈ ring) (e : RecvEvent)
      (he : e ∈ arrivals ring') : MayArrive (ring.map Prod.snd) e := by
    obtain ⟨x, hx, rfl⟩ := List.mem_map.mp he
    exact ⟨x.2, List.mem_map_of_mem (hring x hx), .inl rfl⟩
  intro ring
  refine @delivered_was_sent sampleEnv sampleRecvEnv sampleConf sampleConf_configured rfl (fun _ => rfl) _
    (fun m hm => ?_) _ fun e he => ?_
  · simp only [hundredTurns, List.cons_append, List.nil_append, List.mem_cons, Turn.pdu.injEq, reduceCtorEq,
      List.not_mem_nil, or_false, false_or] at hm
    rcases hm with rfl | rfl | rfl <;> exact ⟨by constructor <;> decide, .inl rfl⟩
  · rcases List.mem_append.mp he with he | he
    · rcases List.mem_append.mp he with he | he
      · exact harrive _ _ (fun x hx => List.mem_reverse.mp hx) e he
      · obtain rfl := List.mem_singleton.mp he
        trivial
    · exact harrive _ _ (fun x hx => hx) e he

end Fengtai.Send
