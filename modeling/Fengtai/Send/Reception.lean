import Fengtai.Receive.Coverage
import Fengtai.Receive.Repeats
import Fengtai.Send.Journal
import Fengtai.Send.PacketCodec

set_option autoImplicit false

/-! The packets of the loop on the receive side: what each of them does to a receiver that has
taken the ones before. -/

namespace Fengtai.Send

open Library.Words Crc Receive Sender

structure Plain (m : RteMbuf) : Prop where
  ordinary : Ordinary m
  protocol : m.protocolType = protocolIpv4 ∨ m.protocolType = protocolArp

lemma Plain.protocol_eq {m : RteMbuf} (h : Plain m) : u16 m.protocolType = m.protocolType := by
  rcases h.protocol with hp | hp <;> rw [hp] <;> rfl

lemma Plain.irregular {m : RteMbuf} (h : Plain m) : regularExtHeaderType (u16 m.protocolType) = false := by
  rcases h.protocol with hp | hp <;> rw [hp] <;> decide

def pduOf (m : RteMbuf) : List UInt8 × ℕ := (m.bytes, m.protocolType)

def ringPdus (p : Pool) : List (List UInt8 × ℕ) := p.ring.map fun x => pduOf x.2

section Fragments

variable {conf : AppConf} {m : RteMbuf} {k size : ℕ}

def splitOf (m : RteMbuf) (k size : ℕ) (hm : Ordinary m) (h3 : 3 ≤ size) (h8 : size + 8 ≤ m.dataLen) :
    SplitPdu :=
  .twoParts (numberedStamp k) m.protocolType (window m.data 0 size)
    (window m.data size (m.dataLen - size)) (Nat.mod_lt _ (by norm_num))
    (by rw [window_length]; omega)
    (by
      have hle := hm.size_le
      rw [window_length, fragMaxLength]
      omega)
    (by
      have hle := hm.size_le
      rw [window_length, fragMaxLength]
      omega)

lemma splitOf_whole (hm : Ordinary m) (h3 : 3 ≤ size) (h8 : size + 8 ≤ m.dataLen) :
    (splitOf m k size hm h3 h8).whole = m.bytes := by
  change window m.data 0 size ++ window m.data size (m.dataLen - size) = window m.data 0 m.dataLen
  rw [show m.dataLen = size + (m.dataLen - size) by omega, window_add, Nat.zero_add,
    Nat.add_sub_cancel_left]

lemma holds_offset {mem : Memory} {p : ℕ} {bs : List UInt8} (h : Holds mem p bs) :
    Holds (fun i => mem (p + i)) 0 bs := by
  simpa [Holds, window] using h

lemma start_isFragment {mem : Memory} {p : Parsed} {now : ℕ} (hm : Plain m) (h3 : 3 ≤ size)
    (h8 : size + 8 ≤ m.dataLen) (hlen : p.varHeader.totalLength = u16 (6 + m.dataLen))
    (hsize : p.varHeader.size = ⟨1, 2, 2, 0⟩) (hvar : p.ext.varHeaderSize = 4)
    (hnext : p.ext.nextType = u16 m.protocolType)
    (hstamp : p.ext.timestampSeq = u16 (8 * numberedStamp k)) (hdata : p.datafieldLength = size)
    (hmem : Holds mem p.ptrDatafield (window m.data 0 size)) :
    (splitOf m k size hm.ordinary h3 h8).IsFragment 0 (p.arrival mem now .start) where
  kind := rfl
  len := by
    have hbytes : (splitOf m k size hm.ordinary h3 h8).fragBytes 0 = window m.data 0 size := rfl
    rw [hbytes, window_length]
    exact hdata
  data := holds_offset hmem
  seq := by
    have hlt : numberedStamp k < 8192 := Nat.mod_lt _ (by norm_num)
    change p.ext.timestampSeq = numberedStamp k * 8 + 0
    rw [hstamp, u16_of_lt (by omega)]
    omega
  total _ := by
    have hle := hm.ordinary.size_le
    have hheader : (p.arrival mem now .start).headerLength = 6 := by
      simp only [Parsed.arrival, hvar, hsize]
      rfl
    rw [splitOf_whole]
    change sub16 p.varHeader.totalLength _ = m.bytes.length
    rw [hheader, hlen, u16_of_lt (by omega), sub16_of_le (by omega) (by omega), RteMbuf.bytes,
      window_length]
    omega
  protocol _ := by
    change p.ext.nextType = m.protocolType
    rw [hnext, hm.protocol_eq]

lemma last_isFragment {mem : Memory} {p : Parsed} {now : ℕ} (hm : Plain m) (h3 : 3 ≤ size)
    (h8 : size + 8 ≤ m.dataLen) (hstamp : p.ext.timestampSeq = u16 (8 * numberedStamp k + 1))
    (hdata : p.datafieldLength = m.dataLen - size + 4)
    (hmem : Holds mem p.ptrDatafield (window m.data size (m.dataLen - size) ++ crcBytes m.bytes)) :
    (splitOf m k size hm.ordinary h3 h8).IsFragment 1 (p.arrival mem now .last) := by
  have hbytes : (splitOf m k size hm.ordinary h3 h8).fragBytes 1 =
      window m.data size (m.dataLen - size) ++ crcBytes m.bytes := by
    rw [← splitOf_whole (k := k) hm.ordinary h3 h8]
    rfl
  refine ⟨rfl, ?_, ?_, ?_, fun h => absurd h (by norm_num), fun h => absurd h (by norm_num)⟩
  · rw [hbytes, List.length_append, window_length, crcBytes_length]
    exact hdata
  · rw [hbytes]
    exact holds_offset hmem
  · have hlt : numberedStamp k < 8192 := Nat.mod_lt _ (by norm_num)
    change p.ext.timestampSeq = numberedStamp k * 8 + 1
    rw [hstamp, u16_of_lt (by omega)]
    omega

end Fragments

section Cells

variable {env : Dpdk} {c : FragCell} {p : Pool} {P : SplitPdu} {a : Arrival} {n : ℕ}

lemma fits_two (hP : P.count = 2) : P.Fits ∅ 0 [0, 1] :=
  P.fits_of_nodup (by simp) (by simp [hP]) (by simp) (by simp)

lemma start_reassembled (hP : P.count = 2) (halloc : env.allocates p.allocs = true) (hc : c.Free)
    (ha : P.IsFragment 0 a) (fragID : ℕ) :
    ∃ c', Lone P (P.reserved env p.allocs) {0} 0 c' ∧
      reassemble env fragID (c, p) a = some ((c', { p with allocs := p.allocs + 1 }), ⟨0, none⟩) := by
  have hfits := fits_two hP
  have hrep : P.repeats ∅ 0 = 0 := by simp [SplitPdu.repeats]
  have hne : insert 0 ∅ ≠ Finset.range P.count := by
    rw [hP]
    decide
  obtain ⟨c', hc', hstep⟩ := Lone.step_wait (n := p.allocs) fragID (Lone.idle rfl rfl hc)
    (show 0 < P.count by omega) ha (fun _ => ⟨by simp, rfl, halloc⟩) hfits.1 hne
  rw [hrep, insert_empty_eq] at hc'
  exact ⟨c', hc', hstep⟩

lemma last_reassembled (hP : P.count = 2) (henq : ∀ i, env.enqueues i = true)
    (hc : Lone P (P.reserved env n) {0} 0 c) (ha : P.IsFragment 1 a) (fragID : ℕ) :
    ∃ c' q, c'.Free ∧ reassemble env fragID (c, p) a = some ((c', q), ⟨1, some 0⟩) ∧
      q.ring = p.ring ++ [(0, P.delivered env n)] := by
  have hfits := fits_two hP
  have hfull : insert 1 {0} = Finset.range P.count := by
    rw [hP]
    decide
  have hrep : P.repeats ∅ 0 = 0 := by simp [SplitPdu.repeats]
  have hlast := hfits.2.1
  rw [hrep, insert_empty_eq] at hlast
  obtain ⟨c', hc', hstep⟩ := hc.step_full fragID (show 1 < P.count by omega) ha
    (fun h => absurd h (by norm_num)) hlast hfull
  refine ⟨c', _, hc', hstep, ?_⟩
  simp [Pool.enqueueEncapRing, Pool.reserveFor, henq]

end Cells

inductive ToCome (conf : AppConf) : List RteMbuf → List Entry → Prop
  | nil : ToCome conf [] []
  | cons {m : RteMbuf} {part : List Entry} {ms : List RteMbuf} {es : List Entry} (hm : Plain m)
      (hpart : Chunks conf m part) (h : ToCome conf ms es) : ToCome conf (m :: ms) (part ++ es)

/-- The receiver waits for the packets `es`, and the PDUs in `ms` are not handed on yet: either no
fragment is there, or the START of the next PDU is. -/
inductive Awaits (conf : AppConf) (env : Dpdk) (port : ℕ) (ms : List RteMbuf) :
    List Entry → Table → Prop
  | between {es : List Entry} {T : Table} (h : ToCome conf ms es) (free : ∀ id, (T port id).Free) :
      Awaits conf env port ms es T
  | within {m : RteMbuf} {rest : List RteMbuf} {es : List Entry} {T : Table} {k size n : ℕ}
      (hms : ms = m :: rest) (hm : Plain m) (h3 : 3 ≤ size) (h8 : size + 8 ≤ m.dataLen)
      (h : ToCome conf rest es) (free : ∀ id, id ≠ numberedID k → (T port id).Free)
      (lone : Lone (splitOf m k size hm.ordinary h3 h8)
        ((splitOf m k size hm.ordinary h3 h8).reserved env n) {0} 0 (T port (numberedID k))) :
      Awaits conf env port ms (endEntry conf m k size :: es) T

lemma ToCome.cons_cases {conf : AppConf} {ms : List RteMbuf} {e : Entry} {es : List Entry}
    (h : ToCome conf ms (e :: es)) :
    ∃ m rest, ms = m :: rest ∧ Plain m ∧
      ((∃ t, e = ⟨readEnapsulateBuffer conf m, t⟩ ∧ ToCome conf rest es) ∨
      ∃ k size es', 3 ≤ size ∧ size + 8 ≤ m.dataLen ∧ e = startEntry conf m k size ∧
        es = endEntry conf m k size :: es' ∧ ToCome conf rest es') := by
  generalize hl : e :: es = l at h
  cases h with
  | nil => simp at hl
  | @cons m part rest es₁ hm hpart h =>
    refine ⟨m, rest, rfl, hm, ?_⟩
    cases hpart with
    | whole t =>
      obtain ⟨rfl, rfl⟩ := List.cons.inj hl
      exact .inl ⟨t, rfl, h⟩
    | split k size _ h3 h8 =>
      simp only [List.cons_append, List.nil_append, List.cons.injEq] at hl
      obtain ⟨rfl, rfl⟩ := hl
      exact .inr ⟨k, size, es₁, h3, h8, rfl, rfl, h⟩

section Turn

variable {env : RecvEnv} {mem : Memory} {port : ℕ} {now : ℕ → ℕ} {w : GseWalk} {r : Receiver}

/-- What `filter_address` remembers of a packet without a label. -/
def heard (r : Receiver) : Receiver :=
  { r with previousMacInfo := { r.previousMacInfo with labelType := .broadcast } }

lemma turn_accepted {p : Parsed} (hr : w.receiver = some r)
    (hlabel : (decapsulateGseHeader mem w.pGSE).1.labelType = .broadcast)
    (hp : parsePacket mem w.pGSE w.timestampSeq = some p) :
    (w.turn env mem port now).receiver =
      (p.handle env mem port (now w.pGSE) (heard r)).receiver := by
  have hmatch : w.filter env mem r = (1, (heard r).previousMacInfo) := by
    simp [GseWalk.filter, filterAddress, hlabel, heard]
  simp only [GseWalk.turn, hr, hmatch, if_true, hp, heard]

variable {conf : AppConf} {m : RteMbuf} {k size t : ℕ}

lemma parsePacket_whole (hm : Plain m) {pGSE : ℕ}
    (hmem : Holds mem pGSE ((readEnapsulateBuffer conf m).packetBytes t)) (timestampSeq : ℕ) :
    ∃ p, parsePacket mem pGSE timestampSeq = some p ∧ p.fragType = none ∧ ¬ p.ext.protocolType = pduConcat ∧
      p.ext.nextType = m.protocolType ∧ p.datafieldLength = m.dataLen ∧
      window mem p.ptrDatafield m.dataLen = m.bytes := by
  have hproto : (readEnapsulateBuffer conf m).protocoltype = m.protocolType := hm.protocol_eq
  obtain ⟨p, hp, hkind, hconcat, hnext, -, hlen, hdata⟩ :=
    (readEnapsulateBuffer_sized hm.ordinary).parse_whole rfl (by rw [hproto]; exact hm.irregular) hmem
      timestampSeq
  refine ⟨p, hp, hkind, ?_, by rw [hnext, hproto, hm.protocol_eq], hlen, ?_⟩
  · rw [hconcat]
    decide
  · have hread : (readEnapsulateBuffer conf m).data = m.bytes := by
      simp [EnPduNode.data, readEnapsulateBuffer, Ptr.read, RteMbuf.bytes]
    rw [← hread]
    exact hdata

lemma getSinglePdu_plain (halloc : ∀ i, env.allocates i = true) (hm : Plain m) {ptr : ℕ}
    (hdata : window mem ptr m.dataLen = m.bytes) (pool : Pool) :
    ∃ b, pduOf b = pduOf m ∧ (getSinglePdu env.toDpdk mem ptr m.dataLen m.protocolType pool).1 =
      Pool.enqueueEncapRing env.toDpdk b 0 { pool with allocs := pool.allocs + 1 } := by
  have hle := hm.ordinary.size_le
  have hctrl : m.protocolType ≠ protocolCtrl := by
    rcases hm.protocol with h | h <;> rw [h] <;> decide
  have hroom : ¬ mbufTailroom < m.dataLen := by
    simp only [mbufTailroom]
    omega
  simp only [getSinglePdu, if_neg hctrl, Pool.alloc, halloc, if_true, if_neg hroom, hdata]
  refine ⟨_, ?_, rfl⟩
  have hlen := holds_overwrite (env.room pool.allocs) m.bytes
  rw [Holds, show m.bytes.length = m.dataLen by simp [RteMbuf.bytes]] at hlen
  rw [pduOf, RteMbuf.bytes, hlen]
  rfl

lemma handle_whole (halloc : ∀ i, env.allocates i = true) (henq : ∀ i, env.enqueues i = true)
    (hm : Plain m) {pGSE : ℕ} (hmem : Holds mem pGSE ((readEnapsulateBuffer conf m).packetBytes t))
    (timestampSeq tUs port : ℕ) (r : Receiver) :
    ∃ p q, parsePacket mem pGSE timestampSeq = some p ∧
      (p.handle env mem port tUs r).receiver = some { r with pool := q } ∧
      ringPdus q = ringPdus r.pool ++ [pduOf m] := by
  obtain ⟨p, hp, hkind, hconcat, hnext, hlen, hdata⟩ := parsePacket_whole hm hmem timestampSeq
  obtain ⟨b, hb, hpool⟩ := getSinglePdu_plain halloc hm hdata r.pool
  refine ⟨p, (getSinglePdu env.toDpdk mem p.ptrDatafield m.dataLen m.protocolType r.pool).1, hp,
    by simp only [Parsed.handle, hkind, if_neg hconcat, hnext, hlen], ?_⟩
  rw [hpool]
  simp only [Pool.enqueueEncapRing, henq, if_true, ringPdus, List.map_append, List.map_cons, List.map_nil, hb]

lemma parsePacket_start (hm : Plain m) (h3 : 3 ≤ size) (h8 : size + 8 ≤ m.dataLen) {pGSE : ℕ}
    (hmem : Holds mem pGSE (startEntry conf m k size).bytes) (timestampSeq tUs : ℕ) :
    ∃ p, parsePacket mem pGSE timestampSeq = some p ∧ p.fragType = some .start ∧
      p.varHeader.fragmentID = numberedID k ∧
      (splitOf m k size hm.ordinary h3 h8).IsFragment 0 (p.arrival mem tUs .start) := by
  have hsized := startOf_sized conf hm.ordinary k h3 h8
  have hproto : (startOf conf m k size).protocoltype = m.protocolType := hm.protocol_eq
  obtain ⟨hid, htotal, -, -, -⟩ := hsized.fragment_fields rfl hmem
  obtain ⟨p, hp, hfixed, hvar, hsize, hnext, hstamp, hlen, hdata⟩ :=
    hsized.parse_fragment rfl (by rw [hproto]; exact hm.irregular) hmem timestampSeq
  have hsizes : p.varHeader.size = ⟨1, 2, 2, 0⟩ := by
    rw [hvar, (hsized.header_read hmem).2, hsized.headerSizes_start rfl rfl]
  have hbytes : (startOf conf m k size).data ++ (startOf conf m k size).trailer =
      window m.data 0 size := by
    simp [EnPduNode.data, EnPduNode.trailer, startOf, readEnapsulateBuffer, EnPduNode.zero, Ptr.read]
  rw [hbytes] at hlen hdata
  refine ⟨p, hp, ?_, ?_, start_isFragment hm h3 h8 (by rw [hvar]; exact htotal rfl) hsizes hsize
    (by rw [hnext, hproto]) hstamp (by rw [hlen, window_length]) hdata⟩
  · rw [Parsed.fragType, hfixed]
    rfl
  · rw [hvar, hid]
    exact Nat.mod_eq_of_lt (numberedID_lt k)

lemma handle_start (halloc : ∀ i, env.allocates i = true) (hm : Plain m) (h3 : 3 ≤ size)
    (h8 : size + 8 ≤ m.dataLen) {pGSE : ℕ}
    (hmem : Holds mem pGSE (startEntry conf m k size).bytes) (timestampSeq tUs : ℕ) {r : Receiver}
    (hfree : (r.table port (numberedID k)).Free) :
    ∃ p c n q, parsePacket mem pGSE timestampSeq = some p ∧
      (p.handle env mem port tUs r).receiver =
        some { r with table := r.table.set port (numberedID k) c, pool := q } ∧
      Lone (splitOf m k size hm.ordinary h3 h8)
        ((splitOf m k size hm.ordinary h3 h8).reserved env.toDpdk n) {0} 0 c ∧
      ringPdus q = ringPdus r.pool := by
  obtain ⟨p, hp, hkind, hid, hfrag⟩ := parsePacket_start hm h3 h8 hmem timestampSeq tUs
  obtain ⟨c, hc, hstep⟩ := start_reassembled (p := r.pool) rfl (halloc r.pool.allocs) hfree hfrag
    (numberedID k)
  refine ⟨p, c, _, { r.pool with allocs := r.pool.allocs + 1 }, hp, ?_, hc, rfl⟩
  simp only [Parsed.handle, hkind, hid, hstep, Option.map_some]

lemma parsePacket_last (hm : Plain m) (h3 : 3 ≤ size) (h8 : size + 8 ≤ m.dataLen) {pGSE : ℕ}
    (hmem : Holds mem pGSE (endEntry conf m k size).bytes) (timestampSeq tUs : ℕ) :
    ∃ p, parsePacket mem pGSE timestampSeq = some p ∧ p.fragType = some .last ∧
      p.varHeader.fragmentID = numberedID k ∧
      (splitOf m k size hm.ordinary h3 h8).IsFragment 1 (p.arrival mem tUs .last) := by
  have hsized := endOf_sized conf hm.ordinary k h8
  obtain ⟨hid, -, -, -, -⟩ := hsized.fragment_fields rfl hmem
  obtain ⟨p, hp, hfixed, hvar, -, -, hstamp, hlen, hdata⟩ :=
    hsized.parse_fragment rfl (show regularExtHeaderType (u16 0) = false by decide) hmem timestampSeq
  have hbytes : (endOf conf m k size).data ++ (endOf conf m k size).trailer =
      window m.data size (m.dataLen - size) ++ crcBytes m.bytes := by
    simp [EnPduNode.data, EnPduNode.trailer, endOf, Ptr.read, crcBytes]
  rw [hbytes] at hlen hdata
  refine ⟨p, hp, ?_, ?_, last_isFragment hm h3 h8 hstamp
    (by rw [hlen, List.length_append, window_length, crcBytes_length]) hdata⟩
  · rw [Parsed.fragType, hfixed]
    rfl
  · rw [hvar, hid]
    exact Nat.mod_eq_of_lt (numberedID_lt k)

lemma handle_last (henq : ∀ i, env.enqueues i = true) (hm : Plain m) (h3 : 3 ≤ size)
    (h8 : size + 8 ≤ m.dataLen) {pGSE n : ℕ}
    (hmem : Holds mem pGSE (endEntry conf m k size).bytes) (timestampSeq tUs : ℕ) {r : Receiver}
    (hlone : Lone (splitOf m k size hm.ordinary h3 h8)
      ((splitOf m k size hm.ordinary h3 h8).reserved env.toDpdk n) {0} 0
      (r.table port (numberedID k))) :
    ∃ p c q, parsePacket mem pGSE timestampSeq = some p ∧
      (p.handle env mem port tUs r).receiver =
        some { r with table := r.table.set port (numberedID k) c, pool := q } ∧
      c.Free ∧ ringPdus q = ringPdus r.pool ++ [pduOf m] := by
  obtain ⟨p, hp, hkind, hid, hfrag⟩ := parsePacket_last hm h3 h8 hmem timestampSeq tUs
  obtain ⟨c, q, hc, hstep, hring⟩ := last_reassembled (p := r.pool) rfl henq hlone hfrag (numberedID k)
  refine ⟨p, c, q, hp, ?_, hc, ?_⟩
  · simp only [Parsed.handle, hkind, hid, hstep, Option.map_some]
  · rw [ringPdus, hring, List.map_append, List.map_cons, List.map_nil, ringPdus, pduOf,
      SplitPdu.delivered_bytes, splitOf_whole]
    rfl

lemma Awaits.turn (now : ℕ → ℕ) (halloc : ∀ i, env.allocates i = true) (henq : ∀ i, env.enqueues i = true)
    {ms : List RteMbuf} {e : Entry} {es : List Entry} (h : Awaits conf env.toDpdk port ms (e :: es) r.table)
    (hr : w.receiver = some r) (hmem : Holds mem w.pGSE e.bytes) :
    e.node.Sized ∧ ∃ r' ms', (w.turn env mem port now).receiver = some r' ∧
      Awaits conf env.toDpdk port ms' es r'.table ∧
      ringPdus r'.pool ++ ms'.map pduOf = ringPdus r.pool ++ ms.map pduOf := by
  have hlabel (hsized : e.node.Sized) :
      (decapsulateGseHeader mem w.pGSE).1.labelType = .broadcast := by
    rw [(hsized.header_read hmem).1]
    rfl
  cases h with
  | between hto free =>
    obtain ⟨m, rest, rfl, hm, ⟨t, rfl, hto'⟩ | ⟨k, size, es', h3, h8, rfl, rfl, hto'⟩⟩ := hto.cons_cases
    · -- a whole PDU
      have hsized : (readEnapsulateBuffer conf m).Sized := readEnapsulateBuffer_sized hm.ordinary
      obtain ⟨p, q, hp, hhandle, hq⟩ := handle_whole halloc henq hm hmem w.timestampSeq (now w.pGSE) port
        (heard r)
      refine ⟨hsized, _, rest, (turn_accepted hr (hlabel hsized) hp).trans hhandle,
        .between hto' free, ?_⟩
      rw [hq, List.map_cons, List.append_assoc]
      rfl
    · -- the START of a PDU
      have hsized := startOf_sized conf hm.ordinary k h3 h8
      obtain ⟨p, c, n, q, hp, hhandle, hlone, hq⟩ := handle_start halloc hm h3 h8 hmem w.timestampSeq
        (now w.pGSE) (r := heard r) (free (numberedID k))
      refine ⟨hsized, _, m :: rest, (turn_accepted hr (hlabel hsized) hp).trans hhandle, ?_, ?_⟩
      · refine .within (n := n) rfl hm h3 h8 hto' (fun id hid => ?_) ?_
        · change ((heard r).table.set port (numberedID k) c port id).Free
          rw [Table.set_cases, if_neg fun h => hid h.2]
          exact free id
        · change Lone _ _ _ _ ((heard r).table.set port (numberedID k) c port (numberedID k))
          rwa [Table.set_self]
      · rw [hq]
        rfl
  | @within m rest es _ k size n hms hm h3 h8 hto free lone =>
    have hsized := endOf_sized conf hm.ordinary k h8
    obtain ⟨p, c, q, hp, hhandle, hc, hq⟩ := handle_last henq hm h3 h8 hmem w.timestampSeq (now w.pGSE)
      (r := heard r) lone
    refine ⟨hsized, _, rest, (turn_accepted hr (hlabel hsized) hp).trans hhandle,
      .between hto fun id => ?_, ?_⟩
    · change ((heard r).table.set port (numberedID k) c port id).Free
      rw [Table.set_cases]
      split_ifs with hid
      · exact hc
      · exact free id fun h => hid ⟨rfl, h⟩
    · rw [hq, hms, List.map_cons, List.append_assoc]
      rfl

end Turn

lemma Entry.length_le (es : List Entry) : es.length ≤ (es.map Entry.bytes).flatten.length := by
  induction es with
  | nil => exact le_rfl
  | cons e es ih =>
    have he : 2 ≤ e.bytes.length := by
      simp only [Entry.bytes, EnPduNode.packetBytes, List.length_append, be16_length]
      omega
    rw [List.map_cons, List.flatten_cons, List.length_append, List.length_cons]
    omega

section Frame

variable {env : RecvEnv} {mem : Memory} {port : ℕ} {now : ℕ → ℕ} {conf : AppConf}

/-- What `process_frame_header` finds out about a frame of which `used` bytes are used. -/
def fwdParam (payload used : ℕ) : FrameParam := ⟨payload - used, enumFwdTxFwdData, 66, 10, 10 + payload⟩

lemma goesOn_iff {payload used : ℕ} (hpay : payload ≤ 8000) (hused : used ≤ payload) {w : GseWalk}
    (hw : w.handleTotalSize ≤ used) :
    w.goesOn (fwdParam payload used) = true ↔ w.handleTotalSize < used := by
  have hheader : gseHeaderSize (fwdParam payload used).packType = 10 := rfl
  have hsize : u32 (10 + w.handleTotalSize + (payload - used)) =
      10 + w.handleTotalSize + (payload - used) := Nat.mod_eq_of_lt (by omega)
  rw [GseWalk.goesOn, hheader, decide_eq_true_eq]
  change u32 (10 + w.handleTotalSize + (payload - used)) < 10 + payload ↔ _
  rw [hsize]
  omega

/-- Each packet takes a receiver that is as `I` says to what `I` says of the packets behind it. -/
def TakesEach (env : RecvEnv) (mem : Memory) (port : ℕ) (now : ℕ → ℕ) (I : List Entry → Receiver → Prop) :
    Prop :=
  ∀ e es (w : GseWalk) (r : Receiver), I (e :: es) r → w.receiver = some r → Holds mem w.pGSE e.bytes →
    e.node.Sized ∧ ∃ r', (w.turn env mem port now).receiver = some r' ∧ I es r'

lemma TakesEach.walk {I : List Entry → Receiver → Prop} (hturn : TakesEach env mem port now I)
    {payload used : ℕ} (hpay : payload ≤ 8000) (hused : used ≤ payload) {frame : List Entry}
    (hne : frame ≠ []) {w : GseWalk} {r : Receiver} (h : I frame r) (hr : w.receiver = some r)
    (hmem : Holds mem w.pGSE (frame.map Entry.bytes).flatten)
    (hsize : w.handleTotalSize + (frame.map Entry.bytes).flatten.length = used) {n : ℕ}
    (hn : frame.length ≤ n) :
    ∃ v r', GseWalk.run env mem port now (fwdParam payload used) n w = some v ∧
      v.receiver = some r' ∧ I [] r' := by
  induction frame generalizing w r n with
  | nil => exact absurd rfl hne
  | cons e es ih =>
    obtain ⟨n, rfl⟩ : ∃ k, n = k + 1 := ⟨n - 1, by simp at hn; omega⟩
    rw [List.map_cons, List.flatten_cons, holds_append] at hmem
    rw [List.map_cons, List.flatten_cons, List.length_append] at hsize
    obtain ⟨he, hes⟩ := hmem
    obtain ⟨hsized, r', hr', hnext⟩ := hturn e es w r h hr he
    obtain ⟨hplace, htotal⟩ := GseWalk.turn_places env mem port now hr
    rw [hsized.packet_end he] at hplace htotal
    change _ = w.pGSE + e.bytes.length at hplace
    change _ = u32 (w.handleTotalSize + e.bytes.length) at htotal
    rw [show u32 (w.handleTotalSize + e.bytes.length) = w.handleTotalSize + e.bytes.length from
      Nat.mod_eq_of_lt (by omega)] at htotal
    have hgo := goesOn_iff (w := w.turn env mem port now) hpay hused (by omega)
    rw [GseWalk.run]
    simp only [hr', Option.isSome_some, true_and]
    by_cases hlast : es = []
    · subst hlast
      have hstop : ¬ (w.turn env mem port now).goesOn (fwdParam payload used) = true := by
        rw [hgo]
        simp at hsize
        omega
      exact ⟨_, r', if_neg hstop, hr', hnext⟩
    · have hmore : (w.turn env mem port now).goesOn (fwdParam payload used) = true := by
        have hpos := List.length_pos_iff.mpr hlast
        have hle := Entry.length_le es
        rw [hgo]
        omega
      rw [if_pos hmore]
      exact ih hlast hnext hr' (by rwa [hplace]) (by omega) (Nat.le_of_succ_le_succ hn)

structure Filled (conf : AppConf) (frame : List Entry) : Prop where
  nonempty : frame ≠ []
  sized : ∀ e ∈ frame, e.node.Sized
  used_le : (frame.map fun e => e.node.packetLength).sum ≤ conf.payload

lemma TakesEach.dispatch {I : List Entry → Receiver → Prop} {m : RteMbuf}
    (hturn : TakesEach env m.data port now I) (hc : conf.Configured)
    (htype : conf.portToPktType = enumFwdTxFwdData)
    {frame : List Entry} (hf : Filled conf frame) {r : Receiver} (h : I frame r)
    {macRev : UInt8 × UInt8} {modcod : ℕ} (hm : Holds m.data 0 (frameBuffer conf macRev modcod frame))
    (para : FrameParam) :
    ∃ r', dispatchDecapPkt env m port now para r = some { r' with pool := r'.pool.free m.addr } ∧
      I [] r' := by
  obtain ⟨-, hpay⟩ := hc.payload_bounds
  have hused := hf.used_le
  have hlen := Entry.flatten_length hf.sized
  have hcount := Entry.length_le frame
  generalize hu : (frame.map fun e => e.node.packetLength).sum = used at hused hlen
  rw [frameBuffer, hu] at hm
  have hpackets : Holds m.data 66 (frame.map Entry.bytes).flatten := holds_packets hm
  rw [List.append_assoc _ (frame.map Entry.bytes).flatten] at hm
  obtain ⟨hret, hpara, hmbuf, hpool⟩ := processFrameHeader_fwdData htype hm (show conf.payload ≤ 8000 by omega)
    hused para r.pool
  obtain ⟨v, r', hrun, hv, hlast⟩ := hturn.walk (w := .first 66 r) (n := gseTurns)
    (show conf.payload ≤ 8000 by omega) hused hf.nonempty h rfl hpackets
    (by rw [hlen]; exact Nat.zero_add used) (by rw [gseTurns]; omega)
  refine ⟨r', ?_, hlast⟩
  have hwalk : walkGse env m.data port now (fwdParam conf.payload used) r = some v := hrun
  have hdecap : decapsulateGse env m port now (fwdParam conf.payload used) r =
      some { r' with pool := r'.pool.free m.addr } := by
    simp only [decapsulateGse, hwalk, Option.bind_some, hv, Option.map_some]
  have hskip : ¬ ((0 : ℤ) = -1 ∨ (0 : ℤ) = 2) := by norm_num
  simp only [dispatchDecapPkt, hret, hpara, hmbuf, hpool, if_neg hskip, true_or, or_true, if_true]
  exact hdecap

lemma Awaits.frame (now : ℕ → ℕ) (hc : conf.Configured) (htype : conf.portToPktType = enumFwdTxFwdData)
    (halloc : ∀ i, env.allocates i = true) (henq : ∀ i, env.enqueues i = true)
    {frame later : List Entry} (hf : Filled conf frame) {ms : List RteMbuf} {r : Receiver}
    (h : Awaits conf env.toDpdk port ms (frame ++ later) r.table) {m : RteMbuf}
    {macRev : UInt8 × UInt8} {modcod : ℕ} (hm : Holds m.data 0 (frameBuffer conf macRev modcod frame))
    (para : FrameParam) :
    ∃ r' ms', dispatchDecapPkt env m port now para r = some r' ∧
      Awaits conf env.toDpdk port ms' later r'.table ∧
      ringPdus r'.pool ++ ms'.map pduOf = ringPdus r.pool ++ ms.map pduOf := by
  have hturn : TakesEach env m.data port now fun es r' =>
      ∃ ms', Awaits conf env.toDpdk port ms' (es ++ later) r'.table ∧
        ringPdus r'.pool ++ ms'.map pduOf = ringPdus r.pool ++ ms.map pduOf := by
    rintro e es w r₁ ⟨ms₁, hawait, hring⟩ hr hmem
    obtain ⟨hsized, r', ms', hr', hnext, hring'⟩ := hawait.turn now halloc henq hr hmem
    exact ⟨hsized, r', hr', ms', hnext, hring'.trans hring⟩
  obtain ⟨r', hstep, ms', hawait, hring⟩ := hturn.dispatch hc htype hf ⟨ms, h, rfl⟩ hm para
  exact ⟨_, ms', hstep, hawait, hring⟩

end Frame

end Fengtai.Send
