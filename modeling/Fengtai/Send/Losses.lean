import Fengtai.Send.Integrity

set_option autoImplicit false

/-! Frames are lost, and the others come in their order: a PDU is lost only with a frame that it is in. -/

namespace Fengtai.Send

open Library.Words Library.Runs Crc Receive Sender

/-- What a buffer of `fragID` may hold of the PDUs in `before`, of which `k` were fragmented. -/
structure Stale (before : List RteMbuf) (k fragID : ℕ) (f : FragInfo) : Prop where
  woven : Woven before before f
  pduType : f.pduType = ipPacket ∨ f.pduType = ctrlmsgFwd ∨ f.pduType = ctrlmsgRtn
  number : f.Free ∨
    0 < f.fragRecvNum ∧ ∃ l, 0 < l ∧ l ≤ k ∧ numberedID l = fragID ∧ f.timeStamp = numberedStamp l

lemma numberedStamp_ne {k l : ℕ} (hk : k ≤ 2 ^ 21) (hl : 0 < l) (hlt : l < k) (hid : numberedID l = numberedID k) :
    numberedStamp l ≠ numberedStamp k := by
  simp only [numberedID, numberedStamp] at hid ⊢
  omega

section Buffer

variable {before : List RteMbuf} {k fragID size : ℕ} {f : FragInfo} {m : RteMbuf} {env : Dpdk} {a : Arrival}
  {p : Pool}

namespace Stale

lemma of_free (h : f.Free) : Stale before k fragID f where
  woven := by
    rw [← h.reset]
    exact Woven.reset before before f
  pduType := h.pduType
  number := .inl h

lemma mono {before' : List RteMbuf} {k' : ℕ} (h : Stale before k fragID f) (hbefore : before ⊆ before')
    (hk : k ≤ k') : Stale before' k' fragID f where
  woven := h.woven.mono hbefore hbefore
  pduType := h.pduType
  number := h.number.imp_right fun ⟨hnum, l, hl, hle, hrest⟩ => ⟨hnum, l, hl, hle.trans hk, hrest⟩

lemma free_of_stamp (h : Stale before k (numberedID (k + 1)) f) (hk : k < 2 ^ 21)
    (hstamp : f.timeStamp = numberedStamp (k + 1)) : f.Free := by
  obtain hfree | ⟨-, l, hl, hle, hid, hl'⟩ := h.number
  · exact hfree
  · exact absurd (hl'.symm.trans hstamp) (numberedStamp_ne hk hl (Nat.lt_succ_of_le hle) hid)

end Stale

lemma receive_evicts (hkind : a.fragType = .start) (hnum : 0 < f.fragRecvNum) (hne : a.timeStamp ≠ f.timeStamp) :
    f.receive env fragID a p = f.reset.receive env fragID a (p.freeHeld f.pduNode.ptrPdu) := by
  have hstart : f.start env fragID a p = f.reset.start env fragID a (p.freeHeld f.pduNode.ptrPdu) := by
    have hempty : ¬ 0 < f.reset.fragRecvNum := lt_irrefl 0
    simp only [FragInfo.start, discardReceived, if_pos hnum, if_pos hne, if_neg hempty]
  simp only [FragInfo.receive, hkind, if_true, hstart]

lemma Holding.woven {starts lasts : List RteMbuf} {n : ℕ} (hm : Plain m) (h3 : 3 ≤ size)
    (h8 : size + 8 ≤ m.dataLen)
    (h : Holding (splitOf m k size hm.ordinary h3 h8)
      ((splitOf m k size hm.ordinary h3 h8).reserved env n) {0} 0 f)
    (hmem : m ∈ starts) : Woven starts lasts f := by
  have hbytes : (splitOf m k size hm.ordinary h3 h8).fragBytes 0 = m.bytes.take size :=
    bytes_take (by omega)
  have hlen : (m.bytes.take size).length = size := by
    rw [← bytes_take (by omega), window_length]
  have hzero : f.fragLen 0 = size := by
    rw [h.fragLen 0]
    exact (congrArg List.length hbytes).trans hlen
  have hone : f.fragLen 1 = 0 := by
    rw [h.fragLen 1]
    rfl
  have hwhole : (splitOf m k size hm.ordinary h3 h8).whole.length = m.dataLen := by
    rw [splitOf_whole, RteMbuf.bytes, window_length]
  have hnode : f.pduNode = ⟨(splitOf m k size hm.ordinary h3 h8).whole.length,
      some ((splitOf m k size hm.ordinary h3 h8).reserved env n)⟩ := h.node
  refine ⟨fun _ => ⟨m, hmem, size, by omega, ?_, hzero, ?_, fun b hb => ?_⟩, fun hpos => ?_, ?_,
    ?_, fun hend => ?_⟩
  · rw [h.data 0 (Finset.mem_singleton_self 0)]
    exact hbytes
  · rw [hnode]
    exact hwhole
  · rw [hnode] at hb
    obtain rfl := Option.some.inj hb
    exact ⟨hwhole, rfl⟩
  · omega
  · have hfilled : filled f 0 = 1 := if_pos (by omega)
    rw [h.recvNum, hfilled, Finset.card_singleton]
    exact Nat.le_add_right 1 _
  · rw [h.maxSeq]
    exact Nat.zero_le 1
  · rw [h.recvEnd] at hend
    exact absurd hend Bool.false_ne_true

namespace Stale

lemma stored_pos (h : Stale before k fragID f) (s : Fin fragMaxNum) (isEnd : Bool) (fragLen id stamp : ℕ)
    (bytes : List UInt8) :
    0 < (((f.dropOld s).countLength isEnd fragLen).store s id stamp bytes).fragRecvNum := by
  obtain ⟨-, -, -, -, hnum⟩ := Woven.counted f s isEnd fragLen
  have hrecv := h.woven.recvNum
  have hsmall (i : Fin fragMaxNum) : filled f i ≤ 1 := by
    rw [filled]
    split_ifs <;> simp
  have hzero := hsmall 0
  have hone := hsmall 1
  change 0 < u16 (((f.dropOld s).countLength isEnd fragLen).fragRecvNum + 1)
  rw [hnum]
  split_ifs with hold
  · rw [sub16_of_le (by omega) (by omega), u16_of_lt (by omega)]
    exact Nat.succ_pos _
  · rw [u16_of_lt (by omega)]
    exact Nat.succ_pos _

variable (hm : Plain m) (h3 : 3 ≤ size) (h8 : size + 8 ≤ m.dataLen)

include hm h3 h8

lemma start (h : Stale before k (numberedID (k + 1)) f) (hk : k < 2 ^ 21) (halloc : ∀ i, env.allocates i = true)
    (ha : (splitOf m (k + 1) size hm.ordinary h3 h8).IsFragment 0 a) :
    ∃ n g q, f.receive env fragID a p = some (⟨0, none⟩, g, q) ∧ ringPdus q = ringPdus p ∧
      Holding (splitOf m (k + 1) size hm.ordinary h3 h8)
        ((splitOf m (k + 1) size hm.ordinary h3 h8).reserved env n) {0} 0 g := by
  have hfits := fits_two (P := splitOf m (k + 1) size hm.ordinary h3 h8) rfl
  have hfirst (g : FragInfo) (q : Pool) (hg : g.Free) : ∃ n g' q', g.receive env fragID a q =
      some (⟨0, none⟩, g', q') ∧ ringPdus q' = ringPdus q ∧
      Holding (splitOf m (k + 1) size hm.ordinary h3 h8)
        ((splitOf m (k + 1) size hm.ordinary h3 h8).reserved env n) {0} 0 g' := by
    obtain ⟨g', hg', hreceive⟩ := (Holding.of_free hg).receive_wait fragID (show 0 < 2 by decide) ha
      (fun _ => ⟨by simp, rfl, halloc q.allocs⟩) hfits.1 (show insert 0 ∅ ≠ Finset.range 2 by decide)
    exact ⟨q.allocs, g', _, hreceive, rfl, hg'⟩
  obtain hfree | ⟨hnum, -⟩ := h.number
  · exact hfirst f p hfree
  · by_cases hstamp : f.timeStamp = numberedStamp (k + 1)
    · exact hfirst f p (h.free_of_stamp hk hstamp)
    · have hne : a.timeStamp ≠ f.timeStamp := by
        rw [ha.timeStamp_eq (show 0 < 2 by decide)]
        exact fun heq => hstamp heq.symm
      obtain ⟨n, g, q, hreceive, hring, hg⟩ := hfirst f.reset (p.freeHeld f.pduNode.ptrPdu) ⟨rfl, h.pduType⟩
      refine ⟨n, g, q, ?_, ?_, hg⟩
      · rw [receive_evicts (ha.isStart.mpr rfl) hnum hne]
        exact hreceive
      · rw [hring, ringPdus, Pool.freeHeld_ring, ringPdus]

lemma kept (h : Stale before k (numberedID (k + 1)) f)
    (ha : (splitOf m (k + 1) size hm.ordinary h3 h8).IsFragment 1 a) {r : Received}
    (hr : f.keep fragID a p = some r) : Stale (before ++ [m]) (k + 1) (numberedID (k + 1)) r.info := by
  have hwoven := (h.woven.kept hm h3 h8 ha hr).mono (List.subset_append_left before [m])
    (List.subset_append_right before [m])
  obtain ⟨hs, ⟨-, rfl⟩ | ⟨-, -, rfl⟩⟩ := FragInfo.keep_cases hr
  · exact .of_free ⟨rfl, h.pduType⟩
  · have hsettle (g : FragInfo) (q : Pool) : (g.settle a.now q).info.pduType = g.pduType ∧
        (g.settle a.now q).info.fragRecvNum = g.fragRecvNum := by
      obtain ⟨-, hs⟩ | ⟨-, hs⟩ | ⟨-, hs⟩ := g.settle_cases a.now q <;> rw [hs] <;> exact ⟨rfl, rfl⟩
    refine ⟨hwoven, ?_, .inr ⟨?_, k + 1, Nat.succ_pos k, le_rfl, rfl, ?_⟩⟩
    · rw [(hsettle _ _).1]
      have hkeeps :
          ((f.dropOld ⟨a.fragSeq, hs⟩).countLength (a.fragType = .last) a.fragLen).pduType = f.pduType := by
        simp only [FragInfo.dropOld, FragInfo.countLength]
        split_ifs <;> rfl
      exact hkeeps ▸ h.pduType
    · rw [(hsettle _ _).2]
      exact h.stored_pos ⟨a.fragSeq, hs⟩ _ _ _ _ _
    · rw [FragInfo.settle_timeStamp]
      exact ha.timeStamp_eq (show 1 < 2 by decide)

lemma last (h : Stale before k (numberedID (k + 1)) f)
    (ha : (splitOf m (k + 1) size hm.ordinary h3 h8).IsFragment 1 a) (env : Dpdk) (p : Pool) :
    ∃ t, f.receive env fragID a p = some t ∧ Stale (before ++ [m]) (k + 1) (numberedID (k + 1)) t.2.1 ∧
      Gains before [m] p t.2.2 := by
  have hlen : a.fragLen ≤ fragMaxLength := by
    rw [ha.len]
    exact SplitPdu.fragBytes_le (show 1 < 2 by decide)
  have hseq : a.fragSeq < fragMaxNum := by
    rw [ha.fragSeq_eq (show 1 < 2 by decide)]
    decide
  have hkind : a.fragType ≠ .start := fun hstart => absurd (ha.isStart.mp hstart) one_ne_zero
  obtain ⟨r, hr⟩ := FragInfo.keep_isSome fragID f p hseq hlen
  obtain ⟨t, ht, hinfo, hgains⟩ := @Woven.received before [m] f p env fragID a r
    (by rw [if_neg hkind]; exact hr) (h.woven.kept hm h3 h8 ha hr)
  refine ⟨t, ht, ?_, hgains⟩
  have hkept := h.kept hm h3 h8 ha hr
  obtain hinfo | hinfo := hinfo
  · rwa [hinfo]
  · rw [hinfo]
    exact .of_free ⟨rfl, hkept.pduType⟩

end Stale

end Buffer

def withFrames : ℕ → List (List Entry) → List (Entry × ℕ)
  | _, [] => []
  | i, frame :: frames => frame.map (fun e => (e, i)) ++ withFrames (i + 1) frames

inductive Placed (conf : AppConf) : ℕ → List RteMbuf → List (Entry × ℕ) → List (ℕ × ℕ) → Prop
  | nil (k : ℕ) : Placed conf k [] [] []
  | whole {k i : ℕ} {m : RteMbuf} (t : ℕ) {ms : List RteMbuf} {es : List (Entry × ℕ)} {places : List (ℕ × ℕ)}
      (hm : Plain m) (h : Placed conf k ms es places) :
      Placed conf k (m :: ms) ((⟨readEnapsulateBuffer conf m, t⟩, i) :: es) ((i, i) :: places)
  | split {k size i j : ℕ} {m : RteMbuf} {ms : List RteMbuf} {es : List (Entry × ℕ)} {places : List (ℕ × ℕ)}
      (hm : Plain m) (h3 : 3 ≤ size) (h8 : size + 8 ≤ m.dataLen) (h : Placed conf (k + 1) ms es places) :
      Placed conf k (m :: ms) ((startEntry conf m (k + 1) size, i) :: (endEntry conf m (k + 1) size, j) :: es)
        ((i, j) :: places)

def surviving (keep : ℕ → Bool) (ms : List RteMbuf) (places : List (ℕ × ℕ)) : List (List UInt8 × ℕ) :=
  ((ms.zip places).filter fun x => keep x.2.1 && keep x.2.2).map fun x => pduOf x.1

lemma surviving_cons (keep : ℕ → Bool) (m : RteMbuf) (i j : ℕ) (ms : List RteMbuf) (places : List (ℕ × ℕ)) :
    surviving keep (m :: ms) ((i, j) :: places) =
      if keep i && keep j then pduOf m :: surviving keep ms places else surviving keep ms places := by
  simp only [surviving, List.zip_cons_cons, List.filter_cons]
  split_ifs <;> rfl

def Misjoined (ms : List RteMbuf) (pdu : List UInt8 × ℕ) : Prop :=
  ∃ before m' after, ms = before ++ m' :: after ∧ ∃ m ∈ before, Joins m m' pdu

/-- The ring holds the PDUs `got`, and between them only what was put together wrongly. -/
def Collected (ms : List RteMbuf) (got : List (List UInt8 × ℕ)) (p : Pool) : Prop :=
  ∃ tagged : List ((List UInt8 × ℕ) × Bool), ringPdus p = tagged.map Prod.fst ∧
    (tagged.filter Prod.snd).map Prod.fst = got ∧ ∀ x ∈ tagged, x.2 = false → Misjoined ms x.1

namespace Collected

variable {ms : List RteMbuf} {got : List (List UInt8 × ℕ)} {p q : Pool}

lemma same (h : Collected ms got p) (hring : ringPdus q = ringPdus p) : Collected ms got q := by
  rwa [Collected, hring]

lemma own (h : Collected ms got p) {pdu : List UInt8 × ℕ} (hring : ringPdus q = ringPdus p ++ [pdu]) :
    Collected ms (got ++ [pdu]) q := by
  obtain ⟨tagged, hp, hgot, hwrong⟩ := h
  refine ⟨tagged ++ [(pdu, true)], by rw [hring, hp, List.map_append]; rfl, ?_, fun x hx hfalse => ?_⟩
  · rw [List.filter_append, List.map_append, hgot]
    rfl
  · rcases List.mem_append.mp hx with hold | hnew
    · exact hwrong x hold hfalse
    · obtain rfl := List.mem_singleton.mp hnew
      cases hfalse

lemma gains {before after : List RteMbuf} {m : RteMbuf} (h : Collected ms got p) (hms : ms = before ++ m :: after)
    (hgains : Gains before [m] p q) : Collected ms got q := by
  obtain hsame | ⟨m₁, hm₁, m₂, hm₂, pdu, hjoins, hring⟩ := hgains
  · exact h.same hsame
  · obtain ⟨tagged, hp, hgot, hwrong⟩ := h
    obtain rfl := List.mem_singleton.mp hm₂
    refine ⟨tagged ++ [(pdu, false)], by rw [hring, hp, List.map_append]; rfl, ?_, fun x hx hfalse => ?_⟩
    · rw [List.filter_append, List.map_append, hgot]
      exact List.append_nil got
    · rcases List.mem_append.mp hx with hold | hnew
      · exact hwrong x hold hfalse
      · obtain rfl := List.mem_singleton.mp hnew
        exact ⟨before, m₂, after, hms, m₁, hm₁, hjoins⟩

end Collected

section Receiving

variable {conf : AppConf} {env : RecvEnv} {port : ℕ} {keep : ℕ → Bool} {ms : List RteMbuf}
  {total : List (List UInt8 × ℕ)}

def AllStale (before : List RteMbuf) (k port : ℕ) (T : Table) : Prop :=
  ∀ fragID b, Stale before k fragID ((T port fragID).info b)

/-- The packets that are still to come, and the receiver that has got those before them, as far as their
frames were kept: at a PDU's beginning, or behind its START. -/
inductive Progress (conf : AppConf) (env : Dpdk) (port : ℕ) (keep : ℕ → Bool) (ms : List RteMbuf)
    (total : List (List UInt8 × ℕ)) : List (Entry × ℕ) → Receiver → Prop
  | between {before after : List RteMbuf} {k : ℕ} {es : List (Entry × ℕ)} {places : List (ℕ × ℕ)}
      {got : List (List UInt8 × ℕ)} {r : Receiver} (hms : ms = before ++ after) (hk : k ≤ before.length)
      (h : Placed conf k after es places) (hgot : Collected ms got r.pool)
      (htotal : got ++ surviving keep after places = total) (stale : AllStale before k port r.table) :
      Progress conf env port keep ms total es r
  | missed {before after : List RteMbuf} {m : RteMbuf} {k size i j : ℕ} {es : List (Entry × ℕ)}
      {places : List (ℕ × ℕ)} {got : List (List UInt8 × ℕ)} {r : Receiver} (hms : ms = before ++ m :: after)
      (hk : k ≤ before.length) (hm : Plain m) (h3 : 3 ≤ size) (h8 : size + 8 ≤ m.dataLen)
      (h : Placed conf (k + 1) after es places) (hgot : Collected ms got r.pool)
      (htotal : got ++ surviving keep (m :: after) ((i, j) :: places) = total) (hlost : keep i = false)
      (stale : AllStale before k port r.table) :
      Progress conf env port keep ms total ((endEntry conf m (k + 1) size, j) :: es) r
  | held {before after : List RteMbuf} {m : RteMbuf} {k size i j n : ℕ} {b : Fin fragBufferNum}
      {es : List (Entry × ℕ)} {places : List (ℕ × ℕ)} {got : List (List UInt8 × ℕ)} {r : Receiver}
      (hms : ms = before ++ m :: after) (hk : k ≤ before.length) (hm : Plain m) (h3 : 3 ≤ size)
      (h8 : size + 8 ≤ m.dataLen) (h : Placed conf (k + 1) after es places) (hgot : Collected ms got r.pool)
      (htotal : got ++ surviving keep (m :: after) ((i, j) :: places) = total) (hkept : keep i = true)
      (stale : AllStale (before ++ [m]) (k + 1) port r.table)
      (hselect : (r.table port (numberedID (k + 1))).select (numberedStamp (k + 1)) =
        (b, r.table port (numberedID (k + 1))))
      (holds : Holding (splitOf m (k + 1) size hm.ordinary h3 h8)
        ((splitOf m (k + 1) size hm.ordinary h3 h8).reserved env n) {0} 0
          ((r.table port (numberedID (k + 1))).info b)) :
      Progress conf env port keep ms total ((endEntry conf m (k + 1) size, j) :: es) r

namespace Progress

lemma shift {before after : List RteMbuf} {m : RteMbuf} (h : ms = before ++ m :: after) :
    ms = (before ++ [m]) ++ after := by rw [h, List.append_assoc]; rfl

lemma stale_mono {before : List RteMbuf} {k k' : ℕ} {T : Table} (h : AllStale before k port T) (m : RteMbuf)
    (hk : k ≤ k') : AllStale (before ++ [m]) k' port T :=
  fun fragID b => (h fragID b).mono (List.subset_append_left before [m]) hk

lemma length_succ {before : List RteMbuf} {k : ℕ} (h : k ≤ before.length) (m : RteMbuf) :
    k + 1 ≤ (before ++ [m]).length := by
  rw [List.length_append]
  exact Nat.add_le_add_right h 1

lemma skip {e : Entry} {i : ℕ} {es : List (Entry × ℕ)} {r : Receiver}
    (h : Progress conf env.toDpdk port keep ms total ((e, i) :: es) r) (hi : keep i = false) :
    Progress conf env.toDpdk port keep ms total es r := by
  cases h with
  | @between before _ k _ _ _ _ hms hk h hgot htotal stale =>
    cases h with
    | @whole _ _ m t _ _ _ hm h =>
      refine .between (shift hms) (hk.trans ?_) h hgot ?_ (stale_mono stale m le_rfl)
      · rw [List.length_append]
        exact Nat.le_add_right _ _
      · rw [← htotal, surviving_cons, hi]
        rfl
    | split hm h3 h8 h => exact .missed hms hk hm h3 h8 h hgot htotal hi stale
  | @missed before _ m k size i' j _ _ _ _ hms hk hm h3 h8 h hgot htotal hlost stale =>
    refine .between (shift hms) (length_succ hk m) h hgot ?_ (stale_mono stale m (Nat.le_succ k))
    rw [← htotal, surviving_cons, hlost]
    rfl
  | @held before _ m k size i' j n b _ _ _ _ hms hk hm h3 h8 h hgot htotal hkept stale hselect holds =>
    refine .between (shift hms) (length_succ hk m) h hgot ?_ stale
    rw [← htotal, surviving_cons, hi, Bool.and_false]
    rfl

section Turn

variable {mem : Memory} (now : ℕ → ℕ) {w : GseWalk} {r : Receiver} {es : List (Entry × ℕ)}
    {m : RteMbuf} {k size : ℕ}

lemma hears_start {before : List RteMbuf} (halloc : ∀ i, env.allocates i = true) (hk : k < 2 ^ 21) (hm : Plain m)
    (h3 : 3 ≤ size) (h8 : size + 8 ≤ m.dataLen) (hr : w.receiver = some r)
    (hmem : Holds mem w.pGSE (startEntry conf m (k + 1) size).bytes) (stale : AllStale before k port r.table) :
    ∃ r' b n, (w.turn env mem port now).receiver = some r' ∧ ringPdus r'.pool = ringPdus r.pool ∧
      AllStale (before ++ [m]) (k + 1) port r'.table ∧
      (r'.table port (numberedID (k + 1))).select (numberedStamp (k + 1)) =
        (b, r'.table port (numberedID (k + 1))) ∧
      Holding (splitOf m (k + 1) size hm.ordinary h3 h8)
        ((splitOf m (k + 1) size hm.ordinary h3 h8).reserved env.toDpdk n) {0} 0
          ((r'.table port (numberedID (k + 1))).info b) := by
  have hsized := startOf_sized conf hm.ordinary (k + 1) h3 h8
  have hlabel : (decapsulateGseHeader mem w.pGSE).1.labelType = .broadcast := by
    rw [(hsized.header_read hmem).1]
    rfl
  obtain ⟨p, hp, hkind, hid, hfrag⟩ := parsePacket_start hm h3 h8 hmem w.timestampSeq (now w.pGSE)
  have hstamp : (p.arrival mem (now w.pGSE) .start).timeStamp = numberedStamp (k + 1) :=
    hfrag.timeStamp_eq (show 0 < 2 by decide)
  obtain ⟨n, g, q, hreceive, hring, hg⟩ := @Stale.start before k (numberedID (k + 1)) size _ m env.toDpdk _
    r.pool hm h3 h8 (stale (numberedID (k + 1))
      ((r.table port (numberedID (k + 1))).select (numberedStamp (k + 1))).1) hk halloc hfrag
  have hgstamp : g.timeStamp = numberedStamp (k + 1) := hg.stamp
  have hstart : Stale (before ++ [m]) (k + 1) (numberedID (k + 1)) g :=
    ⟨Holding.woven hm h3 h8 hg (by simp), hg.pduType,
      .inr ⟨by rw [hg.recvNum]; decide, k + 1, Nat.succ_pos k, le_rfl, rfl, hgstamp⟩⟩
  refine ⟨_, ((r.table port (numberedID (k + 1))).select (numberedStamp (k + 1))).1, n,
    (turn_accepted hr hlabel hp).trans (handle_chosen (r := heard r) hkind hid hstamp
      (fun _ => hfrag.fragSeq_eq (show 0 < 2 by decide)) hreceive), hring, fun fragID b => ?_, ?_, ?_⟩
  · simp only [set_chosen]
    split_ifs with hchosen
    · rw [hchosen.2.1]
      exact hstart
    · exact stale_mono stale m (Nat.le_succ k) fragID b
  · simp only [Table.set_self]
    exact FragCell.select_again hgstamp
  · simp only [Table.set_self]
    exact (congrArg (Holding _ _ {0} 0) (FragCell.set_info _ _ g)).mpr hg

lemma hears_end {before : List RteMbuf} {n : ℕ} {b : Fin fragBufferNum} (henq : ∀ i, env.enqueues i = true)
    (hm : Plain m) (h3 : 3 ≤ size) (h8 : size + 8 ≤ m.dataLen) (hr : w.receiver = some r)
    (hmem : Holds mem w.pGSE (endEntry conf m k size).bytes) (stale : AllStale before k port r.table)
    (hselect : (r.table port (numberedID k)).select (numberedStamp k) = (b, r.table port (numberedID k)))
    (holds : Holding (splitOf m k size hm.ordinary h3 h8)
      ((splitOf m k size hm.ordinary h3 h8).reserved env.toDpdk n) {0} 0
        ((r.table port (numberedID k)).info b)) :
    ∃ r', (w.turn env mem port now).receiver = some r' ∧ ringPdus r'.pool = ringPdus r.pool ++ [pduOf m] ∧
      AllStale before k port r'.table := by
  have hsized := endOf_sized conf hm.ordinary k h8
  have hlabel : (decapsulateGseHeader mem w.pGSE).1.labelType = .broadcast := by
    rw [(hsized.header_read hmem).1]
    rfl
  obtain ⟨p, hp, hkind, hid, hfrag⟩ := parsePacket_last hm h3 h8 hmem w.timestampSeq (now w.pGSE)
  have hstamp : (p.arrival mem (now w.pGSE) .last).timeStamp = numberedStamp k :=
    hfrag.timeStamp_eq (show 1 < 2 by decide)
  have hfits := (fits_two (P := splitOf m k size hm.ordinary h3 h8) rfl).2.1
  obtain ⟨g, hg, hreceive⟩ := holds.receive_full (p := r.pool) (numberedID k) (show 1 < 2 by decide) hfrag
    (fun h => absurd h one_ne_zero) hfits (show insert 1 {0} = Finset.range 2 by decide)
  have hchosen : ((r.table port (numberedID k)).select (numberedStamp k)).1 = b := by rw [hselect]
  rw [← hchosen] at hreceive
  refine ⟨_, (turn_accepted hr hlabel hp).trans (handle_chosen (r := heard r) hkind hid hstamp
    (fun hstart => by cases hstart) hreceive), ?_, fun fragID b => ?_⟩
  · have hpdu : pduOf ((splitOf m k size hm.ordinary h3 h8).delivered env.toDpdk n) = pduOf m := by
      rw [pduOf, SplitPdu.delivered_bytes, splitOf_whole]
      rfl
    simp only [ringPdus, Pool.enqueueEncapRing, Pool.reserveFor, one_ne_zero, henq, if_false, if_true,
      List.map_append, List.map_cons, List.map_nil, hpdu]
  · simp only [set_chosen]
    split_ifs
    · exact .of_free hg
    · exact stale fragID b

lemma hears_lone_end {before : List RteMbuf} (hm : Plain m) (h3 : 3 ≤ size) (h8 : size + 8 ≤ m.dataLen)
    (hr : w.receiver = some r) (hmem : Holds mem w.pGSE (endEntry conf m (k + 1) size).bytes)
    (stale : AllStale before k port r.table) :
    ∃ r', (w.turn env mem port now).receiver = some r' ∧ Gains before [m] r.pool r'.pool ∧
      AllStale (before ++ [m]) (k + 1) port r'.table := by
  have hsized := endOf_sized conf hm.ordinary (k + 1) h8
  have hlabel : (decapsulateGseHeader mem w.pGSE).1.labelType = .broadcast := by
    rw [(hsized.header_read hmem).1]
    rfl
  obtain ⟨p, hp, hkind, hid, hfrag⟩ := parsePacket_last hm h3 h8 hmem w.timestampSeq (now w.pGSE)
  have hstamp : (p.arrival mem (now w.pGSE) .last).timeStamp = numberedStamp (k + 1) :=
    hfrag.timeStamp_eq (show 1 < 2 by decide)
  obtain ⟨t, hreceive, hstale, hgains⟩ := @Stale.last before k (numberedID (k + 1)) size _ m _ hm h3 h8
    (stale (numberedID (k + 1)) ((r.table port (numberedID (k + 1))).select (numberedStamp (k + 1))).1) hfrag
    env.toDpdk r.pool
  refine ⟨_, (turn_accepted hr hlabel hp).trans (handle_chosen (r := heard r) hkind hid hstamp
    (fun hstart => by cases hstart) hreceive), hgains, fun fragID b => ?_⟩
  simp only [set_chosen]
  split_ifs with hchosen
  · rw [hchosen.2.1]
    exact hstale
  · exact stale_mono stale m (Nat.le_succ k) fragID b

lemma turn (halloc : ∀ i, env.allocates i = true) (henq : ∀ i, env.enqueues i = true)
    (hsmall : ms.length ≤ 2 ^ 21) {e : Entry} {i : ℕ}
    (h : Progress conf env.toDpdk port keep ms total ((e, i) :: es) r) (hi : keep i = true)
    (hr : w.receiver = some r) (hmem : Holds mem w.pGSE e.bytes) :
    e.node.Sized ∧ ∃ r', (w.turn env mem port now).receiver = some r' ∧
      Progress conf env.toDpdk port keep ms total es r' := by
  cases h with
  | @between before after k _ _ got _ hms hk h hgot htotal stale =>
    cases h with
    | @whole _ _ m t _ _ _ hm h =>
      have hsized : (readEnapsulateBuffer conf m).Sized := readEnapsulateBuffer_sized hm.ordinary
      have hlabel : (decapsulateGseHeader mem w.pGSE).1.labelType = .broadcast := by
        rw [(hsized.header_read hmem).1]
        rfl
      obtain ⟨p, q, hp, hhandle, hq⟩ := handle_whole halloc henq hm hmem w.timestampSeq (now w.pGSE) port
        (heard r)
      refine ⟨hsized, _, (turn_accepted hr hlabel hp).trans hhandle, .between (shift hms) (hk.trans ?_) h
        (hgot.own hq) ?_ (stale_mono stale m le_rfl)⟩
      · rw [List.length_append]
        exact Nat.le_add_right _ _
      · rw [← htotal, surviving_cons, hi, List.append_assoc]
        rfl
    | @split _ size _ j m _ _ _ hm h3 h8 h =>
      have hlt : before.length < ms.length := by
        rw [hms, List.length_append, List.length_cons]
        omega
      obtain ⟨r', b, n, hr', hring, hstale, hselect, holds⟩ := hears_start now halloc
        (show k < 2 ^ 21 by omega) hm h3 h8 hr hmem stale
      exact ⟨startOf_sized conf hm.ordinary (k + 1) h3 h8, r', hr',
        .held hms hk hm h3 h8 h (hgot.same hring) htotal hi hstale hselect holds⟩
  | @missed before after m k size i' j _ _ got _ hms hk hm h3 h8 h hgot htotal hlost stale =>
    obtain ⟨r', hr', hgains, hstale⟩ := hears_lone_end now hm h3 h8 hr hmem stale
    refine ⟨endOf_sized conf hm.ordinary (k + 1) h8, r', hr', .between (shift hms) (length_succ hk m) h
      (hgot.gains hms hgains) ?_ hstale⟩
    rw [← htotal, surviving_cons, hlost]
    rfl
  | @held before after m k size i' j n b _ _ got _ hms hk hm h3 h8 h hgot htotal hkept stale hselect holds =>
    obtain ⟨r', hr', hring, hstale⟩ := hears_end now henq hm h3 h8 hr hmem stale hselect holds
    refine ⟨endOf_sized conf hm.ordinary (k + 1) h8, r', hr', .between (shift hms) (length_succ hk m) h
      (hgot.own hring) ?_ hstale⟩
    rw [← htotal, surviving_cons, hkept, hi, List.append_assoc]
    rfl

end Turn

lemma same {es : List (Entry × ℕ)} {r r' : Receiver} (h : Progress conf env.toDpdk port keep ms total es r)
    (htable : r'.table = r.table) (hring : ringPdus r'.pool = ringPdus r.pool) :
    Progress conf env.toDpdk port keep ms total es r' := by
  cases h with
  | between hms hk h hgot htotal stale =>
    exact .between hms hk h (hgot.same hring) htotal (by rwa [htable])
  | missed hms hk hm h3 h8 h hgot htotal hlost stale =>
    exact .missed hms hk hm h3 h8 h (hgot.same hring) htotal hlost (by rwa [htable])
  | held hms hk hm h3 h8 h hgot htotal hkept stale hselect holds =>
    exact .held hms hk hm h3 h8 h (hgot.same hring) htotal hkept (by rwa [htable]) (by rwa [htable])
      (by rwa [htable])

lemma skip_frame {frame : List Entry} {i : ℕ} {later : List (Entry × ℕ)} {r : Receiver}
    (h : Progress conf env.toDpdk port keep ms total (frame.map (fun e => (e, i)) ++ later) r)
    (hi : keep i = false) :
    Progress conf env.toDpdk port keep ms total later r := by
  induction frame with
  | nil => exact h
  | cons e es ih => exact ih (h.skip hi)

lemma frame (hc : conf.Configured) (htype : conf.portToPktType = enumFwdTxFwdData)
    (halloc : ∀ i, env.allocates i = true) (henq : ∀ i, env.enqueues i = true) (hsmall : ms.length ≤ 2 ^ 21)
    {frame : List Entry} {i : ℕ} {later : List (Entry × ℕ)} {r : Receiver} (hf : Filled conf frame)
    (h : Progress conf env.toDpdk port keep ms total (frame.map (fun e => (e, i)) ++ later) r) (hi : keep i = true)
    {m : RteMbuf} {macRev : UInt8 × UInt8} {modcod : ℕ}
    (hm : Holds m.data 0 (frameBuffer conf macRev modcod frame)) (now : ℕ → ℕ) (para : FrameParam) :
    ∃ r', dispatchDecapPkt env m port now para r = some r' ∧
      Progress conf env.toDpdk port keep ms total later r' := by
  have hturn : TakesEach env m.data port now fun es r' =>
      Progress conf env.toDpdk port keep ms total (es.map (fun e => (e, i)) ++ later) r' :=
    fun e es w r₁ h₁ hr hmem => h₁.turn now halloc henq hsmall hi hr hmem
  obtain ⟨r', hstep, h'⟩ := hturn.dispatch hc htype hf h hm para
  exact ⟨_, hstep, h'.same rfl rfl⟩

lemma finished {r : Receiver} (h : Progress conf env.toDpdk port keep ms total [] r) :
    Collected ms total r.pool := by
  generalize hes : ([] : List (Entry × ℕ)) = es at h
  cases h with
  | between hms hk h hgot htotal stale =>
    cases h with
    | nil =>
      rw [← htotal]
      exact (List.append_nil _).symm ▸ hgot
    | whole => simp at hes
    | split => simp at hes
  | missed => simp at hes
  | held => simp at hes

end Progress

/-- The frames that arrive, the first of them being number `i`. -/
def arriving (keep : ℕ → Bool) (sent : List RteMbuf) (i : ℕ) : List RteMbuf :=
  ((sent.zipIdx i).filter fun x => keep x.2).map Prod.fst

lemma Progress.run (hc : conf.Configured) (htype : conf.portToPktType = enumFwdTxFwdData)
    (halloc : ∀ i, env.allocates i = true) (henq : ∀ i, env.enqueues i = true) (hsmall : ms.length ≤ 2 ^ 21)
    {frames : List (List Entry)} {sent : List RteMbuf} (hsent : List.Forall₂ (CarriesFrame conf) frames sent)
    {i : ℕ} {events : List RecvEvent} (hevents : List.Forall₂ (Brings port) (arriving keep sent i) events)
    {s : RecvState} (h : Progress conf env.toDpdk port keep ms total (withFrames i frames) s.receiver) :
    ∃ s' os, Library.Runs.run (recvStep env) s events = some (s', os) ∧ Collected ms total s'.receiver.pool := by
  induction hsent generalizing i events s with
  | nil =>
    cases hevents
    exact ⟨s, [], rfl, h.finished⟩
  | @cons frame m frames sent hframe _ ih =>
    cases hi : keep i with
    | false =>
      rw [arriving, List.zipIdx_cons, List.filter_cons_of_neg (by simp [hi])] at hevents
      exact ih hevents (h.skip_frame hi)
    | true =>
      rw [arriving, List.zipIdx_cons, List.filter_cons_of_pos (by simpa using hi), List.map_cons] at hevents
      obtain ⟨hfilled, macRev, modcod, hbytes⟩ := hframe
      cases hevents with
      | @cons _ e _ events hbrings hevents =>
        cases e with
        | timeout tUs => exact absurd hbrings id
        | packet data dataLen protocolType queue now para =>
          obtain ⟨rfl, hdata⟩ := hbrings
          have hm : Holds data 0 (frameBuffer conf macRev modcod frame) := by
            rw [← hbytes, ← hdata, Holds, window_length]
          obtain ⟨r, hstep, hr⟩ := h.frame (m := ⟨.received s.received, data, dataLen, protocolType⟩) hc htype
            halloc henq hsmall hfilled hi hm now para
          obtain ⟨s', os, hrun, hcollected⟩ := ih (s := ⟨r, s.received + 1⟩) hevents hr
          refine ⟨s', () :: os, ?_, hcollected⟩
          rw [run_cons_eq_some]
          exact ⟨_, (), os, by rw [recvStep, hstep]; rfl, hrun, rfl⟩

end Receiving

section Places

variable {conf : AppConf}

lemma withFrames_fst (i : ℕ) (frames : List (List Entry)) :
    (withFrames i frames).map Prod.fst = frames.flatten := by
  induction frames generalizing i with
  | nil => rfl
  | cons frame frames ih =>
    rw [withFrames, List.map_append, ih, List.map_map, List.flatten_cons]
    exact congrArg (· ++ frames.flatten) (List.map_id frame)

def Neighbours (x y : ℕ) : Prop := x ≤ y ∧ y ≤ x + 1

lemma withFrames_chain {frames : List (List Entry)} (hne : ∀ frame ∈ frames, frame ≠ []) {i x : ℕ}
    (hx : Neighbours x i) : (x :: (withFrames i frames).map Prod.snd).IsChain Neighbours := by
  induction frames generalizing i x with
  | nil => exact List.isChain_singleton x
  | cons frame frames ih =>
    have hrest : (i :: (withFrames (i + 1) frames).map Prod.snd).IsChain Neighbours :=
      ih (fun f hf => hne f (List.mem_cons_of_mem frame hf)) ⟨Nat.le_succ i, le_rfl⟩
    have hframe (es : List Entry) :
        (i :: (es.map (fun e => (e, i)) ++ withFrames (i + 1) frames).map Prod.snd).IsChain Neighbours := by
      induction es with
      | nil => exact hrest
      | cons e es ihes => exact List.isChain_cons_cons.mpr ⟨⟨le_rfl, Nat.le_succ i⟩, ihes⟩
    cases frame with
    | nil => exact absurd rfl (hne [] List.mem_cons_self)
    | cons e es => exact List.isChain_cons_cons.mpr ⟨hx, hframe es⟩

lemma withFrames_lt {frames : List (List Entry)} {i : ℕ} {x : Entry × ℕ} (hx : x ∈ withFrames i frames) :
    x.2 < i + frames.length := by
  induction frames generalizing i with
  | nil => exact absurd hx List.not_mem_nil
  | cons frame frames ih =>
    rw [List.length_cons]
    rcases List.mem_append.mp hx with hx | hx
    · obtain ⟨e, -, rfl⟩ := List.mem_map.mp hx
      exact Nat.lt_add_of_pos_right (Nat.succ_pos _)
    · have hlt := ih hx
      omega

lemma SentFrom.placed {k l : ℕ} {ms : List RteMbuf} {es : List Entry} (h : SentFrom conf k ms es l)
    (hplain : ∀ m ∈ ms, Plain m) {xs : List (Entry × ℕ)} (hxs : xs.map Prod.fst = es) :
    ∃ places, Placed conf k ms xs places := by
  induction h generalizing xs with
  | nil k =>
    obtain rfl := List.map_eq_nil_iff.mp hxs
    exact ⟨[], .nil k⟩
  | @whole k l m t ms es hm _ ih =>
    obtain ⟨⟨e, i⟩, xs, rfl, rfl, hrest⟩ := List.map_eq_cons_iff.mp hxs
    obtain ⟨places, h⟩ := ih (fun m' hm' => hplain m' (List.mem_cons_of_mem m hm')) hrest
    exact ⟨_, .whole t (hplain m List.mem_cons_self) h⟩
  | @split k l size m ms es hm h3 h8 _ ih =>
    obtain ⟨⟨e, i⟩, xs, rfl, rfl, hrest⟩ := List.map_eq_cons_iff.mp hxs
    obtain ⟨⟨e', j⟩, xs, rfl, rfl, htail⟩ := List.map_eq_cons_iff.mp hrest
    obtain ⟨places, h⟩ := ih (fun m' hm' => hplain m' (List.mem_cons_of_mem m hm')) htail
    exact ⟨_, .split (hplain m List.mem_cons_self) h3 h8 h⟩

lemma Placed.length_eq {k : ℕ} {ms : List RteMbuf} {es : List (Entry × ℕ)} {places : List (ℕ × ℕ)}
    (h : Placed conf k ms es places) : places.length = ms.length := by
  induction h with
  | nil => rfl
  | whole _ _ _ ih => exact congrArg Nat.succ ih
  | split _ _ _ _ ih => exact congrArg Nat.succ ih

lemma Placed.near {k n : ℕ} {ms : List RteMbuf} {es : List (Entry × ℕ)} {places : List (ℕ × ℕ)}
    (h : Placed conf k ms es places) (hchain : (es.map Prod.snd).IsChain Neighbours) (hlt : ∀ x ∈ es, x.2 < n) :
    ∀ x ∈ places, Neighbours x.1 x.2 ∧ x.2 < n := by
  induction h with
  | nil => exact fun x hx => absurd hx List.not_mem_nil
  | @whole _ i _ _ _ _ _ _ _ ih =>
    intro x hx
    rcases List.mem_cons.mp hx with rfl | hx
    · exact ⟨⟨le_rfl, Nat.le_succ i⟩, hlt _ List.mem_cons_self⟩
    · exact ih hchain.tail (fun y hy => hlt y (List.mem_cons_of_mem _ hy)) x hx
  | split _ _ _ _ ih =>
    intro x hx
    rcases List.mem_cons.mp hx with rfl | hx
    · exact ⟨(List.isChain_cons_cons.mp hchain).1, hlt _ (List.mem_cons_of_mem _ List.mem_cons_self)⟩
    · exact ih hchain.tail.tail (fun y hy => hlt y (List.mem_cons_of_mem _ (List.mem_cons_of_mem _ hy))) x hx

end Places

/-- Each PDU of a run is in one frame or in two that follow each other; whatever frames are lost, a receiver
that gets the others hands on the PDUs of which it got all frames, in their order, and nothing else but what
it put together of two PDUs without a difference in length and CRC. -/
theorem losses_contained {sendEnv : SendEnv} {recvEnv : RecvEnv} {conf : AppConf}
    (hc : conf.Configured) (htype : conf.portToPktType = enumFwdTxFwdData)
    (hsendAlloc : ∀ i, sendEnv.allocates i = true) (hsendEnq : ∀ i, sendEnv.enqueues i = true)
    (hrecvAlloc : ∀ i, recvEnv.allocates i = true) (hrecvEnq : ∀ i, recvEnv.enqueues i = true)
    {turns : List Turn} (hturns : ∀ m, Turn.pdu m ∈ turns → Plain m) (hsmall : (pdusOf turns).length ≤ 2 ^ 21) :
    let sent := (Sender.initial.runTurns sendEnv conf (turns ++ [.idle])).output.pool.ring.map Prod.snd
    ∃ places : List (ℕ × ℕ), places.length = (pdusOf turns).length ∧
      (∀ x ∈ places, Neighbours x.1 x.2 ∧ x.2 < sent.length) ∧
      ∀ (keep : ℕ → Bool) (queueId : ℕ) (events : List RecvEvent),
        List.Forall₂ (Brings queueId) (arriving keep sent 0) events →
        ∃ s os, run (recvStep recvEnv) .initial events = some (s, os) ∧
          Collected (pdusOf turns) (surviving keep (pdusOf turns) places) s.receiver.pool := by
  obtain ⟨j, frames, k, hr, hf, htaken, hsender⟩ := Journal.runTurns_followedAt sendEnv hc
    fun m hm => (hturns m hm).ordinary
  obtain ⟨sent, hring, hsent⟩ := sealed_ring hc htype hsendAlloc hsendEnq hf.frames_sealed ⟨.fresh, false⟩
  have hsent' :
      (Sender.initial.runTurns sendEnv conf (turns ++ [.idle])).output.pool.ring.map Prod.snd = sent := by
    rw [← hsender, hr.output, hring]
    simp [Pool.fresh, Function.comp_def]
  have hnumbered := hf.numbered
  rw [List.append_nil, htaken] at hnumbered
  obtain ⟨places, hplaces⟩ := hnumbered.placed (pdusOf_plain hturns) (withFrames_fst 0 frames)
  have hne : ∀ frame ∈ frames, frame ≠ [] :=
    ((List.forall₂_and_left frames sent).mp (hsent.imp fun _ _ h => ⟨h.1.nonempty, h⟩)).1
  intro sent₀
  simp only [sent₀, hsent']
  refine ⟨places, hplaces.length_eq,
    hplaces.near (withFrames_chain hne ⟨le_rfl, Nat.le_succ 0⟩).tail fun x hx => ?_,
    fun keep queueId events hevents => ?_⟩
  · have hlt := withFrames_lt hx
    rw [hsent.length_eq] at hlt
    omega
  · refine Progress.run hc htype hrecvAlloc hrecvEnq hsmall hsent hevents (s := .initial)
      (.between (List.nil_append _).symm (Nat.zero_le _) hplaces ⟨[], rfl, rfl, by simp⟩ rfl fun fragID b => ?_)
    exact .of_free FragInfo.free_initial

/-- The third PDU is in two frames. -/
theorem losses_contained_hundred :
    let sent :=
      (Sender.initial.runTurns sampleEnv sampleConf (hundredTurns ++ [.idle])).output.pool.ring.map Prod.snd
    ∃ places : List (ℕ × ℕ), places.length = (pdusOf hundredTurns).length ∧
      (∀ x ∈ places, Neighbours x.1 x.2 ∧ x.2 < sent.length) ∧
      ∀ (keep : ℕ → Bool) (queueId : ℕ) (events : List RecvEvent),
        List.Forall₂ (Brings queueId) (arriving keep sent 0) events →
        ∃ s os, run (recvStep sampleRecvEnv) .initial events = some (s, os) ∧
          Collected (pdusOf hundredTurns) (surviving keep (pdusOf hundredTurns) places) s.receiver.pool := by
  refine losses_contained sampleConf_configured rfl (fun _ => rfl) (fun _ => rfl) (fun _ => rfl)
    (fun _ => rfl) (fun m hm => ?_) (show 3 ≤ 2 ^ 21 by norm_num)
  simp only [hundredTurns, List.mem_cons, Turn.pdu.injEq, reduceCtorEq, List.not_mem_nil, or_false,
    false_or] at hm
  rcases hm with rfl | rfl | rfl <;> exact ⟨by constructor <;> decide, .inl rfl⟩

end Fengtai.Send
