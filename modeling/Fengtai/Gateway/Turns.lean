import Fengtai.Gateway.Receiving
import Fengtai.Gateway.Sending

set_option autoImplicit false

/-! What each event at a gateway does to both of its halves. -/

namespace Fengtai

open Library Library.Words Receive Send Journal

namespace Gateway

/-- A gateway between its users and a line: on the line it has sent `frames` or is about to, with
`rest` to follow, and from the line it awaits `lineFrames` and `lineRest`, made of the PDUs `taken`. -/
structure Conveys (own : GatewayConf) (env : GatewayEnv) (conf : AppConf) (taken : List RteMbuf)
    (lineFrames : List (List Entry)) (lineRest : List Entry) (frames : List (List Entry))
    (rest : List Entry) (g : Gateway) : Prop where
  wired : g.Wired
  sending : g.Sending own.mapping frames rest
  hearing : g.Hearing own conf env.recv.toDpdk taken lineFrames lineRest
  plain : ∀ m ∈ taken, Plain m

/-- What has become of the sending half, whose turn it was if `turn` holds: a frame that has been made
holds all there was, and who looks for a PDU finds one, sends what there is, or loses patience. -/
structure Sends (own : GatewayConf) (turn : Prop) (rest : List Entry) (new : List (List Entry))
    (rest' : List Entry) (fetched : List RteMbuf) (g g' : Gateway) : Prop where
  packets : ∃ part, Sent own.mapping fetched part ∧ new.flatten ++ rest' = rest ++ part
  full : new = [] ∨ rest <+: new.flatten
  taken : g'.encap.taken 1 = g.encap.taken 1 ++ fetched
  urges : turn → g.encapRing = 1 → g.loop.point = .whole →
    fetched ≠ [] ∨ rest' = [] ∨ patience (g'.loopCount 1) < patience (g.loopCount 1)

variable {own : GatewayConf} {env : GatewayEnv} {conf : AppConf} {taken : List RteMbuf}
  {lineFrames frames : List (List Entry)} {lineRest rest : List Entry} {g : Gateway}

lemma Wired.plain (h : g.Wired) {m : RteMbuf} (hm : m ∈ g.encap.ring 1) : Plain m := by
  rw [h.entered, List.mem_filterMap] at hm
  obtain ⟨frame, hframe, hentered⟩ := hm
  exact (h.users frame (Rings.mem_of_mem_taken hframe)).plain hentered

lemma Wired.enqueue (h : g.Wired) {port : ℕ} {m : RteMbuf} (hport : port ≤ 1)
    (haddr : ∃ n, m.addr = .received n) (hm : port = 1 → UserFrame m) (k : ℕ) :
    Wired { g with received := k, rcv := g.rcv.enqueue port m } := by
  refine ⟨h.rcvSound.append _, h.encapSound, ?_, ?_, ?_, h.unflagged, ?_⟩
  · intro x hx
    rcases List.mem_append.mp hx with hx | hx
    · exact h.ports x hx
    · obtain rfl := List.mem_singleton.mp hx
      exact hport
  · intro x hx
    rcases List.mem_append.mp hx with hx | hx
    · exact h.received x hx
    · obtain rfl := List.mem_singleton.mp hx
      exact haddr
  · intro m' hmem
    rcases List.mem_append.mp (Rings.mem_ring.mp hmem) with hx | hx
    · exact h.users m' (Rings.mem_ring.mpr hx)
    · obtain ⟨hone, rfl⟩ := Prod.mk.inj (List.mem_singleton.mp hx)
      exact hm hone.symm
  · change g.encap.ring 1 = (Rings.taken ⟨g.rcv.log ++ _, g.rcv.head⟩ 1).filterMap Gateway.entered
    rw [h.rcvSound.taken_append]
    exact h.entered

def enqueued (port : ℕ) (data : Memory) (dataLen protocolType : ℕ) (g : Gateway) : Gateway :=
  { g with
    received := g.received + 1
    rcv := g.rcv.enqueue port ⟨.received g.received, data, dataLen, protocolType⟩ }

lemma receiveMsg_eq (hs : Serves own env) (g : Gateway) (port : ℕ) (data : Memory) (dataLen protocolType : ℕ)
    (h : port = 0 → etherType ⟨.received g.received, data, dataLen, protocolType⟩ = 0x9101) :
    g.receiveMsg env port data dataLen protocolType = g.enqueued port data dataLen protocolType := by
  have hport : ¬ (port = 0 ∧ etherType ⟨.received g.received, data, dataLen, protocolType⟩ ≠ 0x9101) :=
    fun hc => hc.2 (h hc.1)
  rw [receiveMsg, if_neg hport, if_pos (hs.rcvEnqueues _)]
  rfl

lemma Conveys.userArrives (h : g.Conveys own env conf taken lineFrames lineRest frames rest)
    {data : Memory} {dataLen protocolType : ℕ}
    (hm : UserFrame ⟨.received g.received, data, dataLen, protocolType⟩) :
    (g.enqueued 1 data dataLen protocolType).Conveys own env conf taken lineFrames lineRest frames rest :=
  ⟨h.wired.enqueue le_rfl ⟨_, rfl⟩ (fun _ => hm) _, h.sending.congr rfl rfl rfl rfl,
    h.hearing.congr (Rings.ring_enqueue_ne (by decide) _ _) rfl rfl rfl rfl rfl, h.plain⟩

lemma etherType_of_carries {frame : List Entry} {m : RteMbuf} (h : CarriesFrame conf frame m) :
    etherType m = 0x9101 := by
  obtain ⟨-, macRev, modcod, hbytes⟩ := h
  have hholds : Holds m.data 0 (frameBuffer conf macRev modcod frame) := by
    rw [← hbytes, Holds, RteMbuf.bytes, window_length]
  simp only [frameBuffer, holds_append] at hholds
  exact (holds_encodeInnerHeader hholds.1.1.1.1).1

lemma Conveys.lineArrives (h : g.Conveys own env conf taken lineFrames lineRest frames rest)
    {data : Memory} {dataLen protocolType : ℕ} {frame : List Entry}
    (hframe : lineFrames[(g.rcv.ring 0).length]? = some frame)
    (hm : CarriesFrame conf frame ⟨.received g.received, data, dataLen, protocolType⟩) :
    (g.enqueued 0 data dataLen protocolType).Conveys own env conf taken lineFrames lineRest frames rest := by
  refine ⟨h.wired.enqueue (Nat.zero_le _) ⟨_, rfl⟩ (fun hc => absurd hc (by decide)) _,
    h.sending.congr rfl rfl rfl rfl, ⟨?_, h.hearing.awaits, h.hearing.user⟩, h.plain⟩
  change List.Forall₂ _ (lineFrames.take ((g.rcv.enqueue 0 _).ring 0).length) ((g.rcv.enqueue 0 _).ring 0)
  rw [Rings.ring_enqueue_self, List.length_append, List.length_singleton, List.take_add_one, hframe]
  exact List.rel_append h.hearing.heard (.cons hm .nil)

lemma unflagged_leads {env : Dpdk} {s s' : RecvState} (h : s.Unflagged) (hleads : RecvState.Leads env s s') :
    s'.Unflagged := by
  induction hleads with
  | refl => exact h
  | tail _ hmicro ih => exact ih.micro hmicro

/-- What a turn of `decapsulate_thread` leaves, when it has come further in the rings of received
frames and `more` stands in the encap rings. -/
lemma Conveys.decapsulated (h : g.Conveys own env conf taken lineFrames lineRest frames rest)
    {rcv : Rings RteMbuf} {r : Receiver} {more : List (ℕ × RteMbuf)} (hlog : rcv.log = g.rcv.log)
    (hsound : rcv.Sound) (hgrown : r.pool.ring = g.receiver.pool.ring ++ more)
    (hflags : ∀ port fragID i, ((r.table port fragID).info i).timeoutFlag = false)
    (hentered : (rcv.taken 1).filterMap Gateway.entered =
      (g.rcv.taken 1).filterMap Gateway.entered ++ (⟨more, g.encapHead⟩ : Rings RteMbuf).ring 1)
    (hawaits : ∃ ms, Awaits conf env.recv.toDpdk 0 ms ((lineFrames.drop (rcv.head 0)).flatten ++ lineRest)
        r.table ∧ (g.encap.ring 0 ++ (⟨more, g.encapHead⟩ : Rings RteMbuf).ring 0).map pduOf ++ ms.map pduOf =
      taken.map pduOf) (k : ℕ) :
    let g' : Gateway := { g with rcv := rcv, receiver := r, decapRing := k }
    g'.Conveys own env conf taken lineFrames lineRest frames rest ∧
      g'.encap.taken 1 = g.encap.taken 1 ∧ g'.wire = g.wire ∧ g'.rcv.ring 0 = g.rcv.ring 0 := by
  intro g'
  have hw := h.wired
  have hring (i : ℕ) : rcv.ring i = g.rcv.ring i := by rw [Rings.ring, Rings.ring, hlog]
  have hencap : g'.encap = ⟨g.encap.log ++ more, g.encap.head⟩ := by
    change (⟨r.pool.ring, g.encapHead⟩ : Rings RteMbuf) = _
    rw [hgrown]
    rfl
  have htaken (i : ℕ) : g'.encap.taken i = g.encap.taken i := by
    rw [hencap, hw.encapSound.taken_append]
  have hencapRing (i : ℕ) : g'.encap.ring i = g.encap.ring i ++ (⟨more, g.encapHead⟩ : Rings RteMbuf).ring i := by
    rw [hencap, Rings.ring_append]
    rfl
  refine ⟨⟨⟨hsound, ?_, ?_, ?_, ?_, hflags, ?_⟩, h.sending.congr rfl rfl rfl (htaken 1), ⟨?_, ?_, ?_⟩, h.plain⟩,
    htaken 1, rfl, hring 0⟩
  · rw [hencap]
    exact hw.encapSound.append more
  · intro x hx
    exact hw.ports x (hlog ▸ hx)
  · intro x hx
    exact hw.received x (hlog ▸ hx)
  · intro m hm
    exact hw.users m (hring 1 ▸ hm)
  · rw [hencapRing, hw.entered]
    exact hentered.symm
  · change List.Forall₂ _ (lineFrames.take (rcv.ring 0).length) (rcv.ring 0)
    rw [hring]
    exact h.hearing.heard
  · rw [hencapRing]
    exact hawaits
  · rw [htaken]
    exact h.hearing.user

lemma Hearing.next (h : g.Hearing own conf env.recv.toDpdk taken lineFrames lineRest) {m : RteMbuf}
    {rcv : Rings RteMbuf} (htakes : Rings.Takes 0 g.rcv m rcv) :
    ∃ frame, CarriesFrame conf frame m ∧
      lineFrames.drop (g.rcv.head 0) = frame :: lineFrames.drop (rcv.head 0) := by
  have hwaiting := List.forall₂_drop (g.rcv.head 0) h.heard
  change List.Forall₂ _ _ (g.rcv.waiting 0) at hwaiting
  rw [htakes.waiting, List.drop_take] at hwaiting
  obtain ⟨frame, frames, hframe, -, hcons⟩ := List.forall₂_cons_right_iff.mp hwaiting
  refine ⟨frame, hframe, ?_⟩
  cases hdrop : lineFrames.drop (g.rcv.head 0) with
  | nil => simp [hdrop] at hcons
  | cons first later =>
    rw [hdrop] at hcons
    have hfirst : first = frame := by
      cases hn : (g.rcv.ring 0).length - g.rcv.head 0 with
      | zero => simp [hn] at hcons
      | succ n =>
        rw [hn, List.take_succ_cons] at hcons
        exact (List.cons.inj hcons).1
    have hlater : lineFrames.drop (rcv.head 0) = later := by
      rw [htakes.head, ← List.tail_drop, hdrop, List.tail_cons]
    rw [hfirst, hlater]

lemma Conveys.decapsulate (h : g.Conveys own env conf taken lineFrames lineRest frames rest)
    (hs : Serves own env) (hc : conf.Configured) (htype : conf.portToPktType = enumFwdTxFwdData)
    (now : ℕ → ℕ) (para : FrameParam) {clock : Option ℕ}
    (hclock : ∀ tUs, clock = some tUs → NoneOld tUs g.receiver) :
    ∃ g', g.decapsulate own env now para clock = some g' ∧
      g'.Conveys own env conf taken lineFrames lineRest frames rest ∧
      g'.encap.taken 1 = g.encap.taken 1 ∧ g'.wire = g.wire ∧ g'.rcv.ring 0 = g.rcv.ring 0 := by
  have hw := h.wired
  have hsame (r : Receiver) (htable : r.table = g.receiver.table)
      (hring : r.pool.ring = g.receiver.pool.ring) (k : ℕ) :=
    h.decapsulated (r := r) rfl hw.rcvSound (by rw [hring, List.append_nil])
      (by rw [htable]; exact hw.unflagged) (List.append_nil _).symm
      (by rw [htable]; simpa [Rings.ring] using h.hearing.awaits) k
  simp only [Gateway.decapsulate]
  split_ifs with hring
  · cases hdeq : g.rcv.dequeue g.decapRing with
    | none => exact ⟨_, rfl, hsame g.receiver rfl rfl _⟩
    | some x =>
      obtain ⟨m, rcv⟩ := x
      have htakes := Rings.dequeue_takes hdeq
      obtain ⟨n, hn⟩ := hw.received _ htakes.mem
      have hport := hw.ports _ htakes.mem
      have hflags {r : Receiver} (hr : dispatchDecapPkt env.recv m g.decapRing now para g.receiver = some r) :
          ∀ port fragID i, ((r.table port fragID).info i).timeoutFlag = false :=
        unflagged_leads (s := ⟨g.receiver, n⟩) hw.unflagged (RecvState.dispatchDecapPkt_leads hn hr)
      have hfound {r : Receiver} (hr : dispatchDecapPkt env.recv m g.decapRing now para g.receiver = some r) :
          (dispatchDecapPkt env.recv m g.decapRing now para g.receiver).map (fun r =>
            ({ g with rcv := rcv, receiver := r, decapRing := g.decapRing + 1 } : Gateway)) =
              some { g with rcv := rcv, receiver := r, decapRing := g.decapRing + 1 } := by
        rw [hr, Option.map_some]
      obtain hline | huser : g.decapRing = 0 ∨ g.decapRing = 1 := by
        change g.decapRing ≤ 1 at hport
        omega
      · -- a frame of the line
        rw [hline] at htakes hflags hfound ⊢
        obtain ⟨frame, hcarries, hdrop⟩ := h.hearing.next htakes
        obtain ⟨ms, hawaits, hpdus⟩ := h.hearing.awaits
        rw [hdrop, List.flatten_cons, List.append_assoc] at hawaits
        obtain ⟨r, ms', new, hr, hawaits', hgrown, hnew⟩ := dispatch_frame now para g.receiver hc htype
          hs.recvAllocates hs.recvEnqueues hcarries hawaits
        refine ⟨_, hfound hr, h.decapsulated htakes.log (htakes.sound hw.rcvSound) hgrown (hflags hr) ?_
          ⟨ms', hawaits', ?_⟩ _⟩
        · rw [htakes.taken_other (by decide), Rings.ring_pairs, if_neg (by decide), List.append_nil]
        · rw [Rings.ring_pairs, if_pos rfl, List.map_append, List.append_assoc, hnew, hpdus]
      · -- a frame of a user
        rw [huser] at htakes hflags hfound ⊢
        have hm : UserFrame m := by
          apply hw.users
          rw [← Rings.taken_append_waiting, htakes.waiting]
          simp
        obtain ⟨r, hr, htable, hgrown⟩ := dispatch_user now para g.receiver hs.recvEnqueues hm
        refine ⟨_, hfound hr, h.decapsulated htakes.log (htakes.sound hw.rcvSound) hgrown (hflags hr) ?_ ?_ _⟩
        · rw [htakes.taken, List.filterMap_append, Rings.ring_pairs, if_pos rfl]
          cases hentered : Gateway.entered m <;> simp [hentered]
        · rw [htable, htakes.other 0 (by decide), Rings.ring_pairs, if_neg (by decide), List.append_nil]
          exact h.hearing.awaits
  · cases clock with
    | none => exact ⟨_, rfl, hsame g.receiver rfl rfl 0⟩
    | some tUs =>
      exact ⟨_, rfl, hsame _ ((hclock tUs rfl).timeout_table hw.unflagged) (fragmentTimeout_ring tUs _) 0⟩

lemma Conveys.encapsulateMapping (h : g.Conveys own env conf taken lineFrames lineRest frames rest)
    (hs : Serves own env) :
    ∃ new rest' fetched, (g.encapsulateMapping own env).Conveys own env conf taken lineFrames lineRest
        (frames ++ new) rest' ∧
      Sends own True rest new rest' fetched g (g.encapsulateMapping own env) ∧
      (g.encapsulateMapping own env).rcv = g.rcv := by
  obtain ⟨new, part, rest', fetched, hsending, hpart, hflat, hfull, htaken, hurges⟩ :=
    h.sending.mapping hs fun m hm => (h.wired.plain hm).ordinary
  obtain ⟨head, i, loop, count, heq, hother, hsound, -⟩ := encapsulateMapping_eq own env g
  refine ⟨new, rest', fetched, ⟨?_, hsending, ?_, h.plain⟩,
    ⟨⟨part, hpart, hflat⟩, hfull, htaken, fun _ _ => hurges⟩, ?_⟩
  · have hw := h.wired
    rw [heq]
    exact ⟨hw.rcvSound, hsound hw.encapSound, hw.ports, hw.received, hw.users, hw.unflagged, hw.entered⟩
  · have hzero : (⟨g.receiver.pool.ring, head⟩ : Rings RteMbuf).taken 0 = g.encap.taken 0 := by
      rw [Rings.taken, Rings.taken]
      simp only [hother 0 (by decide)]
      rfl
    rw [heq]
    exact h.hearing.congr rfl rfl rfl rfl hzero rfl
  · rw [heq]

lemma Sends.nothing (own : GatewayConf) {turn : Prop} (rest : List Entry) {g' : Gateway}
    (hturn : turn → g.encapRing ≠ 1) (htaken : g'.encap.taken 1 = g.encap.taken 1) :
    Sends own turn rest [] rest [] g g' where
  packets := ⟨[], .nil, (List.append_nil rest).symm⟩
  full := .inl rfl
  taken := by rw [htaken, List.append_nil]
  urges hc hring := absurd hring (hturn hc)

lemma Conveys.delivered (h : g.Conveys own env conf taken lineFrames lineRest frames rest) (hs : Serves own env)
    {m : RteMbuf} {encap : Rings RteMbuf} (htakes : Rings.Takes 0 g.encap m encap) (i : ℕ) (count : ℕ → ℕ) :
    let g' := sndSinglePdu own env m 1 { g with encapHead := encap.head, encapRing := i, loopCount := count }
    g'.Conveys own env conf taken lineFrames lineRest frames rest ∧ g'.encap.taken 1 = g.encap.taken 1 ∧
      g'.rcv = g.rcv := by
  have hw := h.wired
  have hshort : ¬ pduBufferSize ≤ m.dataLen := by
    obtain ⟨ms, -, hpdus⟩ := h.hearing.awaits
    have hm : m ∈ g.encap.ring 0 := by
      rw [← Rings.taken_append_waiting, htakes.waiting]
      simp
    have hmem : pduOf m ∈ taken.map pduOf := by
      rw [← hpdus]
      exact List.mem_append_left _ (List.mem_map_of_mem hm)
    obtain ⟨m', hm', heq⟩ := List.mem_map.mp hmem
    have hlen := congrArg (fun x => x.1.length) heq
    simp only [pduOf, RteMbuf.bytes, window_length] at hlen
    have hle := (h.plain m' hm').ordinary.size_le
    rw [pduBufferSize]
    omega
  have hencap : (⟨g.receiver.pool.ring, encap.head⟩ : Rings RteMbuf) = encap := by
    rw [show g.receiver.pool.ring = encap.log from htakes.log.symm]
  have hone : encap.taken 1 = g.encap.taken 1 := htakes.taken_other (by decide)
  simp only [sndSinglePdu, if_neg hshort, Pool.alloc, hs.sendAllocates, if_true]
  refine ⟨⟨⟨hw.rcvSound, ?_, hw.ports, hw.received, hw.users, hw.unflagged, hw.entered⟩, ?_, ?_, h.plain⟩,
    ?_, trivial⟩
  · change (⟨g.receiver.pool.ring, encap.head⟩ : Rings RteMbuf).Sound
    rw [hencap]
    exact htakes.sound hw.encapSound
  · refine ⟨h.sending.stands.withOutput _, ?_, h.sending.carried, h.sending.fault, h.sending.sound, h.sending.wire⟩
    change Sent _ ((⟨g.receiver.pool.ring, encap.head⟩ : Rings RteMbuf).taken 1) _
    rw [hencap, hone]
    exact h.sending.sent
  · refine ⟨h.hearing.heard, h.hearing.awaits, ?_⟩
    change g.user ++ [etherFrame own 1 (pduOf m)] =
      ((⟨g.receiver.pool.ring, encap.head⟩ : Rings RteMbuf).taken 0).map fun m => etherFrame own 1 (pduOf m)
    rw [hencap, htakes.taken, List.map_append, h.hearing.user]
    rfl
  · change (⟨g.receiver.pool.ring, encap.head⟩ : Rings RteMbuf).taken 1 = _
    rw [hencap, hone]

lemma Conveys.encapsulateOther (h : g.Conveys own env conf taken lineFrames lineRest frames rest)
    (hs : Serves own env) (hring : g.encapRing ≠ 1) :
    (g.encapsulateOther own env).Conveys own env conf taken lineFrames lineRest frames rest ∧
      (g.encapsulateOther own env).encap.taken 1 = g.encap.taken 1 ∧
      (g.encapsulateOther own env).rcv = g.rcv := by
  have hw := h.wired
  rw [Gateway.encapsulateOther]
  cases hdeq : g.encap.dequeue g.encapRing with
  | none =>
    exact ⟨⟨⟨hw.rcvSound, hw.encapSound, hw.ports, hw.received, hw.users, hw.unflagged, hw.entered⟩,
      h.sending.congr rfl rfl rfl rfl, h.hearing.congr rfl rfl rfl rfl rfl rfl, h.plain⟩, rfl, rfl⟩
  | some x =>
    obtain ⟨m, encap⟩ := x
    have htakes := Rings.dequeue_takes hdeq
    simp only
    split_ifs with hzero
    · rw [hzero] at htakes
      exact h.delivered hs htakes _ _
    · -- what stands in another ring is lost
      have hencap : (⟨g.receiver.pool.ring, encap.head⟩ : Rings RteMbuf) = encap := by
        rw [show g.receiver.pool.ring = encap.log from htakes.log.symm]
      have htaken {i : ℕ} (hi : i ≠ g.encapRing) :
          (⟨g.receiver.pool.ring, encap.head⟩ : Rings RteMbuf).taken i = g.encap.taken i := by
        rw [hencap, htakes.taken_other hi]
      refine ⟨⟨⟨hw.rcvSound, ?_, hw.ports, hw.received, hw.users, hw.unflagged, hw.entered⟩,
        h.sending.congr rfl rfl rfl (htaken (Ne.symm hring)),
        h.hearing.congr rfl rfl rfl rfl (htaken (Ne.symm hzero)) rfl, h.plain⟩,
        htaken (Ne.symm hring), rfl⟩
      change (⟨g.receiver.pool.ring, encap.head⟩ : Rings RteMbuf).Sound
      rw [hencap]
      exact htakes.sound hw.encapSound

lemma Conveys.encapsulate (h : g.Conveys own env conf taken lineFrames lineRest frames rest)
    (hs : Serves own env) :
    ∃ g' new rest' fetched, g.encapsulate own env = some g' ∧
      g'.Conveys own env conf taken lineFrames lineRest (frames ++ new) rest' ∧
      Sends own True rest new rest' fetched g g' ∧ g'.rcv = g.rcv := by
  simp only [Gateway.encapsulate]
  by_cases hring : g.encapRing = 1
  · obtain ⟨new, rest', fetched, hconveys, hsends, hrcv⟩ := h.encapsulateMapping hs
    simp only [if_pos hring, hconveys.sending.fault, Bool.false_eq_true, if_false]
    exact ⟨_, new, rest', fetched, rfl, hconveys, hsends, hrcv⟩
  · obtain ⟨hconveys, htaken, hrcv⟩ := h.encapsulateOther hs hring
    simp only [if_neg hring, hconveys.sending.fault, Bool.false_eq_true, if_false]
    exact ⟨_, [], rest, [], rfl, by rwa [List.append_nil], .nothing own rest (fun _ => hring) htaken, hrcv⟩

lemma Conveys.sendFrame (h : g.Conveys own env conf taken lineFrames lineRest frames rest) :
    (g.sendFrame own).Conveys own env conf taken lineFrames lineRest frames rest ∧
      (g.sendFrame own).encap.taken 1 = g.encap.taken 1 ∧ (g.sendFrame own).rcv = g.rcv := by
  have hw := h.wired
  have hsending := h.sending.sendFrame
  obtain ⟨o, head, wire, heq, -, -⟩ := sendFrame_eq own g
  rw [heq] at hsending ⊢
  exact ⟨⟨⟨hw.rcvSound, hw.encapSound, hw.ports, hw.received, hw.users, hw.unflagged, hw.entered⟩, hsending,
    h.hearing.congr rfl rfl rfl rfl rfl rfl, h.plain⟩, rfl, rfl⟩

lemma Conveys.more (h : g.Conveys own env conf taken lineFrames lineRest frames rest)
    {new : List (List Entry)} {part rest' : List Entry} {fetched : List RteMbuf}
    (hpart : Sent conf fetched part) (hflat : new.flatten ++ rest' = lineRest ++ part)
    (hplain : ∀ m ∈ fetched, Plain m) :
    g.Conveys own env conf (taken ++ fetched) (lineFrames ++ new) rest' frames rest where
  wired := h.wired
  sending := h.sending
  hearing := h.hearing.more h.wired hpart hplain hflat
  plain m hm := (List.mem_append.mp hm).elim (h.plain m) (hplain m)

structure Grows (g g' : Gateway) : Prop where
  rcv : g.rcv.log <+: g'.rcv.log
  user : g.user <+: g'.user
  rcvHead : ∀ i, g.rcv.head i ≤ g'.rcv.head i
  encapHead : ∀ i, g.encapHead i ≤ g'.encapHead i
  sndHead : ∀ i, g.sndHead i ≤ g'.sndHead i

lemma Grows.refl (g : Gateway) : Grows g g :=
  ⟨List.prefix_rfl, List.prefix_rfl, fun _ => le_rfl, fun _ => le_rfl, fun _ => le_rfl⟩

lemma sndSinglePdu_keeps (conf : GatewayConf) (env : GatewayEnv) (m : RteMbuf) (portId : ℕ) (g : Gateway) :
    ∃ o more, sndSinglePdu conf env m portId g = { g with
        receiver := { g.receiver with pool := g.receiver.pool.free m.addr }
        loop.sender.output := o
        user := g.user ++ more } ∧
      (o = g.loop.sender.output ∨
        env.send.allocates g.loop.sender.output.pool.allocs = false ∧ o = g.loop.sender.output.asked [] ∨
        env.send.allocates g.loop.sender.output.pool.allocs = true ∧ o =
          { g.loop.sender.output.asked [] with
            pool :=
              (g.loop.sender.output.asked []).pool.free (.allocated g.loop.sender.output.pool.allocs) }) := by
  have hasked : g.loop.sender.output.asked [] = { g.loop.sender.output with
      pool := { g.loop.sender.output.pool with allocs := g.loop.sender.output.pool.allocs + 1 } } := by
    rw [Output.asked, List.append_nil]
  rw [hasked]
  cases halloc : env.send.allocates g.loop.sender.output.pool.allocs with
  | false =>
    simp only [sndSinglePdu, Pool.alloc, halloc, Bool.false_eq_true, if_false]
    split_ifs
    · exact ⟨g.loop.sender.output, [], by rw [List.append_nil], .inl rfl⟩
    · exact ⟨_, [], by rw [List.append_nil], .inr (.inl ⟨trivial, rfl⟩)⟩
  | true =>
    simp only [sndSinglePdu, Pool.alloc, halloc, if_true]
    split_ifs
    · exact ⟨g.loop.sender.output, [], by rw [List.append_nil], .inl rfl⟩
    · exact ⟨_, _, rfl, .inr (.inr ⟨trivial, rfl⟩)⟩
    · exact ⟨_, [], by rw [List.append_nil], .inr (.inr ⟨trivial, rfl⟩)⟩

lemma encapsulateOther_eq (conf : GatewayConf) (env : GatewayEnv) (g : Gateway) :
    ∃ r o more head count, g.encapsulateOther conf env =
        { g with
          receiver := r
          loop.sender.output := o
          user := g.user ++ more
          encapHead := head
          loopCount := Function.update g.loopCount g.encapRing count
          encapRing := nextRing conf.encapRingQueueNum g.encapRing } ∧
      (∀ i, g.encapHead i ≤ head i) ∧
      (g.encap.waiting g.encapRing ≠ [] → head g.encapRing = g.encapHead g.encapRing + 1) := by
  rw [Gateway.encapsulateOther]
  cases hdeq : g.encap.dequeue g.encapRing with
  | none =>
    exact ⟨g.receiver, g.loop.sender.output, [], g.encapHead, _, by rw [List.append_nil], fun _ => le_rfl,
      fun hc => absurd (Rings.dequeue_eq_none.mp hdeq) hc⟩
  | some x =>
    obtain ⟨m, encap⟩ := x
    have htakes := Rings.dequeue_takes hdeq
    simp only
    split_ifs
    · obtain ⟨o, more, heq, -⟩ := sndSinglePdu_keeps conf env m 1 { g with
        encapHead := encap.head
        loopCount := Function.update g.loopCount g.encapRing 0
        encapRing := nextRing conf.encapRingQueueNum g.encapRing }
      exact ⟨_, o, more, encap.head, _, heq, htakes.head_le, fun _ => htakes.head⟩
    · exact ⟨g.receiver, g.loop.sender.output, [], encap.head, _, by rw [List.append_nil], htakes.head_le,
        fun _ => htakes.head⟩

lemma decapsulate_eq {conf : GatewayConf} {env : GatewayEnv} {now : ℕ → ℕ} {para : FrameParam}
    {clock : Option ℕ} {g' : Gateway} (h : g.decapsulate conf env now para clock = some g') :
    ∃ head r, g' = { g with
        rcv := ⟨g.rcv.log, head⟩
        receiver := r
        decapRing := if g.decapRing < conf.rcvRingQueueNum then g.decapRing + 1 else 0 } ∧
      (∀ i, g.rcv.head i ≤ head i) ∧
      (g.decapRing < conf.rcvRingQueueNum → g.rcv.waiting g.decapRing ≠ [] →
        head g.decapRing = g.rcv.head g.decapRing + 1) := by
  simp only [Gateway.decapsulate] at h
  split_ifs at h ⊢ with hring
  · cases hdeq : g.rcv.dequeue g.decapRing with
    | none =>
      rw [hdeq] at h
      obtain rfl := Option.some.inj h
      exact ⟨_, _, rfl, fun _ => le_rfl, fun _ hc => absurd (Rings.dequeue_eq_none.mp hdeq) hc⟩
    | some x =>
      obtain ⟨m, rcv⟩ := x
      rw [hdeq] at h
      obtain ⟨r, -, rfl⟩ := Option.map_eq_some_iff.mp h
      have htakes := Rings.dequeue_takes hdeq
      refine ⟨rcv.head, r, ?_, htakes.head_le, fun _ _ => htakes.head⟩
      rw [← htakes.log]
  · cases clock with
    | none =>
      obtain rfl := Option.some.inj h
      exact ⟨_, _, rfl, fun _ => le_rfl, fun hc => absurd hc hring⟩
    | some tUs =>
      obtain rfl := Option.some.inj h
      exact ⟨_, _, rfl, fun _ => le_rfl, fun hc => absurd hc hring⟩

lemma encapsulate_eq {conf : GatewayConf} {env : GatewayEnv} {g' : Gateway}
    (h : g.encapsulate conf env = some g') :
    g' = if g.encapRing = 1 then g.encapsulateMapping conf env else g.encapsulateOther conf env := by
  simp only [Gateway.encapsulate] at h
  split_ifs at h ⊢ with hring hfault
  · exact (Option.some.inj h).symm
  · exact (Option.some.inj h).symm

lemma step_grows {conf : GatewayConf} {env : GatewayEnv} {e : GatewayEvent} {g g' : Gateway}
    (h : g.step conf env e = some g') : Grows g g' := by
  have hsame := Grows.refl g
  cases e with
  | arrive port data dataLen protocolType =>
    obtain rfl := Option.some.inj h
    simp only [receiveMsg]
    split_ifs
    · exact ⟨hsame.rcv, hsame.user, hsame.rcvHead, hsame.encapHead, hsame.sndHead⟩
    · exact ⟨List.prefix_append _ _, hsame.user, hsame.rcvHead, hsame.encapHead, hsame.sndHead⟩
    · exact ⟨hsame.rcv, hsame.user, hsame.rcvHead, hsame.encapHead, hsame.sndHead⟩
  | decapsulate now para clock =>
    obtain ⟨head, r, rfl, hle, -⟩ := decapsulate_eq h
    exact ⟨hsame.rcv, hsame.user, hle, hsame.encapHead, hsame.sndHead⟩
  | encapsulate =>
    obtain rfl := encapsulate_eq h
    split_ifs
    · obtain ⟨head, i, loop, count, heq, -, -, hle⟩ := encapsulateMapping_eq conf env g
      rw [heq]
      exact ⟨hsame.rcv, hsame.user, hsame.rcvHead, hle, hsame.sndHead⟩
    · obtain ⟨r, o, more, head, count, heq, hle, -⟩ := encapsulateOther_eq conf env g
      rw [heq]
      exact ⟨hsame.rcv, List.prefix_append _ _, hsame.rcvHead, hle, hsame.sndHead⟩
  | send =>
    obtain rfl := Option.some.inj h
    obtain ⟨o, head, wire, heq, hle, -⟩ := sendFrame_eq conf g
    rw [heq]
    exact ⟨hsame.rcv, hsame.user, hsame.rcvHead, hsame.encapHead, hle⟩

end Gateway

end Fengtai
