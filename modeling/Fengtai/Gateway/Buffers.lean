import Fengtai.Gateway.Network

set_option autoImplicit false

/-! The packet buffers of a gateway while its threads pass them on: whose turn it ever is, no buffer
is given back twice, and none stands anywhere once it has been given back. -/

namespace Fengtai

open Library Library.Words Library.Custody Receive Send

namespace Send

/-- The buffers the loop has yet to give back: those of the open group, and that of a fragmentation. -/
def Loop.owed (l : Loop) : List MbufAddr :=
  l.sender.gseGroup.packets.flatMap OneGse.freed ++
    l.sender.fragments.fragmentIDQueue.contents.flatMap (fun id =>
      (l.sender.fragments.fragmentBuffer id.toNat).pduNode.mbufAddress.toList) ++
    if l.point = .fragment then l.sender.usingPdu.mbufAddress.toList else []

lemma FrameHolds.freed {frame : List Entry} {s : Sender} (h : FrameHolds frame s) :
    s.gseGroup.packets.flatMap OneGse.freed = frame.flatMap Entry.freed := by
  rw [h.packets, List.flatMap_map]
  exact List.flatMap_congr fun e _ => e.node.group_freed e.timeSeq

lemma Owing.pending_addr {conf : AppConf} {k size : ℕ} {m : RteMbuf} {s : Sender} (h : Owing conf k m size s) :
    (s.fragments.fragmentBuffer (numberedID k)).pduNode.mbufAddress = some m.addr := by
  have haddr := congrArg EnPduNode.mbufAddress h.fetched
  simpa only [Sender.fetched, FragmentBuffer.fragmentNode, endOf] using haddr

lemma Owing.taken_drained {conf : AppConf} {k size : ℕ} {m : RteMbuf} {s : Sender} (h : Owing conf k m size s) :
    (s.fragments.advance (numberedID k)).Drained := by
  apply h.draining.pending.advance_last
  have hleft := h.left
  simp only [Sender.left] at hleft
  omega

lemma Journal.Stands.owed {conf : AppConf} {l : Loop} {rest : List Entry} (h : Journal.Stands conf l rest) :
    l.owed = rest.flatMap Entry.freed := by
  cases h with
  | idle h => simp [Loop.owed, h.holds.freed, h.idle.drained.queue.contents]
  | whole h => simp [Loop.owed, h.holds.freed, h.idle.drained.queue.contents]
  | owing hm h =>
    simp [Loop.owed, h.holds.freed, h.draining.pending.queue.contents, h.pending_addr, Entry.freed, endEntry,
      endOf, EnPduNode.freedBuffers]
  | fragment hm h =>
    have hqueue := h.taken_drained.queue.contents
    have hfreed := h.holds.freed
    simp [Loop.owed, Sender.takeFragment, hfreed, hqueue, h.fetched, Entry.freed, endEntry, endOf,
      EnPduNode.freedBuffers]

/-- The buffers of `pdus` have been given back, and those of the frames in `sent`; any other buffer that
was allocated for a frame has been given back at once, is in a ring, or was lost when its ring was full. -/
structure Output.Settles (env : SendEnv) (pdus sent : Multiset MbufAddr) (o : Output) : Prop where
  fault : o.fault = false
  blocks : ∃ singles lost : Multiset MbufAddr, (o.pool.freed : Multiset MbufAddr) = pdus + singles + sent ∧
    Custody.Ledger.Sound (⟨known env.toDpdk 0 o.pool, fun _ => none, lost + (singles + o.ringed)⟩ :
      Custody.Ledger MbufAddr Unit) ∧
    ((∀ i, env.enqueues i = true) → lost = 0)

namespace Output

variable {env : SendEnv} {conf : AppConf} {pdus sent : Multiset MbufAddr} {o : Output}

lemma settles_fresh (env : SendEnv) : Output.Settles env 0 0 ⟨.fresh, false⟩ where
  fault := rfl
  blocks := by
    refine ⟨0, 0, rfl, ?_, fun _ => rfl⟩
    have hknown : known env.toDpdk 0 .fresh = ∅ := by
      ext a
      cases a <;> simp [Pool.fresh]
    rw [hknown]
    exact Custody.Ledger.Sound.empty

lemma Settles.asked (h : o.Settles env pdus sent) (fs : List MbufAddr)
    (halloc : env.allocates o.pool.allocs = false) : (o.asked fs).Settles env (pdus + fs) sent := by
  obtain ⟨singles, lost, hfreed, hsound, hlost⟩ := h.blocks
  refine ⟨h.fault, singles, lost, ?_, ?_, hlost⟩
  · rw [Output.asked, ← Multiset.coe_add, hfreed]
    abel
  · rw [known_refused (p := o.pool) halloc rfl]
    exact hsound

lemma Settles.enqueued (h : o.Settles env pdus sent) (fs : List MbufAddr) {m : RteMbuf}
    (hm : m.addr = .allocated o.pool.allocs) (halloc : env.allocates o.pool.allocs = true) (ringId : ℕ) :
    ((o.asked fs).enqueueSndBbRing env m ringId).Settles env (pdus + fs) sent := by
  obtain ⟨singles, lost, hfreed, hsound, hlost⟩ := h.blocks
  have hgrown : (((o.asked fs).enqueueSndBbRing env m ringId).pool.freed : Multiset MbufAddr) =
      pdus + fs + singles + sent := by
    rw [enqueueSndBbRing, Output.asked, ← Multiset.coe_add, hfreed]
    abel
  have hknown : known env.toDpdk 0 ((o.asked fs).enqueueSndBbRing env m ringId).pool =
      insert (.allocated o.pool.allocs) (known env.toDpdk 0 o.pool) := known_allocated halloc rfl
  have hsettle := hsound.settle (show MbufAddr.allocated o.pool.allocs ∉ known env.toDpdk 0 o.pool by simp)
  cases henq : env.enqueues o.pool.enqueues with
  | true =>
    refine ⟨h.fault, singles, lost, hgrown, ?_, hlost⟩
    have hring : (((o.asked fs).enqueueSndBbRing env m ringId).ringed : Multiset MbufAddr) =
        .allocated o.pool.allocs ::ₘ (o.ringed : Multiset MbufAddr) := by
      rw [Multiset.cons_coe, Multiset.coe_eq_coe]
      simp only [ringed, enqueueSndBbRing, Output.asked, henq, if_true, List.map_append,
        List.map_cons, List.map_nil, hm]
      exact List.perm_append_singleton _ _
    rw [hknown, hring, Multiset.add_cons, Multiset.add_cons]
    exact hsettle
  | false =>
    refine ⟨h.fault, singles, .allocated o.pool.allocs ::ₘ lost, hgrown, ?_, fun hall => ?_⟩
    · have hring : ((o.asked fs).enqueueSndBbRing env m ringId).ringed = o.ringed := by
        simp [ringed, enqueueSndBbRing, Output.asked, henq]
      rw [hknown, hring, Multiset.cons_add]
      exact hsettle
    · rw [hall] at henq
      cases henq

lemma Settles.frames (h : o.Settles env pdus sent) (hc : conf.Configured)
    (htype : conf.portToPktType = enumFwdTxFwdData) {frames : List (List Entry)} {handed : List Sender}
    (hframes : List.Forall₂ (Sealed conf) frames handed) :
    (handed.foldl (fun o t => (encapsulateFrame env conf t.gseGroup t.framePayload.maxPayload
      t.framePayload.usedPayload o).2) o).Settles env (pdus + frames.flatten.flatMap Entry.freed) sent := by
  induction hframes generalizing o pdus with
  | nil => simpa using h
  | @cons frame t _ _ hsealed _ ih =>
    have hframe : (encapsulateFrame env conf t.gseGroup t.framePayload.maxPayload
        t.framePayload.usedPayload o).2.Settles env (pdus + frame.flatMap Entry.freed) sent := by
      rw [hsealed.output hc htype o]
      cases halloc : env.allocates o.pool.allocs with
      | false => exact h.asked _ halloc
      | true => exact h.enqueued _ rfl halloc _
    have hnext := ih hframe
    rwa [add_assoc, Multiset.coe_add, ← List.flatMap_append, ← List.flatten_cons] at hnext

lemma Settles.single (h : o.Settles env pdus sent) (halloc : env.allocates o.pool.allocs = true) :
    Settles env pdus sent
      { o with pool := Pool.free (.allocated o.pool.allocs) { o.pool with allocs := o.pool.allocs + 1 } } := by
  obtain ⟨singles, lost, hfreed, hsound, hlost⟩ := h.blocks
  refine ⟨h.fault, .allocated o.pool.allocs ::ₘ singles, lost, ?_, ?_, hlost⟩
  · rw [Pool.free, ← Multiset.coe_add, hfreed, ← Multiset.singleton_add, ← Multiset.coe_singleton]
    abel
  · have hsettle := hsound.settle (show MbufAddr.allocated o.pool.allocs ∉ known env.toDpdk 0 o.pool by simp)
    rw [← known_allocated (q := Pool.free (.allocated o.pool.allocs) { o.pool with allocs := o.pool.allocs + 1 })
      halloc rfl, ← Multiset.add_cons, ← Multiset.cons_add] at hsettle
    exact hsettle

lemma Settles.returned (h : o.Settles env pdus sent) (a : MbufAddr) :
    Settles env pdus (a ::ₘ sent) { o with pool := o.pool.free a } := by
  obtain ⟨singles, lost, hfreed, hsound, hlost⟩ := h.blocks
  refine ⟨h.fault, singles, lost, ?_, hsound, hlost⟩
  rw [Pool.free, ← Multiset.coe_add, hfreed, ← Multiset.singleton_add, ← Multiset.coe_singleton]
  abel

end Output

end Send

/-- On port 0 anything may come in, on port 1 Ethernet frames. -/
def GatewayEvent.Regular : GatewayEvent → Prop
  | .arrive port _ dataLen _ => port = 0 ∨ port = 1 ∧ 60 ≤ dataLen ∧ dataLen ≤ 1514
  | _ => True

namespace Gateway

/-- A buffer by how it came into the program: received, or allocated from the pool of the decapsulating
or of the encapsulating thread. -/
inductive Buffer
  | frame (n : ℕ)
  | pdu (n : ℕ)
  | block (n : ℕ)
  deriving DecidableEq

def Buffer.ofDecap : MbufAddr → Buffer
  | .received n => .frame n
  | .allocated n => .pdu n

/-- The buffer the encapsulating thread knows by an address: the PDUs that reach its ring were received. -/
def Buffer.ofEncap : MbufAddr → Buffer
  | .received n => .frame n
  | .allocated n => .block n

def freed (g : Gateway) : List Buffer :=
  g.receiver.pool.freed.map .ofDecap ++ g.loop.sender.output.pool.freed.map .ofEncap

def waiting (g : Gateway) : List Buffer :=
  (g.rcv.waiting 0 ++ g.rcv.waiting 1 ++ g.encap.waiting 0 ++ g.encap.waiting 1).map (fun m => .ofDecap m.addr) ++
    (g.snd.waiting 1).map fun m => .ofEncap m.addr

/-- What is in one of the threads' rings, is waited for by the encapsulation loop, or has been given back. -/
def placed (g : Gateway) : List Buffer := g.freed ++ g.waiting ++ g.loop.owed.map .ofEncap

/-- Each buffer is in one place at most, and none that was received is lost; none that was allocated for
a frame is lost as long as there is room in its ring. -/
structure OneOwner (env : GatewayEnv) (g : Gateway) : Prop where
  nodup : g.placed.Nodup
  held : ∀ x a, g.receiver.table.held x = some a → .ofDecap a ∉ g.placed ∧
    ∀ y, g.receiver.table.held y = some a → y = x
  frames : ∀ n, .frame n ∈ g.placed ↔ n < g.received
  blocks : (∀ i, env.send.enqueues i = true) → ∀ n < g.loop.sender.output.pool.allocs,
    env.send.allocates n = true → .block n ∈ g.placed
  rings : (∀ x ∈ g.rcv.log, x.1 ≤ 1) ∧ (∀ x ∈ g.encap.log, x.1 ≤ 1) ∧ ∀ x ∈ g.snd.log, x.1 = 1
  received : ∀ m ∈ g.encap.ring 1, ∃ n, m.addr = .received n

structure Lined (g : Gateway) : Prop where
  rcvSound : g.rcv.Sound
  encapSound : g.encap.Sound
  sndSound : g.snd.Sound
  rcvRings : ∀ x ∈ g.rcv.log, x.1 ≤ 1
  encapRings : ∀ x ∈ g.encap.log, x.1 ≤ 1
  sndRings : ∀ x ∈ g.snd.log, x.1 = 1
  users : ∀ m ∈ g.rcv.ring 1, (∃ n, m.addr = .received n) ∧ 60 ≤ m.dataLen ∧ m.dataLen ≤ 1514
  taking : ∀ m ∈ g.encap.ring 1, (∃ n, m.addr = .received n) ∧ Ordinary m

def addrs (ms : List RteMbuf) : Multiset MbufAddr := ↑(ms.map RteMbuf.addr)

def receivedBefore (n : ℕ) : Set MbufAddr := {a | ∃ k < n, a = .received k}

def Incoming (env : GatewayEnv) (g : Gateway) : Prop :=
  Custody.Ledger.Shared (receivedBefore g.received) (addrs (g.rcv.waiting 0) + addrs (g.rcv.waiting 1))
    (addrs (g.encap.taken 0)) (ledger env.recv.toDpdk g.received g.receiver.table.held g.receiver.pool)

def Outgoing (conf : AppConf) (env : GatewayEnv) (g : Gateway) : Prop :=
  ∃ (frames : List (List Entry)) (rest : List Entry), Journal.Stands conf g.loop rest ∧
    Sent conf (g.encap.taken 1) (frames.flatten ++ rest) ∧
    g.loop.sender.output.Settles env.send (frames.flatten.flatMap Entry.freed) (addrs (g.snd.taken 1))

section Rings

variable {rcv rcv' : Rings RteMbuf} {port : ℕ} {m : RteMbuf}

lemma addrs_append (ms ms' : List RteMbuf) : addrs (ms ++ ms') = addrs ms + addrs ms' := by
  simp [addrs]

lemma addrs_cons (m : RteMbuf) (ms : List RteMbuf) : addrs (m :: ms) = m.addr ::ₘ addrs ms := rfl

lemma waiting_enqueue (h : rcv.Sound) (port : ℕ) (m : RteMbuf) (i : ℕ) :
    (rcv.enqueue port m).waiting i = rcv.waiting i ++ if port = i then [m] else [] := by
  rw [← Rings.ring_pairs [m] rcv.head i port]
  exact h.waiting_append [(port, m)] i

lemma addrs_enqueue (h : rcv.Sound) (hport : port ≤ 1) (m : RteMbuf) :
    addrs ((rcv.enqueue port m).waiting 0) + addrs ((rcv.enqueue port m).waiting 1) =
      m.addr ::ₘ (addrs (rcv.waiting 0) + addrs (rcv.waiting 1)) := by
  rw [waiting_enqueue h, waiting_enqueue h, addrs_append, addrs_append]
  obtain rfl | rfl : port = 0 ∨ port = 1 := by omega
  · rw [if_pos rfl, if_neg (by decide), addrs_cons, ← Multiset.singleton_add]
    simp only [addrs, List.map_nil, Multiset.coe_nil, ← Multiset.singleton_add]
    abel
  · rw [if_neg (by decide), if_pos rfl, addrs_cons, ← Multiset.singleton_add]
    simp only [addrs, List.map_nil, Multiset.coe_nil, ← Multiset.singleton_add]
    abel

lemma addrs_takes (h : Rings.Takes port rcv m rcv') (hport : port ≤ 1) :
    addrs (rcv.waiting 0) + addrs (rcv.waiting 1) =
      m.addr ::ₘ (addrs (rcv'.waiting 0) + addrs (rcv'.waiting 1)) := by
  obtain rfl | rfl : port = 0 ∨ port = 1 := by omega
  · rw [h.waiting, h.waiting_other one_ne_zero, addrs_cons, Multiset.cons_add]
  · rw [h.waiting, h.waiting_other zero_ne_one, addrs_cons, Multiset.add_cons]

end Rings

variable {conf : GatewayConf} {env : GatewayEnv} {g g' : Gateway}

lemma receivedBefore_succ (n : ℕ) : receivedBefore (n + 1) = insert (.received n) (receivedBefore n) := by
  ext a
  simp only [receivedBefore, Set.mem_ofPred_eq, Set.mem_insert_iff]
  constructor
  · rintro ⟨k, hk, rfl⟩
    obtain hlt | rfl := Nat.lt_succ_iff_lt_or_eq.mp hk
    · exact .inr ⟨k, hlt, rfl⟩
    · exact .inl rfl
  · rintro (rfl | ⟨k, hk, rfl⟩)
    · exact ⟨n, Nat.lt_succ_self n, rfl⟩
    · exact ⟨k, Nat.lt_succ_of_lt hk, rfl⟩

lemma settled_free (a : MbufAddr) (p : Pool) : (p.free a).settled = a ::ₘ p.settled := settled_freed a rfl rfl

namespace Incoming

lemma congr (h : g.Incoming env) (hreceived : g'.received = g.received) (hrcv : g'.rcv = g.rcv)
    (hreceiver : g'.receiver = g.receiver) (htaken : g'.encap.taken 0 = g.encap.taken 0) : g'.Incoming env := by
  rw [Incoming, hreceived, hrcv, htaken, hreceiver]
  exact h

lemma arrived (h : g.Incoming env) (hl : g.rcv.Sound) {port : ℕ} (hport : port ≤ 1) {m : RteMbuf}
    (hm : m.addr = .received g.received) (hreceived : g'.received = g.received + 1)
    (hrcv : g'.rcv = g.rcv.enqueue port m) (hreceiver : g'.receiver = g.receiver)
    (htaken : g'.encap.taken 0 = g.encap.taken 0) : g'.Incoming env := by
  have harrive := Custody.Ledger.Shared.arrive h (a := .received g.received) (by simp)
  rw [Incoming, hreceived, hrcv, hreceiver, htaken, addrs_enqueue hl hport, hm, receivedBefore_succ, ledger,
    known_received]
  exact harrive

lemma dropped (h : g.Incoming env) (hreceived : g'.received = g.received + 1) (hrcv : g'.rcv = g.rcv)
    (htable : g'.receiver.table = g.receiver.table)
    (hpool : g'.receiver.pool = g.receiver.pool.free (.received g.received))
    (htaken : g'.encap.taken 0 = g.encap.taken 0) : g'.Incoming env := by
  have harrive := Custody.Ledger.Shared.take
    (Custody.Ledger.Shared.arrive h (a := .received g.received) (by simp))
  rw [Incoming, hreceived, hrcv, htable, hpool, htaken, receivedBefore_succ, ledger, known_received,
    settled_free]
  exact harrive

lemma dispatched (h : g.Incoming env) {port : ℕ} (hport : port ≤ 1) {m : RteMbuf}
    (htakes : Rings.Takes port g.rcv m g'.rcv) {now : ℕ → ℕ} {para : FrameParam}
    (hr : dispatchDecapPkt env.recv m port now para g.receiver = some g'.receiver)
    (hreceived : g'.received = g.received) (htaken : g'.encap.taken 0 = g.encap.taken 0) : g'.Incoming env := by
  obtain ⟨r₁, p, hreceiver, hleads, hallocs, hset⟩ := RecvState.dispatchDecapPkt_settles hr g.received
  rw [Incoming, addrs_takes htakes hport] at h
  have hwalked :=
    RecvState.Leads.keeps Custody.Ledger.Shared.rules Custody.Ledger.Shared.forgets hleads h
  have hdone := Custody.Ledger.Shared.take hwalked
  rw [Incoming, hreceived, htaken, hreceiver, ledger, known_congr hallocs, hset]
  exact hdone

lemma timed (h : g.Incoming env) {tUs : ℕ} (hreceiver : g'.receiver = fragmentTimeout tUs g.receiver)
    (hreceived : g'.received = g.received) (hrcv : g'.rcv = g.rcv)
    (htaken : g'.encap.taken 0 = g.encap.taken 0) : g'.Incoming env := by
  have hleads := RecvState.fragmentTimeout_leads env.recv.toDpdk tUs g.receiver g.received
  rw [← hreceiver] at hleads
  rw [Incoming, hreceived, hrcv, htaken]
  exact RecvState.Leads.keeps Custody.Ledger.Shared.rules Custody.Ledger.Shared.forgets hleads h

lemma delivered (h : g.Incoming env) {m : RteMbuf} (htaken : g'.encap.taken 0 = g.encap.taken 0 ++ [m])
    (hreceived : g'.received = g.received) (hrcv : g'.rcv = g.rcv)
    (htable : g'.receiver.table = g.receiver.table) (hpool : g'.receiver.pool = g.receiver.pool.free m.addr) :
    g'.Incoming env := by
  have hdone := Custody.Ledger.Shared.repeated h (a := m.addr)
  have htwice : addrs (g.encap.taken 0 ++ [m]) = m.addr ::ₘ addrs (g.encap.taken 0) := by
    rw [addrs_append, add_comm]
    rfl
  rw [Incoming, hreceived, hrcv, htable, hpool, htaken, htwice, ledger, settled_free]
  exact hdone

end Incoming

section Dispatch

variable {m : RteMbuf} {para : FrameParam}

lemma processFrameHeader_inner {pool : Pool} (hret : (processFrameHeader m para pool).ret = 0) :
    ((processFrameHeader m para pool).para.packType = enumFwdTxFwdData ∨
      (processFrameHeader m para pool).para.packType = enumFwdRxFwdData) ∨
      (processFrameHeader m para pool).mbuf = inner m := by
  simp only [processFrameHeader] at hret ⊢
  split_ifs at hret ⊢ with hline htype
  · simp only [processFwdData] at hret ⊢
    split_ifs at hret ⊢
    · exact .inl htype
    · norm_num at hret
  · simp only [processTxIndication] at hret
    split_ifs at hret <;> norm_num at hret
  · norm_num at hret
  · exact .inr rfl
  · norm_num at hret

lemma dispatchDecapPkt_ring {env : RecvEnv} {queueId : ℕ} {now : ℕ → ℕ} {r r' : Receiver}
    (hr : dispatchDecapPkt env m queueId now para r = some r') :
    ∃ more, r'.pool.ring = r.pool.ring ++ more ∧ ∀ x ∈ more, x.1 = 0 ∨ x = (queueId, inner m) := by
  have hnone (p : Pool) (hp : p.ring = r.pool.ring) :
      ∃ more, p.ring = r.pool.ring ++ more ∧ ∀ x ∈ more, x.1 = 0 ∨ x = (queueId, inner m) :=
    ⟨[], by rw [hp, List.append_nil], fun x hx => absurd hx List.not_mem_nil⟩
  simp only [dispatchDecapPkt] at hr
  obtain ⟨hret, hpool⟩ | ⟨hret, hpool, -, -⟩ := processFrameHeader_cases m para r.pool
  · rw [if_pos hret, hpool] at hr
    obtain rfl := Option.some.inj hr
    exact hnone _ rfl
  · rw [if_neg (by simp [hret]), hpool] at hr
    split_ifs at hr with hframe
    · obtain ⟨new, hnew⟩ := decapsulateGse_feeds hr
      refine ⟨new.map (Prod.mk 0), hnew, fun x hx => ?_⟩
      obtain ⟨_, -, rfl⟩ := List.mem_map.mp hx
      exact .inl rfl
    · obtain rfl := Option.some.inj hr
      rw [(processFrameHeader_inner hret).resolve_left fun htype => hframe (.inr htype)]
      simp only [Pool.enqueueEncapRing]
      split_ifs
      · exact ⟨[(queueId, inner m)], rfl, fun x hx => .inr (List.mem_singleton.mp hx)⟩
      · exact hnone _ rfl
    · obtain rfl := Option.some.inj hr
      exact hnone _ rfl

end Dispatch

namespace Lined

lemma congr (h : g.Lined) (hrcv : g'.rcv = g.rcv) (hlog : g'.encap.log = g.encap.log) (hencap : g'.encap.Sound)
    (hsnd : g'.snd.Sound) (hsndRings : ∀ x ∈ g'.snd.log, x.1 = 1) : g'.Lined where
  rcvSound := hrcv ▸ h.rcvSound
  encapSound := hencap
  sndSound := hsnd
  rcvRings := hrcv ▸ h.rcvRings
  encapRings := hlog ▸ h.encapRings
  sndRings := hsndRings
  users := hrcv ▸ h.users
  taking := by
    rw [Rings.ring, hlog]
    exact h.taking

lemma arrived (h : g.Lined) {port : ℕ} (hport : port ≤ 1) {m : RteMbuf}
    (hm : port = 1 → (∃ n, m.addr = .received n) ∧ 60 ≤ m.dataLen ∧ m.dataLen ≤ 1514)
    (hrcv : g'.rcv = g.rcv.enqueue port m) (hencap : g'.encap = g.encap) (hsnd : g'.snd = g.snd) : g'.Lined where
  rcvSound := by
    rw [hrcv]
    exact h.rcvSound.append _
  encapSound := hencap ▸ h.encapSound
  sndSound := hsnd ▸ h.sndSound
  rcvRings := by
    rw [hrcv]
    intro x hx
    rcases List.mem_append.mp hx with hx | hx
    · exact h.rcvRings x hx
    · obtain rfl := List.mem_singleton.mp hx
      exact hport
  encapRings := hencap ▸ h.encapRings
  sndRings := hsnd ▸ h.sndRings
  users := by
    rw [hrcv]
    intro m' hm'
    rcases List.mem_append.mp (Rings.mem_ring.mp hm') with hx | hx
    · exact h.users m' (Rings.mem_ring.mpr hx)
    · obtain ⟨hone, rfl⟩ := Prod.mk.inj (List.mem_singleton.mp hx)
      exact hm hone.symm
  taking := hencap ▸ h.taking

lemma decapsulated (h : g.Lined) {port : ℕ} {m : RteMbuf} (htakes : Rings.Takes port g.rcv m g'.rcv)
    {more : List (ℕ × RteMbuf)} (hgrown : g'.receiver.pool.ring = g.receiver.pool.ring ++ more)
    (hmore : ∀ x ∈ more, x.1 = 0 ∨ x = (port, inner m)) (hhead : g'.encapHead = g.encapHead)
    (hsnd : g'.snd = g.snd) : g'.Lined := by
  have hencap : g'.encap = ⟨g.encap.log ++ more, g.encap.head⟩ := by
    rw [encap, hgrown, hhead]
    rfl
  have hport : port ≤ 1 := h.rcvRings _ htakes.mem
  refine ⟨htakes.sound h.rcvSound, ?_, hsnd ▸ h.sndSound, ?_, ?_, hsnd ▸ h.sndRings, ?_, ?_⟩
  · rw [hencap]
    exact h.encapSound.append more
  · rw [htakes.log]
    exact h.rcvRings
  · rw [hencap]
    intro x hx
    rcases List.mem_append.mp hx with hx | hx
    · exact h.encapRings x hx
    · rcases hmore x hx with hzero | rfl
      · exact hzero.le.trans (Nat.zero_le 1)
      · exact hport
  · rw [htakes.ring]
    exact h.users
  · rw [hencap, Rings.ring_append]
    intro m' hm'
    rcases List.mem_append.mp hm' with hm' | hm'
    · exact h.taking m' hm'
    · rcases hmore _ (Rings.mem_ring.mp hm') with hzero | hinner
      · cases hzero
      · obtain ⟨rfl, rfl⟩ := Prod.mk.inj hinner
        obtain ⟨hreceived, hge, hle⟩ := h.users m (Rings.mem_ring.mpr htakes.mem)
        rw [inner_addr]
        exact ⟨hreceived, inner_ordinary hge hle⟩

end Lined

lemma sealed_ring_append {env : SendEnv} {conf : AppConf} (hc : conf.Configured)
    (htype : conf.portToPktType = enumFwdTxFwdData) {frames : List (List Entry)} {handed : List Sender}
    (h : List.Forall₂ (Sealed conf) frames handed) (o : Output) :
    ∃ more, (handed.foldl (fun o t => (encapsulateFrame env conf t.gseGroup t.framePayload.maxPayload
      t.framePayload.usedPayload o).2) o).pool.ring = o.pool.ring ++ more ∧ ∀ x ∈ more, x.1 = conf.mappingId := by
  induction h generalizing o with
  | nil => exact ⟨[], (List.append_nil _).symm, fun x hx => absurd hx List.not_mem_nil⟩
  | @cons frame t frames handed hsealed _ ih =>
    obtain ⟨new, hnew, hid⟩ : ∃ new, (encapsulateFrame env conf t.gseGroup t.framePayload.maxPayload
        t.framePayload.usedPayload o).2.pool.ring = o.pool.ring ++ new ∧ ∀ x ∈ new, x.1 = conf.mappingId := by
      rw [hsealed.output hc htype o]
      simp only [Output.enqueueSndBbRing]
      split_ifs
      · exact ⟨[_], rfl, fun x hx => by rw [List.mem_singleton.mp hx]⟩
      · exact ⟨[], (List.append_nil _).symm, fun x hx => absurd hx List.not_mem_nil⟩
      · exact ⟨[], (List.append_nil _).symm, fun x hx => absurd hx List.not_mem_nil⟩
    obtain ⟨more, hmore, hids⟩ := ih (encapsulateFrame env conf t.gseGroup t.framePayload.maxPayload
      t.framePayload.usedPayload o).2
    refine ⟨new ++ more, by rw [List.foldl_cons, hmore, hnew, List.append_assoc], fun x hx => ?_⟩
    exact (List.mem_append.mp hx).elim (hid x) (hids x)

namespace Outgoing

variable {mapping : AppConf}

lemma congr (h : g.Outgoing mapping env) (hloop : g'.loop = g.loop) (hhead : g'.sndHead = g.sndHead)
    (htaken : g'.encap.taken 1 = g.encap.taken 1) : g'.Outgoing mapping env := by
  rw [Outgoing, snd, hloop, hhead, htaken]
  exact h

lemma output (h : g.Outgoing mapping env) {o : Output} (hloop : g'.loop = { g.loop with sender.output := o })
    (htaken : g'.encap.taken 1 = g.encap.taken 1)
    (ho : ∀ pdus, g.loop.sender.output.Settles env.send pdus (addrs (g.snd.taken 1)) →
      o.Settles env.send pdus (addrs (g'.snd.taken 1))) : g'.Outgoing mapping env := by
  obtain ⟨frames, rest, hstands, hsent, hsettles⟩ := h
  refine ⟨frames, rest, ?_, ?_, ?_⟩
  · rw [hloop]
    exact hstands.withOutput o
  · rw [htaken]
    exact hsent
  · rw [hloop]
    exact ho _ hsettles

lemma loop (h : g.Outgoing mapping env) (hc : mapping.Configured)
    (htype : mapping.portToPktType = enumFwdTxFwdData)
    (hmapping : mapping.mappingId = 1) (hl : g.Lined) {turn : Sender.Turn}
    (hturn : ∀ m, turn = .pdu m → Ordinary m) (hloop : g'.loop = g.loop.next env.send mapping turn)
    (hhead : g'.sndHead = g.sndHead)
    (htaken : g'.encap.taken 1 = g.encap.taken 1 ++ (Journal.mk g.loop [] []).fetches turn) :
    g'.Outgoing mapping env ∧ g'.snd.Sound ∧ ∀ x ∈ g'.snd.log, x.1 = 1 := by
  obtain ⟨frames, rest, hstands, hsent, hsettles⟩ := h
  obtain ⟨new, part, rest', hnew, hpart, hstands', hflat, -⟩ :=
    Journal.Stands.next env.send (j := ⟨g.loop, [], []⟩) hstands hc hturn
  have houtput := Journal.next_output env.send mapping ⟨g.loop, [], []⟩ turn
  simp only at houtput hstands'
  rw [← hloop] at houtput hstands'
  obtain ⟨more, hring, hmore⟩ := @sealed_ring_append env.send _ hc htype _ _ hnew g.loop.sender.output
  rw [← houtput] at hring
  rw [hmapping] at hmore
  have hsnd : g'.snd = ⟨g.snd.log ++ more, g.snd.head⟩ := by
    rw [snd, hring, hhead]
    rfl
  refine ⟨⟨frames ++ new, rest', hstands', ?_, ?_⟩, ?_, ?_⟩
  · have happend := hsent.append hpart
    rwa [List.append_assoc, ← hflat, ← List.append_assoc, ← List.flatten_append, ← htaken] at happend
  · have hframes := hsettles.frames hc htype hnew
    rw [← houtput, Multiset.coe_add, ← List.flatMap_append, ← List.flatten_append] at hframes
    rw [hsnd, hl.sndSound.taken_append]
    exact hframes
  · rw [hsnd]
    exact hl.sndSound.append more
  · rw [hsnd]
    intro x hx
    exact (List.mem_append.mp hx).elim (hl.sndRings x) (hmore x)

end Outgoing

structure Mapped (conf : GatewayConf) : Prop where
  configured : conf.mapping.Configured
  packType : conf.mapping.portToPktType = enumFwdTxFwdData
  mappingId : conf.mapping.mappingId = 1

structure Kept (conf : GatewayConf) (env : GatewayEnv) (g : Gateway) : Prop where
  lined : g.Lined
  incoming : g.Incoming env
  outgoing : g.Outgoing conf.mapping env

namespace Kept

lemma initial (conf : GatewayConf) (env : GatewayEnv) : Gateway.initial.Kept conf env where
  lined := by
    refine ⟨Rings.sound_empty, Rings.sound_empty, Rings.sound_empty, ?_, ?_, ?_, ?_, ?_⟩
    all_goals exact fun x hx => absurd hx List.not_mem_nil
  incoming := by
    have hnone : receivedBefore 0 = ∅ := by
      ext a
      simp [receivedBefore]
    refine ⟨0, rfl, by simp [Gateway.initial, hnone], ?_⟩
    exact (@RecvState.sound_initial env.recv).safe
  outgoing := ⟨[], [], .idle (clean_initial conf.mapping), .nil, Output.settles_fresh env.send⟩

lemma receiveMsg (h : g.Kept conf env) {port : ℕ} {data : Memory} {dataLen protocolType : ℕ}
    (hport : port = 0 ∨ port = 1 ∧ 60 ≤ dataLen ∧ dataLen ≤ 1514) :
    (g.receiveMsg env port data dataLen protocolType).Kept conf env := by
  have hle : port ≤ 1 := by omega
  have hdropped : Kept conf env { g with
      received := g.received + 1
      receiver := { g.receiver with pool := g.receiver.pool.free (.received g.received) } } :=
    ⟨h.lined.congr rfl rfl h.lined.encapSound h.lined.sndSound h.lined.sndRings,
      h.incoming.dropped rfl rfl rfl rfl rfl, h.outgoing.congr rfl rfl rfl⟩
  simp only [Gateway.receiveMsg]
  split_ifs
  · exact hdropped
  · refine ⟨h.lined.arrived hle (fun hone => ⟨⟨_, rfl⟩, ?_⟩) rfl rfl rfl,
      h.incoming.arrived h.lined.rcvSound hle rfl rfl rfl rfl rfl, h.outgoing.congr rfl rfl rfl⟩
    exact (hport.resolve_left (by omega)).2
  · exact hdropped

lemma decapsulate (h : g.Kept conf env) {now : ℕ → ℕ} {para : FrameParam} {clock : Option ℕ}
    (hstep : g.decapsulate conf env now para clock = some g') : g'.Kept conf env := by
  simp only [Gateway.decapsulate] at hstep
  split_ifs at hstep
  · cases hdeq : g.rcv.dequeue g.decapRing with
    | none =>
      rw [hdeq] at hstep
      obtain rfl := Option.some.inj hstep
      exact ⟨h.lined.congr rfl rfl h.lined.encapSound h.lined.sndSound h.lined.sndRings,
        h.incoming.congr rfl rfl rfl rfl, h.outgoing.congr rfl rfl rfl⟩
    | some x =>
      obtain ⟨m, rcv⟩ := x
      rw [hdeq] at hstep
      obtain ⟨r, hr, rfl⟩ := Option.map_eq_some_iff.mp hstep
      have htakes := Rings.dequeue_takes hdeq
      obtain ⟨more, hgrown, hmore⟩ := dispatchDecapPkt_ring hr
      have htaken (i : ℕ) : (⟨r.pool.ring, g.encapHead⟩ : Rings RteMbuf).taken i = g.encap.taken i := by
        rw [hgrown]
        exact h.lined.encapSound.taken_append more i
      exact ⟨h.lined.decapsulated htakes hgrown hmore rfl rfl,
        h.incoming.dispatched (h.lined.rcvRings _ htakes.mem) htakes hr rfl (htaken 0),
        h.outgoing.congr rfl rfl (htaken 1)⟩
  · cases clock with
    | none =>
      obtain rfl := Option.some.inj hstep
      exact ⟨h.lined.congr rfl rfl h.lined.encapSound h.lined.sndSound h.lined.sndRings,
        h.incoming.congr rfl rfl rfl rfl, h.outgoing.congr rfl rfl rfl⟩
    | some tUs =>
      obtain rfl := Option.some.inj hstep
      have hring := fragmentTimeout_ring tUs g.receiver
      generalize htimed : fragmentTimeout tUs g.receiver = r at hring ⊢
      have hencap : encap { g with receiver := r, decapRing := 0 } = g.encap := by
        rw [encap, hring]
        rfl
      refine ⟨h.lined.congr rfl ?_ ?_ h.lined.sndSound h.lined.sndRings,
        h.incoming.timed htimed.symm rfl rfl ?_, h.outgoing.congr rfl rfl ?_⟩
      · rw [hencap]
      · rw [hencap]
        exact h.lined.encapSound
      · rw [hencap]
      · rw [hencap]

lemma next (h : g.Kept conf env) (hc : Mapped conf) {turn : Sender.Turn} (hturn : ∀ m, turn = .pdu m → Ordinary m)
    (hloop : g'.loop = g.loop.next env.send conf.mapping turn) (hhead : g'.sndHead = g.sndHead)
    (htaken : g'.encap.taken 1 = g.encap.taken 1 ++ (Journal.mk g.loop [] []).fetches turn)
    (hzero : g'.encap.taken 0 = g.encap.taken 0) (hlog : g'.encap.log = g.encap.log) (hsound : g'.encap.Sound)
    (hrcv : g'.rcv = g.rcv) (hreceived : g'.received = g.received) (hreceiver : g'.receiver = g.receiver) :
    g'.Kept conf env := by
  obtain ⟨houtgoing, hsnd, hrings⟩ := h.outgoing.loop hc.configured hc.packType hc.mappingId h.lined hturn hloop
    hhead htaken
  exact ⟨h.lined.congr hrcv hlog hsound hsnd hrings, h.incoming.congr hreceived hrcv hreceiver hzero, houtgoing⟩

lemma encapsulateMapping (h : g.Kept conf env) (hc : Mapped conf) :
    (g.encapsulateMapping conf env).Kept conf env := by
  have hidle (m : RteMbuf) (hm : Sender.Turn.idle = .pdu m) : Ordinary m := by cases hm
  have hnone : g.encap.taken 1 = g.encap.taken 1 ++ (Journal.mk g.loop [] []).fetches .idle := by
    rw [fetches_idle, List.append_nil]
  rw [Gateway.encapsulateMapping]
  split_ifs with hpoint
  · cases hdeq : g.encap.dequeue 1 with
    | some x =>
      obtain ⟨m, encap⟩ := x
      have htakes := Rings.dequeue_takes hdeq
      have hencap : (⟨g.receiver.pool.ring, encap.head⟩ : Rings RteMbuf) = encap := by
        rw [show g.receiver.pool.ring = encap.log from htakes.log.symm]
      have hm : Ordinary m := (h.lined.taking m (Rings.mem_ring.mpr htakes.mem)).2
      have hfetches : (Journal.mk g.loop [] []).fetches (.pdu m) = [m] := by
        simp [Journal.fetches, hpoint]
      refine @next _ _ _ _ h hc (.pdu m) (fun m' hm' => ?_) rfl rfl ?_ ?_ rfl ?_ rfl rfl rfl
      · obtain rfl := Sender.Turn.pdu.inj hm'
        exact hm
      · rw [hfetches]
        exact hencap.symm ▸ htakes.taken
      · exact hencap.symm ▸ htakes.taken_other zero_ne_one
      · exact hencap.symm ▸ htakes.sound h.lined.encapSound
    | none =>
      simp only
      split_ifs
      · exact h.next hc hidle rfl rfl hnone rfl rfl h.lined.encapSound rfl rfl rfl
      · obtain ⟨frames, rest, hstands, hsent, hsettles⟩ := h.outgoing
        exact ⟨h.lined.congr rfl rfl h.lined.encapSound h.lined.sndSound h.lined.sndRings,
          h.incoming.congr rfl rfl rfl rfl, frames, rest, hstands.skip hpoint, hsent, hsettles⟩
  · exact h.next hc hidle rfl rfl hnone rfl rfl h.lined.encapSound rfl rfl rfl

/-- A PDU of ring 0 is handed on; `o` is left of what is sent when a buffer was asked for, or none. -/
lemma handOn (h : g.Kept conf env) {m : RteMbuf} {encap : Rings RteMbuf} (htakes : Rings.Takes 0 g.encap m encap)
    {o : Output} (ho : o = g.loop.sender.output ∨
      env.send.allocates g.loop.sender.output.pool.allocs = false ∧ o = g.loop.sender.output.asked [] ∨
      env.send.allocates g.loop.sender.output.pool.allocs = true ∧ o =
        { g.loop.sender.output.asked [] with
          pool := (g.loop.sender.output.asked []).pool.free (.allocated g.loop.sender.output.pool.allocs) })
    (hencap : g'.encap = encap) (hloop : g'.loop = { g.loop with sender.output := o })
    (hhead : g'.sndHead = g.sndHead)
    (hrcv : g'.rcv = g.rcv) (hreceived : g'.received = g.received) (htable : g'.receiver.table = g.receiver.table)
    (hpool : g'.receiver.pool = g.receiver.pool.free m.addr) : g'.Kept conf env := by
  have hasked : g.loop.sender.output.asked [] = { g.loop.sender.output with
      pool := { g.loop.sender.output.pool with allocs := g.loop.sender.output.pool.allocs + 1 } } := by
    rw [Output.asked, List.append_nil]
  have hsnd : g'.snd = g.snd := by
    rw [snd, snd, hloop, hhead]
    obtain rfl | ⟨-, rfl⟩ | ⟨-, rfl⟩ := ho <;> rfl
  refine ⟨h.lined.congr hrcv (by rw [hencap, htakes.log]) ?_ ?_ ?_,
    h.incoming.delivered ?_ hreceived hrcv htable hpool,
    h.outgoing.output hloop ?_ ?_⟩
  · rw [hencap]
    exact htakes.sound h.lined.encapSound
  · rw [hsnd]
    exact h.lined.sndSound
  · rw [hsnd]
    exact h.lined.sndRings
  · rw [hencap]
    exact htakes.taken
  · rw [hencap]
    exact htakes.taken_other one_ne_zero
  · intro pdus hsettles
    rw [hsnd]
    obtain rfl | ⟨halloc, rfl⟩ | ⟨halloc, rfl⟩ := ho
    · exact hsettles
    · have hgone := hsettles.asked [] halloc
      rwa [Multiset.coe_nil, add_zero] at hgone
    · rw [hasked]
      exact hsettles.single halloc

lemma encapsulateOther (h : g.Kept conf env) (hring : g.encapRing ≠ 1) :
    (g.encapsulateOther conf env).Kept conf env := by
  rw [Gateway.encapsulateOther]
  cases hdeq : g.encap.dequeue g.encapRing with
  | none =>
    exact ⟨h.lined.congr rfl rfl h.lined.encapSound h.lined.sndSound h.lined.sndRings,
      h.incoming.congr rfl rfl rfl rfl, h.outgoing.congr rfl rfl rfl⟩
  | some x =>
    obtain ⟨m, encap⟩ := x
    have htakes := Rings.dequeue_takes hdeq
    have hzero : g.encapRing = 0 := by
      have hle : g.encapRing ≤ 1 := h.lined.encapRings _ htakes.mem
      omega
    have hencap : (⟨g.receiver.pool.ring, encap.head⟩ : Rings RteMbuf) = encap := by
      rw [show g.receiver.pool.ring = encap.log from htakes.log.symm]
    rw [hzero] at htakes
    simp only [if_pos hzero]
    obtain ⟨o, more, heq, ho⟩ := sndSinglePdu_keeps conf env m 1 { g with
      encapHead := encap.head
      loopCount := Function.update g.loopCount g.encapRing 0
      encapRing := nextRing conf.encapRingQueueNum g.encapRing }
    rw [heq]
    exact h.handOn htakes ho hencap rfl rfl rfl rfl rfl rfl

lemma sendFrame (h : g.Kept conf env) : (g.sendFrame conf).Kept conf env := by
  rw [Gateway.sendFrame]
  cases hdeq : g.snd.dequeue g.sndRing with
  | none =>
    exact ⟨h.lined.congr rfl rfl h.lined.encapSound h.lined.sndSound h.lined.sndRings,
      h.incoming.congr rfl rfl rfl rfl, h.outgoing.congr rfl rfl rfl⟩
  | some x =>
    obtain ⟨m, snd⟩ := x
    have htakes := Rings.dequeue_takes hdeq
    have hone : g.sndRing = 1 := h.lined.sndRings _ htakes.mem
    have hsnd : (⟨g.loop.sender.output.pool.ring, snd.head⟩ : Rings RteMbuf) = snd := by
      rw [show g.loop.sender.output.pool.ring = snd.log from htakes.log.symm]
    rw [hone] at htakes
    refine ⟨h.lined.congr rfl rfl h.lined.encapSound (hsnd.symm ▸ htakes.sound h.lined.sndSound)
      h.lined.sndRings, h.incoming.congr rfl rfl rfl rfl, h.outgoing.output rfl rfl fun pdus hsettles => ?_⟩
    · have htaken : addrs ((⟨g.loop.sender.output.pool.ring, snd.head⟩ : Rings RteMbuf).taken 1) =
          m.addr ::ₘ addrs (g.snd.taken 1) := by
        rw [hsnd, htakes.taken, addrs_append, add_comm]
        rfl
      exact htaken.symm ▸ hsettles.returned m.addr

lemma step (h : g.Kept conf env) (hc : Mapped conf) {e : GatewayEvent} (he : e.Regular)
    (hstep : g.step conf env e = some g') : g'.Kept conf env := by
  cases e with
  | arrive port data dataLen protocolType =>
    obtain rfl := Option.some.inj hstep
    exact h.receiveMsg he
  | decapsulate now para clock => exact h.decapsulate hstep
  | encapsulate =>
    obtain rfl := encapsulate_eq hstep
    split_ifs with hring
    · exact h.encapsulateMapping hc
    · exact h.encapsulateOther hring
  | send =>
    obtain rfl := Option.some.inj hstep
    exact h.sendFrame

end Kept

section Owners

lemma ofDecap_injective : Function.Injective Buffer.ofDecap := by
  intro a b h
  cases a <;> cases b <;> cases h <;> rfl

lemma ofEncap_injective : Function.Injective Buffer.ofEncap := by
  intro a b h
  cases a <;> cases b <;> cases h <;> rfl

lemma ring_addrs {r : Rings RteMbuf} (h : ∀ x ∈ r.log, x.1 ≤ 1) :
    ((r.log.map fun x => x.2.addr : List MbufAddr) : Multiset MbufAddr) = addrs (r.ring 0) + addrs (r.ring 1) := by
  obtain ⟨log, head⟩ := r
  simp only at h ⊢
  induction log with
  | nil => rfl
  | cons x log ih =>
    have hrest := ih fun y hy => h y (List.mem_cons_of_mem x hy)
    obtain ⟨i, m⟩ := x
    have hcons (j : ℕ) : addrs (Rings.ring ⟨(i, m) :: log, head⟩ j) =
        addrs (if i = j then [m] else []) + addrs (Rings.ring ⟨log, head⟩ j) := by
      rw [← Rings.ring_pairs [m] head j i, ← addrs_append, ← Rings.ring_append]
      rfl
    rw [hcons, hcons, List.map_cons, ← Multiset.cons_coe, hrest]
    obtain rfl | rfl : i = 0 ∨ i = 1 := by
      have hi : i ≤ 1 := h _ List.mem_cons_self
      omega
    · rw [if_pos rfl, if_neg zero_ne_one, addrs_cons, Multiset.cons_add, Multiset.cons_add]
      simp [addrs]
    · rw [if_neg one_ne_zero, if_pos rfl, addrs_cons, Multiset.cons_add, Multiset.add_cons]
      simp [addrs]

lemma waiting_taken (r : Rings RteMbuf) (i : ℕ) : addrs (r.ring i) = addrs (r.taken i) + addrs (r.waiting i) := by
  rw [← addrs_append, Rings.taken_append_waiting]

lemma Kept.placed_eq (h : g.Kept conf env) :
    ∃ s t lost lost' : Multiset MbufAddr, (g.placed : Multiset Buffer) = s.map .ofDecap + t.map .ofEncap ∧
      (∀ a ∈ receivedBefore g.received, a ∈ s) ∧
      Custody.Ledger.Sound ⟨known env.recv.toDpdk g.received g.receiver.pool, g.receiver.table.held, lost + s⟩ ∧
      Custody.Ledger.Sound (⟨known env.send.toDpdk 0 g.loop.sender.output.pool, fun _ => none, lost' + t⟩ :
        Custody.Ledger MbufAddr Unit) ∧
      ((∀ i, env.send.enqueues i = true) → lost' = 0) := by
  obtain ⟨s, hs, hkept, lost, hsound⟩ := h.incoming
  obtain ⟨frames, rest, hstands, hsent, -, singles, lost', hfreed, hsound', hlost'⟩ := h.outgoing
  refine ⟨s, singles + g.loop.sender.output.ringed, lost, lost', ?_, hkept, hsound, hsound', hlost'⟩
  -- the PDUs that the encapsulating thread has taken were all received
  have htaken : (frames.flatten.flatMap Entry.freed : Multiset MbufAddr).map Buffer.ofEncap +
      (g.loop.owed : Multiset MbufAddr).map Buffer.ofEncap = (addrs (g.encap.taken 1)).map Buffer.ofDecap := by
    have haddrs := hsent.freed
    rw [List.flatMap_append, ← hstands.owed] at haddrs
    rw [← Multiset.map_add, Multiset.coe_add, haddrs]
    refine Multiset.map_congr rfl fun a ha => ?_
    obtain ⟨m, hm, rfl⟩ := List.mem_map.mp (Multiset.mem_coe.mp ha)
    obtain ⟨n, hn⟩ := (h.lined.taking m (Rings.mem_of_mem_taken hm)).1
    rw [hn]
    rfl
  have hringed : (g.loop.sender.output.ringed : Multiset MbufAddr) =
      addrs (g.snd.taken 1) + addrs (g.snd.waiting 1) := by
    rw [← waiting_taken, addrs, Rings.ring,
      List.filter_eq_self.mpr fun x hx => decide_eq_true (h.lined.sndRings x hx),
      List.map_map]
    rfl
  have hincoming : s = addrs (g.rcv.waiting 0) + addrs (g.rcv.waiting 1) + g.receiver.pool.freed +
      addrs (g.encap.waiting 0) + addrs (g.encap.taken 1) + addrs (g.encap.waiting 1) := by
    have hring := ring_addrs h.lined.encapRings
    rw [waiting_taken, waiting_taken] at hring
    have hsettled : g.receiver.pool.settled = g.receiver.pool.freed + (addrs (g.encap.taken 0) +
        addrs (g.encap.waiting 0) + (addrs (g.encap.taken 1) + addrs (g.encap.waiting 1))) := by
      rw [← hring, Pool.settled, ← Multiset.coe_add]
      rfl
    simp only [ledger] at hs
    rw [hsettled] at hs
    apply add_right_cancel (b := addrs (g.encap.taken 0))
    rw [hs]
    abel
  have hplaced : (g.placed : Multiset Buffer) =
      (g.receiver.pool.freed : Multiset MbufAddr).map .ofDecap +
        (g.loop.sender.output.pool.freed : Multiset MbufAddr).map .ofEncap +
      ((addrs (g.rcv.waiting 0) + addrs (g.rcv.waiting 1) + addrs (g.encap.waiting 0) +
        addrs (g.encap.waiting 1)).map .ofDecap + (addrs (g.snd.waiting 1)).map .ofEncap) +
      (g.loop.owed : Multiset MbufAddr).map .ofEncap := by
    simp [placed, freed, waiting, addrs, Function.comp_def, ← Multiset.coe_add, add_assoc]
  rw [hplaced, hfreed, hincoming, hringed]
  simp only [Multiset.map_add, ← htaken]
  abel

end Owners

abbrev Reachable (conf : GatewayConf) (env : GatewayEnv) : Gateway → Prop :=
  Library.Runs.Reached (fun g e => (g.step conf env e).map fun g' => (g', ())) (fun _ e => e.Regular) .initial

lemma Kept.oneOwner (h : g.Kept conf env) : g.OneOwner env := by
  obtain ⟨s, t, lost, lost', hplaced, hkept, hsound, hsound', hlost'⟩ := h.placed_eq
  have hs : s.Nodup := (Multiset.nodup_add.mp hsound.nodup).2.1
  have ht : t.Nodup := (Multiset.nodup_add.mp hsound'.nodup).2.1
  have hblock (a : MbufAddr) (ha : a ∈ t) : ∃ n, a = .allocated n := by
    have hknown := hsound'.settled_known a (Multiset.mem_add.mpr (.inr ha))
    cases a with
    | received n => exact absurd hknown (Nat.not_lt_zero n)
    | allocated n => exact ⟨n, rfl⟩
  have hmem (b : Buffer) : b ∈ g.placed ↔ (∃ a ∈ s, .ofDecap a = b) ∨ ∃ a ∈ t, .ofEncap a = b := by
    rw [← Multiset.mem_coe, hplaced, Multiset.mem_add, Multiset.mem_map, Multiset.mem_map]
  refine ⟨?_, fun x a hx => ⟨fun ha => ?_, fun y hy => hsound.alone y x a hy hx⟩,
    fun n => ⟨fun hn => ?_, fun hn => ?_⟩,
    fun henq n hn halloc => ?_, ⟨h.lined.rcvRings, h.lined.encapRings, h.lined.sndRings⟩,
    fun m hm => (h.lined.taking m hm).1⟩
  · rw [← Multiset.coe_nodup, hplaced, Multiset.nodup_add]
    refine ⟨hs.map ofDecap_injective, ht.map ofEncap_injective, Multiset.disjoint_left.mpr fun hb hb' => ?_⟩
    obtain ⟨a, -, rfl⟩ := Multiset.mem_map.mp hb
    obtain ⟨a', ha', heq⟩ := Multiset.mem_map.mp hb'
    obtain ⟨k, rfl⟩ := hblock a' ha'
    cases a <;> cases heq
  · rcases (hmem _).mp ha with ⟨a', ha', heq⟩ | ⟨a', ha', heq⟩
    · obtain rfl := ofDecap_injective heq
      exact hsound.apart x a' hx (Multiset.mem_add.mpr (.inr ha'))
    · obtain ⟨k, rfl⟩ := hblock a' ha'
      cases a <;> cases heq
  · rcases (hmem _).mp hn with ⟨a, ha, heq⟩ | ⟨a, ha, heq⟩
    · have hknown := hsound.settled_known a (Multiset.mem_add.mpr (.inr ha))
      cases a with
      | received k =>
        cases heq
        exact hknown
      | allocated k => cases heq
    · obtain ⟨k, rfl⟩ := hblock a ha
      cases heq
  · exact (hmem _).mpr (.inl ⟨.received n, hkept _ ⟨n, hn, rfl⟩, rfl⟩)
  · rw [hlost' henq, zero_add] at hsound'
    obtain hin | ⟨x, hx⟩ := hsound'.located (.allocated n) ⟨hn, halloc⟩
    · exact (hmem _).mpr (.inr ⟨_, hin, rfl⟩)
    · cases hx

/-- Whatever comes in, whatever the packet library refuses, and in whatever order the threads take their
turns: no buffer is given back twice, none stands in a ring, in a frame or behind a `ptr_pdu` once it has
been given back, and none is in two of these places. No frame that came in is lost, and no buffer of a
frame that goes out, as long as there is room in its ring. -/
theorem buffers_have_one_owner (hc : Mapped conf) (h : Reachable conf env g) : g.OneOwner env := by
  have hkept : g.Kept conf env := by
    refine Library.Runs.Reached.invariant (Gateway.Kept conf env) (Kept.initial conf env) ?_ h
    intro g e g' u hg he hstep
    obtain ⟨g₁, hg₁, hpair⟩ := Option.map_eq_some_iff.mp hstep
    obtain ⟨rfl, -⟩ := Prod.mk.inj hpair
    exact hg.step hc he hg₁
  exact hkept.oneOwner

lemma samplePort_mapped : Mapped Network.samplePort := ⟨Network.samplePort_serves.configured, rfl, rfl⟩

def sampleLook : GatewayEvent := .decapsulate (fun _ => 0) ⟨0, 0, 0, 0, 0⟩ none

/-- The second frame that comes in finds no room in its ring. -/
def fullRing : GatewayEnv := { Network.samplePortEnv with rcvEnqueues := fun n => n ≠ 1 }

/-- Three frames of users come in; two of them are taken, and put into packets until a frame is full and
has been sent. The one without room is given back, as are the first PDU and the frame. -/
def sampleTurns : List GatewayEvent :=
  List.replicate 3 (Network.sampleArrival 1514) ++ List.replicate 5 sampleLook ++
    List.replicate 6 .encapsulate ++ List.replicate 2 .send

lemma sampleTurns_regular : ∀ e ∈ sampleTurns, e.Regular := by
  simp only [sampleTurns, List.mem_append, List.mem_replicate]
  rintro e (((⟨-, rfl⟩ | ⟨-, rfl⟩) | ⟨-, rfl⟩) | ⟨-, rfl⟩)
  · exact .inr ⟨rfl, by decide, by decide⟩
  · trivial
  · trivial
  · trivial

def sampleStep (g : Gateway) (e : GatewayEvent) : Option (Gateway × Unit) :=
  (g.step Network.samplePort fullRing e).map fun g' => (g', ())

theorem buffers_have_one_owner_sent : ∃ g os, Library.Runs.run sampleStep .initial sampleTurns = some (g, os) ∧
    (g.wire.length, g.receiver.pool.freed.length, g.loop.sender.output.pool.freed.length) = (1, 1, 2) ∧
    g.OneOwner fullRing := by
  have hsent : (Library.Runs.run sampleStep .initial sampleTurns).map (fun t =>
      (t.1.wire.length, t.1.receiver.pool.freed.length, t.1.loop.sender.output.pool.freed.length)) =
        some (1, 1, 2) := by decide +kernel
  obtain ⟨⟨g, os⟩, hrun, hsent⟩ := Option.map_eq_some_iff.mp hsent
  exact ⟨g, os, hrun, hsent, buffers_have_one_owner samplePort_mapped
    (Library.Runs.Reached.start.of_run_forall (fun e he _ => sampleTurns_regular e he) hrun)⟩

end Gateway

end Fengtai
