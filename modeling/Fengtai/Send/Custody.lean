import Fengtai.Send.Journal

set_option autoImplicit false

/-! Where the packet buffers of the encapsulation loop go: those of the PDUs, and those
`write_codeblock` allocates for its frames. -/

namespace Fengtai.Send

open Library.Words Library.Runs Receive Sender

def OneGse.copied (a : MbufAddr) (o : OneGse) : List UInt8 :=
  (List.range o.pduNum).flatMap fun j =>
    if (o.onePdu j).mbufAddress = some a then (o.onePdu j).pStart.read (o.onePdu j).pduSize else []

def EnPduNode.copied (a : MbufAddr) (n : EnPduNode) : List UInt8 :=
  if n.mbufAddress = some a then n.data else []

lemma Entry.copied_packet (a : MbufAddr) (e : Entry) : e.packet.copied a = e.node.copied a := by
  simp [Entry.packet, PduGroup.packet, EnPduNode.group, OneGse.copied, EnPduNode.copied,
    EnPduNode.data]

def Entry.copied (a : MbufAddr) (e : Entry) : List UInt8 := e.node.copied a

section Chunks

variable {conf : AppConf} {m : RteMbuf} {part : List Entry}

lemma Chunks.freed_cases (h : Chunks conf m part) {xs ys : List Entry} (hpart : part = xs ++ ys) :
    xs.flatMap Entry.freed = [] ∨ ys = [] ∧ xs.flatMap Entry.freed = [m.addr] := by
  cases h with
  | whole t =>
    rcases List.append_eq_singleton_iff.mp hpart.symm with ⟨rfl, rfl⟩ | ⟨rfl, rfl⟩
    · exact .inl rfl
    · exact .inr ⟨rfl, rfl⟩
  | split k size =>
    rcases xs with _ | ⟨x, _ | ⟨x', xs⟩⟩
    · exact .inl rfl
    · obtain ⟨rfl, -⟩ := List.cons.inj hpart
      exact .inl rfl
    · simp only [List.cons_append, List.cons.injEq] at hpart
      obtain ⟨rfl, rfl, hnil⟩ := hpart
      obtain ⟨rfl, rfl⟩ := List.append_eq_nil_iff.mp hnil.symm
      exact .inr ⟨rfl, rfl⟩

lemma Chunks.freed (h : Chunks conf m part) : part.flatMap Entry.freed = [m.addr] := by
  cases h <;> rfl

lemma Chunks.copied (h : Chunks conf m part) : part.flatMap (Entry.copied m.addr) = m.bytes := by
  cases h with
  | whole t =>
    simp [Entry.copied, EnPduNode.copied, readEnapsulateBuffer, EnPduNode.data, Ptr.read,
      RteMbuf.bytes]
  | split k size hk h3 h8 =>
    have hsize : size + (m.dataLen - size) = m.dataLen := by omega
    simp only [List.flatMap_cons, List.flatMap_nil, List.append_nil, Entry.copied, startEntry,
      endEntry, EnPduNode.copied, startOf, endOf, readEnapsulateBuffer, EnPduNode.data, if_true]
    rw [RteMbuf.bytes, ← hsize, window_add]
    simp [Ptr.read]

lemma Chunks.copied_other (h : Chunks conf m part) {a : MbufAddr} (ha : a ≠ m.addr) {e : Entry}
    (he : e ∈ part) : e.copied a = [] := by
  have hne : ¬ some m.addr = some a := fun h => ha (Option.some.inj h).symm
  cases h with
  | whole t =>
    obtain rfl := List.mem_singleton.mp he
    simp [Entry.copied, EnPduNode.copied, readEnapsulateBuffer, ha.symm]
  | split k size =>
    simp only [List.mem_cons, List.not_mem_nil, or_false] at he
    rcases he with rfl | rfl <;>
      simp [Entry.copied, EnPduNode.copied, startEntry, endEntry, startOf, endOf,
        readEnapsulateBuffer, ha.symm]

end Chunks

section Sent

variable {conf : AppConf} {ms : List RteMbuf} {es : List Entry}

lemma Sent.freed (h : Sent conf ms es) : es.flatMap Entry.freed = ms.map RteMbuf.addr := by
  induction h with
  | nil => rfl
  | snoc _ _ hpart ih => simp [ih, hpart.freed]

lemma Sent.copied_none (h : Sent conf ms es) {a : MbufAddr} (ha : a ∉ ms.map RteMbuf.addr)
    {e : Entry} (he : e ∈ es) : e.copied a = [] := by
  induction h with
  | nil => simp at he
  | snoc _ _ hpart ih =>
    simp only [List.map_append, List.map_cons, List.map_nil, List.mem_append, List.mem_singleton,
      not_or] at ha
    rcases List.mem_append.mp he with he | he
    · exact ih ha.1 he
    · exact hpart.copied_other ha.2 he

lemma Sent.copied_of_freed (h : Sent conf ms es) (hd : (ms.map RteMbuf.addr).Nodup) {m : RteMbuf}
    (hm : m ∈ ms) {xs ys : List Entry} (hes : es = xs ++ ys)
    (hfreed : m.addr ∈ xs.flatMap Entry.freed) : xs.flatMap (Entry.copied m.addr) = m.bytes := by
  induction h generalizing xs ys with
  | nil => simp at hm
  | @snoc ms es m' part hsent _ hpart ih =>
    rw [List.map_append, List.nodup_append] at hd
    obtain ⟨hd, -, hdisj⟩ := hd
    have hnew : ∀ a ∈ ms.map RteMbuf.addr, a ≠ m'.addr := fun a ha => hdisj a ha _ (by simp)
    rcases List.append_eq_append_iff.mp hes with ⟨cs, rfl, hcs⟩ | ⟨cs, rfl, hcs⟩
    · -- the cut is within the packets of the last PDU
      rw [List.flatMap_append, List.mem_append, hsent.freed] at hfreed
      rw [List.flatMap_append]
      rcases List.mem_append.mp hm with hold | hlast
      · have hne := hnew _ (List.mem_map_of_mem hold)
        have hempty : cs.flatMap (Entry.copied m.addr) = [] :=
          List.flatMap_eq_nil_iff.mpr fun e he => hpart.copied_other hne (by simp [hcs, he])
        rw [hempty, List.append_nil]
        apply ih hd hold (List.append_nil es).symm
        rw [hsent.freed]
        exact List.mem_map_of_mem hold
      · obtain rfl := List.mem_singleton.mp hlast
        have hnot : m.addr ∉ ms.map RteMbuf.addr := fun h => hnew _ h rfl
        have hempty : es.flatMap (Entry.copied m.addr) = [] :=
          List.flatMap_eq_nil_iff.mpr fun e he => hsent.copied_none hnot he
        rcases hpart.freed_cases hcs with hnone | ⟨rfl, -⟩
        · rw [hnone] at hfreed
          simp [hnot] at hfreed
        · rw [List.append_nil] at hcs
          rw [hempty, List.nil_append, ← hcs]
          exact hpart.copied
    · -- the cut is before them
      have hin : m.addr ∈ ms.map RteMbuf.addr := by
        rw [← hsent.freed, List.flatMap_append]
        exact List.mem_append_left _ hfreed
      rcases List.mem_append.mp hm with hold | hlast
      · exact ih hd hold rfl hfreed
      · obtain rfl := List.mem_singleton.mp hlast
        exact absurd rfl (hnew _ hin)

end Sent

def Output.ringed (o : Output) : List MbufAddr := o.pool.ring.map fun x => x.2.addr

/-- After frames that give back `freed`: a buffer allocated for a frame is in the ring, unless its
enqueue failed. -/
structure Output.Accounts (env : SendEnv) (freed : List MbufAddr) (o : Output) : Prop where
  fault : o.fault = false
  freed_eq : o.pool.freed = freed
  ring_lt : ∀ a ∈ o.ringed, ∃ k < o.pool.allocs, a = .allocated k
  placed_iff : (∀ k < o.pool.allocs, env.allocates k = true → .allocated k ∈ o.ringed) ↔
    ∀ n < o.pool.enqueues, env.enqueues n = true

section Output

variable {env : SendEnv} {conf : AppConf} {freed : List MbufAddr} {o : Output}

lemma Output.accounts_fresh (env : SendEnv) : Output.Accounts env [] ⟨.fresh, false⟩ where
  fault := rfl
  freed_eq := rfl
  ring_lt := by simp [Output.ringed, Pool.fresh]
  placed_iff := by simp [Pool.fresh]

def Output.asked (fs : List MbufAddr) (o : Output) : Output :=
  { o with pool := { o.pool with freed := o.pool.freed ++ fs, allocs := o.pool.allocs + 1 } }

lemma Output.Accounts.refused (h : o.Accounts env freed) (fs : List MbufAddr)
    (halloc : env.allocates o.pool.allocs = false) : (o.asked fs).Accounts env (freed ++ fs) := by
  refine ⟨h.fault, by simp [Output.asked, h.freed_eq], ?_, ?_⟩
  · intro a ha
    obtain ⟨k, hk, heq⟩ := h.ring_lt a ha
    exact ⟨k, Nat.lt_succ_of_lt hk, heq⟩
  · refine Iff.trans ?_ h.placed_iff
    constructor
    · exact fun hall k hk => hall k (Nat.lt_succ_of_lt hk)
    · intro hall k hk hok
      rcases Nat.lt_succ_iff_lt_or_eq.mp hk with hk | rfl
      · exact hall k hk hok
      · simp [halloc] at hok

lemma Output.Accounts.enqueued (h : o.Accounts env freed) (fs : List MbufAddr) {m : RteMbuf}
    (hm : m.addr = .allocated o.pool.allocs) (halloc : env.allocates o.pool.allocs = true)
    (ringId : ℕ) : ((o.asked fs).enqueueSndBbRing env m ringId).Accounts env (freed ++ fs) := by
  have hring : ((o.asked fs).enqueueSndBbRing env m ringId).ringed =
      o.ringed ++ if env.enqueues o.pool.enqueues then [.allocated o.pool.allocs] else [] := by
    cases he : env.enqueues o.pool.enqueues <;>
      simp [Output.enqueueSndBbRing, Output.ringed, Output.asked, he, hm]
  have hnew : .allocated o.pool.allocs ∉ o.ringed := by
    intro hmem
    obtain ⟨k, hk, heq⟩ := h.ring_lt _ hmem
    injection heq with heq
    omega
  have hlast : .allocated o.pool.allocs ∈ ((o.asked fs).enqueueSndBbRing env m ringId).ringed ↔
      env.enqueues o.pool.enqueues = true := by
    rw [hring, List.mem_append, or_iff_right hnew]
    split_ifs with he <;> simp [he]
  have hold : ∀ k < o.pool.allocs,
      (.allocated k ∈ ((o.asked fs).enqueueSndBbRing env m ringId).ringed ↔
        .allocated k ∈ o.ringed) := by
    intro k hk
    have hne : MbufAddr.allocated k ≠ .allocated o.pool.allocs := by
      simpa using hk.ne
    rw [hring]
    split_ifs <;> simp [hne]
  refine ⟨h.fault, by simp [Output.enqueueSndBbRing, Output.asked, h.freed_eq], ?_, ?_⟩
  · intro a ha
    rw [hring, List.mem_append] at ha
    rcases ha with ha | ha
    · obtain ⟨k, hk, heq⟩ := h.ring_lt a ha
      exact ⟨k, Nat.lt_succ_of_lt hk, heq⟩
    · refine ⟨o.pool.allocs, Nat.lt_succ_self _, ?_⟩
      split_ifs at ha
      · exact List.mem_singleton.mp ha
      · simp at ha
  · change (∀ k < o.pool.allocs + 1, _) ↔ ∀ n < o.pool.enqueues + 1, _
    rw [Nat.forall_lt_succ_right, Nat.forall_lt_succ_right, ← h.placed_iff, hlast]
    refine and_congr (forall₂_congr fun k hk => ?_) (by simp [halloc])
    rw [hold k hk]

lemma Output.Accounts.frame (h : o.Accounts env freed) (hc : conf.Configured)
    (htype : conf.portToPktType = enumFwdTxFwdData) {frame : List Entry} {t : Sender}
    (ht : Sealed conf frame t) :
    (encapsulateFrame env conf t.gseGroup t.framePayload.maxPayload t.framePayload.usedPayload
      o).2.Accounts env (freed ++ frame.flatMap Entry.freed) := by
  rw [ht.output hc htype o]
  cases halloc : env.allocates o.pool.allocs with
  | false => exact h.refused _ halloc
  | true => exact h.enqueued _ rfl halloc _

lemma Output.Accounts.frames (h : o.Accounts env freed) (hc : conf.Configured)
    (htype : conf.portToPktType = enumFwdTxFwdData) {frames : List (List Entry)}
    {handed : List Sender} (hframes : List.Forall₂ (Sealed conf) frames handed) :
    (handed.foldl (fun o t => (encapsulateFrame env conf t.gseGroup t.framePayload.maxPayload
      t.framePayload.usedPayload o).2) o).Accounts env (freed ++ frames.flatten.flatMap Entry.freed) := by
  induction hframes generalizing o freed with
  | nil => simpa using h
  | cons hsealed _ ih =>
    have hnext := ih (h.frame hc htype hsealed)
    rwa [List.append_assoc, ← List.flatMap_append, ← List.flatten_cons] at hnext

end Output

namespace Journal

def pool (j : Journal) : Pool := j.loop.sender.output.pool

def copied (j : Journal) (a : MbufAddr) : List UInt8 :=
  j.handed.flatMap fun t => t.gseGroup.packets.flatMap (OneGse.copied a)

structure Distinct (j : Journal) : Prop where
  nodup : (j.taken.map RteMbuf.addr).Nodup
  received : ∀ m ∈ j.taken, ∃ n, m.addr = .received n

/-- Each PDU is given back once, after all its bytes are copied, and at the latest with the last
frame. -/
structure PdusConserved (env : SendEnv) (conf : AppConf) (j : Journal) : Prop where
  fault : j.loop.sender.output.fault = false
  once : j.pool.freed.Nodup
  copied : ∀ a ∈ j.pool.freed, ∃ m ∈ j.taken, m.addr = a ∧ j.copied a = m.bytes
  settled : j.loop.point ≠ .fragment → j.loop.sender.gseGroup.gseNum = 0 →
    j.loop.sender.fragments.fragmentIDQueue.queueSize = 0 → ∀ m ∈ j.taken, m.addr ∈ j.pool.freed
  flushed : j.loop.point = .whole → ∀ m ∈ j.taken, m.addr ∈ (j.next env conf .idle).pool.freed

def FramesConserved (env : SendEnv) (j : Journal) : Prop :=
  ∀ k < j.pool.allocs, env.allocates k = true →
    .allocated k ∈ j.loop.sender.output.ringed ∨ .allocated k ∈ j.pool.freed

lemma Stands.settled {conf : AppConf} {l : Loop} {rest : List Entry} (h : Stands conf l rest)
    (hp : l.point ≠ .fragment) (hg : l.sender.gseGroup.gseNum = 0)
    (hq : l.sender.fragments.fragmentIDQueue.queueSize = 0) : rest = [] := by
  cases h with
  | idle hclean => exact List.length_eq_zero_iff.mp (hclean.holds.num.symm.trans hg)
  | owing _ howing =>
    have hone := howing.draining.pending.queue.one
    rw [hq] at hone
    exact absurd hone (by norm_num)
  | fragment => exact absurd rfl hp
  | whole hclean => exact List.length_eq_zero_iff.mp (hclean.holds.num.symm.trans hg)

variable {env : SendEnv} {conf : AppConf} {j : Journal} {frames : List (List Entry)}
  {rest : List Entry}

lemma Follows.copied (h : Follows conf frames rest j) (a : MbufAddr) :
    j.copied a = frames.flatten.flatMap (Entry.copied a) := by
  obtain ⟨-, hframes, -⟩ := h
  rw [Journal.copied]
  generalize j.handed = handed at hframes ⊢
  induction hframes with
  | nil => rfl
  | @cons frame t _ _ hsealed _ ih =>
    have hpart : t.gseGroup.packets.flatMap (OneGse.copied a) = frame.flatMap (Entry.copied a) := by
      rw [hsealed.holds.packets, List.flatMap_map]
      exact List.flatMap_congr fun e _ => Entry.copied_packet a e
    rw [List.flatMap_cons, ih, hpart, List.flatten_cons, List.flatMap_append]

lemma Follows.freed (h : Follows conf frames rest j) :
    frames.flatten.flatMap Entry.freed ++ rest.flatMap Entry.freed = j.taken.map RteMbuf.addr := by
  rw [← List.flatMap_append, h.sent.freed]

lemma Reachable.accounts (hc : conf.Configured) (htype : conf.portToPktType = enumFwdTxFwdData)
    (hr : Reachable env conf j) (h : Follows conf frames rest j) :
    j.loop.sender.output.Accounts env (frames.flatten.flatMap Entry.freed) := by
  rw [hr.output]
  exact (Output.accounts_fresh env).frames hc htype h.frames_sealed

lemma Reachable.settled (hc : conf.Configured) (htype : conf.portToPktType = enumFwdTxFwdData)
    (hr : Reachable env conf j) (hp : j.loop.point ≠ .fragment)
    (hg : j.loop.sender.gseGroup.gseNum = 0)
    (hq : j.loop.sender.fragments.fragmentIDQueue.queueSize = 0) :
    j.pool.freed = j.taken.map RteMbuf.addr := by
  obtain ⟨frames, rest, h⟩ := hr.follows hc
  obtain rfl := h.stands.settled hp hg hq
  have hfreed := h.freed
  rw [List.flatMap_nil, List.append_nil] at hfreed
  rw [pool, (hr.accounts hc htype h).freed_eq, hfreed]

lemma forceSend_empties (env : SendEnv) (conf : AppConf) (s : Sender) :
    (s.forceSend env conf).gseGroup.gseNum = 0 ∧ (s.forceSend env conf).fragments = s.fragments := by
  simp only [Sender.forceSend]
  split_ifs with h
  · exact ⟨rfl, rfl⟩
  · exact ⟨by omega, rfl⟩

lemma Reachable.pdusConserved (hc : conf.Configured)
    (htype : conf.portToPktType = enumFwdTxFwdData) (hr : Reachable env conf j) (hd : j.Distinct) :
    j.PdusConserved env conf := by
  obtain ⟨frames, rest, h⟩ := hr.follows hc
  have haccounts := hr.accounts hc htype h
  have hfreed : j.pool.freed = frames.flatten.flatMap Entry.freed := haccounts.freed_eq
  have hsplit := h.freed
  refine ⟨haccounts.fault, ?_, ?_, ?_, ?_⟩
  · have hnodup := hd.nodup
    rw [← hsplit] at hnodup
    rw [hfreed]
    exact hnodup.of_append_left
  · intro a ha
    rw [hfreed] at ha
    have hmem : a ∈ j.taken.map RteMbuf.addr := by
      rw [← hsplit]
      exact List.mem_append_left _ ha
    obtain ⟨m, hm, rfl⟩ := List.mem_map.mp hmem
    refine ⟨m, hm, rfl, ?_⟩
    rw [h.copied]
    exact h.sent.copied_of_freed hd.nodup hm rfl ha
  · intro hp hg hq m hm
    rw [hr.settled hc htype hp hg hq]
    exact List.mem_map_of_mem hm
  · intro hp m hm
    obtain ⟨⟨point, s⟩, taken, handed⟩ := j
    subst hp
    have hnext : Reachable env conf (Journal.next env conf ⟨⟨.whole, s⟩, taken, handed⟩ .idle) :=
      hr.next (by simp) rfl
    have hidle : s.Idle conf := by
      cases h.stands with
      | whole hclean => exact hclean.idle
    obtain ⟨hnum, hfrag⟩ := forceSend_empties env conf s
    have hsettled := hnext.settled hc htype (by simp [Journal.next, Loop.next, Loop.call]) hnum
      (by rw [← hidle.drained.queue.empty, ← hfrag]; rfl)
    rw [hsettled]
    simpa [Journal.next, fetches] using ⟨m, hm, rfl⟩

lemma Reachable.framesConserved_iff (hc : conf.Configured)
    (htype : conf.portToPktType = enumFwdTxFwdData) (hr : Reachable env conf j) (hd : j.Distinct) :
    j.FramesConserved env ↔ ∀ n < j.pool.enqueues, env.enqueues n = true := by
  obtain ⟨frames, rest, h⟩ := hr.follows hc
  have haccounts := hr.accounts hc htype h
  have hnot : ∀ k, .allocated k ∉ j.pool.freed := by
    intro k hk
    rw [show j.pool.freed = _ from haccounts.freed_eq] at hk
    have hmem : .allocated k ∈ j.taken.map RteMbuf.addr := by
      rw [← h.freed]
      exact List.mem_append_left _ hk
    obtain ⟨m, hm, haddr⟩ := List.mem_map.mp hmem
    obtain ⟨n, hn⟩ := hd.received m hm
    simp [hn] at haddr
  rw [FramesConserved]
  simp only [hnot, or_false]
  exact haccounts.placed_iff

end Journal

/-- The PDUs are conserved in every run. The frames are exactly as long as every
`enqueue_snd_bb_ring` succeeds: `write_codeblock` drops its answer. -/
theorem send_buffers_conserved_iff (env : SendEnv) {conf : AppConf} (hc : conf.Configured)
    (htype : conf.portToPktType = enumFwdTxFwdData) {j : Journal} (h : j.Reachable env conf)
    (hd : j.Distinct) :
    j.PdusConserved env conf ∧
      (j.PdusConserved env conf ∧ j.FramesConserved env ↔
        ∀ n < j.pool.enqueues, env.enqueues n = true) := by
  have hpdus := h.pdusConserved hc htype hd
  rw [← h.framesConserved_iff hc htype hd]
  exact ⟨hpdus, and_iff_right hpdus⟩

/-- The loop after one PDU and `FAILED_FETCH_MODCOD`. -/
def flushedOne (env : SendEnv) : Journal :=
  [.idle, .pdu (zeroMbuf 100), .idle, .idle].foldl (Journal.next env sampleConf) .initial

lemma reachable_flushedOne (env : SendEnv) : (flushedOne env).Reachable env sampleConf := by
  have hm : Ordinary (zeroMbuf 100) := by constructor <;> decide
  have hturn : ∀ turn ∈ [Turn.idle, .pdu (zeroMbuf 100), .idle, .idle],
      ∀ m, turn = .pdu m → Ordinary m := by simpa using hm
  have hnext : ∀ j turn, Journal.step env sampleConf j turn =
      some (j.next env sampleConf turn, ()) := fun _ _ => rfl
  simp only [flushedOne, List.foldl_cons, List.foldl_nil]
  refine .next (.next (.next (.next .start ?_ (hnext _ _)) ?_ (hnext _ _)) ?_ (hnext _ _)) ?_
    (hnext _ _)
  all_goals exact hturn _ (by simp)

lemma distinct_flushedOne (env : SendEnv) : (flushedOne env).Distinct := by
  have hidle : ∀ j : Journal, j.fetches .idle = [] := by
    rintro ⟨⟨point, s⟩, taken, handed⟩
    cases point <;> rfl
  have hpdu : (Journal.initial.next env sampleConf .idle).fetches (.pdu (zeroMbuf 100)) =
      [zeroMbuf 100] := rfl
  have htaken : (flushedOne env).taken = [zeroMbuf 100] := by
    change ((([] ++ Journal.fetches _ _) ++ Journal.fetches _ _) ++ Journal.fetches _ _) ++
      Journal.fetches _ _ = _
    rw [hidle, hidle, hidle, hpdu]
    rfl
  constructor <;> simp [htaken, zeroMbuf]

theorem send_buffers_conserved_hundred :
    (flushedOne sampleEnv).PdusConserved sampleEnv sampleConf ∧
      (flushedOne sampleEnv).FramesConserved sampleEnv := by
  obtain ⟨hpdus, hiff⟩ := send_buffers_conserved_iff sampleEnv sampleConf_configured rfl
    (reachable_flushedOne sampleEnv) (distinct_flushedOne sampleEnv)
  exact ⟨hpdus, (hiff.mpr fun n _ => show sampleEnv.enqueues n = true from rfl).2⟩

/-- The frame whose enqueue fails is neither in the ring nor given back. -/
theorem send_buffer_leaked :
    let env : SendEnv := { sampleEnv with enqueues := fun _ => false }
    (flushedOne env).Reachable env sampleConf ∧ (flushedOne env).Distinct ∧
      ¬ (flushedOne env).FramesConserved env := by
  intro env
  refine ⟨reachable_flushedOne env, distinct_flushedOne env, ?_⟩
  have henq : (flushedOne { sampleEnv with enqueues := fun _ => false }).pool.enqueues = 1 := by
    decide +kernel
  rw [(reachable_flushedOne env).framesConserved_iff sampleConf_configured rfl
    (distinct_flushedOne env), henq]
  simp [env]

end Fengtai.Send
