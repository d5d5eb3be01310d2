import Fengtai.Receive.Custody
import Fengtai.Send.Custody
import Fengtai.Send.Reception

set_option autoImplicit false

/-! Runs of the loop, and a receiver that takes their frames. -/

namespace Fengtai.Send

open Library.Words Library.Runs Receive Sender

section Sending

variable {env : SendEnv} {conf : AppConf}

def Sender.Turn.pdus : Turn → List RteMbuf
  | .pdu m => [m]
  | .idle => []

def pdusOf (turns : List Turn) : List RteMbuf := turns.flatMap Turn.pdus

namespace Journal

variable {j : Journal} {s : Sender}

lemma Reachable.fetch_next (h : Reachable env conf j) (hj : j.loop = ⟨.fetch, s⟩) :
    ∃ j', Reachable env conf j' ∧ j'.taken = j.taken ∧
      j'.loop = ⟨if (s.getFragPkt conf).1 then .fragment else .whole, (s.getFragPkt conf).2⟩ := by
  obtain ⟨loop, taken, handed⟩ := j
  subst hj
  exact ⟨_, h.next (i := .idle) (fun m hm => by simp at hm) rfl, List.append_nil taken, rfl⟩

lemma Reachable.fragment_next (h : Reachable env conf j) (hj : j.loop = ⟨.fragment, s⟩) :
    ∃ j', Reachable env conf j' ∧ j'.taken = j.taken ∧
      j'.loop = ⟨.fetch, s.encapsulateIslBb env conf .succeedFetchFragment⟩ := by
  obtain ⟨loop, taken, handed⟩ := j
  subst hj
  exact ⟨_, h.next (i := .idle) (fun m hm => by simp at hm) rfl, List.append_nil taken, rfl⟩

lemma Reachable.drain (h : Reachable env conf j) (hc : conf.Configured) (hj : j.loop = ⟨.fetch, s⟩) :
    ∃ j', Reachable env conf j' ∧ j'.taken = j.taken ∧
      j'.loop = ⟨.whole, s.drain env conf drainFuel⟩ := by
  have hfuel : drainFuel = 65534 + 1 + 1 := rfl
  obtain ⟨frames, rest, hf⟩ := h.follows hc
  obtain ⟨j₁, h₁, htaken₁, hj₁⟩ := h.fetch_next hj
  have hstands := hf.stands
  rw [hj] at hstands
  cases hstands with
  | idle hclean =>
    obtain ⟨-, hret⟩ := fetchPduFragment_drained conf .zero hclean.idle.drained
    have hfail : (s.getFragPkt conf).1 = false := decide_eq_false (not_le.mpr hret)
    refine ⟨j₁, h₁, htaken₁, ?_⟩
    rw [hj₁, hfuel, Sender.drain]
    simp only [hfail, Bool.false_eq_true, if_false]
  | @owing k _ _ _ hm howing =>
    have hget := howing.draining.getFragPkt
    rw [hget, if_pos rfl] at hj₁
    obtain ⟨j₂, h₂, htaken₂, hj₂⟩ := h₁.fragment_next hj₁
    obtain ⟨j₃, h₃, htaken₃, hj₃⟩ := h₂.fetch_next hj₂
    obtain ⟨_, hclean, -⟩ := howing.fragment env hc hm
    obtain ⟨-, hret⟩ := fetchPduFragment_drained conf .zero hclean.idle.drained
    have hfail : (((s.takeFragment (numberedID k)).encapsulateIslBb env conf
        .succeedFetchFragment).getFragPkt conf).1 = false := decide_eq_false (not_le.mpr hret)
    refine ⟨j₃, h₃, by rw [htaken₃, htaken₂, htaken₁], ?_⟩
    rw [hj₃, hfuel, Sender.drain]
    simp only [hget, if_true]
    rw [Sender.drain]
    simp only [hfail, Bool.false_eq_true, if_false]

lemma Reachable.turn (h : Reachable env conf j) (hc : conf.Configured) (hj : j.loop = ⟨.fetch, s⟩)
    {t : Turn} (ht : ∀ m, t = .pdu m → Ordinary m) :
    ∃ j', Reachable env conf j' ∧ j'.taken = j.taken ++ t.pdus ∧
      j'.loop = ⟨.fetch, s.turn env conf t⟩ := by
  obtain ⟨⟨loop, taken, handed⟩, h', htaken, rfl⟩ := h.drain hc hj
  rw [← htaken]
  cases t <;> exact ⟨_, h'.next ht rfl, rfl, rfl⟩

lemma Reachable.turns (h : Reachable env conf j) (hc : conf.Configured) (hj : j.loop = ⟨.fetch, s⟩)
    {turns : List Turn} (hturns : ∀ m, Turn.pdu m ∈ turns → Ordinary m) :
    ∃ j', Reachable env conf j' ∧ j'.taken = j.taken ++ pdusOf turns ∧
      j'.loop = ⟨.fetch, s.runTurns env conf turns⟩ := by
  induction turns generalizing j s with
  | nil => exact ⟨j, h, (List.append_nil _).symm, hj⟩
  | cons t ts ih =>
    obtain ⟨j₁, h₁, htaken₁, hj₁⟩ := h.turn hc hj (t := t) fun m hm => hturns m (by simp [hm])
    obtain ⟨j₂, h₂, htaken₂, hj₂⟩ := ih h₁ hj₁ fun m hm => hturns m (List.mem_cons_of_mem t hm)
    refine ⟨j₂, h₂, ?_, hj₂⟩
    rw [htaken₂, htaken₁, List.append_assoc]
    rfl

lemma Reachable.flushed (h : Reachable env conf j) (hc : conf.Configured) (hj : j.loop = ⟨.fetch, s⟩) :
    ∃ j' frames k, Reachable env conf j' ∧ j'.taken = j.taken ∧
      j'.loop = ⟨.fetch, s.turn env conf .idle⟩ ∧ FollowsAt conf frames [] k j' := by
  obtain ⟨⟨loop, taken, handed⟩, h', htaken, rfl⟩ := h.drain hc hj
  have hnext : Reachable env conf (Journal.next env conf _ .idle) :=
    h'.next (i := .idle) (fun m hm => by simp at hm) rfl
  obtain ⟨_, _, hf'⟩ := h'.follows hc
  obtain ⟨frames, rest, k, hf⟩ := hnext.followsAt hc
  have hidle : (s.drain env conf drainFuel).Idle conf := by
    cases hf'.stands with
    | whole hclean => exact hclean.idle
  obtain ⟨hnum, hfrag⟩ := forceSend_empties env conf (s.drain env conf drainFuel)
  obtain rfl := hf.follows.stands.settled (by simp [Journal.next, Loop.next, Loop.call]) hnum
    (by rw [← hidle.drained.queue.empty, ← hfrag]; rfl)
  exact ⟨_, frames, k, hnext, (List.append_nil taken).trans htaken, rfl, hf⟩

lemma runTurns_followedAt (env : SendEnv) (hc : conf.Configured) {turns : List Turn}
    (hturns : ∀ m, Turn.pdu m ∈ turns → Ordinary m) :
    ∃ j frames k, Reachable env conf j ∧ FollowsAt conf frames [] k j ∧ j.taken = pdusOf turns ∧
      j.loop.sender = Sender.initial.runTurns env conf (turns ++ [.idle]) := by
  obtain ⟨j₁, h₁, htaken₁, hj₁⟩ := Reachable.turns (show Reachable env conf .initial from .start) hc rfl hturns
  obtain ⟨j₂, frames, k, h₂, htaken₂, hj₂, hf⟩ := h₁.flushed hc hj₁
  refine ⟨j₂, frames, k, h₂, hf, htaken₂.trans htaken₁, ?_⟩
  rw [hj₂, runTurns, runTurns, List.foldl_append]
  rfl

lemma runTurns_followed (env : SendEnv) (hc : conf.Configured) {turns : List Turn}
    (hturns : ∀ m, Turn.pdu m ∈ turns → Ordinary m) :
    ∃ j frames, Reachable env conf j ∧ Follows conf frames [] j ∧ j.taken = pdusOf turns ∧
      j.loop.sender = Sender.initial.runTurns env conf (turns ++ [.idle]) := by
  obtain ⟨j, frames, k, h, hf, htaken, hj⟩ := runTurns_followedAt env hc hturns
  exact ⟨j, frames, h, hf.follows, htaken, hj⟩

end Journal

/-- `m` is the buffer `write_codeblock` fills with the packets of `frame`. -/
def CarriesFrame (conf : AppConf) (frame : List Entry) (m : RteMbuf) : Prop :=
  Filled conf frame ∧ ∃ macRev modcod, m.bytes = frameBuffer conf macRev modcod frame

lemma Sealed.filled {frame : List Entry} {t : Sender} (h : Sealed conf frame t) : Filled conf frame where
  nonempty := h.nonempty
  sized := h.holds.sized
  used_le := by
    have hsum := h.balanced.sum_eq
    rw [← h.holds.used]
    omega

lemma sealed_ring (hc : conf.Configured) (htype : conf.portToPktType = enumFwdTxFwdData)
    (halloc : ∀ i, env.allocates i = true) (henq : ∀ i, env.enqueues i = true)
    {frames : List (List Entry)} {handed : List Sender}
    (h : List.Forall₂ (Sealed conf) frames handed) (o : Output) :
    ∃ sent : List RteMbuf, (handed.foldl (fun o t => (encapsulateFrame env conf t.gseGroup
        t.framePayload.maxPayload t.framePayload.usedPayload o).2) o).pool.ring =
          o.pool.ring ++ sent.map (Prod.mk conf.mappingId) ∧
      List.Forall₂ (CarriesFrame conf) frames sent := by
  induction h generalizing o with
  | nil => exact ⟨[], (List.append_nil _).symm, .nil⟩
  | @cons frame t frames handed hsealed _ ih =>
    generalize hbuf : frameBuffer conf (env.macRev o.pool.allocs) t.gseGroup.modcod frame = buffer
    have hout := @Sealed.output env conf hc htype _ _ hsealed o
    simp only [hbuf, halloc, if_true] at hout
    obtain ⟨sent, hring, hsent⟩ := ih (encapsulateFrame env conf t.gseGroup t.framePayload.maxPayload
      t.framePayload.usedPayload o).2
    refine ⟨⟨.allocated o.pool.allocs, overwrite (env.room o.pool.allocs) buffer, buffer.length, 0⟩ ::
      sent, ?_, .cons ⟨hsealed.filled, env.macRev o.pool.allocs, t.gseGroup.modcod, ?_⟩ hsent⟩
    · rw [List.foldl_cons, hring, hout, List.map_cons, ← List.singleton_append, ← List.append_assoc]
      simp only [Output.enqueueSndBbRing, henq, if_true]
    · exact (holds_overwrite _ buffer).trans hbuf.symm

end Sending

lemma ToCome.singleton {conf : AppConf} {m : RteMbuf} {part : List Entry} (hm : Plain m)
    (hpart : Chunks conf m part) : ToCome conf [m] part := by
  have h := ToCome.cons hm hpart .nil
  rwa [List.append_nil] at h

lemma ToCome.append {conf : AppConf} {ms ms' : List RteMbuf} {es es' : List Entry}
    (h : ToCome conf ms es) (h' : ToCome conf ms' es') : ToCome conf (ms ++ ms') (es ++ es') := by
  induction h with
  | nil => exact h'
  | cons hm hpart _ ih =>
    rw [List.append_assoc]
    exact .cons hm hpart ih

lemma Sent.toCome {conf : AppConf} {ms : List RteMbuf} {es : List Entry} (h : Sent conf ms es)
    (hplain : ∀ m ∈ ms, Plain m) : ToCome conf ms es := by
  induction h with
  | nil => exact .nil
  | snoc _ _ hpart ih =>
    exact (ih fun m hm => hplain m (by simp [hm])).append (.singleton (hplain _ (by simp)) hpart)

lemma Awaits.append {conf : AppConf} {env : Dpdk} {port : ℕ} {ms ms' : List RteMbuf} {es es' : List Entry}
    {T : Table} (h : Awaits conf env port ms es T) (h' : ToCome conf ms' es') :
    Awaits conf env port (ms ++ ms') (es ++ es') T := by
  cases h with
  | between hto free => exact .between (hto.append h') free
  | within hms hm h3 h8 hto free lone =>
    subst hms
    exact .within rfl hm h3 h8 (hto.append h') free lone

section Receiving

variable {env : RecvEnv} {conf : AppConf} {queueId : ℕ}

def Brings (queueId : ℕ) (sent : RteMbuf) : RecvEvent → Prop
  | .packet data dataLen _ queue _ _ => queue = queueId ∧ window data 0 dataLen = sent.bytes
  | .timeout _ => False

lemma Awaits.run (hc : conf.Configured) (htype : conf.portToPktType = enumFwdTxFwdData)
    (halloc : ∀ i, env.allocates i = true) (henq : ∀ i, env.enqueues i = true)
    {frames : List (List Entry)} {sent : List RteMbuf} {events : List RecvEvent}
    (hsent : List.Forall₂ (CarriesFrame conf) frames sent)
    (hevents : List.Forall₂ (Brings queueId) sent events) {ms : List RteMbuf} {s : RecvState}
    (h : Awaits conf env.toDpdk queueId ms frames.flatten s.receiver.table) :
    ∃ s' os ms', Library.Runs.run (recvStep env) s events = some (s', os) ∧
      Awaits conf env.toDpdk queueId ms' [] s'.receiver.table ∧
      ringPdus s'.receiver.pool ++ ms'.map pduOf = ringPdus s.receiver.pool ++ ms.map pduOf := by
  induction hsent generalizing events ms s with
  | nil =>
    cases hevents
    exact ⟨s, [], ms, rfl, h, rfl⟩
  | @cons frame m frames sent hframe _ ih =>
    obtain ⟨hfilled, macRev, modcod, hbytes⟩ := hframe
    cases hevents with
    | @cons _ e _ events hbrings hevents =>
      cases e with
      | timeout tUs => exact absurd hbrings id
      | packet data dataLen protocolType queue now para =>
        obtain ⟨rfl, hdata⟩ := hbrings
        have hm : Holds data 0 (frameBuffer conf macRev modcod frame) := by
          rw [← hbytes, ← hdata]
          rw [Holds, window_length]
        obtain ⟨r, ms₁, hstep, hawait, hring⟩ := Awaits.frame now
          (m := ⟨.received s.received, data, dataLen, protocolType⟩) hc htype halloc henq hfilled h hm para
        obtain ⟨s', os, ms', hrun, hawait', hring'⟩ := ih (s := ⟨r, s.received + 1⟩) hevents hawait
        refine ⟨s', () :: os, ms', ?_, hawait', hring'.trans hring⟩
        rw [run_cons_eq_some]
        exact ⟨_, (), os, by rw [recvStep, hstep]; rfl, hrun, rfl⟩

lemma Awaits.finished {port : ℕ} {ms : List RteMbuf} {T : Table}
    (h : Awaits conf env.toDpdk port ms [] T) : ms = [] := by
  generalize hes : ([] : List Entry) = es at h
  cases h with
  | between hto =>
    cases hto with
    | nil => rfl
    | cons _ hpart => cases hpart <;> simp at hes
  | within => simp at hes

end Receiving

/-- A receiver that gets the frames of a run, as they were sent and in their order, puts the PDUs
of the run into its ring: as they were, and in their order. -/
theorem frames_round_trip {sendEnv : SendEnv} {recvEnv : RecvEnv} {conf : AppConf}
    (hc : conf.Configured) (htype : conf.portToPktType = enumFwdTxFwdData)
    (hsendAlloc : ∀ i, sendEnv.allocates i = true) (hsendEnq : ∀ i, sendEnv.enqueues i = true)
    (hrecvAlloc : ∀ i, recvEnv.allocates i = true) (hrecvEnq : ∀ i, recvEnv.enqueues i = true)
    {turns : List Turn} (hturns : ∀ m, Turn.pdu m ∈ turns → Plain m) {queueId : ℕ}
    {events : List RecvEvent}
    (hevents : List.Forall₂ (Brings queueId)
      ((Sender.initial.runTurns sendEnv conf (turns ++ [.idle])).output.pool.ring.map Prod.snd) events) :
    ∃ s os, run (recvStep recvEnv) .initial events = some (s, os) ∧
      ringPdus s.receiver.pool = (pdusOf turns).map pduOf := by
  obtain ⟨j, frames, hr, hf, htaken, hsender⟩ := Journal.runTurns_followed sendEnv hc
    fun m hm => (hturns m hm).ordinary
  obtain ⟨sent, hring, hsent⟩ := sealed_ring hc htype hsendAlloc hsendEnq hf.frames_sealed ⟨.fresh, false⟩
  rw [← hsender, hr.output, hring] at hevents
  have hring' : (Pool.fresh.ring ++ sent.map (Prod.mk conf.mappingId)).map Prod.snd = sent := by
    simp [Pool.fresh, Function.comp_def]
  rw [hring'] at hevents
  have hplain : ∀ m ∈ pdusOf turns, Plain m := by
    intro m hm
    obtain ⟨t, ht, hmt⟩ := List.mem_flatMap.mp hm
    cases t with
    | pdu m' =>
      obtain rfl := List.mem_singleton.mp hmt
      exact hturns m ht
    | idle => simp [Turn.pdus] at hmt
  have hto : ToCome conf (pdusOf turns) frames.flatten := by
    have hsent' := hf.sent
    rw [List.append_nil, htaken] at hsent'
    exact hsent'.toCome hplain
  obtain ⟨s, os, ms, hrun, hawait, hpdus⟩ := Awaits.run (s := .initial) hc htype hrecvAlloc hrecvEnq
    hsent hevents (.between hto fun id => FragCell.free_initial)
  refine ⟨s, os, hrun, ?_⟩
  rw [hawait.finished, List.map_nil, List.append_nil] at hpdus
  exact hpdus

def arrivals (ring : List (ℕ × RteMbuf)) : List RecvEvent :=
  ring.map fun x => .packet x.2.data x.2.dataLen 0 0 (fun _ => 0) ⟨0, 0, 0, 0, 0⟩

lemma brings_arrivals (ring : List (ℕ × RteMbuf)) :
    List.Forall₂ (Brings 0) (ring.map Prod.snd) (arrivals ring) := by
  induction ring with
  | nil => exact .nil
  | cons x ring ih => exact .cons ⟨rfl, rfl⟩ ih

def hundredTurns : List Turn := [.pdu (zeroMbuf 100), .idle, .pdu (zeroMbuf 1500), .pdu (zeroMbuf 1500)]

/-- The second PDU of 1500 bytes is fragmented. -/
theorem frames_round_trip_hundred :
    ∃ s os, run (recvStep sampleRecvEnv) .initial (arrivals (Sender.initial.runTurns sampleEnv sampleConf
        (hundredTurns ++ [.idle])).output.pool.ring) = some (s, os) ∧
      ringPdus s.receiver.pool = (pdusOf hundredTurns).map pduOf := by
  refine frames_round_trip sampleConf_configured rfl (fun _ => rfl) (fun _ => rfl) (fun _ => rfl)
    (fun _ => rfl) (fun m hm => ?_) (brings_arrivals _)
  simp only [hundredTurns, List.mem_cons, Turn.pdu.injEq, reduceCtorEq, List.not_mem_nil, or_false,
    false_or] at hm
  rcases hm with rfl | rfl | rfl <;> exact ⟨by constructor <;> decide, .inl rfl⟩

end Fengtai.Send
