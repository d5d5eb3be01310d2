import Fengtai.Gateway.Threads
import Fengtai.Send.RoundTrip

set_option autoImplicit false

/-! The sending half of a gateway: from ring 1 to the frames on port 0. -/

namespace Fengtai

open Library Library.Words Receive Send Journal

namespace Send

section Output

variable {conf : AppConf} {s : Sender} (o : Output)

lemma Clean.withOutput {k : ℕ} {frame : List Entry} (h : Clean conf k frame s) :
    Clean conf k frame { s with output := o } :=
  ⟨⟨h.idle.group, h.idle.drained, h.idle.payload⟩, h.counted, h.last,
    ⟨h.holds.packets, h.holds.num, h.holds.used, h.holds.sized⟩, h.modest⟩

lemma Owing.withOutput {k size : ℕ} {m : RteMbuf} (h : Owing conf k m size s) :
    Owing conf k m size { s with output := o } :=
  ⟨⟨h.draining.group, h.draining.pending, h.draining.middle, h.draining.last, h.draining.mac,
    h.draining.modcod, h.draining.begun, h.draining.payload⟩, h.left, h.fetched, h.counted, h.last, h.pos,
    h.payload, ⟨h.holds.packets, h.holds.num, h.holds.used, h.holds.sized⟩, h.size_ge, h.size_le⟩

lemma Journal.Stands.withOutput {point : Point} {rest : List Entry} (h : Stands conf ⟨point, s⟩ rest) :
    Stands conf ⟨point, { s with output := o }⟩ rest := by
  cases h with
  | idle h => exact .idle (h.withOutput o)
  | owing hm h => exact .owing hm (h.withOutput o)
  | fragment hm h => exact .fragment hm (h.withOutput o)
  | whole h => exact .whole (h.withOutput o)

lemma Journal.Stands.skip {l : Loop} {rest : List Entry} (h : Stands conf l rest) (hl : l.point = .whole) :
    Stands conf ⟨.fetch, l.sender⟩ rest := by
  cases h with
  | idle h => exact .idle h
  | owing hm h => exact .owing hm h
  | fragment hm h => cases hl
  | whole h => exact .idle h

end Output

lemma Journal.Stands.sent_all {env : SendEnv} {conf : AppConf} {l : Loop} {rest rest' : List Entry}
    (h : Stands conf l rest) (hl : l.point = .whole) (h' : Stands conf (l.next env conf .idle) rest') :
    rest' = [] := by
  cases h with
  | idle => cases hl
  | owing => cases hl
  | fragment => cases hl
  | @whole _ _ s hclean =>
    obtain ⟨hnum, hfrag⟩ := forceSend_empties env conf s
    apply h'.settled (by simp [Loop.next, Loop.call]) hnum
    rw [← hclean.idle.drained.queue.empty, ← hfrag]
    rfl

lemma sealed_fault {env : SendEnv} {conf : AppConf} (hc : conf.Configured)
    (htype : conf.portToPktType = enumFwdTxFwdData) {frames : List (List Entry)} {handed : List Sender}
    (h : List.Forall₂ (Sealed conf) frames handed) (o : Output) :
    (handed.foldl (fun o t => (encapsulateFrame env conf t.gseGroup t.framePayload.maxPayload
      t.framePayload.usedPayload o).2) o).fault = o.fault := by
  induction h generalizing o with
  | nil => rfl
  | cons hsealed _ ih =>
    have hout := @Sealed.output env conf hc htype _ _ hsealed o
    simp only at hout
    rw [List.foldl_cons, ih, hout]
    split_ifs <;> rfl

end Send

namespace Gateway

/-- The frames sent hold the packets of `frames`, and `rest` is to follow. -/
structure Sending (conf : AppConf) (frames : List (List Entry)) (rest : List Entry) (g : Gateway) :
    Prop where
  stands : Stands conf g.loop rest
  sent : Sent conf (g.encap.taken 1) (frames.flatten ++ rest)
  carried : ∃ sent, g.loop.sender.output.pool.ring = sent.map (Prod.mk 1) ∧
    List.Forall₂ (CarriesFrame conf) frames sent
  fault : g.loop.sender.output.fault = false
  sound : g.snd.Sound
  wire : g.wire = (g.snd.taken 1).map RteMbuf.bytes

/-- The parameters of mapping 1, and a packet library that has always room. -/
structure Serves (conf : GatewayConf) (env : GatewayEnv) : Prop where
  configured : conf.mapping.Configured
  packType : conf.mapping.portToPktType = enumFwdTxFwdData
  mappingId : conf.mapping.mappingId = 1
  sendAllocates : ∀ i, env.send.allocates i = true
  sendEnqueues : ∀ i, env.send.enqueues i = true
  recvAllocates : ∀ i, env.recv.allocates i = true
  recvEnqueues : ∀ i, env.recv.enqueues i = true
  rcvEnqueues : ∀ i, env.rcvEnqueues i = true

variable {conf : GatewayConf} {env : GatewayEnv} {frames : List (List Entry)} {rest : List Entry}
  {g : Gateway}

lemma sending_initial (conf : AppConf) : initial.Sending conf [] [] where
  stands := .idle (clean_initial conf)
  sent := .nil
  carried := ⟨[], rfl, .nil⟩
  fault := rfl
  sound := Rings.sound_empty
  wire := rfl

lemma Sending.loop (h : g.Sending conf.mapping frames rest) (hs : Serves conf env) (turn : Sender.Turn)
    (hturn : ∀ m, turn = .pdu m → Ordinary m) (g' : Gateway)
    (hloop : g'.loop = g.loop.next env.send conf.mapping turn) (hhead : g'.sndHead = g.sndHead)
    (hwire : g'.wire = g.wire)
    (htaken : g'.encap.taken 1 = g.encap.taken 1 ++ (Journal.mk g.loop [] []).fetches turn) :
    ∃ new part rest', g'.Sending conf.mapping (frames ++ new) rest' ∧
      Sent conf.mapping ((Journal.mk g.loop [] []).fetches turn) part ∧
      new.flatten ++ rest' = rest ++ part ∧ (new = [] ∨ rest <+: new.flatten) := by
  obtain ⟨new, part, rest', hnew, hpart, hstands, hflat, hfull⟩ :=
    Stands.next env.send (j := ⟨g.loop, [], []⟩) h.stands hs.configured hturn
  have houtput := Journal.next_output env.send conf.mapping ⟨g.loop, [], []⟩ turn
  simp only at houtput hstands
  rw [← hloop] at houtput hstands
  obtain ⟨more, hring, hmore⟩ := @sealed_ring env.send _ hs.configured hs.packType
    hs.sendAllocates hs.sendEnqueues _ _ hnew g.loop.sender.output
  rw [← houtput, hs.mappingId] at hring
  have hfault := @sealed_fault env.send _ hs.configured hs.packType _ _ hnew g.loop.sender.output
  rw [← houtput] at hfault
  obtain ⟨sent, hsent, hcarried⟩ := h.carried
  have hsnd : g'.snd = ⟨g.snd.log ++ more.map (Prod.mk 1), g.snd.head⟩ := by
    rw [snd, hring, hhead]
    rfl
  refine ⟨new, part, rest', ⟨hstands, ?_, ⟨sent ++ more, ?_, List.rel_append hcarried hmore⟩,
    hfault.trans h.fault, ?_, ?_⟩, hpart, hflat, hfull⟩
  · have happend := h.sent.append hpart
    rwa [List.append_assoc, ← hflat, ← List.append_assoc, ← List.flatten_append, ← htaken] at happend
  · rw [hring, hsent, List.map_append]
  · rw [hsnd]
    exact h.sound.append _
  · rw [hsnd, h.sound.taken_append, hwire, h.wire]

lemma Sending.congr (h : g.Sending conf.mapping frames rest) {g' : Gateway} (hloop : g'.loop = g.loop)
    (hhead : g'.sndHead = g.sndHead) (hwire : g'.wire = g.wire)
    (htaken : g'.encap.taken 1 = g.encap.taken 1) : g'.Sending conf.mapping frames rest := by
  have hsnd : g'.snd = g.snd := by rw [snd, snd, hloop, hhead]
  refine ⟨?_, ?_, ?_, ?_, ?_, ?_⟩
  · rw [hloop]
    exact h.stands
  · rw [htaken]
    exact h.sent
  · rw [hloop]
    exact h.carried
  · rw [hloop]
    exact h.fault
  · rw [hsnd]
    exact h.sound
  · rw [hsnd, hwire]
    exact h.wire

lemma fetches_idle (l : Loop) : (Journal.mk l [] []).fetches .idle = [] := by
  obtain ⟨point, sender⟩ := l
  cases point <;> rfl

/-- For how many more turns an empty ring is looked into before what there is is sent. -/
def patience (count : ℕ) : ℕ := (355 - count % 256) % 256

lemma countLoop_patience (count : ℕ) :
    (countLoop count).2 = true ∨ patience (countLoop count).1 < patience count := by
  by_cases h : u8 (count + 1) = 100
  · left
    rw [countLoop, if_pos h]
  · right
    rw [countLoop, if_neg h]
    simp only [patience, u8] at h ⊢
    omega

lemma Sending.mapping (h : g.Sending conf.mapping frames rest) (hs : Serves conf env)
    (hplain : ∀ m ∈ g.encap.ring 1, Ordinary m) :
    ∃ new part rest' fetched, (g.encapsulateMapping conf env).Sending conf.mapping (frames ++ new) rest' ∧
      Sent conf.mapping fetched part ∧ new.flatten ++ rest' = rest ++ part ∧ (new = [] ∨ rest <+: new.flatten) ∧
      (g.encapsulateMapping conf env).encap.taken 1 = g.encap.taken 1 ++ fetched ∧
      (g.loop.point = .whole → fetched ≠ [] ∨ rest' = [] ∨
        patience ((g.encapsulateMapping conf env).loopCount 1) < patience (g.loopCount 1)) := by
  have hidle (m : RteMbuf) (hm : Sender.Turn.idle = .pdu m) : Ordinary m := by cases hm
  have hnone : g.encap.taken 1 = g.encap.taken 1 ++ (Journal.mk g.loop [] []).fetches .idle := by
    rw [fetches_idle, List.append_nil]
  rw [encapsulateMapping]
  split_ifs with hpoint
  · cases hdeq : g.encap.dequeue 1 with
    | some x =>
      obtain ⟨m, encap⟩ := x
      have htakes := Rings.dequeue_takes hdeq
      have hm : Ordinary m := by
        apply hplain
        rw [← Rings.taken_append_waiting, htakes.waiting]
        simp
      have hfetches : (Journal.mk g.loop [] []).fetches (.pdu m) = [m] := by
        simp [Journal.fetches, hpoint]
      have hencap : encap.taken 1 = g.encap.taken 1 ++ [m] := htakes.taken
      have hlog : encap = ⟨g.receiver.pool.ring, encap.head⟩ := by
        rw [show g.receiver.pool.ring = encap.log from htakes.log.symm]
      rw [hlog] at hencap
      obtain ⟨new, part, rest', hsending, hpart, hflat, hfull⟩ := h.loop hs (.pdu m)
        (fun m' hm' => by obtain rfl := Sender.Turn.pdu.inj hm'; exact hm)
        { g with
          encapHead := encap.head
          loop := g.loop.next env.send conf.mapping (.pdu m)
          loopCount := Function.update g.loopCount 1 0
          encapRing := nextRing conf.encapRingQueueNum 1 } rfl rfl rfl (by rw [hfetches]; exact hencap)
      exact ⟨new, part, rest', [m], hsending, hfetches ▸ hpart, hflat, hfull, hencap,
        fun _ => .inl (List.cons_ne_nil m [])⟩
    | none =>
      simp only
      split_ifs with hcount
      · obtain ⟨new, part, rest', hsending, hpart, hflat, hfull⟩ := h.loop hs .idle hidle
          { g with
            loop := g.loop.next env.send conf.mapping .idle
            loopCount := Function.update g.loopCount 1 (countLoop (g.loopCount 1)).1
            encapRing := nextRing conf.encapRingQueueNum 1 } rfl rfl rfl hnone
        exact ⟨new, part, rest', _, hsending, hpart, hflat, hfull, hnone, fun _ =>
          .inr (.inl (h.stands.sent_all hpoint hsending.stands))⟩
      · -- nothing has come, and it is not time to send what there is
        refine ⟨[], [], rest, [], ?_, .nil, (List.append_nil rest).symm, .inl rfl,
          (List.append_nil _).symm, fun _ => .inr (.inr ?_)⟩
        · rw [List.append_nil]
          exact ⟨h.stands.skip hpoint, h.sent, h.carried, h.fault, h.sound, h.wire⟩
        · rw [Function.update_self]
          exact (countLoop_patience _).resolve_left hcount
  · obtain ⟨new, part, rest', hsending, hpart, hflat, hfull⟩ := h.loop hs .idle hidle
      { g with loop := g.loop.next env.send conf.mapping .idle } rfl rfl rfl hnone
    exact ⟨new, part, rest', _, hsending, hpart, hflat, hfull, hnone, fun hc => absurd hc hpoint⟩

lemma encapsulateMapping_eq (conf : GatewayConf) (env : GatewayEnv) (g : Gateway) :
    ∃ head i loop count, g.encapsulateMapping conf env =
        { g with encapHead := head, encapRing := i, loop := loop, loopCount := count } ∧
      (∀ j, j ≠ 1 → head j = g.encapHead j) ∧
      (g.encap.Sound → (⟨g.receiver.pool.ring, head⟩ : Rings RteMbuf).Sound) ∧
      (∀ j, g.encapHead j ≤ head j) := by
  rw [encapsulateMapping]
  split_ifs
  · cases hdeq : g.encap.dequeue 1 with
    | some x =>
      obtain ⟨m, encap⟩ := x
      have htakes := Rings.dequeue_takes hdeq
      refine ⟨encap.head, _, _, _, rfl, htakes.other, fun hsound => ?_, htakes.head_le⟩
      have hencap := htakes.sound hsound
      rwa [show encap = ⟨encap.log, encap.head⟩ from rfl, htakes.log] at hencap
    | none => exact ⟨g.encapHead, _, _, _, rfl, fun _ _ => rfl, id, fun _ => le_rfl⟩
  · exact ⟨g.encapHead, _, _, _, rfl, fun _ _ => rfl, id, fun _ => le_rfl⟩

lemma Sending.sendFrame (h : g.Sending conf.mapping frames rest) :
    (g.sendFrame conf).Sending conf.mapping frames rest := by
  obtain ⟨sent, hring, hcarried⟩ := h.carried
  rw [Gateway.sendFrame]
  cases hdeq : g.snd.dequeue g.sndRing with
  | none => exact h.congr rfl rfl rfl rfl
  | some x =>
    obtain ⟨m, snd⟩ := x
    have htakes := Rings.dequeue_takes hdeq
    have hone : g.sndRing = 1 := by
      have hmem := htakes.mem
      change (g.sndRing, m) ∈ g.loop.sender.output.pool.ring at hmem
      rw [hring, List.mem_map] at hmem
      obtain ⟨_, _, hpair⟩ := hmem
      exact (Prod.mk.inj hpair).1.symm
    have hsnd : (⟨g.loop.sender.output.pool.ring, snd.head⟩ : Rings RteMbuf) = snd := by
      rw [show g.loop.sender.output.pool.ring = snd.log from htakes.log.symm]
    refine ⟨h.stands.withOutput _, h.sent, ⟨sent, hring, hcarried⟩, h.fault, ?_, ?_⟩
    · change (⟨g.loop.sender.output.pool.ring, snd.head⟩ : Rings RteMbuf).Sound
      rw [hsnd]
      exact htakes.sound h.sound
    · change g.wire ++ [m.bytes] =
        (Rings.taken (⟨g.loop.sender.output.pool.ring, snd.head⟩ : Rings RteMbuf) 1).map RteMbuf.bytes
      have htaken := htakes.taken
      rw [hone] at htaken
      rw [hsnd, htaken, h.wire, List.map_append]
      rfl

lemma sendFrame_eq (conf : GatewayConf) (g : Gateway) :
    ∃ o head wire, g.sendFrame conf = { g with
        loop.sender.output := o
        sndHead := head
        sndRing := nextRing conf.encapRingQueueNum g.sndRing
        wire := g.wire ++ wire } ∧
      (∀ i, g.sndHead i ≤ head i) ∧
      (g.snd.waiting g.sndRing ≠ [] → head g.sndRing = g.sndHead g.sndRing + 1) := by
  rw [Gateway.sendFrame]
  cases hdeq : g.snd.dequeue g.sndRing with
  | none =>
    exact ⟨g.loop.sender.output, g.sndHead, [], by rw [List.append_nil], fun _ => le_rfl,
      fun hc => absurd (Rings.dequeue_eq_none.mp hdeq) hc⟩
  | some x =>
    obtain ⟨m, snd⟩ := x
    have htakes := Rings.dequeue_takes hdeq
    exact ⟨_, _, _, rfl, htakes.head_le, fun _ => htakes.head⟩

end Gateway

end Fengtai
