import Fengtai.Gateway.Turns

set_option autoImplicit false

/-! How the threads of a gateway go round their rings. -/

namespace Fengtai

open Library Library.Words Receive Send Journal

namespace Gateway

/-- How many turns come before the one for ring `d` of `n`, from ring `p` on. -/
def roundDist (n d p : ℕ) : ℕ := if p ≤ d then d - p else n - p + 1 + d

lemma roundDist_next {n d p : ℕ} (hd : d < n) (hp : p ≠ d) : roundDist n d (nextRing n p) < roundDist n d p := by
  simp only [roundDist, nextRing]
  split_ifs <;> omega

lemma roundDist_clock {n d p : ℕ} (hd : d < n) (hp : p ≠ d) :
    roundDist n d (if p < n then p + 1 else 0) < roundDist n d p := by
  simp only [roundDist]
  split_ifs <;> omega

/-- How many turns the loop of mapping 1 takes before it looks for a PDU. -/
def turnsToWhole (conf : AppConf) (l : Loop) : ℕ :=
  match l.point with
  | .whole => 0
  | .fragment => 2
  | .fetch => if (l.sender.getFragPkt conf).1 then 3 else 1

lemma turnsToWhole_le (conf : AppConf) (l : Loop) : turnsToWhole conf l ≤ 3 := by
  obtain ⟨point, sender⟩ := l
  cases point with
  | fetch =>
    simp only [turnsToWhole]
    split_ifs <;> decide
  | fragment => exact Nat.le_succ 2
  | whole => exact Nat.zero_le 3

lemma turnsToWhole_clean {conf : AppConf} {k : ℕ} {frame : List Entry} {s : Sender} (h : Clean conf k frame s) :
    turnsToWhole conf ⟨.fetch, s⟩ = 1 := by
  obtain ⟨-, hret⟩ := fetchPduFragment_drained conf .zero h.idle.drained
  have hfail : (s.getFragPkt conf).1 = false := by simpa [Sender.getFragPkt] using hret
  simp only [turnsToWhole, hfail, Bool.false_eq_true, if_false]

lemma turnsToWhole_next {env : SendEnv} {conf : AppConf} (hc : conf.Configured) {l : Loop} {rest : List Entry}
    (h : Stands conf l rest) (hl : l.point ≠ .whole) :
    turnsToWhole conf (l.next env conf .idle) < turnsToWhole conf l := by
  cases h with
  | @idle _ _ s hclean =>
    obtain ⟨-, hret⟩ := fetchPduFragment_drained conf .zero hclean.idle.drained
    have hfail : (s.getFragPkt conf).1 = false := by simpa [Sender.getFragPkt] using hret
    have hpoint : (Loop.next env conf ⟨.fetch, s⟩ .idle).point = .whole := by
      simp only [Loop.next, Loop.call, hfail, Bool.false_eq_true, if_false]
    rw [turnsToWhole_clean hclean]
    simp only [turnsToWhole, hpoint]
    exact Nat.zero_lt_one
  | owing hm howing =>
    simp only [Loop.next, Loop.call, turnsToWhole, howing.draining.getFragPkt, if_true]
    decide
  | fragment hm howing =>
    obtain ⟨frame', hclean, -⟩ := howing.fragment env hc hm
    have hnext := turnsToWhole_clean hclean
    rw [Loop.next_fragment, hnext]
    exact Nat.lt_succ_self 1
  | whole => exact absurd rfl hl

/-- The thread looks into ring `encapRing`, and not for a fragment. -/
def Looks (g : Gateway) : Prop := g.encapRing = 1 → g.loop.point = .whole

/-- How many turns come before `encapsulate_thread` looks into ring `d`, or more. -/
def encapDist (conf : GatewayConf) (d : ℕ) (g : Gateway) : ℕ :=
  4 * roundDist conf.encapRingQueueNum d g.encapRing +
    if g.encapRing = 1 then turnsToWhole conf.mapping g.loop else 0

variable {conf : GatewayConf} {env : GatewayEnv} {g g' : Gateway}

lemma encapsulateMapping_fetching (hl : g.loop.point ≠ .whole) :
    g.encapsulateMapping conf env = { g with loop := g.loop.next env.send conf.mapping .idle } := by
  rw [encapsulateMapping, if_neg hl]

lemma encapsulateMapping_whole (hl : g.loop.point = .whole) :
    (g.encapsulateMapping conf env).encapRing = nextRing conf.encapRingQueueNum 1 ∧
      (g.encap.waiting 1 ≠ [] → (g.encapsulateMapping conf env).encapHead 1 = g.encapHead 1 + 1) := by
  rw [encapsulateMapping, if_pos hl]
  cases hdeq : g.encap.dequeue 1 with
  | none => exact ⟨rfl, fun hc => absurd (Rings.dequeue_eq_none.mp hdeq) hc⟩
  | some x =>
    obtain ⟨m, encap⟩ := x
    exact ⟨rfl, fun _ => (Rings.dequeue_takes hdeq).head⟩

lemma encapsulate_looks (h : g.encapsulate conf env = some g') (hl : g.Looks) :
    g'.encapRing = nextRing conf.encapRingQueueNum g.encapRing ∧
      (g.encap.waiting g.encapRing ≠ [] → g'.encapHead g.encapRing = g.encapHead g.encapRing + 1) := by
  obtain rfl := encapsulate_eq h
  split_ifs with hring
  · rw [hring]
    exact encapsulateMapping_whole (hl hring)
  · obtain ⟨r, o, more, head, count, heq, -, hhead⟩ := encapsulateOther_eq conf env g
    rw [heq]
    exact ⟨rfl, hhead⟩

lemma encapDist_next (h : g.encapsulate conf env = some g') (hc : conf.mapping.Configured) {rest : List Entry}
    (hstands : Stands conf.mapping g.loop rest) {d : ℕ} (hd : d < conf.encapRingQueueNum)
    (hgoal : ¬ (g.encapRing = d ∧ g.Looks)) : encapDist conf d g' < encapDist conf d g := by
  by_cases hl : g.Looks
  · obtain ⟨hring, -⟩ := encapsulate_looks h hl
    have hlt := roundDist_next hd fun hc => hgoal ⟨hc, hl⟩
    have hle := turnsToWhole_le conf.mapping g'.loop
    rw [encapDist, encapDist, hring]
    split_ifs <;> omega
  · rw [Looks, Classical.not_imp] at hl
    obtain ⟨hring, hpoint⟩ := hl
    obtain rfl := encapsulate_eq h
    rw [if_pos hring, encapsulateMapping_fetching hpoint, encapDist, encapDist]
    simp only [if_pos hring]
    exact Nat.add_lt_add_left (turnsToWhole_next hc hstands hpoint) _

/-- What only `encapsulate_thread` changes. -/
lemma step_encap_same {e : GatewayEvent} (h : g.step conf env e = some g') (he : e ≠ .encapsulate) :
    g'.encapRing = g.encapRing ∧ g'.loopCount = g.loopCount ∧
      ∃ o, g'.loop = { g.loop with sender.output := o } := by
  cases e with
  | arrive port data dataLen protocolType =>
    obtain rfl := Option.some.inj h
    simp only [receiveMsg]
    split_ifs <;> exact ⟨rfl, rfl, _, rfl⟩
  | decapsulate now para clock =>
    obtain ⟨head, r, rfl, -⟩ := decapsulate_eq h
    exact ⟨rfl, rfl, _, rfl⟩
  | encapsulate => exact absurd rfl he
  | send =>
    obtain rfl := Option.some.inj h
    obtain ⟨o, head, wire, heq, -⟩ := sendFrame_eq conf g
    rw [heq]
    exact ⟨rfl, rfl, _, rfl⟩

lemma step_decapRing {e : GatewayEvent} (h : g.step conf env e = some g')
    (he : ∀ now para clock, e ≠ .decapsulate now para clock) : g'.decapRing = g.decapRing := by
  cases e with
  | arrive port data dataLen protocolType =>
    obtain rfl := Option.some.inj h
    simp only [receiveMsg]
    split_ifs <;> rfl
  | decapsulate now para clock => exact absurd rfl (he now para clock)
  | encapsulate =>
    obtain rfl := encapsulate_eq h
    split_ifs
    · obtain ⟨head, i, loop, count, heq, -⟩ := encapsulateMapping_eq conf env g
      rw [heq]
    · obtain ⟨r, o, more, head, count, heq, -⟩ := encapsulateOther_eq conf env g
      rw [heq]
  | send =>
    obtain rfl := Option.some.inj h
    obtain ⟨o, head, wire, heq, -⟩ := sendFrame_eq conf g
    rw [heq]

lemma step_sndRing {e : GatewayEvent} (h : g.step conf env e = some g') (he : e ≠ .send) :
    g'.sndRing = g.sndRing := by
  cases e with
  | arrive port data dataLen protocolType =>
    obtain rfl := Option.some.inj h
    simp only [receiveMsg]
    split_ifs <;> rfl
  | decapsulate now para clock =>
    obtain ⟨head, r, rfl, -⟩ := decapsulate_eq h
    rfl
  | encapsulate =>
    obtain rfl := encapsulate_eq h
    split_ifs
    · obtain ⟨head, i, loop, count, heq, -⟩ := encapsulateMapping_eq conf env g
      rw [heq]
    · obtain ⟨r, o, more, head, count, heq, -⟩ := encapsulateOther_eq conf env g
      rw [heq]
  | send => exact absurd rfl he

lemma step_patience {e : GatewayEvent} (h : g.step conf env e = some g')
    (he : ¬ (e = .encapsulate ∧ g.encapRing = 1 ∧ g.loop.point = .whole)) : g'.loopCount 1 = g.loopCount 1 := by
  by_cases hevent : e = .encapsulate
  · subst hevent
    obtain rfl := encapsulate_eq h
    split_ifs with hring
    · rw [encapsulateMapping_fetching fun hpoint => he ⟨rfl, hring, hpoint⟩]
    · obtain ⟨r, o, more, head, count, heq, -⟩ := encapsulateOther_eq conf env g
      rw [heq]
      exact Function.update_of_ne (Ne.symm hring) _ _
  · rw [(step_encap_same h hevent).2.1]

lemma step_encapDist {e : GatewayEvent} (h : g.step conf env e = some g') (he : e ≠ .encapsulate) (d : ℕ) :
    encapDist conf d g' = encapDist conf d g := by
  obtain ⟨hring, -, o, hloop⟩ := step_encap_same h he
  rw [encapDist, encapDist, hring, hloop]
  rfl

end Gateway

end Fengtai
