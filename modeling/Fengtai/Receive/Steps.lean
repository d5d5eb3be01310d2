import Fengtai.Receive.Custody

set_option autoImplicit false

/-! The receiver one small step at a time: what holds of each of them holds of every state that
packets and timeouts lead to. -/

namespace Fengtai.Receive

open Library.Words Library.Runs Library.Custody

def Receiver.timeoutAt (tUs port fragID : ℕ) (r : Receiver) : Receiver :=
  let s := FragCell.timeout tUs (r.table port fragID, r.pool)
  { r with table := r.table.set port fragID s.1, pool := s.2 }

inductive RecvState.Micro (env : Dpdk) : RecvState → RecvState → Prop
  | hear (s : RecvState) (previous : PreviousMacInfo) :
      Micro env s ⟨{ s.receiver with previousMacInfo := previous }, s.received⟩
  | fragment (s : RecvState) {port fragID : ℕ} {a : Arrival} {t : FragCell × Pool} {o : Outcome}
      (h : reassemble env fragID (s.receiver.table port fragID, s.receiver.pool) a = some (t, o)) :
      Micro env s
        ⟨{ s.receiver with table := s.receiver.table.set port fragID t.1, pool := t.2 }, s.received⟩
  | single (s : RecvState) (mem : Memory) (ptr len protocolType : ℕ) :
      Micro env s ⟨{ s.receiver with
        pool := (getSinglePdu env mem ptr len protocolType s.receiver.pool).1 }, s.received⟩
  | frame (s : RecvState) {p : Pool} (hallocs : p.allocs = s.receiver.pool.allocs)
      (hset : p.settled = .received s.received ::ₘ s.receiver.pool.settled) :
      Micro env s ⟨{ s.receiver with pool := p }, s.received + 1⟩
  | timeout (s : RecvState) (tUs port fragID : ℕ) :
      Micro env s ⟨s.receiver.timeoutAt tUs port fragID, s.received⟩

namespace RecvState

abbrev Leads (env : Dpdk) : RecvState → RecvState → Prop := Relation.ReflTransGen (Micro env)

lemma Micro.keeps {P : Ledger MbufAddr Place → Prop} (hP : Rules P) (hforgets : Forgets P) {env : Dpdk}
    {s s' : RecvState} (hs : Micro env s s')
    (h : P (ledger env s.received s.receiver.table.held s.receiver.pool)) :
    P (ledger env s'.received s'.receiver.table.held s'.receiver.pool) := by
  cases hs with
  | hear => exact h
  | single => exact getSinglePdu_keeps hP h
  | frame hallocs hset => exact ledger_received hP hallocs hset h
  | fragment ht =>
    rcases reassemble_keeps hP ht (.inr hforgets) with rfl | ⟨hother, hkeeps⟩
    · exact Keeps.set (b := 0) (.same rfl) (fun _ _ => rfl) h
    · exact Keeps.set hkeeps hother h
  | timeout tUs port fragID =>
    obtain ⟨hother, hkeeps⟩ := timeout_keeps hP env tUs (s.receiver.table port fragID) s.receiver.pool
    exact Keeps.set hkeeps hother h

lemma Leads.keeps {P : Ledger MbufAddr Place → Prop} (hP : Rules P) (hforgets : Forgets P) {env : Dpdk}
    {s s' : RecvState} (hs : Leads env s s')
    (h : P (ledger env s.received s.receiver.table.held s.receiver.pool)) :
    P (ledger env s'.received s'.receiver.table.held s'.receiver.pool) := by
  induction hs with
  | refl => exact h
  | tail _ hmicro ih => exact hmicro.keeps hP hforgets ih

section Frame

variable {env : RecvEnv} {mem : Memory} {port n : ℕ} {now : ℕ → ℕ} {para : FrameParam}
  {r r' : Receiver} {s s' : RecvState} {w : GseWalk}

lemma handle_leads {p : Parsed} {tUs : ℕ} (hr : (p.handle env mem port tUs r).receiver = some r') :
    Leads env.toDpdk ⟨r, n⟩ ⟨r', n⟩ := by
  simp only [Parsed.handle] at hr
  split at hr
  · split_ifs at hr
    · split at hr
      · cases hr
      · obtain rfl := Option.some.inj hr
        exact .refl
    · obtain rfl := Option.some.inj hr
      exact .single (.single ⟨r, n⟩ mem p.ptrDatafield p.datafieldLength p.ext.nextType)
  · obtain ⟨⟨t, o⟩, ht, rfl⟩ := Option.map_eq_some_iff.mp hr
    exact .single (.fragment ⟨r, n⟩ ht)

lemma turn_leads (hr : w.receiver = some r) (hr' : (w.turn env mem port now).receiver = some r') :
    Leads env.toDpdk ⟨r, n⟩ ⟨r', n⟩ := by
  have hhear : Leads env.toDpdk ⟨r, n⟩ ⟨{ r with previousMacInfo := (w.filter env mem r).2 }, n⟩ :=
    .single (.hear ⟨r, n⟩ _)
  simp only [GseWalk.turn, hr] at hr'
  split_ifs at hr'
  · split at hr'
    · cases hr'
    · exact hhear.trans (handle_leads hr')
  · obtain rfl := Option.some.inj hr'
    exact hhear

lemma dispatchDecapPkt_settles {m : RteMbuf} {queueId : ℕ}
    (hr : dispatchDecapPkt env m queueId now para r = some r') (n : ℕ) :
    ∃ r₁ p, r' = { r₁ with pool := p } ∧ Leads env.toDpdk ⟨r, n⟩ ⟨r₁, n⟩ ∧ p.allocs = r₁.pool.allocs ∧
      p.settled = m.addr ::ₘ r₁.pool.settled := by
  simp only [dispatchDecapPkt] at hr
  obtain ⟨hret, hpool⟩ | ⟨hret, hpool, haddr, htype⟩ := processFrameHeader_cases m para r.pool
  · rw [if_pos hret, hpool] at hr
    obtain rfl := Option.some.inj hr
    exact ⟨r, _, rfl, .refl, rfl, settled_freed _ rfl rfl⟩
  · rw [if_neg (by simp [hret]), hpool] at hr
    split_ifs at hr with _ hrtn
    · obtain ⟨w, hw, hr⟩ := Option.bind_eq_some_iff.mp hr
      obtain ⟨r₁, hr₁, rfl⟩ := Option.map_eq_some_iff.mp hr
      have hwalk : Leads env.toDpdk ⟨r, n⟩ ⟨r₁, n⟩ := by
        refine GseWalk.run_keeps (fun r₁ => Leads env.toDpdk ⟨r, n⟩ ⟨r₁, n⟩) ?_ ?_ hw hr₁
        · intro r₀ hr₀
          obtain rfl := Option.some.inj hr₀
          exact .refl
        · intro v _ hlead r₂ hr₂
          cases hv : v.receiver with
          | none => simp [GseWalk.turn, hv] at hr₂
          | some r₀ => exact (hlead r₀ hv).trans (turn_leads hv hr₂)
      rw [haddr]
      exact ⟨r₁, _, rfl, hwalk, rfl, settled_freed _ rfl rfl⟩
    · obtain rfl := Option.some.inj hr
      refine ⟨r, _, rfl, .refl, Pool.enqueueEncapRing_allocs .., ?_⟩
      rw [settled_enqueued, haddr]
    · tauto

lemma dispatchDecapPkt_leads {m : RteMbuf} {queueId : ℕ} (hm : m.addr = .received n)
    (hr : dispatchDecapPkt env m queueId now para r = some r') :
    Leads env.toDpdk ⟨r, n⟩ ⟨r', n + 1⟩ := by
  obtain ⟨r₁, p, rfl, hleads, hallocs, hset⟩ := dispatchDecapPkt_settles hr n
  rw [hm] at hset
  exact hleads.tail (.frame ⟨r₁, n⟩ hallocs hset)

lemma fragmentTimeout_leads (env : Dpdk) (tUs : ℕ) (r : Receiver) (n : ℕ) :
    Leads env ⟨r, n⟩ ⟨fragmentTimeout tUs r, n⟩ := by
  simp only [fragmentTimeout]
  generalize List.product (List.range maxDeviceNum) (List.range maxFragId) = cells
  induction cells generalizing r with
  | nil => exact .refl
  | cons x cells ih => exact .head (.timeout ⟨r, n⟩ tUs x.1 x.2) (ih _)

lemma recvStep_leads {e : RecvEvent} {u : Unit} (hs : recvStep env s e = some (s', u)) :
    Leads env.toDpdk s s' := by
  cases e with
  | timeout tUs =>
    obtain ⟨rfl, -⟩ := Prod.mk.inj (Option.some.inj hs)
    exact fragmentTimeout_leads env.toDpdk tUs s.receiver s.received
  | packet data dataLen protocolType queueId now para =>
    obtain ⟨r, hr, hs⟩ := Option.map_eq_some_iff.mp hs
    obtain ⟨rfl, -⟩ := Prod.mk.inj hs
    exact dispatchDecapPkt_leads rfl hr

lemma reached_invariant {ok : RecvState → RecvEvent → Prop} (Inv : RecvState → Prop)
    (h₀ : Inv .initial) (hmicro : ∀ s s', Inv s → Micro env.toDpdk s s' → Inv s')
    (h : Reached (recvStep env) ok .initial s) : Inv s := by
  refine h.invariant Inv h₀ fun s e s' _ hs _ hstep => ?_
  have hleads := recvStep_leads hstep
  clear hstep
  induction hleads with
  | refl => exact hs
  | tail _ hmore ih => exact hmicro _ _ ih hmore

end Frame

end RecvState

end Fengtai.Receive
