import Fengtai.Receive.Timeout

set_option autoImplicit false

/-! What the decapsulating thread puts into the encap rings: the PDUs of frames go into ring 0. -/

namespace Fengtai.Receive

open Library.Words

/-- From `p` to `q` only ring 0 has got more. -/
def Pool.Feeds (p q : Pool) : Prop := ∃ new : List RteMbuf, q.ring = p.ring ++ new.map (Prod.mk 0)

namespace Pool.Feeds

variable {p q r : Pool}

lemma same (h : q.ring = p.ring) : p.Feeds q := ⟨[], by rw [h, List.map_nil, List.append_nil]⟩

lemma trans (h : p.Feeds q) (h' : q.Feeds r) : p.Feeds r := by
  obtain ⟨new, hq⟩ := h
  obtain ⟨more, hr⟩ := h'
  exact ⟨new ++ more, by rw [hr, hq, List.map_append, List.append_assoc]⟩

lemma enqueue (env : Dpdk) (p : Pool) (m : RteMbuf) : p.Feeds (p.enqueueEncapRing env m 0) := by
  rw [Pool.enqueueEncapRing]
  split_ifs
  · exact ⟨[m], rfl⟩
  · exact .same rfl

end Pool.Feeds

section Fragments

variable {env : Dpdk} {fragID : ℕ} {a : Arrival} {f : FragInfo} {c : FragCell} {p : Pool}

@[simp] lemma Pool.freeHeld_ring (p : Pool) (held : Option RteMbuf) : (p.freeHeld held).ring = p.ring := by
  cases held <;> rfl

lemma discardReceived_ring (stamp : ℕ) (f : FragInfo) (p : Pool) :
    (discardReceived stamp f p).2.ring = p.ring := by
  rw [discardReceived]
  split_ifs <;> simp

lemma start_ring {r : Received} (h : f.start env fragID a p = some r) : r.pool.ring = p.ring := by
  obtain ⟨g, q, hd, -, hr⟩ := FragInfo.start_cases h
  have hq : q.ring = p.ring := by
    have hdiscard := discardReceived_ring a.timeStamp f p
    rwa [hd] at hdiscard
  obtain ⟨-, rfl⟩ | ⟨-, -, rfl⟩ | ⟨-, -, rfl⟩ := hr
  · exact hq
  · exact hq
  · rw [FragInfo.settle_pool]
    exact hq

lemma keep_ring {r : Received} (h : f.keep fragID a p = some r) : r.pool.ring = p.ring := by
  obtain ⟨_, ⟨-, rfl⟩ | ⟨-, -, rfl⟩⟩ := FragInfo.keep_cases h
  · simp
  · rw [FragInfo.settle_pool]

lemma finish_feeds {d : Finished} (h : finishReassemblePdu env f p = some d) : p.Feeds d.pool := by
  obtain ⟨-, ⟨-, -, hp⟩ | ⟨m, -, ⟨-, hp⟩ | ⟨copied, crc, -, -, -, -, -, hp⟩⟩⟩ := finishReassemblePdu_cases h
  · rw [hp]
    exact .same rfl
  · rw [hp]
    exact .same rfl
  · rw [hp]
    exact .enqueue env p _

lemma reassemble_feeds {t : FragCell × Pool} {o : Outcome} (h : reassemble env fragID (c, p) a = some (t, o)) :
    p.Feeds t.2 := by
  obtain ⟨r, hr, hfin⟩ := Option.bind_eq_some_iff.mp h
  have hpool : p.Feeds r.pool := by
    obtain ⟨-, -, rfl⟩ | ⟨-, -, u, hu, rfl⟩ | ⟨-, u, hu, rfl⟩ := receiveFragment_cases hr
    · exact .same rfl
    · exact .same (start_ring hu)
    · exact .same (keep_ring hu)
  simp only [Reassembled.finish] at hfin
  split_ifs at hfin
  · obtain ⟨d, hd, hs⟩ := Option.map_eq_some_iff.mp hfin
    obtain ⟨rfl, -⟩ := Prod.mk.inj hs
    exact hpool.trans (finish_feeds hd)
  · obtain ⟨rfl, -⟩ := Prod.mk.inj (Option.some.inj hfin)
    exact hpool

end Fragments

section Frame

variable {env : RecvEnv} {mem : Memory} {port : ℕ} {now : ℕ → ℕ} {w : GseWalk} {r r' : Receiver}

lemma getSinglePdu_feeds (env : Dpdk) (mem : Memory) (ptr len protocolType : ℕ) (p : Pool) :
    p.Feeds (getSinglePdu env mem ptr len protocolType p).1 := by
  by_cases hctrl : protocolType = protocolCtrl
  · rw [getSinglePdu, if_pos hctrl]
    exact .same rfl
  · cases halloc : env.allocates p.allocs with
    | false =>
      simp only [getSinglePdu, if_neg hctrl, Pool.alloc, halloc, Bool.false_eq_true, if_false]
      exact .same rfl
    | true =>
      simp only [getSinglePdu, if_neg hctrl, Pool.alloc, halloc, if_true]
      split_ifs
      · exact .same rfl
      · exact Pool.Feeds.trans (.same rfl) (.enqueue env { p with allocs := p.allocs + 1 } _)

lemma handle_feeds {q : Parsed} {tUs : ℕ} (hr : (q.handle env mem port tUs r).receiver = some r') :
    r.pool.Feeds r'.pool := by
  simp only [Parsed.handle] at hr
  split at hr
  · split_ifs at hr
    · split at hr
      · cases hr
      · obtain rfl := Option.some.inj hr
        exact .same rfl
    · obtain rfl := Option.some.inj hr
      exact getSinglePdu_feeds env.toDpdk mem q.ptrDatafield q.datafieldLength q.ext.nextType r.pool
  · obtain ⟨⟨t, o⟩, ht, rfl⟩ := Option.map_eq_some_iff.mp hr
    exact reassemble_feeds ht

lemma turn_feeds (hr : w.receiver = some r) (hr' : (w.turn env mem port now).receiver = some r') :
    r.pool.Feeds r'.pool := by
  simp only [GseWalk.turn, hr] at hr'
  split_ifs at hr'
  · split at hr'
    · cases hr'
    · exact handle_feeds (r := { r with previousMacInfo := (w.filter env mem r).2 }) hr'
  · obtain rfl := Option.some.inj hr'
    exact .same rfl

lemma decapsulateGse_feeds {m : RteMbuf} {para : FrameParam} (h : decapsulateGse env m port now para r = some r') :
    r.pool.Feeds r'.pool := by
  obtain ⟨w, hw, hr⟩ := Option.bind_eq_some_iff.mp h
  obtain ⟨r₁, hr₁, rfl⟩ := Option.map_eq_some_iff.mp hr
  change r.pool.Feeds r₁.pool
  refine GseWalk.run_keeps (fun r₁ => r.pool.Feeds r₁.pool) ?_ ?_ hw hr₁
  · intro r₀ hr₀
    obtain rfl := Option.some.inj hr₀
    exact .same rfl
  · intro v _ hfeeds r₂ hr₂
    cases hv : v.receiver with
    | none => simp [GseWalk.turn, hv] at hr₂
    | some r₀ => exact (hfeeds r₀ hv).trans (turn_feeds hv hr₂)

end Frame

lemma timeoutAt_ring (tUs port fragID : ℕ) (r : Receiver) :
    (r.timeoutAt tUs port fragID).pool.ring = r.pool.ring := by
  simp only [Receiver.timeoutAt, FragCell.timeout]
  split_ifs <;> simp

lemma fragmentTimeout_ring (tUs : ℕ) (r : Receiver) : (fragmentTimeout tUs r).pool.ring = r.pool.ring := by
  rw [fragmentTimeout_eq]
  induction searched generalizing r with
  | nil => rfl
  | cons x cells ih => rw [List.foldl_cons, ih, timeoutAt_ring]

end Fengtai.Receive
