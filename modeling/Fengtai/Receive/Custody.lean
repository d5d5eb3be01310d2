import Fengtai.Library.Custody
import Fengtai.Receive.Containment

set_option autoImplicit false

/-! Where the packet buffers of the receiver are: given back, in an encap ring, or behind a
`ptr_pdu`. -/

namespace Fengtai.Receive

open Library.Words Library.Runs Library.Custody Crc

/-- The buffer behind `ptr_pdu`. -/
def FragInfo.heldAddr (f : FragInfo) : Option MbufAddr := f.pduNode.ptrPdu.map RteMbuf.addr

/-- A `FRAG_INFO` by its port, its fragment ID and its buffer index. -/
abbrev Place := ℕ × ℕ × Fin fragBufferNum

def Table.held (T : Table) (x : Place) : Option MbufAddr := ((T x.1 x.2.1).info x.2.2).heldAddr

def Pool.ringAddrs (p : Pool) : List MbufAddr := p.ring.map fun x => x.2.addr

def known (env : Dpdk) (received : ℕ) (p : Pool) : Set MbufAddr
  | .received n => n < received
  | .allocated n => n < p.allocs ∧ env.allocates n = true

/-- A buffer has been freed once, or is once in a ring, or is behind one `ptr_pdu`. -/
def Receiver.InOnePlace (r : Receiver) (a : MbufAddr) : Prop :=
  (r.pool.freed.count a = 1 ∧ a ∉ r.pool.ringAddrs ∧ ∀ x, r.table.held x ≠ some a) ∨
  (a ∉ r.pool.freed ∧ r.pool.ringAddrs.count a = 1 ∧ ∀ x, r.table.held x ≠ some a) ∨
  (a ∉ r.pool.freed ∧ a ∉ r.pool.ringAddrs ∧ ∃! x, r.table.held x = some a)

/-- What a START does to a buffer it finds behind `ptr_pdu`: one of the two tests of
`start_reassemble_pdu` drops it. -/
def FragInfo.Drops (stamp : ℕ) (f : FragInfo) : Prop :=
  0 < f.fragRecvNum ∧ (stamp ≠ f.timeStamp ∨ 0 < f.fragLen 0)

/-- No START that gets a new buffer writes it over another one. -/
def FragCell.Spares (env : Dpdk) (p : Pool) (a : Arrival) (c : FragCell) : Prop :=
  a.fragType = .start → a.fragSeq = 0 →
    let f := c.info (c.select a.timeStamp).1
    f.pduNode.ptrPdu = none ∨ f.Drops a.timeStamp ∨ env.allocates p.allocs = false

def GseWalk.Spares (env : RecvEnv) (mem : Memory) (port : ℕ) (now : ℕ → ℕ) (w : GseWalk) : Prop :=
  ∀ r p kind, w.receiver = some r → (w.filter env mem r).1 = 1 →
    parsePacket mem w.pGSE w.timestampSeq = some p → p.fragType = some kind →
    (r.table port p.varHeader.fragmentID).Spares env.toDpdk r.pool (p.arrival mem (now w.pGSE) kind)

section Ledger

variable {env : Dpdk} {n : ℕ} {p q : Pool} {f g : FragInfo}

def Pool.settled (p : Pool) : Multiset MbufAddr := ↑(p.freed ++ p.ringAddrs)

def ledger (env : Dpdk) (n : ℕ) (held : Place → Option MbufAddr) (p : Pool) :
    Ledger MbufAddr Place := ⟨known env n p, held, p.settled⟩

@[simp] lemma received_mem_known {k : ℕ} : .received k ∈ known env n p ↔ k < n := Iff.rfl

@[simp] lemma allocated_mem_known {k : ℕ} :
    .allocated k ∈ known env n p ↔ k < p.allocs ∧ env.allocates k = true := Iff.rfl

lemma known_congr (h : q.allocs = p.allocs) : known env n q = known env n p := by
  ext a
  cases a with
  | received k => simp
  | allocated k => simp [h]

lemma known_received (p : Pool) : known env (n + 1) p = insert (.received n) (known env n p) := by
  ext a
  cases a with
  | received k =>
    simp only [received_mem_known, Set.mem_insert_iff, MbufAddr.received.injEq]
    omega
  | allocated k => simp

lemma known_allocated (h : env.allocates p.allocs = true) (hq : q.allocs = p.allocs + 1) :
    known env n q = insert (.allocated p.allocs) (known env n p) := by
  ext a
  cases a with
  | received k => simp
  | allocated k =>
    simp only [allocated_mem_known, Set.mem_insert_iff, MbufAddr.allocated.injEq, hq]
    constructor
    · rintro ⟨hk, hyes⟩
      rcases Nat.lt_succ_iff_lt_or_eq.mp hk with hlt | heq
      · exact .inr ⟨hlt, hyes⟩
      · exact .inl heq
    · rintro (rfl | ⟨hk, hyes⟩)
      · exact ⟨Nat.lt_succ_self _, h⟩
      · exact ⟨by omega, hyes⟩

lemma known_refused (h : env.allocates p.allocs = false) (hq : q.allocs = p.allocs + 1) :
    known env n q = known env n p := by
  ext a
  cases a with
  | received k => simp
  | allocated k =>
    simp only [allocated_mem_known, hq]
    constructor
    · rintro ⟨hk, hyes⟩
      rcases Nat.lt_succ_iff_lt_or_eq.mp hk with hlt | rfl
      · exact ⟨hlt, hyes⟩
      · simp [h] at hyes
    · rintro ⟨hk, hyes⟩
      exact ⟨by omega, hyes⟩

lemma settled_freed (a : MbufAddr) (h : q.freed = p.freed ++ [a]) (hring : q.ring = p.ring) :
    q.settled = a ::ₘ p.settled := by
  rw [Pool.settled, Pool.ringAddrs, h, hring, Pool.settled, Multiset.cons_coe, Multiset.coe_eq_coe]
  rw [List.append_assoc]
  exact List.perm_middle

lemma settled_enqueued (m : RteMbuf) (ringId : ℕ) :
    (p.enqueueEncapRing env m ringId).settled = m.addr ::ₘ p.settled := by
  simp only [Pool.enqueueEncapRing]
  split_ifs
  · rw [Pool.settled, Pool.settled, Multiset.cons_coe, Multiset.coe_eq_coe]
    simp only [Pool.ringAddrs, List.map_append, List.map_cons, List.map_nil, ← List.append_assoc]
    exact List.perm_append_singleton _ _
  · exact settled_freed m.addr rfl rfl

end Ledger

/-- A step of one buffer keeps the property `P` of the ledger, whatever the other buffers hold. -/
def Keeps (P : Ledger MbufAddr Place → Prop) (env : Dpdk) (s s' : FragInfo × Pool) : Prop :=
  ∀ n held x, P (ledger env n (Function.update held x s.1.heldAddr) s.2) →
    P (ledger env n (Function.update held x s'.1.heldAddr) s'.2)

namespace Keeps

variable {P : Ledger MbufAddr Place → Prop} {env : Dpdk} {p q : Pool} {f g : FragInfo}
  {s t u : FragInfo × Pool}

lemma trans (h : Keeps P env s t) (h' : Keeps P env t u) : Keeps P env s u :=
  fun n held x hs => h' n held x (h n held x hs)

lemma same (hf : g.heldAddr = f.heldAddr) : Keeps P env (f, p) (g, p) := by
  intro n held x hs
  simpa only [hf] using hs

lemma settle (hP : Rules P) {a : MbufAddr} (hf : f.heldAddr = some a) (hg : g.heldAddr = none)
    (hallocs : q.allocs = p.allocs) (hset : q.settled = a ::ₘ p.settled) :
    Keeps P env (f, p) (g, q) := by
  intro n held x hs
  have hrel := hP.release hs (x := x) (a := a) (by simp [hf])
  rw [Function.update_idem] at hrel
  rw [ledger, known_congr hallocs, hset, hg]
  exact hrel

lemma reset (hP : Rules P) (f : FragInfo) (p : Pool) (hg : g.heldAddr = none) :
    Keeps P env (f, p) (g, p.freeHeld f.pduNode.ptrPdu) := by
  cases hptr : f.pduNode.ptrPdu with
  | none => exact same (by rw [hg, FragInfo.heldAddr, hptr]; rfl)
  | some m =>
    exact settle hP (a := m.addr) (by simp [FragInfo.heldAddr, hptr]) hg rfl (settled_freed _ rfl rfl)

lemma refused (h : env.allocates p.allocs = false) (hg : g.heldAddr = f.heldAddr) :
    Keeps P env (f, p) (g, { p with allocs := p.allocs + 1 }) := by
  intro n held x hs
  rw [ledger, known_refused (p := p) h rfl, hg]
  exact hs

lemma returned (hP : Rules P) (h : env.allocates p.allocs = true) (hf : f.heldAddr = none)
    (hg : g.heldAddr = none) (hallocs : q.allocs = p.allocs + 1)
    (hset : q.settled = .allocated p.allocs ::ₘ p.settled) : Keeps P env (f, p) (g, q) := by
  intro n held x hs
  rw [ledger, known_allocated h hallocs, hset, hg, ← hf]
  exact hP.settle hs (by simp)

lemma taken (hP : Rules P) (h : env.allocates p.allocs = true) (hf : f.heldAddr = none)
    (hg : g.heldAddr = some (.allocated p.allocs)) :
    Keeps P env (f, p) (g, { p with allocs := p.allocs + 1 }) := by
  intro n held x hs
  have hhold := hP.hold hs (x := x) (a := .allocated p.allocs) (by simp) (by simp [hf])
  rw [Function.update_idem] at hhold
  rw [ledger, known_allocated (p := p) h rfl, hg]
  exact hhold

lemma cleared (h : f.heldAddr = none ∨ Forgets P) : Keeps P env (f, p) (f.reset, p) := by
  rcases h with h | h
  · exact same h.symm
  · intro n held x hs
    have hlost := h hs (x := x)
    rwa [Function.update_idem] at hlost

end Keeps

section Reassembly

variable {P : Ledger MbufAddr Place → Prop} {env : Dpdk} {fragID : ℕ} {a : Arrival} {f : FragInfo}
  {p : Pool}

@[simp] lemma heldAddr_reset (f : FragInfo) : f.reset.heldAddr = none := rfl

@[simp] lemma heldAddr_storeStart (f : FragInfo) : (f.storeStart fragID a).heldAddr = f.heldAddr := rfl

lemma discardReceived_keeps (hP : Rules P) (stamp : ℕ) (f : FragInfo) (p : Pool) :
    Keeps P env (f, p) (discardReceived stamp f p) := by
  simp only [discardReceived]
  split_ifs
  · exact .reset hP f p rfl
  · exact .reset hP f p rfl
  · exact .same rfl
  · exact .same rfl

lemma discardReceived_held {stamp : ℕ} (h : f.pduNode.ptrPdu = none ∨ f.Drops stamp) :
    (discardReceived stamp f p).1.heldAddr = none := by
  simp only [discardReceived]
  rcases h with hnone | ⟨hpos, hdrop⟩
  · split_ifs
    · rfl
    · rfl
    · simp [FragInfo.heldAddr, hnone]
    · simp [FragInfo.heldAddr, hnone]
  · rw [if_pos hpos]
    split_ifs with h₁ h₂
    · rfl
    · rfl
    · exact absurd hdrop (by tauto)

lemma settle_held (f : FragInfo) (now : ℕ) (p : Pool) :
    (f.settle now p).info.heldAddr = f.heldAddr := by
  obtain ⟨-, hs⟩ | ⟨-, hs⟩ | ⟨-, hs⟩ := f.settle_cases now p
  all_goals exact congrArg (fun r => r.info.heldAddr) hs

lemma start_keeps (hP : Rules P) {r : Received} (hr : f.start env fragID a p = some r)
    (hspare : (f.pduNode.ptrPdu = none ∨ f.Drops a.timeStamp ∨ env.allocates p.allocs = false) ∨
      Forgets P) : Keeps P env (f, p) (r.info, r.pool) := by
  obtain ⟨g, q, hd, -, hr⟩ := FragInfo.start_cases hr
  have hdrop : Keeps P env (f, p) (g, q) := hd ▸ discardReceived_keeps hP a.timeStamp f p
  have hallocs : q.allocs = p.allocs := by simpa [hd] using discardReceived_allocs a.timeStamp f p
  have hclear (hyes : env.allocates q.allocs = true) : Keeps P env (f, p) (g.reset, q) := by
    apply hdrop.trans
    apply Keeps.cleared
    rw [hallocs] at hyes
    apply hspare.imp_left
    intro h
    have hnone := discardReceived_held (p := p) (show f.pduNode.ptrPdu = none ∨ f.Drops a.timeStamp by
      rcases h with h | h | h
      · exact .inl h
      · exact .inr h
      · simp [h] at hyes)
    rwa [hd] at hnone
  obtain ⟨hno, rfl⟩ | ⟨hyes, -, rfl⟩ | ⟨hyes, -, rfl⟩ := hr
  · exact hdrop.trans (.refused hno rfl)
  · exact (hclear hyes).trans (.returned hP hyes rfl rfl rfl (settled_freed _ rfl rfl))
  · rw [FragInfo.settle_pool]
    exact (hclear hyes).trans (.taken hP hyes rfl (by rw [settle_held]; rfl))

lemma keep_keeps (hP : Rules P) {r : Received} (hr : f.keep fragID a p = some r) :
    Keeps P env (f, p) (r.info, r.pool) := by
  obtain ⟨hs, ⟨-, rfl⟩ | ⟨-, -, rfl⟩⟩ := FragInfo.keep_cases hr
  · exact .reset hP f p rfl
  · rw [FragInfo.settle_pool]
    apply Keeps.same
    rw [settle_held]
    simp only [FragInfo.heldAddr, FragInfo.store, FragInfo.node_countLength]

lemma finishReassemblePdu_keeps (hP : Rules P) {d : Finished}
    (hd : finishReassemblePdu env f p = some d) : Keeps P env (f, p) (d.info, d.pool) := by
  obtain ⟨hinfo, hd⟩ := finishReassemblePdu_cases hd
  rw [hinfo]
  obtain ⟨hptr, -, hpool⟩ | ⟨m, hptr, hd⟩ := hd
  · rw [hpool]
    exact .same (by rw [heldAddr_reset, FragInfo.heldAddr, hptr]; rfl)
  · have hheld : f.heldAddr = some m.addr := by simp [FragInfo.heldAddr, hptr]
    obtain ⟨-, hpool⟩ | ⟨copied, crc, -, -, -, -, -, hpool⟩ := hd
    · rw [hpool]
      exact .settle hP hheld rfl rfl (settled_freed _ rfl rfl)
    · rw [hpool]
      exact .settle hP hheld rfl (by simp) (settled_enqueued _ _)

lemma reassemble_keeps (hP : Rules P) {c : FragCell} {s : FragCell × Pool} {o : Outcome}
    (h : reassemble env fragID (c, p) a = some (s, o)) (hspare : c.Spares env p a ∨ Forgets P) :
    s = (c, p) ∨ (∀ j, j ≠ (c.select a.timeStamp).1 → s.1.info j = c.info j) ∧
      Keeps P env (c.info (c.select a.timeStamp).1, p) (s.1.info (c.select a.timeStamp).1, s.2) := by
  obtain ⟨r, hr, hfin⟩ := Option.bind_eq_some_iff.mp h
  -- the call alone, and then what may follow it
  have hcall : r = ⟨-1, 0, c, p⟩ ∨ r.index = (c.select a.timeStamp).1 ∧
      (∀ j, j ≠ r.index → r.cell.info j = c.info j) ∧
      Keeps P env (c.info r.index, p) (r.cell.info r.index, r.pool) := by
    obtain ⟨-, -, rfl⟩ | ⟨ht, hseq, t, hstart, rfl⟩ | ⟨-, t, hkeep, rfl⟩ := receiveFragment_cases hr
    · exact .inl rfl
    · refine .inr ⟨rfl, fun j hj => FragCell.put_ne _ _ t hj, ?_⟩
      simpa [FragCell.put] using start_keeps hP hstart (hspare.imp_left fun h => h ht hseq)
    · refine .inr ⟨rfl, fun j hj => FragCell.put_ne _ _ t hj, ?_⟩
      simpa [FragCell.put] using keep_keeps hP hkeep
  obtain rfl | ⟨hindex, hother, hkeeps⟩ := hcall
  · left
    simpa [Reassembled.finish, eq_comm] using congrArg (Option.map Prod.fst) hfin
  · right
    rw [← hindex]
    simp only [Reassembled.finish] at hfin
    split_ifs at hfin with hc
    · obtain ⟨d, hd, hs⟩ := Option.map_eq_some_iff.mp hfin
      obtain ⟨rfl, -⟩ := Prod.mk.inj hs
      refine ⟨fun j hj => ?_, ?_⟩
      · rw [FragCell.set_info_ne _ hj]
        exact hother j hj
      · rw [FragCell.set_info]
        exact hkeeps.trans (finishReassemblePdu_keeps hP hd)
    · obtain ⟨rfl, -⟩ := Prod.mk.inj (Option.some.inj hfin)
      exact ⟨hother, hkeeps⟩

lemma timeout_keeps (hP : Rules P) (env : Dpdk) (tUs : ℕ) (c : FragCell) (p : Pool) :
    (∀ j, j ≠ c.indexList.header → (FragCell.timeout tUs (c, p)).1.info j = c.info j) ∧
      Keeps P env (c.info c.indexList.header, p)
        ((FragCell.timeout tUs (c, p)).1.info c.indexList.header, (FragCell.timeout tUs (c, p)).2) := by
  simp only [FragCell.timeout]
  split_ifs
  · refine ⟨fun j hj => by rw [FragCell.set_info_ne _ hj], ?_⟩
    rw [FragCell.set_info]
    exact .reset hP _ p rfl
  · refine ⟨fun j hj => by rw [FragCell.set_info_ne _ hj], ?_⟩
    rw [FragCell.set_info]
    exact .same rfl

end Reassembly

def Receiver.Sound (env : Dpdk) (n : ℕ) (r : Receiver) : Prop :=
  (ledger env n r.table.held r.pool).Sound

section Receiver

variable {P : Ledger MbufAddr Place → Prop} {env : Dpdk} {n : ℕ} {held : Place → Option MbufAddr}
  {r : Receiver} {p q : Pool}

lemma held_set {T : Table} {port fragID : ℕ} {c : FragCell} {b : Fin fragBufferNum}
    (h : ∀ j, j ≠ b → c.info j = (T port fragID).info j) :
    (T.set port fragID c).held = Function.update T.held (port, fragID, b) (c.info b).heldAddr := by
  funext ⟨i, j, k⟩
  simp only [Table.held, Table.set_cases, Function.update_apply, Prod.mk.injEq]
  by_cases hij : i = port ∧ j = fragID
  · obtain ⟨rfl, rfl⟩ := hij
    by_cases hk : k = b
    · simp [hk]
    · simp [hk, h k hk]
  · have hne : ¬ (i = port ∧ j = fragID ∧ k = b) := fun hall => hij ⟨hall.1, hall.2.1⟩
    simp [hij, hne]

lemma Keeps.set {T : Table} {c : FragCell} {port fragID : ℕ} {b : Fin fragBufferNum}
    (hkeeps : Keeps P env ((T port fragID).info b, p) (c.info b, q))
    (hother : ∀ j, j ≠ b → c.info j = (T port fragID).info j) (h : P (ledger env n T.held p)) :
    P (ledger env n (T.set port fragID c).held q) := by
  rw [held_set hother]
  apply hkeeps n T.held (port, fragID, b)
  have hself : Function.update T.held (port, fragID, b) ((T port fragID).info b).heldAddr = T.held :=
    Function.update_eq_self _ _
  simp only [hself]
  exact h

lemma ledger_passing (hP : Rules P) (hyes : env.allocates p.allocs = true)
    (hallocs : q.allocs = p.allocs + 1) (hset : q.settled = .allocated p.allocs ::ₘ p.settled)
    (h : P (ledger env n held p)) : P (ledger env n held q) := by
  rw [ledger, known_allocated hyes hallocs, hset]
  exact hP.settle h (by simp)

lemma ledger_received (hP : Rules P) (hallocs : q.allocs = p.allocs)
    (hset : q.settled = .received n ::ₘ p.settled) (h : P (ledger env n held p)) :
    P (ledger env (n + 1) held q) := by
  rw [ledger, known_congr hallocs, known_received, hset]
  exact hP.settle h (by simp)

lemma getSinglePdu_keeps (hP : Rules P) {mem : Memory} {ptr len protocolType : ℕ}
    (h : P (ledger env n held p)) :
    P (ledger env n held (getSinglePdu env mem ptr len protocolType p).1) := by
  simp only [getSinglePdu]
  by_cases hc : protocolType = protocolCtrl
  · rw [if_pos hc]
    exact h
  · rw [if_neg hc]
    cases hno : env.allocates p.allocs with
    | false =>
      simp only [Pool.alloc, hno, Bool.false_eq_true, if_false]
      rw [ledger, known_refused hno rfl]
      exact h
    | true =>
      simp only [Pool.alloc, hno, if_true]
      split_ifs
      · exact ledger_passing hP hno rfl (settled_freed _ rfl rfl) h
      · exact ledger_passing hP hno (Pool.enqueueEncapRing_allocs ..) (settled_enqueued _ _) h

lemma fragmentTimeout_sound (tUs : ℕ) (h : r.Sound env n) : (fragmentTimeout tUs r).Sound env n := by
  simp only [fragmentTimeout]
  generalize List.product (List.range maxDeviceNum) (List.range maxFragId) = cells
  induction cells generalizing r with
  | nil => exact h
  | cons x cells ih =>
    apply ih
    obtain ⟨hother, hkeeps⟩ := timeout_keeps Ledger.Sound.rules env tUs (r.table x.1 x.2) r.pool
    exact Keeps.set hkeeps hother h

end Receiver

section Frame

variable {env : RecvEnv} {mem : Memory} {port n : ℕ} {now : ℕ → ℕ} {para : FrameParam} {r : Receiver}
  {w w' : GseWalk}

lemma Parsed.handle_sound {p : Parsed} {tUs : ℕ} {r' : Receiver} (h : r.Sound env.toDpdk n)
    (hspare : ∀ kind, p.fragType = some kind →
      (r.table port p.varHeader.fragmentID).Spares env.toDpdk r.pool (p.arrival mem tUs kind))
    (hr : (p.handle env mem port tUs r).receiver = some r') : r'.Sound env.toDpdk n := by
  simp only [Parsed.handle] at hr
  cases hk : p.fragType with
  | none =>
    simp only [hk] at hr
    split_ifs at hr
    · cases hread : getConcatPdu mem p.ptrDatafield p.datafieldLength with
      | none => simp [hread] at hr
      | some c =>
        simp only [hread] at hr
        obtain rfl := Option.some.inj hr
        exact h
    · obtain rfl := Option.some.inj hr
      exact getSinglePdu_keeps Ledger.Sound.rules h
  | some kind =>
    simp only [hk] at hr
    obtain ⟨⟨s, o⟩, hs, rfl⟩ := Option.map_eq_some_iff.mp hr
    rcases reassemble_keeps Ledger.Sound.rules hs (.inl (hspare kind hk)) with rfl | ⟨hother, hkeeps⟩
    · exact Keeps.set (b := 0) (.same rfl) (fun _ _ => rfl) h
    · exact Keeps.set hkeeps hother h

namespace GseWalk

lemma turn_sound (h : ∀ r, w.receiver = some r → r.Sound env.toDpdk n)
    (hspare : w.Spares env mem port now) {r' : Receiver}
    (hr' : (w.turn env mem port now).receiver = some r') : r'.Sound env.toDpdk n := by
  simp only [turn] at hr'
  cases hr : w.receiver with
  | none => simp [hr] at hr'
  | some r =>
    have hsound := h r hr
    simp only [hr] at hr'
    split_ifs at hr' with hmatch
    · cases hp : parsePacket mem w.pGSE w.timestampSeq with
      | none => simp [hp] at hr'
      | some p =>
        simp only [hp] at hr'
        exact Parsed.handle_sound (r := { r with previousMacInfo := (w.filter env mem r).2 }) hsound
          (fun kind hk => hspare r p kind hr hmatch hp hk) hr'
    · obtain rfl := Option.some.inj hr'
      exact hsound

lemma Visits.here_or_next (h : Visits env mem port now para w w') :
    w' = w ∨ (w.turn env mem port now).goesOn para = true ∧
      Visits env mem port now para (w.turn env mem port now) w' := by
  cases h with
  | here => exact .inl rfl
  | next _ hon h => exact .inr ⟨hon, h⟩

lemma run_keeps (P : Receiver → Prop) (h : ∀ r, w.receiver = some r → P r)
    (hturn : ∀ v, Visits env mem port now para w v → (∀ r, v.receiver = some r → P r) →
      ∀ r, (v.turn env mem port now).receiver = some r → P r) {k : ℕ}
    (hrun : GseWalk.run env mem port now para k w = some w') {r' : Receiver}
    (hr' : w'.receiver = some r') : P r' := by
  induction k generalizing w with
  | zero => simp [GseWalk.run] at hrun
  | succ k ih =>
    have hone := hturn w (.here w) h
    simp only [GseWalk.run] at hrun
    split_ifs at hrun with hon
    · exact ih hone (fun v hv => hturn v (.next hon.1 hon.2 hv)) hrun
    · obtain rfl := Option.some.inj hrun
      exact hone r' hr'

lemma turn_table (hr : w.receiver = some r) {r' : Receiver}
    (hr' : (w.turn env mem port now).receiver = some r') {i j : ℕ}
    (hne : ¬ (i = port ∧ j = (decapsulateGseHeader mem w.pGSE).2.fragmentID)) :
    r'.table i j = r.table i j := by
  simp only [turn, hr] at hr'
  split_ifs at hr' with hmatch
  · cases hp : parsePacket mem w.pGSE w.timestampSeq with
    | none => simp [hp] at hr'
    | some p =>
      have hid : p.varHeader.fragmentID = (decapsulateGseHeader mem w.pGSE).2.fragmentID := by
        obtain ⟨_, -, rfl⟩ := Option.map_eq_some_iff.mp hp
        rfl
      simp only [hp, Parsed.handle] at hr'
      cases hk : p.fragType with
      | none =>
        simp only [hk] at hr'
        split_ifs at hr'
        · cases hread : getConcatPdu mem p.ptrDatafield p.datafieldLength with
          | none => simp [hread] at hr'
          | some c =>
            simp only [hread] at hr'
            obtain rfl := Option.some.inj hr'
            rfl
        · obtain rfl := Option.some.inj hr'
          rfl
      | some kind =>
        simp only [hk] at hr'
        obtain ⟨s, -, rfl⟩ := Option.map_eq_some_iff.mp hr'
        simp only [Table.set_cases, hid, if_neg hne]
  · obtain rfl := Option.some.inj hr'
    rfl

end GseWalk

lemma processFrameHeader_cases (m : RteMbuf) (para : FrameParam) (pool : Pool) :
    let h := processFrameHeader m para pool
    ((h.ret = -1 ∨ h.ret = 2) ∧ h.pool = pool.free m.addr) ∨
    (h.ret = 0 ∧ h.pool = pool ∧ h.mbuf.addr = m.addr ∧
      (h.para.packType = enumFwdTxFwdData ∨ h.para.packType = enumFwdRxFwdData ∨
        h.para.packType = rtnTunnelPdu)) := by
  simp only [processFrameHeader]
  split_ifs with h₁ h₂ h₃ h₄
  · simp only [processFwdData]
    split_ifs
    · exact .inr ⟨rfl, rfl, rfl, h₂.imp_right .inl⟩
    · exact .inl ⟨.inl rfl, rfl⟩
  · simp only [processTxIndication]
    split_ifs
    · exact .inl ⟨.inr rfl, rfl⟩
    · exact .inl ⟨.inl rfl, rfl⟩
  · exact .inl ⟨.inl rfl, rfl⟩
  · refine .inr ⟨rfl, rfl, ?_, .inr (.inr rfl)⟩
    simp only [RteMbuf.adj]
    split_ifs <;> rfl
  · exact .inl ⟨.inl rfl, rfl⟩

def DispatchSpares (env : RecvEnv) (m : RteMbuf) (queueId : ℕ) (now : ℕ → ℕ) (para : FrameParam)
    (r : Receiver) : Prop :=
  let h := processFrameHeader m para r.pool
  h.ret = 0 → h.para.packType ≠ rtnTunnelPdu →
    ∀ v, GseWalk.Visits env h.mbuf.data queueId now h.para
      (.first h.para.gseOffset { r with pool := h.pool }) v → v.Spares env h.mbuf.data queueId now

lemma dispatchDecapPkt_sound {m : RteMbuf} {queueId : ℕ} {r' : Receiver} (hm : m.addr = .received n)
    (h : r.Sound env.toDpdk n) (hspare : DispatchSpares env m queueId now para r)
    (hr : dispatchDecapPkt env m queueId now para r = some r') : r'.Sound env.toDpdk (n + 1) := by
  simp only [dispatchDecapPkt] at hr
  simp only [DispatchSpares] at hspare
  obtain ⟨hret, hpool⟩ | ⟨hret, hpool, haddr, htype⟩ := processFrameHeader_cases m para r.pool
  · rw [if_pos hret, hpool, hm] at hr
    obtain rfl := Option.some.inj hr
    exact ledger_received (p := r.pool) Ledger.Sound.rules rfl (settled_freed _ rfl rfl) h
  · rw [hm] at haddr
    rw [if_neg (by simp [hret]), hpool] at hr
    rw [hpool] at hspare
    by_cases hrtn : (processFrameHeader m para r.pool).para.packType = rtnTunnelPdu
    · rw [if_neg (by simp [hrtn, rtnTunnelPdu, islPack, enumFwdTxFwdData, enumFwdRxFwdData]),
        if_pos (.inr hrtn)] at hr
      obtain rfl := Option.some.inj hr
      refine ledger_received Ledger.Sound.rules (Pool.enqueueEncapRing_allocs ..) ?_ h
      rw [settled_enqueued, haddr]
    · rw [if_pos (by tauto)] at hr
      obtain ⟨w, hw, hr⟩ := Option.bind_eq_some_iff.mp hr
      obtain ⟨r₁, hr₁, rfl⟩ := Option.map_eq_some_iff.mp hr
      have hsound : r₁.Sound env.toDpdk n := by
        refine GseWalk.run_keeps (Receiver.Sound env.toDpdk n) ?_
          (fun v hv hsound _ hr => GseWalk.turn_sound hsound (hspare hret hrtn v hv) hr) hw hr₁
        intro r₀ hr₀
        obtain rfl := Option.some.inj hr₀
        exact h
      rw [haddr]
      exact ledger_received (p := r₁.pool) Ledger.Sound.rules rfl (settled_freed _ rfl rfl) hsound

lemma dispatchDecapPkt_table {m : RteMbuf} {queueId id : ℕ} {r' : Receiver}
    (hid : ∀ v, GseWalk.Visits env (processFrameHeader m para r.pool).mbuf.data queueId now
      (processFrameHeader m para r.pool).para (.first (processFrameHeader m para r.pool).para.gseOffset
        { r with pool := (processFrameHeader m para r.pool).pool }) v →
      (decapsulateGseHeader (processFrameHeader m para r.pool).mbuf.data v.pGSE).2.fragmentID = id)
    (hr : dispatchDecapPkt env m queueId now para r = some r') {i j : ℕ}
    (hne : ¬ (i = queueId ∧ j = id)) : r'.table i j = r.table i j := by
  simp only [dispatchDecapPkt] at hr
  split_ifs at hr
  · obtain rfl := Option.some.inj hr
    rfl
  · obtain ⟨w, hw, hr⟩ := Option.bind_eq_some_iff.mp hr
    obtain ⟨r₁, hr₁, rfl⟩ := Option.map_eq_some_iff.mp hr
    change r₁.table i j = r.table i j
    refine GseWalk.run_keeps (fun r₁ => r₁.table i j = r.table i j) ?_ (fun v hv h r₂ hr₂ => ?_) hw hr₁
    · intro r₀ hr₀
      obtain rfl := Option.some.inj hr₀
      rfl
    · cases hr₀ : v.receiver with
      | none => simp [GseWalk.turn, hr₀] at hr₂
      | some r₀ => rw [GseWalk.turn_table hr₀ hr₂ (by rwa [hid v hv]), h r₀ hr₀]
  · obtain rfl := Option.some.inj hr
    rfl
  · obtain rfl := Option.some.inj hr
    rfl

end Frame

inductive RecvEvent
  | packet (data : Memory) (dataLen protocolType queueId : ℕ) (now : ℕ → ℕ) (para : FrameParam)
  | timeout (tUs : ℕ)

structure RecvState where
  receiver : Receiver
  received : ℕ

def RecvState.initial : RecvState := ⟨.initial, 0⟩

def recvStep (env : RecvEnv) (s : RecvState) : RecvEvent → Option (RecvState × Unit)
  | .packet data dataLen protocolType queueId now para =>
    (dispatchDecapPkt env ⟨.received s.received, data, dataLen, protocolType⟩ queueId now para
      s.receiver).map fun r => (⟨r, s.received + 1⟩, ())
  | .timeout tUs => some (⟨fragmentTimeout tUs s.receiver, s.received⟩, ())

def RecvEvent.Spares (env : RecvEnv) (s : RecvState) : RecvEvent → Prop
  | .packet data dataLen protocolType queueId now para =>
    DispatchSpares env ⟨.received s.received, data, dataLen, protocolType⟩ queueId now para s.receiver
  | .timeout _ => True

def RecvState.Sound (env : RecvEnv) (s : RecvState) : Prop :=
  s.receiver.Sound env.toDpdk s.received

section Run

variable {env : RecvEnv} {s s' : RecvState}

lemma RecvState.sound_initial : RecvState.initial.Sound env := by
  have hknown : known env.toDpdk 0 .fresh = ∅ := by
    ext a
    cases a <;> simp [Pool.fresh]
  rw [RecvState.Sound, Receiver.Sound, ledger, RecvState.initial, Receiver.initial, hknown]
  exact Ledger.Sound.empty

lemma RecvState.Sound.step {e : RecvEvent} {u : Unit} (h : s.Sound env) (hspare : e.Spares env s)
    (hs : recvStep env s e = some (s', u)) : s'.Sound env := by
  cases e with
  | timeout tUs =>
    simp only [recvStep, Option.some.injEq, Prod.mk.injEq] at hs
    obtain ⟨rfl, -⟩ := hs
    simp only [RecvState.Sound] at h ⊢
    exact fragmentTimeout_sound tUs h
  | packet data dataLen protocolType queueId now para =>
    obtain ⟨r, hr, hs⟩ := Option.map_eq_some_iff.mp hs
    obtain ⟨rfl, -⟩ := Prod.mk.inj hs
    exact dispatchDecapPkt_sound rfl h hspare hr

lemma Receiver.Sound.inOnePlace {r : Receiver} {env : Dpdk} {n : ℕ} {a : MbufAddr}
    (h : r.Sound env n) (ha : a ∈ known env n r.pool) : r.InOnePlace a := by
  have hnodup : (r.pool.freed ++ r.pool.ringAddrs).Nodup := Multiset.coe_nodup.mp h.nodup
  obtain ⟨hfreed, hring, hdisj⟩ := List.nodup_append.mp hnodup
  have hheld (hmem : a ∈ r.pool.freed ++ r.pool.ringAddrs) : ∀ x, r.table.held x ≠ some a :=
    fun x hx => h.apart x a hx (Multiset.mem_coe.mpr hmem)
  rcases h.located a ha with hset | ⟨x, hx⟩
  · have hmem : a ∈ r.pool.freed ++ r.pool.ringAddrs := Multiset.mem_coe.mp hset
    rcases List.mem_append.mp hmem with hf | hr
    · exact .inl ⟨List.count_eq_one_of_mem hfreed hf, fun hr => hdisj a hf a hr rfl, hheld hmem⟩
    · exact .inr (.inl ⟨fun hf => hdisj a hf a hr rfl, List.count_eq_one_of_mem hring hr, hheld hmem⟩)
  · have hnot : a ∉ r.pool.freed ++ r.pool.ringAddrs :=
      fun hmem => h.apart x a hx (Multiset.mem_coe.mpr hmem)
    rw [List.mem_append, not_or] at hnot
    exact .inr (.inr ⟨hnot.1, hnot.2, x, hx, fun y hy => h.alone y x a hy hx⟩)

/-- As long as no START writes a new buffer over one that is held, each buffer is in one place. -/
theorem recv_buffers_conserved (env : RecvEnv)
    (h : Reached (recvStep env) (fun s e => RecvEvent.Spares env s e) .initial s) {a : MbufAddr}
    (ha : a ∈ known env.toDpdk s.received s.receiver.pool) : s.receiver.InOnePlace a := by
  have hsound : s.Sound env :=
    h.invariant (RecvState.Sound env) RecvState.sound_initial fun _ _ _ _ hs hok hstep =>
      hs.step hok hstep
  exact Receiver.Sound.inOnePlace hsound ha

end Run

/-- The first fragment of a PDU of 100 bytes and more, with fragment ID 5. -/
def startPacket : List UInt8 := [0xA0, 9, 5, 0, 106, 8, 0, 1, 2, 3, 4]

/-- The bytes of a frame of forward data with the packet in it `k` times. -/
def startsFrame (k : ℕ) : Memory :=
  let packets := (List.replicate k startPacket).flatten
  let bbHeader := [0, 0, 0, 0] ++ be16 (8 * packets.length) ++ [0, 0, 0]
  overwrite (fun _ => 0) (List.replicate 12 0 ++ [0x91, 0x01, 0, 0, 0, 6] ++ List.replicate 16 0 ++
    be16 1000 ++ List.replicate 20 0 ++ bbHeader ++ [mcsGetCrc8 bbHeader] ++ packets)

def startsEvent (k : ℕ) : RecvEvent :=
  .packet (startsFrame k) 200 0 0 (fun _ => 0) ⟨0, 0, 0, 0, 0⟩

def afterStarts (k : ℕ) : Option RecvState :=
  (recvStep sampleRecvEnv .initial (startsEvent k)).map Prod.fst

lemma startsEvent_spares : (startsEvent 1).Spares sampleRecvEnv .initial := by
  intro _ _ v hv
  rcases hv.here_or_next with rfl | ⟨hon, -⟩
  · intro r p kind hr _ _ _ _ _
    obtain rfl := Option.some.inj hr
    exact .inl rfl
  · exact absurd hon (by decide +kernel)

theorem recv_buffers_conserved_once : ∃ s, afterStarts 1 = some s ∧
    s.receiver.InOnePlace (.allocated 0) := by
  have hdone : (afterStarts 1).isSome := by decide +kernel
  have hallocs : (afterStarts 1).map (fun s => s.receiver.pool.allocs) = some 1 := by decide +kernel
  obtain ⟨s, hs⟩ := Option.isSome_iff_exists.mp hdone
  refine ⟨s, hs, ?_⟩
  rw [hs, Option.map_some, Option.some.injEq] at hallocs
  obtain ⟨⟨_, u⟩, hstep, rfl⟩ := Option.map_eq_some_iff.mp hs
  apply recv_buffers_conserved sampleRecvEnv (.next .start startsEvent_spares hstep)
  rw [allocated_mem_known]
  exact ⟨by simp only at hallocs ⊢; omega, rfl⟩

lemma startsFrame_fragmentID {m : RteMbuf} {para : FrameParam} {r : Receiver}
    (hm : m = ⟨.received 0, startsFrame 3, 200, 0⟩) (hpara : para = ⟨0, 0, 0, 0, 0⟩)
    (hr : r = .initial) (v : GseWalk)
    (hv : GseWalk.Visits sampleRecvEnv (processFrameHeader m para r.pool).mbuf.data 0 (fun _ => 0)
      (processFrameHeader m para r.pool).para (.first (processFrameHeader m para r.pool).para.gseOffset
        { r with pool := (processFrameHeader m para r.pool).pool }) v) :
    (decapsulateGseHeader (processFrameHeader m para r.pool).mbuf.data v.pGSE).2.fragmentID = 5 := by
  subst hm hpara hr
  rcases hv.here_or_next with hv | ⟨-, hv⟩
  · rw [hv]
    decide +kernel
  rcases hv.here_or_next with hv | ⟨-, hv⟩
  · rw [hv]
    decide +kernel
  rcases hv.here_or_next with hv | ⟨hon, -⟩
  · rw [hv]
    decide +kernel
  · exact absurd hon (by decide +kernel)

/-- The same packet three times: the third START finds `frag_recv_num` at 0 and writes its buffer
over the second one. -/
theorem recv_buffer_leaked : ∃ s, afterStarts 3 = some s ∧
    .allocated 1 ∈ known sampleRecvEnv.toDpdk s.received s.receiver.pool ∧
      ¬ s.receiver.InOnePlace (.allocated 1) := by
  have hdone : (afterStarts 3).isSome := by decide +kernel
  have hplaces : (afterStarts 3).map (fun s => (s.receiver.pool.allocs, s.receiver.pool.freed,
      s.receiver.pool.ringAddrs, s.receiver.table.held (0, 5, 0), s.receiver.table.held (0, 5, 1))) =
      some (3, [.allocated 0, .received 0], [], some (.allocated 2), none) := by decide +kernel
  obtain ⟨s, hs⟩ := Option.isSome_iff_exists.mp hdone
  rw [hs, Option.map_some, Option.some.injEq] at hplaces
  simp only [Prod.mk.injEq] at hplaces
  obtain ⟨hallocs, hfreed, hring, hfirst, hsecond⟩ := hplaces
  obtain ⟨⟨_, u⟩, hstep, rfl⟩ := Option.map_eq_some_iff.mp hs
  rw [startsEvent, recvStep] at hstep
  obtain ⟨r, hr, hpair⟩ := Option.map_eq_some_iff.mp hstep
  obtain ⟨rfl, -⟩ := Prod.mk.inj hpair
  generalize hm : (⟨.received RecvState.initial.received, startsFrame 3, 200, 0⟩ : RteMbuf) = m at hr
  generalize hpara : (⟨0, 0, 0, 0, 0⟩ : FrameParam) = para at hr
  generalize hinit : RecvState.initial.receiver = r₀ at hr
  have hheld : ∀ x, r.table.held x ≠ some (.allocated 1) := by
    rintro ⟨i, j, k⟩
    by_cases hij : i = 0 ∧ j = 5
    · obtain ⟨rfl, rfl⟩ := hij
      fin_cases k
      · simp [hfirst]
      · simp [hsecond]
    · rw [Table.held, dispatchDecapPkt_table
        (startsFrame_fragmentID hm.symm hpara.symm hinit.symm) hr hij, ← hinit]
      simp [RecvState.initial, Receiver.initial, Table.initial, FragCell.initial, FragInfo.initial,
        FragInfo.heldAddr]
  refine ⟨_, hs, ⟨by simp only at hallocs ⊢; omega, rfl⟩, ?_⟩
  rintro (⟨hcount, -⟩ | ⟨-, hcount, -⟩ | ⟨-, -, x, hx, -⟩)
  · rw [hfreed] at hcount
    exact absurd hcount (by decide)
  · rw [hring] at hcount
    exact absurd hcount (by decide)
  · exact hheld x hx

end Fengtai.Receive
