import Fengtai.Receive.Repeats

set_option autoImplicit false

/-! Two PDUs with one fragment ID and different time stamps, their fragments in
any interleaving: as long as each PDU keeps to a buffer of its own, both are
delivered. -/

namespace Fengtai.Receive

open Library Library.Words Library.Runs Crc Finset

abbrev Tagged := Bool × ℕ

def tags (w : List Tagged) : List Bool := w.map Prod.fst

@[simp] lemma tags_nil : tags [] = [] := rfl
@[simp] lemma tags_cons (x : Tagged) (w : List Tagged) : tags (x :: w) = x.1 :: tags w := rfl
@[simp] lemma tags_append (u v : List Tagged) : tags (u ++ v) = tags u ++ tags v :=
  List.map_append

lemma mem_tags {w : List Tagged} {t : Bool} : t ∈ tags w ↔ ∃ i, (t, i) ∈ w := by
  simp [tags]

def answersOf : List Tagged → List Outcome
  | [] => []
  | x :: w => (if x.1 ∈ tags w then ⟨0, none⟩ else ⟨1, some 0⟩) :: answersOf w

def completions : List Tagged → List Bool
  | [] => []
  | x :: w => if x.1 ∈ tags w then completions w else x.1 :: completions w

abbrev PairArrivals (pdu : Bool → SplitPdu) : List Tagged → List Arrival → Prop :=
  List.Forall₂ fun x a => x.2 < (pdu x.1).count ∧ (pdu x.1).IsFragment x.2 a

/-- `w` lists, once each, the fragments that are missing from `S`. -/
structure Missing (pdu : Bool → SplitPdu) (S : Bool → Finset ℕ) (w : List Tagged) : Prop where
  nodup : w.Nodup
  mem_iff : ∀ t i, (t, i) ∈ w ↔ i < (pdu t).count ∧ i ∉ S t
  within : ∀ t, S t ⊆ range (pdu t).count

def receivedOf (S : Bool → Finset ℕ) (x : Tagged) : Bool → Finset ℕ :=
  Function.update S x.1 (insert x.2 (S x.1))

namespace Missing

variable {pdu : Bool → SplitPdu} {S : Bool → Finset ℕ} {x : Tagged} {w : List Tagged}

lemma head (h : Missing pdu S (x :: w)) : x.2 < (pdu x.1).count ∧ x.2 ∉ S x.1 :=
  (h.mem_iff x.1 x.2).mp (List.mem_cons_self ..)

lemma next (h : Missing pdu S (x :: w)) : Missing pdu (receivedOf S x) w := by
  obtain ⟨hx, hw⟩ := List.nodup_cons.mp h.nodup
  refine ⟨hw, fun t i => ?_, fun t => ?_⟩
  · have hm := h.mem_iff t i
    rw [List.mem_cons] at hm
    by_cases ht : t = x.1
    · subst ht
      rw [receivedOf, Function.update_self, mem_insert]
      by_cases hi : i = x.2
      · subst hi
        simp [hx]
      · have hne : (x.1, i) ≠ x := fun hc => hi (congrArg Prod.snd hc)
        rw [or_iff_right hne] at hm
        simp [hm, hi]
    · have hne : (t, i) ≠ x := fun hc => ht (congrArg Prod.fst hc)
      rw [or_iff_right hne] at hm
      rw [hm, receivedOf, Function.update_of_ne ht]
  · by_cases ht : t = x.1
    · subst ht
      rw [receivedOf, Function.update_self]
      exact insert_subset (mem_range.mpr h.head.1) (h.within x.1)
    · rw [receivedOf, Function.update_of_ne ht]
      exact h.within t

lemma full_iff (h : Missing pdu S w) (t : Bool) : S t = range (pdu t).count ↔ t ∉ tags w := by
  rw [mem_tags]
  constructor
  · rintro hS ⟨i, hi⟩
    obtain ⟨hlt, hn⟩ := (h.mem_iff t i).mp hi
    exact hn (hS ▸ mem_range.mpr hlt)
  · intro hn
    refine subset_antisymm (h.within t) fun i hi => ?_
    by_contra hc
    exact hn ⟨i, (h.mem_iff t i).mpr ⟨mem_range.mp hi, hc⟩⟩

lemma full_next (h : Missing pdu S (x :: w)) :
    insert x.2 (S x.1) = range (pdu x.1).count ↔ x.1 ∉ tags w := by
  rw [← h.next.full_iff, receivedOf, Function.update_self]

end Missing

lemma SplitPdu.not_overruns {P : SplitPdu} {S : Finset ℕ} {q : ℕ} (hS : S ⊆ range P.count)
    (hq : q < P.count) (hn : q ∉ S) : P.repeats S q = 0 ∧ ¬P.Overruns S 0 q := by
  have hrep : P.repeats S q = 0 := by simp [repeats, hn]
  refine ⟨hrep, fun hover => ?_⟩
  have hsub : insert q S ⊆ range P.count := insert_subset (mem_range.mpr hq) hS
  have hlen := hover.2
  rw [hrep, P.recvLen_zero hsub] at hlen
  exact absurd (P.received_le hsub) (not_le.mpr hlen)

namespace Holding

variable {P : SplitPdu} {n q : ℕ} {S : Finset ℕ} {f : FragInfo} {env : Dpdk} {a : Arrival}
  {p : Pool} (fragID : ℕ)

lemma receive_new (halloc : ∀ i, env.allocates i = true)
    (h : Holding P (P.reserved env n) S 0 f) (hq : q < P.count) (hn : q ∉ S)
    (ha : P.IsFragment q a) :
    ∃ n', (insert q S ≠ range P.count → ∃ g, Holding P (P.reserved env n') (insert q S) 0 g ∧
        f.receive env fragID a p = some (⟨0, none⟩, g, p.reserveFor q)) ∧
      (insert q S = range P.count → ∃ g, g.Free ∧ f.receive env fragID a p =
        some (⟨1, some 0⟩, g, (p.reserveFor q).enqueueEncapRing env (P.delivered env n') 0)) := by
  obtain ⟨hrep, hno⟩ := P.not_overruns h.within hq hn
  obtain ⟨n', hn', hstart⟩ : ∃ n', Holding P (P.reserved env n') S 0 f ∧
      (q = 0 → 0 ∉ S ∧ n' = p.allocs ∧ env.allocates n' = true) := by
    by_cases h₀ : q = 0
    · subst h₀
      exact ⟨p.allocs, h.of_unstarted hn _, fun _ => ⟨hn, rfl, halloc _⟩⟩
    · exact ⟨n, h, fun hc => absurd hc h₀⟩
  refine ⟨n', fun hS => ?_, fun hS => ?_⟩
  · simpa only [hrep, Nat.add_zero] using hn'.receive_wait fragID hq ha hstart hno hS
  · exact hn'.receive_full fragID hq ha hstart hno hS

end Holding

def SplitPdu.held (P : SplitPdu) (S : Finset ℕ) : Finset ℕ := if S = range P.count then ∅ else S

structure Apart (pdu : Bool → SplitPdu) (env : Dpdk) (home : Bool → Fin fragBufferNum)
    (S : Bool → Finset ℕ) (c : FragCell) : Prop where
  ne : home true ≠ home false
  holds : ∀ t, ∃ n, Holding (pdu t) ((pdu t).reserved env n) ((pdu t).held (S t)) 0
    (c.info (home t))

namespace Apart

variable {pdu : Bool → SplitPdu} {env : Dpdk} {home : Bool → Fin fragBufferNum}
  {S : Bool → Finset ℕ} {c : FragCell}

lemma home_ne (h : Apart pdu env home S c) {t u : Bool} (htu : t ≠ u) : home t ≠ home u := by
  have := h.ne
  cases t <;> cases u <;> simp_all [eq_comm]

lemma stamp (h : Apart pdu env home S c) (t : Bool) :
    (c.info (home t)).timeStamp =
      if S t = ∅ ∨ S t = range (pdu t).count then 0 else (pdu t).stamp := by
  obtain ⟨n, hold⟩ := h.holds t
  rw [hold.stamp, SplitPdu.held]
  by_cases hS : S t = range (pdu t).count <;> simp [hS]

lemma of_free (hne : home true ≠ home false) (hc : c.Free) : Apart pdu env home (fun _ => ∅) c := by
  refine ⟨hne, fun t => ⟨0, ?_⟩⟩
  have hheld : (pdu t).held ∅ = ∅ := by simp [SplitPdu.held]
  rw [hheld]
  exact .of_free (hc _)

lemma of_set {g : FragInfo} {x : Tagged} {c' : FragCell} {n : ℕ} (h : Apart pdu env home S c)
    (hg : Holding (pdu x.1) ((pdu x.1).reserved env n)
      ((pdu x.1).held (insert x.2 (S x.1))) 0 g)
    (hc : c'.info = c.info) : Apart pdu env home (receivedOf S x) (c'.set (home x.1) g) := by
  refine ⟨h.ne, fun t => ?_⟩
  by_cases ht : t = x.1
  · subst ht
    rw [receivedOf, Function.update_self, FragCell.set_info]
    exact ⟨n, hg⟩
  · rw [receivedOf, Function.update_of_ne ht, FragCell.set_info_ne _ (h.home_ne ht), hc]
    exact h.holds t

lemma step (halloc : ∀ i, env.allocates i = true) (henq : ∀ i, env.enqueues i = true)
    (h : Apart pdu env home S c) {x : Tagged} {w : List Tagged} (hw : Missing pdu S (x :: w))
    {a : Arrival} (ha : (pdu x.1).IsFragment x.2 a)
    (hsel : (c.select (pdu x.1).stamp).1 = home x.1) (fragID : ℕ) (p : Pool) :
    ∃ c' p', Apart pdu env home (receivedOf S x) c' ∧
      c'.indexList = (c.select (pdu x.1).stamp).2.indexList ∧
      (if x.1 ∈ tags w then
        reassemble env fragID (c, p) a = some ((c', p'), ⟨0, none⟩) ∧ p'.ring = p.ring
      else ∃ n, reassemble env fragID (c, p) a = some ((c', p'), ⟨1, some 0⟩) ∧
        p'.ring = p.ring ++ [(0, (pdu x.1).delivered env n)]) := by
  obtain ⟨hq, hn⟩ := hw.head
  obtain ⟨n, hold⟩ := h.holds x.1
  have hopen : S x.1 ≠ range (pdu x.1).count := fun hc => (hw.full_iff x.1).mp hc (by simp)
  rw [SplitPdu.held, if_neg hopen] at hold
  obtain ⟨n', hwait, hfull⟩ := hold.receive_new (p := p) fragID halloc hq hn ha
  have hring : (p.reserveFor x.2).ring = p.ring := by
    rw [Pool.reserveFor]
    split_ifs <;> rfl
  have hre := ha.reassemble hq env fragID c p
  rw [hsel] at hre
  by_cases ht : x.1 ∈ tags w
  · have hS := fun hc => hw.full_next.mp hc ht
    obtain ⟨g, hg, hrec⟩ := hwait hS
    have hkept : Holding (pdu x.1) ((pdu x.1).reserved env n')
        ((pdu x.1).held (insert x.2 (S x.1))) 0 g := by
      rwa [SplitPdu.held, if_neg hS]
    refine ⟨_, p.reserveFor x.2, h.of_set hkept (c.select_info _), rfl, ?_⟩
    rw [if_pos ht, hre, hrec]
    exact ⟨rfl, hring⟩
  · have hS := hw.full_next.mpr ht
    obtain ⟨g, hg, hrec⟩ := hfull hS
    have hempty : Holding (pdu x.1) ((pdu x.1).reserved env n')
        ((pdu x.1).held (insert x.2 (S x.1))) 0 g := by
      rw [SplitPdu.held, if_pos hS]
      exact .of_free hg
    refine ⟨_, (p.reserveFor x.2).enqueueEncapRing env ((pdu x.1).delivered env n') 0,
      h.of_set hempty (c.select_info _), rfl, ?_⟩
    rw [if_neg ht, hre, hrec]
    exact ⟨n', rfl, by simp [Pool.enqueueEncapRing, henq, hring]⟩

end Apart

def BothDelivered (env : Dpdk) (fragID : ℕ) (pdu : Bool → SplitPdu) (c : FragCell) (p : Pool)
    (w : List Tagged) (as : List Arrival) : Prop :=
  ∃ c' p', ∃ ms : List RteMbuf, run (reassemble env fragID) (c, p) as = some ((c', p'), answersOf w) ∧
    p'.ring = p.ring ++ ms.map (Prod.mk 0) ∧
    ms.map (fun m => (m.bytes, m.protocolType)) =
      (completions w).map fun t => ((pdu t).whole, (pdu t).protocolType)

section Runs

variable {pdu : Bool → SplitPdu} {env : Dpdk}

/-- A run in which every arrival goes to its own buffer; `I` says why it does, from the header
of the index list, what has come and what is to come. -/
lemma run_apart (home : Bool → Fin fragBufferNum) (halloc : ∀ i, env.allocates i = true)
    (henq : ∀ i, env.enqueues i = true) (fragID : ℕ)
    (I : Fin fragBufferNum → (Bool → Finset ℕ) → List Tagged → Prop)
    (hI : ∀ c S x w, Apart pdu env home S c → Missing pdu S (x :: w) →
      I c.indexList.header S (x :: w) →
      (c.select (pdu x.1).stamp).1 = home x.1 ∧
        I (c.select (pdu x.1).stamp).2.indexList.header (receivedOf S x) w)
    {w : List Tagged} {as : List Arrival} (has : PairArrivals pdu w as) {S : Bool → Finset ℕ}
    {c : FragCell} (h : Apart pdu env home S c) (hw : Missing pdu S w)
    (hc : I c.indexList.header S w) (p : Pool) : BothDelivered env fragID pdu c p w as := by
  induction has generalizing S c p with
  | nil => exact ⟨c, p, [], rfl, by simp, rfl⟩
  | @cons x a w as hx _ ih =>
    obtain ⟨hsel, hnext⟩ := hI c S x w h hw hc
    obtain ⟨c₁, p₁, h₁, hlist, hstep⟩ := h.step halloc henq hw hx.2 hsel fragID p
    rw [← hlist] at hnext
    obtain ⟨c', p', ms, hrun, hring, hms⟩ := ih h₁ hw.next hnext p₁
    by_cases ht : x.1 ∈ tags w
    · rw [if_pos ht] at hstep
      refine ⟨c', p', ms, ?_, by rw [hring, hstep.2], by rw [hms, completions, if_pos ht]⟩
      rw [run_cons_some _ _ hstep.1, hrun, answersOf, if_pos ht]
      rfl
    · rw [if_neg ht] at hstep
      obtain ⟨n, hstep, hring₁⟩ := hstep
      refine ⟨c', p', (pdu x.1).delivered env n :: ms, ?_, by simp [hring, hring₁], ?_⟩
      · rw [run_cons_some _ _ hstep, hrun, answersOf, if_neg ht]
        rfl
      · rw [completions, if_neg ht, List.map_cons, List.map_cons, hms, SplitPdu.delivered_bytes]
        rfl

end Runs

end Fengtai.Receive
