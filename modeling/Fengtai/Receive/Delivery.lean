import Fengtai.Library.Runs
import Fengtai.Receive.SplitPdu

set_option autoImplicit false

/-! One PDU on free buffers: which runs of arrivals deliver it. -/

namespace Fengtai.Receive

open Library Library.Words Library.Runs Crc Finset

def Pool.reserveFor (p : Pool) (q : ℕ) : Pool :=
  if q = 0 then { p with allocs := p.allocs + 1 } else p

/-- Fragment `q` makes the recorded length exceed the PDU where the code looks at it: at a
MIDDLE or END after the START, and when nothing is missing any more. -/
def SplitPdu.Overruns (P : SplitPdu) (S : Finset ℕ) (k q : ℕ) : Prop :=
  (q ≠ 0 ∧ 0 ∈ S ∨ insert q S = range P.count) ∧
    P.whole.length < P.recvLen (insert q S) (k + P.repeats S q)

instance (P : SplitPdu) (S : Finset ℕ) (k q : ℕ) : Decidable (P.Overruns S k q) :=
  inferInstanceAs (Decidable (_ ∧ _))

namespace Holding

variable {P : SplitPdu} {k n q : ℕ} {S : Finset ℕ} {f : FragInfo} {env : Dpdk} {a : Arrival}
  {p : Pool} (fragID : ℕ)

lemma stores (h : Holding P (P.reserved env n) S k f) (hq : q < P.count) (ha : P.IsFragment q a)
    (hstart : q = 0 → 0 ∉ S ∧ n = p.allocs ∧ env.allocates n = true)
    (hno : ¬(q ≠ 0 ∧ 0 ∈ S ∧ P.whole.length < P.recvLen (insert q S) (k + P.repeats S q))) :
    ∃ g, Holding P (P.reserved env n) (insert q S) (k + P.repeats S q) g ∧
      (if a.fragType = .start then f.start env fragID a p else f.keep fragID a p) =
        some (g.settle a.now (p.reserveFor q)) := by
  by_cases h₀ : q = 0
  · subst h₀
    obtain ⟨hS, rfl, halloc⟩ := hstart rfl
    rw [if_pos (ha.isStart.mpr rfl)]
    simpa [SplitPdu.repeats, hS, Pool.reserveFor] using h.start hS ha fragID halloc
  · have hkind : a.fragType ≠ .start := fun hc => h₀ (ha.isStart.mp hc)
    rw [if_neg hkind, Pool.reserveFor, if_neg h₀]
    obtain ⟨hS, hlen, -⟩ | ⟨-, hg⟩ := h.keep hq h₀ ha fragID p
    · exact absurd ⟨h₀, hS, hlen⟩ hno
    · exact hg

lemma receive_wait (h : Holding P (P.reserved env n) S k f) (hq : q < P.count)
    (ha : P.IsFragment q a) (hstart : q = 0 → 0 ∉ S ∧ n = p.allocs ∧ env.allocates n = true)
    (hno : ¬P.Overruns S k q) (hS : insert q S ≠ range P.count) :
    ∃ g, Holding P (P.reserved env n) (insert q S) (k + P.repeats S q) g ∧
      f.receive env fragID a p = some (⟨0, none⟩, g, p.reserveFor q) := by
  obtain ⟨g, hg, hstores⟩ := h.stores fragID hq ha hstart
    fun hc => hno ⟨.inl ⟨hc.1, hc.2.1⟩, hc.2.2⟩
  obtain ⟨g', hg', hsettle⟩ := hg.settle_wait hS a.now (p.reserveFor q)
  refine ⟨g', hg', ?_⟩
  rw [FragInfo.receive, hstores, hsettle]
  rfl

lemma receive_full (h : Holding P (P.reserved env n) S k f) (hq : q < P.count)
    (ha : P.IsFragment q a) (hstart : q = 0 → 0 ∉ S ∧ n = p.allocs ∧ env.allocates n = true)
    (hno : ¬P.Overruns S k q) (hS : insert q S = range P.count) :
    ∃ g, g.Free ∧ f.receive env fragID a p =
      some (⟨1, some 0⟩, g, (p.reserveFor q).enqueueEncapRing env (P.delivered env n) 0) := by
  obtain ⟨g, hg, hstores⟩ := h.stores fragID hq ha hstart
    fun hc => hno ⟨.inl ⟨hc.1, hc.2.1⟩, hc.2.2⟩
  have hfit : ¬P.whole.length < P.recvLen (range P.count) (k + P.repeats S q) := by
    rw [← hS]
    exact fun hc => hno ⟨.inr hS, hc⟩
  rw [hS] at hg
  refine ⟨g.reset, hg.free_reset, ?_⟩
  rw [FragInfo.receive, hstores, hg.settle_full]
  simp [hg.finish, hfit]

lemma receive_overrun (h : Holding P (P.reserved env n) S k f) (hq : q < P.count)
    (ha : P.IsFragment q a) (hstart : q = 0 → 0 ∉ S ∧ n = p.allocs ∧ env.allocates n = true)
    (hover : P.Overruns S k q) :
    ∃ r, f.receive env fragID a p = some r ∧ r.1 ≠ ⟨0, none⟩ ∧ r.1 ≠ ⟨1, some 0⟩ := by
  by_cases hc : q ≠ 0 ∧ 0 ∈ S ∧ P.whole.length < P.recvLen (insert q S) (k + P.repeats S q)
  · have hkind : a.fragType ≠ .start := fun ht => hc.1 (ha.isStart.mp ht)
    obtain ⟨-, -, hkeep⟩ | ⟨hno, -⟩ := h.keep hq hc.1 ha fragID p
    · refine ⟨(⟨-1, none⟩, f.reset, p.free (.allocated n)), ?_, by simp, by simp⟩
      rw [FragInfo.receive, if_neg hkind, hkeep]
      rfl
    · exact absurd hc.2 hno
  · obtain ⟨g, hg, hstores⟩ := h.stores fragID hq ha hstart hc
    obtain ⟨⟨h₀, hS⟩ | hS, hlen⟩ := hover
    · exact absurd ⟨h₀, hS, hlen⟩ hc
    · rw [hS] at hg hlen
      refine ⟨(⟨1, some (-1)⟩, g.reset, (p.reserveFor q).free (.allocated n)), ?_, by simp, by simp⟩
      rw [FragInfo.receive, hstores, hg.settle_full]
      simp [hg.finish, hlen]

end Holding

lemma SplitPdu.IsFragment.reassemble {P : SplitPdu} {q : ℕ} {a : Arrival} (ha : P.IsFragment q a)
    (hq : q < P.count) (env : Dpdk) (fragID : ℕ) (c : FragCell) (p : Pool) :
    reassemble env fragID (c, p) a =
      ((c.info (c.select P.stamp).1).receive env fragID a p).map fun t =>
        (((c.select P.stamp).2.set (c.select P.stamp).1 t.2.1, t.2.2), t.1) := by
  have hseq : a.fragType = .start → a.fragSeq = 0 := by
    intro ht
    rw [ha.fragSeq_eq hq, ha.isStart.mp ht]
  rw [reassemble_eq env fragID c p hseq, ha.timeStamp_eq hq]

/-- One buffer holds what has come of the PDU and the other one is free. With time stamp 0,
which free buffers carry too, it is the first buffer. -/
inductive Lone (P : SplitPdu) (m : RteMbuf) (S : Finset ℕ) (k : ℕ) (c : FragCell) : Prop
  | idle (hS : S = ∅) (hk : k = 0) (free : c.Free)
  | busy (b : Fin fragBufferNum) (holds : Holding P m S k (c.info b))
      (free : ∀ i, i ≠ b → (c.info i).Free) (hS : S ≠ ∅) (first : P.stamp = 0 → b = 0)

namespace Lone

variable {P : SplitPdu} {m : RteMbuf} {S : Finset ℕ} {k n q : ℕ} {c : FragCell}

lemma select (h : Lone P m S k c) :
    Holding P m S k (c.info (c.select P.stamp).1) ∧
      (∀ i, i ≠ (c.select P.stamp).1 → (c.info i).Free) ∧
      (P.stamp = 0 → (c.select P.stamp).1 = 0) := by
  cases h with
  | idle hS hk free =>
    subst hS hk
    refine ⟨.of_free (free _), fun i _ => free i, fun h₀ => ?_⟩
    rw [FragCell.select_first (h₀.trans (free 0).timeStamp.symm)]
  | busy b holds free hS first =>
    have hb : P.stamp = (c.info b).timeStamp := by rw [holds.stamp, if_neg hS]
    have hsel : (c.select P.stamp).1 = b := by
      by_cases h₀ : P.stamp = 0
      · rw [first h₀] at hb ⊢
        rw [FragCell.select_first hb]
      · rw [FragCell.select_unique hb fun i hi => by rwa [(free i hi).timeStamp]]
    rw [hsel]
    exact ⟨holds, free, first⟩

lemma of_set {g : FragInfo} {b : Fin fragBufferNum} (hg : Holding P m S k g)
    (hb : c.info b = g) (free : ∀ i, i ≠ b → (c.info i).Free) (hS : S ≠ ∅)
    (first : P.stamp = 0 → b = 0) : Lone P m S k c :=
  .busy b (hb ▸ hg) free hS first

variable {env : Dpdk} {a : Arrival} {p : Pool} (fragID : ℕ)

lemma step_wait (h : Lone P (P.reserved env n) S k c) (hq : q < P.count) (ha : P.IsFragment q a)
    (hstart : q = 0 → 0 ∉ S ∧ n = p.allocs ∧ env.allocates n = true)
    (hno : ¬P.Overruns S k q) (hS : insert q S ≠ range P.count) :
    ∃ c', Lone P (P.reserved env n) (insert q S) (k + P.repeats S q) c' ∧
      reassemble env fragID (c, p) a = some ((c', p.reserveFor q), ⟨0, none⟩) := by
  obtain ⟨holds, free, first⟩ := h.select
  obtain ⟨g, hg, hrec⟩ := holds.receive_wait fragID hq ha hstart hno hS
  refine ⟨(c.select P.stamp).2.set (c.select P.stamp).1 g, ?_, ?_⟩
  · refine .of_set hg (FragCell.set_info _ _ _) (fun i hi => ?_) (insert_ne_empty q S) first
    rw [FragCell.set_info_ne _ hi, FragCell.select_info]
    exact free i hi
  · rw [ha.reassemble hq, hrec]
    rfl

lemma step_full (h : Lone P (P.reserved env n) S k c) (hq : q < P.count) (ha : P.IsFragment q a)
    (hstart : q = 0 → 0 ∉ S ∧ n = p.allocs ∧ env.allocates n = true)
    (hno : ¬P.Overruns S k q) (hS : insert q S = range P.count) :
    ∃ c', c'.Free ∧ reassemble env fragID (c, p) a =
      some ((c', (p.reserveFor q).enqueueEncapRing env (P.delivered env n) 0), ⟨1, some 0⟩) := by
  obtain ⟨holds, free, -⟩ := h.select
  obtain ⟨g, hg, hrec⟩ := holds.receive_full fragID hq ha hstart hno hS
  refine ⟨(c.select P.stamp).2.set (c.select P.stamp).1 g, fun i => ?_, ?_⟩
  · by_cases hi : i = (c.select P.stamp).1
    · rwa [hi, FragCell.set_info]
    · rw [FragCell.set_info_ne _ hi, FragCell.select_info]
      exact free i hi
  · rw [ha.reassemble hq, hrec]
    rfl

lemma step_overrun (h : Lone P (P.reserved env n) S k c) (hq : q < P.count)
    (ha : P.IsFragment q a) (hstart : q = 0 → 0 ∉ S ∧ n = p.allocs ∧ env.allocates n = true)
    (hover : P.Overruns S k q) :
    ∃ r, reassemble env fragID (c, p) a = some r ∧ r.2 ≠ ⟨0, none⟩ ∧ r.2 ≠ ⟨1, some 0⟩ := by
  obtain ⟨holds, -, -⟩ := h.select
  obtain ⟨r, hrec, hr⟩ := holds.receive_overrun fragID hq ha hstart hover
  rw [ha.reassemble hq, hrec]
  exact ⟨_, rfl, hr⟩

end Lone

/-- No arrival of the list overruns, when `S` is there already after `k` repeats of the END. -/
def SplitPdu.Fits (P : SplitPdu) : Finset ℕ → ℕ → List ℕ → Prop
  | _, _, [] => True
  | S, k, q :: is => ¬P.Overruns S k q ∧ P.Fits (insert q S) (k + P.repeats S q) is

instance (P : SplitPdu) : (S : Finset ℕ) → (k : ℕ) → (is : List ℕ) → Decidable (P.Fits S k is)
  | _, _, [] => inferInstanceAs (Decidable True)
  | _, _, _ :: _ => @instDecidableAnd _ _ _ (instDecidableFits P _ _ _)

abbrev SplitPdu.Arrivals (P : SplitPdu) : List ℕ → List Arrival → Prop :=
  List.Forall₂ fun i a => i < P.count ∧ P.IsFragment i a

def answers (n : ℕ) : List Outcome := List.replicate n ⟨0, none⟩ ++ [⟨1, some 0⟩]

/-- The START is there already, or comes once and is given allocation `n`. -/
def StartsOnce (S : Finset ℕ) (n : ℕ) (p : Pool) (is : List ℕ) : Prop :=
  (0 ∈ S ∧ 0 ∉ is) ∨ (0 ∉ S ∧ n = p.allocs ∧ is.count 0 = 1)

namespace StartsOnce

variable {S : Finset ℕ} {n q : ℕ} {p : Pool} {is : List ℕ}

lemma now (h : StartsOnce S n p (q :: is)) (hq : q = 0) : 0 ∉ S ∧ n = p.allocs := by
  subst hq
  obtain ⟨-, hc⟩ | ⟨h₀, hn, -⟩ := h
  · simp at hc
  · exact ⟨h₀, hn⟩

lemma next (h : StartsOnce S n p (q :: is)) : StartsOnce (insert q S) n (p.reserveFor q) is := by
  by_cases hq : q = 0
  · obtain ⟨h₀, -⟩ := h.now hq
    obtain ⟨hc, -⟩ | ⟨-, -, hone⟩ := h
    · exact absurd hc h₀
    · subst hq
      exact .inl ⟨mem_insert_self 0 S, List.count_eq_zero.mp (by simpa using hone)⟩
  · rw [Pool.reserveFor, if_neg hq]
    obtain ⟨h₀, hc⟩ | ⟨h₀, hn, hone⟩ := h
    · exact .inl ⟨mem_insert_of_mem h₀, fun hm => hc (List.mem_cons_of_mem q hm)⟩
    · refine .inr ⟨by simp [h₀, Ne.symm hq], hn, ?_⟩
      rwa [List.count_cons_of_ne hq] at hone

end StartsOnce

def Pool.started (p : Pool) (S : Finset ℕ) : Pool :=
  if 0 ∈ S then p else { p with allocs := p.allocs + 1 }

lemma Pool.started_reserveFor {S : Finset ℕ} {n q : ℕ} {p : Pool} {is : List ℕ}
    (h : StartsOnce S n p (q :: is)) : (p.reserveFor q).started (insert q S) = p.started S := by
  by_cases hq : q = 0
  · subst hq
    simp [started, reserveFor, (h.now rfl).1]
  · simp [started, reserveFor, hq, Ne.symm hq]

section Runs

variable {P : SplitPdu} {env : Dpdk} {l : ℕ} (fragID : ℕ)

lemma insert_ne_range {S T : Finset ℕ} {q : ℕ} (hfull : insert l T = range P.count) (hl : l ∉ S)
    (hlq : l ≠ q) : insert q S ≠ range P.count := by
  intro hc
  have : l ∈ insert q S := hc ▸ hfull ▸ mem_insert_self l T
  simp [hlq, hl] at this

lemma run_fits (halloc : ∀ i, env.allocates i = true) {js : List ℕ} {as : List Arrival}
    (has : P.Arrivals (js ++ [l]) as) {S : Finset ℕ} {k n : ℕ} {c : FragCell} {p : Pool}
    (h : Lone P (P.reserved env n) S k c) (hl : l ∉ S ∧ l ∉ js)
    (hfull : insert l (S ∪ js.toFinset) = range P.count) (hstart : StartsOnce S n p (js ++ [l]))
    (hfits : P.Fits S k (js ++ [l])) :
    ∃ c', c'.Free ∧ run (reassemble env fragID) (c, p) as =
      some ((c', (p.started S).enqueueEncapRing env (P.delivered env n) 0), answers js.length) := by
  induction js generalizing as S k c p with
  | nil =>
    obtain ⟨a, as, ⟨hq, ha⟩, hnil, rfl⟩ := List.forall₂_cons_left_iff.mp has
    obtain rfl := List.forall₂_nil_left_iff.mp hnil
    have hS : insert l S = range P.count := by simpa using hfull
    obtain ⟨c', hc', hstep⟩ := h.step_full fragID hq ha
      (fun h₀ => ⟨(hstart.now h₀).1, (hstart.now h₀).2, halloc n⟩) hfits.1 hS
    have h₀ : 0 ∈ insert l S := by
      rw [hS, mem_range]
      have := P.two_le
      omega
    refine ⟨c', hc', ?_⟩
    rw [run_cons_some _ _ hstep, ← Pool.started_reserveFor hstart, Pool.started, if_pos h₀]
    rfl
  | cons q js ih =>
    obtain ⟨a, as, ⟨hq, ha⟩, htail, rfl⟩ := List.forall₂_cons_left_iff.mp has
    have hlq : l ≠ q ∧ l ∉ js := by simpa using hl.2
    have hS := insert_ne_range hfull hl.1 hlq.1
    obtain ⟨c₁, h₁, hstep⟩ := h.step_wait fragID hq ha
      (fun h₀ => ⟨(hstart.now h₀).1, (hstart.now h₀).2, halloc n⟩) hfits.1 hS
    obtain ⟨c', hc', hrun⟩ := ih htail h₁ ⟨by simp [hlq.1, hl.1], hlq.2⟩
      (by rw [← hfull, List.toFinset_cons, insert_union, union_insert]) hstart.next hfits.2
    refine ⟨c', hc', ?_⟩
    rw [run_cons_some _ _ hstep, hrun, Pool.started_reserveFor hstart]
    rfl

lemma fits_of_run (halloc : ∀ i, env.allocates i = true) {js : List ℕ} {as : List Arrival}
    (has : P.Arrivals (js ++ [l]) as) {S : Finset ℕ} {k n : ℕ} {c : FragCell} {p : Pool}
    (h : Lone P (P.reserved env n) S k c) (hl : l ∉ S ∧ l ∉ js)
    (hfull : insert l (S ∪ js.toFinset) = range P.count) (hstart : StartsOnce S n p (js ++ [l]))
    {t : FragCell × Pool} {os : List Outcome}
    (hrun : run (reassemble env fragID) (c, p) as = some (t, os))
    (hos : ∀ o ∈ os, o = ⟨0, none⟩ ∨ o = ⟨1, some 0⟩) : P.Fits S k (js ++ [l]) := by
  induction js generalizing as S k c p os with
  | nil =>
    obtain ⟨a, as, ⟨hq, ha⟩, hnil, rfl⟩ := List.forall₂_cons_left_iff.mp has
    obtain rfl := List.forall₂_nil_left_iff.mp hnil
    refine ⟨fun hover => ?_, trivial⟩
    obtain ⟨r, hstep, hr⟩ := h.step_overrun fragID hq ha
      (fun h₀ => ⟨(hstart.now h₀).1, (hstart.now h₀).2, halloc n⟩) hover
    obtain ⟨s', o, os', hs, -, rfl⟩ := (run_cons_eq_some _).mp hrun
    obtain rfl := Option.some.inj (hstep.symm.trans hs)
    have := hos o (List.mem_cons_self ..)
    tauto
  | cons q js ih =>
    obtain ⟨a, as, ⟨hq, ha⟩, htail, rfl⟩ := List.forall₂_cons_left_iff.mp has
    have hlq : l ≠ q ∧ l ∉ js := by simpa using hl.2
    have hS := insert_ne_range hfull hl.1 hlq.1
    have hready : q = 0 → 0 ∉ S ∧ n = p.allocs ∧ env.allocates n = true :=
      fun h₀ => ⟨(hstart.now h₀).1, (hstart.now h₀).2, halloc n⟩
    obtain ⟨s', o, os', hs, hrest, rfl⟩ := (run_cons_eq_some _).mp hrun
    have hno : ¬P.Overruns S k q := by
      intro hover
      obtain ⟨r, hstep, hr⟩ := h.step_overrun fragID hq ha hready hover
      obtain rfl := Option.some.inj (hstep.symm.trans hs)
      have := hos o (List.mem_cons_self ..)
      tauto
    obtain ⟨c₁, h₁, hstep⟩ := h.step_wait fragID hq ha hready hno hS
    obtain ⟨rfl, rfl⟩ := Prod.mk.inj (Option.some.inj (hstep.symm.trans hs))
    exact ⟨hno, ih htail h₁ ⟨by simp [hlq.1, hl.1], hlq.2⟩
      (by rw [← hfull, List.toFinset_cons, insert_union, union_insert]) hstart.next hrest
      fun o ho => hos o (List.mem_cons_of_mem _ ho)⟩

end Runs

end Fengtai.Receive
