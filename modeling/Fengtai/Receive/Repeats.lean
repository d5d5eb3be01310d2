import Fengtai.Receive.Cases
import Fengtai.Receive.Delivery

set_option autoImplicit false

/-! Arrivals in any order, and with repeated fragments. -/

namespace Fengtai.Receive

open Library Library.Words Library.Runs Crc Finset

variable {P : SplitPdu} {env : Dpdk} {fragID : ℕ}

lemma run_allocs {is : List ℕ} {as : List Arrival} (has : P.Arrivals is as) {c : FragCell}
    {p : Pool} {t : FragCell × Pool} {os : List Outcome}
    (h : run (reassemble env fragID) (c, p) as = some (t, os)) :
    t.2.allocs = p.allocs + is.count 0 := by
  induction has generalizing c p os with
  | nil =>
    obtain ⟨rfl, -⟩ := Prod.mk.inj (Option.some.inj h)
    rfl
  | @cons i a is as hia _ ih =>
    obtain ⟨s, o, os', hs, hrest, -⟩ := (run_cons_eq_some _).mp h
    rw [hia.2.reassemble hia.1] at hs
    obtain ⟨r, hr, hs⟩ := Option.map_eq_some_iff.mp hs
    have hone := FragInfo.receive_allocs hr
    obtain ⟨rfl, -⟩ := Prod.mk.inj hs
    rw [ih hrest, hone, List.count_cons]
    simp only [hia.2.isStart, beq_iff_eq]
    omega

def Pool.withPdu (p : Pool) (env : Dpdk) (P : SplitPdu) : Pool :=
  { p with
    allocs := p.allocs + 1
    enqueues := p.enqueues + 1
    ring := p.ring ++ [(0, P.delivered env p.allocs)] }

lemma Lone.of_free {c : FragCell} (hc : c.Free) (m : RteMbuf) : Lone P m ∅ 0 c := .idle rfl rfl hc

lemma Pool.started_empty {p : Pool} (henq : ∀ i, env.enqueues i = true) :
    (p.started ∅).enqueueEncapRing env (P.delivered env p.allocs) 0 = p.withPdu env P := by
  simp [started, enqueueEncapRing, henq, withPdu]

lemma startsOnce_empty {p : Pool} {is : List ℕ} (h : is.count 0 = 1) :
    StartsOnce ∅ p.allocs p is := .inr ⟨by simp, rfl, h⟩

lemma SplitPdu.fits_of_nodup {is : List ℕ} (hn : is.Nodup) (hlt : ∀ i ∈ is, i < P.count)
    {S : Finset ℕ} (hS : S ⊆ range P.count) (hd : ∀ i ∈ is, i ∉ S) : P.Fits S 0 is := by
  induction is generalizing S with
  | nil => trivial
  | cons q is ih =>
    have hsub : insert q S ⊆ range P.count :=
      insert_subset (mem_range.mpr (hlt q (List.mem_cons_self ..))) hS
    have hrep : P.repeats S q = 0 := by simp [repeats, hd q (List.mem_cons_self ..)]
    refine ⟨fun hover => ?_, ?_⟩
    · have hle := P.received_le hsub
      have := hover.2
      rw [hrep, recvLen_zero hsub] at this
      omega
    · rw [hrep]
      refine ih (List.nodup_cons.mp hn).2 (fun i hi => hlt i (List.mem_cons_of_mem q hi)) hsub ?_
      intro i hi hm
      obtain rfl | hm := mem_insert.mp hm
      · exact (List.nodup_cons.mp hn).1 hi
      · exact hd i (List.mem_cons_of_mem q hi) hm

lemma run_perm (fragID : ℕ) (halloc : ∀ i, env.allocates i = true)
    (henq : ∀ i, env.enqueues i = true) {is : List ℕ} {as : List Arrival}
    (hperm : is.Perm (List.range P.count)) (has : P.Arrivals is as) {c : FragCell} (hc : c.Free)
    (p : Pool) :
    ∃ c', c'.Free ∧ run (reassemble env fragID) (c, p) as =
      some ((c', p.withPdu env P), answers (P.count - 1)) := by
  have hn := P.two_le
  have hlen : is.length = P.count := by simpa using hperm.length_eq
  have hnodup : is.Nodup := hperm.nodup_iff.mpr List.nodup_range
  have hlt : ∀ i ∈ is, i < P.count := fun i hi => List.mem_range.mp (hperm.mem_iff.mp hi)
  obtain rfl | ⟨js, l, rfl⟩ := is.eq_nil_or_concat'
  · simp at hlen
    omega
  have hfull : insert l js.toFinset = range P.count := by
    ext i
    simp [← List.mem_range, ← hperm.mem_iff, or_comm]
  have hjs : js.length = P.count - 1 := by
    simp at hlen
    omega
  have hl : l ∉ js := fun hm => by
    rw [List.nodup_append] at hnodup
    exact hnodup.2.2 l hm l (by simp) rfl
  have hone : (js ++ [l]).count 0 = 1 :=
    List.count_eq_one_of_mem hnodup (hperm.mem_iff.mpr (List.mem_range.mpr (by omega)))
  obtain ⟨c', hc', hrun⟩ := run_fits fragID halloc has (Lone.of_free hc _)
    ⟨by simp, hl⟩ (by simpa using hfull) (startsOnce_empty hone)
    (P.fits_of_nodup hnodup hlt (by simp) (by simp))
  exact ⟨c', hc', by rw [hrun, Pool.started_empty henq, hjs]⟩

/-- Fragments in any order are delivered by the last of them. -/
theorem any_order_delivers (halloc : ∀ i, env.allocates i = true)
    (henq : ∀ i, env.enqueues i = true) {is : List ℕ} {as : List Arrival}
    (hperm : is.Perm (List.range P.count)) (has : P.Arrivals is as) {c : FragCell} (hc : c.Free)
    (p : Pool) :
    ∃ c', c'.Free ∧ run (reassemble env fragID) (c, p) as =
        some ((c', p.withPdu env P), answers (P.count - 1)) ∧
      (P.delivered env p.allocs).bytes = P.whole ∧
      (P.delivered env p.allocs).protocolType = P.protocolType := by
  obtain ⟨c', hc', hrun⟩ := run_perm fragID halloc henq hperm has hc p
  exact ⟨c', hc', hrun, P.delivered_bytes env _, rfl⟩

def samplePdu (stamp : ℕ) (h : stamp < 8192) : SplitPdu :=
  .twoParts stamp 0x0800 [69, 1, 2, 3, 4] [5] h (by decide) (by decide) (by decide)

lemma FragCell.free_initial : FragCell.initial.Free := fun _ => FragInfo.free_initial

/-- The END of the sample first, then its START. -/
theorem any_order_delivers_end_first :
    ∃ c' : FragCell, c'.Free ∧
      run (reassemble .willing 7) (.initial, .fresh)
          [(samplePdu 9 (by decide)).arrival 1, (samplePdu 9 (by decide)).arrival 0] =
        some ((c', Pool.fresh.withPdu .willing (samplePdu 9 (by decide))), answers 1) ∧
      ((samplePdu 9 (by decide)).delivered .willing 0).bytes = [69, 1, 2, 3, 4, 5] ∧
      ((samplePdu 9 (by decide)).delivered .willing 0).protocolType = 0x0800 :=
  any_order_delivers (fun _ => rfl) (fun _ => rfl) (show [1, 0].Perm (List.range 2) by decide)
    (.cons ⟨by decide, SplitPdu.arrival_isFragment 1⟩
      (.cons ⟨by decide, SplitPdu.arrival_isFragment 0⟩ .nil))
    FragCell.free_initial .fresh

/-- Repeats do no harm exactly when the START is not among them and the repeats of the END
leave the recorded length below the PDU's. -/
theorem repeats_tolerated_iff (js : List ℕ) (l : ℕ) (halloc : ∀ i, env.allocates i = true)
    (henq : ∀ i, env.enqueues i = true) {as : List Arrival} (hl : l ∉ js)
    (hfull : (js ++ [l]).toFinset = range P.count) (has : P.Arrivals (js ++ [l]) as)
    {c : FragCell} (hc : c.Free) (p : Pool) :
    (∃ c', c'.Free ∧ run (reassemble env fragID) (c, p) as =
      some ((c', p.withPdu env P), answers js.length)) ↔
    (js ++ [l]).count 0 = 1 ∧ P.Fits ∅ 0 (js ++ [l]) := by
  have hfull' : insert l (∅ ∪ js.toFinset) = range P.count := by
    rw [← hfull]
    ext
    simp
  constructor
  · rintro ⟨c', -, hrun⟩
    have hone : (js ++ [l]).count 0 = 1 := by
      have := run_allocs has hrun
      simp only [Pool.withPdu] at this
      omega
    refine ⟨hone, fits_of_run fragID halloc has (Lone.of_free hc _) ⟨by simp, hl⟩ hfull'
      (startsOnce_empty hone) hrun fun o ho => ?_⟩
    obtain ho | ho := List.mem_append.mp ho
    · exact .inl (List.eq_of_mem_replicate ho)
    · exact .inr (List.mem_singleton.mp ho)
  · rintro ⟨hone, hfits⟩
    obtain ⟨c', hc', hrun⟩ := run_fits fragID halloc has (Lone.of_free hc _)
      ⟨by simp, hl⟩ hfull' (startsOnce_empty hone) hfits
    exact ⟨c', hc', by rw [hrun, Pool.started_empty henq]⟩

theorem repeats_tolerated_iff_end_twice :
    (∃ c' : FragCell, c'.Free ∧
      run (reassemble .willing 7) (.initial, .fresh)
          ([1, 1, 0].map (samplePdu 9 (by decide)).arrival) =
        some ((c', Pool.fresh.withPdu .willing (samplePdu 9 (by decide))), answers 2)) ↔
    ([1, 1] ++ [0]).count 0 = 1 ∧ (samplePdu 9 (by decide)).Fits ∅ 0 ([1, 1] ++ [0]) :=
  repeats_tolerated_iff [1, 1] 0 (fun _ => rfl) (fun _ => rfl) (by decide) (by decide)
    (.cons ⟨by decide, SplitPdu.arrival_isFragment 1⟩
      (.cons ⟨by decide, SplitPdu.arrival_isFragment 1⟩
        (.cons ⟨by decide, SplitPdu.arrival_isFragment 0⟩ .nil)))
    FragCell.free_initial .fresh

example : (samplePdu 9 (by decide)).Fits ∅ 0 [1, 1, 0] := by decide

/-- A repeated START: the counter of fragments falls behind and the PDU is never completed. -/
theorem repeated_start_never_completes :
    (samplePdu 9 (by decide)).Arrivals ([0, 0] ++ [1])
      ([0, 0, 1].map (samplePdu 9 (by decide)).arrival) ∧
    ([0, 0] ++ [1]).toFinset = range (samplePdu 9 (by decide)).count ∧
    (run (reassemble .willing 7) (.initial, .fresh)
        ([0, 0, 1].map (samplePdu 9 (by decide)).arrival)).map Prod.snd =
      some [⟨0, none⟩, ⟨0, none⟩, ⟨0, none⟩] := by
  refine ⟨?_, by decide, by decide⟩
  exact .cons ⟨by decide, SplitPdu.arrival_isFragment 0⟩
    (.cons ⟨by decide, SplitPdu.arrival_isFragment 0⟩
      (.cons ⟨by decide, SplitPdu.arrival_isFragment 1⟩ .nil))

end Fengtai.Receive
