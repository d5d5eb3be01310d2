import Fengtai.Receive.Interleaving

set_option autoImplicit false

/-! The interleavings that lose the PDU with time stamp 0: its fragments end up
in two buffers. -/

namespace Fengtai.Receive

open Library Library.Words Library.Runs Crc Finset

variable {pdu : Bool → SplitPdu} {env : Dpdk} {fragID : ℕ}

namespace FragInfo

variable {a : Arrival} {f g : FragInfo} {p p' : Pool}

lemma receive_waits (h : f.receive env fragID a p = some (⟨0, none⟩, g, p')) :
    g.timeStamp = a.timeStamp := by
  obtain ⟨r, hr, ⟨-, ht⟩ | ⟨-, d, -, ht⟩⟩ := receive_cases h
  · simp only [Prod.mk.injEq, Outcome.mk.injEq] at ht
    obtain ⟨⟨hcode, -⟩, rfl, -⟩ := ht
    split_ifs at hr with hkind
    · obtain ⟨g, q, -, -, ⟨-, rfl⟩ | ⟨-, -, rfl⟩ | ⟨-, -, rfl⟩⟩ := start_cases hr
      · exact absurd hcode (by norm_num)
      · exact absurd hcode (by norm_num)
      · rw [settle_timeStamp]
        rfl
    · obtain ⟨hs, ⟨-, rfl⟩ | ⟨-, -, rfl⟩⟩ := keep_cases hr
      · exact absurd hcode (by norm_num)
      · rw [settle_timeStamp]
        rfl
  · simp at ht

lemma receive_done (h : f.receive env fragID a p = some (⟨1, some 0⟩, g, p')) : g.Free := by
  obtain ⟨r, -, ⟨-, ht⟩ | ⟨-, d, hd, ht⟩⟩ := receive_cases h
  · simp at ht
  · simp only [Prod.mk.injEq, Outcome.mk.injEq, Option.some.injEq, true_and] at ht
    obtain ⟨hret, rfl, -⟩ := ht
    obtain ⟨hinfo, ⟨-, hc, -⟩ | ⟨m, -, ⟨hc, -⟩ | ⟨_, _, -, -, -, htype, -, -⟩⟩⟩ :=
      finishReassemblePdu_cases hd
    · omega
    · omega
    · rw [hinfo]
      exact ⟨rfl, htype⟩

end FragInfo

lemma reassemble_inv {P : SplitPdu} {q : ℕ} {a : Arrival}
    (ha : P.IsFragment q a) (hq : q < P.count) {c : FragCell} {p : Pool} {s : FragCell × Pool}
    {o : Outcome} (h : reassemble env fragID (c, p) a = some (s, o)) :
    ∃ g, (c.info (c.select P.stamp).1).receive env fragID a p = some (o, g, s.2) ∧
      s.1 = (c.select P.stamp).2.set (c.select P.stamp).1 g := by
  rw [ha.reassemble hq] at h
  obtain ⟨⟨o', g, p'⟩, hr, hs⟩ := Option.map_eq_some_iff.mp h
  obtain ⟨rfl, rfl⟩ := Prod.mk.inj hs
  exact ⟨g, hr, rfl⟩

lemma run_waits (I : FragCell → Prop) {u r : List Tagged} (hu : ∀ x ∈ u, x.1 ∈ tags r)
    (hI : ∀ x ∈ u, ∀ a c p s, x.2 < (pdu x.1).count → (pdu x.1).IsFragment x.2 a → I c →
      reassemble env fragID (c, p) a = some (s, ⟨0, none⟩) → I s.1)
    {as : List Arrival} (has : PairArrivals pdu (u ++ r) as) {c : FragCell} (hc : I c) {p : Pool}
    {t : FragCell × Pool}
    (hrun : run (reassemble env fragID) (c, p) as = some (t, answersOf (u ++ r))) :
    ∃ c₁ p₁ as₁, I c₁ ∧ PairArrivals pdu r as₁ ∧
      run (reassemble env fragID) (c₁, p₁) as₁ = some (t, answersOf r) := by
  induction u generalizing as c p with
  | nil => exact ⟨c, p, as, hc, has, hrun⟩
  | cons x u ih =>
    obtain ⟨a, as, hx, htail, rfl⟩ := List.forall₂_cons_left_iff.mp has
    have hlater : x.1 ∈ tags (u ++ r) := by
      rw [tags_append]
      exact List.mem_append_right _ (hu x (List.mem_cons_self ..))
    rw [List.cons_append, answersOf, if_pos hlater] at hrun
    obtain ⟨s, o, os, hstep, hrest, hos⟩ := (run_cons_eq_some _).mp hrun
    obtain ⟨rfl, rfl⟩ := List.cons.inj hos
    exact ih (fun y hy => hu y (List.mem_cons_of_mem _ hy))
      (fun y hy => hI y (List.mem_cons_of_mem _ hy)) htail
      (hI x (List.mem_cons_self ..) a c p s hx.1 hx.2 hc hstep) hrest

section Lost

variable {z : Bool} {T : Finset ℕ} {n y : ℕ}

lemma waits_of_lost (halloc : ∀ i, env.allocates i = true) {b : Fin fragBufferNum} {c : FragCell}
    {i : ℕ} {a : Arrival} {p : Pool} {s : FragCell × Pool} {o : Outcome}
    (hold : Holding (pdu z) ((pdu z).reserved env n) T 0 (c.info b))
    (hsel : c.select (pdu z).stamp = (b, c)) (hi : i < (pdu z).count) (hiT : i ∉ T)
    (ha : (pdu z).IsFragment i a) (hy : y < (pdu z).count) (hyT : y ∉ T) (hyi : y ≠ i)
    (hstep : reassemble env fragID (c, p) a = some (s, o)) :
    o = ⟨0, none⟩ ∧ ∃ g n', s.1 = c.set b g ∧
      Holding (pdu z) ((pdu z).reserved env n') (insert i T) 0 g := by
  have hshort : insert i T ≠ range (pdu z).count := by
    intro hc
    have : y ∈ insert i T := hc ▸ mem_range.mpr hy
    simp [hyi, hyT] at this
  obtain ⟨n', hwait, -⟩ := hold.receive_new (p := p) fragID halloc hi hiT ha
  obtain ⟨g, hg, hrec⟩ := hwait hshort
  obtain ⟨g', hr, hs⟩ := reassemble_inv ha hi hstep
  rw [hsel] at hr hs
  rw [hrec] at hr
  rw [Option.some.injEq, Prod.mk.injEq, Prod.mk.injEq] at hr
  obtain ⟨rfl, rfl, -⟩ := hr
  exact ⟨rfl, g, n', hs, hg⟩

variable (halloc : ∀ i, env.allocates i = true)
include halloc

lemma lost_in_first (hz : (pdu z).stamp = 0) {v : List Tagged} (hv : ∀ x ∈ v, x.1 = z)
    (hv₀ : v ≠ []) (hnodup : v.Nodup) {as : List Arrival} (has : PairArrivals pdu v as)
    {c : FragCell} (hold : Holding (pdu z) ((pdu z).reserved env n) T 0 (c.info 0))
    (hT : ∀ x ∈ v, x.2 ∉ T) (hy : y < (pdu z).count) (hyT : y ∉ T) (hyv : (z, y) ∉ v) (p : Pool)
    (t : FragCell × Pool) : run (reassemble env fragID) (c, p) as ≠ some (t, answersOf v) := by
  intro hrun
  induction v generalizing as c p T n with
  | nil => exact hv₀ rfl
  | cons x v ih =>
    obtain ⟨a, as, ⟨hi, ha⟩, htail, rfl⟩ := List.forall₂_cons_left_iff.mp has
    obtain ⟨s, o, os, hstep, hrest, hos⟩ := (run_cons_eq_some _).mp hrun
    obtain ⟨rfl, rfl⟩ := List.cons.inj hos
    obtain ⟨hxv, hnodup⟩ := List.nodup_cons.mp hnodup
    have hxz : x.1 = z := hv x (List.mem_cons_self ..)
    rw [hxz] at hi ha
    have hyx : y ≠ x.2 := fun hc => hyv (by rw [hc, ← hxz]; exact List.mem_cons_self ..)
    have hsel : c.select (pdu z).stamp = (0, c) := by
      refine FragCell.select_first ?_
      rw [hold.stamp, hz, ite_self]
    obtain ⟨hwait, g, n', hs, hg⟩ := waits_of_lost halloc hold hsel hi
      (hT x (List.mem_cons_self ..)) ha hy hyT hyx hstep
    have hmore : z ∈ tags v := by
      rw [hxz] at hwait
      by_contra hc
      simp [hc] at hwait
    refine ih (fun w hw => hv w (List.mem_cons_of_mem _ hw)) ?_ hnodup htail
      (by rw [hs, FragCell.set_info]; exact hg) (fun w hw hc => ?_) ?_
      (fun hc => hyv (List.mem_cons_of_mem _ hc)) s.2 hrest
    · rintro rfl
      simp at hmore
    · obtain hwx | hwT := mem_insert.mp hc
      · have : w = x := Prod.ext ((hv w (List.mem_cons_of_mem _ hw)).trans hxz.symm) hwx
        exact hxv (this ▸ hw)
      · exact hT w (List.mem_cons_of_mem _ hw) hwT
    · simp [hyx, hyT]

lemma lost_in_second (hz : (pdu z).stamp = 0) (ho : (pdu !z).stamp ≠ 0) {r : List Tagged}
    (hlast : ∀ x ∈ r.getLast?, x.1 = !z) (hmem : z ∈ tags r) (hnodup : r.Nodup)
    {as : List Arrival} (has : PairArrivals pdu r as) {c : FragCell}
    (hfirst : (c.info 0).timeStamp = (pdu !z).stamp)
    (hold : Holding (pdu z) ((pdu z).reserved env n) T 0 (c.info 1))
    (hT : ∀ i, (z, i) ∈ r → i ∉ T) (hy : y < (pdu z).count) (hyT : y ∉ T) (hyr : (z, y) ∉ r)
    (p : Pool) (t : FragCell × Pool) :
    run (reassemble env fragID) (c, p) as ≠ some (t, answersOf r) := by
  intro hrun
  induction r generalizing as c p T n with
  | nil => simp at hmem
  | cons x r ih =>
    obtain ⟨a, as, ⟨hi, ha⟩, htail, rfl⟩ := List.forall₂_cons_left_iff.mp has
    obtain ⟨s, o, os, hstep, hrest, hos⟩ := (run_cons_eq_some _).mp hrun
    obtain ⟨rfl, rfl⟩ := List.cons.inj hos
    obtain ⟨hxr, hnodup⟩ := List.nodup_cons.mp hnodup
    have hlast' : ∀ w ∈ r.getLast?, w.1 = !z := by
      intro w hw
      refine hlast w ?_
      obtain ⟨v, rfl⟩ := List.getLast?_eq_some_iff.mp hw
      rw [← List.cons_append, List.getLast?_append]
      rfl
    by_cases hxz : x.1 = z
    · have hsel : c.select (pdu z).stamp = (1, c) := by
        refine FragCell.select_second ?_ ?_
        · rw [hfirst, hz]
          exact Ne.symm ho
        · rw [hold.stamp, hz, ite_self]
      rw [hxz] at hi ha
      have hx : x = (z, x.2) := Prod.ext hxz rfl
      have hyx : y ≠ x.2 := fun hc => hyr (by rw [hc, ← hx]; exact List.mem_cons_self ..)
      obtain ⟨hwait, g, n', hs, hg⟩ := waits_of_lost halloc hold hsel hi
        (hT x.2 (hx ▸ List.mem_cons_self ..)) ha hy hyT hyx hstep
      have hmore : z ∈ tags r := by
        rw [hxz] at hwait
        by_contra hc
        simp [hc] at hwait
      refine ih hlast' hmore hnodup htail ?_ (by rw [hs, FragCell.set_info]; exact hg)
        (fun j hj hc => ?_) (by simp [hyx, hyT]) (fun hc => hyr (List.mem_cons_of_mem _ hc)) s.2
        hrest
      · rwa [hs, FragCell.set_info_ne _ (by decide)]
      · obtain rfl | hjT := mem_insert.mp hc
        · exact hxr (hx ▸ hj)
        · exact hT j (List.mem_cons_of_mem _ hj) hjT
    · have hxo : x.1 = !z := Bool.eq_not.mpr hxz
      have hmore : z ∈ tags r := by simpa [Ne.symm hxz] using hmem
      have hother : x.1 ∈ tags r := by
        cases hr : r.getLast? with
        | none => simp [List.getLast?_eq_none_iff.mp hr] at hmore
        | some w =>
          rw [hxo, ← hlast' w hr]
          exact List.mem_map_of_mem (List.mem_of_getLast? hr)
      rw [if_pos hother] at hstep
      rw [hxo] at hi ha
      obtain ⟨g, hr, hs⟩ := reassemble_inv ha hi hstep
      rw [FragCell.select_first hfirst.symm] at hr hs
      refine ih (n := n) hlast' hmore hnodup htail ?_ ?_
        (fun j hj => hT j (List.mem_cons_of_mem _ hj)) hyT (fun hc => hyr (List.mem_cons_of_mem _ hc)) s.2 hrest
      · rw [hs, FragCell.set_info, FragInfo.receive_waits hr, ha.timeStamp_eq hi]
      · rwa [hs, FragCell.set_info_ne _ one_ne_zero]

end Lost

lemma split_first {α : Type*} {p : α → Prop} {w : List α} (h : ∃ x ∈ w, p x) :
    ∃ u x v, w = u ++ x :: v ∧ p x ∧ ∀ y ∈ u, ¬p y := by
  induction w with
  | nil => simp at h
  | cons x w ih =>
    by_cases hx : p x
    · exact ⟨[], x, w, rfl, hx, by simp⟩
    · obtain ⟨u, y, v, rfl, hy, hu⟩ := ih (by simpa [hx] using h)
      exact ⟨x :: u, y, v, rfl, hy, by simpa [hx] using hu⟩

lemma split_last {α : Type*} {p : α → Prop} {w : List α} (h : ∃ x ∈ w, p x) :
    ∃ u x v, w = u ++ x :: v ∧ p x ∧ ∀ y ∈ v, ¬p y := by
  obtain ⟨u, x, v, hw, hx, hu⟩ := split_first (w := w.reverse) (by simpa using h)
  refine ⟨v.reverse, x, u.reverse, ?_, hx, by simpa using hu⟩
  rw [← w.reverse_reverse, hw]
  simp

section Failure

variable {z : Bool} {c : FragCell} {p : Pool} {as : List Arrival} {t : FragCell × Pool}

lemma other_takes_first (hz : (pdu z).stamp = 0) (ho : (pdu !z).stamp ≠ 0) (hc : c.Free)
    (hhead : c.indexList.header = 0) {u r : List Tagged} {x : Tagged} (hu : ∀ y ∈ u, y.1 = z)
    (hx : x.1 = !z) (hzr : u ≠ [] → z ∈ tags r) (hor : (!z) ∈ tags r)
    (has : PairArrivals pdu (u ++ x :: r) as)
    (hrun : run (reassemble env fragID) (c, p) as = some (t, answersOf (u ++ x :: r))) :
    ∃ c₁ p₁ as₁, (c₁.info 0).timeStamp = (pdu !z).stamp ∧ (c₁.info 1).Free ∧
      PairArrivals pdu r as₁ ∧ run (reassemble env fragID) (c₁, p₁) as₁ = some (t, answersOf r) := by
  have hlater : ∀ y ∈ u, y.1 ∈ tags (x :: r) := by
    intro y hy
    rw [hu y hy, tags_cons]
    exact List.mem_cons_of_mem _ (hzr (List.ne_nil_of_mem hy))
  obtain ⟨c₁, p₁, as₁, ⟨h₀, h₁, hh⟩, has₁, hrun₁⟩ := run_waits
    (fun c => (c.info 0).timeStamp = 0 ∧ (c.info 1).Free ∧ c.indexList.header = 0) hlater
    (by
      rintro y hy a c p s hi ha ⟨h₀, h₁, hh⟩ hstep
      rw [hu y hy] at hi ha
      obtain ⟨g, hr, hs⟩ := reassemble_inv ha hi hstep
      rw [FragCell.select_first (hz.trans h₀.symm)] at hr hs
      rw [hs]
      refine ⟨?_, ?_, hh⟩
      · rw [FragCell.set_info, FragInfo.receive_waits hr, ha.timeStamp_eq hi, hz]
      · rwa [FragCell.set_info_ne _ one_ne_zero])
    has ⟨(hc 0).timeStamp, hc 1, hhead⟩ hrun
  obtain ⟨a, as, ⟨hi, ha⟩, htail, rfl⟩ := List.forall₂_cons_left_iff.mp has₁
  obtain ⟨s, o, os, hstep, hrest, hos⟩ := (run_cons_eq_some _).mp hrun₁
  obtain ⟨rfl, rfl⟩ := List.cons.inj hos
  rw [hx] at hi ha hstep
  rw [if_pos hor] at hstep
  obtain ⟨g, hr, hs⟩ := reassemble_inv ha hi hstep
  have hmiss : ∀ i, (pdu !z).stamp ≠ (c₁.info i).timeStamp := by
    intro i
    fin_cases i
    · exact h₀ ▸ ho
    · exact h₁.timeStamp ▸ ho
  rw [FragCell.select_miss hmiss, hh] at hr hs
  refine ⟨s.1, s.2, as, ?_, ?_, htail, hrest⟩
  · rw [hs, FragCell.set_info, FragInfo.receive_waits hr, ha.timeStamp_eq hi]
  · rwa [hs, FragCell.set_info_ne _ one_ne_zero]

lemma eq_not_of_ne {b t : Bool} (h : b ≠ t) : b = !t := by
  cases b <;> cases t <;> simp_all

lemma getLast?_append_cons {u r : List Tagged} {x y : Tagged} (h : y ∈ r.getLast?) :
    y ∈ (u ++ x :: r).getLast? := by
  obtain ⟨v, rfl⟩ := List.getLast?_eq_some_iff.mp h
  rw [← List.cons_append, ← List.append_assoc, List.getLast?_append]
  rfl

lemma stamps_stay (hz : (pdu z).stamp = 0) (ho : (pdu !z).stamp ≠ 0) {x : Tagged} {a : Arrival}
    {s : FragCell × Pool} (hi : x.2 < (pdu x.1).count) (ha : (pdu x.1).IsFragment x.2 a)
    (h : (c.info 0).timeStamp = (pdu !z).stamp ∧ (c.info 1).timeStamp = 0)
    (hstep : reassemble env fragID (c, p) a = some (s, ⟨0, none⟩)) :
    (s.1.info 0).timeStamp = (pdu !z).stamp ∧ (s.1.info 1).timeStamp = 0 := by
  obtain ⟨g, hr, hs⟩ := reassemble_inv ha hi hstep
  have hg := FragInfo.receive_waits hr
  rw [ha.timeStamp_eq hi] at hg
  by_cases hx : x.1 = z
  · rw [hx, FragCell.select_second (by rw [hz, h.1]; exact ho.symm) (by rw [hz, h.2])] at hs
    rw [hx, hz] at hg
    rw [hs, FragCell.set_info, FragCell.set_info_ne _ zero_ne_one]
    exact ⟨h.1, hg⟩
  · rw [eq_not_of_ne hx, FragCell.select_first h.1.symm] at hs
    rw [eq_not_of_ne hx] at hg
    rw [hs, FragCell.set_info, FragCell.set_info_ne _ one_ne_zero]
    exact ⟨hg, h.2⟩

variable (hz : (pdu z).stamp = 0) (ho : (pdu !z).stamp ≠ 0) (hc : c.Free)
  (hhead : c.indexList.header = 0) (halloc : ∀ i, env.allocates i = true) {w : List Tagged}
  (hw : Missing pdu (fun _ => ∅) w) (has : PairArrivals pdu w as) (hseq : ¬Sequential w)
include hz ho hc hhead halloc hw has hseq

lemma not_delivered_of_last {u v : List Tagged} {x : Tagged} (hsplit : w = u ++ x :: v)
    (hx : x.1 = !z) (hv : ∀ y ∈ v, y.1 = z) (hv₀ : v ≠ []) :
    run (reassemble env fragID) (c, p) as ≠ some (t, answersOf w) := by
  intro hrun
  subst hsplit
  have hzv : z ∈ tags v := by
    obtain ⟨y, hy⟩ := List.exists_mem_of_ne_nil v hv₀
    exact hv y hy ▸ List.mem_map_of_mem hy
  obtain ⟨y, hyu⟩ : ∃ y, (z, y) ∈ u := by
    by_contra hno
    refine hseq ⟨!z, u ++ [x], v, by simp, fun y hy => ?_, by simpa using hv⟩
    obtain hy | hy := List.mem_append.mp hy
    · exact eq_not_of_ne fun hc => hno ⟨y.2, hc ▸ hy⟩
    · rw [List.mem_singleton.mp hy, hx]
  have hyv : (z, y) ∉ v := fun hc =>
    (List.nodup_append.mp hw.nodup).2.2 _ hyu _ (List.mem_cons_of_mem x hc) rfl
  have hy : y < (pdu z).count := ((hw.mem_iff z y).mp (List.mem_append_left _ hyu)).1
  -- the other PDU has a second fragment, which comes before its last one
  have hsecond : ∃ x₀ ∈ u, x₀.1 = !z := by
    obtain ⟨j, hj, hjx⟩ : ∃ j, j < (pdu !z).count ∧ j ≠ x.2 := by
      have := (pdu !z).two_le
      by_cases h₀ : x.2 = 0
      · exact ⟨1, by omega, by omega⟩
      · exact ⟨0, by omega, by omega⟩
    refine ⟨(!z, j), ?_, rfl⟩
    obtain hm | hm := List.mem_append.mp ((hw.mem_iff (!z) j).mpr ⟨hj, by simp⟩)
    · exact hm
    · obtain hm | hm := List.mem_cons.mp hm
      · exact absurd (congrArg Prod.snd hm) hjx
      · have := hv _ hm
        cases z <;> simp at this
  obtain ⟨u₁, x₁, u₂, rfl, hx₁, hu₁⟩ := split_first hsecond
  rw [List.append_assoc, List.cons_append] at has hrun
  have hzr : z ∈ tags (u₂ ++ x :: v) := by simp [hzv]
  have hor : (!z) ∈ tags (u₂ ++ x :: v) := by simp [hx]
  obtain ⟨c₁, p₁, as₁, h₀, h₁, has₁, hrun₁⟩ := other_takes_first hz ho hc hhead
    (fun y hy => by simpa using eq_not_of_ne (hu₁ y hy)) hx₁ (fun _ => hzr) hor has hrun
  obtain ⟨c₂, p₂, as₂, h₂, has₂, hrun₂⟩ := run_waits
    (fun c => (c.info 0).timeStamp = (pdu !z).stamp ∧ (c.info 1).timeStamp = 0)
    (fun y _ => by
      by_cases hyz : y.1 = z
      · simp [hyz, hzv]
      · simp [eq_not_of_ne hyz, hx])
    (fun y _ a c p s hi ha hc hstep => stamps_stay hz ho hi ha hc hstep) has₁
    ⟨h₀, h₁.timeStamp⟩ hrun₁
  obtain ⟨a, as, ⟨hi, ha⟩, htail, rfl⟩ := List.forall₂_cons_left_iff.mp has₂
  obtain ⟨s, o, os, hstep, hrest, hos⟩ := (run_cons_eq_some _).mp hrun₂
  obtain ⟨rfl, rfl⟩ := List.cons.inj hos
  have hlast : x.1 ∉ tags v := by
    rw [hx, mem_tags]
    rintro ⟨j, hj⟩
    have := hv _ hj
    cases z <;> simp at this
  rw [if_neg hlast] at hstep
  obtain ⟨g, hr, hs⟩ := reassemble_inv ha hi hstep
  rw [hx, FragCell.select_first h₂.1.symm] at hr hs
  have hfree : (s.1.info 0).Free := by
    rw [hs, FragCell.set_info]
    exact FragInfo.receive_done hr
  have hnodup : v.Nodup := (List.nodup_cons.mp (List.nodup_append.mp hw.nodup).2.1).2
  exact lost_in_first (n := 0) halloc hz hv hv₀ hnodup htail (.of_free hfree) (by simp) hy
    (by simp) hyv s.2 t hrest

lemma not_delivered_of_first (hlast : ∀ x ∈ w.getLast?, x.1 = !z)
    (hfirst : ∃ x w', w = x :: w' ∧ x.1 = z) :
    run (reassemble env fragID) (c, p) as ≠ some (t, answersOf w) := by
  intro hrun
  obtain ⟨y, w', hyw, hyz⟩ := hfirst
  have hlast_mem : ∃ x ∈ w, x.1 = !z := by
    have hl := List.getLast?_eq_getLast_of_ne_nil (hyw ▸ List.cons_ne_nil y w' : w ≠ [])
    exact ⟨_, List.getLast_mem _, hlast _ hl⟩
  obtain ⟨u, x, r, rfl, hx, hu⟩ := split_first hlast_mem
  have hu' : ∀ y ∈ u, y.1 = z := fun y hy => by simpa using eq_not_of_ne (hu y hy)
  have hyu : y ∈ u := by
    cases u with
    | nil =>
      obtain ⟨rfl, -⟩ := List.cons.inj hyw
      rw [hyz] at hx
      cases z <;> simp at hx
    | cons y' u =>
      obtain ⟨rfl, -⟩ := List.cons.inj hyw
      exact List.mem_cons_self ..
  have hzr : z ∈ tags r := by
    by_contra hno
    refine hseq ⟨z, u, x :: r, rfl, hu', fun y hy => ?_⟩
    obtain rfl | hy := List.mem_cons.mp hy
    · exact hx
    · exact eq_not_of_ne fun hc => hno (hc ▸ List.mem_map_of_mem hy)
  have hr₀ : r ≠ [] := by
    rintro rfl
    simp at hzr
  have hlast' : ∀ y ∈ r.getLast?, y.1 = !z := fun y hy => hlast y (getLast?_append_cons hy)
  have hor : (!z) ∈ tags r := by
    rw [← hlast' _ (List.getLast?_eq_getLast_of_ne_nil hr₀)]
    exact List.mem_map_of_mem (List.getLast_mem hr₀)
  obtain ⟨c₁, p₁, as₁, h₀, h₁, has₁, hrun₁⟩ := other_takes_first hz ho hc hhead hu' hx
    (fun _ => hzr) hor has hrun
  have hy : (z, y.2) = y := Prod.ext hyz.symm rfl
  have hyr : (z, y.2) ∉ r := fun hc =>
    (List.nodup_append.mp hw.nodup).2.2 _ hyu _ (List.mem_cons_of_mem x (hy ▸ hc)) rfl
  have hyc : y.2 < (pdu z).count :=
    ((hw.mem_iff z y.2).mp (List.mem_append_left _ (hy.symm ▸ hyu))).1
  have hnodup : r.Nodup := (List.nodup_cons.mp (List.nodup_append.mp hw.nodup).2.1).2
  exact lost_in_second (n := 0) halloc hz ho hlast' hzr hnodup has₁ h₀ (.of_free h₁) (by simp) hyc
    (by simp) hyr p₁ t hrun₁

end Failure

def Encloses (t : Bool) (w : List Tagged) : Prop :=
  (∀ x w', w = x :: w' → x.1 = t) ∧ ∀ x ∈ w.getLast?, x.1 = t

/-- Two PDUs that come at the same time are both delivered exactly when no stamp is 0, or the
second buffer is at the header, or they do not overlap, or the one with stamp 0 is enclosed in
the other. -/
theorem both_delivered_iff (halloc : ∀ i, env.allocates i = true)
    (henq : ∀ i, env.enqueues i = true) (hne : (pdu true).stamp ≠ (pdu false).stamp)
    {w : List Tagged} (hnodup : w.Nodup) (hmem : ∀ t i, (t, i) ∈ w ↔ i < (pdu t).count)
    {as : List Arrival} (has : PairArrivals pdu w as) {c : FragCell} (hc : c.Free) (p : Pool) :
    BothDelivered env fragID pdu c p w as ↔
      ∀ z, (pdu z).stamp = 0 →
        c.indexList.header = 1 ∨ Sequential w ∨ Encloses (!z) w := by
  have hw : Missing pdu (fun _ => ∅) w := ⟨hnodup, by simpa using hmem, by simp⟩
  have hheader : ∀ i : Fin 2, i = 0 ∨ i = 1 := by decide
  constructor
  · rintro ⟨c', p', -, hrun, -⟩ z hz
    have ho := other_stamp_ne_zero hne hz
    by_contra hcon
    simp only [not_or] at hcon
    obtain ⟨hh, hseq, henc⟩ := hcon
    have hhead : c.indexList.header = 0 := (hheader _).resolve_right hh
    by_cases hlast : ∀ x ∈ w.getLast?, x.1 = !z
    · refine not_delivered_of_first hz ho hc hhead halloc hw has hseq hlast ?_ hrun
      by_contra hno
      refine henc ⟨fun x w' hxw => eq_not_of_ne fun hx => hno ⟨x, w', hxw, hx⟩, hlast⟩
    · have hother : ∃ x ∈ w, x.1 = !z :=
        ⟨(!z, 0), (hmem _ _).mpr (by have := (pdu !z).two_le; omega), rfl⟩
      obtain ⟨u, x, v, hsplit, hx, hv⟩ := split_last hother
      refine not_delivered_of_last hz ho hc hhead halloc hw has hseq hsplit hx
        (fun y hy => by simpa using eq_not_of_ne (hv y hy)) ?_ hrun
      rintro rfl
      refine hlast fun y hy => ?_
      rw [hsplit, List.getLast?_concat, Option.mem_some_iff] at hy
      exact hy ▸ hx
  · intro hcond
    by_cases h₀ : ∀ t, (pdu t).stamp ≠ 0
    · exact delivered_of_nonzero halloc henq hne has hw hc p h₀
    · simp only [not_forall, not_not] at h₀
      obtain ⟨z, hz⟩ := h₀
      obtain hh | hseq | henc := hcond z hz
      · exact delivered_of_header halloc henq hne has hw hc p hz hh
      · exact delivered_of_sequential halloc henq has hw hc p hseq
      · obtain hh | hh := hheader c.indexList.header
        · exact delivered_of_enclosed halloc henq hne has hw hc p hz hh henc.1 henc.2
        · exact delivered_of_header halloc henq hne has hw hc p hz hh

def samplePair (a b : ℕ) (ha : a < 8192) (hb : b < 8192) (t : Bool) : SplitPdu :=
  if t then samplePdu a ha else samplePdu b hb

lemma pairArrivals_map {w : List Tagged} (h : ∀ x ∈ w, x.2 < (pdu x.1).count) :
    PairArrivals pdu w (w.map fun x => (pdu x.1).arrival x.2) := by
  induction w with
  | nil => exact .nil
  | cons x w ih =>
    exact .cons ⟨h x (List.mem_cons_self ..), SplitPdu.arrival_isFragment x.2⟩
      (ih fun y hy => h y (List.mem_cons_of_mem x hy))

def alternating : List Tagged := [(true, 0), (false, 0), (true, 1), (false, 1)]

lemma mem_alternating (t : Bool) (i : ℕ) : (t, i) ∈ alternating ↔ i < 2 := by
  cases t <;> simp [alternating] <;> omega

lemma not_sequential_alternating : ¬Sequential alternating := by
  rintro ⟨t, u, v, huv, hu, hv⟩
  obtain - | ⟨x, - | ⟨y, u⟩⟩ := u
  · have huv : alternating = v := huv
    have h₁ := hv (true, 0) (huv ▸ by simp [alternating])
    have h₂ := hv (false, 0) (huv ▸ by simp [alternating])
    simp [← h₁] at h₂
  · have hx : (true, 0) = x := (List.cons.inj huv).1
    have huv : [(false, 0), (true, 1), (false, 1)] = v := (List.cons.inj huv).2
    have h₁ := hu x (by simp)
    have h₂ := hv (true, 1) (huv ▸ by simp)
    simp [← h₁, ← hx] at h₂
  · have hx : (true, 0) = x := (List.cons.inj huv).1
    have hy : (false, 0) = y := (List.cons.inj (List.cons.inj huv).2).1
    have h₁ := hu x (by simp)
    have h₂ := hu y (by simp)
    simp [← h₁, ← hx, ← hy] at h₂

lemma samplePair_count (a b : ℕ) (ha : a < 8192) (hb : b < 8192) (t : Bool) :
    (samplePair a b ha hb t).count = 2 := by
  cases t <;> rfl

theorem both_delivered_iff_alternating :
    BothDelivered .willing 7 (samplePair 3 5 (by decide) (by decide)) .initial .fresh alternating
        (alternating.map fun x =>
          (samplePair 3 5 (by decide) (by decide) x.1).arrival x.2) ↔
      ∀ z, (samplePair 3 5 (by decide) (by decide) z).stamp = 0 →
        FragCell.initial.indexList.header = 1 ∨ Sequential alternating ∨
          Encloses (!z) alternating :=
  both_delivered_iff (fun _ => rfl) (fun _ => rfl) (by decide) (by decide)
    (fun t i => by rw [mem_alternating, samplePair_count])
    (pairArrivals_map (by decide)) FragCell.free_initial .fresh

/-- Two PDUs with stamps 0 and 5 whose fragments alternate: the first one is lost. -/
theorem stamp_zero_lost :
    PairArrivals (samplePair 0 5 (by decide) (by decide)) alternating
      (alternating.map fun x => (samplePair 0 5 (by decide) (by decide) x.1).arrival x.2) ∧
    ¬BothDelivered .willing 7 (samplePair 0 5 (by decide) (by decide)) .initial .fresh alternating
      (alternating.map fun x => (samplePair 0 5 (by decide) (by decide) x.1).arrival x.2) := by
  refine ⟨pairArrivals_map (by decide), ?_⟩
  rintro ⟨c', p', -, hrun, -⟩
  have hw : Missing (samplePair 0 5 (by decide) (by decide)) (fun _ => ∅) alternating :=
    ⟨by decide, fun t i => by simp [mem_alternating, samplePair_count], by simp⟩
  refine not_delivered_of_first (z := true) rfl (by decide) FragCell.free_initial rfl
    (fun _ => rfl) hw (pairArrivals_map (by decide)) not_sequential_alternating
    (by simp [alternating]) ⟨_, _, rfl, rfl⟩ hrun

end Fengtai.Receive
