import Fengtai.Receive.TwoPdus

set_option autoImplicit false

/-! Which interleavings of two PDUs the two buffers can follow: time stamp 0 is
also the mark of a free buffer. -/

namespace Fengtai.Receive

open Library Library.Words Library.Runs Crc Finset

variable {pdu : Bool → SplitPdu} {env : Dpdk} {fragID : ℕ}

namespace Apart

variable {home : Bool → Fin fragBufferNum} {S : Bool → Finset ℕ} {c : FragCell} {t : Bool}

lemma home_cases (h : Apart pdu env home S c) (t : Bool) (i : Fin fragBufferNum) :
    i = home t ∨ i = home (!t) := by
  have hne := h.home_ne (t := t) (u := !t) (by cases t <;> decide)
  have h₂ : ∀ a b i : Fin 2, a ≠ b → i = a ∨ i = b := by decide
  exact h₂ _ _ _ hne

lemma other_stamp (h : Apart pdu env home S c) {i : Fin fragBufferNum} (hi : i ≠ home t) :
    (c.info i).timeStamp = 0 ∨ (c.info i).timeStamp = (pdu !t).stamp := by
  rw [(h.home_cases t i).resolve_left hi, h.stamp]
  split_ifs
  exacts [.inl rfl, .inr rfl]

variable (hne : (pdu true).stamp ≠ (pdu false).stamp)
include hne

lemma stamp_ne_not (t : Bool) : (pdu t).stamp ≠ (pdu !t).stamp := by
  cases t
  exacts [hne.symm, hne]

lemma select_live (h : Apart pdu env home S c) (h₀ : (pdu t).stamp ≠ 0) (hS : S t ≠ ∅)
    (hS' : S t ≠ range (pdu t).count) : c.select (pdu t).stamp = (home t, c) := by
  refine FragCell.select_unique ?_ fun i hi => ?_
  · rw [h.stamp, if_neg (by tauto)]
  · have := stamp_ne_not hne t
    obtain hs | hs := h.other_stamp hi <;> rw [hs] <;> assumption

lemma select_fresh (h : Apart pdu env home S c) (h₀ : (pdu t).stamp ≠ 0) (hS : S t = ∅) :
    c.select (pdu t).stamp =
      (c.indexList.header, { c with indexList := c.indexList.rotate }) := by
  refine FragCell.select_miss fun i => ?_
  obtain rfl | rfl := h.home_cases t i
  · rwa [h.stamp, if_pos (.inl hS)]
  · have := stamp_ne_not hne t
    rw [h.stamp]
    split_ifs <;> assumption

end Apart

lemma receivedOf_self (S : Bool → Finset ℕ) (x : Tagged) :
    receivedOf S x x.1 = insert x.2 (S x.1) := Function.update_self ..

lemma receivedOf_ne (S : Bool → Finset ℕ) {x : Tagged} {t : Bool} (h : t ≠ x.1) :
    receivedOf S x t = S t := Function.update_of_ne h ..

lemma Missing.open {S : Bool → Finset ℕ} {x : Tagged} {w : List Tagged}
    (h : Missing pdu S (x :: w)) : S x.1 ≠ range (pdu x.1).count :=
  fun hc => (h.full_iff x.1).mp hc (by simp)

section Delivered

variable (halloc : ∀ i, env.allocates i = true) (henq : ∀ i, env.enqueues i = true)
  (hne : (pdu true).stamp ≠ (pdu false).stamp) {w : List Tagged} {as : List Arrival}
  (has : PairArrivals pdu w as) (hw : Missing pdu (fun _ => ∅) w) {c : FragCell} (hc : c.Free)
  (p : Pool)
include halloc henq hne has hw hc

lemma delivered_of_nonzero (h₀ : ∀ t, (pdu t).stamp ≠ 0) :
    BothDelivered env fragID pdu c p w as := by
  obtain ⟨f, hf⟩ : ∃ f, ∀ x w', w = x :: w' → x.1 = f := by
    cases w with
    | nil => exact ⟨true, by simp⟩
    | cons x w => exact ⟨x.1, by rintro y w' ⟨⟩; rfl⟩
  set h := c.indexList.header with hh
  have hh₁ : h ≠ h + 1 := by
    have hd : ∀ i : Fin 2, i ≠ i + 1 := by decide
    exact hd h
  refine run_apart (fun t => if t = f then h else h + 1) halloc henq fragID
    (fun hd S w => (S f = ∅ → S (!f) = ∅ ∧ hd = h ∧ ∀ x w', w = x :: w' → x.1 = f) ∧
      (S f ≠ ∅ → S (!f) = ∅ → hd = h + 1)) ?_ has (.of_free ?_ hc) hw ?_ p
  · rintro c S x w hap hm ⟨hbefore, hafter⟩
    by_cases hx : x.1 = f
    · obtain rfl := hx
      have hnot : (!x.1) ≠ x.1 := by cases x.1 <;> decide
      rw [receivedOf_self, receivedOf_ne S hnot]
      by_cases hS : S x.1 = ∅
      · rw [hap.select_fresh hne (h₀ _) hS, IndexList.rotate_header, (hbefore hS).2.1]
        simp
      · rw [hap.select_live hne (h₀ _) hS hm.open]
        simpa using hafter hS
    · have hxf : x.1 = !f := by cases hxt : x.1 <;> cases f <;> simp_all
      have hSf : S f ≠ ∅ := fun hc => hx ((hbefore hc).2.2 x w rfl)
      rw [receivedOf_ne S (Ne.symm hx), ← hxf, receivedOf_self]
      by_cases hS : S x.1 = ∅
      · rw [hap.select_fresh hne (h₀ _) hS]
        simp [hafter hSf (hxf ▸ hS), hx, hSf]
      · rw [hap.select_live hne (h₀ _) hS hm.open]
        simp [hx, hSf]
  · cases f <;> simp [hh₁, Ne.symm hh₁]
  · exact ⟨fun _ => ⟨rfl, rfl, hf⟩, fun hc => absurd rfl hc⟩

variable {z : Bool} (hz : (pdu z).stamp = 0)
include hz

omit halloc henq has hw hc in
lemma other_stamp_ne_zero : (pdu !z).stamp ≠ 0 := by
  have := Apart.stamp_ne_not hne z
  rwa [hz, ne_comm] at this

lemma delivered_of_header (hhead : c.indexList.header = 1) :
    BothDelivered env fragID pdu c p w as := by
  have ho := other_stamp_ne_zero hne hz
  have hnz : (!z) ≠ z := by cases z <;> decide
  refine run_apart (fun t => if t = z then 0 else 1) halloc henq fragID
    (fun hd S _ => S (!z) = ∅ → hd = 1) ?_ has (.of_free ?_ hc) hw (fun _ => hhead) p
  · intro c S x w hap hm hhd
    by_cases hx : x.1 = z
    · obtain rfl := hx
      have hstamp := hap.stamp x.1
      rw [if_pos rfl, hz, ite_self] at hstamp
      rw [hz, FragCell.select_first hstamp.symm, receivedOf_ne S hnz]
      exact ⟨by simp, hhd⟩
    · have hxz : x.1 = !z := by cases hxt : x.1 <;> cases z <;> simp_all
      rw [← hxz] at ho hhd ⊢
      rw [receivedOf_self]
      by_cases hS : S x.1 = ∅
      · rw [hap.select_fresh hne ho hS]
        simp [hhd hS, hx]
      · rw [hap.select_live hne ho hS hm.open]
        simp [hx]
  · cases z <;> decide

lemma delivered_of_enclosed (hhead : c.indexList.header = 0)
    (hfirst : ∀ x w', w = x :: w' → x.1 = !z) (hlast : ∀ x ∈ w.getLast?, x.1 = !z) :
    BothDelivered env fragID pdu c p w as := by
  have ho := other_stamp_ne_zero hne hz
  have hnz : (!z) ≠ z := by cases z <;> decide
  refine run_apart (fun t => if t = z then 1 else 0) halloc henq fragID
    (fun hd S w => (S (!z) = ∅ → hd = 0 ∧ ∀ x w', w = x :: w' → x.1 = !z) ∧
      ∀ x ∈ w.getLast?, x.1 = !z) ?_ has (.of_free ?_ hc) hw ⟨fun _ => ⟨hhead, hfirst⟩, hlast⟩ p
  · rintro c S x w hap hm ⟨hbegin, hend⟩
    have hend' : ∀ y ∈ w.getLast?, y.1 = !z := by
      intro y hy
      refine hend y ?_
      obtain ⟨v, rfl⟩ := List.getLast?_eq_some_iff.mp hy
      rw [← List.cons_append, List.getLast?_append]
      rfl
    by_cases hx : x.1 = z
    · obtain rfl := hx
      have hbegun : S (!x.1) ≠ ∅ := fun hc => hnz ((hbegin hc).2 x w rfl).symm
      have hgoing : S (!x.1) ≠ range (pdu !x.1).count := by
        intro hc
        refine (hm.full_iff _).mp hc ?_
        have hlast := List.getLast?_eq_getLast_of_ne_nil (List.cons_ne_nil x w)
        rw [← hend _ hlast]
        exact List.mem_map_of_mem (List.getLast_mem _)
      have hown := hap.stamp x.1
      have hother := hap.stamp (!x.1)
      rw [if_pos rfl, hz, ite_self] at hown
      rw [if_neg hnz, if_neg (by tauto)] at hother
      rw [hz, FragCell.select_second (hother ▸ Ne.symm ho) hown.symm, receivedOf_ne S hnz]
      exact ⟨by simp, fun hc => absurd hc hbegun, hend'⟩
    · have hxz : x.1 = !z := by cases hxt : x.1 <;> cases z <;> simp_all
      rw [← hxz] at ho hbegin hend' ⊢
      rw [receivedOf_self]
      by_cases hS : S x.1 = ∅
      · rw [hap.select_fresh hne ho hS]
        exact ⟨by simp [(hbegin hS).1, hx], fun hc => absurd hc (insert_ne_empty _ _), hend'⟩
      · rw [hap.select_live hne ho hS hm.open]
        exact ⟨rfl, fun hc => absurd hc (insert_ne_empty _ _), hend'⟩
  · cases z <;> decide

end Delivered

section Sequential

variable {t : Bool} {u v : List Tagged}

lemma arrivals_of_pair {as : List Arrival} (has : PairArrivals pdu u as)
    (hu : ∀ x ∈ u, x.1 = t) : (pdu t).Arrivals (u.map Prod.snd) as := by
  induction has with
  | nil => exact .nil
  | @cons x a u as hx _ ih =>
    obtain rfl := hu x (List.mem_cons_self ..)
    exact .cons hx (ih fun y hy => hu y (List.mem_cons_of_mem _ hy))

lemma Missing.perm_range (hw : Missing pdu (fun _ => ∅) (u ++ v)) (hu : ∀ x ∈ u, x.1 = t)
    (hv : t ∉ tags v) : (u.map Prod.snd).Perm (List.range (pdu t).count) := by
  have hnodup : (u.map Prod.snd).Nodup := by
    refine List.Nodup.map_on (fun x hx y hy hxy => ?_) (List.nodup_append.mp hw.nodup).1
    exact Prod.ext ((hu x hx).trans (hu y hy).symm) hxy
  refine (List.perm_ext_iff_of_nodup hnodup List.nodup_range).mpr fun i => ?_
  have hm := hw.mem_iff t i
  simp only [List.mem_append, notMem_empty, not_false_eq_true, and_true] at hm
  rw [List.mem_range, ← hm, List.mem_map]
  constructor
  · rintro ⟨x, hx, rfl⟩
    exact .inl (hu x hx ▸ hx)
  · rintro (hx | hx)
    · exact ⟨_, hx, rfl⟩
    · exact absurd (mem_tags.mpr ⟨i, hx⟩) hv

lemma answersOf_append (hu : ∀ x ∈ u, x.1 = t) (hn : u ≠ []) (hv : t ∉ tags v) :
    answersOf (u ++ v) = answers (u.length - 1) ++ answersOf v ∧
      completions (u ++ v) = t :: completions v := by
  induction u with
  | nil => exact absurd rfl hn
  | cons x u ih =>
    obtain rfl := hu x (List.mem_cons_self ..)
    cases u with
    | nil => simp [answersOf, completions, hv, answers]
    | cons y u =>
      have hy := hu y (by simp)
      obtain ⟨ha, hc⟩ := ih (fun z hz => hu z (List.mem_cons_of_mem _ hz)) (List.cons_ne_nil _ _)
      have hmem : x.1 ∈ tags (y :: u ++ v) := by simp [hy]
      rw [List.cons_append, answersOf, completions, if_pos hmem, if_pos hmem, ha, hc]
      exact ⟨rfl, rfl⟩

end Sequential

def Sequential (w : List Tagged) : Prop :=
  ∃ t u v, w = u ++ v ∧ (∀ x ∈ u, x.1 = t) ∧ ∀ x ∈ v, x.1 = !t

lemma delivered_of_sequential (halloc : ∀ i, env.allocates i = true)
    (henq : ∀ i, env.enqueues i = true) {w : List Tagged} {as : List Arrival}
    (has : PairArrivals pdu w as) (hw : Missing pdu (fun _ => ∅) w) {c : FragCell} (hc : c.Free)
    (p : Pool) (hseq : Sequential w) : BothDelivered env fragID pdu c p w as := by
  obtain ⟨t, u, v, rfl, hu, hv⟩ := hseq
  have hnt : t ∉ tags v := by
    rw [mem_tags]
    rintro ⟨i, hi⟩
    have := hv _ hi
    cases t <;> simp at this
  have hnt' : (!t) ∉ tags u := by
    rw [mem_tags]
    rintro ⟨i, hi⟩
    have := hu _ hi
    cases t <;> simp at this
  have hperm := hw.perm_range hu hnt
  have hperm' : (v.map Prod.snd).Perm (List.range (pdu !t).count) := by
    refine Missing.perm_range (v := u) ⟨?_, fun s i => ?_, hw.within⟩ hv hnt'
    · exact (List.perm_append_comm.nodup_iff).mp hw.nodup
    · rw [← hw.mem_iff, List.mem_append, List.mem_append, or_comm]
  obtain ⟨as₁, as₂, rfl, has₁, has₂⟩ : ∃ as₁ as₂, as = as₁ ++ as₂ ∧ PairArrivals pdu u as₁ ∧
      PairArrivals pdu v as₂ := by
    exact ⟨_, _, (List.take_append_drop u.length as).symm,
      (List.forall₂_take_append as u v has.flip).flip,
      (List.forall₂_drop_append as u v has.flip).flip⟩
  obtain ⟨c₁, hc₁, hrun₁⟩ := run_perm fragID halloc henq hperm (arrivals_of_pair has₁ hu) hc p
  obtain ⟨c₂, -, hrun₂⟩ := run_perm fragID halloc henq hperm' (arrivals_of_pair has₂ hv) hc₁
    (p.withPdu env (pdu t))
  have hlen : u.length = (pdu t).count := by simpa using hperm.length_eq
  have hlen' : v.length = (pdu !t).count := by simpa using hperm'.length_eq
  have htwo := (pdu t).two_le
  have htwo' := (pdu !t).two_le
  have hu₀ : u ≠ [] := List.ne_nil_of_length_pos (by omega)
  have hv₀ : v ≠ [] := List.ne_nil_of_length_pos (by omega)
  obtain ⟨ha₁, hc₁⟩ := answersOf_append hu hu₀ hnt
  obtain ⟨ha₂, hc₂⟩ := answersOf_append (v := []) hv hv₀ (by simp)
  rw [List.append_nil] at ha₂ hc₂
  refine ⟨c₂, (p.withPdu env (pdu t)).withPdu env (pdu !t),
    [(pdu t).delivered env p.allocs, (pdu !t).delivered env (p.allocs + 1)], ?_, ?_, ?_⟩
  · rw [run_append, hrun₁, Option.bind_some, hrun₂, ha₁, ha₂, hlen, hlen']
    simp [answersOf]
  · simp [Pool.withPdu]
  · rw [hc₁, hc₂]
    simp [completions]

end Fengtai.Receive
