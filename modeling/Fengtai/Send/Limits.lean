import Fengtai.Receive.Reassembly
import Fengtai.Send.Partition

set_option autoImplicit false

/-! The fragments of a PDU against the tables of the peer that puts them together. -/

namespace Fengtai.Send

open Library.Words Receive

/-- A fragment with a slot in the table of the peer and a data field no longer than the slot. -/
def Span.FitsTable (f : Span) : Prop :=
  f.seq < fragMaxNum ∧ f.size + (if f.kind = .e then 4 else 0) ≤ fragMaxLength

/-- Every fragment fetched after a `do_fragment`, in any number of calls, fits the tables. -/
def FitsPeer (conf : AppConf) (r : Fragments × ℤ) : Prop :=
  ∀ calls, ∀ node ∈ (fetchEach conf calls r.1).1, node.span.FitsTable

lemma fitsPeer_adopt {conf : AppConf} {s : Fragments} (hs : s.Drained) {id : ℕ} (hid : id < 256)
    {b : FragmentBuffer} (hused : b.used = true) (htr : b.fragmentInfo.transferedNum = 0)
    (h2 : 2 ≤ b.fragmentInfo.totalNum) (h6 : b.fragmentInfo.totalNum ≤ 6) :
    FitsPeer conf (s.adopt id b, (id : ℤ)) ↔
      ∀ k < b.fragmentInfo.totalNum, (b.spanOf k).FitsTable := by
  have hpend : (s.adopt id b).Pending id := hs.adopt hid hused (by omega) (by omega)
  have hbuf : (s.adopt id b).fragmentBuffer id = b := by simp [Fragments.adopt]
  have hspans : ∀ calls : List EnPduNode,
      (fetchEach conf calls (s.adopt id b)).1.map EnPduNode.span =
        (List.range (min calls.length b.fragmentInfo.totalNum)).map b.spanOf := by
    intro calls
    have h := (fetchEach_pending conf hpend calls).1
    rwa [hbuf, htr, Nat.sub_zero, ← List.range_eq_range'] at h
  constructor
  · intro h k hk
    have hmem : b.spanOf k ∈ (fetchEach conf (List.replicate 6 .zero) (s.adopt id b)).1.map
        EnPduNode.span := by
      rw [hspans, List.length_replicate, min_eq_right h6]
      exact List.mem_map_of_mem (List.mem_range.mpr hk)
    obtain ⟨node, hnode, heq⟩ := List.mem_map.mp hmem
    rw [← heq]
    exact h _ node hnode
  · intro h calls node hnode
    have hmem : node.span ∈ (List.range (min calls.length b.fragmentInfo.totalNum)).map b.spanOf := by
      rw [← hspans]
      exact List.mem_map_of_mem hnode
    obtain ⟨k, hk, heq⟩ := List.mem_map.mp hmem
    rw [← heq]
    exact h k (lt_of_lt_of_le (List.mem_range.mp hk) (min_le_right _ _))

/-- The start packet and the rest of the PDU with its CRC are each at most a slot long. -/
def WithinSlots (pduSize u : ℕ) : Prop := u ≤ 1529 ∧ pduSize + 15 ≤ u + 1518

lemma Splits.fits_iff {pduSize u payload : ℕ} (h : Splits pduSize u payload) {b : FragmentBuffer}
    (hstart : b.fragmentInfo.startSize = u - 11)
    (hmid : b.fragmentInfo.middleSize = middleBytes payload)
    (htotal : b.fragmentInfo.totalNum = fragmentCount pduSize u payload)
    (hend : b.fragmentInfo.endSize = sub16 (remainder pduSize u % middleBytes payload) 4) :
    (∀ k < b.fragmentInfo.totalNum, (b.spanOf k).FitsTable) ↔ WithinSlots pduSize u := by
  obtain ⟨-, hm, hm'⟩ := middleSize_eq h.payload_ge h.payload_le
  obtain ⟨hc1, hc2⟩ := h.count_bounds
  have hlong := h.too_long
  have hr : remainder pduSize u = pduSize + 15 - u := rfl
  have hge : b.fragmentInfo.totalNum ≠ 1 := by omega
  constructor
  · intro hfits
    obtain ⟨-, hfirst⟩ := hfits 0 (by omega)
    have hfirst' : u - 11 ≤ fragMaxLength := by
      simpa [FragmentBuffer.spanOf, FragmentInfo.sizeOf, kindOf, hstart] using hfirst
    obtain ⟨-, hsecond⟩ := hfits 1 (by omega)
    simp only [fragMaxLength] at hfirst' hsecond
    refine ⟨by omega, ?_⟩
    by_cases h2 : b.fragmentInfo.totalNum = 2
    · have hlast : sub16 (remainder pduSize u % middleBytes payload) 4 + 4 ≤ 1518 := by
        simpa [FragmentBuffer.spanOf, FragmentInfo.sizeOf, kindOf, h2, hend] using hsecond
      by_cases hlt : remainder pduSize u < middleBytes payload
      · rw [Nat.mod_eq_of_lt hlt, sub16_of_le (by omega) (by omega)] at hlast
        omega
      · -- two fragments without a middle packet: the rest is exactly one of them
        have hdiv := Nat.div_add_mod (remainder pduSize u) (middleBytes payload)
        rw [h2, fragmentCount] at htotal
        have hq : 1 ≤ remainder pduSize u / middleBytes payload :=
          (Nat.one_le_div_iff (by omega)).mpr (not_lt.mp hlt)
        have hz : remainder pduSize u % middleBytes payload = 0 := by
          split_ifs at htotal with hmod <;> omega
        rw [hz] at hlast
        exact absurd hlast (by decide)
    · have hmiddle : b.fragmentInfo.middleSize ≤ 1518 := by
        have h2' : ¬ 1 + 1 = b.fragmentInfo.totalNum := by omega
        simpa [FragmentBuffer.spanOf, FragmentInfo.sizeOf, kindOf, h2'] using hsecond
      omega
  · rintro ⟨hu, hn⟩
    have hlt : remainder pduSize u < middleBytes payload := by omega
    have h2 : b.fragmentInfo.totalNum = 2 := by
      rw [htotal, fragmentCount, Nat.div_eq_of_lt hlt, Nat.mod_eq_of_lt hlt, if_pos (by omega)]
    intro k hk
    rw [h2] at hk
    obtain rfl | rfl : k = 0 ∨ k = 1 := by omega
    · refine ⟨by simp [FragmentBuffer.spanOf], ?_⟩
      simp only [FragmentBuffer.spanOf, FragmentInfo.sizeOf, kindOf, hstart, fragMaxLength]
      simp
      omega
    · refine ⟨by simp [FragmentBuffer.spanOf], ?_⟩
      simp only [FragmentBuffer.spanOf, FragmentInfo.sizeOf, kindOf, h2, hend, Nat.mod_eq_of_lt hlt,
        fragMaxLength]
      rw [sub16_of_le (by omega) (by omega)]
      simp
      omega

/-- The fragments of a PDU fit the peer's tables exactly when neither the room left in the frame
nor what remains of the PDU exceeds a slot. -/
theorem fits_peer_iff (conf : AppConf) {s : Fragments} (hs : s.Drained) {node : EnPduNode}
    (hmac : node.macAddress = boardcastAddress) (h1 : 1 ≤ node.pduSize) (h2 : node.pduSize ≤ 8050)
    {modcod : ℕ} (hlow : 1 ≤ modcod) (hhigh : modcod ≤ 28) {u : ℕ} (hu : 14 ≤ u)
    (hup : u ≤ mapModcodPayload modcod) (hlong : u < node.pduSize + 4) {bNewFrame : Bool}
    (hnew : bNewFrame = true → u = mapModcodPayload modcod) :
    FitsPeer conf (doFragment bNewFrame (mapModcodPayload modcod) u node s) ↔
      WithinSlots node.pduSize u := by
  obtain ⟨hp1, hp2⟩ := mapModcodPayload_bounds hlow hhigh
  have hsplit : Splits node.pduSize u (mapModcodPayload modcod) := ⟨h1, h2, hp1, hp2, hu, hup, hlong⟩
  have hb : getBroadcastType node.macAddress = true := by rw [hmac]; decide
  rw [doFragment_drained hs (by omega)]
  obtain ⟨htr, hstart, hmid, htotal, hend⟩ :=
    hsplit.plan rfl hb hnew ((s.lastFragmentID + 1) % 256)
  obtain ⟨hc1, hc2⟩ := hsplit.count_bounds
  rw [fitsPeer_adopt hs (Nat.mod_lt _ (by norm_num)) rfl htr (by omega) (by omega)]
  exact hsplit.fits_iff hstart hmid htotal hend

theorem fits_peer_iff_hundred :
    FitsPeer sampleConf (doFragment false (mapModcodPayload 1) 50 (zeroPdu 100) .initial) :=
  (fits_peer_iff sampleConf Fragments.drained_initial rfl (by decide) (by decide) (by decide)
    (by decide) (by decide) (by decide) (by decide) (by decide)).mpr ⟨by decide, by decide⟩

/-- A PDU of 2000 bytes in an empty frame of modcod 1: the start packet carries 1980 of them. -/
theorem start_exceeds_slot :
    ¬ FitsPeer sampleConf (doFragment true (mapModcodPayload 1) (mapModcodPayload 1) (zeroPdu 2000)
      .initial) := by
  rw [fits_peer_iff sampleConf Fragments.drained_initial rfl (by decide) (by decide) (by decide)
    (by decide) (by decide) (by decide) (by decide) (by decide)]
  exact fun h => absurd h.1 (by decide)

end Fengtai.Send
