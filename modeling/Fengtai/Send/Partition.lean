import Fengtai.Send.Fragment

set_option autoImplicit false

/-! The fragments of one PDU: what the calls of `fetch_pdu_fragment` after a `do_fragment`
hand out, and when that is a partition of the PDU. -/

namespace Fengtai.Send

open Library.Words

structure Span where
  kind : FragmentType
  seq : ℕ
  start : Ptr
  size : ℕ

def EnPduNode.span (node : EnPduNode) : Span :=
  ⟨node.fragmentType, node.fragmentSeq, node.pPduStart, node.pduSize⟩

/-- One call of `fetch_pdu_fragment` for each node; what the failing calls leave is dropped. -/
def fetchEach (conf : AppConf) : List EnPduNode → Fragments → List EnPduNode × Fragments
  | [], s => ([], s)
  | node :: nodes, s =>
    let f := fetchPduFragment conf node s
    let r := fetchEach conf nodes f.fragments
    (if f.ret < 0 then r.1 else f.node :: r.1, r.2)

/-- `total` spans of the three kinds, in sequence, that cover the PDU without gap or overlap. -/
structure PartitionOf (pdu : EnPduNode) (total : ℕ) (spans : List Span) : Prop where
  two_le : 2 ≤ total
  kinds : spans.map Span.kind = .s :: List.replicate (total - 2) .m ++ [.e]
  seqs : spans.map Span.seq = List.range total
  consecutive : ∀ (i : ℕ) (h : i < spans.length),
    spans[i].start = pdu.pPduStart.add ((spans.take i).map Span.size).sum
  covers : (spans.map Span.size).sum = pdu.pduSize
  bytes : spans.flatMap (fun f => f.start.read f.size) = pdu.pPduStart.read pdu.pduSize

/-- `do_fragment` has made an ID whose fragments, fetched in any number of calls, are a
partition of the PDU; the ID is in use until the last of them is fetched. -/
structure Partitioned (conf : AppConf) (pdu : EnPduNode) (r : Fragments × ℤ) : Prop where
  id_nonneg : 0 ≤ r.2
  partition : ∀ calls, (r.1.fragmentBuffer r.2.toNat).fragmentInfo.totalNum ≤ calls.length →
    PartitionOf pdu (r.1.fragmentBuffer r.2.toNat).fragmentInfo.totalNum
      ((fetchEach conf calls r.1).1.map EnPduNode.span)
  released : ∀ calls, ((fetchEach conf calls r.1).2.fragmentBuffer r.2.toNat).used =
    decide (calls.length < (r.1.fragmentBuffer r.2.toNat).fragmentInfo.totalNum)

def FragmentBuffer.spanOf (b : FragmentBuffer) (k : ℕ) : Span where
  kind := kindOf b.fragmentInfo.totalNum k
  seq := k
  start := b.pduNode.pPduStart.add (FragmentInfo.nextOffset { b.fragmentInfo with transferedNum := k })
  size := b.fragmentInfo.sizeOf k

lemma fetchEach_drained (conf : AppConf) {s : Fragments} (h : s.Drained) (calls : List EnPduNode) :
    fetchEach conf calls s = ([], s) := by
  induction calls with
  | nil => rfl
  | cons node nodes ih =>
    obtain ⟨hs, hneg⟩ := fetchPduFragment_drained conf node h
    simp only [fetchEach, hs, ih, hneg, if_true]

lemma fetchEach_pending (conf : AppConf) {s : Fragments} {id : ℕ} (h : s.Pending id)
    (calls : List EnPduNode) :
    let b := s.fragmentBuffer id
    let t := b.fragmentInfo.transferedNum
    let n := b.fragmentInfo.totalNum
    (fetchEach conf calls s).1.map EnPduNode.span =
        (List.range' t (min calls.length (n - t))).map b.spanOf ∧
      ((fetchEach conf calls s).2.fragmentBuffer id).used = decide (t + calls.length < n) := by
  induction calls generalizing s with
  | nil => simp [fetchEach, h.used, h.transfered]
  | cons node nodes ih =>
    have hid : ¬ (id : ℤ) < 0 := by omega
    have ht := h.transfered
    simp only [fetchEach, fetchPduFragment_pending conf node h, hid, if_false, List.map_cons]
    rcases lt_or_eq_of_le (Nat.succ_le_of_lt ht) with hmore | hlast
    · obtain ⟨hp, hb⟩ := h.advance_more hmore
      obtain ⟨hspans, hused⟩ := ih hp
      rw [hb] at hspans hused
      obtain ⟨k, hk⟩ : ∃ k, min (node :: nodes).length ((s.fragmentBuffer id).fragmentInfo.totalNum
          - (s.fragmentBuffer id).fragmentInfo.transferedNum) = k + 1 ∧
          k = min nodes.length ((s.fragmentBuffer id).fragmentInfo.totalNum -
            ((s.fragmentBuffer id).fragmentInfo.transferedNum + 1)) :=
        ⟨_, by simp only [List.length_cons]; omega, rfl⟩
      rw [hk.1, List.range'_succ, List.map_cons, hspans, hused, hk.2]
      refine ⟨rfl, ?_⟩
      simp only [List.length_cons, decide_eq_decide]
      omega
    · have hd := h.advance_last hlast
      rw [fetchEach_drained conf hd]
      have hone : (s.fragmentBuffer id).fragmentInfo.totalNum -
          (s.fragmentBuffer id).fragmentInfo.transferedNum = 1 := by omega
      have hmin : min (node :: nodes).length 1 = 1 := by simp
      rw [hone, hmin, hd.unused id h.id_lt]
      refine ⟨rfl, ?_⟩
      simp only [List.length_cons]
      symm
      rw [decide_eq_false_iff_not]
      omega

/-- What `do_fragment` writes into the buffer of the ID. -/
def plannedBuffer (bNewFrame : Bool) (maxPayload usable : ℕ) (node : EnPduNode) (id : ℕ) :
    FragmentBuffer where
  used := true
  fragmentInfo := fragmentPlan bNewFrame maxPayload usable { node with pduSize := node.pduSize + 4 }
    (Crc.crc32LookupTable (node.pPduStart.read node.pduSize)) id
  pduNode := { node with pduSize := node.pduSize + 4 }

lemma doFragment_drained {s : Fragments} (h : s.Drained) {node : EnPduNode}
    (hsize : node.pduSize < 65532) (bNewFrame : Bool) (maxPayload usable : ℕ) :
    let id := (s.lastFragmentID + 1) % 256
    doFragment bNewFrame maxPayload usable node s =
      (s.adopt id (plannedBuffer bNewFrame maxPayload usable node id), (id : ℤ)) := by
  obtain ⟨id, halloc, -, rfl⟩ := allocateFragmentID_drained h
  have hu : u16 (node.pduSize + 4) = node.pduSize + 4 := u16_of_lt (by omega)
  simp [doFragment, runFragment, halloc, hu, plannedBuffer]

lemma Fragments.Drained.adopt {s : Fragments} (h : s.Drained) {id : ℕ} (hid : id < 256)
    {b : FragmentBuffer} (hused : b.used = true)
    (ht : b.fragmentInfo.transferedNum < b.fragmentInfo.totalNum)
    (hlt : b.fragmentInfo.totalNum < 256) : (s.adopt id b).Pending id := by
  refine ⟨hid, h.queue.push hid, by simpa [Fragments.adopt] using hused, ?_,
    by simpa [Fragments.adopt] using ht, by simpa [Fragments.adopt] using hlt, hid⟩
  intro i hi hne
  simpa [Fragments.adopt, hne] using h.unused i hi

lemma sizes_sum (f : FragmentInfo) (k : ℕ) (hk : k < f.totalNum) :
    ((List.range k).map f.sizeOf).sum =
      FragmentInfo.nextOffset { f with transferedNum := k } := by
  induction k with
  | zero => simp [FragmentInfo.nextOffset]
  | succ k ih =>
    rw [List.range_succ, List.map_append, List.sum_append, ih (by omega)]
    have hne : ¬ k + 1 = f.totalNum := by omega
    rcases k with _ | k
    · simp [FragmentInfo.nextOffset, FragmentInfo.sizeOf]
    · rcases k with _ | k
      · simp [FragmentInfo.nextOffset, FragmentInfo.sizeOf, hne]
      · simp [FragmentInfo.nextOffset, FragmentInfo.sizeOf, hne]
        ring

lemma map_kindOf {n : ℕ} (h : 2 ≤ n) :
    (List.range n).map (kindOf n) = .s :: List.replicate (n - 2) .m ++ [.e] := by
  obtain ⟨m, rfl⟩ : ∃ m, n = m + 2 := ⟨n - 2, by omega⟩
  rw [List.range_succ, List.map_append, List.range_succ_eq_map, List.map_cons, List.map_map]
  have hmid : (List.range m).map (kindOf (m + 2) ∘ Nat.succ) = List.replicate m .m := by
    rw [List.eq_replicate_iff]
    refine ⟨by simp, ?_⟩
    intro x hx
    obtain ⟨k, hk, rfl⟩ := List.mem_map.mp hx
    have hlt := List.mem_range.mp hk
    simp only [Function.comp, kindOf]
    rw [if_neg (by omega), if_neg (by omega)]
  simp [hmid, kindOf]

lemma bytes_of_consecutive (p : Ptr) (spans : List Span)
    (h : ∀ (i : ℕ) (hi : i < spans.length),
      spans[i].start = p.add ((spans.take i).map Span.size).sum) :
    spans.flatMap (fun f => f.start.read f.size) = p.read (spans.map Span.size).sum := by
  induction spans generalizing p with
  | nil => rfl
  | cons f fs ih =>
    have hf : f.start = p := (h 0 (by simp)).trans (by simp)
    have htail : fs.flatMap (fun f => f.start.read f.size) =
        (p.add f.size).read (fs.map Span.size).sum := by
      apply ih
      intro i hi
      exact (h (i + 1) (by simpa using hi)).trans (by simp)
    rw [List.flatMap_cons, htail, List.map_cons, List.sum_cons, Ptr.read_add, hf]

lemma partitionOf_spans {pdu : EnPduNode} {b : FragmentBuffer}
    (hstart : b.pduNode.pPduStart = pdu.pPduStart) (h2 : 2 ≤ b.fragmentInfo.totalNum) :
    PartitionOf pdu b.fragmentInfo.totalNum ((List.range b.fragmentInfo.totalNum).map b.spanOf) ↔
      ((List.range b.fragmentInfo.totalNum).map b.fragmentInfo.sizeOf).sum = pdu.pduSize := by
  have hsizes (k : ℕ) : ((List.range k).map b.spanOf).map Span.size =
      (List.range k).map b.fragmentInfo.sizeOf := by
    rw [List.map_map]
    rfl
  have hcons : ∀ (i : ℕ) (h : i < ((List.range b.fragmentInfo.totalNum).map b.spanOf).length),
      ((List.range b.fragmentInfo.totalNum).map b.spanOf)[i].start =
        pdu.pPduStart.add
          ((((List.range b.fragmentInfo.totalNum).map b.spanOf).take i).map Span.size).sum := by
    intro i hi
    have hi' : i < b.fragmentInfo.totalNum := by simpa using hi
    rw [← List.map_take, List.take_range, min_eq_left hi'.le, hsizes, sizes_sum _ _ hi', ← hstart]
    simp [FragmentBuffer.spanOf]
  constructor
  · intro h
    rw [← h.covers, hsizes]
  · intro h
    refine ⟨h2, ?_, ?_, hcons, by rw [hsizes, h], ?_⟩
    · rw [List.map_map, ← map_kindOf h2]
      rfl
    · rw [List.map_map]
      exact List.map_id _
    · rw [bytes_of_consecutive _ _ hcons, hsizes, h]

/-- How many bytes of a PDU a middle packet carries in a frame of `payload` bytes. -/
def middleBytes (payload : ℕ) : ℕ :=
  if payload ≤ gseMaxSize then payload - 15 else payload / 2 - 15

lemma middleSize_eq {payload : ℕ} (h1 : 1991 ≤ payload) (h2 : payload ≤ 7264) :
    middleSize payload = middleBytes payload ∧ 1976 ≤ middleBytes payload ∧
      middleBytes payload ≤ 4080 := by
  have hwhole : sub16 payload (11 + 4) = payload - 15 := sub16_of_le (by omega) (by omega)
  have hhalf : sub16 (payload / 2) (11 + 4) = payload / 2 - 15 := sub16_of_le (by omega) (by omega)
  simp only [middleSize, middleBytes, gseHeaderLengthFragmentPduM1, serialExtHeaderSize, gseMaxSize]
  by_cases hp : payload ≤ 4095
  · simp only [hp, if_true, hwhole, true_and]
    omega
  · simp only [hp, if_false, hhalf, true_and]
    omega

/-- A PDU of `pduSize` bytes to be fragmented for `u` bytes left in a frame of `payload`. -/
structure Splits (pduSize u payload : ℕ) : Prop where
  size_pos : 1 ≤ pduSize
  size_le : pduSize ≤ 8050
  payload_ge : 1991 ≤ payload
  payload_le : payload ≤ 7264
  usable_ge : 14 ≤ u
  usable_le : u ≤ payload
  too_long : u < pduSize + 4

def remainder (pduSize u : ℕ) : ℕ := pduSize + 15 - u

def fragmentCount (pduSize u payload : ℕ) : ℕ :=
  remainder pduSize u / middleBytes payload +
    (if 0 < remainder pduSize u % middleBytes payload then 1 else 0) + 1

section

variable {pduSize u payload : ℕ}

lemma Splits.count_bounds (h : Splits pduSize u payload) :
    2 ≤ fragmentCount pduSize u payload ∧ fragmentCount pduSize u payload ≤ 6 := by
  obtain ⟨-, hm, -⟩ := middleSize_eq h.payload_ge h.payload_le
  have hs := h.size_le
  have hu := h.usable_ge
  have hl := h.too_long
  have hdiv := Nat.div_add_mod (remainder pduSize u) (middleBytes payload)
  have hr : remainder pduSize u = pduSize + 15 - u := rfl
  have hq : remainder pduSize u / middleBytes payload ≤ 4 := by
    rw [← Nat.lt_succ_iff, Nat.div_lt_iff_lt_mul (by omega)]
    omega
  simp only [fragmentCount]
  generalize remainder pduSize u / middleBytes payload = q at *
  split_ifs with hmod
  · omega
  · have hpos : q ≠ 0 := by
      rintro rfl
      omega
    omega

lemma Splits.plan (h : Splits pduSize u payload) {node : EnPduNode} (hsize : node.pduSize = pduSize)
    (hmac : getBroadcastType node.macAddress = true) {bNewFrame : Bool}
    (hnew : bNewFrame = true → u = payload) (id : ℕ) :
    let f := (plannedBuffer bNewFrame payload u node id).fragmentInfo
    f.transferedNum = 0 ∧ f.startSize = u - 11 ∧ f.middleSize = middleBytes payload ∧
      f.totalNum = fragmentCount pduSize u payload ∧
      f.endSize = sub16 (remainder pduSize u % middleBytes payload) 4 := by
  obtain ⟨hmid, hm, hm'⟩ := middleSize_eq h.payload_ge h.payload_le
  obtain ⟨hc1, hc2⟩ := h.count_bounds
  have hsl := h.size_le
  have hug := h.usable_ge
  have hul := h.usable_le
  have hp := h.payload_le
  have htl := h.too_long
  have hroom : (if bNewFrame then payload else u) = u := by
    split_ifs with hb
    · exact (hnew hb).symm
    · rfl
  have hstart : sub16 (sub16 u gseHeaderLengthFragmentPduS2) serialExtHeaderSize = u - 11 := by
    have h7 : sub16 u 7 = u - 7 := sub16_of_le (by omega) (by omega)
    simp only [gseHeaderLengthFragmentPduS2, serialExtHeaderSize]
    rw [h7, sub16_of_le (by omega) (by omega)]
    omega
  have hrem : ((((pduSize + 4 : ℕ) : ℤ) - (u - 11 : ℕ)) % 4294967296).toNat =
      remainder pduSize u := by
    simp only [remainder]
    omega
  have hmod : u16 (remainder pduSize u % middleBytes payload) =
      remainder pduSize u % middleBytes payload :=
    u16_of_lt (lt_of_lt_of_le (Nat.mod_lt _ (by omega)) (by omega))
  simp only [plannedBuffer, fragmentPlan, startHeaderLength, hmac, if_true, hroom, hsize, hstart,
    hrem, hmid, hmod, true_and]
  exact ⟨u8_of_lt (by rw [← fragmentCount]; omega), trivial⟩

def LastHoldsCrc (pduSize u payload : ℕ) : Prop :=
  4 ≤ remainder pduSize u % middleBytes payload

instance : Decidable (LastHoldsCrc pduSize u payload) := inferInstanceAs (Decidable (_ ≤ _))

/-- The planned sizes add up to the PDU exactly when the CRC fits into the last fragment: a
smaller rest leaves an end size below zero, which wraps. -/
lemma Splits.sizes_sum_iff (h : Splits pduSize u payload) {f : FragmentInfo}
    (hstart : f.startSize = u - 11) (hmid : f.middleSize = middleBytes payload)
    (htotal : f.totalNum = fragmentCount pduSize u payload)
    (hend : f.endSize = sub16 (remainder pduSize u % middleBytes payload) 4) :
    ((List.range f.totalNum).map f.sizeOf).sum = pduSize ↔ LastHoldsCrc pduSize u payload := by
  obtain ⟨-, hm, hm'⟩ := middleSize_eq h.payload_ge h.payload_le
  obtain ⟨hc1, hc2⟩ := h.count_bounds
  have htl := h.too_long
  have hug := h.usable_ge
  obtain ⟨n, hn⟩ : ∃ n, f.totalNum = n + 1 := ⟨f.totalNum - 1, by omega⟩
  have hsum : ((List.range f.totalNum).map f.sizeOf).sum =
      (u - 11) + middleBytes payload * (n - 1) + f.endSize := by
    have hlast : f.sizeOf n = f.endSize := by
      simp only [FragmentInfo.sizeOf, hn, if_true]
      rw [if_neg (by omega)]
    rw [hn, List.range_succ, List.map_append, List.sum_append, sizes_sum f n (by omega)]
    simp only [List.map_cons, List.map_nil, List.sum_cons, List.sum_nil, hlast,
      FragmentInfo.nextOffset, hstart, hmid]
    split_ifs with h1
    · obtain rfl : n = 1 := by omega
      simp
    · ring
  have hdiv := Nat.div_add_mod (remainder pduSize u) (middleBytes payload)
  have hr : remainder pduSize u = pduSize + 15 - u := rfl
  have hlt := Nat.mod_lt (remainder pduSize u) (show 0 < middleBytes payload by omega)
  have hn1 : 1 ≤ n := by omega
  rw [hsum, hend, LastHoldsCrc]
  simp only [fragmentCount] at htotal
  generalize remainder pduSize u % middleBytes payload = e at *
  generalize remainder pduSize u / middleBytes payload = q at *
  by_cases he : 4 ≤ e
  · rw [sub16_of_le he (by omega)]
    rw [if_pos (by omega)] at htotal
    obtain rfl : n = q + 1 := by omega
    simp only [he, iff_true, Nat.add_sub_cancel]
    omega
  · have hwrap : sub16 e 4 = 65532 + e := by
      simp only [sub16]
      omega
    rw [hwrap]
    simp only [he, iff_false]
    split_ifs at htotal with h0
    · obtain rfl : n = q + 1 := by omega
      simp only [Nat.add_sub_cancel]
      omega
    · obtain rfl : n = q := by omega
      obtain ⟨k, rfl⟩ : ∃ k, n = k + 1 := ⟨n - 1, by omega⟩
      rw [Nat.mul_succ] at hdiv
      simp only [Nat.add_sub_cancel]
      omega

end

lemma partitioned_adopt {conf : AppConf} {pdu : EnPduNode} {s : Fragments} {id : ℕ}
    {b : FragmentBuffer} (hbuf : (s.adopt id b).fragmentBuffer id = b) :
    Partitioned conf pdu (s.adopt id b, (id : ℤ)) ↔
      (∀ calls, b.fragmentInfo.totalNum ≤ calls.length →
        PartitionOf pdu b.fragmentInfo.totalNum
          ((fetchEach conf calls (s.adopt id b)).1.map EnPduNode.span)) ∧
      ∀ calls, ((fetchEach conf calls (s.adopt id b)).2.fragmentBuffer id).used =
        decide (calls.length < b.fragmentInfo.totalNum) := by
  constructor
  · intro h
    have hp := h.partition
    have hr := h.released
    simp only [Int.toNat_natCast, hbuf] at hp hr
    exact ⟨hp, hr⟩
  · rintro ⟨hp, hr⟩
    refine ⟨Int.natCast_nonneg id, ?_, ?_⟩
    · simpa only [Int.toNat_natCast, hbuf] using hp
    · simpa only [Int.toNat_natCast, hbuf] using hr

lemma Splits.partitioned {pduSize u payload : ℕ} (h : Splits pduSize u payload) (conf : AppConf)
    {s : Fragments} (hs : s.Drained) {node : EnPduNode} (hsize : node.pduSize = pduSize)
    (hmac : node.macAddress = boardcastAddress) {bNewFrame : Bool}
    (hnew : bNewFrame = true → u = payload) :
    Partitioned conf node (doFragment bNewFrame payload u node s) ↔
      LastHoldsCrc pduSize u payload := by
  have hb : getBroadcastType node.macAddress = true := by rw [hmac]; decide
  have hle := h.size_le
  rw [doFragment_drained hs (by omega)]
  generalize hidq : (s.lastFragmentID + 1) % 256 = id
  have hid : id < 256 := by omega
  obtain ⟨htr, hstart, hmid, htotal, hend⟩ := h.plan hsize hb hnew id
  have hstart' : (plannedBuffer bNewFrame payload u node id).pduNode.pPduStart =
      node.pPduStart := rfl
  have hused : (plannedBuffer bNewFrame payload u node id).used = true := rfl
  generalize plannedBuffer bNewFrame payload u node id = b at *
  obtain ⟨hc1, hc2⟩ := h.count_bounds
  have hbuf : (s.adopt id b).fragmentBuffer id = b := by simp [Fragments.adopt]
  have hpend : (s.adopt id b).Pending id := hs.adopt hid hused (by omega) (by omega)
  have htwo : 2 ≤ b.fragmentInfo.totalNum := by omega
  rw [← h.sizes_sum_iff hstart hmid htotal hend]
  have hpart (calls : List EnPduNode) (hlen : b.fragmentInfo.totalNum ≤ calls.length) :
      (fetchEach conf calls (s.adopt id b)).1.map EnPduNode.span =
        (List.range b.fragmentInfo.totalNum).map b.spanOf := by
    have h := (fetchEach_pending conf hpend calls).1
    rw [hbuf, htr, Nat.sub_zero, min_eq_right hlen, ← List.range_eq_range'] at h
    exact h
  have hrel (calls : List EnPduNode) :
      ((fetchEach conf calls (s.adopt id b)).2.fragmentBuffer id).used =
        decide (calls.length < b.fragmentInfo.totalNum) := by
    have h := (fetchEach_pending conf hpend calls).2
    rw [hbuf, htr, zero_add] at h
    exact h
  rw [partitioned_adopt hbuf]
  constructor
  · intro hpartd
    have hlen : b.fragmentInfo.totalNum ≤ (List.replicate 6 EnPduNode.zero).length := by
      rw [List.length_replicate]
      omega
    have hp := hpartd.1 _ hlen
    rw [hpart _ hlen] at hp
    rw [← hsize]
    exact (partitionOf_spans hstart' htwo).mp hp
  · intro hsum
    refine ⟨?_, hrel⟩
    intro calls hlen
    rw [hpart calls hlen]
    exact (partitionOf_spans hstart' htwo).mpr (hsum.trans hsize.symm)

/-- Fragmentation partitions the PDU exactly when the last fragment has room for the CRC. -/
theorem partitioned_iff (conf : AppConf) {s : Fragments} (hs : s.Drained) {node : EnPduNode}
    (hmac : node.macAddress = boardcastAddress) (h1 : 1 ≤ node.pduSize) (h2 : node.pduSize ≤ 8050)
    {modcod : ℕ} (hlow : 1 ≤ modcod) (hhigh : modcod ≤ 28) {u : ℕ} (hu : 14 ≤ u)
    (hup : u ≤ mapModcodPayload modcod) (hlong : u < node.pduSize + 4) {bNewFrame : Bool}
    (hnew : bNewFrame = true → u = mapModcodPayload modcod) :
    Partitioned conf node (doFragment bNewFrame (mapModcodPayload modcod) u node s) ↔
      LastHoldsCrc node.pduSize u (mapModcodPayload modcod) := by
  obtain ⟨hp1, hp2⟩ := mapModcodPayload_bounds hlow hhigh
  exact Splits.partitioned ⟨h1, h2, hp1, hp2, hu, hup, hlong⟩ conf hs rfl hmac hnew

def zeroPdu (n : ℕ) : EnPduNode :=
  { EnPduNode.zero with pduSize := n, pduTotalLength := n, macAddress := boardcastAddress }

def sampleConf : AppConf where
  mappingId := 0
  modcode := 1
  paddingThreshold := 14
  portToPktType := 6
  localMac := List.replicate 6 0
  localMac_length := rfl
  invalidIdValue x := x < 0 || 256 < x
  invalid_of_neg x hx := by simp [hx]
  valid_of_id x h0 h1 := by
    rw [Bool.or_eq_false_iff, decide_eq_false_iff_not, decide_eq_false_iff_not]
    omega

theorem partitioned_iff_hundred :
    Partitioned sampleConf (zeroPdu 100)
      (doFragment false (mapModcodPayload 1) 50 (zeroPdu 100) .initial) :=
  (partitioned_iff sampleConf Fragments.drained_initial rfl (by decide) (by decide) (by decide)
    (by decide) (by decide) (by decide) (by decide) (by decide)).mpr (by decide)

/-- One byte too much for the middle packet: the end size wraps. -/
theorem end_size_wraps :
    ¬ Partitioned sampleConf (zeroPdu 1976)
      (doFragment false (mapModcodPayload 1) 14 (zeroPdu 1976) .initial) := by
  have hsplit : Splits 1976 14 (mapModcodPayload 1) := by constructor <;> decide
  rw [hsplit.partitioned sampleConf Fragments.drained_initial rfl rfl (by decide)]
  decide

end Fengtai.Send
