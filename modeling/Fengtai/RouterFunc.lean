import Fengtai.Library.Runs
import Fengtai.Receive.Decapsulate
import Fengtai.Router

set_option autoImplicit false

/-! `router_func`: one step along the segments of a packet's router header. -/

namespace Fengtai

open Library.Words Library.Runs Receive

/-- The rest of what `router_func` uses of the router's declarations: `CUR_ENTRY` is an unsigned
field of the header, apart from `LAST_ENTRY`. -/
structure CurEntry (rh : RouterHeader) where
  sizeofFwdFixedTunnel : ℕ
  bits : ℕ
  get : List UInt8 → ℕ
  set : ℕ → List UInt8 → List UInt8
  get_lt : ∀ h, get h < 2 ^ bits
  length_set : ∀ v h, (set v h).length = h.length
  get_set : ∀ v h, h.length = rh.routerHeaderLen → get (set v h) = v % 2 ^ bits
  set_get : ∀ h, set (get h) h = h
  set_set : ∀ v w h, set v (set w h) = set v h
  lastEntry_set : ∀ v h, rh.lastEntry (set v h) = rh.lastEntry h

/-- What `g_st_app_conf` says of a node of the network. -/
structure HopConf where
  localId : ℕ
  nextHopId : ℕ → ℕ

namespace HopConf

/-- A node that is not the current one, or that knows no such hop, answers zero. -/
def getMappingIndex (conf : HopConf) (curId _lastId nextHopId : ℕ) : ℕ :=
  if curId = conf.localId then
    ((List.range maxDeviceNum).find? fun i => nextHopId == conf.nextHopId i).getD 0
  else 0

end HopConf

namespace RouterHeader

variable (rh : RouterHeader)

def header (mem : Memory) : List UInt8 := window mem 0 rh.routerHeaderLen

/-- `n` segments, each turned where it stands. -/
def swapSegments (n : ℕ) (mem : Memory) : Memory :=
  (List.range n).foldl (fun mem i => ntohsAt mem (rh.routerHeaderLen + 2 * i)) mem

def segment (mem : Memory) (i : ℕ) : ℕ := load16 mem (rh.routerHeaderLen + 2 * i)

end RouterHeader

/-- What a call leaves: the rings and pools, and the bytes given to `sendToVtnl`, if any. -/
structure Routed where
  pool : Pool
  vtnl : Option (List UInt8)

/-- Its counters have eight bits: with a last entry of 255 they never end. -/
def routerFunc {rh : RouterHeader} (ce : CurEntry rh) (conf : HopConf) (env : Dpdk) (m : RteMbuf)
    (pool : Pool) : Option Routed :=
  let last := rh.lastEntry (rh.header m.data)
  if last < 255 then
    let mem := rh.swapSegments (last + 1) m.data
    let cur := ce.get (rh.header mem)
    let curId := rh.segment mem cur
    let lastId := rh.segment mem last
    let nextHopId := if cur = last then rh.segment mem cur else rh.segment mem (cur + 1)
    let mappingIndex := conf.getMappingIndex curId lastId nextHopId
    if mappingIndex = 255 then
      let routerHeaderSize := u16 (rh.routerHeaderLen + 2 * (last + 1))
      let m := { m with data := mem }.adj (u16 (routerHeaderSize + ce.sizeofFwdFixedTunnel))
      some ⟨pool.free m.addr, some m.bytes⟩
    else
      let mem := overwrite mem (ce.set (cur + 1) (rh.header mem))
      let mem := rh.swapSegments (rh.lastEntry (rh.header mem) + 1) mem
      some ⟨pool.enqueueEncapRing env { m with data := mem } mappingIndex, none⟩
  else none

namespace RouterHeader

variable (rh : RouterHeader)

@[simp] lemma header_length (mem : Memory) : (rh.header mem).length = rh.routerHeaderLen :=
  window_length mem 0 _

lemma swapSegments_succ (n : ℕ) (mem : Memory) :
    rh.swapSegments (n + 1) mem =
      ntohsAt (rh.swapSegments n mem) (rh.routerHeaderLen + 2 * n) := by
  rw [swapSegments, List.range_succ, List.foldl_append, List.foldl_cons, List.foldl_nil]
  rfl

lemma swapSegments_outside (n : ℕ) (mem : Memory) {i : ℕ}
    (h : i < rh.routerHeaderLen ∨ rh.routerHeaderLen + 2 * n ≤ i) :
    rh.swapSegments n mem i = mem i := by
  induction n with
  | zero => rfl
  | succ n ih =>
    rw [swapSegments_succ, ntohsAt, if_neg (by omega), if_neg (by omega)]
    exact ih (by omega)

lemma swapSegments_even (n : ℕ) (mem : Memory) {k : ℕ} (h : k < n) :
    rh.swapSegments n mem (rh.routerHeaderLen + 2 * k) = mem (rh.routerHeaderLen + 2 * k + 1) := by
  induction n with
  | zero => omega
  | succ n ih =>
    rw [swapSegments_succ, ntohsAt]
    rcases Nat.lt_succ_iff_lt_or_eq.1 h with hlt | rfl
    · rw [if_neg (by omega), if_neg (by omega), ih hlt]
    · rw [if_pos rfl, rh.swapSegments_outside _ _ (by omega)]

lemma swapSegments_odd (n : ℕ) (mem : Memory) {k : ℕ} (h : k < n) :
    rh.swapSegments n mem (rh.routerHeaderLen + 2 * k + 1) = mem (rh.routerHeaderLen + 2 * k) := by
  induction n with
  | zero => omega
  | succ n ih =>
    rw [swapSegments_succ, ntohsAt]
    rcases Nat.lt_succ_iff_lt_or_eq.1 h with hlt | rfl
    · rw [if_neg (by omega), if_neg (by omega), ih hlt]
    · rw [if_neg (by omega), if_pos rfl, rh.swapSegments_outside _ _ (by omega)]

@[simp] lemma header_swapSegments (n : ℕ) (mem : Memory) :
    rh.header (rh.swapSegments n mem) = rh.header mem := by
  apply List.map_congr_left
  intro i hi
  exact rh.swapSegments_outside n mem (Or.inl (by simpa using hi))

lemma segment_swapSegments (n : ℕ) (mem : Memory) {k : ℕ} (h : k < n) :
    rh.segment (rh.swapSegments n mem) k = bswap16 (rh.segment mem k) := by
  rw [segment, segment, load16, load16, rh.swapSegments_even n mem h,
    rh.swapSegments_odd n mem h, bswap16]
  have h₁ := (mem (rh.routerHeaderLen + 2 * k)).toNat_lt
  have h₂ := (mem (rh.routerHeaderLen + 2 * k + 1)).toNat_lt
  generalize (mem (rh.routerHeaderLen + 2 * k)).toNat = a at *
  generalize (mem (rh.routerHeaderLen + 2 * k + 1)).toNat = b at *
  omega

lemma swapSegments_overwrite (n : ℕ) (mem : Memory) {bs : List UInt8}
    (h : bs.length = rh.routerHeaderLen) :
    rh.swapSegments n (overwrite (rh.swapSegments n mem) bs) = overwrite mem bs := by
  have hbehind : ∀ (mem : Memory) i, rh.routerHeaderLen ≤ i → overwrite mem bs i = mem i := by
    intro mem i hi
    rw [overwrite, List.getD_eq_getElem?_getD, List.getElem?_eq_none (by omega), Option.getD_none]
  funext i
  rcases Nat.lt_or_ge i rh.routerHeaderLen with hlt | hge
  · rw [rh.swapSegments_outside _ _ (Or.inl hlt), overwrite, overwrite,
      rh.swapSegments_outside _ _ (Or.inl hlt)]
  rcases Nat.lt_or_ge i (rh.routerHeaderLen + 2 * n) with hin | hout
  · rw [hbehind mem i hge]
    obtain ⟨k, hk⟩ : ∃ k, i = rh.routerHeaderLen + 2 * k ∨ i = rh.routerHeaderLen + 2 * k + 1 :=
      ⟨(i - rh.routerHeaderLen) / 2, by omega⟩
    rcases hk with rfl | rfl
    · rw [rh.swapSegments_even _ _ (by omega), hbehind _ _ (by omega),
        rh.swapSegments_odd _ _ (by omega)]
    · rw [rh.swapSegments_odd _ _ (by omega), hbehind _ _ (by omega),
        rh.swapSegments_even _ _ (by omega)]
  · rw [rh.swapSegments_outside _ _ (Or.inr hout), hbehind _ i hge, hbehind _ i hge,
      rh.swapSegments_outside _ _ (Or.inr hout)]

end RouterHeader

lemma header_overwrite {rh : RouterHeader} (mem : Memory) {bs : List UInt8}
    (h : bs.length = rh.routerHeaderLen) : rh.header (overwrite mem bs) = bs := by
  rw [RouterHeader.header, ← h]
  exact holds_overwrite mem bs

lemma CurEntry.length_set_header {rh : RouterHeader} (ce : CurEntry rh) (v : ℕ) (mem : Memory) :
    (ce.set v (rh.header mem)).length = rh.routerHeaderLen := by
  rw [ce.length_set, rh.header_length]

lemma getMappingIndex_lt (conf : HopConf) (curId lastId nextHopId : ℕ) :
    conf.getMappingIndex curId lastId nextHopId < maxDeviceNum := by
  rw [HopConf.getMappingIndex]
  split
  · cases hfind : (List.range maxDeviceNum).find? fun i => nextHopId == conf.nextHopId i with
    | none => exact Nat.zero_lt_succ _
    | some i => exact List.mem_range.1 (List.mem_of_find?_eq_some hfind)
  · exact Nat.zero_lt_succ _

lemma getMappingIndex_right (conf : HopConf) (curId lastId nextHopId : ℕ) :
    conf.nextHopId (conf.getMappingIndex curId lastId nextHopId) = nextHopId ↔
      conf.nextHopId 0 = nextHopId ∨
        (curId = conf.localId ∧ ∃ i < maxDeviceNum, conf.nextHopId i = nextHopId) := by
  rw [HopConf.getMappingIndex]
  split
  next hlocal =>
    cases hfind : (List.range maxDeviceNum).find? fun i => nextHopId == conf.nextHopId i with
    | none =>
      refine ⟨Or.inl, fun h => h.elim id ?_⟩
      rintro ⟨-, i, hi, heq⟩
      exact absurd heq.symm (by simpa using List.find?_eq_none.1 hfind i (List.mem_range.2 hi))
    | some i =>
      have heq : nextHopId = conf.nextHopId i := by simpa using List.find?_some hfind
      have hi := List.mem_range.1 (List.mem_of_find?_eq_some hfind)
      exact ⟨fun _ => Or.inr ⟨hlocal, i, hi, heq.symm⟩, fun _ => heq.symm⟩
  next hlocal => exact ⟨Or.inl, fun h => h.resolve_right fun h => hlocal h.1⟩

section Step

variable {rh : RouterHeader} (ce : CurEntry rh)

def curEntry (m : RteMbuf) : ℕ := ce.get (rh.header m.data)

def lastEntry (rh : RouterHeader) (m : RteMbuf) : ℕ := rh.lastEntry (rh.header m.data)

def segmentOf (rh : RouterHeader) (m : RteMbuf) (i : ℕ) : ℕ := bswap16 (rh.segment m.data i)

def nextHop (m : RteMbuf) : ℕ :=
  if curEntry ce m = lastEntry rh m then segmentOf rh m (curEntry ce m)
  else segmentOf rh m (curEntry ce m + 1)

def WellFormed (m : RteMbuf) : Prop := curEntry ce m ≤ lastEntry rh m ∧ lastEntry rh m < 255

/-- The packet as it is put on ring `i`. -/
structure Forwarded (conf : HopConf) (m m' : RteMbuf) (i : ℕ) : Prop where
  ring : i < maxDeviceNum
  next_hop : conf.nextHopId i = nextHop ce m
  unchanged : ∃ cur, m' = { m with data := overwrite m.data (ce.set cur (rh.header m.data)) }
  well_formed : WellFormed ce m'

def RoutesRight (conf : HopConf) (env : Dpdk) (pool : Pool) (m : RteMbuf) : Prop :=
  ∃ r, routerFunc ce conf env m pool = some r ∧
    ((r.pool.ring = pool.ring ∧ r.pool.freed = pool.freed ++ [m.addr]) ∨
      ∃ i m', r.pool.ring = pool.ring ++ [(i, m')] ∧ r.pool.freed = pool.freed ∧
        Forwarded ce conf m m' i)

/-- The next hop is found, or is the one the fall-through names, and the entry moves on to
another entry. A field that holds no more than the last entry goes back to zero. -/
def OnItsWay (conf : HopConf) (env : Dpdk) (pool : Pool) (m : RteMbuf) : Prop :=
  env.enqueues pool.enqueues = true →
    (conf.nextHopId 0 = nextHop ce m ∨ (segmentOf rh m (curEntry ce m) = conf.localId ∧
        ∃ i < maxDeviceNum, conf.nextHopId i = nextHop ce m)) ∧
      (curEntry ce m < lastEntry rh m ∨ curEntry ce m + 1 = 2 ^ ce.bits)

/-- The packet `router_func` hands to the ring. -/
def advanced (m : RteMbuf) : RteMbuf :=
  { m with data := overwrite m.data (ce.set (curEntry ce m + 1) (rh.header m.data)) }

def mappingIndexOf (conf : HopConf) (m : RteMbuf) : ℕ :=
  conf.getMappingIndex (segmentOf rh m (curEntry ce m)) (segmentOf rh m (lastEntry rh m))
    (nextHop ce m)

lemma routerFunc_eq (conf : HopConf) (env : Dpdk) (pool : Pool) {m : RteMbuf}
    (h : WellFormed ce m) :
    routerFunc ce conf env m pool =
      some ⟨pool.enqueueEncapRing env (advanced ce m) (mappingIndexOf ce conf m), none⟩ := by
  obtain ⟨hle, hlt⟩ := h
  have hseg : ∀ k ≤ lastEntry rh m,
      rh.segment (rh.swapSegments (lastEntry rh m + 1) m.data) k = segmentOf rh m k :=
    fun k hk => rh.segment_swapSegments _ _ (by omega)
  have hhop : (if curEntry ce m = lastEntry rh m then
      rh.segment (rh.swapSegments (lastEntry rh m + 1) m.data) (curEntry ce m)
      else rh.segment (rh.swapSegments (lastEntry rh m + 1) m.data) (curEntry ce m + 1)) =
        nextHop ce m := by
    rw [nextHop]
    split
    · rw [hseg _ hle]
    · rw [hseg _ (by omega)]
  have hindex : mappingIndexOf ce conf m ≠ 255 :=
    ((getMappingIndex_lt _ _ _ _).trans_le (by decide)).ne
  have hlength := ce.length_set_header (curEntry ce m + 1) m.data
  have hlast : rh.lastEntry (rh.header (overwrite (rh.swapSegments (lastEntry rh m + 1) m.data)
      (ce.set (curEntry ce m + 1) (rh.header m.data)))) = lastEntry rh m := by
    rw [header_overwrite _ hlength, ce.lastEntry_set, lastEntry]
  rw [routerFunc]
  simp only [RouterHeader.header_swapSegments]
  rw [← lastEntry, ← curEntry, if_pos hlt, hhop, hseg _ hle, hseg _ le_rfl, ← mappingIndexOf,
    if_neg hindex, hlast, rh.swapSegments_overwrite _ _ hlength, advanced]

@[simp] lemma header_advanced (m : RteMbuf) :
    rh.header (advanced ce m).data = ce.set (curEntry ce m + 1) (rh.header m.data) := by
  rw [advanced, header_overwrite _ (ce.length_set_header _ _)]

lemma wellFormed_advanced {m : RteMbuf} (h : WellFormed ce m) :
    WellFormed ce (advanced ce m) ↔
      curEntry ce m < lastEntry rh m ∨ curEntry ce m + 1 = 2 ^ ce.bits := by
  obtain ⟨hle, hlt⟩ := h
  have hfield := ce.get_lt (rh.header m.data)
  rw [WellFormed, curEntry, lastEntry, header_advanced, ce.lastEntry_set,
    ce.get_set _ _ (rh.header_length _), ← lastEntry]
  rw [← curEntry] at hfield
  rcases Nat.lt_or_ge (curEntry ce m + 1) (2 ^ ce.bits) with hin | hout
  · rw [Nat.mod_eq_of_lt hin]
    omega
  · have heq : curEntry ce m + 1 = 2 ^ ce.bits := by omega
    rw [heq, Nat.mod_self]
    exact ⟨fun _ => Or.inr rfl, fun _ => ⟨Nat.zero_le _, hlt⟩⟩

lemma routesRight_iff (conf : HopConf) (env : Dpdk) (pool : Pool) {m : RteMbuf}
    (h : WellFormed ce m) : RoutesRight ce conf env pool m ↔ OnItsWay ce conf env pool m := by
  rw [RoutesRight, routerFunc_eq ce conf env pool h, OnItsWay, ← getMappingIndex_right,
    ← wellFormed_advanced ce h, ← mappingIndexOf]
  simp only [Option.some.injEq, exists_eq_left']
  rw [Pool.enqueueEncapRing]
  split
  next hsent =>
    constructor
    · rintro (⟨hring, -⟩ | ⟨i, m', hring, -, hf⟩) -
      · simp at hring
      · obtain ⟨rfl, rfl⟩ : mappingIndexOf ce conf m = i ∧ advanced ce m = m' := by
          simpa using List.append_cancel_left hring
        exact ⟨hf.next_hop, hf.well_formed⟩
    · intro hok
      obtain ⟨hhop, hw⟩ := hok hsent
      exact Or.inr ⟨_, _, rfl, rfl, getMappingIndex_lt _ _ _ _, hhop, ⟨_, rfl⟩, hw⟩
  next hdropped =>
    exact ⟨fun _ hsent => absurd hsent hdropped, fun _ => Or.inl ⟨rfl, rfl⟩⟩

end Step

structure Hop where
  conf : HopConf
  env : Dpdk
  pool : Pool
  arrived : RteMbuf

section Path

variable {rh : RouterHeader} (ce : CurEntry rh)

def travel (_ : RteMbuf) (hop : Hop) : Option (RteMbuf × Unit) :=
  (routerFunc ce hop.conf hop.env hop.arrived hop.pool).bind fun r =>
    ((r.pool.ring.drop hop.pool.ring.length).head?).map fun x => (x.2, ())

def Carried (m : RteMbuf) (hop : Hop) : Prop :=
  hop.arrived.bytes = m.bytes ∧ OnItsWay ce hop.conf hop.env hop.pool hop.arrived

/-- The packet `origin` with at most another `CUR_ENTRY`. -/
def SameButCurEntry (origin m : RteMbuf) : Prop :=
  ∃ cur, m.bytes = ce.set cur (rh.header origin.data) ++ origin.bytes.drop rh.routerHeaderLen

lemma bytes_eq {m : RteMbuf} (h : rh.routerHeaderLen ≤ m.dataLen) :
    m.bytes =
      rh.header m.data ++ window m.data rh.routerHeaderLen (m.dataLen - rh.routerHeaderLen) := by
  rw [RteMbuf.bytes, RouterHeader.header]
  conv_lhs => rw [← Nat.add_sub_cancel' h, window_add, Nat.zero_add]

lemma bytes_drop {m : RteMbuf} (h : rh.routerHeaderLen ≤ m.dataLen) :
    m.bytes.drop rh.routerHeaderLen =
      window m.data rh.routerHeaderLen (m.dataLen - rh.routerHeaderLen) := by
  rw [bytes_eq h, List.drop_left' (rh.header_length _)]

lemma sameButCurEntry_refl {m : RteMbuf} (h : rh.routerHeaderLen ≤ m.dataLen) :
    SameButCurEntry ce m m :=
  ⟨ce.get (rh.header m.data), by rw [ce.set_get, bytes_drop h, ← bytes_eq h]⟩

lemma header_of_bytes {m m' : RteMbuf} (h : rh.routerHeaderLen ≤ m.dataLen)
    (hbytes : m'.bytes = m.bytes) :
    rh.routerHeaderLen ≤ m'.dataLen ∧ rh.header m'.data = rh.header m.data := by
  have hlen : m'.dataLen = m.dataLen := by
    simpa [RteMbuf.bytes] using congrArg List.length hbytes
  have h' : rh.routerHeaderLen ≤ m'.dataLen := hlen ▸ h
  rw [bytes_eq h, bytes_eq h'] at hbytes
  exact ⟨h', (List.append_inj hbytes (by simp)).1⟩

lemma bytes_advanced {m : RteMbuf} (h : rh.routerHeaderLen ≤ m.dataLen) :
    (advanced ce m).bytes =
      ce.set (curEntry ce m + 1) (rh.header m.data) ++ m.bytes.drop rh.routerHeaderLen := by
  have hlength := ce.length_set_header (curEntry ce m + 1) m.data
  have hbehind : window (advanced ce m).data rh.routerHeaderLen (m.dataLen - rh.routerHeaderLen) =
      window m.data rh.routerHeaderLen (m.dataLen - rh.routerHeaderLen) := by
    apply List.map_congr_left
    intro i _
    simp only [advanced, overwrite]
    rw [List.getD_eq_getElem?_getD, List.getElem?_eq_none (by omega), Option.getD_none]
  have hbytes : (advanced ce m).bytes = rh.header (advanced ce m).data ++
      window (advanced ce m).data rh.routerHeaderLen (m.dataLen - rh.routerHeaderLen) :=
    bytes_eq h
  rw [hbytes, header_advanced, bytes_drop h, hbehind]

lemma travel_eq {m m' : RteMbuf} {hop : Hop} {o : Unit} (hw : WellFormed ce hop.arrived)
    (h : travel ce m hop = some (m', o)) :
    hop.env.enqueues hop.pool.enqueues = true ∧ m' = advanced ce hop.arrived := by
  rw [travel, routerFunc_eq ce _ _ _ hw, Option.bind_some, Pool.enqueueEncapRing] at h
  split at h
  next hsent =>
    simp only [List.drop_left, List.head?_cons, Option.map_some, Option.some.injEq,
      Prod.mk.injEq] at h
    exact ⟨hsent, h.1.symm⟩
  next => simp at h

structure Kept (origin m : RteMbuf) : Prop where
  complete : rh.routerHeaderLen ≤ m.dataLen
  well_formed : WellFormed ce m
  same : SameButCurEntry ce origin m

lemma Kept.arrived {origin m m' : RteMbuf} (h : Kept ce origin m) (hbytes : m'.bytes = m.bytes) :
    Kept ce origin m' := by
  obtain ⟨hcomplete, hheader⟩ := header_of_bytes h.complete hbytes
  refine ⟨hcomplete, ?_, ?_⟩
  · rw [WellFormed, curEntry, lastEntry, hheader]
    exact h.well_formed
  · rw [SameButCurEntry, hbytes]
    exact h.same

lemma Kept.advanced {origin m : RteMbuf} (h : Kept ce origin m)
    (hroom : curEntry ce m < lastEntry rh m ∨ curEntry ce m + 1 = 2 ^ ce.bits) :
    Kept ce origin (advanced ce m) := by
  refine ⟨h.complete, (wellFormed_advanced ce h.well_formed).2 hroom, curEntry ce m + 1, ?_⟩
  obtain ⟨cur, hsame⟩ := h.same
  have hlength := ce.length_set_header cur origin.data
  have hheader : rh.header m.data = ce.set cur (rh.header origin.data) := by
    rw [bytes_eq h.complete] at hsame
    exact (List.append_inj hsame (by rw [hlength, rh.header_length])).1
  rw [bytes_advanced ce h.complete, hheader, ce.set_set, hsame, List.drop_left' hlength]

lemma kept_of_reached {origin m : RteMbuf} (hcomplete : rh.routerHeaderLen ≤ origin.dataLen)
    (h : WellFormed ce origin) (hm : Reached (travel ce) (Carried ce) origin m) :
    Kept ce origin m := by
  refine hm.invariant (Kept ce origin) ⟨hcomplete, h, sameButCurEntry_refl ce hcomplete⟩ ?_
  rintro s hop s' o hs ⟨hbytes, hway⟩ hstep
  have harrived := hs.arrived ce hbytes
  obtain ⟨hsent, rfl⟩ := travel_eq ce harrived.well_formed hstep
  exact harrived.advanced ce (hway hsent).2

/-- A packet is dropped or handed on as its header says exactly when the node knows the next hop
and the header has another entry, and along a path of such nodes only `CUR_ENTRY` changes. -/
theorem source_routing {origin : RteMbuf} (h : WellFormed ce origin) :
    (∀ conf env pool, RoutesRight ce conf env pool origin ↔ OnItsWay ce conf env pool origin) ∧
      (rh.routerHeaderLen ≤ origin.dataLen → ∀ m, Reached (travel ce) (Carried ce) origin m →
        WellFormed ce m ∧ SameButCurEntry ce origin m ∧ ∀ hop, Carried ce m hop →
          RoutesRight ce hop.conf hop.env hop.pool hop.arrived) := by
  refine ⟨fun conf env pool => routesRight_iff ce conf env pool h, ?_⟩
  intro hcomplete m hm
  have hkept := kept_of_reached ce hcomplete h hm
  refine ⟨hkept.well_formed, hkept.same, ?_⟩
  rintro hop ⟨hbytes, hway⟩
  exact (routesRight_iff ce _ _ _ (hkept.arrived ce hbytes).well_formed).2 hway

end Path

def nibbleHeader : RouterHeader where
  routerHeaderLen := 4
  sizeofRouterHeader := 36
  directionRtn := fun header => (header.headD 0).toNat / 32 % 2 == 1
  lastEntry := fun header => (header.getD 2 0).toNat % 16
  copyST := fun old _ => old

def setNibble (v : ℕ) (b : UInt8) : UInt8 := UInt8.ofNat (v % 16 * 16 + b.toNat % 16)

@[simp] lemma setNibble_div (v : ℕ) (b : UInt8) : (setNibble v b).toNat / 16 = v % 16 := by
  rw [setNibble, UInt8.toNat_ofNat']
  omega

@[simp] lemma setNibble_mod (v : ℕ) (b : UInt8) : (setNibble v b).toNat % 16 = b.toNat % 16 := by
  rw [setNibble, UInt8.toNat_ofNat']
  omega

@[simp] lemma setNibble_self (b : UInt8) : setNibble (b.toNat / 16) b = b := by
  have hb := b.toNat_lt
  apply UInt8.toNat_inj.1
  rw [setNibble, UInt8.toNat_ofNat']
  omega

@[simp] lemma setNibble_setNibble (v w : ℕ) (b : UInt8) :
    setNibble v (setNibble w b) = setNibble v b := by
  rw [setNibble, setNibble_mod, ← setNibble]

def nibbleCurEntry : CurEntry nibbleHeader where
  sizeofFwdFixedTunnel := 4
  bits := 4
  get := fun header => (header.getD 2 0).toNat / 16
  set := fun v header => header.modify 2 (setNibble v)
  get_lt h := by
    have := (h.getD 2 0).toNat_lt
    omega
  length_set v h := by simp
  get_set v h hlen := by
    rcases h with _ | ⟨a, _ | ⟨b, _ | ⟨c, t⟩⟩⟩
    all_goals simp_all [nibbleHeader]
  set_get h := by
    rcases h with _ | ⟨a, _ | ⟨b, _ | ⟨c, t⟩⟩⟩
    all_goals simp
  set_set v w h := by
    rcases h with _ | ⟨a, _ | ⟨b, _ | ⟨c, t⟩⟩⟩
    all_goals simp
  lastEntry_set v h := by
    rcases h with _ | ⟨a, _ | ⟨b, _ | ⟨c, t⟩⟩⟩
    all_goals simp [nibbleHeader]

def twoHopMbuf (cur : ℕ) : RteMbuf :=
  ⟨.received 0, overwrite (fun _ => 0) [0, 0, UInt8.ofNat (16 * cur + 1), 2, 0, 7, 0, 9, 0xAA], 9,
    0x0800⟩

def hopEnv : Dpdk := ⟨fun _ => true, fun _ _ => 0, fun _ => true⟩

def hopConf : HopConf := ⟨7, fun i => if i = 1 then 9 else 0⟩

theorem source_routing_two :
    RoutesRight nibbleCurEntry hopConf hopEnv .fresh (twoHopMbuf 0) ∧
      ∃ m, Reached (travel nibbleCurEntry) (Carried nibbleCurEntry) (twoHopMbuf 0) m ∧
        curEntry nibbleCurEntry m = 1 ∧ WellFormed nibbleCurEntry m ∧
          SameButCurEntry nibbleCurEntry (twoHopMbuf 0) m := by
  have hwell : WellFormed nibbleCurEntry (twoHopMbuf 0) := by rw [WellFormed]; decide
  have hway : OnItsWay nibbleCurEntry hopConf hopEnv .fresh (twoHopMbuf 0) := fun _ =>
    ⟨Or.inr ⟨by decide, 1, by decide, by decide⟩, Or.inl (by decide)⟩
  obtain ⟨hright, hpath⟩ := source_routing nibbleCurEntry hwell
  have hleft : travel nibbleCurEntry (twoHopMbuf 0) ⟨hopConf, hopEnv, .fresh, twoHopMbuf 0⟩ =
      some (advanced nibbleCurEntry (twoHopMbuf 0), ()) := by
    rw [travel, routerFunc_eq nibbleCurEntry _ _ _ hwell]
    rfl
  have hcarried : Carried nibbleCurEntry (twoHopMbuf 0) ⟨hopConf, hopEnv, .fresh, twoHopMbuf 0⟩ :=
    ⟨rfl, hway⟩
  have hreached := Reached.next .start hcarried hleft
  obtain ⟨hwell', hsame, -⟩ := hpath (by decide) _ hreached
  exact ⟨(hright _ _ _).2 hway, _, hreached, by decide, hwell', hsame⟩

/-- At its last entry a packet leaves with an entry beyond it, and a packet whose next hop no
ring leads to leaves all the same. -/
theorem packet_leaves_route :
    ¬ RoutesRight nibbleCurEntry ⟨9, fun _ => 9⟩ hopEnv .fresh (twoHopMbuf 1) ∧
      ¬ RoutesRight nibbleCurEntry ⟨7, fun _ => 5⟩ hopEnv .fresh (twoHopMbuf 0) := by
  constructor
  · rw [routesRight_iff _ _ _ _ (by rw [WellFormed]; decide)]
    intro h
    rcases (h rfl).2 with hlt | hfield
    · exact absurd hlt (by decide)
    · exact absurd hfield (by decide)
  · rw [routesRight_iff _ _ _ _ (by rw [WellFormed]; decide)]
    intro h
    have hother : 5 ≠ nextHop nibbleCurEntry (twoHopMbuf 0) := by decide
    rcases (h rfl).1 with hzero | ⟨-, i, -, hi⟩
    · exact hother hzero
    · exact hother hi

end Fengtai
