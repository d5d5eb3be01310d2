import Fengtai.Receive.Containment

set_option autoImplicit false

/-! Which packets of a frame the loop of `decapsulate_gse` comes to. -/

namespace Fengtai.Receive

open Library.Words Crc

/-- Where the packet behind the one at `pGSE` starts. -/
def nextGse (mem : Memory) (pGSE : ℕ) : ℕ :=
  pGSE + (2 + (decapsulateGseHeader mem pGSE).1.gseLength)

/-- The bytes that a BB header announces: `DFL` counts bits. -/
def dataFieldBytes (mem : Memory) : ℕ := bswap16 (load16 mem 60) / 8

lemma le_nextGse_iterate (mem : Memory) (i pGSE : ℕ) : pGSE + 2 * i ≤ (nextGse mem)^[i] pGSE := by
  induction i generalizing pGSE with
  | zero => exact le_rfl
  | succ i ih =>
    have hnext : pGSE + 2 ≤ nextGse mem pGSE := by
      rw [nextGse]
      omega
    have hrest := ih (nextGse mem pGSE)
    rw [Function.iterate_succ_apply]
    omega

/-- The variables that steer the loop of `decapsulate_gse`: `pGSE` and `handle_total_size`. -/
structure GsePlace where
  pGSE : ℕ
  handleTotalSize : ℕ

lemma int16_cast {n : ℕ} (h : n < 65536) : ((BitVec.ofNat 16 n).toInt % 65536).toNat = n := by
  have hmod : (n : ℤ).bmod 65536 % 65536 = n % 65536 := Int.bmod_emod
  simp only [BitVec.toInt_eq_toNat_bmod, BitVec.toNat_ofNat, Nat.reducePow]
  rw [Nat.mod_eq_of_lt h, hmod]
  omega

namespace GsePlace

/-- What a turn does to them, whatever becomes of the packet. -/
def turn (mem : Memory) (x : GsePlace) : GsePlace where
  pGSE := nextGse mem x.pGSE
  handleTotalSize := u32 (x.handleTotalSize + (2 + (decapsulateGseHeader mem x.pGSE).1.gseLength))

/-- The test at the end of the loop: `BBFrame_size` is an `int16_t`, cast to `uint16_t`. -/
def goesOn (para : FrameParam) (x : GsePlace) : Bool :=
  u32 (gseHeaderSize para.packType + x.handleTotalSize + para.paddingBytes) <
    ((BitVec.ofNat 16 para.frameSize).toInt % 65536).toNat

/-- The places at the head of each turn; `none` when the loop still goes on after so many. -/
def run (mem : Memory) (para : FrameParam) : ℕ → GsePlace → Option (List GsePlace)
  | 0, _ => none
  | k + 1, x =>
    if (x.turn mem).goesOn para then (run mem para k (x.turn mem)).map (x :: ·) else some [x]

/-- What `process_frame_header` finds out about a frame of forward data. -/
structure Announces (dataBytes : ℕ) (para : FrameParam) : Prop where
  packType : para.packType ≠ islPack
  frameSize : para.frameSize < 65536
  padding : para.paddingBytes =
    (((para.frameSize : ℤ) - sizeofBbHeader - dataBytes) % 4294967296).toNat
  small : dataBytes < 8192

/-- A head of the loop: `handle_total_size` is how far it has come, and not behind the data. -/
structure At (base dataBytes : ℕ) (x : GsePlace) : Prop where
  place : x.pGSE = base + x.handleTotalSize
  near : x.handleTotalSize ≤ dataBytes

variable {mem : Memory} {para : FrameParam} {base dataBytes : ℕ} {x : GsePlace}

/-- The test stops at the end of the data. When the padding has wrapped below zero it may stop
before. -/
lemma Announces.goesOn (h : Announces dataBytes para) (hx : x.handleTotalSize < 65536) :
    (x.goesOn para = true → x.handleTotalSize < dataBytes) ∧
      (sizeofBbHeader + dataBytes ≤ para.frameSize →
        (x.goesOn para = true ↔ x.handleTotalSize < dataBytes)) := by
  obtain ⟨htype, hsize, hpad, hsmall⟩ := h
  have hheader : gseHeaderSize para.packType = 10 := if_neg htype
  simp only [GsePlace.goesOn, int16_cast hsize, hheader, decide_eq_true_eq, hpad, sizeofBbHeader, u32]
  omega

lemma At.turn (h : x.At base dataBytes) (hsmall : dataBytes < 8192) (mem : Memory) :
    (x.turn mem).pGSE = base + (x.turn mem).handleTotalSize ∧
      x.handleTotalSize + 2 ≤ (x.turn mem).handleTotalSize ∧
      (x.turn mem).handleTotalSize < 65536 := by
  have hlen := GseWalk.gseLength_lt mem x.pGSE
  have hnear := h.near
  have hplace := h.place
  have hexact : (x.turn mem).handleTotalSize =
      x.handleTotalSize + (2 + (decapsulateGseHeader mem x.pGSE).1.gseLength) :=
    u32_of_lt (by omega)
  have hnext : (x.turn mem).pGSE = x.pGSE + (2 + (decapsulateGseHeader mem x.pGSE).1.gseLength) := rfl
  omega

lemma At.run (h : x.At base dataBytes) (mem : Memory) (hp : Announces dataBytes para) {k : ℕ}
    (hk : dataBytes < x.handleTotalSize + 2 * k) :
    ∃ heads, GsePlace.run mem para k x = some heads ∧
      heads.map pGSE = (List.range heads.length).map (fun i => (nextGse mem)^[i] x.pGSE) ∧
      (∀ i, 0 < i → i < heads.length → (nextGse mem)^[i] x.pGSE < base + dataBytes) ∧
      (sizeofBbHeader + dataBytes ≤ para.frameSize → x.handleTotalSize < dataBytes →
        ∀ i, i < heads.length ↔ (nextGse mem)^[i] x.pGSE < base + dataBytes) := by
  induction k generalizing x with
  | zero =>
    have := h.near
    omega
  | succ k ih =>
    obtain ⟨hplace, hstep, hlt⟩ := h.turn hp.small mem
    have hgoes := hp.goesOn hlt
    have hhere := h.place
    by_cases hon : (x.turn mem).goesOn para = true
    · have hdata := hgoes.1 hon
      obtain ⟨heads, hrun, hmap, hbelow, hall⟩ := ih ⟨hplace, hdata.le⟩ (by omega)
      refine ⟨x :: heads, by rw [GsePlace.run, if_pos hon, hrun]; rfl, ?_, ?_, ?_⟩
      · rw [List.map_cons, hmap, List.length_cons, List.range_succ_eq_map, List.map_cons, List.map_map]
        rfl
      · rintro (_ | _ | i) hpos hi
        · exact absurd hpos (lt_irrefl 0)
        · change (x.turn mem).pGSE < _
          omega
        · exact hbelow (i + 1) i.succ_pos (Nat.lt_of_succ_lt_succ hi)
      · intro hfits hfirst i
        cases i with
        | zero => exact iff_of_true (Nat.succ_pos _) (by change x.pGSE < _; omega)
        | succ i =>
          rw [List.length_cons, Nat.succ_lt_succ_iff, Function.iterate_succ_apply]
          exact hall hfits hdata i
    · refine ⟨[x], by rw [GsePlace.run, if_neg hon], rfl, ?_, ?_⟩
      · intro i hpos hi
        rw [List.length_singleton] at hi
        omega
      · intro hfits hfirst i
        have hend : dataBytes ≤ (x.turn mem).handleTotalSize := by
          rw [hgoes.2 hfits] at hon
          omega
        cases i with
        | zero => exact iff_of_true Nat.one_pos (by change x.pGSE < _; omega)
        | succ i =>
          have hle := le_nextGse_iterate mem i (x.turn mem).pGSE
          rw [Function.iterate_succ_apply]
          refine iff_of_false (by simp) ?_
          change ¬ (nextGse mem)^[i] (x.turn mem).pGSE < _
          omega

end GsePlace

namespace GseWalk

def place (w : GseWalk) : GsePlace := ⟨w.pGSE, w.handleTotalSize⟩

def visits (env : RecvEnv) (mem : Memory) (port : ℕ) (now : ℕ → ℕ) (para : FrameParam) :
    ℕ → GseWalk → List GseWalk
  | 0, _ => []
  | k + 1, w =>
    w :: if (w.turn env mem port now).receiver.isSome ∧ (w.turn env mem port now).goesOn para then
      visits env mem port now para k (w.turn env mem port now) else []

variable {env : RecvEnv} {mem : Memory} {port : ℕ} {now : ℕ → ℕ} {para : FrameParam}
  {w w' : GseWalk} {k : ℕ} {heads : List GsePlace}

lemma place_turn (env : RecvEnv) (mem : Memory) (port : ℕ) (now : ℕ → ℕ) (halive : w.receiver.isSome) :
    (w.turn env mem port now).place = w.place.turn mem := by
  obtain ⟨r, hr⟩ := Option.isSome_iff_exists.mp halive
  obtain ⟨hplace, htotal⟩ := turn_places env mem port now hr
  rw [place, hplace, htotal]
  rfl

lemma goesOn_place (hsize : para.frameSize < 65536) (w : GseWalk) :
    w.place.goesOn para = w.goesOn para := by
  rw [GsePlace.goesOn, int16_cast hsize]
  rfl

lemma visits_prefix (hsize : para.frameSize < 65536) (halive : w.receiver.isSome)
    (hrun : GsePlace.run mem para k w.place = some heads) :
    (visits env mem port now para k w).map place <+: heads := by
  induction k generalizing w heads with
  | zero => exact List.nil_prefix
  | succ k ih =>
    rw [GsePlace.run, ← place_turn env mem port now halive, goesOn_place hsize] at hrun
    rw [visits]
    by_cases hgo : (w.turn env mem port now).goesOn para = true
    · rw [if_pos hgo] at hrun
      obtain ⟨rest, hrest, rfl⟩ := Option.map_eq_some_iff.mp hrun
      rw [List.map_cons, List.cons_prefix_cons]
      refine ⟨rfl, ?_⟩
      by_cases hnext : (w.turn env mem port now).receiver.isSome = true
      · rw [if_pos ⟨hnext, hgo⟩]
        exact ih hnext hrest
      · rw [if_neg fun hon => hnext hon.1]
        exact List.nil_prefix
    · rw [if_neg hgo] at hrun
      obtain rfl := Option.some.inj hrun
      rw [if_neg fun hon => hgo hon.2]
      exact List.prefix_rfl

lemma visits_eq (hsize : para.frameSize < 65536) (halive : w.receiver.isSome)
    (hrun : GsePlace.run mem para k w.place = some heads)
    (hwalk : GseWalk.run env mem port now para k w = some w') (hend : w'.receiver.isSome) :
    (visits env mem port now para k w).map place = heads := by
  induction k generalizing w heads with
  | zero => cases hrun
  | succ k ih =>
    rw [GsePlace.run, ← place_turn env mem port now halive, goesOn_place hsize] at hrun
    simp only [GseWalk.run] at hwalk
    rw [visits]
    by_cases hgo : (w.turn env mem port now).goesOn para = true
    · rw [if_pos hgo] at hrun
      obtain ⟨rest, hrest, rfl⟩ := Option.map_eq_some_iff.mp hrun
      by_cases hnext : (w.turn env mem port now).receiver.isSome = true
      · rw [if_pos ⟨hnext, hgo⟩] at hwalk ⊢
        rw [List.map_cons, ih hnext hrest hwalk]
      · rw [if_neg fun hon => hnext hon.1] at hwalk
        obtain rfl := Option.some.inj hwalk
        exact absurd hend hnext
    · rw [if_neg hgo] at hrun
      obtain rfl := Option.some.inj hrun
      rw [if_neg fun hon => hgo hon.2]
      rfl

end GseWalk

lemma processFrameHeader_announces {m : RteMbuf} {para : FrameParam} {pool : Pool}
    (hret : (processFrameHeader m para pool).ret = 0)
    (htype : (processFrameHeader m para pool).para.packType = enumFwdTxFwdData ∨
      (processFrameHeader m para pool).para.packType = enumFwdRxFwdData) :
    GsePlace.Announces (dataFieldBytes m.data) (processFrameHeader m para pool).para ∧
      (processFrameHeader m para pool).para.gseOffset = 66 := by
  obtain ⟨hether, hmsg, hgs⟩ := processFrameHeader_forward hret htype
  rw [processFrameHeader_of_forward hether hmsg]
  have hgs' : identifyGs m.data (sizeofL2L1MsgHeader + sizeofL2L1Header) = true := hgs
  have hpack : (m.data 17).toNat ≠ islPack := by
    rcases hmsg with h | h <;> rw [h] <;> decide
  have hdfl := bswap16_lt (load16 m.data 60)
  simp only [processFwdData]
  rw [if_pos hgs']
  refine ⟨⟨hpack, bswap16_lt _, rfl, ?_⟩, rfl⟩
  rw [dataFieldBytes]
  omega

/-- The loop of `decapsulate_gse` over a frame of forward data ends, and its heads are the packets
from the first on. All but the first start within the `DFL / 8` bytes of data, so there are at
most half as many and one; and when the frame is large enough for the data, they are all the
packets that do. The walk comes to no others, and to all of them unless a packet ends it. -/
theorem loop_covers (env : RecvEnv) {m : RteMbuf} (port : ℕ) (now : ℕ → ℕ) {para : FrameParam}
    {r : Receiver} (hret : (processFrameHeader m para r.pool).ret = 0)
    (htype : (processFrameHeader m para r.pool).para.packType = enumFwdTxFwdData ∨
      (processFrameHeader m para r.pool).para.packType = enumFwdRxFwdData) :
    let para := (processFrameHeader m para r.pool).para
    let dataBytes := dataFieldBytes m.data
    let start := fun i => (nextGse m.data)^[i] 66
    ∃ heads, GsePlace.run m.data para gseTurns ⟨66, 0⟩ = some heads ∧
      heads.map GsePlace.pGSE = (List.range heads.length).map start ∧
      heads.length ≤ (dataBytes + 1) / 2 + 1 ∧
      (∀ i, 0 < i → i < heads.length → start i < 66 + dataBytes) ∧
      (sizeofBbHeader + dataBytes ≤ para.frameSize → 0 < dataBytes →
        ∀ i, i < heads.length ↔ start i < 66 + dataBytes) ∧
      ∃ w, walkGse env m.data port now para r = some w ∧
        (GseWalk.visits env m.data port now para gseTurns (.first 66 r)).map GseWalk.place <+: heads ∧
        (w.receiver.isSome →
          (GseWalk.visits env m.data port now para gseTurns (.first 66 r)).map GseWalk.place = heads) := by
  obtain ⟨hann, hoffset⟩ := processFrameHeader_announces hret htype
  simp only
  generalize (processFrameHeader m para r.pool).para = para at hann hoffset ⊢
  have hfirst : (GsePlace.mk 66 0).At 66 (dataFieldBytes m.data) := ⟨rfl, Nat.zero_le _⟩
  have hsmall := hann.small
  obtain ⟨heads, hrun, hmap, hbelow, hall⟩ :=
    hfirst.run m.data hann (k := gseTurns) (by rw [gseTurns]; omega)
  obtain ⟨w, hw⟩ := Option.isSome_iff_exists.mp
    (show (walkGse env m.data port now para r).isSome from GseWalk.walk_isSome hann.frameSize r)
  refine ⟨heads, hrun, hmap, ?_, hbelow, hall, w, hw,
    GseWalk.visits_prefix hann.frameSize rfl hrun, fun hend => ?_⟩
  · by_contra hmany
    have hlast := hbelow (heads.length - 1) (by omega) (by omega)
    have hle := le_nextGse_iterate m.data (heads.length - 1) 66
    simp only at hlast
    omega
  · rw [walkGse, hoffset] at hw
    exact GseWalk.visits_eq hann.frameSize rfl hrun hw hend

def forwardBbHeader (dataBytes : ℕ) : List UInt8 := [0, 0, 0, 0] ++ be16 (8 * dataBytes) ++ [0, 0, 0]

/-- A frame of forward data with `packets` behind its headers. -/
def forwardFrame (frameSize dataBytes : ℕ) (packets : Memory) (dataLen : ℕ) : RteMbuf :=
  ⟨.received 0, fun i => if i < 66 then (List.replicate 12 0 ++ [0x91, 0x01, 0, 0, 0, 6] ++
    List.replicate 16 0 ++ be16 frameSize ++ List.replicate 20 0 ++ forwardBbHeader dataBytes ++
    [mcsGetCrc8 (forwardBbHeader dataBytes)]).getD i 0 else packets (i - 66), dataLen, 0⟩

/-- A START of 1600 bytes, more than a slot of the tables holds, and a packet of 22 behind it. -/
def longStart : Memory := fun i =>
  if i < 2 then (be16 (GseFixedHeader.word ⟨1600, .broadcast, false, true⟩)).getD i 0
  else if 1602 ≤ i then (be16 (GseFixedHeader.word ⟨22, .broadcast, true, true⟩)).getD (i - 1602) 0
  else 0

theorem loop_covers_long_start : ∃ heads,
    GsePlace.run (forwardFrame 2000 1626 longStart 1692).data
      (processFrameHeader (forwardFrame 2000 1626 longStart 1692) ⟨0, 0, 0, 0, 0⟩
        Receiver.initial.pool).para gseTurns ⟨66, 0⟩ = some heads ∧
      heads.map GsePlace.pGSE = [66, 1668] := by
  have hret : (processFrameHeader (forwardFrame 2000 1626 longStart 1692) ⟨0, 0, 0, 0, 0⟩
      Receiver.initial.pool).ret = 0 := by decide +kernel
  have htype : (processFrameHeader (forwardFrame 2000 1626 longStart 1692) ⟨0, 0, 0, 0, 0⟩
      Receiver.initial.pool).para.packType = enumFwdTxFwdData := by decide +kernel
  have hdata : dataFieldBytes (forwardFrame 2000 1626 longStart 1692).data = 1626 := by decide +kernel
  obtain ⟨heads, hrun, hmap, -, -, hall, -⟩ :=
    loop_covers sampleRecvEnv 0 (fun _ => 0) hret (.inl htype)
  have hall := hall (by decide +kernel) (by decide +kernel)
  have htwo : heads.length = 2 := by
    have hin := (hall 1).mpr (by decide +kernel)
    have hout := mt (hall 2).mp (by decide +kernel)
    omega
  rw [htwo] at hmap
  exact ⟨heads, hrun, hmap.trans (by decide +kernel)⟩

end Fengtai.Receive
