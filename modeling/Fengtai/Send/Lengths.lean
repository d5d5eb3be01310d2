import Fengtai.Library.Runs
import Fengtai.Send.Accounting

set_option autoImplicit false

/-! The twelve bits of `GSE_Length`: which runs of the loop keep them from being cut. -/

namespace Fengtai.Send

open Library.Words Library.Runs Receive

/-- The two headers `encapsulate_gse` computes for a group. -/
def PduGroup.headerSizes (g : PduGroup) : GseVariableHeaderSize :=
  (packageGseFixedHeader (getEncapsulationType g.pduNum g.fragmentFlag) g.labelType g.fragmentType
    g.calcDatafieldLength).2

def PduGroup.fixedHeader (g : PduGroup) : GseFixedHeader :=
  (packageGseFixedHeader (getEncapsulationType g.pduNum g.fragmentFlag) g.labelType g.fragmentType
    g.calcDatafieldLength).1

structure PduGroup.LengthHolds (g : PduGroup) : Prop where
  within : calcGseLength g.headerSizes g.calcDatafieldLength ≤ gseMaxSize
  total : sizeofGseFixedHeader + g.fixedHeader.gseLength = g.gseTotalLength
  datafield_le : g.calcDatafieldLength ≤ g.fixedHeader.gseLength
  header : g.fixedHeader.gseLength - g.calcDatafieldLength = g.headerSizes.total

/-- For a lone PDU this is a bound on the packet: `GSE_Length` does not count its own two bytes. -/
lemma EnPduNode.lengthHolds_iff {n : EnPduNode} (hd : n.dataField < 60000) (t : ℕ) :
    (n.group t).LengthHolds ↔ n.packetLength ≤ gseMaxSize + 2 := by
  have hs := n.headerSizes_le
  have hdata := n.group_datafield t
  have hv : (n.group t).headerSizes = n.headerSizes := by
    simp only [PduGroup.headerSizes, packageGseFixedHeader]
    rw [n.group_encapsulationType, n.group_datafield]
    rfl
  have hlen : calcGseLength n.headerSizes n.dataField = n.headerSizes.total + n.dataField :=
    u16_of_lt (by omega)
  have hfix : (n.group t).fixedHeader.gseLength = (n.headerSizes.total + n.dataField) % 4096 := by
    rw [← hlen, ← hv, ← hdata]
    rfl
  constructor
  · intro h
    have hw := h.within
    rw [hv, hdata, hlen] at hw
    simp only [packetLength, sizeofGseFixedHeader, gseMaxSize] at hw ⊢
    omega
  · intro h
    simp only [packetLength, sizeofGseFixedHeader, gseMaxSize] at h
    have hmod : (n.headerSizes.total + n.dataField) % 4096 = n.headerSizes.total + n.dataField :=
      Nat.mod_eq_of_lt (by omega)
    rw [hmod] at hfix
    refine ⟨?_, ?_, ?_, ?_⟩
    · rw [hv, hdata, hlen]
      simp only [gseMaxSize]
      omega
    · rw [hfix, EnPduNode.group_total hd, packetLength, Nat.add_assoc]
    · rw [hfix, hdata]
      omega
    · rw [hfix, hdata, hv]
      omega

namespace Sender

variable (env : SendEnv) {conf : AppConf} {s : Sender}

lemma Draining.lengthHolds {id : ℕ} (h : s.Draining conf id) (hc : conf.Configured) (t : ℕ) :
    ((s.fetched id).group t).LengthHolds := by
  obtain ⟨hlow, hhigh⟩ := hc.payload_bounds
  obtain ⟨-, -, hm⟩ := middleSize_eq hlow hhigh
  obtain ⟨hd, hp, -⟩ := h.lengths hc
  rw [EnPduNode.lengthHolds_iff (by omega)]
  simp only [gseMaxSize]
  omega

def Ready (conf : AppConf) (s : Sender) : Prop := Idle conf s ∨ ∃ id, Draining conf id s

lemma Ready.drain (h : Ready conf s) (hc : conf.Configured) :
    Idle conf (s.drain env conf drainFuel) ∧
      ∃ gs, (s.drain env conf drainFuel).packed = s.packed ++ gs ∧ ∀ g ∈ gs, g.LengthHolds := by
  rcases h with h | ⟨id, h⟩
  · obtain ⟨hidle, hpacked, -⟩ := drain_idle env h 65535
    exact ⟨hidle, [], by simpa [drainFuel] using hpacked, by simp⟩
  · refine drain_draining env hc _ (fun _ _ t ht => ht.lengthHolds hc t) drainFuel h ?_
    have htotal := h.pending.total_lt
    simp only [left, drainFuel]
    omega

/-- The PDU of a turn, or the first fragment it is cut to, stays within the length field. -/
def WithinField (env : SendEnv) (conf : AppConf) (s : Sender) : Turn → Prop
  | .pdu m => min (m.dataLen + 4) ((s.drain env conf drainFuel).room conf) ≤ gseMaxSize + 2
  | .idle => True

lemma Idle.forceSend (h : Idle conf s) :
    Idle conf (s.forceSend env conf) ∧ (s.forceSend env conf).packed = s.packed := by
  simp only [Sender.forceSend]
  split_ifs with hn
  · have hnum : s.pduGroup.pduNum = 0 := by rw [h.group]; rfl
    refine ⟨⟨?_, h.drained, .inl rfl⟩, ?_⟩
    · simp [makeFrame, updateGseGroup, h.group]
    · simp [makeFrame, updateGseGroup, hnum]
  · exact ⟨h, rfl⟩

lemma Idle.pdu (h : Idle conf s) (hc : conf.Configured) {m : RteMbuf} (h1 : 1 ≤ m.dataLen)
    (h2 : m.dataLen ≤ 8050) :
    Ready conf ((s.getWholePkt conf m).encapsulateIslBb env conf .succeedFetchModcod) ∧
      ∃ g, ((s.getWholePkt conf m).encapsulateIslBb env conf .succeedFetchModcod).packed =
        s.packed ++ [g] ∧
        (g.LengthHolds ↔ min (m.dataLen + 4) (s.room conf) ≤ gseMaxSize + 2) := by
  by_cases hfit : m.dataLen + 4 ≤ s.room conf
  · have hpacked := h.pdu_packed env hc h1 h2 hfit
    obtain ⟨t, ht⟩ := hpacked.packed
    obtain ⟨hd, hp⟩ := EnPduNode.lengths_whole (n := readEnapsulateBuffer conf m) rfl h1
      (lt_of_le_of_lt h2 (by norm_num))
    have hsize : (readEnapsulateBuffer conf m).pduSize = m.dataLen := rfl
    refine ⟨.inl ⟨hpacked.group, ?_, hpacked.payload.imp_right fun hb => ⟨hb.1, hb.2.1⟩⟩, _, ht, ?_⟩
    · rw [hpacked.fragments]
      exact h.drained
    · change ((readEnapsulateBuffer conf m).group t).LengthHolds ↔ _
      rw [EnPduNode.lengthHolds_iff (by omega), hp, hsize, min_eq_left hfit]
  · have hlong : s.room conf < m.dataLen + 4 := not_le.mp hfit
    obtain ⟨-, hhigh⟩ := hc.payload_bounds
    obtain ⟨-, hr, -⟩ := h.room_bounds hc
    obtain ⟨hd, hp⟩ := h.start_lengths hc m
    rw [h.pdu_split env hc h1 h2 hlong]
    refine ⟨.inr ⟨_, h.pdu_draining env hc h1 h2 hlong⟩, _, rfl, ?_⟩
    change ((s.startNode conf m).group _).LengthHolds ↔ _
    rw [EnPduNode.lengthHolds_iff (by omega), hp, min_eq_right hlong.le]

lemma Ready.turn (h : Ready conf s) (hc : conf.Configured) {t : Turn}
    (ht : ∀ m, t = .pdu m → 1 ≤ m.dataLen ∧ m.dataLen ≤ 8050) :
    Ready conf (s.turn env conf t) ∧
      ∃ gs, (s.turn env conf t).packed = s.packed ++ gs ∧
        ((∀ g ∈ gs, g.LengthHolds) ↔ WithinField env conf s t) := by
  obtain ⟨hidle, gs, hgs, hall⟩ := h.drain env hc
  cases t with
  | idle =>
    obtain ⟨hidle', hpacked⟩ := hidle.forceSend env
    exact ⟨.inl hidle', gs, hpacked.trans hgs, iff_of_true hall trivial⟩
  | pdu m =>
    obtain ⟨h1, h2⟩ := ht m rfl
    obtain ⟨hready, g, hg, hiff⟩ := hidle.pdu env hc h1 h2
    refine ⟨hready, gs ++ [g], ?_, ?_⟩
    · simp only [Sender.turn, hg, hgs, List.append_assoc]
    · simp only [List.mem_append, List.mem_singleton, WithinField]
      constructor
      · intro hgs'
        exact hiff.mp (hgs' g (.inr rfl))
      · rintro hw g' (hg' | rfl)
        · exact hall g' hg'
        · exact hiff.mpr hw

def EachTurn (env : SendEnv) (conf : AppConf) (P : Sender → Turn → Prop) : Sender → List Turn → Prop
  | _, [] => True
  | s, t :: ts => P s t ∧ EachTurn env conf P (s.turn env conf t) ts

lemma Ready.run (h : Ready conf s) (hc : conf.Configured) {turns : List Turn}
    (hsize : ∀ m, Turn.pdu m ∈ turns → 1 ≤ m.dataLen ∧ m.dataLen ≤ 8050) :
    ∃ gs, (s.runTurns env conf turns).packed = s.packed ++ gs ∧
      ((∀ g ∈ gs, g.LengthHolds) ↔ EachTurn env conf (WithinField env conf) s turns) := by
  induction turns generalizing s with
  | nil => exact ⟨[], by simp [runTurns], by simp [EachTurn]⟩
  | cons t ts ih =>
    obtain ⟨hready, gs, hgs, hiff⟩ := h.turn env hc (t := t)
      fun m hm => hsize m (by simp [hm])
    obtain ⟨gs', hgs', hiff'⟩ := ih hready fun m hm => hsize m (List.mem_cons_of_mem t hm)
    refine ⟨gs ++ gs', ?_, ?_⟩
    · rw [runTurns, List.foldl_cons, ← runTurns, hgs', hgs, List.append_assoc]
    · rw [EachTurn, ← hiff, ← hiff', List.forall_mem_append]

end Sender

/-- The length field of every packet of a run is whole exactly when every turn meets a PDU, or
room, of at most 4097 bytes with the header. -/
theorem length_fields_hold_iff (env : SendEnv) {conf : AppConf} (hc : conf.Configured)
    {turns : List Sender.Turn}
    (hsize : ∀ m, Sender.Turn.pdu m ∈ turns → 1 ≤ m.dataLen ∧ m.dataLen ≤ 8050) :
    (∀ g ∈ (Sender.initial.runTurns env conf turns).packed, g.LengthHolds) ↔
      Sender.EachTurn env conf (Sender.WithinField env conf) .initial turns := by
  obtain ⟨gs, hgs, hiff⟩ := Sender.Ready.run env (.inl Sender.idle_initial) hc hsize
  rw [hgs]
  simpa [Sender.initial] using hiff

def sampleEnv : SendEnv where
  allocates := fun _ => true
  room := fun _ _ => 0
  enqueues := fun _ => true
  macRev := fun _ => (0, 0)

lemma sampleConf_configured : sampleConf.Configured := by constructor <;> decide

def zeroMbuf (n : ℕ) : RteMbuf := ⟨.received 0, fun _ => 0, n, 0x0800⟩

theorem length_fields_hold_hundred :
    Sender.EachTurn sampleEnv sampleConf (Sender.WithinField sampleEnv sampleConf) .initial
        [.pdu (zeroMbuf 100), .idle] ∧
      ∀ g ∈ (Sender.initial.runTurns sampleEnv sampleConf [.pdu (zeroMbuf 100), .idle]).packed,
        g.LengthHolds := by
  have hturns : Sender.EachTurn sampleEnv sampleConf (Sender.WithinField sampleEnv sampleConf) .initial
      [.pdu (zeroMbuf 100), .idle] := ⟨le_trans (min_le_left _ _) (by decide), trivial, trivial⟩
  refine ⟨hturns, (length_fields_hold_iff sampleEnv sampleConf_configured ?_).mpr hturns⟩
  simp only [List.mem_cons, Sender.Turn.pdu.injEq, reduceCtorEq, List.not_mem_nil, or_false]
  rintro m rfl
  decide

/-- A whole PDU of 5000 bytes goes into an empty frame of modcod 11. -/
theorem whole_pdu_cut :
    ¬ ∀ g ∈ (Sender.initial.runTurns sampleEnv { sampleConf with modcode := 11 }
      [.pdu (zeroMbuf 5000)]).packed, g.LengthHolds := by
  have hc : AppConf.Configured { sampleConf with modcode := 11 } := by constructor <;> decide
  have hsize : ∀ m, Sender.Turn.pdu m ∈ [Sender.Turn.pdu (zeroMbuf 5000)] →
      1 ≤ m.dataLen ∧ m.dataLen ≤ 8050 := by simp [zeroMbuf]
  have hidle : Sender.Idle { sampleConf with modcode := 11 } .initial := Sender.idle_initial
  obtain ⟨gs, hgs, hiff⟩ := Sender.Ready.run sampleEnv (.inl hidle) hc hsize
  obtain ⟨-, -, hpay⟩ := Sender.drain_idle sampleEnv hidle 65535
  intro hall
  rw [hgs] at hall
  obtain ⟨hw, -⟩ := hiff.mp fun g hg => hall g (by simp [hg])
  simp only [Sender.WithinField, Sender.drainFuel, Sender.room, hpay] at hw
  revert hw
  decide

end Fengtai.Send
