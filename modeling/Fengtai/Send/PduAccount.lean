import Fengtai.Send.MultiPdu

set_option autoImplicit false

/-! The accounting of the buffer that `encapsulate_pdu` fills, over runs of calls. -/

namespace Fengtai.Send

open Library.Words Receive

def pduPayload : ℕ := pduBufferSize - sizeofL2L1MsgHeader

/-- `checked` is the function's own comparison, behind `ecap pdu len error`. -/
structure PduEncap.Accounted (s : PduEncap) : Prop where
  max_eq : s.framePayload.maxPayload = pduPayload
  sum_eq : s.framePayload.usedPayload + s.framePayload.usablePayload = pduPayload
  offset_eq : s.pduBuffer.length = s.framePayload.usedPayload
  used_le : s.framePayload.usedPayload ≤ pduPayload
  checked : sub16 pduPayload s.pduBuffer.length = s.framePayload.usablePayload
  in_bounds : s.output.fault = false

/-- A packet or a force-send, with what `router_table_id` starts from. -/
abbrev PduCall := Option RteMbuf × ℕ

def encapStates (env : SendEnv) (conf : AppConf) (rc : RouterConf) :
    PduEncap → List PduCall → List PduEncap
  | _, [] => []
  | s, c :: cs =>
    encapsulatePdu env conf rc c.2 c.1 s ::
      encapStates env conf rc (encapsulatePdu env conf rc c.2 c.1 s) cs

/-- A return packet stays out: the buffer is empty, and with its new header the packet is too long
for it. A forward packet that goes in after the buffer is sent is one that an empty buffer holds. -/
def Meets (rc : RouterConf) (s : PduEncap) : PduCall → Prop
  | (none, _) => True
  | (some m, stale) =>
    if rc.isRtn m.data 0 then
      ∃ t, rc.decideRouterTable m.data 0 = some t ∧ s.pduBuffer.length = 0 ∧
        pduPayload ≤ m.dataLen + rc.routerHeaderSize t.1
    else s.pduBuffer.length + m.dataLen + rc.routerHeaderSize stale < pduPayload ∨
      s.pduBuffer.length = 0 ∨ 2 + m.dataLen ≤ pduPayload

def EachMeets (env : SendEnv) (conf : AppConf) (rc : RouterConf) : PduEncap → List PduCall → Prop
  | _, [] => True
  | s, c :: cs =>
    Meets rc s c ∧ EachMeets env conf rc (encapsulatePdu env conf rc c.2 c.1 s) cs

namespace PduEncap

/-- The bytes that `put` copies. -/
def copied (r : RouterPdu) : ℕ := 2 + (r.header.getD []).length + r.mbuf.dataLen

lemma copied_eq (rc : RouterConf) (len : ℕ) (r : RouterPdu) :
    (be16 (r.dataLen rc len) ++ r.header.getD [] ++ r.mbuf.bytes).length = copied r := by
  rw [List.length_append, List.length_append, be16_length, RteMbuf.bytes, window_length, copied]

variable {s : PduEncap}

lemma accounted_iff : s.Accounted ↔
    s.framePayload.maxPayload = pduPayload ∧ s.pduBuffer.length ≤ pduPayload ∧
      s.framePayload.usedPayload = s.pduBuffer.length ∧
        s.framePayload.usablePayload = pduPayload - s.pduBuffer.length ∧
          s.output.fault = false := by
  constructor
  · intro h
    have hsum := h.sum_eq
    have hoffset := h.offset_eq
    exact ⟨h.max_eq, by omega, by omega, by omega, h.in_bounds⟩
  · rintro ⟨hmax, hle, hused, husable, hfault⟩
    refine ⟨hmax, by omega, hused.symm, by omega, ?_, hfault⟩
    rw [sub16_of_le hle (by decide), husable]

lemma put_length (rc : RouterConf) (len : ℕ) (r : RouterPdu)
    (h : s.pduBuffer.length + copied r ≤ pduBufferSize) :
    (s.put rc len r).pduBuffer.length = s.pduBuffer.length + copied r ∧
      (s.put rc len r).output.fault = s.output.fault := by
  simp only [put, write]
  rw [copied_eq, if_pos h]
  exact ⟨by rw [List.length_append, copied_eq], rfl⟩

lemma put_fault (rc : RouterConf) (len : ℕ) (r : RouterPdu)
    (h : ¬ s.pduBuffer.length + copied r ≤ pduBufferSize) :
    (s.put rc len r).output.fault = true := by
  simp only [put, write]
  rw [copied_eq, if_neg h]

lemma put_framePayload (rc : RouterConf) (len : ℕ) (r : RouterPdu) :
    (s.put rc len r).framePayload = s.framePayload.update (u16 (r.dataLen rc len + 2)) := by
  simp only [put, write]
  split_ifs <;> rfl

lemma put_accounted_iff (h : s.Accounted) (rc : RouterConf) (len : ℕ) (r : RouterPdu) :
    (s.put rc len r).Accounted ↔
      u16 (r.dataLen rc len + 2) = copied r ∧ s.pduBuffer.length + copied r ≤ pduPayload := by
  obtain ⟨hmax, hle, hused, husable, hfault⟩ := accounted_iff.1 h
  have hcount := u16_lt (r.dataLen rc len + 2)
  have hsize : pduPayload = 7912 := by decide
  rw [accounted_iff, put_framePayload]
  simp only [FramePayload.update]
  generalize u16 (r.dataLen rc len + 2) = d at hcount ⊢
  by_cases hroom : s.pduBuffer.length + copied r ≤ pduBufferSize
  · obtain ⟨hlength, hsame⟩ := put_length rc len r hroom
    rw [hlength, hsame, hused]
    constructor
    · rintro ⟨-, hfits, hcounted, -, -⟩
      rw [u16] at hcounted
      exact ⟨by omega, hfits⟩
    · rintro ⟨rfl, hfits⟩
      refine ⟨hmax, hfits, u16_of_lt (by omega), ?_, hfault⟩
      rw [husable, sub16_of_le (by omega) (by omega)]
      omega
  · rw [put_fault rc len r hroom]
    have hlarge : pduPayload ≤ pduBufferSize := by decide
    constructor
    · rintro ⟨-, -, -, -, hcon⟩
      cases hcon
    · rintro ⟨-, hfits⟩
      omega

lemma accounted_init (h : s.pduBuffer = []) (hfault : s.output.fault = false) :
    ({ s with framePayload := initPduPayload s.framePayload } : PduEncap).Accounted := by
  rw [accounted_iff]
  refine ⟨rfl, by simp [h], by simp [h, initPduPayload], ?_, hfault⟩
  simp [h, initPduPayload, pduPayload]

lemma Accounted.openPayload_eq (h : s.Accounted) : s.openPayload = s := by
  have hmax : s.framePayload.maxPayload ≠ 0 := by
    rw [h.max_eq]
    decide
  rw [openPayload, if_neg hmax]

lemma Accounted.flush (h : s.Accounted) (env : SendEnv) (conf : AppConf) :
    (s.flush env conf).Accounted := by
  have hfault := h.in_bounds
  rw [PduEncap.flush]
  rcases s.output.pool.alloc env.toDpdk with ⟨_ | m, pool⟩
  · exact accounted_init (s := { s with pduBuffer := [], output := _ }) rfl hfault
  · exact accounted_init (s := { s with pduBuffer := [], output := _, sent := _ }) rfl hfault

lemma Accounted.update_zero (h : s.Accounted) :
    ({ s with framePayload := s.framePayload.update 0 } : PduEncap).Accounted := by
  obtain ⟨hmax, hle, hused, husable, hfault⟩ := accounted_iff.1 h
  have hsize : pduPayload = 7912 := by decide
  rw [accounted_iff]
  refine ⟨hmax, hle, ?_, ?_, hfault⟩
  · simp only [FramePayload.update]
    rw [Nat.add_zero, u16_of_lt (by omega), hused]
  · simp only [FramePayload.update]
    rw [sub16_of_le (Nat.zero_le _) (by omega), Nat.sub_zero, husable]

end PduEncap

lemma window_ntohsSegments (rc : RouterConf) (mem : Memory) (p n : ℕ) :
    window (rc.ntohsSegments mem p n) p rc.routerHeaderLen = window mem p rc.routerHeaderLen := by
  apply List.map_congr_left
  intro i hi
  have hlt := List.mem_range.1 hi
  rw [RouterConf.ntohsSegments, if_neg (by omega)]

lemma decideRouterTable_sizeAt {rc : RouterConf} {mem : Memory} {t : ℕ × Memory}
    (h : rc.decideRouterTable mem 0 = some t) : rc.sizeAt t.2 0 = rc.sizeAt mem 0 := by
  rw [RouterConf.decideRouterTable, RouterConf.getDstId] at h
  split at h
  · rw [Option.map_some, Option.some.injEq] at h
    rw [← h, RouterConf.sizeAt, RouterConf.sizeAt, window_ntohsSegments]
  · cases h

lemma RouterPacket.sizeAt {rc : RouterConf} {m : RteMbuf} (h : RouterPacket rc m) :
    0 < rc.sizeAt m.data 0 ∧ rc.sizeAt m.data 0 ≤ m.dataLen := by
  have hcomplete := h.complete
  have hshort := h.short
  have hsize : pduBufferSize = 7936 := rfl
  rw [RouterConf.sizeAt, u16_of_lt (by omega)]
  omega

lemma readRouterPdu_return {rc : RouterConf} {m : RteMbuf} (hm : RouterPacket rc m)
    (hrtn : rc.isRtn m.data 0 = true) (stale : ℕ) {t : ℕ × Memory}
    (ht : rc.decideRouterTable m.data 0 = some t) :
    ∃ r, readRouterPdu rc stale m = some r ∧ r.routerTableId = t.1 ∧
      (∃ header, r.header = some header ∧ header.length = rc.routerHeaderSize t.1) ∧
        r.mbuf.dataLen < m.dataLen := by
  obtain ⟨hpos, hle⟩ := hm.sizeAt
  rw [readRouterPdu, if_pos hrtn, ht, Option.map_some]
  refine ⟨_, rfl, rfl, ⟨_, rfl, window_length _ _ _⟩, ?_⟩
  simp only [decideRouterTable_sizeAt ht, RteMbuf.adj]
  rw [if_neg (by omega)]
  simp only
  omega

section Call

variable (env : SendEnv) (conf : AppConf) {rc : RouterConf} {s : PduEncap}

lemma PduEncap.openPayload_pduBuffer (s : PduEncap) : s.openPayload.pduBuffer = s.pduBuffer := by
  rw [PduEncap.openPayload]
  split_ifs <;> rfl

/-- A return packet that goes in is counted with the header it has lost. -/
lemma put_return_not_accounted (h : s.Accounted) {m : RteMbuf} (hm : RouterPacket rc m)
    {r : RouterPdu} {header : List UInt8} (hheader : r.header = some header)
    (hlength : header.length = rc.routerHeaderSize r.routerTableId)
    (hlt : r.mbuf.dataLen < m.dataLen) : ¬ (s.put rc m.dataLen r).Accounted := by
  intro hcon
  obtain ⟨hcount, hfits⟩ := (PduEncap.put_accounted_iff h rc m.dataLen r).1 hcon
  have hshort := hm.short
  have hsize : pduBufferSize = 7936 := rfl
  have hpayload : pduPayload = 7912 := by decide
  have hcopied : PduEncap.copied r =
      2 + rc.routerHeaderSize r.routerTableId + r.mbuf.dataLen := by
    rw [PduEncap.copied, hheader, Option.getD_some, hlength]
  have hdata : r.dataLen rc m.dataLen = m.dataLen + rc.routerHeaderSize r.routerTableId := by
    rw [RouterPdu.dataLen, hheader, Option.isSome_some, if_pos rfl, u16_of_lt (by omega)]
  rw [hdata, u16_of_lt (by omega)] at hcount
  omega

lemma put_forward_accounted_iff (h : s.Accounted) {m : RteMbuf} (hm : RouterPacket rc m)
    (stale : ℕ) :
    (s.put rc m.dataLen ⟨stale, none, m⟩).Accounted ↔
      s.pduBuffer.length + (2 + m.dataLen) ≤ pduPayload := by
  have hshort := hm.short
  have hsize : pduBufferSize = 7936 := rfl
  have hcopied : PduEncap.copied ⟨stale, none, m⟩ = 2 + m.dataLen := rfl
  have hdata : RouterPdu.dataLen rc m.dataLen ⟨stale, none, m⟩ = m.dataLen := rfl
  rw [PduEncap.put_accounted_iff h, hdata, hcopied, u16_of_lt (by omega)]
  omega

lemma forward_accounted_iff (h : s.openPayload.Accounted) {m : RteMbuf} (hm : RouterPacket rc m)
    (hfwd : ¬ rc.isRtn m.data 0 = true) {stale : ℕ} (hsize : 2 ≤ rc.routerHeaderSize stale) :
    (encapsulatePdu env conf rc stale (some m) s).Accounted ↔
      s.pduBuffer.length + m.dataLen + rc.routerHeaderSize stale < pduPayload ∨
        s.pduBuffer.length = 0 ∨ 2 + m.dataLen ≤ pduPayload := by
  have hread : readRouterPdu rc stale m = some ⟨stale, none, m⟩ := by
    simp [readRouterPdu, hfwd]
  have hpos : m.dataLen ≠ 0 := by
    have := hm.complete
    omega
  have hput := put_forward_accounted_iff h hm stale
  have hflushed := put_forward_accounted_iff (h.flush env conf) hm stale
  obtain ⟨-, hle, -, husable, -⟩ := PduEncap.accounted_iff.1 h
  rw [s.openPayload_pduBuffer] at hput hle husable
  have hempty : (s.openPayload.flush env conf).pduBuffer.length = 0 := rfl
  rw [hempty] at hflushed
  simp only [encapsulatePdu, hread, if_neg (not_le.2 hm.short), husable, s.openPayload_pduBuffer]
  by_cases hfit : m.dataLen + rc.routerHeaderSize stale < pduPayload - s.pduBuffer.length
  · rw [if_pos ⟨hfit, hpos⟩, hput]
    omega
  rw [if_neg fun hcon => hfit hcon.1]
  by_cases hnil : s.pduBuffer.length = 0
  · rw [if_neg fun hcon => hcon hnil]
    exact ⟨fun _ => Or.inr (Or.inl hnil), fun _ => h⟩
  · rw [if_pos hnil, hflushed]
    omega

lemma return_accounted_iff (h : s.openPayload.Accounted) {m : RteMbuf} (hm : RouterPacket rc m)
    (hrtn : rc.isRtn m.data 0 = true) (stale : ℕ) :
    (encapsulatePdu env conf rc stale (some m) s).Accounted ↔
      ∃ t, rc.decideRouterTable m.data 0 = some t ∧ s.pduBuffer.length = 0 ∧
        pduPayload ≤ m.dataLen + rc.routerHeaderSize t.1 := by
  cases ht : rc.decideRouterTable m.data 0 with
  | none =>
    have hread : readRouterPdu rc stale m = none := by
      rw [readRouterPdu, if_pos hrtn, ht, Option.map_none]
    simp only [encapsulatePdu, hread, if_neg (not_le.2 hm.short)]
    constructor
    · intro hcon
      cases hcon.in_bounds
    · rintro ⟨t, hcon, -⟩
      cases hcon
  | some t =>
    obtain ⟨r, hread, hid, ⟨header, hheader, hlength⟩, hlt⟩ := readRouterPdu_return hm hrtn stale ht
    rw [← hid] at hlength
    have hpos : m.dataLen ≠ 0 := by omega
    have hput := put_return_not_accounted h hm hheader hlength hlt
    have hflushed := put_return_not_accounted (h.flush env conf) hm hheader hlength hlt
    obtain ⟨-, hle, -, husable, -⟩ := PduEncap.accounted_iff.1 h
    rw [s.openPayload_pduBuffer] at hle husable
    simp only [encapsulatePdu, hread, if_neg (not_le.2 hm.short), husable, s.openPayload_pduBuffer,
      Option.some.injEq, exists_eq_left', ← hid]
    by_cases hfit : m.dataLen + rc.routerHeaderSize r.routerTableId < pduPayload - s.pduBuffer.length
    · rw [if_pos ⟨hfit, hpos⟩]
      exact ⟨fun hcon => absurd hcon hput, fun hcon => by omega⟩
    rw [if_neg fun hcon => hfit hcon.1]
    by_cases hnil : s.pduBuffer.length = 0
    · rw [if_neg fun hcon => hcon hnil]
      exact ⟨fun _ => ⟨hnil, by omega⟩, fun _ => h⟩
    · rw [if_pos hnil]
      exact ⟨fun hcon => absurd hcon hflushed, fun hcon => absurd hcon.1 hnil⟩

lemma encapsulatePdu_accounted_iff (h : s.openPayload.Accounted) (c : PduCall)
    (hsize : 2 ≤ rc.routerHeaderSize c.2) (hc : ∀ m, c.1 = some m → RouterPacket rc m) :
    (encapsulatePdu env conf rc c.2 c.1 s).Accounted ↔ Meets rc s c := by
  obtain ⟨mbuf, stale⟩ := c
  cases mbuf with
  | none =>
    simp only [encapsulatePdu, Meets, iff_true]
    split_ifs
    · exact (h.flush env conf).update_zero
    · exact h
  | some m =>
    rw [Meets]
    split_ifs with hrtn
    · exact return_accounted_iff env conf h (hc m rfl) hrtn stale
    · exact forward_accounted_iff env conf h (hc m rfl) hrtn hsize

lemma encapStates_accounted_iff (h : s.openPayload.Accounted) {calls : List PduCall}
    (hsize : ∀ i < rc.routerTableNum, 2 ≤ rc.routerHeaderSize i)
    (hcalls : ∀ c ∈ calls, c.2 < rc.routerTableNum ∧ ∀ m, c.1 = some m → RouterPacket rc m) :
    (∀ t ∈ encapStates env conf rc s calls, t.Accounted) ↔ EachMeets env conf rc s calls := by
  induction calls generalizing s with
  | nil => simp [encapStates, EachMeets]
  | cons c calls ih =>
    obtain ⟨hstale, hc⟩ := hcalls c (by simp)
    have hcall := encapsulatePdu_accounted_iff env conf h c (hsize _ hstale) hc
    rw [encapStates, EachMeets, List.forall_mem_cons, hcall]
    apply and_congr_right
    intro hmeets
    have hnext := hcall.2 hmeets
    exact ih (hnext.openPayload_eq.symm ▸ hnext) fun c' hc' => hcalls c' (by simp [hc'])

end Call

/-- The accounts of the buffer over every run of calls on a mapping. -/
theorem pdu_buffer_accounted (env : SendEnv) (conf : AppConf) {rc : RouterConf}
    (hsize : ∀ i < rc.routerTableNum, 2 ≤ rc.routerHeaderSize i) {calls : List PduCall}
    (hcalls : ∀ c ∈ calls, c.2 < rc.routerTableNum ∧ ∀ m, c.1 = some m → RouterPacket rc m) :
    (∀ s ∈ encapStates env conf rc .initial calls, s.Accounted) ↔
      EachMeets env conf rc .initial calls :=
  encapStates_accounted_iff env conf (PduEncap.accounted_init rfl rfl) hsize hcalls

lemma meets_forward (n stale : ℕ) (hn : 2 + n ≤ pduPayload) (s : PduEncap) :
    Meets sampleRouter s (some (forwardMbuf n), stale) := by
  have hforward : sampleRouter.isRtn (forwardMbuf n).data 0 = false := by rfl
  simp only [Meets, hforward, Bool.false_eq_true, if_false]
  exact .inr (.inr hn)

/-- The packets of `sampleItems`, and a force-send. -/
def sampleCalls : List PduCall := sampleItems.map (fun x => (some x.1, x.2)) ++ [(none, 0)]

theorem pdu_buffer_accounted_sample :
    (encapStates sampleEnv multiConf sampleRouter .initial sampleCalls).map (fun s => s.sent.length) =
        [0, 0, 1, 1, 2] ∧
      ∀ s ∈ encapStates sampleEnv multiConf sampleRouter .initial sampleCalls, s.Accounted := by
  refine ⟨by decide +kernel, (pdu_buffer_accounted sampleEnv multiConf (by decide) ?_).mpr ?_⟩
  · intro c hc
    simp only [sampleCalls, sampleItems, List.map_cons, List.map_nil, List.cons_append, List.nil_append,
      List.mem_cons, List.not_mem_nil, or_false] at hc
    obtain rfl | rfl | rfl | rfl | rfl := hc <;> refine ⟨by decide, fun m hm => ?_⟩ <;> cases hm
    all_goals exact ⟨by decide, by decide⟩
  · exact ⟨meets_forward 7 0 (by decide) _, meets_forward 5000 0 (by decide) _,
      meets_forward 4000 0 (by decide) _, meets_forward 60 0 (by decide) _, trivial, trivial⟩

/-- A return packet of seven bytes: nine are copied, and fifteen counted. -/
theorem return_packet_miscounted :
    ¬ ∀ s ∈ encapStates sampleEnv multiConf sampleRouter .initial [(some (routerMbuf 1), 0)],
      s.Accounted := by
  intro h
  have hoffset := (h _ List.mem_cons_self).offset_eq
  revert hoffset
  decide

end Fengtai.Send
