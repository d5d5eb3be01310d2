import Fengtai.Send.Calls
import Fengtai.Send.Lengths

set_option autoImplicit false

/-! The counters of the open frame over any order of calls: what they count, and the one of
them that is too narrow. -/

namespace Fengtai.Send

open Library.Words Library.Runs Receive

namespace Sender

/-- A node as `get_whole_pkt` reads it from a buffer whose length meets `P`. -/
def ReadOf (conf : AppConf) (P : ℕ → Prop) (node : EnPduNode) : Prop :=
  ∃ m : RteMbuf, P m.dataLen ∧ node = readEnapsulateBuffer conf m

lemma ReadOf.modcod {conf : AppConf} {P : ℕ → Prop} {node : EnPduNode} (h : ReadOf conf P node) :
    node.modcod = conf.modcode := by
  obtain ⟨m, -, rfl⟩ := h
  rfl

end Sender

/-- Every PDU enters its group once: a call finds an unused frame or one with the room asked
for, so that case 1.2.1 is not taken, and hands one PDU to `encapsulate_gse`; `force_send` hands
over the empty group. -/
theorem one_entry_per_pdu (env : SendEnv) {conf : AppConf}
    (hthr : conf.paddingThreshold ≤ conf.payload) {s t : Sender} {a : Sender.Act}
    {readOk : Sender.ReadOk}
    (h : Sender.Reachable env conf (Sender.ReadOf conf fun n => n < 65536) s)
    (ha : ∀ node, a = .pdu node → Sender.ReadOf conf (fun n => n < 65536) node)
    (hb : s.before conf a = some (t, readOk)) :
    (t.framePayload.maxPayload = 0 ∨ conf.paddingThreshold ≤ t.framePayload.usablePayload) ∧
      (readOk ≠ .failedFetchModcod → ¬ (¬ t.entered.Fits ∧ t.entered.Short conf)) ∧
      ∀ g ∈ t.handed env conf readOk,
        g.pduNum = if readOk = .failedFetchModcod then 0 else 1 := by
  have hroomy := Sender.Reachable.roomy hthr (fun _ => Sender.ReadOf.modcod) h
  obtain ⟨ht, hm⟩ := hroomy.before (fun node hn => (ha node hn).modcod) hb
  refine ⟨ht.room, fun hok => fun hc => ht.not_short hthr (hm hok) hc.2, ?_⟩
  intro g hg
  by_cases hok : readOk = .failedFetchModcod
  · simp only [Sender.handed, hok, if_true] at hg ⊢
    split_ifs at hg
    · obtain rfl := List.mem_singleton.mp hg
      rw [ht.group]
      rfl
    · cases hg
  · rw [if_neg hok]
    simp only [Sender.handed, if_neg hok, if_neg (ht.not_short hthr (hm hok))] at hg
    split_ifs at hg
    · obtain rfl := List.mem_singleton.mp hg
      exact Sender.entered_pduNum ht.group
    · obtain rfl := List.mem_singleton.mp hg
      exact Sender.splitOff_pduNum _ _ _ _

def afterOne (n : ℕ) : Sender :=
  Sender.act sampleEnv sampleConf .initial (.pdu (Sender.readEnapsulateBuffer sampleConf (zeroMbuf n)))

lemma reachable_afterOne {P : ℕ → Prop} {n : ℕ} (h : P n) :
    Sender.Reachable sampleEnv sampleConf (Sender.ReadOf sampleConf P) (afterOne n) := by
  refine Reached.next .start (i := .pdu (Sender.readEnapsulateBuffer sampleConf (zeroMbuf n)))
    (fun node hn => ?_) rfl
  obtain rfl := Sender.Act.pdu.inj hn
  exact ⟨zeroMbuf n, h, rfl⟩

/-- A second PDU of 1200 bytes does not fit into the frame: what is handed over is its first
fragment. -/
theorem one_entry_per_pdu_split :
    ∃ t, (afterOne 1200).before sampleConf
        (.pdu (Sender.readEnapsulateBuffer sampleConf (zeroMbuf 1200))) =
          some (t, .succeedFetchModcod) ∧ ¬ t.entered.Fits ∧
      sampleConf.paddingThreshold ≤ t.framePayload.usablePayload ∧
      (t.handed sampleEnv sampleConf .succeedFetchModcod).length = 1 ∧
      ∀ g ∈ t.handed sampleEnv sampleConf .succeedFetchModcod, g.pduNum = 1 := by
  have hread : ∀ node, Sender.Act.pdu (Sender.readEnapsulateBuffer sampleConf (zeroMbuf 1200)) =
      .pdu node → Sender.ReadOf sampleConf (fun n => n < 65536) node := by
    intro node hn
    obtain rfl := Sender.Act.pdu.inj hn
    exact ⟨zeroMbuf 1200, by decide, rfl⟩
  refine ⟨_, rfl, by decide, ?_⟩
  obtain ⟨hroom, -, hone⟩ := one_entry_per_pdu sampleEnv (by decide)
    (reachable_afterOne (n := 1200) (by norm_num)) hread rfl
  exact ⟨hroom.resolve_left (by decide), by decide, hone⟩

/-- What `force_send` hands over is not a PDU. -/
theorem force_send_hands_empty_group :
    ¬ ∀ s t : Sender, ∀ a readOk,
      Sender.Reachable sampleEnv sampleConf (Sender.ReadOf sampleConf fun n => n < 65536) s →
      (∀ node, a = .pdu node → Sender.ReadOf sampleConf (fun n => n < 65536) node) →
      s.before sampleConf a = some (t, readOk) →
      ∀ g ∈ t.handed sampleEnv sampleConf readOk, g.pduNum = 1 := by
  intro h
  have hone := h (afterOne 100) (afterOne 100) .idle .failedFetchModcod
    (reachable_afterOne (by norm_num)) (by simp) rfl (afterOne 100).pduGroup (by
      have hn : 0 < (afterOne 100).gseGroup.gseNum := by decide
      simp [Sender.handed, hn])
  revert hone
  decide

/-- The sender with the groups packed since the last `make_frame`. Only `make_frame` clears
`FRAME_PAYLOAD`, so none is waiting while it is clear. -/
structure Ledger where
  sender : Sender
  frame : List PduGroup

def Ledger.initial : Ledger := ⟨.initial, []⟩

def Ledger.act (env : SendEnv) (conf : AppConf) (l : Ledger) (a : Sender.Act) : Ledger where
  sender := l.sender.act env conf a
  frame :=
    if (l.sender.act env conf a).framePayload.maxPayload = 0 then []
    else l.frame ++ (l.sender.act env conf a).packed.drop l.sender.packed.length

def Ledger.actStep (env : SendEnv) (conf : AppConf) (l : Ledger) (a : Sender.Act) :
    Option (Ledger × Unit) := some (l.act env conf a, ())

def gseMaxNum : ℕ := 1000

/-- The index `encapsulate_gse` would write the next packet to. -/
def GseGroup.nextSlot (g : GseGroup) : ℤ := (u8 (g.gseNum + 1) : ℤ) - 1

structure Ledger.Accounts (conf : AppConf) (l : Ledger) : Prop where
  group : l.sender.pduGroup.pduNum = 0
  frame :
    (l.sender.framePayload = .zero ∧ l.sender.gseGroup.gseNum = 0 ∧
      l.sender.gseGroup.totalLength = 0 ∧ l.frame = []) ∨
    (l.sender.framePayload.maxPayload = conf.payload ∧
      l.sender.framePayload.usedPayload + l.sender.framePayload.usablePayload = conf.payload ∧
      l.sender.framePayload.usedPayload = l.sender.gseGroup.totalLength ∧
      l.sender.gseGroup.totalLength = (l.frame.map PduGroup.gseTotalLength).sum ∧
      l.sender.gseGroup.gseNum = l.frame.length)

/-- The call finds fewer than 255 packets in the group, if it brings another one. -/
def Ledger.Countable (conf : AppConf) (l : Ledger) (a : Sender.Act) : Prop :=
  ∀ t readOk, l.sender.before conf a = some (t, readOk) → readOk ≠ .failedFetchModcod →
    l.sender.gseGroup.gseNum < 255

namespace Ledger

variable {env : SendEnv} {conf : AppConf} {l : Ledger} {t : Sender} {readOk : Sender.ReadOk}

structure Agrees (conf : AppConf) (s : Sender) (frame : List PduGroup) : Prop where
  balanced : s.framePayload.Balanced conf
  used : s.framePayload.usedPayload = s.gseGroup.totalLength
  total : s.gseGroup.totalLength = (frame.map PduGroup.gseTotalLength).sum
  count : s.gseGroup.gseNum = frame.length

structure Clear (s : Sender) (frame : List PduGroup) : Prop where
  payload : s.framePayload = .zero
  count : s.gseGroup.gseNum = 0
  total : s.gseGroup.totalLength = 0
  frame : frame = []

lemma clear_makeFrame (env : SendEnv) (conf : AppConf) (s : Sender) :
    Clear (s.makeFrame env conf) [] := ⟨rfl, rfl, rfl, rfl⟩

lemma agrees_openFrame {s : Sender} {frame : List PduGroup}
    (h : Clear s frame ∨ Agrees conf s frame) (hc : conf.Configured)
    (hm : s.usingPdu.modcod = conf.modcode) : Agrees conf s.openFrame frame := by
  obtain ⟨hlow, -⟩ := hc.payload_bounds
  have hg : s.openFrame.gseGroup.gseNum = s.gseGroup.gseNum ∧
      s.openFrame.gseGroup.totalLength = s.gseGroup.totalLength := by
    simp only [Sender.openFrame]
    split_ifs <;> exact ⟨rfl, rfl⟩
  rcases h with h | h
  · obtain ⟨hbal, -⟩ := Sender.openFrame_payload hc hm (.inl h.payload)
    have hopen : s.openFrame.framePayload = initFramePayload conf.modcode := by
      simp [Sender.openFrame, h.payload, FramePayload.zero, hm]
    refine ⟨hbal, ?_, ?_, ?_⟩
    · rw [hopen, hg.2, h.total]
      rfl
    · rw [hg.2, h.total, h.frame]
      rfl
    · rw [hg.1, h.count, h.frame]
      rfl
  · have hne : s.framePayload.maxPayload ≠ 0 := by
      rw [h.balanced.max_eq]
      omega
    have hopen : s.openFrame.framePayload = s.framePayload := by simp [Sender.openFrame, hne]
    refine ⟨by rw [hopen]; exact h.balanced, ?_, ?_, ?_⟩
    · rw [hopen, hg.2, h.used]
    · rw [hg.2, h.total]
    · rw [hg.1, h.count]

lemma Agrees.pack {s : Sender} {frame : List PduGroup} (h : Agrees conf s frame)
    (hc : conf.Configured) (hone : s.pduGroup.pduNum = 1) (hfit : s.Fits)
    (hcount : s.gseGroup.gseNum < 255) :
    Agrees conf s.updateGseGroup (frame ++ [s.pduGroup]) := by
  obtain ⟨-, hhigh⟩ := hc.payload_bounds
  obtain ⟨hbal, husable⟩ := h.balanced.update hc hfit
  have hsum := h.balanced.sum_eq
  have hfit' : s.pduGroup.gseTotalLength ≤ s.framePayload.usablePayload := hfit
  have hused := h.used
  have hadd : u16 (s.framePayload.usedPayload + s.pduGroup.gseTotalLength) =
      s.framePayload.usedPayload + s.pduGroup.gseTotalLength := u16_of_lt (by omega)
  have htotal : u32 (s.gseGroup.totalLength + s.pduGroup.gseTotalLength) =
      s.gseGroup.totalLength + s.pduGroup.gseTotalLength := u32_of_lt (by omega)
  have hnum : u8 (s.gseGroup.gseNum + 1) = s.gseGroup.gseNum + 1 := u8_of_lt (by omega)
  have hg : s.updateGseGroup.gseGroup.totalLength =
        s.gseGroup.totalLength + s.pduGroup.gseTotalLength ∧
      s.updateGseGroup.gseGroup.gseNum = s.gseGroup.gseNum + 1 := by
    simp [Sender.updateGseGroup, encapsulateGse, hone, htotal, hnum]
  refine ⟨hbal, ?_, ?_, ?_⟩
  · rw [hg.1, ← hused]
    exact hadd
  · rw [hg.1, h.total]
    simp
  · rw [hg.2, h.count]
    simp

lemma call_agrees (env : SendEnv) {s : Sender} {frame : List PduGroup} (hroomy : s.Roomy conf)
    (h : Clear s frame ∨ Agrees conf s frame) (hc : conf.Configured)
    (hok : readOk ≠ .failedFetchModcod) (hm : s.usingPdu.modcod = conf.modcode)
    (hcount : s.gseGroup.gseNum < 255) :
    (s.encapsulateIslBb env conf readOk).framePayload = .zero ∧
        Clear (s.encapsulateIslBb env conf readOk) [] ∨
      ∃ g, (s.encapsulateIslBb env conf readOk).packed = s.packed ++ [g] ∧
        Agrees conf (s.encapsulateIslBb env conf readOk) (frame ++ [g]) := by
  have hone : s.entered.pduGroup.pduNum = 1 := Sender.entered_pduNum hroomy.group
  have hopen : Agrees conf s.openFrame frame := agrees_openFrame h hc hm
  have hcount' : s.openFrame.gseGroup.gseNum < 255 := by
    simp only [Sender.openFrame]
    split_ifs <;> exact hcount
  have hpacked := Sender.packed_encapsulateIslBb env conf readOk s
  obtain ⟨hf, he⟩ | ⟨-, hs, -⟩ | ⟨-, -, he⟩ := Sender.encapsulateIslBb_cases env conf hok s
  · simp only [Sender.handed, if_neg hok, if_pos hf] at hpacked
    have hagree : Agrees conf s.entered.updateLastLabel.updateGseGroup
        (frame ++ [s.entered.pduGroup]) :=
      Agrees.pack (s := s.entered.updateLastLabel) ⟨hopen.balanced, hopen.used, hopen.total,
        hopen.count⟩ hc hone hf hcount'
    rw [he] at hpacked ⊢
    simp only [Sender.closeFull] at hpacked ⊢
    split_ifs at hpacked ⊢ with hfull
    · exact .inl ⟨rfl, clear_makeFrame env conf _⟩
    · exact .inr ⟨s.entered.pduGroup, by simpa [hone] using hpacked, hagree⟩
  · exact absurd hs (hroomy.not_short hc.threshold_le_payload hm)
  · rw [he]
    exact .inl ⟨rfl, clear_makeFrame env conf _⟩

structure Holds (conf : AppConf) (l : Ledger) : Prop where
  roomy : l.sender.Roomy conf
  frame : Clear l.sender l.frame ∨ Agrees conf l.sender l.frame

lemma Holds.accounts (h : Holds conf l) : l.Accounts conf where
  group := by
    rw [h.roomy.group]
    rfl
  frame := by
    rcases h.frame with hz | ha
    · exact .inl ⟨hz.payload, hz.count, hz.total, hz.frame⟩
    · exact .inr ⟨ha.balanced.max_eq, ha.balanced.sum_eq, ha.used, ha.total, ha.count⟩

lemma Holds.of_clear {a : Sender.Act} (hroomy : (l.sender.act env conf a).Roomy conf)
    (h : Clear (l.sender.act env conf a) []) : Holds conf (l.act env conf a) := by
  have hframe : (l.act env conf a).frame = [] := by
    simp [Ledger.act, h.payload, FramePayload.zero]
  refine ⟨hroomy, .inl ?_⟩
  rw [hframe]
  exact h

lemma Holds.of_agrees {a : Sender.Act} (gs : List PduGroup) (hc : conf.Configured)
    (hroomy : (l.sender.act env conf a).Roomy conf)
    (hpacked : (l.sender.act env conf a).packed = l.sender.packed ++ gs)
    (h : Agrees conf (l.sender.act env conf a) (l.frame ++ gs)) : Holds conf (l.act env conf a) := by
  obtain ⟨hlow, -⟩ := hc.payload_bounds
  have hne : (l.sender.act env conf a).framePayload.maxPayload ≠ 0 := by
    rw [h.balanced.max_eq]
    omega
  have hframe : (l.act env conf a).frame = l.frame ++ gs := by
    simp [Ledger.act, hne, hpacked]
  refine ⟨hroomy, .inr ?_⟩
  rw [hframe]
  exact h

lemma frame_congr {s t : Sender} {frame : List PduGroup} (hpay : t.framePayload = s.framePayload)
    (hgse : t.gseGroup = s.gseGroup) (h : Clear s frame ∨ Agrees conf s frame) :
    Clear t frame ∨ Agrees conf t frame := by
  rcases h with hz | hag
  · left
    constructor
    · rw [hpay, hz.payload]
    · rw [hgse, hz.count]
    · rw [hgse, hz.total]
    · exact hz.frame
  · right
    constructor
    · rw [hpay]
      exact hag.balanced
    · rw [hpay, hgse, hag.used]
    · rw [hgse, hag.total]
    · rw [hgse, hag.count]

lemma Holds.of_unchanged (h : Holds conf l) (hc : conf.Configured) {a : Sender.Act}
    (hroomy : (l.sender.act env conf a).Roomy conf)
    (hpay : (l.sender.act env conf a).framePayload = l.sender.framePayload)
    (hgse : (l.sender.act env conf a).gseGroup = l.sender.gseGroup)
    (hpacked : (l.sender.act env conf a).packed = l.sender.packed) : Holds conf (l.act env conf a) := by
  rcases frame_congr hpay hgse h.frame with hz | hag
  · exact .of_clear hroomy ⟨hz.payload, hz.count, hz.total, rfl⟩
  · apply Holds.of_agrees [] hc hroomy
    · rw [hpacked, List.append_nil]
    · rwa [List.append_nil]

lemma Holds.act (h : Holds conf l) (hc : conf.Configured) {a : Sender.Act}
    (ha : ∀ node, a = .pdu node → node.modcod = conf.modcode) (hcount : l.Countable conf a) :
    Holds conf (l.act env conf a) := by
  have hroomy : (l.sender.act env conf a).Roomy conf := h.roomy.act hc.threshold_le_payload ha
  cases hb : l.sender.before conf a with
  | none =>
    have hact : l.sender.act env conf a = (l.sender.getFragPkt conf).2 := Sender.act_of_none hb
    apply h.of_unchanged hc hroomy <;> rw [hact] <;> rfl
  | some r =>
    obtain ⟨t, readOk⟩ := r
    have hact : l.sender.act env conf a = t.encapsulateIslBb env conf readOk :=
      Sender.act_of_some hb
    obtain ⟨ht, hm⟩ := h.roomy.before ha hb
    have hsame : t.framePayload = l.sender.framePayload ∧ t.gseGroup = l.sender.gseGroup ∧
        t.packed = l.sender.packed := by
      obtain ⟨node, -, -, rfl⟩ | ⟨id, kind, size, -, -, -, rfl⟩ | ⟨-, -, rfl⟩ :=
        Sender.before_cases hb <;> exact ⟨rfl, rfl, rfl⟩
    obtain ⟨hpay, hgse, hpk⟩ := hsame
    by_cases hok : readOk = .failedFetchModcod
    · subst hok
      have hforce : l.sender.act env conf a = t.forceSend env conf := hact
      simp only [Sender.forceSend] at hforce
      split_ifs at hforce with hn
      · apply Holds.of_clear hroomy
        rw [hforce]
        exact clear_makeFrame env conf _
      · apply h.of_unchanged hc hroomy
        · rw [hforce, hpay]
        · rw [hforce, hgse]
        · rw [hforce, hpk]
    · have hlt : t.gseGroup.gseNum < 255 := by
        rw [hgse]
        exact hcount t readOk hb hok
      have hframe := frame_congr hpay hgse h.frame
      rcases call_agrees env ht hframe hc hok (hm hok) hlt with ⟨-, hz⟩ | ⟨g, hg, hag⟩
      · apply Holds.of_clear hroomy
        rw [hact]
        exact hz
      · apply Holds.of_agrees [g] hc hroomy
        · rw [hact, ← hpk]
          exact hg
        · rw [hact]
          exact hag

end Ledger

abbrev Ledger.Reachable (env : SendEnv) (conf : AppConf) : Ledger → Prop :=
  Reached (Ledger.actStep env conf)
    (fun l a => (∀ node, a = .pdu node → Sender.ReadOf conf (fun n => 1 ≤ n ∧ n ≤ 4000) node) ∧
      l.Countable conf a) .initial

lemma Ledger.Reachable.holds {env : SendEnv} {conf : AppConf} (hc : conf.Configured) {l : Ledger}
    (h : Ledger.Reachable env conf l) : Ledger.Holds conf l := by
  refine Reached.invariant (Ledger.Holds conf) ?_ ?_ h
  · exact ⟨Sender.roomy_initial, .inl ⟨rfl, rfl, rfl, rfl⟩⟩
  · intro l a l' _ hl ha hstep
    obtain ⟨rfl, -⟩ := Prod.mk.inj (Option.some.inj hstep)
    exact hl.act hc (fun node hn => (ha.1 node hn).modcod) ha.2

/-- The frame's counters agree in every run that never brings a packet to a group of 255, and
the next packet then goes into the array. -/
theorem frame_accounts (env : SendEnv) {conf : AppConf} (hc : conf.Configured) {l : Ledger}
    (h : Ledger.Reachable env conf l) :
    l.Accounts conf ∧ ∀ a t readOk, l.Countable conf a → l.sender.before conf a = some (t, readOk) →
      readOk ≠ .failedFetchModcod →
      0 ≤ l.sender.gseGroup.nextSlot ∧ l.sender.gseGroup.nextSlot < gseMaxNum := by
  refine ⟨(h.holds hc).accounts, ?_⟩
  intro a t readOk ha hb hok
  have hlt := ha t readOk hb hok
  have hu : u8 (l.sender.gseGroup.gseNum + 1) = l.sender.gseGroup.gseNum + 1 := u8_of_lt (by omega)
  simp only [GseGroup.nextSlot, hu, gseMaxNum]
  omega

def readAct (n : ℕ) : Sender.Act := .pdu (Sender.readEnapsulateBuffer sampleConf (zeroMbuf n))

/-- A frame with a PDU and the START of the next goes out, then one with its END by `force_send`,
and three PDUs wait. -/
def sampleActs : List Sender.Act :=
  [readAct 1200, readAct 1200, .fragment, .idle, readAct 100, readAct 46, readAct 1]

def sampleLedger : Ledger := sampleActs.foldl (Ledger.act sampleEnv sampleConf) .initial

theorem frame_accounts_flushed :
    sampleLedger.sender.output.pool.ring.length = 2 ∧ sampleLedger.frame.length = 3 ∧
      sampleLedger.Accounts sampleConf ∧
      ∀ a t readOk, sampleLedger.Countable sampleConf a →
        sampleLedger.sender.before sampleConf a = some (t, readOk) →
        readOk ≠ .failedFetchModcod →
        0 ≤ sampleLedger.sender.gseGroup.nextSlot ∧
          sampleLedger.sender.gseGroup.nextSlot < gseMaxNum := by
  have hread : ∀ a ∈ sampleActs, ∀ node, a = .pdu node →
      Sender.ReadOf sampleConf (fun n => 1 ≤ n ∧ n ≤ 4000) node := by
    have hone (n : ℕ) (hn : 1 ≤ n ∧ n ≤ 4000) (node : EnPduNode) (h : readAct n = .pdu node) :
        Sender.ReadOf sampleConf (fun n => 1 ≤ n ∧ n ≤ 4000) node :=
      ⟨zeroMbuf n, hn, (Sender.Act.pdu.inj h).symm⟩
    simp only [sampleActs, List.forall_mem_cons, List.not_mem_nil, false_implies, implies_true,
      reduceCtorEq, and_true, true_and]
    exact ⟨hone 1200 (by decide), hone 1200 (by decide), hone 100 (by decide), hone 46 (by decide),
      hone 1 (by decide)⟩
  have hcount : ∀ n < 7, ((sampleActs.take n).foldl (Ledger.act sampleEnv sampleConf)
      .initial).sender.gseGroup.gseNum < 255 := by decide +kernel
  have hreached : Ledger.Reachable sampleEnv sampleConf sampleLedger := by
    refine Reached.foldl .start fun n a ha => ⟨hread a (List.mem_of_getElem? ha), ?_⟩
    intro t readOk _ _
    exact hcount n (List.getElem?_eq_some_iff.mp ha).1
  exact ⟨by decide +kernel, by decide +kernel, frame_accounts sampleEnv sampleConf_configured hreached⟩

def tinyLedger : ℕ → Ledger
  | 0 => .initial
  | n + 1 => (tinyLedger n).act sampleEnv sampleConf
      (.pdu (Sender.readEnapsulateBuffer sampleConf (zeroMbuf 1)))

/-- What `n` one-byte PDUs make of the counters: each takes five bytes of the frame. -/
structure Tiny (n : ℕ) (s : Sender) : Prop where
  group : s.pduGroup = .zero
  count : s.gseGroup.gseNum = u8 n
  total : s.gseGroup.totalLength = 5 * n
  payload : s.framePayload = .zero ∧ n = 0 ∨ s.framePayload = ⟨5 * n, 1991 - 5 * n, 1991, 1⟩

lemma Tiny.call {n : ℕ} {s : Sender} (h : Tiny n s) (hn : n < 256)
    (hu : s.usingPdu = Sender.readEnapsulateBuffer sampleConf (zeroMbuf 1)) :
    Tiny (n + 1) (s.encapsulateIslBb sampleEnv sampleConf .succeedFetchModcod) := by
  have hlen : s.usingPdu.packetLength = 5 := by
    rw [hu]
    decide
  have hdata : s.usingPdu.dataField < 60000 := by
    rw [hu]
    decide
  have hopen : s.openFrame.framePayload = ⟨5 * n, 1991 - 5 * n, 1991, 1⟩ := by
    rcases h.payload with ⟨h0, rfl⟩ | h1
    · simp only [Sender.openFrame, h0, hu]
      rfl
    · simp [Sender.openFrame, h1]
  have hfit : s.usingPdu.packetLength ≤ s.openFrame.framePayload.usablePayload := by
    rw [hopen, hlen]
    simp only
    omega
  have hgroup : ∀ t, (s.usingPdu.group t).gseTotalLength = 5 := by
    intro t
    rw [EnPduNode.group_total hdata, hlen]
  have hused : u16 (5 * n + 5) = 5 * (n + 1) := u16_of_lt (by omega)
  have husable : sub16 (1991 - 5 * n) 5 = 1991 - 5 * (n + 1) := by
    rw [sub16_of_le (by omega) (by omega)]
    omega
  have hpack : s.openFrame.pack.updateLastLabel.framePayload =
      ⟨5 * (n + 1), 1991 - 5 * (n + 1), 1991, 1⟩ := by
    simp only [Sender.updateLastLabel, Sender.pack, hopen, FramePayload.update]
    rw [show s.openFrame.usingPdu = s.usingPdu from rfl, hgroup, hused, husable]
  have hkeep : s.openFrame.pack.updateLastLabel.closeFull sampleEnv sampleConf =
      s.openFrame.pack.updateLastLabel := by
    rw [Sender.closeFull, if_neg]
    rw [hpack]
    simp only [sampleConf]
    omega
  have hgse : s.openFrame.gseGroup.gseNum = u8 n ∧ s.openFrame.gseGroup.totalLength = 5 * n := by
    simp only [Sender.openFrame]
    split_ifs <;> exact ⟨h.count, h.total⟩
  rw [Sender.encapsulateIslBb_fits sampleEnv (by decide) h.group (by rw [hu]; rfl) hdata hfit, hkeep]
  refine ⟨h.group, ?_, ?_, .inr hpack⟩
  · change u8 (s.openFrame.gseGroup.gseNum + 1) = _
    rw [hgse.1]
    simp [u8]
  · change u32 (s.openFrame.gseGroup.totalLength + (s.usingPdu.group _).gseTotalLength) = _
    rw [hgse.2, hgroup]
    exact u32_of_lt (by omega)

lemma tinyLedger_succ (n : ℕ) :
    (tinyLedger (n + 1)).sender =
      ((tinyLedger n).sender.getWholePkt sampleConf (zeroMbuf 1)).encapsulateIslBb sampleEnv
        sampleConf .succeedFetchModcod := by
  rw [tinyLedger, Ledger.act, Sender.act_getWholePkt]

lemma tiny_tinyLedger (n : ℕ) (h : n ≤ 256) : Tiny n (tinyLedger n).sender := by
  induction n with
  | zero => exact ⟨rfl, rfl, rfl, .inl ⟨rfl, rfl⟩⟩
  | succ n ih =>
    have hn := ih (by omega)
    rw [tinyLedger_succ]
    apply Tiny.call _ (by omega) rfl
    exact ⟨hn.group, hn.count, hn.total, hn.payload⟩

/-- With the 256th packet of a frame `gse_num` is 0 again. -/
theorem gse_num_wraps :
    ¬ ∀ l, Reached (Ledger.actStep sampleEnv sampleConf)
      (fun _ a => ∀ node, a = .pdu node →
        Sender.ReadOf sampleConf (fun n => 1 ≤ n ∧ n ≤ 4000) node) .initial l →
      l.Accounts sampleConf := by
  intro hall
  have hreach : ∀ n, Reached (Ledger.actStep sampleEnv sampleConf)
      (fun _ a => ∀ node, a = .pdu node →
        Sender.ReadOf sampleConf (fun n => 1 ≤ n ∧ n ≤ 4000) node) .initial (tinyLedger n) := by
    intro n
    induction n with
    | zero => exact .start
    | succ n ih =>
      refine .next ih (i := .pdu (Sender.readEnapsulateBuffer sampleConf (zeroMbuf 1)))
        (fun node hn => ?_) rfl
      obtain rfl := Sender.Act.pdu.inj hn
      exact ⟨zeroMbuf 1, ⟨by decide, by decide⟩, rfl⟩
  obtain ⟨-, hnum, htotal, -⟩ := tiny_tinyLedger 256 le_rfl
  obtain ⟨-, -, h0, -⟩ | ⟨-, -, -, hsum, hlen⟩ := (hall _ (hreach 256)).frame
  · omega
  · rw [hnum, eq_comm, show u8 256 = 0 from rfl, List.length_eq_zero_iff] at hlen
    rw [hlen, htotal] at hsum
    simp at hsum

end Fengtai.Send
