import Mathlib.Data.List.DropRight
import Fengtai.Send.Calls
import Fengtai.Send.Lengths

set_option autoImplicit false

/-! The labels of the packets over any interleaving of mappings, which share the label used
last. -/

namespace Fengtai.Send

open Library.Words Library.Runs Receive

/-- Where a PDU goes; `none` is broadcast. -/
abbrev Address := Option (List UInt8)

def EnPduNode.address (n : EnPduNode) : Address :=
  if getBroadcastType n.macAddress then none else some (n.macAddress.take n.macLength)

structure EnPduNode.WellAddressed (n : EnPduNode) : Prop where
  length : n.macAddress.length = 6
  kind : (getBroadcastType n.macAddress = true ∧ n.macLength = 0) ∨
    (getBroadcastType n.macAddress = false ∧ (n.macLength = 3 ∨ n.macLength = 6))

/-- The label `package_gse_variable_header` writes. -/
def PduGroup.label (g : PduGroup) : LabelType × List UInt8 :=
  (g.labelType, g.macAddress.take g.labelType.size)

def resolveLabel (last : Option Address) : LabelType × List UInt8 → Option Address
  | (.broadcast, _) => some none
  | (.reuse, _) => last
  | (_, label) => some (some label)

/-- A group handed to `encapsulate_gse`, and the PDU in it. -/
structure Carried where
  group : PduGroup
  pdu : EnPduNode

/-- Behind a packet with the address `last`, each label gives the address of the PDU. -/
def Resolves : Option Address → List Carried → Prop
  | _, [] => True
  | last, p :: ps =>
    resolveLabel last p.group.label = some p.pdu.address ∧ Resolves (some p.pdu.address) ps

instance decidableResolves : ∀ last ps, Decidable (Resolves last ps)
  | _, [] => .isTrue trivial
  | _, p :: ps =>
    have := decidableResolves (some p.pdu.address) ps
    inferInstanceAs (Decidable (_ ∧ _))

def lastAddress (last : Option Address) (ps : List Carried) : Option Address :=
  (ps.getLast?.map fun p => p.pdu.address).or last

lemma resolves_concat (last : Option Address) (ps : List Carried) (p : Carried) :
    Resolves last (ps ++ [p]) ↔
      Resolves last ps ∧ resolveLabel (lastAddress last ps) p.group.label = some p.pdu.address := by
  induction ps generalizing last with
  | nil => simp [Resolves, lastAddress]
  | cons q ps ih =>
    have hlast : lastAddress last (q :: ps) = lastAddress (some q.pdu.address) ps := by
      cases h : ps.getLast? with
      | none => simp [lastAddress, List.getLast?_eq_none_iff.mp h]
      | some r => simp [lastAddress, List.getLast?_cons, h]
    rw [List.cons_append, Resolves, Resolves, ih, hlast, and_assoc]

/-- The PDU has the label used last, so that `decide_label` may reuse it. -/
def Sender.MatchesLast (s : Sender) : Prop :=
  getBroadcastType s.usingPdu.macAddress = false ∧
    s.usingPdu.macLength = s.lastLabel.macLength ∧
    s.usingPdu.macAddress.take s.usingPdu.macLength = s.lastLabel.macAddress.take s.usingPdu.macLength

lemma EnPduNode.WellAddressed.take_eq {n n' : EnPduNode} (hn : n.WellAddressed)
    (hn' : n'.WellAddressed) (h : n'.address = n.address)
    (hb : getBroadcastType n.macAddress = false) :
    n'.address = some (n'.macAddress.take n.macLength) := by
  have haddr : n.address = some (n.macAddress.take n.macLength) := by simp [address, hb]
  obtain ⟨hb', -⟩ | ⟨hb', hlen'⟩ := hn'.kind
  · have hnone : n'.address = none := by simp [address, hb']
    rw [← h, hnone] at haddr
    cases haddr
  · have haddr' : n'.address = some (n'.macAddress.take n'.macLength) := by simp [address, hb']
    rw [haddr, haddr'] at h
    have hlen := congrArg List.length (Option.some.inj h)
    obtain ⟨hb'', -⟩ | ⟨-, hlen''⟩ := hn.kind
    · rw [hb] at hb''
      cases hb''
    · rw [List.length_take, List.length_take, hn.length, hn'.length] at hlen
      rw [haddr', show n'.macLength = n.macLength by omega]

/-- A label that `decide_label` chooses for one PDU is right for every PDU of the same address, if
what it reuses is. -/
lemma resolveLabel_decideLabel {n n' : EnPduNode} (hn : n.WellAddressed) (hn' : n'.WellAddressed)
    (haddr : n'.address = n.address) {l : LastLabel} {nullFrame : Bool} {last : Option Address}
    (hlast : nullFrame = false → getBroadcastType n.macAddress = false →
      n.macLength = l.macLength →
      n.macAddress.take n.macLength = l.macAddress.take n.macLength → last = some n.address) :
    let t := (decideLabel n.macLength n.macAddress l.macLength l.macAddress nullFrame).1
    resolveLabel last (t, n'.macAddress.take t.size) = some n'.address := by
  cases hb : getBroadcastType n.macAddress with
  | true =>
    have hnone : n.address = none := by simp [EnPduNode.address, hb]
    simp [decideLabel, hb, resolveLabel, haddr, hnone]
  | false =>
    have htake := hn.take_eq hn' haddr hb
    by_cases hreuse : (!nullFrame && n.macLength == l.macLength &&
        n.macAddress.take n.macLength == l.macAddress.take n.macLength) = true
    · have hlabel : decideLabel n.macLength n.macAddress l.macLength l.macAddress nullFrame =
          (.reuse, 0) := by
        rw [decideLabel, if_neg (by simp [hb]), if_pos hreuse]
      simp only [Bool.and_eq_true, Bool.not_eq_true', beq_iff_eq] at hreuse
      obtain ⟨⟨hnull, hlen⟩, hmac⟩ := hreuse
      rw [hlabel, haddr, ← hlast hnull hb hlen hmac]
      rfl
    · have hlabel : decideLabel n.macLength n.macAddress l.macLength l.macAddress nullFrame =
          (if n.macLength = 6 then .sixBytes else .threeBytes, n.macLength) := by
        rw [decideLabel, if_neg (by simp [hb]), if_neg hreuse]
      rw [hlabel, htake]
      obtain ⟨hb', -⟩ | ⟨-, h3 | h6⟩ := hn.kind
      · rw [hb] at hb'
        cases hb'
      · simp [h3, resolveLabel, LabelType.size]
      · simp [h6, resolveLabel, LabelType.size]

lemma addToPduGroup_label (n : EnPduNode) (g : PduGroup) (l : LabelType) (size : ℕ) :
    (addToPduGroup n g l size).label =
      if u16 (g.pduNum + 1) = 1 then (l, n.macAddress.take l.size) else g.label := by
  rw [addToPduGroup]
  split_ifs <;> rfl

lemma updatePduGroup_label (n : EnPduNode) (g : PduGroup) (l : LabelType) (size : ℕ)
    (c : SequenceCounters) :
    (updatePduGroup n g l size c).1.label =
      if u16 (g.pduNum + 1) = 1 then (l, n.macAddress.take l.size) else g.label := by
  rw [← addToPduGroup_label, updatePduGroup]
  split_ifs <;> rfl

def frameOf (log : List Carried) (s : Sender) : List Carried :=
  (log.take s.packed.length).rtake s.gseGroup.gseNum

structure FrameSound (log : List Carried) (s : Sender) : Prop where
  packets : s.gseGroup.packets = (frameOf log s).map fun p => p.group.packet
  resolves : Resolves none (frameOf log s)

/-- One thread serves every mapping; the label used last and the world are shared. The log of
packets with their PDUs is no part of the source. -/
structure Thread where
  senders : ℕ → Sender
  lastLabel : LastLabel
  output : Output
  log : ℕ → List Carried

namespace Thread

def initial : Thread := ⟨fun _ => .initial, .initial, ⟨.fresh, false⟩, fun _ => []⟩

def sender (t : Thread) (i : ℕ) : Sender :=
  { t.senders i with lastLabel := t.lastLabel, output := t.output }

def handedOver (s s' : Sender) : List Carried :=
  (s'.packed.drop s.packed.length).map fun g => ⟨g, s'.usingPdu⟩

def act (env : SendEnv) (conf : ℕ → AppConf) (t : Thread) (i : ℕ) (a : Sender.Act) : Thread :=
  let s := t.sender i
  let s' := s.act env (conf i) a
  { senders := Function.update t.senders i s'
    lastLabel := s'.lastLabel
    output := s'.output
    log := Function.update t.log i (t.log i ++ handedOver s s') }

def step (env : SendEnv) (conf : ℕ → AppConf) (t : Thread) (x : ℕ × Sender.Act) :
    Option (Thread × Unit) := some (t.act env conf x.1 x.2, ())

end Thread

/-- Nothing goes wrong with the label of the PDU at hand: the group has a slot left; what
`decide_label` may reuse is the address of the packet before it, which is not sent off in case
1.2.1; and the fragmentations under way have the same address, if the call goes into
`fragment_process`. -/
structure Sender.LabelSafe (env : SendEnv) (conf : AppConf) (readOk : Sender.ReadOk)
    (log : List Carried) (s : Sender) : Prop where
  count : s.gseGroup.gseNum < 255
  label : s.framePayload.maxPayload ≠ 0 → s.MatchesLast →
    (frameOf log s).getLast?.map (fun p => p.pdu.address) = some s.usingPdu.address
  reopen : s.framePayload.maxPayload ≠ 0 → s.MatchesLast →
    s.entered.Fits ∨ ¬ s.entered.Short conf
  fragments : s.EntersFragmentProcess env conf readOk →
    s.fragments.Each fun n => n.address = s.usingPdu.address

section Frames

variable {s : Sender} {log : List Carried}

lemma frameOf_eq (h : log.map Carried.group = s.packed) :
    frameOf log s = log.rtake s.gseGroup.gseNum := by
  rw [frameOf, ← h, List.length_map, List.take_length]

lemma FrameSound.pack {p : Carried} {t : Sender} (hlog : log.map Carried.group = t.packed)
    (h : FrameSound log t) (hg : p.group = t.pduGroup) (hne : t.pduGroup.pduNum ≠ 0)
    (hcount : t.gseGroup.gseNum < 255)
    (hlabel : resolveLabel (lastAddress none (frameOf log t)) p.group.label = some p.pdu.address) :
    FrameSound (log ++ [p]) t.updateGseGroup ∧
      (log ++ [p]).map Carried.group = t.updateGseGroup.packed := by
  have hlog' : (log ++ [p]).map Carried.group = t.updateGseGroup.packed := by
    simp [Sender.updateGseGroup, hne, hlog, hg]
  obtain ⟨hpackets, hnum⟩ := packets_encapsulateGse hne hcount
  have hframe : frameOf (log ++ [p]) t.updateGseGroup = frameOf log t ++ [p] := by
    rw [frameOf_eq hlog', frameOf_eq hlog]
    change (log ++ [p]).rtake (encapsulateGse t.pduGroup t.gseGroup).gseNum = _
    rw [hnum, List.rtake_concat_succ]
  refine ⟨⟨?_, ?_⟩, hlog'⟩
  · rw [hframe, List.map_append, ← h.packets, List.map_cons, List.map_nil, hg]
    exact hpackets
  · rw [hframe, resolves_concat]
    exact ⟨h.resolves, hlabel⟩

lemma FrameSound.congr {t : Sender} (h : FrameSound log s) (hg : t.gseGroup.packets = s.gseGroup.packets)
    (hn : t.gseGroup.gseNum = s.gseGroup.gseNum) (hp : t.packed = s.packed) : FrameSound log t := by
  have hframe : frameOf log t = frameOf log s := by rw [frameOf, frameOf, hn, hp]
  exact ⟨by rw [hframe, hg, h.packets], by rw [hframe]; exact h.resolves⟩

lemma FrameSound.extend (h : FrameSound log s) (hlog : log.map Carried.group = s.packed)
    (ps : List Carried) : FrameSound (log ++ ps) s := by
  have hframe : frameOf (log ++ ps) s = frameOf log s := by
    rw [frameOf, frameOf, ← hlog, List.length_map, List.take_left, List.take_length]
  exact ⟨by rw [hframe, h.packets], by rw [hframe]; exact h.resolves⟩

lemma frameOf_of_gseNum {t : Sender} (h : t.gseGroup.gseNum = 0) : frameOf log t = [] := by
  rw [frameOf, h, List.rtake_zero]

lemma frameSound_of_gseNum {t : Sender} (h : t.gseGroup.gseNum = 0) : FrameSound log t where
  packets := by rw [frameOf_of_gseNum h, GseGroup.packets_eq, h]; rfl
  resolves := by rw [frameOf_of_gseNum h]; trivial

end Frames

namespace Sender

structure Labelled (log : List Carried) (s : Sender) : Prop where
  group : s.pduGroup = .zero
  nodes : s.fragments.Each EnPduNode.WellAddressed
  logged : log.map Carried.group = s.packed
  sound : FrameSound log s

variable {env : SendEnv} {conf : AppConf} {s : Sender} {log : List Carried} {readOk : ReadOk}

lemma entered_gseGroup (s : Sender) : s.entered.gseGroup.packets = s.gseGroup.packets ∧
    s.entered.gseGroup.gseNum = s.gseGroup.gseNum := by
  have hg : s.entered.gseGroup = s.openFrame.gseGroup := rfl
  rw [hg, openFrame]
  split_ifs <;> exact ⟨rfl, rfl⟩

lemma split_address (conf : AppConf) (hn : s.usingPdu.WellAddressed)
    (hnodes : s.fragments.Each EnPduNode.WellAddressed)
    (hsame : s.fragments.Each fun n => n.address = s.usingPdu.address) (nullFrame : Bool) :
    (s.split conf nullFrame).usingPdu.WellAddressed ∧
      (s.split conf nullFrame).usingPdu.address = s.usingPdu.address ∧
      (s.split conf nullFrame).fragments.Each EnPduNode.WellAddressed := by
  have hnodes' := hnodes.doFragment nullFrame s.framePayload.maxPayload
    s.framePayload.usablePayload s.usingPdu ⟨hn.length, hn.kind⟩
  have hsame' := hsame.doFragment nullFrame s.framePayload.maxPayload s.framePayload.usablePayload
    s.usingPdu rfl
  refine ⟨?_, ?_, hnodes'.fetch conf _⟩
  · apply hnodes'.fetch_node conf hn
    exact fun id kind size h => ⟨h.length, h.kind⟩
  · apply hsame'.fetch_node conf rfl
    exact fun id kind size h => h

lemma splitOff_label (label : LabelType × ℕ) (nullFrame : Bool) :
    (s.splitOff conf label nullFrame).pduGroup.label =
      (label.1, (s.split conf nullFrame).usingPdu.macAddress.take label.1.size) :=
  updatePduGroup_label _ .zero _ _ _

lemma entered_label (h : s.pduGroup = .zero) :
    s.entered.pduGroup.label = (s.label.1, s.usingPdu.macAddress.take s.label.1.size) := by
  have hz : s.openFrame.pduGroup = .zero := h
  have hlabel := updatePduGroup_label s.usingPdu s.openFrame.pduGroup s.label.1 s.label.2 s.counters
  rw [if_pos (by rw [hz]; rfl)] at hlabel
  exact hlabel

lemma reopened_label (h : s.pduGroup.pduNum = 1) :
    (s.reopened env conf).pduGroup.label = s.pduGroup.label := by
  have hlabel := updatePduGroup_label s.usingPdu s.pduGroup (s.makeFrame env conf).firstLabel.1
    (s.makeFrame env conf).firstLabel.2 s.counters
  rw [h, if_neg (by decide)] at hlabel
  exact hlabel

lemma splitOff_sound (env : SendEnv) (conf : AppConf) (hn : s.usingPdu.WellAddressed)
    (hnodes : s.fragments.Each EnPduNode.WellAddressed)
    (hsame : s.fragments.Each fun n => n.address = s.usingPdu.address)
    (hlog : log.map Carried.group = s.packed) (hsound : FrameSound log s)
    (hcount : s.gseGroup.gseNum < 255) (label : LabelType × ℕ) (nullFrame : Bool)
    (hlabel : ∀ n : EnPduNode, n.WellAddressed → n.address = s.usingPdu.address →
      resolveLabel (lastAddress none (frameOf log s))
        (label.1, n.macAddress.take label.1.size) = some n.address) :
    let t := s.splitOff conf label nullFrame
    FrameSound (log ++ [⟨t.pduGroup, t.usingPdu⟩]) t.updateGseGroup ∧
      (t.updateGseGroup.makeFrame env conf).Labelled (log ++ [⟨t.pduGroup, t.usingPdu⟩]) := by
  obtain ⟨hn', haddr, hnodes'⟩ := split_address conf hn hnodes hsame nullFrame
  have h1 := splitOff_pduNum conf label nullFrame s
  obtain ⟨hpack, hlog'⟩ := FrameSound.pack
    (p := ⟨(s.splitOff conf label nullFrame).pduGroup, (s.splitOff conf label nullFrame).usingPdu⟩)
    (t := s.splitOff conf label nullFrame) hlog (hsound.congr rfl rfl rfl) rfl (by omega) hcount (by
      rw [splitOff_label]
      exact hlabel _ hn' haddr)
  refine ⟨hpack, ?_, hnodes', hlog', frameSound_of_gseNum rfl⟩
  exact updateGseGroup_group _ fun h0 => by omega

lemma LabelSafe.lastAddress (h : s.LabelSafe env conf readOk log)
    (hnull : (s.framePayload.maxPayload == 0) = false) (hmatch : s.MatchesLast) :
    Send.lastAddress none (frameOf log s) = some s.usingPdu.address := by
  have hlast := h.label (by simpa using hnull) hmatch
  rw [Send.lastAddress, hlast]
  rfl

/-- The packet of the group `g` is in the log; the frames that are closed are sound, and so is what
stays. -/
def LeavesSound (log : List Carried) (t : Sender) (g : PduGroup) (closed : List Sender) : Prop :=
  t.Labelled (log ++ [⟨g, t.usingPdu⟩]) ∧ ∀ c ∈ closed, FrameSound (log ++ [⟨g, t.usingPdu⟩]) c

lemma frameOf_entered (log : List Carried) (s : Sender) : frameOf log s.entered = frameOf log s := by
  rw [frameOf, frameOf, (entered_gseGroup s).2]
  rfl

lemma LabelSafe.entered_count (hsafe : s.LabelSafe env conf readOk log) :
    s.entered.gseGroup.gseNum < 255 := by
  rw [(entered_gseGroup s).2]
  exact hsafe.count

namespace Labelled

lemma entered_sound (h : s.Labelled log) : FrameSound log s.entered :=
  h.sound.congr (entered_gseGroup s).1 (entered_gseGroup s).2 rfl

lemma fits_sound (h : s.Labelled log) (hn : s.usingPdu.WellAddressed)
    (hsafe : s.LabelSafe env conf readOk log) :
    LeavesSound log (s.entered.updateLastLabel.updateGseGroup.closeFull env conf) s.entered.pduGroup
      (if s.entered.updateLastLabel.updateGseGroup.Short conf then
        [s.entered.updateLastLabel.updateGseGroup] else []) := by
  have h1 := entered_pduNum h.group
  have hsound := h.entered_sound
  have hlabel : resolveLabel (Send.lastAddress none (frameOf log s.entered))
      s.entered.pduGroup.label = some s.usingPdu.address := by
    rw [frameOf_entered, entered_label h.group]
    exact resolveLabel_decideLabel hn hn rfl fun hnull hb hlen hmac =>
      hsafe.lastAddress hnull ⟨hb, hlen, hmac⟩
  obtain ⟨hpack, hlog⟩ := FrameSound.pack (p := ⟨s.entered.pduGroup, s.usingPdu⟩)
    (t := s.entered.updateLastLabel) h.logged ⟨hsound.packets, hsound.resolves⟩ rfl
    (by change s.entered.pduGroup.pduNum ≠ 0; omega) hsafe.entered_count hlabel
  have hgroup : s.entered.updateLastLabel.updateGseGroup.pduGroup = .zero := by
    apply updateGseGroup_group
    intro h0
    have hone : s.entered.updateLastLabel.pduGroup.pduNum = 1 := h1
    omega
  by_cases hshort : s.entered.updateLastLabel.updateGseGroup.Short conf
  · rw [closeFull, if_pos (show _ < _ from hshort), if_pos hshort]
    refine ⟨⟨hgroup, h.nodes, hlog, frameSound_of_gseNum rfl⟩, fun c hc => ?_⟩
    obtain rfl := List.mem_singleton.mp hc
    exact hpack
  · rw [closeFull, if_neg (show ¬ _ < _ from hshort), if_neg hshort]
    exact ⟨⟨hgroup, h.nodes, hlog, hpack⟩, by simp⟩

lemma reopens_sound (h : s.Labelled log) (hn : s.usingPdu.WellAddressed)
    (hsafe : s.LabelSafe env conf readOk log) (hf : ¬ s.entered.Fits) (hs : s.entered.Short conf) :
    LeavesSound log (s.entered.reopened env conf).updateGseGroup (s.entered.reopened env conf).pduGroup
      [s.entered] := by
  have hzero : (s.entered.reopened env conf).gseGroup.gseNum = 0 := rfl
  have h1 := entered_pduNum h.group
  have h2 := reopened_pduNum env conf h1
  have hlabel : resolveLabel (Send.lastAddress none (frameOf log (s.entered.reopened env conf)))
      (s.entered.reopened env conf).pduGroup.label = some s.usingPdu.address := by
    rw [frameOf_of_gseNum hzero, reopened_label h1, entered_label h.group]
    refine resolveLabel_decideLabel hn hn rfl fun hnull hb hlen hmac => ?_
    rcases hsafe.reopen (by simpa using hnull) ⟨hb, hlen, hmac⟩ with hfit | hshort
    · exact absurd hfit hf
    · exact absurd hs hshort
  obtain ⟨hpack, hlog⟩ := FrameSound.pack
    (p := ⟨(s.entered.reopened env conf).pduGroup, s.usingPdu⟩)
    (t := s.entered.reopened env conf) h.logged (frameSound_of_gseNum hzero) rfl (by omega) (by omega)
    hlabel
  refine ⟨⟨?_, h.nodes, hlog, hpack⟩, fun c hc => ?_⟩
  · exact updateGseGroup_group _ fun h0 => by omega
  · obtain rfl := List.mem_singleton.mp hc
    exact h.entered_sound.extend h.logged _

lemma reopensAndSplits_sound (h : s.Labelled log) (hn : s.usingPdu.WellAddressed)
    (hsame : s.fragments.Each fun n => n.address = s.usingPdu.address) {t : Sender}
    (ht : t = (s.entered.reopened env conf).splitOff conf
      (s.entered.makeFrame env conf).firstLabel true) :
    LeavesSound log (t.updateGseGroup.makeFrame env conf) t.pduGroup
      [s.entered, t.updateGseGroup] := by
  have hzero : (s.entered.reopened env conf).gseGroup.gseNum = 0 := rfl
  obtain ⟨hpack, hlabelled⟩ := splitOff_sound env conf (s := s.entered.reopened env conf) hn h.nodes
    hsame h.logged (frameSound_of_gseNum hzero) (by omega) (s.entered.makeFrame env conf).firstLabel
    true (by
      intro n hn' haddr
      rw [frameOf_of_gseNum hzero]
      exact resolveLabel_decideLabel hn hn' haddr fun hnull => absurd hnull (by decide))
  rw [← ht] at hpack hlabelled
  refine ⟨hlabelled, fun c hc => ?_⟩
  rcases List.mem_cons.mp hc with rfl | hc
  · exact h.entered_sound.extend h.logged _
  · obtain rfl := List.mem_singleton.mp hc
    exact hpack

lemma splits_sound (h : s.Labelled log) (hn : s.usingPdu.WellAddressed)
    (hsame : s.fragments.Each fun n => n.address = s.usingPdu.address)
    (hsafe : s.LabelSafe env conf readOk log) :
    LeavesSound log ((s.firstFragment conf).updateGseGroup.makeFrame env conf)
      (s.firstFragment conf).pduGroup [(s.firstFragment conf).updateGseGroup] := by
  have hsound := h.entered_sound
  obtain ⟨hpack, hlabelled⟩ := splitOff_sound env conf (s := s.entered.updateLastLabel) hn h.nodes
    hsame h.logged ⟨hsound.packets, hsound.resolves⟩ hsafe.entered_count s.label
    (s.framePayload.maxPayload == 0) (by
      intro n hn' haddr
      rw [show frameOf log s.entered.updateLastLabel = frameOf log s.entered from rfl, frameOf_entered]
      exact resolveLabel_decideLabel hn hn' haddr fun hnull hb hlen hmac =>
        hsafe.lastAddress hnull ⟨hb, hlen, hmac⟩)
  refine ⟨hlabelled, fun c hc => ?_⟩
  obtain rfl := List.mem_singleton.mp hc
  exact hpack

lemma forceSend_sound (h : s.Labelled log) (env : SendEnv) (conf : AppConf) :
    (s.forceSend env conf).packed = s.packed ∧ (s.forceSend env conf).Labelled log ∧
      ∀ c ∈ s.closing env conf .failedFetchModcod, FrameSound log c := by
  have hzero : s.pduGroup.pduNum = 0 := by
    rw [h.group]
    rfl
  have hpacked := packed_forceSend env conf h.group
  refine ⟨hpacked, ?_, fun c hc => ?_⟩
  · simp only [forceSend] at hpacked ⊢
    split_ifs at hpacked ⊢
    · exact ⟨updateGseGroup_group s fun _ => h.group, h.nodes, h.logged.trans hpacked.symm,
        frameSound_of_gseNum rfl⟩
    · exact h
  · simp only [closing, if_true] at hc
    split_ifs at hc
    · obtain rfl := List.mem_singleton.mp hc
      refine h.sound.congr ?_ ?_ ?_ <;> simp [updateGseGroup, encapsulateGse, hzero]
    · cases hc

lemma call (h : s.Labelled log) (hn : s.usingPdu.WellAddressed)
    (hok : readOk ≠ .failedFetchModcod) (hsafe : s.LabelSafe env conf readOk log) :
    ∃ g, (s.encapsulateIslBb env conf readOk).packed = s.packed ++ [g] ∧
      LeavesSound log (s.encapsulateIslBb env conf readOk) g (s.closing env conf readOk) := by
  obtain ⟨g, hpacking, hpacked⟩ := encapsulateIslBb_packing env conf hok h.group
  refine ⟨g, hpacked, ?_⟩
  generalize s.encapsulateIslBb env conf readOk = t at hpacking
  generalize s.closing env conf readOk = closed at hpacking
  cases hpacking with
  | fits hf => exact h.fits_sound hn hsafe
  | reopens hf hs hfit => exact h.reopens_sound hn hsafe hf hs
  | reopensAndSplits hf hs hfit ht =>
    exact h.reopensAndSplits_sound hn (hsafe.fragments ⟨hok, hf, fun _ => hfit⟩) ht
  | splits hf hs => exact h.splits_sound hn (hsafe.fragments ⟨hok, hf, fun h => absurd h hs⟩) hsafe

end Labelled

end Sender

namespace Thread

variable {env : SendEnv} {conf : ℕ → AppConf} {t : Thread} {i : ℕ} {a : Sender.Act}

structure Admits (env : SendEnv) (conf : ℕ → AppConf) (t : Thread) (x : ℕ × Sender.Act) : Prop where
  node : ∀ n, x.2 = .pdu n → n.WellAddressed
  safe : ∀ s readOk, (t.sender x.1).before (conf x.1) x.2 = some (s, readOk) →
    readOk ≠ .failedFetchModcod → s.LabelSafe env (conf x.1) readOk (t.log x.1)

abbrev Reachable (env : SendEnv) (conf : ℕ → AppConf) : Thread → Prop :=
  Reached (step env conf) (Admits env conf) initial

def Holds (t : Thread) : Prop := ∀ i, (t.sender i).Labelled (t.log i)

lemma holds_initial : Holds initial := fun _ =>
  ⟨rfl, fun id hid => by simp [sender, initial, Sender.initial, Fragments.initial,
    FragmentBuffer.zero] at hid, rfl, frameSound_of_gseNum rfl⟩

lemma Holds.before (h : t.Holds) (hn : ∀ n, a = .pdu n → n.WellAddressed) {s : Sender}
    {readOk : Sender.ReadOk} (hb : (t.sender i).before (conf i) a = some (s, readOk)) :
    s.Labelled (t.log i) ∧ s.packed = (t.sender i).packed ∧
      (readOk ≠ .failedFetchModcod → s.usingPdu.WellAddressed) := by
  have hi := h i
  obtain ⟨node, rfl, rfl, rfl⟩ | ⟨id, kind, size, rfl, rfl, hused, rfl⟩ | ⟨rfl, rfl, rfl⟩ :=
    Sender.before_cases hb
  · exact ⟨⟨hi.group, hi.nodes, hi.logged, hi.sound.congr rfl rfl rfl⟩, rfl, fun _ => hn node rfl⟩
  · exact ⟨⟨hi.group, hi.nodes.advance id, hi.logged, hi.sound.congr rfl rfl rfl⟩, rfl,
      fun _ => ⟨(hi.nodes id hused).length, (hi.nodes id hused).kind⟩⟩
  · exact ⟨hi, rfl, fun hok => absurd rfl hok⟩

lemma Holds.act_self (h : t.Holds) (hadm : t.Admits env conf (i, a)) :
    ((t.sender i).act env (conf i) a).Labelled
        (t.log i ++ handedOver (t.sender i) ((t.sender i).act env (conf i) a)) ∧
      ∀ s readOk, (t.sender i).before (conf i) a = some (s, readOk) →
        ∀ c ∈ s.closing env (conf i) readOk,
          FrameSound (t.log i ++ handedOver (t.sender i) ((t.sender i).act env (conf i) a)) c := by
  have hi := h i
  cases hb : (t.sender i).before (conf i) a with
  | none =>
    have hact : (t.sender i).act env (conf i) a = ((t.sender i).getFragPkt (conf i)).2 :=
      Sender.act_of_none hb
    have hover : handedOver (t.sender i) ((t.sender i).getFragPkt (conf i)).2 = [] := by
      simp [handedOver, Sender.getFragPkt]
    rw [hact, hover, List.append_nil]
    refine ⟨⟨hi.group, hi.nodes.fetch (conf i) _, hi.logged, hi.sound.congr rfl rfl rfl⟩, ?_⟩
    intro s readOk hs
    cases hs
  | some r =>
    obtain ⟨s, readOk⟩ := r
    obtain ⟨hs, hp, hn⟩ := h.before hadm.node hb
    have hact : (t.sender i).act env (conf i) a = s.encapsulateIslBb env (conf i) readOk :=
      Sender.act_of_some hb
    rw [hact]
    suffices hmain : (s.encapsulateIslBb env (conf i) readOk).Labelled
          (t.log i ++ handedOver (t.sender i) (s.encapsulateIslBb env (conf i) readOk)) ∧
        ∀ c ∈ s.closing env (conf i) readOk, FrameSound
          (t.log i ++ handedOver (t.sender i) (s.encapsulateIslBb env (conf i) readOk)) c by
      refine ⟨hmain.1, fun s' readOk' hs' => ?_⟩
      obtain ⟨rfl, rfl⟩ := Prod.mk.inj (Option.some.inj hs')
      exact hmain.2
    by_cases hok : readOk = .failedFetchModcod
    · subst hok
      obtain ⟨hpk, hlab, hsound⟩ := hs.forceSend_sound env (conf i)
      have hforce : s.encapsulateIslBb env (conf i) .failedFetchModcod = s.forceSend env (conf i) := by
        simp only [Sender.encapsulateIslBb, if_true]
      have hover : handedOver (t.sender i) (s.forceSend env (conf i)) = [] := by
        simp only [handedOver, hpk, hp, List.drop_length, List.map_nil]
      rw [hforce, hover, List.append_nil]
      exact ⟨hlab, hsound⟩
    · obtain ⟨g, hpk, hlab, hsound⟩ := hs.call (hn hok) hok (hadm.safe s readOk hb hok)
      have hover : handedOver (t.sender i) (s.encapsulateIslBb env (conf i) readOk) =
          [⟨g, (s.encapsulateIslBb env (conf i) readOk).usingPdu⟩] := by
        rw [handedOver, hpk, hp, List.drop_left]
        rfl
      rw [hover]
      exact ⟨hlab, hsound⟩

lemma Holds.act (h : t.Holds) (hadm : t.Admits env conf (i, a)) : (t.act env conf i a).Holds := by
  intro j
  by_cases hj : j = i
  · subst hj
    have hself := (h.act_self hadm).1
    have hsender : (t.act env conf j a).sender j = (t.sender j).act env (conf j) a := by
      simp [Thread.act, sender]
    have hlog : (t.act env conf j a).log j =
        t.log j ++ handedOver (t.sender j) ((t.sender j).act env (conf j) a) := by
      simp [Thread.act]
    rw [hsender, hlog]
    exact hself
  · have hother := h j
    have hlog : (t.act env conf i a).log j = t.log j := by simp [Thread.act, hj]
    have hsenders : (t.act env conf i a).senders j = t.senders j := by simp [Thread.act, hj]
    rw [hlog]
    have hkeep : (t.act env conf i a).sender j =
        { t.sender j with
          lastLabel := (t.act env conf i a).lastLabel
          output := (t.act env conf i a).output } := by
      rw [sender, hsenders]
      rfl
    rw [hkeep]
    exact ⟨hother.group, hother.nodes, hother.logged, hother.sound.congr rfl rfl rfl⟩

lemma Reachable.holds (h : Reachable env conf t) : t.Holds := by
  refine Reached.invariant Holds holds_initial ?_ h
  intro t x t' _ ht hadm hstep
  obtain ⟨rfl, -⟩ := Prod.mk.inj (Option.some.inj hstep)
  exact ht.act hadm

end Thread

/-- In a run whose acts are all admitted, the labels of every frame that is closed resolve to the
addresses of the PDUs, and the first packet reuses none. -/
theorem labels_resolve (env : SendEnv) (conf : ℕ → AppConf) {t : Thread}
    (h : Thread.Reachable env conf t) {i : ℕ} {a : Sender.Act} (hadm : t.Admits env conf (i, a))
    {s : Sender} {readOk : Sender.ReadOk}
    (hb : (t.sender i).before (conf i) a = some (s, readOk)) :
    ∀ c ∈ s.closing env (conf i) readOk,
      FrameSound ((t.act env conf i a).log i) c ∧
        ∀ p, (frameOf ((t.act env conf i a).log i) c).head? = some p → p.group.labelType ≠ .reuse := by
  intro c hc
  have hlog : (t.act env conf i a).log i =
      t.log i ++ Thread.handedOver (t.sender i) ((t.sender i).act env (conf i) a) := by
    simp [Thread.act]
  have hsound : FrameSound ((t.act env conf i a).log i) c := by
    rw [hlog]
    exact (h.holds.act_self hadm).2 s readOk hb c hc
  refine ⟨hsound, fun p hp hreuse => ?_⟩
  have hres := hsound.resolves
  obtain ⟨ps, hps⟩ := List.head?_eq_some_iff.mp hp
  rw [hps, Resolves, PduGroup.label, hreuse] at hres
  cases hres.1

def macPdu (mac : UInt8) : EnPduNode :=
  { EnPduNode.zero with
    pduSize := 100
    pduTotalLength := 100
    modcod := 1
    macLength := 6
    macAddress := List.replicate 6 mac }

lemma macPdu_wellAddressed {mac : UInt8} (h : mac ≠ 0xFF) : (macPdu mac).WellAddressed := by
  refine ⟨rfl, .inr ⟨?_, .inr rfl⟩⟩
  simp [getBroadcastType, macPdu, boardcastAddress, h]

abbrev samplePdu (t : Thread) (i : ℕ) (mac : UInt8) : Thread :=
  t.act sampleEnv (fun _ => sampleConf) i (.pdu (macPdu mac))

/-- Two PDUs of a mapping for one MAC, then `FAILED_FETCH_MODCOD`. -/
theorem labels_resolve_reused :
    (((samplePdu (samplePdu .initial 0 7) 0 7).log 0).map fun p => p.group.labelType) =
        [.sixBytes, .reuse] ∧
      ∀ c ∈ ((samplePdu (samplePdu .initial 0 7) 0 7).sender 0).closing sampleEnv sampleConf
        .failedFetchModcod, Resolves none (frameOf
          (((samplePdu (samplePdu .initial 0 7) 0 7).act sampleEnv (fun _ => sampleConf) 0 .idle).log 0)
          c) := by
  have hnode : ∀ n, Sender.Act.pdu (macPdu 7) = .pdu n → n.WellAddressed := by
    rintro n ⟨⟩
    exact macPdu_wellAddressed (by decide)
  have h1 : Thread.Reachable sampleEnv (fun _ => sampleConf) (samplePdu .initial 0 7) := by
    refine .next .start (i := (0, .pdu (macPdu 7))) ⟨hnode, fun s readOk hs _ => ?_⟩ rfl
    obtain ⟨rfl, rfl⟩ := Prod.mk.inj (Option.some.inj hs)
    exact ⟨by decide, fun h => absurd rfl h, fun h => absurd rfl h, fun hf => absurd (by decide) hf.2.1⟩
  have h2 : Thread.Reachable sampleEnv (fun _ => sampleConf)
      (samplePdu (samplePdu .initial 0 7) 0 7) := by
    refine .next h1 (i := (0, .pdu (macPdu 7))) ⟨hnode, fun s readOk hs _ => ?_⟩ rfl
    obtain ⟨rfl, rfl⟩ := Prod.mk.inj (Option.some.inj hs)
    exact ⟨by decide, fun _ _ => by decide, fun _ _ => .inl (by decide),
      fun hf => absurd (by decide) hf.2.1⟩
  refine ⟨by decide, fun c hc => ?_⟩
  refine ((labels_resolve sampleEnv (fun _ => sampleConf) h2 (i := 0) (a := .idle)
    ⟨fun n hn => (by cases hn), fun s readOk hs hok => ?_⟩ rfl c hc).1).resolves
  obtain ⟨-, rfl⟩ := Prod.mk.inj (Option.some.inj hs)
  exact absurd rfl hok

/-- A PDU on mapping 0, one for another MAC on mapping 1, and one for that MAC on mapping 0. -/
def crossed : Thread := samplePdu (samplePdu (samplePdu .initial 0 7) 1 9) 0 9

/-- The third PDU reuses a label that is not in its frame. -/
theorem reused_label_of_other_mapping :
    ¬ ∀ t, Reached (Thread.step sampleEnv fun _ => sampleConf)
        (fun _ x => ∀ n, x.2 = .pdu n → n.WellAddressed) .initial t →
      ∀ i a s readOk, (∀ n, a = .pdu n → n.WellAddressed) →
        (t.sender i).before sampleConf a = some (s, readOk) →
        ∀ c ∈ s.closing sampleEnv sampleConf readOk,
          Resolves none (frameOf ((t.act sampleEnv (fun _ => sampleConf) i a).log i) c) := by
  intro hall
  have hnode : ∀ mac : UInt8, mac ≠ 0xFF → ∀ n, Sender.Act.pdu (macPdu mac) = .pdu n →
      n.WellAddressed := by
    rintro mac hmac n ⟨⟩
    exact macPdu_wellAddressed hmac
  have hreach : Reached (Thread.step sampleEnv fun _ => sampleConf)
      (fun _ x => ∀ n, x.2 = .pdu n → n.WellAddressed) .initial crossed :=
    .next (.next (.next .start (i := (0, .pdu (macPdu 7))) (hnode 7 (by decide)) rfl)
      (i := (1, .pdu (macPdu 9))) (hnode 9 (by decide)) rfl)
      (i := (0, .pdu (macPdu 9))) (hnode 9 (by decide)) rfl
  have hres := hall crossed hreach 0 .idle (crossed.sender 0) .failedFetchModcod
    (fun n hn => by cases hn) rfl (crossed.sender 0).updateGseGroup (by
      have hn : 0 < (crossed.sender 0).gseGroup.gseNum := by decide
      simp [Sender.closing, hn])
  revert hres
  decide

end Fengtai.Send
