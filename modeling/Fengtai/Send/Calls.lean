import Fengtai.Library.Runs
import Fengtai.Send.Accounting

set_option autoImplicit false

/-! What a call of `encapsulate_isl_bb` can do, said once and for any PDU and any order of calls,
and the groups it hands to `encapsulate_gse`. -/

namespace Fengtai.Send

open Library.Words Library.Runs Receive

@[simp] lemma addToPduGroup_pduNum (n : EnPduNode) (g : PduGroup) (l : LabelType) (size : ℕ) :
    (addToPduGroup n g l size).pduNum = u16 (g.pduNum + 1) := by
  simp only [addToPduGroup]
  split_ifs <;> rfl

@[simp] lemma updatePduGroup_pduNum (n : EnPduNode) (g : PduGroup) (l : LabelType) (size : ℕ)
    (c : SequenceCounters) : (updatePduGroup n g l size c).1.pduNum = u16 (g.pduNum + 1) := by
  simp only [updatePduGroup]
  split_ifs <;> simp

lemma fetchPduFragment_cases (conf : AppConf) (node : EnPduNode) (s : Fragments) :
    (∃ r < 0, fetchPduFragment conf node s = ⟨s, node, r⟩) ∨
    ∃ id kind size, (s.fragmentBuffer id).used = true ∧
      (s.fragmentBuffer id).fragmentInfo.nextFragment = some (kind, size) ∧
      fetchPduFragment conf node s =
        ⟨s.advance id, (s.fragmentBuffer id).fragmentNode id kind size node, id⟩ := by
  by_cases hinv : conf.invalidIdValue (getFragmentID s.fragmentIDQueue) = true
  · exact .inl ⟨errorFragmentIDInvalid, by decide, by simp [fetchPduFragment, hinv]⟩
  have hpos : 0 ≤ getFragmentID s.fragmentIDQueue := by
    by_contra hneg
    exact hinv (conf.invalid_of_neg _ (not_le.mp hneg))
  obtain ⟨id, hid⟩ := Int.eq_ofNat_of_zero_le hpos
  rw [hid] at hinv
  cases hused : (s.fragmentBuffer id).used with
  | false =>
    exact .inl ⟨errorFragmentIDUsed, by decide, by simp [fetchPduFragment, hid, hinv, hused]⟩
  | true =>
    cases hnext : (s.fragmentBuffer id).fragmentInfo.nextFragment with
    | none =>
      exact .inl ⟨errorFragmentSize, by decide, by simp [fetchPduFragment, hid, hinv, hused, hnext]⟩
    | some r =>
      obtain ⟨kind, size⟩ := r
      exact .inr ⟨id, kind, size, hused, hnext, by
        simp [fetchPduFragment, hid, hinv, hused, hnext]⟩

/-- Every buffer in use holds a PDU of which `P` is true. -/
def Fragments.Each (P : EnPduNode → Prop) (s : Fragments) : Prop :=
  ∀ id, (s.fragmentBuffer id).used = true → P (s.fragmentBuffer id).pduNode

lemma Fragments.Each.advance {P : EnPduNode → Prop} {s : Fragments} (h : s.Each P) (id : ℕ) :
    (s.advance id).Each P := by
  intro i hi
  by_cases hne : i = id
  · subst hne
    have hused : (s.fragmentBuffer i).used = true ∧
        ((s.advance i).fragmentBuffer i).pduNode = (s.fragmentBuffer i).pduNode := by
      revert hi
      simp only [Fragments.advance]
      split_ifs <;> simp
    rw [hused.2]
    exact h i hused.1
  · have hkeep : (s.advance id).fragmentBuffer i = s.fragmentBuffer i := by
      simp only [Fragments.advance]
      split_ifs <;> simp [hne]
    rw [hkeep] at hi ⊢
    exact h i hi

lemma Fragments.Each.fetch {P : EnPduNode → Prop} {s : Fragments} (h : s.Each P) (conf : AppConf)
    (node : EnPduNode) : (fetchPduFragment conf node s).fragments.Each P := by
  obtain ⟨r, -, hf⟩ | ⟨id, kind, size, -, -, hf⟩ := fetchPduFragment_cases conf node s <;> rw [hf]
  · exact h
  · exact h.advance id

lemma Fragments.Each.fetch_node {P : EnPduNode → Prop} {s : Fragments} (h : s.Each P)
    (conf : AppConf) {node : EnPduNode} (hnode : P node)
    (hkeep : ∀ id kind size, P (s.fragmentBuffer id).pduNode →
      P ((s.fragmentBuffer id).fragmentNode id kind size node)) :
    P (fetchPduFragment conf node s).node := by
  obtain ⟨r, -, hf⟩ | ⟨id, kind, size, hused, -, hf⟩ := fetchPduFragment_cases conf node s <;> rw [hf]
  · exact hnode
  · exact hkeep id kind size (h id hused)

lemma Fragments.Each.doFragment {P : EnPduNode → Prop} {s : Fragments} (h : s.Each P)
    (bNewFrame : Bool) (maxPayload usable : ℕ) (node : EnPduNode)
    (hnode : P { node with pduSize := u16 (node.pduSize + 4) }) :
    (doFragment bNewFrame maxPayload usable node s).1.Each P := by
  simp only [Send.doFragment, runFragment]
  cases allocateFragmentID s.lastFragmentID s.fragmentBuffer with
  | none => exact h
  | some id =>
    simp only
    split_ifs
    · exact h
    · intro i hi
      by_cases hne : i = id
      · subst hne
        simpa [Fragments.adopt] using hnode
      · simp only [Fragments.adopt, Function.update_of_ne hne] at hi ⊢
        exact h i hi

namespace Sender

/-- `using_pdu` in its group, with the frame open: where `encapsulate_isl_bb` decides. -/
def entered (s : Sender) : Sender :=
  s.openFrame.updatePduGroup (s.openFrame.decideLabel (s.framePayload.maxPayload == 0))

/-- Case 1.1: the packet fits. -/
def Fits (s : Sender) : Prop :=
  s.pduGroup.gseTotalLength ≤ s.framePayload.usablePayload

instance (s : Sender) : Decidable s.Fits := inferInstanceAs (Decidable (_ ≤ _))

def Short (conf : AppConf) (s : Sender) : Prop :=
  s.framePayload.usablePayload < conf.paddingThreshold

instance (conf : AppConf) (s : Sender) : Decidable (s.Short conf) :=
  inferInstanceAs (Decidable (_ < _))

/-- `fragment_process` up to the packing: the first fragment is in the group. -/
def splitOff (conf : AppConf) (label : LabelType × ℕ) (nullFrame : Bool) (s : Sender) : Sender :=
  updatePduGroup label { s.split conf nullFrame with pduGroup := .zero }

lemma fragmentProcess_eq (env : SendEnv) (conf : AppConf) (label : LabelType × ℕ) (nullFrame : Bool)
    (s : Sender) : s.fragmentProcess env conf label nullFrame =
      ((s.splitOff conf label nullFrame).updateGseGroup).makeFrame env conf := rfl

/-- Case 1.2.1 up to its decision: the frame is sent and `using_pdu` is in its group again. -/
def reopened (env : SendEnv) (conf : AppConf) (s : Sender) : Sender :=
  let s := s.makeFrame env conf
  let s := { s with framePayload := initFramePayload s.pduGroup.modcod }
  s.updateLastLabel.updatePduGroup (s.decideLabel true)

def firstLabel (s : Sender) : LabelType × ℕ := s.decideLabel true

lemma startNewFrame_eq (env : SendEnv) (conf : AppConf) (s : Sender) :
    s.startNewFrame env conf =
      if (s.reopened env conf).Fits then (s.reopened env conf).updateGseGroup
      else (s.reopened env conf).fragmentProcess env conf (s.makeFrame env conf).firstLabel true := rfl

/-- The label `encapsulate_isl_bb` decides on. -/
def label (s : Sender) : LabelType × ℕ := s.openFrame.decideLabel (s.framePayload.maxPayload == 0)

/-- Case 1.2.2 up to the packing. -/
def firstFragment (conf : AppConf) (s : Sender) : Sender :=
  s.entered.updateLastLabel.splitOff conf s.label (s.framePayload.maxPayload == 0)

lemma encapsulateIslBb_cases (env : SendEnv) (conf : AppConf) {readOk : ReadOk}
    (hok : readOk ≠ .failedFetchModcod) (s : Sender) :
    (s.entered.Fits ∧ s.encapsulateIslBb env conf readOk =
      (s.entered.updateLastLabel.updateGseGroup).closeFull env conf) ∨
    (¬ s.entered.Fits ∧ s.entered.Short conf ∧
      s.encapsulateIslBb env conf readOk = s.entered.startNewFrame env conf) ∨
    (¬ s.entered.Fits ∧ ¬ s.entered.Short conf ∧ s.encapsulateIslBb env conf readOk =
      ((s.firstFragment conf).updateGseGroup).makeFrame env conf) := by
  have hcall : s.encapsulateIslBb env conf readOk =
      s.entered.placeGroup env conf s.label (s.framePayload.maxPayload == 0) := by
    simp only [encapsulateIslBb, if_neg hok]
    rfl
  rw [hcall]
  by_cases hfit : s.entered.Fits
  · refine .inl ⟨hfit, ?_⟩
    rw [placeGroup, if_pos (show _ ≤ _ from hfit)]
    rfl
  · by_cases hshort : s.entered.Short conf
    · refine .inr (.inl ⟨hfit, hshort, ?_⟩)
      rw [placeGroup, if_neg (show ¬ _ ≤ _ from hfit), if_pos (show _ < _ from hshort)]
    · refine .inr (.inr ⟨hfit, hshort, ?_⟩)
      rw [placeGroup, if_neg (show ¬ _ ≤ _ from hfit), if_neg (show ¬ _ < _ from hshort),
        fragmentProcess_eq]
      rfl

/-- The groups the call hands to `encapsulate_gse`, in order. -/
def handed (env : SendEnv) (conf : AppConf) (readOk : ReadOk) (s : Sender) : List PduGroup :=
  if readOk = .failedFetchModcod then if 0 < s.gseGroup.gseNum then [s.pduGroup] else []
  else if s.entered.Fits then [s.entered.pduGroup]
  else if s.entered.Short conf then
    let t := s.entered.reopened env conf
    if t.Fits then [t.pduGroup]
    else [(t.splitOff conf (s.entered.makeFrame env conf).firstLabel true).pduGroup]
  else [(s.firstFragment conf).pduGroup]

lemma packed_encapsulateIslBb (env : SendEnv) (conf : AppConf) (readOk : ReadOk) (s : Sender) :
    (s.encapsulateIslBb env conf readOk).packed =
      s.packed ++ (s.handed env conf readOk).filter fun g => g.pduNum ≠ 0 := by
  have hpack : ∀ t : Sender, t.updateGseGroup.packed =
      t.packed ++ [t.pduGroup].filter fun g => g.pduNum ≠ 0 := by
    intro t
    by_cases hn : t.pduGroup.pduNum = 0 <;> simp [updateGseGroup, hn]
  have hclose : ∀ t : Sender, (t.closeFull env conf).packed = t.packed := by
    intro t
    simp only [closeFull]
    split_ifs <;> rfl
  by_cases hok : readOk = .failedFetchModcod
  · simp only [encapsulateIslBb, hok, if_true, Sender.forceSend, handed]
    split_ifs with hn
    · exact hpack s
    · simp
  · obtain ⟨hf, he⟩ | ⟨hf, hs, he⟩ | ⟨hf, hs, he⟩ := encapsulateIslBb_cases env conf hok s
    · rw [he, hclose, hpack]
      simp only [handed, if_neg hok, if_pos hf]
      rfl
    · rw [he]
      simp only [handed, if_neg hok, if_neg hf, if_pos hs]
      rw [startNewFrame_eq]
      split_ifs
      · exact hpack (s.entered.reopened env conf)
      · exact hpack ((s.entered.reopened env conf).splitOff conf
          (s.entered.makeFrame env conf).firstLabel true)
    · rw [he]
      simp only [handed, if_neg hok, if_neg hf, if_neg hs]
      exact hpack (s.firstFragment conf)

/-- The call goes into `fragment_process`, in case 1.2.2 or out of case 1.2.1. -/
def EntersFragmentProcess (env : SendEnv) (conf : AppConf) (readOk : ReadOk) (s : Sender) : Prop :=
  readOk ≠ .failedFetchModcod ∧ ¬ s.entered.Fits ∧
    (s.entered.Short conf → ¬ (s.entered.reopened env conf).Fits)

/-- The senders `make_frame` is called with, in order. -/
def closing (env : SendEnv) (conf : AppConf) (readOk : ReadOk) (s : Sender) : List Sender :=
  if readOk = .failedFetchModcod then if 0 < s.gseGroup.gseNum then [s.updateGseGroup] else []
  else if s.entered.Fits then
    let t := s.entered.updateLastLabel.updateGseGroup
    if t.Short conf then [t] else []
  else if s.entered.Short conf then
    let t := s.entered.reopened env conf
    s.entered :: if t.Fits then [] else
      [(t.splitOff conf (s.entered.makeFrame env conf).firstLabel true).updateGseGroup]
  else [(s.firstFragment conf).updateGseGroup]

lemma output_encapsulateIslBb (env : SendEnv) (conf : AppConf) (readOk : ReadOk) (s : Sender) :
    (s.encapsulateIslBb env conf readOk).output =
      (s.closing env conf readOk).foldl (fun o t => (encapsulateFrame env conf t.gseGroup
        t.framePayload.maxPayload t.framePayload.usedPayload o).2) s.output := by
  by_cases hok : readOk = .failedFetchModcod
  · simp only [encapsulateIslBb, closing, hok, if_true, Sender.forceSend]
    split_ifs <;> rfl
  · obtain ⟨hf, he⟩ | ⟨hf, hs, he⟩ | ⟨hf, hs, he⟩ := encapsulateIslBb_cases env conf hok s
    · rw [he]
      simp only [closing, if_neg hok, if_pos hf]
      by_cases hshort : (s.entered.updateLastLabel.updateGseGroup).Short conf
      · rw [if_pos hshort, closeFull, if_pos (show _ < _ from hshort)]
        rfl
      · rw [if_neg hshort, closeFull, if_neg (show ¬ _ < _ from hshort)]
        rfl
    · rw [he]
      simp only [closing, if_neg hok, if_neg hf, if_pos hs]
      rw [startNewFrame_eq]
      split_ifs <;> rfl
    · rw [he]
      simp only [closing, if_neg hok, if_neg hf, if_neg hs]
      rfl

/-- What the thread can do for the mapping: encapsulate a PDU, or the next pending fragment, or
call with `FAILED_FETCH_MODCOD`. -/
inductive Act
  | pdu (node : EnPduNode)
  | fragment
  | idle

/-- `using_pdu` and `read_ok` with which the call is made; without a pending fragment there is none. -/
def before (conf : AppConf) (s : Sender) : Act → Option (Sender × ReadOk)
  | .pdu node => some ({ s with usingPdu := node }, .succeedFetchModcod)
  | .fragment =>
    if (s.getFragPkt conf).1 then some ((s.getFragPkt conf).2, .succeedFetchFragment) else none
  | .idle => some (s, .failedFetchModcod)

def act (env : SendEnv) (conf : AppConf) (s : Sender) (a : Act) : Sender :=
  match s.before conf a with
  | some (t, readOk) => t.encapsulateIslBb env conf readOk
  | none => (s.getFragPkt conf).2

lemma act_getWholePkt (env : SendEnv) (conf : AppConf) (s : Sender) (m : RteMbuf) :
    s.act env conf (.pdu (readEnapsulateBuffer conf m)) =
      (s.getWholePkt conf m).encapsulateIslBb env conf .succeedFetchModcod := rfl

def actStep (env : SendEnv) (conf : AppConf) (s : Sender) (a : Act) : Option (Sender × Unit) :=
  some (s.act env conf a, ())

abbrev Reachable (env : SendEnv) (conf : AppConf) (ok : EnPduNode → Prop) : Sender → Prop :=
  Reached (actStep env conf) (fun _ a => ∀ node, a = .pdu node → ok node) .initial

structure Roomy (conf : AppConf) (s : Sender) : Prop where
  group : s.pduGroup = .zero
  modcods : s.fragments.Each fun node => node.modcod = conf.modcode
  room : s.framePayload.maxPayload = 0 ∨ conf.paddingThreshold ≤ s.framePayload.usablePayload

variable {env : SendEnv} {conf : AppConf} {s t : Sender} {readOk : ReadOk}

lemma act_of_some {a : Act} (hb : s.before conf a = some (t, readOk)) :
    s.act env conf a = t.encapsulateIslBb env conf readOk := by
  rw [act, hb]

lemma act_of_none {a : Act} (hb : s.before conf a = none) :
    s.act env conf a = (s.getFragPkt conf).2 := by
  rw [act, hb]

lemma roomy_initial : Roomy conf .initial where
  group := rfl
  modcods id hid := by simp [Sender.initial, Fragments.initial, FragmentBuffer.zero] at hid
  room := .inl rfl

@[simp] lemma entered_fragments (s : Sender) : s.entered.fragments = s.fragments := rfl

@[simp] lemma entered_usingPdu (s : Sender) : s.entered.usingPdu = s.usingPdu := rfl

lemma entered_pduNum (h : s.pduGroup = .zero) : s.entered.pduGroup.pduNum = 1 := by
  have hz : s.openFrame.pduGroup = .zero := h
  simp only [entered, updatePduGroup, updatePduGroup_pduNum, hz]
  rfl

lemma splitOff_pduNum (conf : AppConf) (label : LabelType × ℕ) (nullFrame : Bool) (s : Sender) :
    (s.splitOff conf label nullFrame).pduGroup.pduNum = 1 := by
  simp only [splitOff, updatePduGroup, updatePduGroup_pduNum]
  rfl

lemma reopened_pduNum (env : SendEnv) (conf : AppConf) {s : Sender} (h : s.pduGroup.pduNum = 1) :
    (s.reopened env conf).pduGroup.pduNum = 2 := by
  change (Send.updatePduGroup _ s.pduGroup _ _ _).1.pduNum = 2
  rw [updatePduGroup_pduNum, h]
  rfl

lemma updateGseGroup_group (s : Sender) (h : s.pduGroup.pduNum = 0 → s.pduGroup = .zero) :
    s.updateGseGroup.pduGroup = .zero := by
  by_cases hn : s.pduGroup.pduNum = 0
  · simpa [updateGseGroup, hn] using h hn
  · simp [updateGseGroup, hn]

lemma packed_forceSend (env : SendEnv) (conf : AppConf) (h : s.pduGroup = .zero) :
    (s.forceSend env conf).packed = s.packed := by
  have hzero : s.pduGroup.pduNum = 0 := by
    rw [h]
    rfl
  simp only [Sender.forceSend]
  split_ifs
  · simp [makeFrame, updateGseGroup, hzero]
  · rfl

/-- A call that packs `using_pdu`: the sender after it, the group it hands over and the senders
`make_frame` is called with. -/
inductive Packing (env : SendEnv) (conf : AppConf) (s : Sender) :
    Sender → PduGroup → List Sender → Prop
  | fits (hf : s.entered.Fits) :
    Packing env conf s (s.entered.updateLastLabel.updateGseGroup.closeFull env conf)
      s.entered.pduGroup
      (if s.entered.updateLastLabel.updateGseGroup.Short conf then
        [s.entered.updateLastLabel.updateGseGroup] else [])
  | reopens (hf : ¬ s.entered.Fits) (hs : s.entered.Short conf)
      (hfit : (s.entered.reopened env conf).Fits) :
    Packing env conf s (s.entered.reopened env conf).updateGseGroup
      (s.entered.reopened env conf).pduGroup [s.entered]
  | reopensAndSplits (hf : ¬ s.entered.Fits) (hs : s.entered.Short conf)
      (hfit : ¬ (s.entered.reopened env conf).Fits) {t : Sender}
      (ht : t = (s.entered.reopened env conf).splitOff conf
        (s.entered.makeFrame env conf).firstLabel true) :
    Packing env conf s (t.updateGseGroup.makeFrame env conf) t.pduGroup [s.entered, t.updateGseGroup]
  | splits (hf : ¬ s.entered.Fits) (hs : ¬ s.entered.Short conf) :
    Packing env conf s ((s.firstFragment conf).updateGseGroup.makeFrame env conf)
      (s.firstFragment conf).pduGroup [(s.firstFragment conf).updateGseGroup]

lemma encapsulateIslBb_packing (env : SendEnv) (conf : AppConf) (hok : readOk ≠ .failedFetchModcod)
    (hz : s.pduGroup = .zero) :
    ∃ g, Packing env conf s (s.encapsulateIslBb env conf readOk) g (s.closing env conf readOk) ∧
      (s.encapsulateIslBb env conf readOk).packed = s.packed ++ [g] := by
  have hpacked := packed_encapsulateIslBb env conf readOk s
  have h1 := entered_pduNum hz
  have h2 := reopened_pduNum env conf h1
  obtain ⟨hf, he⟩ | ⟨hf, hs, he⟩ | ⟨hf, hs, he⟩ := encapsulateIslBb_cases env conf hok s
  · simp only [handed, closing, if_neg hok, if_pos hf] at hpacked ⊢
    refine ⟨s.entered.pduGroup, ?_, by simpa [h1] using hpacked⟩
    rw [he]
    exact .fits hf
  · rw [startNewFrame_eq] at he
    by_cases hfit : (s.entered.reopened env conf).Fits
    · simp only [handed, closing, if_neg hok, if_neg hf, if_pos hs, if_pos hfit] at hpacked he ⊢
      refine ⟨(s.entered.reopened env conf).pduGroup, ?_, by simpa [h2] using hpacked⟩
      rw [he]
      exact .reopens hf hs hfit
    · have h3 := splitOff_pduNum conf (s.entered.makeFrame env conf).firstLabel true
        (s.entered.reopened env conf)
      simp only [handed, closing, if_neg hok, if_neg hf, if_pos hs, if_neg hfit] at hpacked he ⊢
      refine ⟨_, ?_, by simpa [h3] using hpacked⟩
      rw [he, fragmentProcess_eq]
      exact .reopensAndSplits hf hs hfit rfl
  · have h3 : (s.firstFragment conf).pduGroup.pduNum = 1 := splitOff_pduNum _ _ _ _
    simp only [handed, closing, if_neg hok, if_neg hf, if_neg hs] at hpacked ⊢
    refine ⟨(s.firstFragment conf).pduGroup, ?_, by simpa [h3] using hpacked⟩
    rw [he]
    exact .splits hf hs

lemma Roomy.not_short (h : Roomy conf s) (hthr : conf.paddingThreshold ≤ conf.payload)
    (hm : s.usingPdu.modcod = conf.modcode) : ¬ s.entered.Short conf := by
  have hpayload : s.entered.framePayload = s.openFrame.framePayload := rfl
  rw [Short, hpayload, not_lt]
  rcases h.room with h0 | hroom
  · have hopen : s.openFrame.framePayload = initFramePayload conf.modcode := by
      simp [openFrame, h0, hm]
    rw [hopen]
    exact hthr
  · by_cases h0 : s.framePayload.maxPayload = 0
    · have hopen : s.openFrame.framePayload = initFramePayload conf.modcode := by
        simp [openFrame, h0, hm]
      rw [hopen]
      exact hthr
    · have hopen : s.openFrame.framePayload = s.framePayload := by simp [openFrame, h0]
      rw [hopen]
      exact hroom

lemma Roomy.call (h : Roomy conf s) (hok : readOk ≠ .failedFetchModcod)
    (hm : s.usingPdu.modcod = conf.modcode) (hshort : ¬ s.entered.Short conf) :
    Roomy conf (s.encapsulateIslBb env conf readOk) := by
  obtain ⟨-, he⟩ | ⟨-, hs, -⟩ | ⟨-, -, he⟩ := encapsulateIslBb_cases env conf hok s
  · have hgroup : s.entered.updateLastLabel.updateGseGroup.pduGroup = .zero := by
      apply updateGseGroup_group
      intro h0
      have h1 : s.entered.updateLastLabel.pduGroup.pduNum = 1 := entered_pduNum h.group
      omega
    rw [he]
    simp only [closeFull]
    split_ifs with hfull
    · exact ⟨hgroup, h.modcods, .inl rfl⟩
    · exact ⟨hgroup, h.modcods, .inr (not_lt.mp hfull)⟩
  · exact absurd hs hshort
  · rw [he]
    refine ⟨?_, ?_, .inl rfl⟩
    · apply updateGseGroup_group
      intro h0
      have h1 : (s.firstFragment conf).pduGroup.pduNum = 1 := splitOff_pduNum _ _ _ _
      omega
    · exact (h.modcods.doFragment _ _ _ _ hm).fetch conf _

lemma Roomy.forceSend (h : Roomy conf s) : Roomy conf (s.forceSend env conf) := by
  simp only [Sender.forceSend]
  split_ifs
  · exact ⟨updateGseGroup_group s fun _ => h.group, h.modcods, .inl rfl⟩
  · exact h

lemma before_cases {a : Act} (hb : s.before conf a = some (t, readOk)) :
    (∃ node, a = .pdu node ∧ readOk = .succeedFetchModcod ∧ t = { s with usingPdu := node }) ∨
      (∃ id kind size, a = .fragment ∧ readOk = .succeedFetchFragment ∧
        (s.fragments.fragmentBuffer id).used = true ∧
        t = { s with
          fragments := s.fragments.advance id
          usingPdu := (s.fragments.fragmentBuffer id).fragmentNode id kind size .zero }) ∨
      a = .idle ∧ readOk = .failedFetchModcod ∧ t = s := by
  cases a with
  | pdu node =>
    obtain ⟨rfl, rfl⟩ := Prod.mk.inj (Option.some.inj hb)
    exact .inl ⟨node, rfl, rfl, rfl⟩
  | fragment =>
    obtain ⟨hret, hb⟩ := Option.ite_none_right_eq_some.mp (show ite _ _ _ = _ from hb)
    obtain ⟨rfl, rfl⟩ := Prod.mk.inj (Option.some.inj hb)
    simp only [Sender.getFragPkt, decide_eq_true_eq] at hret
    obtain ⟨r, hr, hf⟩ | ⟨id, kind, size, hused, -, hf⟩ :=
      fetchPduFragment_cases conf .zero s.fragments
    · rw [hf] at hret
      exact absurd hret (not_le.mpr hr)
    · refine .inr (.inl ⟨id, kind, size, rfl, rfl, hused, ?_⟩)
      simp only [Sender.getFragPkt, hf]
  | idle =>
    obtain ⟨rfl, rfl⟩ := Prod.mk.inj (Option.some.inj hb)
    exact .inr (.inr ⟨rfl, rfl, rfl⟩)

lemma Roomy.before (h : Roomy conf s) {a : Act}
    (ha : ∀ node, a = .pdu node → node.modcod = conf.modcode)
    (hb : s.before conf a = some (t, readOk)) :
    Roomy conf t ∧ (readOk ≠ .failedFetchModcod → t.usingPdu.modcod = conf.modcode) := by
  obtain ⟨node, rfl, rfl, rfl⟩ | ⟨id, kind, size, rfl, rfl, hused, rfl⟩ | ⟨rfl, rfl, rfl⟩ :=
    before_cases hb
  · exact ⟨⟨h.group, h.modcods, h.room⟩, fun _ => ha node rfl⟩
  · exact ⟨⟨h.group, h.modcods.advance id, h.room⟩, fun _ => h.modcods id hused⟩
  · exact ⟨h, fun hne => absurd rfl hne⟩

lemma Roomy.act (h : Roomy conf s) (hthr : conf.paddingThreshold ≤ conf.payload) {a : Act}
    (ha : ∀ node, a = .pdu node → node.modcod = conf.modcode) : Roomy conf (s.act env conf a) := by
  simp only [Sender.act]
  cases hb : s.before conf a with
  | none => exact ⟨h.group, h.modcods.fetch conf _, h.room⟩
  | some r =>
    obtain ⟨t, readOk⟩ := r
    obtain ⟨ht, hm⟩ := h.before ha hb
    by_cases hok : readOk = .failedFetchModcod
    · simpa [encapsulateIslBb, hok] using ht.forceSend
    · exact ht.call hok (hm hok) (ht.not_short hthr (hm hok))

lemma Reachable.roomy {ok : EnPduNode → Prop} (hthr : conf.paddingThreshold ≤ conf.payload)
    (hok : ∀ node, ok node → node.modcod = conf.modcode) (h : Reachable env conf ok s) :
    Roomy conf s := by
  refine Reached.invariant (Roomy conf) roomy_initial ?_ h
  intro s a s' _ hs ha hstep
  obtain ⟨rfl, -⟩ := Prod.mk.inj (Option.some.inj hstep)
  exact hs.act hthr fun node hn => hok node (ha node hn)

end Sender

end Fengtai.Send
