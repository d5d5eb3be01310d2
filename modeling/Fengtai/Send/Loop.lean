import Fengtai.Send.Calls
import Fengtai.Send.Lengths

set_option autoImplicit false

/-! The encapsulation loop step by step: which fragmentation is under way, and what the queue
of fragment IDs shows of it. -/

namespace Fengtai.Send

open Library.Words Library.Runs Receive

def CircularQueue.contents (q : CircularQueue) : List ℤ :=
  (List.range q.queueSize).map fun i => q.slots (q.slotIndex i)

lemma CircularQueue.Vacant.contents {q : CircularQueue} (h : q.Vacant) : q.contents = [] := by
  simp [CircularQueue.contents, h.empty]

lemma CircularQueue.HoldsOnly.contents {q : CircularQueue} {id : ℕ} (h : q.HoldsOnly id) :
    q.contents = [(id : ℤ)] := by
  simp [CircularQueue.contents, h.one, slotIndex, asUnsigned, h.head_eq, h.slot_eq]

structure Fragments.Tracked (s : Fragments) : Prop where
  used_iff : ∀ id < 256, (s.fragmentBuffer id).used = true ↔ (id : ℤ) ∈ s.fragmentIDQueue.contents
  ids : ∀ x ∈ s.fragmentIDQueue.contents, 0 ≤ x ∧ x < 256
  nodup : s.fragmentIDQueue.contents.Nodup
  length_le : s.fragmentIDQueue.contents.length ≤ 1

lemma Fragments.Drained.tracked {s : Fragments} (h : s.Drained) : s.Tracked := by
  have hq := h.queue.contents
  refine ⟨fun id hid => ?_, by simp [hq], by simp [hq], by simp [hq]⟩
  rw [h.unused id hid, hq]
  simp

lemma Fragments.Pending.tracked {s : Fragments} {id : ℕ} (h : s.Pending id) : s.Tracked := by
  have hq := h.queue.contents
  have hlt := h.id_lt
  refine ⟨fun i hi => ?_, ?_, by simp [hq], by simp [hq]⟩
  · rw [hq]
    by_cases hne : i = id
    · simp [hne, h.used]
    · simpa [h.unused i hi hne] using hne
  · rw [hq]
    intro x hx
    obtain rfl := List.mem_singleton.mp hx
    omega

namespace Sender

lemma entered_fits {s : Sender} (hz : s.pduGroup = .zero)
    (hmac : s.usingPdu.macAddress = boardcastAddress) (hd : s.usingPdu.dataField < 60000)
    (h : s.usingPdu.packetLength ≤ s.openFrame.framePayload.usablePayload) : s.entered.Fits := by
  have hlabel : s.openFrame.decideLabel (s.framePayload.maxPayload == 0) = (.broadcast, 0) :=
    decideLabel_broadcast hmac _
  have hgroup : s.openFrame.pduGroup = .zero := hz
  simp only [Fits, entered, hlabel, updatePduGroup_of_zero hgroup]
  rw [EnPduNode.group_total (by exact hd)]
  exact h

variable {env : SendEnv} {conf : AppConf} {s : Sender}

lemma Draining.fits {id : ℕ} (h : s.Draining conf id) (hc : conf.Configured) :
    (s.takeFragment id).entered.Fits := by
  obtain ⟨hd, hfits⟩ := h.fetched_fits hc
  apply entered_fits (s := s.takeFragment id) h.group h.mac hd
  obtain ⟨-, hroom⟩ := openFrame_payload (s := s.takeFragment id) hc h.modcod
    (h.payload.imp_right And.left)
  rw [hroom]
  exact hfits

end Sender

/-- Where the thread stands in the loop for a mapping: before `get_frag_pkt`, with the fragment
it has fetched, or with none, before a whole PDU or a force-send. -/
inductive Point
  | fetch
  | fragment
  | whole
  deriving DecidableEq

structure Loop where
  point : Point
  sender : Sender

namespace Loop

/-- The call of `encapsulate_isl_bb` that comes next, if one does. -/
def call (conf : AppConf) (l : Loop) (turn : Sender.Turn) : Option (Sender × Sender.ReadOk) :=
  match l.point, turn with
  | .fetch, _ => none
  | .fragment, _ => some (l.sender, .succeedFetchFragment)
  | .whole, .pdu m => some (l.sender.getWholePkt conf m, .succeedFetchModcod)
  | .whole, .idle => some (l.sender, .failedFetchModcod)

/-- One step of the loop; the turn matters only when it has come to a whole PDU. -/
def next (env : SendEnv) (conf : AppConf) (l : Loop) (turn : Sender.Turn) : Loop :=
  match l.call conf turn with
  | some (s, readOk) => ⟨.fetch, s.encapsulateIslBb env conf readOk⟩
  | none =>
    ⟨if (l.sender.getFragPkt conf).1 then .fragment else .whole, (l.sender.getFragPkt conf).2⟩

def step (env : SendEnv) (conf : AppConf) (l : Loop) (turn : Sender.Turn) : Option (Loop × Unit) :=
  some (l.next env conf turn, ())

def initial : Loop := ⟨.fetch, .initial⟩

abbrev Reachable (env : SendEnv) (conf : AppConf) : Loop → Prop :=
  Reached (step env conf)
    (fun _ turn => ∀ m, turn = .pdu m → 1 ≤ m.dataLen ∧ m.dataLen ≤ 8050) initial

def Holds (conf : AppConf) (l : Loop) : Prop :=
  match l.point with
  | .fetch => l.sender.Ready conf
  | .fragment => ∃ s : Sender, ∃ id, s.Draining conf id ∧ l.sender = s.takeFragment id
  | .whole => l.sender.Idle conf

variable {env : SendEnv} {conf : AppConf} {l : Loop}

@[simp] lemma holds_fetch (s : Sender) : Holds conf ⟨.fetch, s⟩ ↔ s.Ready conf := Iff.rfl

@[simp] lemma holds_whole (s : Sender) : Holds conf ⟨.whole, s⟩ ↔ s.Idle conf := Iff.rfl

lemma next_whole (env : SendEnv) (s : Sender) (turn : Sender.Turn) :
    next env conf ⟨.whole, s⟩ turn =
      ⟨.fetch, match turn with
        | .pdu m => (s.getWholePkt conf m).encapsulateIslBb env conf .succeedFetchModcod
        | .idle => s.encapsulateIslBb env conf .failedFetchModcod⟩ := by
  cases turn <;> rfl

lemma next_fragment (env : SendEnv) (s : Sender) (id : ℕ) (turn : Sender.Turn) :
    next env conf ⟨.fragment, s.takeFragment id⟩ turn = ⟨.fetch, s.drainStep env conf id⟩ := rfl

lemma holds_initial : Holds conf initial := Or.inl Sender.idle_initial

lemma Holds.next (h : Holds conf l) (hc : conf.Configured) {turn : Sender.Turn}
    (ht : ∀ m, turn = .pdu m → 1 ≤ m.dataLen ∧ m.dataLen ≤ 8050) :
    Holds conf (l.next env conf turn) := by
  obtain ⟨point, sender⟩ := l
  cases point with
  | fetch =>
    simp only [Loop.next, Loop.call, Holds] at h ⊢
    rcases h with h | ⟨id, h⟩
    · obtain ⟨hs, hret⟩ := fetchPduFragment_drained conf .zero h.drained
      have hfail : (sender.getFragPkt conf).1 = false := by
        simpa [Sender.getFragPkt] using hret
      simp only [hfail, Bool.false_eq_true, if_false]
      refine ⟨h.group, ?_, h.payload⟩
      simp only [Sender.getFragPkt, hs]
      exact h.drained
    · simp only [h.getFragPkt, if_true]
      exact ⟨sender, id, h, rfl⟩
  | fragment =>
    obtain ⟨s, id, hd, rfl⟩ := h
    obtain ⟨hlast, hmore⟩ := hd.step env hc
    rw [next_fragment, holds_fetch]
    have hlt := hd.pending.transfered
    by_cases hone : s.left id = 1
    · exact .inl (hlast hone)
    · exact .inr ⟨id, (hmore (by simp only [Sender.left] at hone ⊢; omega)).1⟩
  | whole =>
    rw [holds_whole] at h
    rw [next_whole, holds_fetch]
    cases turn with
    | pdu m =>
      obtain ⟨h1, h2⟩ := ht m rfl
      exact (h.pdu env hc h1 h2).1
    | idle =>
      have hforce := (h.forceSend env).1
      exact Or.inl (by simpa only [Sender.encapsulateIslBb, if_true] using hforce)

lemma Reachable.holds (hc : conf.Configured) (h : Reachable env conf l) : Holds conf l := by
  refine Reached.invariant (Holds conf) holds_initial ?_ h
  intro l turn l' _ hl ht hstep
  obtain ⟨rfl, -⟩ := Prod.mk.inj (Option.some.inj hstep)
  exact hl.next hc ht

lemma Holds.tracked (h : Holds conf l) : l.sender.fragments.Tracked := by
  obtain ⟨point, sender⟩ := l
  cases point with
  | fetch =>
    rcases h with h | ⟨id, h⟩
    · exact h.drained.tracked
    · exact h.pending.tracked
  | fragment =>
    obtain ⟨s, id, hd, rfl⟩ := h
    have hlt := hd.pending.transfered
    by_cases hlast : (s.fragments.fragmentBuffer id).fragmentInfo.transferedNum + 1 =
        (s.fragments.fragmentBuffer id).fragmentInfo.totalNum
    · exact (hd.pending.advance_last hlast).tracked
    · exact (hd.pending.advance_more (by omega)).1.tracked
  | whole => exact h.drained.tracked

end Loop

/-- At every point of the loop at most one fragmentation is under way; the queue and the table
of IDs agree on it, a fragment is not fragmented again, and `get_frag_pkt` finds one exactly
when the queue holds its ID. -/
theorem single_fragmentation (env : SendEnv) {conf : AppConf} (hc : conf.Configured) {l : Loop}
    (h : Loop.Reachable env conf l) :
    l.sender.fragments.Tracked ∧
      (l.point = .whole → l.sender.fragments.fragmentIDQueue.contents = []) ∧
      (∀ turn s readOk, l.call conf turn = some (s, readOk) →
        s.EntersFragmentProcess env conf readOk → s.usingPdu.fragmentFlag = false) ∧
      (l.point = .fetch → ((l.sender.getFragPkt conf).1 = true ↔
        l.sender.fragments.fragmentIDQueue.contents ≠ [])) := by
  have hl := h.holds hc
  refine ⟨hl.tracked, ?_, ?_, ?_⟩
  · intro hp
    obtain ⟨point, sender⟩ := l
    subst hp
    exact hl.drained.queue.contents
  · intro turn s readOk hcall hf
    obtain ⟨point, sender⟩ := l
    cases point with
    | fetch => simp [Loop.call] at hcall
    | fragment =>
      obtain ⟨s₀, id, hd, rfl⟩ := hl
      obtain ⟨rfl, -⟩ := Prod.mk.inj (Option.some.inj (show some _ = _ from hcall))
      exact absurd (hd.fits hc) hf.2.1
    | whole =>
      cases turn with
      | pdu m =>
        obtain ⟨rfl, -⟩ := Prod.mk.inj (Option.some.inj (show some _ = _ from hcall))
        rfl
      | idle =>
        obtain ⟨-, rfl⟩ := Prod.mk.inj (Option.some.inj (show some _ = _ from hcall))
        exact absurd rfl hf.1
  · intro hp
    obtain ⟨point, sender⟩ := l
    subst hp
    rcases hl with hi | ⟨id, hd⟩
    · obtain ⟨-, hret⟩ := fetchPduFragment_drained conf .zero hi.drained
      simp only [Sender.getFragPkt, hi.drained.queue.contents, decide_eq_true_eq]
      exact iff_of_false (not_le.mpr hret) (by simp)
    · rw [hd.getFragPkt, hd.pending.queue.contents]
      simp

/-- The queue has been found empty, and a PDU of 3000 bytes has been taken. -/
def Loop.longTaken : Loop :=
  [.idle, .pdu (zeroMbuf 3000)].foldl (Loop.next sampleEnv sampleConf) .initial

lemma Loop.longTaken_reachable : Loop.Reachable sampleEnv sampleConf .longTaken := by
  refine Reached.foldl .start fun n turn hn m hm => ?_
  have ht := List.mem_of_getElem? hn
  rw [hm] at ht
  simp only [List.mem_cons, reduceCtorEq, List.not_mem_nil, or_false, false_or,
    Sender.Turn.pdu.injEq] at ht
  rw [ht]
  decide

/-- The START of the PDU is on its way: its ID is in the queue, and its next fragment is fetched
and not cut again. -/
theorem single_fragmentation_under_way :
    Loop.longTaken.sender.fragments.Tracked ∧
      Loop.longTaken.sender.fragments.fragmentIDQueue.contents = [1] ∧
      (Loop.longTaken.sender.getFragPkt sampleConf).1 = true ∧
      (Loop.longTaken.next sampleEnv sampleConf .idle).point = .fragment ∧
      ∀ s readOk, (Loop.longTaken.next sampleEnv sampleConf .idle).call sampleConf .idle =
          some (s, readOk) →
        s.EntersFragmentProcess sampleEnv sampleConf readOk → s.usingPdu.fragmentFlag = false := by
  have hqueue : Loop.longTaken.sender.fragments.fragmentIDQueue.contents = [1] := by decide +kernel
  obtain ⟨htracked, -, -, hfetch⟩ :=
    single_fragmentation sampleEnv sampleConf_configured Loop.longTaken_reachable
  have hfound := (hfetch rfl).mpr (by simp [hqueue])
  have hnext : Loop.Reachable sampleEnv sampleConf (Loop.longTaken.next sampleEnv sampleConf .idle) :=
    Loop.longTaken_reachable.next (fun m hm => by cases hm) rfl
  obtain ⟨-, -, hentered, -⟩ := single_fragmentation sampleEnv sampleConf_configured hnext
  exact ⟨htracked, hqueue, hfound, by decide +kernel, hentered .idle⟩

end Fengtai.Send
