import Fengtai.Send.Traffic

set_option autoImplicit false

/-! The loop beside the PDUs it has taken and the frames it has handed over: the packets of the
frames are those the PDUs are sent in, one PDU after the other. -/

namespace Fengtai.Send

open Library.Words Library.Runs Receive Sender

inductive Sent (conf : AppConf) : List RteMbuf → List Entry → Prop
  | nil : Sent conf [] []
  | snoc {ms : List RteMbuf} {es : List Entry} {m : RteMbuf} {part : List Entry} :
      Sent conf ms es → Ordinary m → Chunks conf m part → Sent conf (ms ++ [m]) (es ++ part)

lemma Passes.split {conf : AppConf} {closing : List Sender} {full frame : List Entry}
    (h : Passes conf full closing frame) :
    ∃ new : List (List Entry), List.Forall₂ (Sealed conf) new closing ∧ new.flatten ++ frame = full ∧
      (new = [] ∨ full <+: new.flatten) := by
  rcases h with ⟨rfl, rfl⟩ | ⟨rfl, t, rfl, hsealed⟩
  · exact ⟨[], .nil, rfl, .inl rfl⟩
  · exact ⟨[full], .cons hsealed .nil, by simp, .inr (by simp)⟩

lemma Sent.singleton {conf : AppConf} {m : RteMbuf} {part : List Entry} (hm : Ordinary m)
    (hpart : Chunks conf m part) :
    Sent conf [m] part := .snoc .nil hm hpart

lemma Sent.append {conf : AppConf} {ms ms' : List RteMbuf} {es es' : List Entry} (h : Sent conf ms es)
    (h' : Sent conf ms' es') : Sent conf (ms ++ ms') (es ++ es') := by
  induction h' with
  | nil => simpa using h
  | snoc _ hm hpart ih =>
    rw [← List.append_assoc, ← List.append_assoc]
    exact .snoc ih hm hpart

def Entry.freed (e : Entry) : List MbufAddr := e.node.freedBuffers

/-- The packets of PDUs whose fragmentations are numbered from `k + 1` on. -/
inductive SentFrom (conf : AppConf) : ℕ → List RteMbuf → List Entry → ℕ → Prop
  | nil (k : ℕ) : SentFrom conf k [] [] k
  | whole {k l : ℕ} {m : RteMbuf} (t : ℕ) {ms : List RteMbuf} {es : List Entry} (hm : Ordinary m)
      (h : SentFrom conf k ms es l) : SentFrom conf k (m :: ms) (⟨readEnapsulateBuffer conf m, t⟩ :: es) l
  | split {k l size : ℕ} {m : RteMbuf} {ms : List RteMbuf} {es : List Entry} (hm : Ordinary m) (h3 : 3 ≤ size)
      (h8 : size + 8 ≤ m.dataLen) (h : SentFrom conf (k + 1) ms es l) :
      SentFrom conf k (m :: ms) (startEntry conf m (k + 1) size :: endEntry conf m (k + 1) size :: es) l

lemma SentFrom.append {conf : AppConf} {k l n : ℕ} {ms ms' : List RteMbuf} {es es' : List Entry}
    (h : SentFrom conf k ms es l) (h' : SentFrom conf l ms' es' n) :
    SentFrom conf k (ms ++ ms') (es ++ es') n := by
  induction h with
  | nil => exact h'
  | whole t hm _ ih => exact .whole t hm (ih h')
  | split hm h3 h8 _ ih => exact .split hm h3 h8 (ih h')

lemma SentFrom.sent {conf : AppConf} {k l : ℕ} {ms : List RteMbuf} {es : List Entry}
    (h : SentFrom conf k ms es l) :
    Sent conf ms es := by
  induction h with
  | nil => exact .nil
  | whole t hm _ ih => exact (Sent.singleton hm (.whole t)).append ih
  | @split k _ size _ _ _ hm h3 h8 _ ih =>
    exact (Sent.singleton hm (.split (k + 1) size (Nat.succ_pos k) h3 h8)).append ih

/-- The buffer `write_codeblock` fills for the packets of `frame`. -/
def frameBuffer (conf : AppConf) (macRev : UInt8 × UInt8) (modcod : ℕ) (frame : List Entry) :
    List UInt8 :=
  let used := (frame.map fun e => e.node.packetLength).sum
  encodeInnerHeader conf macRev (10 + conf.payload) ++
    packageL2L1Header (10 + conf.payload) modcod ++ bbHeader used ++
    (frame.map Entry.bytes).flatten ++ List.replicate (conf.payload - used) 0

lemma Sealed.output {env : SendEnv} {conf : AppConf} (hc : conf.Configured)
    (htype : conf.portToPktType = enumFwdTxFwdData) {frame : List Entry} {t : Sender}
    (h : Sealed conf frame t) (o : Output) :
    let buffer := frameBuffer conf (env.macRev o.pool.allocs) t.gseGroup.modcod frame
    let p : Pool := { o.pool with
      freed := o.pool.freed ++ frame.flatMap Entry.freed
      allocs := o.pool.allocs + 1 }
    (encapsulateFrame env conf t.gseGroup t.framePayload.maxPayload t.framePayload.usedPayload o).2 =
      if env.allocates o.pool.allocs then
        Output.enqueueSndBbRing env ⟨.allocated o.pool.allocs,
          overwrite (env.room o.pool.allocs) buffer, buffer.length, 0⟩ conf.mappingId
          { o with pool := p }
      else { o with pool := p } := by
  obtain ⟨-, hhigh⟩ := hc.payload_bounds
  have hsum := h.balanced.sum_eq
  have hused := h.holds.used
  have hnum : t.gseGroup.gseNum ≠ 0 := by
    rw [h.holds.num]
    exact (List.length_pos_iff.mpr h.nonempty).ne'
  have hframed : conf.framed = true := by simp [AppConf.framed, htype]
  have hbytes := Entry.mapM_bytes h.holds.sized
  have hlen := Entry.flatten_length h.holds.sized
  rw [← h.holds.packets] at hbytes
  have hfreed : t.gseGroup.packets.flatMap OneGse.freed = frame.flatMap Entry.freed := by
    rw [h.holds.packets, List.flatMap_map]
    exact List.flatMap_congr fun e _ => e.node.group_freed e.timeSeq
  have hheader := frameHeaderOf_bb (show conf.portToPktType ≠ islPack by rw [htype]; decide)
    t.gseGroup.modcod
    (show conf.payload ≤ 8000 by omega) (show t.framePayload.usedPayload ≤ conf.payload by omega)
  have hbuf : writeBuffer (encodeInnerHeader conf (env.macRev o.pool.allocs) (10 + conf.payload))
      (packageL2L1Header (10 + conf.payload) t.gseGroup.modcod) (bbHeader t.framePayload.usedPayload)
      t.gseGroup (conf.payload - t.framePayload.usedPayload) =
      some (frameBuffer conf (env.macRev o.pool.allocs) t.gseGroup.modcod frame) := by
    rw [frameBuffer, ← hused]
    apply writeBuffer_eq hbytes
    rw [encodeInnerHeader_length, packageL2L1Header_length, bbHeader_length, hlen, ← hused,
      fifoItemSize]
    omega
  rw [h.balanced.max_eq]
  simp only [encapsulateFrame, if_neg hnum, hframed, hheader, Bool.not_true, Bool.false_eq_true,
    if_false, writeCodeblock, hbuf, Pool.alloc, hfreed]
  by_cases halloc : env.allocates o.pool.allocs = true
  · simp only [halloc, if_true]
  · simp only [halloc, if_false, Bool.false_eq_true]

/-- The loop with the PDUs `get_whole_pkt` has fetched and the senders `make_frame` was called
with. -/
structure Journal where
  loop : Loop
  taken : List RteMbuf
  handed : List Sender

namespace Journal

def initial : Journal := ⟨.initial, [], []⟩

def fetches (j : Journal) (turn : Sender.Turn) : List RteMbuf :=
  match j.loop.point, turn with
  | .whole, .pdu m => [m]
  | _, _ => []

def hands (env : SendEnv) (conf : AppConf) (j : Journal) (turn : Sender.Turn) : List Sender :=
  match j.loop.call conf turn with
  | some (s, readOk) => s.closing env conf readOk
  | none => []

def next (env : SendEnv) (conf : AppConf) (j : Journal) (turn : Sender.Turn) : Journal where
  loop := j.loop.next env conf turn
  taken := j.taken ++ j.fetches turn
  handed := j.handed ++ j.hands env conf turn

def step (env : SendEnv) (conf : AppConf) (j : Journal) (turn : Sender.Turn) :
    Option (Journal × Unit) := some (j.next env conf turn, ())

abbrev Reachable (env : SendEnv) (conf : AppConf) : Journal → Prop :=
  Reached (step env conf) (fun _ turn => ∀ m, turn = .pdu m → Ordinary m) initial

inductive Stands (conf : AppConf) : Loop → List Entry → Prop
  | idle {k : ℕ} {frame : List Entry} {s : Sender} (h : Clean conf k frame s) :
      Stands conf ⟨.fetch, s⟩ frame
  | owing {k size : ℕ} {m : RteMbuf} {s : Sender} (hm : Ordinary m) (h : Owing conf k m size s) :
      Stands conf ⟨.fetch, s⟩ [endEntry conf m k size]
  | fragment {k size : ℕ} {m : RteMbuf} {s : Sender} (hm : Ordinary m) (h : Owing conf k m size s) :
      Stands conf ⟨.fragment, s.takeFragment (numberedID k)⟩ [endEntry conf m k size]
  | whole {k : ℕ} {frame : List Entry} {s : Sender} (h : Clean conf k frame s) :
      Stands conf ⟨.whole, s⟩ frame

/-- Where the loop stands after `k` fragmentations. -/
inductive StandsAt (conf : AppConf) (k : ℕ) : Loop → List Entry → Prop
  | idle {frame : List Entry} {s : Sender} (h : Clean conf k frame s) : StandsAt conf k ⟨.fetch, s⟩ frame
  | owing {size : ℕ} {m : RteMbuf} {s : Sender} (hm : Ordinary m) (h : Owing conf k m size s) :
      StandsAt conf k ⟨.fetch, s⟩ [endEntry conf m k size]
  | fragment {size : ℕ} {m : RteMbuf} {s : Sender} (hm : Ordinary m) (h : Owing conf k m size s) :
      StandsAt conf k ⟨.fragment, s.takeFragment (numberedID k)⟩ [endEntry conf m k size]
  | whole {frame : List Entry} {s : Sender} (h : Clean conf k frame s) : StandsAt conf k ⟨.whole, s⟩ frame

lemma stands_iff {conf : AppConf} {l : Loop} {rest : List Entry} :
    Stands conf l rest ↔ ∃ k, StandsAt conf k l rest := by
  constructor
  · intro h
    cases h with
    | idle h => exact ⟨_, .idle h⟩
    | owing hm h => exact ⟨_, .owing hm h⟩
    | fragment hm h => exact ⟨_, .fragment hm h⟩
    | whole h => exact ⟨_, .whole h⟩
  · rintro ⟨k, h⟩
    cases h with
    | idle h => exact .idle h
    | owing hm h => exact .owing hm h
    | fragment hm h => exact .fragment hm h
    | whole h => exact .whole h

/-- The frames handed over hold `frames`, and `rest` is to follow. -/
structure Follows (conf : AppConf) (frames : List (List Entry)) (rest : List Entry) (j : Journal) :
    Prop where
  stands : Stands conf j.loop rest
  frames_sealed : List.Forall₂ (Sealed conf) frames j.handed
  sent : Sent conf j.taken (frames.flatten ++ rest)

variable {env : SendEnv} {conf : AppConf} {j : Journal} {frames : List (List Entry)}
  {rest : List Entry}

variable (env) in
lemma StandsAt.next {k : ℕ} (h : StandsAt conf k j.loop rest) (hc : conf.Configured) {turn : Sender.Turn}
    (hturn : ∀ m, turn = .pdu m → Ordinary m) :
    ∃ new part rest' l, List.Forall₂ (Sealed conf) new (j.hands env conf turn) ∧
      SentFrom conf k (j.fetches turn) part l ∧ StandsAt conf l (j.loop.next env conf turn) rest' ∧
      new.flatten ++ rest' = rest ++ part ∧ (new = [] ∨ rest <+: new.flatten) := by
  obtain ⟨loop, taken, handed⟩ := j
  cases h with
  | @idle frame s hclean =>
    obtain ⟨hs, hret⟩ := fetchPduFragment_drained conf .zero hclean.idle.drained
    have hfail : (s.getFragPkt conf).1 = false := by simpa [Sender.getFragPkt] using hret
    have hfrag : (s.getFragPkt conf).2.fragments = s.fragments := hs
    refine ⟨[], [], rest, k, .nil, .nil k, ?_, (List.append_nil rest).symm, .inl rfl⟩
    simp only [Loop.next, Loop.call, hfail, Bool.false_eq_true, if_false]
    refine .whole ⟨⟨hclean.idle.group, ?_, hclean.idle.payload⟩, hclean.counted, ?_,
      ⟨hclean.holds.packets, hclean.holds.num, hclean.holds.used, hclean.holds.sized⟩, hclean.modest⟩
    · rw [hfrag]
      exact hclean.idle.drained
    · rw [hfrag]
      exact hclean.last
  | owing hm howing =>
    refine ⟨[], [], _, k, .nil, .nil k, ?_, (List.append_nil _).symm, .inl rfl⟩
    simp only [Loop.next, Loop.call, howing.draining.getFragPkt, if_true]
    exact .fragment hm howing
  | fragment hm howing =>
    obtain ⟨frame', hclean, hpass⟩ := howing.fragment env hc hm
    obtain ⟨new, hnew, hflat, hfull⟩ := hpass.split
    exact ⟨new, [], frame', k, hnew, .nil k, .idle hclean, hflat.trans (List.append_nil _).symm, hfull⟩
  | @whole _ s hclean =>
    cases turn with
    | idle =>
      obtain ⟨frame', hclean', hpass⟩ := hclean.idle_call env hc
      obtain ⟨new, hnew, hflat, hfull⟩ := hpass.split
      exact ⟨new, [], frame', k, hnew, .nil k, .idle hclean', hflat.trans (List.append_nil _).symm, hfull⟩
    | pdu m =>
      have hm := hturn m rfl
      by_cases hfit : m.dataLen + 4 ≤ s.room conf
      · obtain ⟨n, frame', hclean', hpass⟩ := hclean.pdu_fits env hc hm hfit
        obtain ⟨new, hnew, hflat, hfull⟩ := hpass.split
        exact ⟨new, _, frame', k, hnew, .whole n hm (.nil k), .idle hclean', hflat,
          hfull.imp_right (List.prefix_append _ _).trans⟩
      · obtain ⟨size, howing, t, hclosing, hsealed⟩ := hclean.pdu_splits env hc hm (not_le.mp hfit)
        refine ⟨[rest ++ [startEntry conf m (k + 1) size]], _, _, k + 1, ?_,
          .split hm howing.size_ge howing.size_le (.nil (k + 1)),
          .owing hm howing, by simp, .inr (by simp)⟩
        change List.Forall₂ _ _ (Sender.closing _ _ _ _)
        rw [hclosing]
        exact .cons hsealed .nil

variable (env) in
lemma Stands.next (h : Stands conf j.loop rest) (hc : conf.Configured) {turn : Sender.Turn}
    (hturn : ∀ m, turn = .pdu m → Ordinary m) :
    ∃ new part rest', List.Forall₂ (Sealed conf) new (j.hands env conf turn) ∧
      Sent conf (j.fetches turn) part ∧ Stands conf (j.loop.next env conf turn) rest' ∧
      new.flatten ++ rest' = rest ++ part ∧ (new = [] ∨ rest <+: new.flatten) := by
  obtain ⟨k, hk⟩ := stands_iff.mp h
  obtain ⟨new, part, rest', l, hnew, hpart, hl, hflat, hfull⟩ := hk.next env hc hturn
  exact ⟨new, part, rest', hnew, hpart.sent, stands_iff.mpr ⟨l, hl⟩, hflat, hfull⟩

/-- `Follows`, with the number of fragmentations so far. -/
structure FollowsAt (conf : AppConf) (frames : List (List Entry)) (rest : List Entry) (k : ℕ) (j : Journal) :
    Prop where
  stands : StandsAt conf k j.loop rest
  frames_sealed : List.Forall₂ (Sealed conf) frames j.handed
  numbered : SentFrom conf 0 j.taken (frames.flatten ++ rest) k

lemma FollowsAt.follows {k : ℕ} (h : FollowsAt conf frames rest k j) : Follows conf frames rest j :=
  ⟨stands_iff.mpr ⟨k, h.stands⟩, h.frames_sealed, h.numbered.sent⟩

lemma FollowsAt.next {k : ℕ} (h : FollowsAt conf frames rest k j) (hc : conf.Configured) {turn : Sender.Turn}
    (hturn : ∀ m, turn = .pdu m → Ordinary m) :
    ∃ frames' rest' l, FollowsAt conf frames' rest' l (j.next env conf turn) := by
  obtain ⟨new, part, rest', l, hnew, hpart, hstands, hflat, -⟩ := h.stands.next env hc hturn
  refine ⟨frames ++ new, rest', l, hstands, List.rel_append h.frames_sealed hnew, ?_⟩
  have hnumbered := h.numbered.append hpart
  rwa [List.append_assoc, ← hflat, ← List.append_assoc, ← List.flatten_append] at hnumbered

lemma Reachable.followsAt (hc : conf.Configured) (h : Reachable env conf j) :
    ∃ frames rest k, FollowsAt conf frames rest k j := by
  refine Reached.invariant (fun j => ∃ frames rest k, FollowsAt conf frames rest k j)
    ⟨[], [], 0, .idle (clean_initial conf), .nil, .nil 0⟩ ?_ h
  rintro j turn j' _ ⟨frames, rest, k, hj⟩ hturn hstep
  obtain ⟨rfl, -⟩ := Prod.mk.inj (Option.some.inj hstep)
  exact hj.next hc hturn

lemma Reachable.follows (hc : conf.Configured) (h : Reachable env conf j) :
    ∃ frames rest, Follows conf frames rest j := by
  obtain ⟨frames, rest, k, hf⟩ := h.followsAt hc
  exact ⟨frames, rest, hf.follows⟩

lemma call_output {l : Loop} {turn : Sender.Turn} {s : Sender} {readOk : ReadOk}
    (h : l.call conf turn = some (s, readOk)) : s.output = l.sender.output := by
  obtain ⟨point, sender⟩ := l
  cases point with
  | fetch => simp [Loop.call] at h
  | fragment =>
    obtain ⟨rfl, -⟩ := Prod.mk.inj (Option.some.inj h)
    rfl
  | whole =>
    cases turn <;>
    · obtain ⟨rfl, -⟩ := Prod.mk.inj (Option.some.inj h)
      rfl

/-- What a step of the loop does to the world: `encapsulate_frame` for each frame it hands over. -/
lemma next_output (env : SendEnv) (conf : AppConf) (j : Journal) (turn : Sender.Turn) :
    (j.loop.next env conf turn).sender.output =
      (j.hands env conf turn).foldl (fun o t => (encapsulateFrame env conf t.gseGroup
        t.framePayload.maxPayload t.framePayload.usedPayload o).2) j.loop.sender.output := by
  simp only [hands, Loop.next]
  cases hcall : j.loop.call conf turn with
  | none => rfl
  | some r =>
    obtain ⟨s, readOk⟩ := r
    rw [← call_output hcall]
    exact output_encapsulateIslBb env conf readOk s

lemma Reachable.output (h : Reachable env conf j) :
    j.loop.sender.output = j.handed.foldl (fun o t => (encapsulateFrame env conf t.gseGroup
      t.framePayload.maxPayload t.framePayload.usedPayload o).2) ⟨.fresh, false⟩ := by
  refine Reached.invariant (fun j => j.loop.sender.output = j.handed.foldl (fun o t =>
    (encapsulateFrame env conf t.gseGroup t.framePayload.maxPayload t.framePayload.usedPayload
      o).2) ⟨.fresh, false⟩) rfl ?_ h
  intro j turn j' _ hj _ hstep
  obtain ⟨rfl, -⟩ := Prod.mk.inj (Option.some.inj hstep)
  change (j.loop.next env conf turn).sender.output = _
  rw [next_output, hj, ← List.foldl_append]
  rfl

end Journal

end Fengtai.Send
