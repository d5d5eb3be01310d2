import Fengtai.Gateway.Turns
import Fengtai.Library.Channel
import Fengtai.Library.Runs

set_option autoImplicit false

/-! Gateways on lossless lines: what the users of one send comes out at those who listen to it. -/

namespace Fengtai

open Library Library.Words Library.Runs Receive Send Gateway

/-- Gateways, each with the number of frames that have come in from its line. -/
structure Network (ι : Type*) where
  gateway : ι → Gateway
  carried : ι → ℕ

namespace Network

section Model

variable {ι : Type*}

def initial : Network ι := ⟨fun _ => .initial, fun _ => 0⟩

variable (source : ι → ι)

/-- What may happen next. Gateway `i` hears on port 0 what `source i` sends there, in order and
without loss; nobody else sends on the line. -/
def Admits (net : Network ι) (e : ι × GatewayEvent) : Prop :=
  match e.2 with
  | .arrive port data dataLen protocolType =>
    (port = 0 ∧ (net.gateway (source e.1)).wire[net.carried e.1]? = some (window data 0 dataLen)) ∨
      (port = 1 ∧ UserFrame ⟨.received (net.gateway e.1).received, data, dataLen, protocolType⟩)
  | .decapsulate _ _ clock => ∀ tUs, clock = some tUs → NoneOld tUs (net.gateway e.1).receiver
  | .encapsulate => True
  | .send => True

variable [DecidableEq ι] (conf : ι → GatewayConf) (env : ι → GatewayEnv)

def carry (net : Network ι) (i : ι) : GatewayEvent → ι → ℕ
  | .arrive 0 _ _ _ => Function.update net.carried i (net.carried i + 1)
  | _ => net.carried

def step (net : Network ι) (e : ι × GatewayEvent) : Option (Network ι × Unit) :=
  ((net.gateway e.1).step (conf e.1) (env e.1) e.2).map fun g =>
    (⟨Function.update net.gateway e.1 g, net.carry e.1 e.2⟩, ())

abbrev Reachable : Network ι → Prop := Reached (step conf env) (Admits source) initial

end Model

section Invariant

structure Lines (ι : Type*) where
  frames : ι → List (List Entry)
  rest : ι → List Entry

variable {ι : Type*} {source : ι → ι} {conf : ι → GatewayConf} {env : ι → GatewayEnv}

structure Conveys (source : ι → ι) (conf : ι → GatewayConf) (env : ι → GatewayEnv) (l : Lines ι)
    (net : Network ι) : Prop where
  gateway : ∀ i, (net.gateway i).Conveys (conf i) (env i) (conf (source i)).mapping
    ((net.gateway (source i)).encap.taken 1) (l.frames (source i)) (l.rest (source i)) (l.frames i) (l.rest i)
  carried : ∀ i, net.carried i = ((net.gateway i).rcv.ring 0).length

/-- What the event `e` does to the sending halves. -/
def Moves (conf : ι → GatewayConf) (e : ι × GatewayEvent) (l : Lines ι) (net : Network ι) (l' : Lines ι)
    (net' : Network ι) : Prop :=
  ∀ i, ∃ new fetched, l'.frames i = l.frames i ++ new ∧ Sends (conf i) (e = (i, .encapsulate)) (l.rest i)
    new (l'.rest i) fetched (net.gateway i) (net'.gateway i)

lemma conveys_initial (source : ι → ι) (conf : ι → GatewayConf) (env : ι → GatewayEnv) :
    initial.Conveys source conf env ⟨fun _ => [], fun _ => []⟩ where
  gateway i := ⟨wired_initial, sending_initial _, hearing_initial _ _ _, by
    simp [initial, Gateway.initial, encap, Rings.taken, Rings.ring, Receiver.initial, Pool.fresh]⟩
  carried _ := rfl

variable {l : Lines ι} {net : Network ι} {i j : ι}

lemma Conveys.carries (h : net.Conveys source conf env l) {bytes : List UInt8}
    (hwire : (net.gateway (source i)).wire[net.carried i]? = some bytes) :
    ∃ frame, (l.frames (source i))[((net.gateway i).rcv.ring 0).length]? = some frame ∧
      ∀ m : RteMbuf, m.bytes = bytes → CarriesFrame (conf (source i)).mapping frame m := by
  have hsource := (h.gateway (source i)).sending
  obtain ⟨sent, hring, hcarried⟩ := hsource.carried
  have hsnd : (net.gateway (source i)).snd.ring 1 = sent := by
    rw [snd, hring, Rings.ring_pairs, if_pos rfl]
  have hsent : (sent.map RteMbuf.bytes)[net.carried i]? = some bytes := by
    obtain ⟨more, hmore⟩ := ((net.gateway (source i)).snd.taken_first 1).map RteMbuf.bytes
    rw [hsource.wire] at hwire
    obtain ⟨hlt, -⟩ := List.getElem?_eq_some_iff.mp hwire
    rw [← hsnd, ← hmore, List.getElem?_append_left hlt, hwire]
  rw [List.getElem?_map, Option.map_eq_some_iff] at hsent
  obtain ⟨m, hm, rfl⟩ := hsent
  obtain ⟨hlt, hget⟩ := List.getElem?_eq_some_iff.mp hm
  rw [← h.carried]
  have hlt' : net.carried i < (l.frames (source i)).length := by
    rw [hcarried.length_eq]
    exact hlt
  refine ⟨(l.frames (source i))[net.carried i], List.getElem?_eq_getElem hlt', fun m' hm' => ?_⟩
  have hframe := hcarried.get hlt' hlt
  simp only [List.get_eq_getElem, hget] at hframe
  exact ⟨hframe.1, by rw [hm']; exact hframe.2⟩

variable [DecidableEq ι]

lemma Conveys.advance (h : net.Conveys source conf env l) {event : GatewayEvent} {g' : Gateway}
    {new : List (List Entry)} {rest' : List Entry} {fetched : List RteMbuf} {carried : ι → ℕ}
    (hconveys : g'.Conveys (conf j) (env j) (conf (source j)).mapping
      ((net.gateway (source j)).encap.taken 1) (l.frames (source j)) (l.rest (source j)) (l.frames j ++ new) rest')
    (hsends : Sends (conf j) (event = .encapsulate) (l.rest j) new rest' fetched (net.gateway j) g')
    (hcarried : ∀ i, carried i = ((Function.update net.gateway j g' i).rcv.ring 0).length) :
    let l' : Lines ι := ⟨Function.update l.frames j (l.frames j ++ new), Function.update l.rest j rest'⟩
    let net' : Network ι := ⟨Function.update net.gateway j g', carried⟩
    net'.Conveys source conf env l' ∧ Moves conf (j, event) l net l' net' := by
  refine ⟨⟨fun i => ?_, hcarried⟩, fun i => ?_⟩
  · -- gateway `i` with what it has sent itself; its source is as before
    have hself : (Function.update net.gateway j g' i).Conveys (conf i) (env i) (conf (source i)).mapping
        ((net.gateway (source i)).encap.taken 1) (l.frames (source i)) (l.rest (source i))
        (Function.update l.frames j (l.frames j ++ new) i) (Function.update l.rest j rest' i) := by
      by_cases hi : i = j
      · subst hi
        simpa only [Function.update_self] using hconveys
      · simpa only [Function.update_of_ne hi] using h.gateway i
    by_cases hs : source i = j
    · subst hs
      obtain ⟨part, hpart, hflat⟩ := hsends.packets
      simp only [Function.update_self]
      have hplain (m : RteMbuf) (hm : m ∈ fetched) : Plain m := by
        apply hconveys.wired.plain
        apply Rings.mem_of_mem_taken
        rw [hsends.taken]
        exact List.mem_append_right _ hm
      rw [hsends.taken]
      exact hself.more hpart hflat hplain
    · simp only [Function.update_of_ne hs]
      exact hself
  · by_cases hi : i = j
    · subst hi
      refine ⟨new, fetched, Function.update_self .., ?_⟩
      simp only [Function.update_self]
      exact ⟨hsends.packets, hsends.full, hsends.taken, fun hc => hsends.urges (Prod.mk.inj hc).2⟩
    · refine ⟨[], [], ?_, ?_⟩
      · simp only [Function.update_of_ne hi, List.append_nil]
      · simp only [Function.update_of_ne hi]
        exact .nothing _ _ (fun hc => absurd (Prod.mk.inj hc).1.symm hi) rfl

lemma Conveys.step (hs : ∀ i, Serves (conf i) (env i)) (h : net.Conveys source conf env l)
    {e : ι × GatewayEvent} (hok : net.Admits source e) :
    ∃ net' l', net.step conf env e = some (net', ()) ∧ net'.Conveys source conf env l' ∧
      Moves conf e l net l' net' := by
  obtain ⟨j, event⟩ := e
  have hj := h.gateway j
  have hkeep (g' : Gateway) (hrcv : g'.rcv.ring 0 = (net.gateway j).rcv.ring 0) (i : ι) :
      net.carried i = ((Function.update net.gateway j g' i).rcv.ring 0).length := by
    rw [h.carried]
    by_cases hi : i = j
    · subst hi
      rw [Function.update_self, hrcv]
    · rw [Function.update_of_ne hi]
  have hnothing (g' : Gateway) (hevent : event ≠ .encapsulate)
      (htaken : g'.encap.taken 1 = (net.gateway j).encap.taken 1) :
      Sends (conf j) (event = .encapsulate) (l.rest j) [] (l.rest j) [] (net.gateway j) g' :=
    .nothing _ _ (fun hc => absurd hc hevent) htaken
  cases event with
  | arrive port data dataLen protocolType =>
    rcases hok with ⟨rfl, hwire⟩ | ⟨rfl, hm⟩
    · obtain ⟨frame, hframe, hcarries⟩ := h.carries hwire
      have hm := hcarries ⟨.received (net.gateway j).received, data, dataLen, protocolType⟩ rfl
      have heq := receiveMsg_eq (hs j) (net.gateway j) 0 data dataLen protocolType fun _ =>
        etherType_of_carries hm
      refine ⟨_, _, by rw [Network.step, Gateway.step, heq]; rfl,
        h.advance (by rw [List.append_nil]; exact hj.lineArrives hframe hm) (hnothing ((net.gateway j).enqueued
          0 data dataLen protocolType) GatewayEvent.noConfusion rfl) fun i => ?_⟩
      by_cases hi : i = j
      · subst hi
        simp only [Function.update_self, carry, enqueued, Rings.ring_enqueue_self, List.length_append,
          List.length_singleton, h.carried]
      · simp only [Function.update_of_ne hi, carry, h.carried]
    · have heq := receiveMsg_eq (hs j) (net.gateway j) 1 data dataLen protocolType fun hc =>
        absurd hc (by decide)
      exact ⟨_, _, by rw [Network.step, Gateway.step, heq]; rfl,
        h.advance (by rw [List.append_nil]; exact hj.userArrives hm) (hnothing ((net.gateway j).enqueued
          1 data dataLen protocolType) GatewayEvent.noConfusion rfl)
          (hkeep _ (Rings.ring_enqueue_ne (by decide) _ _))⟩
  | decapsulate now para clock =>
    obtain ⟨g', hstep, hconveys, htaken, -, hring⟩ := hj.decapsulate (hs j) (hs (source j)).configured
      (hs (source j)).packType now para hok
    exact ⟨_, _, by rw [Network.step, Gateway.step, hstep]; rfl,
      h.advance (by rwa [List.append_nil]) (hnothing g' GatewayEvent.noConfusion htaken) (hkeep g' hring)⟩
  | encapsulate =>
    obtain ⟨g', new, rest', fetched, hstep, hconveys, hsends, hrcv⟩ := hj.encapsulate (hs j)
    exact ⟨_, _, by rw [Network.step, Gateway.step, hstep]; rfl,
      h.advance hconveys ⟨hsends.packets, hsends.full, hsends.taken, fun _ => hsends.urges trivial⟩
        (hkeep g' (by rw [hrcv]))⟩
  | send =>
    obtain ⟨hconveys, htaken, hrcv⟩ := hj.sendFrame
    exact ⟨_, _, rfl, h.advance (by rwa [List.append_nil]) (hnothing _ GatewayEvent.noConfusion htaken)
      (hkeep _ (by rw [hrcv]))⟩

lemma Reachable.conveys (hs : ∀ i, Serves (conf i) (env i)) (h : Reachable source conf env net) :
    ∃ l, net.Conveys source conf env l := by
  refine Reached.invariant (fun net => ∃ l, Conveys source conf env l net)
    ⟨_, conveys_initial source conf env⟩ ?_ h
  rintro net e net' u ⟨l, hconveys⟩ hok hstep
  obtain ⟨net₁, l', hstep₁, hconveys', -⟩ := hconveys.step hs hok
  rw [hstep₁, Option.some.injEq, Prod.mk.injEq] at hstep
  obtain ⟨rfl, -⟩ := hstep
  exact ⟨l', hconveys'⟩

def acceptedPdus (g : Gateway) : List (List UInt8 × ℕ) := ((g.rcv.ring 1).filterMap entered).map pduOf

/-- What gateway `i` shows of the channel from the users of its source to its own. -/
structure Shows (source : ι → ι) (conf : ι → GatewayConf) (net : Network ι) (i : ι)
    (c : Channel (List UInt8)) : Prop where
  accepted : c.accepted = (acceptedPdus (net.gateway (source i))).map (etherFrame (conf i) 1)
  delivered : c.delivered = (net.gateway i).user

omit [DecidableEq ι] in
lemma Conveys.inOrder (h : net.Conveys source conf env l) (i : ι) :
    (net.gateway i).user <+: (acceptedPdus (net.gateway (source i))).map (etherFrame (conf i) 1) := by
  obtain ⟨ms, -, hpdus⟩ := (h.gateway i).hearing.awaits
  have hentered := (h.gateway (source i)).wired.entered
  have hrcv := (((net.gateway (source i)).rcv.taken_first 1).filterMap entered).map pduOf
  have hring : ((net.gateway i).encap.ring 0).map pduOf <+: acceptedPdus (net.gateway (source i)) := by
    refine List.IsPrefix.trans ⟨ms.map pduOf, hpdus⟩ (List.IsPrefix.trans ?_ hrcv)
    rw [← hentered]
    exact ((net.gateway (source i)).encap.taken_first 1).map pduOf
  rw [(h.gateway i).hearing.user]
  have huser := (((net.gateway i).encap.taken_first 0).map pduOf).trans hring
  have hframes := huser.map (etherFrame (conf i) 1)
  rwa [List.map_map] at hframes

lemma grows_of_step {e : ι × GatewayEvent} {net' : Network ι} (h : net.step conf env e = some (net', ())) (i : ι) :
    Grows (net.gateway i) (net'.gateway i) := by
  obtain ⟨g', hg', hpair⟩ := Option.map_eq_some_iff.mp h
  obtain ⟨rfl, -⟩ := Prod.mk.inj hpair
  by_cases hi : i = e.1
  · subst hi
    simp only [Function.update_self]
    exact step_grows hg'
  · simp only [Function.update_of_ne hi]
    exact .refl _

lemma accepted_grows {g g' : Gateway} (h : Grows g g') : acceptedPdus g <+: acceptedPdus g' :=
  ((Rings.ring_mono h.rcv 1).filterMap entered).map pduOf

/-- Whatever happens at the gateways, each keeps a channel from the users of its source to its own:
PDUs go in at one end and come out at the other, none lost, none twice, and in their order. -/
theorem gateways_are_channels (hs : ∀ i, Serves (conf i) (env i)) (h : Reachable source conf env net)
    {e : ι × GatewayEvent} (hok : net.Admits source e) :
    ∃ net', net.step conf env e = some (net', ()) ∧ ∀ i, ∃ c c' : Channel (List UInt8),
      Shows source conf net i c ∧ Shows source conf net' i c' ∧ c.Reaches c' := by
  obtain ⟨l, hconveys⟩ := h.conveys hs
  obtain ⟨net', l', hstep, hconveys', -⟩ := hconveys.step hs hok
  have hgrows := grows_of_step hstep
  exact ⟨net', hstep, fun i => ⟨⟨_, _, hconveys.inOrder i⟩, ⟨_, _, hconveys'.inOrder i⟩, ⟨rfl, rfl⟩, ⟨rfl, rfl⟩,
    Channel.reaches_of_prefix ((accepted_grows (hgrows (source i))).map _) (hgrows i).user⟩⟩

def samplePort : GatewayConf where
  mapping := { sampleConf with mappingId := 1 }
  rcvRingQueueNum := 2
  encapRingQueueNum := 2
  localMac := fun _ => List.replicate 6 0

def samplePortEnv : GatewayEnv := ⟨sampleRecvEnv, sampleEnv, fun _ => true⟩

lemma samplePort_serves : Serves samplePort samplePortEnv where
  configured := ⟨sampleConf_configured.modcod_ge, sampleConf_configured.modcod_le,
    sampleConf_configured.threshold_ge, sampleConf_configured.threshold_le⟩
  packType := rfl
  mappingId := rfl
  sendAllocates := fun _ => rfl
  sendEnqueues := fun _ => rfl
  recvAllocates := fun _ => rfl
  recvEnqueues := fun _ => rfl
  rcvEnqueues := fun _ => rfl

/-- An IPv4 packet of a user, of `dataLen` bytes with its Ethernet header. -/
def sampleArrival (dataLen : ℕ) : GatewayEvent := .arrive 1 (fun i => if i = 12 then 8 else 0) dataLen 0

omit [DecidableEq ι] in
lemma sampleArrival_admitted (source : ι → ι) (net : Network ι) (i : ι) {dataLen : ℕ} (hmin : 60 ≤ dataLen)
    (hmax : dataLen ≤ 1514) : net.Admits source (i, sampleArrival dataLen) :=
  .inr ⟨rfl, hmin, hmax,
    show bswap16 (load16 (fun i => if i = 12 then 8 else 0) 12) ≠ 0x9101 by decide⟩

/-- Turn `k` of gateway `i`: the threads one after the other, and then the line. -/
def sampleTurn (net : Network Bool) (i : Bool) (k : ℕ) : GatewayEvent :=
  match k with
  | 0 => .decapsulate (fun _ => 0) ⟨0, 0, 0, 0, 0⟩ none
  | 1 => .encapsulate
  | 2 => .send
  | _ =>
    match (net.gateway !i).wire[net.carried i]? with
    | some bytes => .arrive 0 (overwrite (fun _ => 0) bytes) bytes.length 0
    | none => .encapsulate

lemma sampleTurn_admitted (net : Network Bool) (i : Bool) (k : ℕ) : net.Admits not (i, sampleTurn net i k) := by
  rcases k with _ | _ | _ | k
  · intro tUs hc
    cases hc
  · trivial
  · trivial
  · simp only [sampleTurn]
    cases hbytes : (net.gateway !i).wire[net.carried i]? with
    | some bytes => exact .inl ⟨rfl, hbytes.trans (congrArg some (holds_overwrite (fun _ => 0) bytes).symm)⟩
    | none => trivial

def sampleNext (net : Network Bool) (i : Bool) : Option ℕ → GatewayEvent
  | none => sampleArrival 1514
  | some k => sampleTurn net i k

lemma sampleNext_admitted (net : Network Bool) (i : Bool) (k : Option ℕ) :
    net.Admits not (i, sampleNext net i k) := by
  cases k with
  | none => exact sampleArrival_admitted not net i (by decide) (by decide)
  | some k => exact sampleTurn_admitted net i k

def sampleRounds : List (Bool × Option ℕ) → Network Bool → Option (Network Bool)
  | [], net => some net
  | turn :: turns, net =>
    (net.step (fun _ => samplePort) (fun _ => samplePortEnv) (turn.1, sampleNext net turn.1 turn.2)).bind
      fun t => sampleRounds turns t.1

lemma sampleRounds_reachable {turns : List (Bool × Option ℕ)} {net net' : Network Bool}
    (h : Reachable not (fun _ => samplePort) (fun _ => samplePortEnv) net)
    (hrun : sampleRounds turns net = some net') :
    Reachable not (fun _ => samplePort) (fun _ => samplePortEnv) net' := by
  induction turns generalizing net with
  | nil =>
    obtain rfl := Option.some.inj hrun
    exact h
  | cons turn turns ih =>
    obtain ⟨⟨t, _⟩, hstep, hrest⟩ := Option.bind_eq_some_iff.mp hrun
    exact ih (h.next (sampleNext_admitted net turn.1 turn.2) hstep) hrest

/-- Two packets of the users at one end are taken and put into GSE packets, until a frame is full; it
is sent, comes in at the other end, and is decapsulated. -/
def twoPackets : List (Bool × Option ℕ) :=
  List.replicate 2 (false, none) ++ List.replicate 5 (false, some 0) ++
    List.replicate 6 (false, some 1) ++ List.replicate 2 (false, some 2) ++
    [(true, some 3), (true, some 0)]

/-- The next turn of the encapsulating thread there hands the first packet to the users. -/
theorem two_gateways_are_channels :
    ∃ net net' : Network Bool, sampleRounds twoPackets initial = some net ∧
      net.step (fun _ => samplePort) (fun _ => samplePortEnv) (true, .encapsulate) = some (net', ()) ∧
      (net.gateway true).user.length = 0 ∧ (net'.gateway true).user.length = 1 ∧
      ∀ i, ∃ c c' : Channel (List UInt8), Shows not (fun _ => samplePort) net i c ∧
        Shows not (fun _ => samplePort) net' i c' ∧ c.Reaches c' := by
  have hlen : ((sampleRounds twoPackets initial).bind fun net =>
      (net.step (fun _ => samplePort) (fun _ => samplePortEnv) (true, .encapsulate)).map fun t =>
        ((net.gateway true).user.length, (t.1.gateway true).user.length)) = some (0, 1) := by
    decide +kernel
  obtain ⟨net, hrun, hlen⟩ := Option.bind_eq_some_iff.mp hlen
  obtain ⟨⟨t, _⟩, hstep, hlen⟩ := Option.map_eq_some_iff.mp hlen
  obtain ⟨hbefore, hafter⟩ := Prod.mk.inj hlen
  obtain ⟨net', hstep', hshows⟩ := gateways_are_channels (fun _ => samplePort_serves)
    (sampleRounds_reachable .start hrun) (show net.Admits not (true, .encapsulate) from trivial)
  obtain rfl := (Prod.mk.inj (Option.some.inj (hstep'.symm.trans hstep))).1
  exact ⟨net, net', hrun, hstep', hbefore, hafter, hshows⟩

end Invariant

end Network

end Fengtai
