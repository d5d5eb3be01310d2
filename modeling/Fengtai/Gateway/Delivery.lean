import Fengtai.Gateway.Network
import Fengtai.Gateway.Rounds
import Fengtai.Library.Fairness

set_option autoImplicit false

/-! Gateways whose threads all have their turn again and again: every PDU comes out in the end. -/

namespace Fengtai

open Library Library.Words Receive Send Journal Gateway

namespace Send

/-- How many PDUs end with one of the packets `es`. -/
def ends (es : List Entry) : ℕ := (es.flatMap Entry.freed).length

lemma ends_append (es es' : List Entry) : ends (es ++ es') = ends es + ends es' := by
  rw [ends, List.flatMap_append, List.length_append]
  rfl

lemma ends_mono {es es' : List Entry} (h : es <+: es') : ends es ≤ ends es' := by
  obtain ⟨more, rfl⟩ := h
  rw [ends_append]
  exact Nat.le_add_right _ _

variable {conf : AppConf} {ms : List RteMbuf} {es : List Entry}

lemma Sent.ends (h : Sent conf ms es) : ends es = ms.length := by
  rw [Send.ends, h.freed, List.length_map]

lemma ToCome.ends (h : ToCome conf ms es) : ends es = ms.length := by
  induction h with
  | nil => rfl
  | cons _ hpart _ ih =>
    rw [ends_append, ih, Send.ends, hpart.freed, List.length_cons, Nat.add_comm]
    rfl

lemma Awaits.ends {env : Dpdk} {port : ℕ} {T : Table} (h : Awaits conf env port ms es T) :
    ends es = ms.length := by
  cases h with
  | between hto _ => exact hto.ends
  | within hms _ _ _ hto _ _ =>
    rw [hms, List.length_cons, ← hto.ends, Nat.add_comm]
    exact ends_append [_] _

lemma Journal.Stands.length_lt {l : Loop} {rest : List Entry} (h : Stands conf l rest) (hc : conf.Configured) :
    rest.length < 255 := by
  cases h with
  | idle hclean => exact hclean.modest.length_lt hc (hclean.idle.payload.imp_right And.left)
  | owing => exact Nat.lt_of_sub_eq_succ rfl
  | fragment => exact Nat.lt_of_sub_eq_succ rfl
  | whole hclean => exact hclean.modest.length_lt hc (hclean.idle.payload.imp_right And.left)

end Send

namespace Gateway

section Lengths

variable {conf : AppConf} {frames : List (List Entry)} {rest : List Entry} {g : Gateway}

lemma Sending.ring_length (h : g.Sending conf frames rest) : (g.snd.ring 1).length = frames.length := by
  obtain ⟨sent, hring, hcarried⟩ := h.carried
  rw [snd, hring, Rings.ring_pairs, if_pos rfl, hcarried.length_eq]

lemma Sending.wire_length (h : g.Sending conf frames rest) : g.wire.length = g.sndHead 1 := by
  rw [h.wire, List.length_map, h.sound.taken_length]
  rfl

lemma Sending.ends (h : g.Sending conf frames rest) (hw : g.Wired) :
    Send.ends (frames.flatten ++ rest) = g.encapHead 1 := by
  rw [h.sent.ends, hw.encapSound.taken_length]
  rfl

end Lengths

end Gateway

namespace Network

variable {ι : Type*} [DecidableEq ι]

structure Run (source : ι → ι) (conf : ι → GatewayConf) (env : ι → GatewayEnv) where
  state : ℕ → Network ι
  event : ℕ → ι × GatewayEvent
  start : state 0 = initial
  admits : ∀ n, (state n).Admits source (event n)
  next : ∀ n, (state n).step conf env (event n) = some (state (n + 1), ())

variable {source : ι → ι} {conf : ι → GatewayConf} {env : ι → GatewayEnv}

omit [DecidableEq ι] in
lemma Conveys.handed_on {l : Lines ι} {net : Network ι} (h : net.Conveys source conf env l) (i : ι) :
    ((net.gateway i).encap.ring 0).length =
      ends ((l.frames (source i)).take ((net.gateway i).rcv.head 0)).flatten := by
  obtain ⟨ms, hawaits, hpdus⟩ := (h.gateway i).hearing.awaits
  have hsource := (h.gateway (source i)).sending.sent.ends
  have hcome := hawaits.ends
  have hlen := congrArg List.length hpdus
  rw [← List.take_append_drop ((net.gateway i).rcv.head 0) (l.frames (source i)), List.flatten_append,
    List.append_assoc, ends_append] at hsource
  simp only [List.length_append, List.length_map] at hlen
  omega

namespace Run

variable (r : Run source conf env) (i : ι)

def gateway (n : ℕ) : Gateway := (r.state n).gateway i

def Decapsulates (n : ℕ) : Prop := ∃ now para clock, r.event n = (i, .decapsulate now para clock)

def Encapsulates (n : ℕ) : Prop := r.event n = (i, .encapsulate)

def Sends (n : ℕ) : Prop := r.event n = (i, .send)

/-- The line of gateway `i` brings a frame. -/
def Hears (n : ℕ) : Prop :=
  ∃ data dataLen protocolType, r.event n = (i, .arrive 0 data dataLen protocolType)

structure Fair : Prop where
  decapsulates : ∀ i, Recurs (r.Decapsulates i)
  encapsulates : ∀ i, Recurs (r.Encapsulates i)
  sends : ∀ i, Recurs (r.Sends i)
  hears : ∀ i n, (r.state n).carried i < (r.gateway (source i) n).wire.length → ∃ m ≥ n, r.Hears i m

lemma gateway_next (n : ℕ) : (r.event n).1 ≠ i ∧ r.gateway i (n + 1) = r.gateway i n ∨
    ∃ e, r.event n = (i, e) ∧ (r.gateway i n).step (conf i) (env i) e = some (r.gateway i (n + 1)) := by
  obtain ⟨g', hg', hpair⟩ := Option.map_eq_some_iff.mp (r.next n)
  have hstate := (Prod.mk.inj hpair).1
  by_cases hi : (r.event n).1 = i
  · right
    subst hi
    refine ⟨(r.event n).2, rfl, ?_⟩
    rw [gateway, gateway, hg', ← hstate]
    simp only [Function.update_self]
  · left
    refine ⟨hi, ?_⟩
    rw [gateway, gateway, ← hstate]
    simp only [Function.update_of_ne (Ne.symm hi)]

lemma grows (n : ℕ) : Grows (r.gateway i n) (r.gateway i (n + 1)) := grows_of_step (r.next n) i

lemma rcvHead_mono (d : ℕ) : Monotone fun n => (r.gateway i n).rcv.head d :=
  monotone_nat_of_le_succ fun n => (r.grows i n).rcvHead d

lemma encapHead_mono (d : ℕ) : Monotone fun n => (r.gateway i n).encapHead d :=
  monotone_nat_of_le_succ fun n => (r.grows i n).encapHead d

lemma sndHead_mono (d : ℕ) : Monotone fun n => (r.gateway i n).sndHead d :=
  monotone_nat_of_le_succ fun n => (r.grows i n).sndHead d

lemma rcv_grows {n m : ℕ} (h : n ≤ m) : (r.gateway i n).rcv.log <+: (r.gateway i m).rcv.log := by
  induction m, h using Nat.le_induction with
  | base => exact List.prefix_rfl
  | succ m _ ih => exact ih.trans (r.grows i m).rcv

lemma accepted_grows {n m : ℕ} (h : n ≤ m) : acceptedPdus (r.gateway i n) <+: acceptedPdus (r.gateway i m) :=
  ((Rings.ring_mono (r.rcv_grows i h) 1).filterMap entered).map pduOf

variable {r} {i}

lemma step_of_event {n : ℕ} {e : GatewayEvent} (h : r.event n = (i, e)) :
    (r.gateway i n).step (conf i) (env i) e = some (r.gateway i (n + 1)) := by
  rcases r.gateway_next i n with ⟨hne, -⟩ | ⟨e', he', hstep⟩
  · exact absurd (congrArg Prod.fst h) hne
  · rwa [(Prod.mk.inj (h.symm.trans he')).2]

lemma carried_next {n : ℕ} (h : ¬ r.Hears i n) : (r.state (n + 1)).carried i = (r.state n).carried i := by
  obtain ⟨g', -, hpair⟩ := Option.map_eq_some_iff.mp (r.next n)
  rw [← (Prod.mk.inj hpair).1]
  rcases hevent : r.event n with ⟨j, e⟩
  cases e with
  | arrive port data dataLen protocolType =>
    cases port with
    | zero =>
      apply Function.update_of_ne
      rintro rfl
      exact h ⟨data, dataLen, protocolType, hevent⟩
    | succ port => rfl
  | decapsulate => rfl
  | encapsulate => rfl
  | send => rfl

lemma decapsulates_ring (hf : r.Fair) {d : ℕ} (hd : d < (conf i).rcvRingQueueNum) :
    Recurs fun m => r.Decapsulates i m ∧ (r.gateway i m).decapRing = d := by
  apply (hf.decapsulates i).visits fun m => roundDist (conf i).rcvRingQueueNum d (r.gateway i m).decapRing
  · intro m hturn
    rcases r.gateway_next i m with ⟨-, hsame⟩ | ⟨e, he, hstep⟩
    · rw [hsame]
    · rw [step_decapRing hstep]
      rintro now para clock rfl
      exact hturn ⟨now, para, clock, he⟩
  · rintro m ⟨now, para, clock, hevent⟩ hgoal
    obtain ⟨head, receiver, hg, -⟩ := decapsulate_eq (step_of_event hevent)
    rw [hg]
    exact roundDist_clock hd hgoal

lemma eventually_decapsulated (hf : r.Fair) {d : ℕ} (hd : d < (conf i).rcvRingQueueNum) {n bound : ℕ}
    (hbound : bound ≤ ((r.gateway i n).rcv.ring d).length) : ∃ m ≥ n, bound ≤ (r.gateway i m).rcv.head d := by
  apply eventually_reaches (r.rcvHead_mono i d) _ fun m _ _ => decapsulates_ring hf hd m
  rintro m hm hlt ⟨⟨now, para, clock, hevent⟩, hring⟩
  obtain ⟨head, receiver, hg, -, hhead⟩ := decapsulate_eq (step_of_event hevent)
  have hlen := (Rings.ring_mono (r.rcv_grows i hm) d).length_le
  rw [hring] at hhead
  rw [hg]
  simp only
  rw [hhead hd (Rings.waiting_ne_nil (hlt.trans_le (hbound.trans hlen)))]
  exact Nat.lt_succ_self _

lemma sends_ring (hf : r.Fair) {d : ℕ} (hd : d < (conf i).encapRingQueueNum) :
    Recurs fun m => r.Sends i m ∧ (r.gateway i m).sndRing = d := by
  apply (hf.sends i).visits fun m => roundDist (conf i).encapRingQueueNum d (r.gateway i m).sndRing
  · intro m hturn
    rcases r.gateway_next i m with ⟨-, hsame⟩ | ⟨e, he, hstep⟩
    · rw [hsame]
    · rw [step_sndRing hstep]
      rintro rfl
      exact hturn he
  · intro m hevent hgoal
    obtain ⟨o, head, wire, heq, -⟩ := sendFrame_eq (conf i) (r.gateway i m)
    rw [← Option.some.inj (step_of_event hevent), heq]
    exact roundDist_next hd hgoal

def Carries (r : Run source conf env) (l : ℕ → Lines ι) : Prop :=
  ∀ n, (r.state n).Conveys source conf env (l n) ∧
    Moves conf (r.event n) (l n) (r.state n) (l (n + 1)) (r.state (n + 1))

lemma exists_lines (r : Run source conf env) (hs : ∀ i, Serves (conf i) (env i)) : ∃ l, r.Carries l := by
  apply exists_companions (P := fun n l => (r.state n).Conveys source conf env l)
    (R := fun n l l' => Moves conf (r.event n) l (r.state n) l' (r.state (n + 1)))
  · rw [r.start]
    exact ⟨_, conveys_initial source conf env⟩
  intro n l hl
  obtain ⟨net', l', hstep, hconveys, hmoves⟩ := hl.step hs (r.admits n)
  obtain rfl := (Prod.mk.inj (Option.some.inj (hstep.symm.trans (r.next n)))).1
  exact ⟨l', hconveys, hmoves⟩

variable {l : ℕ → Lines ι}

lemma Carries.gateway (hl : r.Carries l) (i : ι) (n : ℕ) :
    (r.gateway i n).Conveys (conf i) (env i) (conf (source i)).mapping ((r.gateway (source i) n).encap.taken 1)
      ((l n).frames (source i)) ((l n).rest (source i)) ((l n).frames i) ((l n).rest i) := (hl n).1.gateway i

lemma Carries.carried (hl : r.Carries l) (i : ι) (n : ℕ) :
    (r.state n).carried i = ((r.gateway i n).rcv.ring 0).length := (hl n).1.carried i

lemma Carries.wire_mono (hl : r.Carries l) (i : ι) : Monotone fun n => (r.gateway i n).wire.length := by
  simp only [(hl.gateway i _).sending.wire_length]
  exact r.sndHead_mono i 1

lemma Carries.handed_on (hl : r.Carries l) (i : ι) (n : ℕ) : ((r.gateway i n).encap.ring 0).length =
    ends (((l n).frames (source i)).take ((r.gateway i n).rcv.head 0)).flatten := (hl n).1.handed_on i

lemma encapsulates_ring (hs : ∀ i, Serves (conf i) (env i)) (hf : r.Fair) (hl : r.Carries l) {d : ℕ}
    (hd : d < (conf i).encapRingQueueNum) :
    Recurs fun m => r.Encapsulates i m ∧ (r.gateway i m).encapRing = d ∧ (r.gateway i m).Looks := by
  apply (hf.encapsulates i).visits fun m => encapDist (conf i) d (r.gateway i m)
  · intro m hturn
    rcases r.gateway_next i m with ⟨-, hsame⟩ | ⟨e, he, hstep⟩
    · rw [hsame]
    · apply (step_encapDist hstep _ d).le
      rintro rfl
      exact hturn he
  · intro m hevent hgoal
    exact encapDist_next (step_of_event hevent) (hs i).configured (hl.gateway i m).sending.stands hd hgoal

lemma eventually_encapsulated (hs : ∀ i, Serves (conf i) (env i)) (hf : r.Fair) (hl : r.Carries l) {d : ℕ}
    (hd : d < (conf i).encapRingQueueNum) {n bound : ℕ}
    (hbound : ∀ m ≥ n, bound ≤ ((r.gateway i m).encap.ring d).length) :
    ∃ m ≥ n, bound ≤ (r.gateway i m).encapHead d := by
  apply eventually_reaches (r.encapHead_mono i d) _ fun m _ _ => encapsulates_ring hs hf hl hd m
  rintro m hm hlt ⟨hevent, hring, hlooks⟩
  obtain ⟨-, hhead⟩ := encapsulate_looks (step_of_event hevent) hlooks
  rw [hring] at hhead
  rw [hhead (Rings.waiting_ne_nil (hlt.trans_le (hbound m hm)))]
  exact Nat.lt_succ_self _

lemma frames_grow (hl : r.Carries l) {n m : ℕ} (h : n ≤ m) : (l n).frames i <+: (l m).frames i := by
  induction m, h using Nat.le_induction with
  | base => exact List.prefix_rfl
  | succ m _ ih =>
    obtain ⟨new, -, hframes, -⟩ := (hl m).2 i
    rw [hframes]
    exact ih.trans (List.prefix_append _ _)

lemma framed_or_waiting (hl : r.Carries l) {n m : ℕ} (h : n ≤ m) :
    ((l n).frames i).flatten ++ (l n).rest i <+: ((l m).frames i).flatten ∨
      (l m).frames i = (l n).frames i ∧ (l n).rest i <+: (l m).rest i := by
  induction m, h using Nat.le_induction with
  | base => exact .inr ⟨rfl, List.prefix_rfl⟩
  | succ m _ ih =>
    obtain ⟨new, fetched, hframes, hsends⟩ := (hl m).2 i
    obtain ⟨part, -, hflat⟩ := hsends.packets
    rw [hframes]
    rcases ih with hframed | ⟨hsame, hrest⟩
    · left
      rw [List.flatten_append]
      exact hframed.trans (List.prefix_append _ _)
    · rcases hsends.full with rfl | hfull
      · right
        rw [List.flatten_nil, List.nil_append] at hflat
        rw [List.append_nil, hflat]
        exact ⟨hsame, hrest.trans (List.prefix_append _ _)⟩
      · left
        rw [hsame, List.flatten_append, List.prefix_append_right_inj]
        exact hrest.trans hfull

lemma eventually_framed (hs : ∀ i, Serves (conf i) (env i)) (hf : r.Fair) (hl : r.Carries l)
    (hd : 1 < (conf i).encapRingQueueNum) (n : ℕ) :
    ∃ m ≥ n, ((l n).frames i).flatten ++ (l n).rest i <+: ((l m).frames i).flatten := by
  have hlength (m : ℕ) : ((l m).rest i).length < 255 :=
    (hl.gateway i m).sending.stands.length_lt (hs i).configured
  have hpatience (count : ℕ) : patience count < 256 := Nat.mod_lt _ (by decide)
  refine eventually_of_rank (fun m => (255 - ((l m).rest i).length) * 256 + patience ((r.gateway i m).loopCount 1))
    (fun m hm hgoal => ?_) fun m _ _ => encapsulates_ring hs hf hl hd m
  rcases framed_or_waiting hl (hm.trans (Nat.le_succ m)) with hframed | ⟨hsame', -⟩
  · exact .inl hframed
  right
  obtain ⟨hsame, hrest⟩ := (framed_or_waiting hl hm).resolve_left hgoal
  obtain ⟨new, fetched, hframes, hsends⟩ := (hl m).2 i
  obtain ⟨part, hsent, hflat⟩ := hsends.packets
  obtain rfl : new = [] := by
    rw [hsame', hsame] at hframes
    exact List.append_right_eq_self.mp hframes.symm
  rw [List.flatten_nil, List.nil_append] at hflat
  have hlen := congrArg List.length hflat
  rw [List.length_append] at hlen
  have hlt := hlength (m + 1)
  have hlooking (hvisit : r.Encapsulates i m ∧ (r.gateway i m).encapRing = 1 ∧ (r.gateway i m).Looks) :
      1 ≤ part.length ∨ patience ((r.gateway i (m + 1)).loopCount 1) < patience ((r.gateway i m).loopCount 1) := by
    obtain ⟨hevent, hring, hlooks⟩ := hvisit
    rcases hsends.urges hevent hring (hlooks hring) with hfetched | hnone | hless
    · left
      rw [Nat.one_le_iff_ne_zero, Ne, List.length_eq_zero_iff]
      rintro rfl
      exact hfetched (List.length_eq_zero_iff.mp hsent.ends.symm)
    · rw [hflat, List.append_eq_nil_iff] at hnone
      rw [hnone.1, List.prefix_nil] at hrest
      rw [hrest, List.append_nil, hsame] at hgoal
      exact absurd List.prefix_rfl hgoal
    · exact .inr hless
  have hmax := hpatience ((r.gateway i (m + 1)).loopCount 1)
  by_cases hvisit : r.Encapsulates i m ∧ (r.gateway i m).encapRing = 1 ∧ (r.gateway i m).Looks
  · have hlower := hlooking hvisit
    omega
  · have hkept : (r.gateway i (m + 1)).loopCount 1 = (r.gateway i m).loopCount 1 := by
      rcases r.gateway_next i m with ⟨-, hsame⟩ | ⟨e, he, hstep⟩
      · rw [hsame]
      · apply step_patience hstep
        rintro ⟨rfl, hring, hpoint⟩
        exact hvisit ⟨he, hring, fun _ => hpoint⟩
    rw [hkept]
    exact ⟨by omega, fun hc => absurd hc hvisit⟩

lemma eventually_sent (hf : r.Fair) (hl : r.Carries l) (hd : 1 < (conf i).encapRingQueueNum) (n : ℕ) :
    ∃ m ≥ n, ((l n).frames i).length ≤ (r.gateway i m).wire.length := by
  have hreach : ∃ m ≥ n, ((l n).frames i).length ≤ (r.gateway i m).sndHead 1 := by
    apply eventually_reaches (r.sndHead_mono i 1) _ fun m _ _ => sends_ring hf hd m
    rintro m hm hlt ⟨hevent, hring⟩
    obtain ⟨o, head, wire, heq, -, hhead⟩ := sendFrame_eq (conf i) (r.gateway i m)
    have hlen : (r.gateway i m).sndHead 1 < ((r.gateway i m).snd.ring 1).length := by
      rw [(hl.gateway i m).sending.ring_length]
      exact hlt.trans_le (frames_grow hl hm).length_le
    rw [hring] at hhead
    rw [← Option.some.inj (step_of_event hevent), heq]
    simp only
    rw [hhead (Rings.waiting_ne_nil hlen)]
    exact Nat.lt_succ_self _
  obtain ⟨m, hm, hsent⟩ := hreach
  exact ⟨m, hm, by rwa [(hl.gateway i m).sending.wire_length]⟩

lemma eventually_heard (hf : r.Fair) (hl : r.Carries l) {n bound : ℕ}
    (hbound : bound ≤ (r.gateway (source i) n).wire.length) :
    ∃ m ≥ n, bound ≤ ((r.gateway i m).rcv.ring 0).length := by
  refine eventually_reaches (monotone_nat_of_le_succ fun m => (Rings.ring_mono (r.grows i m).rcv 0).length_le)
    (fun m _ _ hhears => ?_) fun m hm hlt => hf.hears i m ?_
  · obtain ⟨data, dataLen, protocolType, hevent⟩ := hhears
    obtain ⟨g', -, hpair⟩ := Option.map_eq_some_iff.mp (r.next m)
    have hcarry := congrArg (fun net => net.carried i) (Prod.mk.inj hpair).1
    simp only [hevent, carry, Function.update_self] at hcarry
    have hnow := hl.carried i m
    have hnext := hl.carried i (m + 1)
    omega
  · rw [hl.carried]
    exact hlt.trans_le (hbound.trans (hl.wire_mono (source i) hm))

end Run

/-- In a run in which every thread has its turn again and again and every line brings what is sent on
it, each PDU that a gateway has got from its users is handed to the users of all who listen to it. -/
theorem every_pdu_delivered (hs : ∀ i, Serves (conf i) (env i))
    (hrings : ∀ i, 2 ≤ (conf i).rcvRingQueueNum ∧ 2 ≤ (conf i).encapRingQueueNum)
    (r : Run source conf env) (hf : r.Fair) (i : ι) (n : ℕ) :
    ∃ m ≥ n, (acceptedPdus (r.gateway (source i) n)).map (etherFrame (conf i) 1) <+: (r.gateway i m).user := by
  obtain ⟨l, hl⟩ := r.exists_lines hs
  obtain ⟨hrcv, hencap⟩ := hrings i
  obtain ⟨hrcv', hencap'⟩ := hrings (source i)
  -- the source takes the PDUs from its users into ring 1, and out of it
  obtain ⟨m₁, hm₁, htaken⟩ :=
    Run.eventually_decapsulated hf hrcv' (le_refl ((r.gateway (source i) n).rcv.ring 1).length)
  have hentered (m : ℕ) (hm : m₁ ≤ m) :
      (acceptedPdus (r.gateway (source i) n)).length ≤ ((r.gateway (source i) m).encap.ring 1).length := by
    have hhead := htaken.trans (r.rcvHead_mono (source i) 1 hm)
    have hring := Rings.ring_mono (r.rcv_grows (source i) (hm₁.trans hm)) 1
    have hfirst : (r.gateway (source i) n).rcv.ring 1 <+: (r.gateway (source i) m).rcv.taken 1 :=
      Rings.prefix_taken hring hhead
    rw [(hl.gateway (source i) m).wired.entered, acceptedPdus, List.length_map]
    exact (hfirst.filterMap entered).length_le
  obtain ⟨m₂, hm₂, hfetched⟩ := Run.eventually_encapsulated hs hf hl hencap' hentered
  -- their packets go out in frames
  obtain ⟨m₃, hm₃, hframed⟩ := Run.eventually_framed hs hf hl hencap' m₂
  have hends : (acceptedPdus (r.gateway (source i) n)).length ≤ ends ((l m₃).frames (source i)).flatten := by
    have hconveys := hl.gateway (source i) m₂
    apply le_trans _ (ends_mono hframed)
    rw [hconveys.sending.ends hconveys.wired]
    exact hfetched
  obtain ⟨m₄, hm₄, hsent⟩ := Run.eventually_sent hf hl hencap' m₃
  -- the frames come in, and the PDUs go out to the users
  obtain ⟨m₅, hm₅, hheard⟩ := Run.eventually_heard hf hl hsent
  obtain ⟨m₆, hm₆, hdecapsulated⟩ := Run.eventually_decapsulated hf (by omega) hheard
  have hhanded (m : ℕ) (hm : m₆ ≤ m) :
      (acceptedPdus (r.gateway (source i) n)).length ≤ ((r.gateway i m).encap.ring 0).length := by
    have hhead := hdecapsulated.trans (r.rcvHead_mono i 0 hm)
    have hfirst : (l m₃).frames (source i) <+: ((l m).frames (source i)).take ((r.gateway i m).rcv.head 0) :=
      List.prefix_take_iff.mpr ⟨Run.frames_grow hl (by omega), hhead⟩
    obtain ⟨more, hmore⟩ := hfirst
    rw [hl.handed_on, ← hmore, List.flatten_append, ends_append]
    exact hends.trans (Nat.le_add_right _ _)
  obtain ⟨m₇, hm₇, hdelivered⟩ := Run.eventually_encapsulated hs hf hl (by omega) hhanded
  refine ⟨m₇, by omega, ?_⟩
  have hconveys := hl.gateway i m₇
  have huser : (r.gateway i m₇).user.length = (r.gateway i m₇).encapHead 0 := by
    rw [hconveys.hearing.user, List.length_map, hconveys.wired.encapSound.taken_length]
    rfl
  apply List.prefix_of_prefix_length_le ((r.accepted_grows (source i) (by omega)).map _) ((hl m₇).1.inOrder i)
  rw [List.length_map]
  exact hdelivered.trans huser.ge

section Sample

def sampleEvent (net : Network Bool) (n : ℕ) : Bool × GatewayEvent :=
  if n = 0 then (false, sampleArrival 60) else (n % 2 = 1, sampleTurn net (n % 2 = 1) (n / 2 % 4))

lemma sampleEvent_admitted (net : Network Bool) (n : ℕ) : net.Admits not (sampleEvent net n) := by
  rw [sampleEvent]
  split_ifs
  · exact sampleArrival_admitted not net false le_rfl (by decide)
  · exact sampleTurn_admitted net _ _

def sampleState : ℕ → Network Bool
  | 0 => initial
  | n + 1 =>
    match (sampleState n).step (fun _ => samplePort) (fun _ => samplePortEnv) (sampleEvent (sampleState n) n) with
    | some (net, _) => net
    | none => sampleState n

lemma sampleState_conveys (n : ℕ) :
    ∃ l, (sampleState n).Conveys not (fun _ => samplePort) (fun _ => samplePortEnv) l ∧
      (sampleState n).step (fun _ => samplePort) (fun _ => samplePortEnv) (sampleEvent (sampleState n) n) =
        some (sampleState (n + 1), ()) := by
  induction n with
  | zero =>
    obtain ⟨net', l', hstep, -⟩ := (conveys_initial not (fun _ => samplePort) fun _ => samplePortEnv).step
      (fun _ => samplePort_serves) (sampleEvent_admitted initial 0)
    refine ⟨_, conveys_initial _ _ _, ?_⟩
    simp only [sampleState, hstep]
  | succ n ih =>
    obtain ⟨l, hl, hstep⟩ := ih
    obtain ⟨net', l', hstep', hl', -⟩ := hl.step (fun _ => samplePort_serves)
      (sampleEvent_admitted (sampleState n) n)
    obtain rfl := (Prod.mk.inj (Option.some.inj (hstep'.symm.trans hstep))).1
    obtain ⟨net'', -, hnext, -⟩ := hl'.step (fun _ => samplePort_serves)
      (sampleEvent_admitted (sampleState (n + 1)) (n + 1))
    refine ⟨l', hl', ?_⟩
    rw [hnext, sampleState, hnext]

def sampleRun : Run not (fun _ => samplePort) fun _ => samplePortEnv where
  state := sampleState
  event n := sampleEvent (sampleState n) n
  start := rfl
  admits n := sampleEvent_admitted _ n
  next n := (sampleState_conveys n).choose_spec.2

/-- When gateway `i` has turn `k` of a later round. -/
def sampleTime (n k : ℕ) (i : Bool) : ℕ := 8 * (n + 1) + 2 * k + i.toNat

lemma sampleTime_ge (n k : ℕ) (i : Bool) : n ≤ sampleTime n k i := by
  rw [sampleTime]
  omega

lemma sampleRun_event (n : ℕ) {k : ℕ} (hk : k < 4) (i : Bool) :
    sampleRun.event (sampleTime n k i) = (i, sampleTurn (sampleRun.state (sampleTime n k i)) i k) := by
  have hi : i.toNat < 2 := i.toNat_lt
  have hparity : decide (sampleTime n k i % 2 = 1) = i := by
    have hmod : sampleTime n k i % 2 = i.toNat := by
      rw [sampleTime]
      omega
    rw [hmod]
    cases i <;> rfl
  have hslot : sampleTime n k i / 2 % 4 = k := by
    rw [sampleTime]
    omega
  have hpos : sampleTime n k i ≠ 0 := by
    rw [sampleTime]
    omega
  change sampleEvent _ _ = _
  rw [sampleEvent, if_neg hpos, hslot, hparity]
  rfl

lemma sampleRun_hears (i : Bool) (n : ℕ)
    (h : (sampleRun.state n).carried i < (sampleRun.gateway (!i) n).wire.length) :
    ∃ m ≥ n, sampleRun.Hears i m := by
  by_contra hnever
  have hcarried (m : ℕ) (hm : n ≤ m) : (sampleRun.state m).carried i = (sampleRun.state n).carried i := by
    induction m, hm using Nat.le_induction with
    | base => rfl
    | succ m hm ih => rw [Run.carried_next fun hc => hnever ⟨m, hm, hc⟩, ih]
  obtain ⟨l, hl⟩ := sampleRun.exists_lines fun _ => samplePort_serves
  have hwire := hl.wire_mono (!i) (sampleTime_ge n 3 i)
  have hlt : (sampleRun.state (sampleTime n 3 i)).carried i <
      (sampleRun.gateway (!i) (sampleTime n 3 i)).wire.length := by
    rw [hcarried _ (sampleTime_ge n 3 i)]
    exact h.trans_le hwire
  have hevent := sampleRun_event n (show 3 < 4 by decide) i
  have hbytes : ((sampleRun.state (sampleTime n 3 i)).gateway !i).wire[
      (sampleRun.state (sampleTime n 3 i)).carried i]? = some _ := List.getElem?_eq_getElem hlt
  simp only [sampleTurn, hbytes] at hevent
  exact hnever ⟨_, sampleTime_ge n 3 i, _, _, _, hevent⟩

lemma sampleRun_fair : sampleRun.Fair where
  decapsulates i n := ⟨_, sampleTime_ge n 0 i, _, _, _, sampleRun_event n (by decide) i⟩
  encapsulates i n := ⟨_, sampleTime_ge n 1 i, sampleRun_event n (by decide) i⟩
  sends i n := ⟨_, sampleTime_ge n 2 i, sampleRun_event n (by decide) i⟩
  hears := sampleRun_hears

/-- The packet of the user is handed over at the other end of the line. -/
theorem sample_pdu_delivered :
    ∃ m ≥ 1, (acceptedPdus (sampleRun.gateway false 1)).map (etherFrame samplePort 1) <+:
      (sampleRun.gateway true m).user :=
  every_pdu_delivered (fun _ => samplePort_serves) (fun _ => ⟨by decide, by decide⟩) sampleRun
    sampleRun_fair true 1

end Sample

end Network

end Fengtai
