import Fengtai.Receive.MultiPdu
import Fengtai.Send.FrameCodec

set_option autoImplicit false

/-! Packing PDUs behind each other: `encapsulate_pdu`, and what `decapsulate_pdu` makes of it. -/

namespace Fengtai.Send

open Library.Words Receive

def pduBufferSize : ℕ := 8192 - 256

/-- What `encapsulate_pdu` keeps for a mapping; of `pdu_buffer` the bytes up to its offset. `sent`
is what went to `snd_pkt`. -/
structure PduEncap where
  pduBuffer : List UInt8
  framePayload : FramePayload
  output : Output
  sent : List (List UInt8)

def PduEncap.initial : PduEncap := ⟨[], .zero, ⟨.fresh, false⟩, []⟩

def initPduPayload (p : FramePayload) : FramePayload :=
  { p with
    maxPayload := pduBufferSize - sizeofL2L1MsgHeader
    usedPayload := 0
    usablePayload := pduBufferSize - sizeofL2L1MsgHeader }

/-- What a packet brings: the table its header is taken from, that header when it is put in front
anew, and the buffer as it is left. -/
structure RouterPdu where
  routerTableId : ℕ
  header : Option (List UInt8)
  mbuf : RteMbuf

/-- The first part of `encapsulate_pdu`: a return packet loses its header. The new one is read
behind the pointer `router_header` into the packet, which hides the global table. For a forward
packet `router_table_id` keeps what was on the stack. -/
def readRouterPdu (rc : RouterConf) (stale : ℕ) (m : RteMbuf) : Option RouterPdu :=
  if rc.isRtn m.data 0 then
    (rc.decideRouterTable m.data 0).map fun r =>
      { routerTableId := r.1
        header := some (window r.2 (r.1 * rc.sizeofRouterHeader) (rc.routerHeaderSize r.1))
        mbuf := { m with data := r.2 }.adj (rc.sizeAt r.2 0) }
  else some ⟨stale, none, m⟩

/-- `data_len` of a packet of `len` bytes when it goes into the buffer. -/
def RouterPdu.dataLen (rc : RouterConf) (len : ℕ) (r : RouterPdu) : ℕ :=
  if r.header.isSome then u16 (len + rc.routerHeaderSize r.routerTableId) else len

namespace PduEncap

/-- The copies into `pdu_buffer`, one behind the other. -/
def write (bytes : List UInt8) (s : PduEncap) : PduEncap :=
  if s.pduBuffer.length + bytes.length ≤ pduBufferSize then
    { s with pduBuffer := s.pduBuffer ++ bytes }
  else { s with output := { s.output with fault := true } }

def put (rc : RouterConf) (len : ℕ) (r : RouterPdu) (s : PduEncap) : PduEncap :=
  let s := s.write (be16 (r.dataLen rc len) ++ r.header.getD [] ++ r.mbuf.bytes)
  { s with
    framePayload := s.framePayload.update (u16 (r.dataLen rc len + 2))
    output := { s.output with pool := s.output.pool.free r.mbuf.addr } }

def flush (env : SendEnv) (conf : AppConf) (s : PduEncap) : PduEncap :=
  let inner := encodeInnerHeader conf (env.macRev s.output.pool.allocs) s.pduBuffer.length
  let s :=
    match s.output.pool.alloc env.toDpdk with
    | (none, pool) => { s with output := { s.output with pool := pool } }
    | (some m, pool) =>
      { s with
        output := { s.output with pool := pool.free m.addr }
        sent := s.sent ++ [inner ++ s.pduBuffer] }
  { s with pduBuffer := [], framePayload := initPduPayload s.framePayload }

def openPayload (s : PduEncap) : PduEncap :=
  if s.framePayload.maxPayload = 0 then { s with framePayload := initPduPayload s.framePayload }
  else s

end PduEncap

/-- `encapsulate_pdu`; no packet forces the buffer out. -/
def encapsulatePdu (env : SendEnv) (conf : AppConf) (rc : RouterConf) (stale : ℕ)
    (mbuf : Option RteMbuf) (s : PduEncap) : PduEncap :=
  match mbuf with
  | none =>
    let s := s.openPayload
    if s.pduBuffer.length ≠ 0 then
      let s := s.flush env conf
      { s with framePayload := s.framePayload.update 0 }
    else s
  | some m =>
    if pduBufferSize ≤ m.dataLen then
      { s with output := { s.output with pool := s.output.pool.free m.addr } }
    else
      match readRouterPdu rc stale m with
      | none => { s with output := { s.output with fault := true } }
      | some r =>
        let s := s.openPayload
        if m.dataLen + rc.routerHeaderSize r.routerTableId < s.framePayload.usablePayload ∧
            m.dataLen ≠ 0 then s.put rc m.dataLen r
        else if s.pduBuffer.length ≠ 0 then (s.flush env conf).put rc m.dataLen r
        else s

/-- Packets one after the other, each with what `router_table_id` starts from. -/
def encapsulatePdus (env : SendEnv) (conf : AppConf) (rc : RouterConf) (items : List (RteMbuf × ℕ))
    (s : PduEncap) : PduEncap :=
  items.foldl (fun s x => encapsulatePdu env conf rc x.2 (some x.1) s) s

/-- Frames as they come in, each to `decapsulate_pdu`. -/
def decapsulatePdus (env : Dpdk) (rc : RouterConf) : List RteMbuf → PduDecap → Option PduDecap
  | [], s => some s
  | m :: ms, s => (decapsulatePdu env rc m (multiPduFrameSize m.data) s).bind (decapsulatePdus env rc ms)

def routerPayload (rc : RouterConf) (m : RteMbuf) : List UInt8 :=
  m.bytes.drop (rc.sizeAt m.data 0)

/-- What a run that ends with a force-send is to come to: every packet is handed on, in order,
with its payload. -/
def HandsOn (env : SendEnv) (conf : AppConf) (rc : RouterConf) (items : List (RteMbuf × ℕ))
    (stale : ℕ) : Prop :=
  let s := encapsulatePdu env conf rc stale none (encapsulatePdus env conf rc items .initial)
  s.output.fault = false ∧ ∀ (env' : Dpdk) (ms : List RteMbuf) (r : PduDecap),
    (∀ n, env'.allocates n = true) → ms.map RteMbuf.bytes = s.sent →
      ∃ r', decapsulatePdus env' rc ms r = some r' ∧
        r'.routed.map (routerPayload rc) =
          r.routed.map (routerPayload rc) ++ items.map fun x => routerPayload rc x.1

/-- A packet that `encapsulate_pdu` is meant for: its router header is complete, and it is shorter
than the buffer. -/
structure RouterPacket (rc : RouterConf) (m : RteMbuf) : Prop where
  complete : rc.routerHeaderLen +
    2 * (rc.lastEntry (window m.data 0 rc.routerHeaderLen) + 1) ≤ m.dataLen
  short : m.dataLen < pduBufferSize

structure Placeable (rc : RouterConf) (stale : ℕ) (m : RteMbuf) (s : PduEncap) : Prop where
  forward : rc.isRtn m.data 0 = false
  room : if m.dataLen + rc.routerHeaderSize stale < s.openPayload.framePayload.usablePayload then
      s.pduBuffer.length + 2 + m.dataLen ≤ pduBufferSize
    else s.pduBuffer ≠ [] ∧ 2 + m.dataLen ≤ pduBufferSize

def EachCall (env : SendEnv) (conf : AppConf) (rc : RouterConf)
    (P : ℕ → RteMbuf → PduEncap → Prop) : PduEncap → List (RteMbuf × ℕ) → Prop
  | _, [] => True
  | s, x :: xs => P x.2 x.1 s ∧ EachCall env conf rc P (encapsulatePdu env conf rc x.2 (some x.1) s) xs

def framed (ps : List (List UInt8)) : List UInt8 := ps.flatMap fun p => be16 p.length ++ p

@[simp] lemma framed_nil : framed [] = [] := rfl

lemma framed_cons (p : List UInt8) (ps : List (List UInt8)) :
    framed (p :: ps) = be16 p.length ++ p ++ framed ps := rfl

lemma framed_concat (ps : List (List UInt8)) (p : List UInt8) :
    framed (ps ++ [p]) = framed ps ++ (be16 p.length ++ p) := by
  simp [framed]

lemma framed_eq_nil {ps : List (List UInt8)} : framed ps = [] ↔ ps = [] := by
  cases ps <;> simp [framed, be16]

structure ForwardBytes (rc : RouterConf) (p : List UInt8) : Prop where
  complete : rc.routerHeaderLen + 2 * (rc.lastEntry (p.take rc.routerHeaderLen) + 1) ≤ p.length
  short : p.length < pduBufferSize
  forward : rc.directionRtn (p.take rc.routerHeaderLen) = false

lemma window_take (mem : Memory) {k n : ℕ} (h : k ≤ n) : window mem 0 k = (window mem 0 n).take k := by
  obtain ⟨j, rfl⟩ := Nat.exists_eq_add_of_le h
  rw [window_add, List.take_left' (window_length _ _ _)]

lemma RouterPacket.forwardBytes {rc : RouterConf} {m : RteMbuf} (h : RouterPacket rc m)
    (hf : rc.isRtn m.data 0 = false) : ForwardBytes rc m.bytes := by
  have hle := h.complete
  have htake : window m.data 0 rc.routerHeaderLen = m.bytes.take rc.routerHeaderLen :=
    window_take _ (by omega)
  rw [RouterConf.isRtn, htake] at hf
  rw [htake] at hle
  exact ⟨by simpa [RteMbuf.bytes] using hle, by simpa [RteMbuf.bytes] using h.short, hf⟩

lemma ForwardBytes.fields {rc : RouterConf} {p : List UInt8} (h : ForwardBytes rc p) {mem : Memory}
    (hmem : Holds mem 0 p) :
    rc.isRtn mem 0 = false ∧ rc.sizeAt mem 0 ≤ p.length ∧
      rc.sizeAt mem 0 = u16 (rc.routerHeaderLen + 2 * (rc.lastEntry (p.take rc.routerHeaderLen) + 1)) := by
  have hle := h.complete
  have hshort := h.short
  have htake : window mem 0 rc.routerHeaderLen = p.take rc.routerHeaderLen := by
    rw [window_take mem (show rc.routerHeaderLen ≤ p.length by omega)]
    exact congrArg _ hmem
  simp only [pduBufferSize] at hshort
  rw [RouterConf.isRtn, RouterConf.sizeAt, htake]
  refine ⟨h.forward, ?_, rfl⟩
  rw [u16_of_lt (by omega)]
  exact hle

lemma adj_holds {m : RteMbuf} {xs ys : List UInt8} {n : ℕ} (hn : n = xs.length)
    (hmem : Holds m.data 0 (xs ++ ys)) (hlen : m.dataLen = (xs ++ ys).length) :
    Holds (m.adj n).data 0 ys ∧ (m.adj n).dataLen = ys.length := by
  have hle : ¬ m.dataLen < n := by
    rw [hlen, List.length_append]
    omega
  have htail := ((holds_append _ _ _ _).mp hmem).2
  simp only [RteMbuf.adj, if_neg hle]
  refine ⟨?_, ?_⟩
  · simpa [Holds, window, ← hn] using htail
  · rw [hlen, List.length_append]
    omega

lemma fill_eq {d : RteMbuf} {bytes : List UInt8} (h : bytes.length ≤ mbufTailroom) :
    ∃ d', d.fill bytes = some d' ∧ d'.bytes = bytes := by
  refine ⟨_, if_pos h, ?_⟩
  exact holds_overwrite _ _

lemma takePdu_forward {rc : RouterConf} {p rest : List UInt8} (hp : ForwardBytes rc p)
    {m : RteMbuf} (hmem : Holds m.data 0 (p ++ rest)) (hlen : m.dataLen = (p ++ rest).length)
    (d : RteMbuf) (s : PduDecap) :
    ∃ m' d', PduDecap.takePdu rc m d p.length s = some (m', s.route d') ∧ d'.bytes = p ∧
      Holds m'.data 0 rest ∧ m'.dataLen = rest.length := by
  obtain ⟨hfwd, hsize, -⟩ := hp.fields ((holds_append _ _ _ _).mp hmem).1
  have hshort := hp.short
  simp only [pduBufferSize] at hshort
  have hroom : p.length ≤ mbufTailroom := by
    rw [mbufTailroom]
    omega
  obtain ⟨d', hd', hbytes⟩ := fill_eq (d := d) hroom
  have hwindow : window m.data 0 p.length = p := ((holds_append _ _ _ _).mp hmem).1
  have hsplit : p.take (rc.sizeAt m.data 0) ++ (p.drop (rc.sizeAt m.data 0) ++ rest) = p ++ rest := by
    rw [← List.append_assoc, List.take_append_drop]
  rw [← hsplit] at hmem hlen
  obtain ⟨hmem₁, hlen₁⟩ := adj_holds (n := rc.sizeAt m.data 0) (by simp [hsize]) hmem hlen
  obtain ⟨hmem₂, hlen₂⟩ := adj_holds (n := sub16 p.length (rc.sizeAt m.data 0))
    (by rw [sub16_of_le hsize (by omega), List.length_drop]) hmem₁ hlen₁
  refine ⟨_, d', ?_, hbytes, hmem₂, hlen₂⟩
  simp only [PduDecap.takePdu, hfwd, hwindow, hd', Bool.false_eq_true, if_false, Option.map_some]

lemma loop_framed {env : Dpdk} (halloc : ∀ n, env.allocates n = true) {rc : RouterConf}
    {ps : List (List UInt8)} (hps : ∀ p ∈ ps, ForwardBytes rc p) {m : RteMbuf}
    (hmem : Holds m.data 0 (framed ps)) (hlen : m.dataLen = (framed ps).length)
    (protocolType total k : ℕ) (hsize : total + (framed ps).length ≤ pduBufferSize)
    (hk : ps.length < k) (s : PduDecap) :
    ∃ s', PduDecap.loop env rc protocolType (total + (framed ps).length : ℕ) k m total s = some s' ∧
      ∃ ds, s'.routed = s.routed ++ ds ∧ ds.map RteMbuf.bytes = ps := by
  induction ps generalizing m total k s with
  | nil =>
    obtain ⟨k, rfl⟩ := Nat.exists_eq_succ_of_ne_zero (by omega : k ≠ 0)
    refine ⟨{ s with pool := s.pool.free m.addr }, ?_, [], by simp, rfl⟩
    simp [PduDecap.loop]
  | cons p ps ih =>
    obtain ⟨k, rfl⟩ := Nat.exists_eq_succ_of_ne_zero (by omega : k ≠ 0)
    have hp := hps p (by simp)
    have hshort := hp.short
    rw [framed_cons, List.append_assoc] at hmem hlen hsize
    rw [framed_cons, List.append_assoc]
    simp only [List.length_append, be16_length, pduBufferSize] at hsize hshort ⊢
    have hload : bswap16 (load16 m.data 0) = p.length := by
      rw [load16_be16 ((holds_append _ _ _ _).mp hmem).1, u16_of_lt (by omega)]
    obtain ⟨hmem₁, hlen₁⟩ := adj_holds (n := 2) rfl hmem hlen
    have hpool : s.pool.alloc env = (some ⟨.allocated s.pool.allocs, env.room s.pool.allocs, 0, 0⟩,
        { s.pool with allocs := s.pool.allocs + 1 }) := by
      simp [Pool.alloc, halloc]
    obtain ⟨m', d', htake, hbytes, hmem', hlen'⟩ := takePdu_forward hp hmem₁ hlen₁
      ⟨.allocated s.pool.allocs, env.room s.pool.allocs, 0, protocolType⟩
      { s with pool := { s.pool with allocs := s.pool.allocs + 1 } }
    obtain ⟨s', hloop, ds, hrouted, hds⟩ := ih (fun q hq => hps q (by simp [hq])) hmem' hlen'
      (total + p.length + 2) k (by rw [pduBufferSize]; omega) (by simpa using hk)
      (PduDecap.route d' { s with pool := { s.pool with allocs := s.pool.allocs + 1 } })
    refine ⟨s', ?_, d' :: ds, ?_, ?_⟩
    · have hlt : (total : ℤ) < (total + (2 + (p.length + (framed ps).length)) : ℕ) := by omega
      have htotal : u16 (total + p.length + 2) = total + p.length + 2 := u16_of_lt (by omega)
      rw [PduDecap.loop, if_pos hlt]
      simp only [hload, hpool, htake, htotal]
      rw [if_neg (by rw [decapMbufSize]; omega)]
      rw [show total + (2 + (p.length + (framed ps).length)) =
        total + p.length + 2 + (framed ps).length by omega]
      exact hloop
    · rw [hrouted]
      simp [PduDecap.route]
    · rw [List.map_cons, hbytes, hds]

def IsFrame (conf : AppConf) (frame : List UInt8) (ps : List (List UInt8)) : Prop :=
  (framed ps).length ≤ pduBufferSize ∧
    ∃ macRev, frame = encodeInnerHeader conf macRev (framed ps).length ++ framed ps

lemma multiPduFrameSize_eq {conf : AppConf} (hbb : conf.portToPktType ≠ bbframePack)
    (hfwd : conf.portToPktType ≠ enumFwdTxFwdData) {mem : Memory} {macRev : UInt8 × UInt8} {n : ℕ}
    (hn : n ≤ pduBufferSize) (hmem : Holds mem 0 (encodeInnerHeader conf macRev n)) :
    multiPduFrameSize mem = n := by
  have hmsg : bswap16 (load16 mem 18) = 10 + n := by
    simp only [encodeInnerHeader, holds_append, hbb, hfwd, or_self, if_false, List.length_append,
      conf.localMac_length, List.length_cons, List.length_nil, be16_length] at hmem
    obtain ⟨⟨-, hlen⟩, -⟩ := hmem
    simp only [pduBufferSize] at hn
    rw [load16_be16 hlen]
    exact u16_of_lt (by simp only [sizeofL2L1MsgHeader, sizeofMacFrameHeader]; omega)
  simp only [multiPduFrameSize, hmsg, sizeofL2L1MsgHeader, sizeofMacFrameHeader]
  omega

lemma decapsulatePdu_frame {env : Dpdk} (halloc : ∀ n, env.allocates n = true) {conf : AppConf}
    (hbb : conf.portToPktType ≠ bbframePack) (hfwd : conf.portToPktType ≠ enumFwdTxFwdData)
    {rc : RouterConf} {ps : List (List UInt8)} (hps : ∀ p ∈ ps, ForwardBytes rc p) {m : RteMbuf}
    (hm : IsFrame conf m.bytes ps) (s : PduDecap) :
    ∃ s', decapsulatePdu env rc m (multiPduFrameSize m.data) s = some s' ∧
      ∃ ds, s'.routed = s.routed ++ ds ∧ ds.map RteMbuf.bytes = ps := by
  obtain ⟨hle, macRev, hbytes⟩ := hm
  have hlen : m.dataLen = (encodeInnerHeader conf macRev (framed ps).length ++ framed ps).length := by
    rw [← hbytes, RteMbuf.bytes, window_length]
  have hmem : Holds m.data 0 (encodeInnerHeader conf macRev (framed ps).length ++ framed ps) := by
    rw [Holds, ← hlen]
    exact hbytes
  have hsize := multiPduFrameSize_eq hbb hfwd hle ((holds_append _ _ _ _).mp hmem).1
  obtain ⟨hmem', hlen'⟩ := adj_holds (n := sizeofL2L1MsgHeader)
    (encodeInnerHeader_length conf macRev (framed ps).length).symm hmem hlen
  have hcount : ∀ qs : List (List UInt8), 2 * qs.length ≤ (framed qs).length := by
    intro qs
    induction qs with
    | nil => simp
    | cons q qs ih =>
      rw [framed_cons]
      simp only [List.length_append, be16_length, List.length_cons]
      omega
  have hk : ps.length < pduTurns := by
    have hps := hcount ps
    simp only [pduBufferSize, pduTurns] at hle ⊢
    omega
  have hloop := loop_framed halloc hps hmem' hlen' m.protocolType 0 pduTurns (by omega) hk s
  rw [Nat.zero_add] at hloop
  rw [decapsulatePdu, hsize]
  exact hloop

lemma decapsulatePdus_frames {env : Dpdk} (halloc : ∀ n, env.allocates n = true) {conf : AppConf}
    (hbb : conf.portToPktType ≠ bbframePack) (hfwd : conf.portToPktType ≠ enumFwdTxFwdData)
    {rc : RouterConf} {gs : List (List (List UInt8))} (hgs : ∀ p ∈ gs.flatten, ForwardBytes rc p)
    {ms : List RteMbuf} (hms : List.Forall₂ (IsFrame conf) (ms.map RteMbuf.bytes) gs) (s : PduDecap) :
    ∃ s', decapsulatePdus env rc ms s = some s' ∧
      ∃ ds, s'.routed = s.routed ++ ds ∧ ds.map RteMbuf.bytes = gs.flatten := by
  induction gs generalizing ms s with
  | nil =>
    have hnil : ms = [] := by simpa using hms
    subst hnil
    exact ⟨s, rfl, [], by simp, rfl⟩
  | cons g gs ih =>
    cases ms with
    | nil => simp at hms
    | cons m ms =>
      obtain ⟨hm, hms⟩ := List.forall₂_cons.mp hms
      rw [List.flatten_cons] at hgs
      obtain ⟨s₁, h₁, ds₁, hrouted₁, hds₁⟩ := decapsulatePdu_frame halloc hbb hfwd
        (fun p hp => hgs p (List.mem_append_left _ hp)) hm s
      obtain ⟨s₂, h₂, ds₂, hrouted₂, hds₂⟩ := ih (fun p hp => hgs p (List.mem_append_right _ hp)) hms s₁
      refine ⟨s₂, ?_, ds₁ ++ ds₂, ?_, ?_⟩
      · rw [decapsulatePdus, h₁, Option.bind_some, h₂]
      · rw [hrouted₂, hrouted₁, List.append_assoc]
      · rw [List.map_append, hds₁, hds₂, List.flatten_cons]

/-- What has come of the packets `ps`: frames, and the buffer. -/
structure Packs (conf : AppConf) (ps : List (List UInt8)) (s : PduEncap) : Prop where
  sound : s.output.fault = false
  split : ∃ gs g, gs.flatten ++ g = ps ∧ s.pduBuffer = framed g ∧
    (framed g).length ≤ pduBufferSize ∧ List.Forall₂ (IsFrame conf) s.sent gs

namespace Packs

variable {env : SendEnv} {conf : AppConf} {rc : RouterConf} {ps : List (List UInt8)} {s : PduEncap}

lemma initial : Packs conf [] .initial := ⟨rfl, [], [], rfl, rfl, by simp, by simp [PduEncap.initial]⟩

lemma openPayload (h : Packs conf ps s) : Packs conf ps s.openPayload := by
  simp only [PduEncap.openPayload]
  split_ifs
  · exact ⟨h.sound, h.split⟩
  · exact h

lemma flush (h : Packs conf ps s) (halloc : ∀ n, env.allocates n = true) :
    Packs conf ps (s.flush env conf) ∧ (s.flush env conf).pduBuffer = [] := by
  obtain ⟨gs, g, hps, hbuf, hle, hsent⟩ := h.split
  have hpool : s.output.pool.alloc env.toDpdk =
      (some ⟨.allocated s.output.pool.allocs, env.room s.output.pool.allocs, 0, 0⟩,
        { s.output.pool with allocs := s.output.pool.allocs + 1 }) := by
    simp [Pool.alloc, halloc]
  simp only [PduEncap.flush, hpool]
  refine ⟨⟨h.sound, gs ++ [g], [], by simpa using hps, rfl, by simp, ?_⟩, trivial⟩
  refine List.rel_append hsent (.cons ⟨hle, env.macRev s.output.pool.allocs, ?_⟩ .nil)
  rw [hbuf]

lemma put (h : Packs conf ps s) (stale : ℕ) {m : RteMbuf}
    (hroom : s.pduBuffer.length + 2 + m.dataLen ≤ pduBufferSize) :
    Packs conf (ps ++ [m.bytes]) (s.put rc m.dataLen ⟨stale, none, m⟩) := by
  obtain ⟨gs, g, hps, hbuf, hle, hsent⟩ := h.split
  have hlen : m.bytes.length = m.dataLen := by simp [RteMbuf.bytes]
  have hfits : s.pduBuffer.length + (be16 m.dataLen ++ [] ++ m.bytes).length ≤ pduBufferSize := by
    simp only [List.length_append, be16_length, List.length_nil, hlen]
    omega
  have hput : s.put rc m.dataLen ⟨stale, none, m⟩ =
      { s with
        pduBuffer := s.pduBuffer ++ (be16 m.dataLen ++ [] ++ m.bytes)
        framePayload := s.framePayload.update (u16 (m.dataLen + 2))
        output := { s.output with pool := s.output.pool.free m.addr } } := by
    simp only [PduEncap.put, RouterPdu.dataLen, Option.isSome_none, Bool.false_eq_true, if_false,
      Option.getD_none, PduEncap.write, if_pos hfits]
  rw [hput]
  refine ⟨h.sound, gs, g ++ [m.bytes], ?_, ?_, ?_, hsent⟩
  · rw [← List.append_assoc, hps]
  · rw [framed_concat, hbuf, hlen, List.append_nil]
  · rw [hbuf] at hfits
    rw [framed_concat, List.length_append, hlen]
    simpa using hfits

lemma call (h : Packs conf ps s) (halloc : ∀ n, env.allocates n = true) {stale : ℕ} {m : RteMbuf}
    (hm : RouterPacket rc m) (hplace : Placeable rc stale m s) :
    Packs conf (ps ++ [m.bytes]) (encapsulatePdu env conf rc stale (some m) s) := by
  have hshort := hm.short
  have hcomplete := hm.complete
  have hread : readRouterPdu rc stale m = some ⟨stale, none, m⟩ := by
    simp [readRouterPdu, hplace.forward]
  have hbuf : s.openPayload.pduBuffer = s.pduBuffer := by
    simp only [PduEncap.openPayload]
    split_ifs <;> rfl
  have hroom := hplace.room
  simp only [encapsulatePdu, hread, if_neg (not_le.mpr hshort)]
  by_cases hfit : m.dataLen + rc.routerHeaderSize stale < s.openPayload.framePayload.usablePayload
  · rw [if_pos hfit] at hroom
    rw [if_pos ⟨hfit, by omega⟩]
    exact h.openPayload.put stale (by rw [hbuf]; exact hroom)
  · rw [if_neg hfit] at hroom
    rw [if_neg (fun hcon => hfit hcon.1), hbuf, if_pos (by simpa using hroom.1)]
    obtain ⟨hflush, hempty⟩ := h.openPayload.flush halloc
    exact hflush.put stale (by rw [hempty]; simpa using hroom.2)

lemma run (h : Packs conf ps s) (halloc : ∀ n, env.allocates n = true)
    {items : List (RteMbuf × ℕ)} (hitems : ∀ x ∈ items, RouterPacket rc x.1)
    (hplace : EachCall env conf rc (Placeable rc) s items) :
    Packs conf (ps ++ items.map fun x => x.1.bytes) (encapsulatePdus env conf rc items s) := by
  induction items generalizing ps s with
  | nil => simpa [encapsulatePdus] using h
  | cons x items ih =>
    have hx := h.call halloc (hitems x (by simp)) hplace.1
    have hrun := ih hx (fun y hy => hitems y (by simp [hy])) hplace.2
    rw [List.append_assoc] at hrun
    exact hrun

lemma force (rc : RouterConf) (h : Packs conf ps s) (halloc : ∀ n, env.allocates n = true)
    (stale : ℕ) :
    Packs conf ps (encapsulatePdu env conf rc stale none s) ∧
      (encapsulatePdu env conf rc stale none s).pduBuffer = [] := by
  simp only [encapsulatePdu]
  split_ifs with hempty
  · obtain ⟨hflush, hnil⟩ := h.openPayload.flush halloc
    exact ⟨⟨hflush.sound, hflush.split⟩, hnil⟩
  · exact ⟨h.openPayload, by simpa using hempty⟩

end Packs

lemma EachCall.forward {env : SendEnv} {conf : AppConf} {rc : RouterConf} {s : PduEncap}
    {items : List (RteMbuf × ℕ)} (h : EachCall env conf rc (Placeable rc) s items) :
    ∀ x ∈ items, rc.isRtn x.1.data 0 = false := by
  induction items generalizing s with
  | nil => simp
  | cons x items ih =>
    intro y hy
    rcases List.mem_cons.mp hy with rfl | hy
    · exact h.1.forward
    · exact ih h.2 y hy

def payloadOf (rc : RouterConf) (p : List UInt8) : List UInt8 :=
  p.drop (u16 (rc.routerHeaderLen + 2 * (rc.lastEntry (p.take rc.routerHeaderLen) + 1)))

lemma ForwardBytes.payload {rc : RouterConf} {m : RteMbuf} (h : ForwardBytes rc m.bytes) :
    routerPayload rc m = payloadOf rc m.bytes := by
  have hmem : Holds m.data 0 m.bytes := by simp [Holds, RteMbuf.bytes]
  rw [routerPayload, (h.fields hmem).2.2, payloadOf]

lemma map_payload {rc : RouterConf} {ms : List RteMbuf}
    (h : ∀ p ∈ ms.map RteMbuf.bytes, ForwardBytes rc p) :
    ms.map (routerPayload rc) = (ms.map RteMbuf.bytes).map (payloadOf rc) := by
  rw [List.map_map]
  apply List.map_congr_left
  intro m hm
  exact (h m.bytes (List.mem_map_of_mem hm)).payload

/-- Forward packets that all find room are handed on, each with its payload and in order. -/
theorem multi_pdu_handed_on (env : SendEnv) (halloc : ∀ n, env.allocates n = true) {conf : AppConf}
    (hbb : conf.portToPktType ≠ bbframePack) (hfwd : conf.portToPktType ≠ enumFwdTxFwdData)
    {rc : RouterConf} {items : List (RteMbuf × ℕ)} (hitems : ∀ x ∈ items, RouterPacket rc x.1)
    (hplace : EachCall env conf rc (Placeable rc) .initial items) (stale : ℕ) :
    HandsOn env conf rc items stale := by
  have hbytes : ∀ p ∈ (items.map Prod.fst).map RteMbuf.bytes, ForwardBytes rc p := by
    intro p hp
    simp only [List.mem_map] at hp
    obtain ⟨m, ⟨x, hx, rfl⟩, rfl⟩ := hp
    exact (hitems x hx).forwardBytes (hplace.forward x hx)
  obtain ⟨hpacks, hempty⟩ := (Packs.initial.run halloc hitems hplace).force rc halloc stale
  rw [List.nil_append] at hpacks
  obtain ⟨gs, g, hps, hbuf, -, hsent⟩ := hpacks.split
  have hg : g = [] := framed_eq_nil.mp (hbuf.symm.trans hempty)
  rw [hg, List.append_nil] at hps
  refine ⟨hpacks.sound, fun env' ms r halloc' hms => ?_⟩
  rw [← hms] at hsent
  have hmap : (items.map fun x => x.1.bytes) = (items.map Prod.fst).map RteMbuf.bytes := by
    rw [List.map_map]
    rfl
  rw [hmap] at hps
  rw [← hps] at hbytes
  obtain ⟨r', hr', ds, hrouted, hds⟩ := decapsulatePdus_frames halloc' hbb hfwd hbytes hsent r
  refine ⟨r', hr', ?_⟩
  rw [hrouted, List.map_append]
  congr 1
  calc ds.map (routerPayload rc)
    _ = (ds.map RteMbuf.bytes).map (payloadOf rc) := map_payload (hds ▸ hbytes)
    _ = ((items.map Prod.fst).map RteMbuf.bytes).map (payloadOf rc) := by rw [hds, hps]
    _ = (items.map Prod.fst).map (routerPayload rc) := (map_payload (hps ▸ hbytes)).symm
    _ = items.map fun x => routerPayload rc x.1 := List.map_map

def sampleRouter : RouterConf where
  routerHeaderLen := 4
  sizeofRouterHeader := 20
  directionRtn := fun header => header.headD 0 == 1
  lastEntry := fun header => (header.getD 1 0).toNat
  copyST := fun old _ => old
  routerTableNum := 1
  routerTableEntryNum := fun _ => 1
  routerTable := fun _ _ => 7

def routerMbuf (direction : UInt8) : RteMbuf :=
  ⟨.received 0, overwrite (fun _ => 0) [direction, 0, 0, 0, 0, 7, 0xAA], 7, 0x0800⟩

def multiConf : AppConf := { sampleConf with portToPktType := 17 }

/-- A forward packet of `n` bytes. -/
def forwardMbuf (n : ℕ) : RteMbuf := { routerMbuf 0 with dataLen := n }

/-- The third packet does not fit behind the first two. -/
def sampleItems : List (RteMbuf × ℕ) :=
  [(forwardMbuf 7, 0), (forwardMbuf 5000, 0), (forwardMbuf 4000, 0), (forwardMbuf 60, 0)]

theorem multi_pdu_handed_on_sample :
    (encapsulatePdu sampleEnv multiConf sampleRouter 0 none (encapsulatePdus sampleEnv multiConf
      sampleRouter sampleItems .initial)).sent.length = 2 ∧
    HandsOn sampleEnv multiConf sampleRouter sampleItems 0 := by
  have hplace : EachCall sampleEnv multiConf sampleRouter (Placeable sampleRouter) .initial
      sampleItems :=
    ⟨⟨by decide, by decide⟩, ⟨by decide, by decide +kernel⟩, ⟨by decide, by decide +kernel⟩,
      ⟨by decide, by decide +kernel⟩, trivial⟩
  refine ⟨by decide +kernel, multi_pdu_handed_on sampleEnv (fun _ => rfl) (by decide) (by decide) ?_ hplace 0⟩
  intro x hx
  simp only [sampleItems, List.mem_cons, List.not_mem_nil, or_false] at hx
  obtain rfl | rfl | rfl | rfl := hx <;> exact ⟨by decide, by decide⟩

/-- The frame a return packet goes out in: the length counts its old header too. -/
def returnFrame : List UInt8 :=
  encodeInnerHeader multiConf (0, 0) 9 ++ (be16 13 ++ [1, 0, 0, 0, 7, 0] ++ [0xAA])

/-- A return packet comes out with six bytes more. -/
theorem return_packet_lengthened :
    ¬ HandsOn sampleEnv multiConf sampleRouter [(routerMbuf 1, 0)] 0 := by
  intro h
  have hsent : (encapsulatePdu sampleEnv multiConf sampleRouter 0 none (encapsulatePdus sampleEnv
      multiConf sampleRouter [(routerMbuf 1, 0)] .initial)).sent = [returnFrame] := by decide
  obtain ⟨r', hr', hrouted⟩ := h.2 sampleEnv.toDpdk
    [⟨.received 1, overwrite (fun _ => 0) returnFrame, returnFrame.length, 0⟩]
    ⟨.fresh, fun _ => overwrite (fun _ => 0) [1, 0, 0, 0, 0, 7], []⟩ (fun _ => rfl)
    (by rw [hsent]; decide)
  have hlength : (decapsulatePdus sampleEnv.toDpdk sampleRouter
      [⟨.received 1, overwrite (fun _ => 0) returnFrame, returnFrame.length, 0⟩]
      ⟨.fresh, fun _ => overwrite (fun _ => 0) [1, 0, 0, 0, 0, 7], []⟩).map
        (fun r => (r.routed.map (routerPayload sampleRouter)).map List.length) = some [7] := by decide
  rw [hr', Option.map_some, hrouted] at hlength
  revert hlength
  decide

end Fengtai.Send
