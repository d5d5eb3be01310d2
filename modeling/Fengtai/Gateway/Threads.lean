import Fengtai.Library.Rings
import Fengtai.Receive.Custody
import Fengtai.Send.Reception

set_option autoImplicit false

/-! The threads of a gateway in the default build, with one thread of each kind, and the rings
between them: `receive_msg_thread`, `decapsulate_thread`, `encapsulate_thread` and
`fc_bbframe_send_ignore_interval`. -/

namespace Fengtai

open Library Library.Words Receive Send

/-- What `g_st_app_conf` says beside the mapping: how many rings there are, and the MAC addresses. -/
structure GatewayConf where
  mapping : AppConf
  rcvRingQueueNum : ℕ
  encapRingQueueNum : ℕ
  localMac : ℕ → List UInt8

structure GatewayEnv where
  recv : RecvEnv
  send : SendEnv
  rcvEnqueues : ℕ → Bool

/-- The state of the threads. `receiver` is that of the decapsulating one, with the record of the
encap rings; `loop` is that of the encapsulating one, with the record of the rings for frames.
`wire` and `user` is what has been sent on port 0 and on port 1. -/
structure Gateway where
  rcv : Rings RteMbuf
  received : ℕ
  decapRing : ℕ
  receiver : Receiver
  encapHead : ℕ → ℕ
  encapRing : ℕ
  loop : Loop
  loopCount : ℕ → ℕ
  sndHead : ℕ → ℕ
  sndRing : ℕ
  wire : List (List UInt8)
  user : List (List UInt8)

def Gateway.initial : Gateway where
  rcv := .empty
  received := 0
  decapRing := 0
  receiver := .initial
  encapHead := fun _ => 0
  encapRing := 0
  loop := .initial
  loopCount := fun _ => 0
  sndHead := fun _ => 0
  sndRing := 0
  wire := []
  user := []

namespace Gateway

def encap (g : Gateway) : Rings RteMbuf := ⟨g.receiver.pool.ring, g.encapHead⟩

def snd (g : Gateway) : Rings RteMbuf := ⟨g.loop.sender.output.pool.ring, g.sndHead⟩

/-- `m_cType` of a frame. -/
def etherType (m : RteMbuf) : ℕ := bswap16 (load16 m.data 12)

/-- `receive_msg_thread` of a port, when `read_pcap` has a frame for it. -/
def receiveMsg (env : GatewayEnv) (port : ℕ) (data : Memory) (dataLen protocolType : ℕ) (g : Gateway) :
    Gateway :=
  let m : RteMbuf := ⟨.received g.received, data, dataLen, protocolType⟩
  let freed := { g.receiver with pool := g.receiver.pool.free m.addr }
  if port = 0 ∧ etherType m ≠ 0x9101 then { g with received := g.received + 1, receiver := freed }
  else if env.rcvEnqueues g.received then
    { g with received := g.received + 1, rcv := g.rcv.enqueue port m }
  else { g with received := g.received + 1, receiver := freed }

/-- One turn of the loops of `decapsulate_thread`: a ring is looked into, or, behind the last one,
the clock; `clock` is the time if it is time for `fragment_timeout`. -/
def decapsulate (conf : GatewayConf) (env : GatewayEnv) (now : ℕ → ℕ) (para : FrameParam)
    (clock : Option ℕ) (g : Gateway) : Option Gateway :=
  if g.decapRing < conf.rcvRingQueueNum then
    match g.rcv.dequeue g.decapRing with
    | some (m, rcv) =>
      (dispatchDecapPkt env.recv m g.decapRing now para g.receiver).map fun r =>
        { g with rcv := rcv, receiver := r, decapRing := g.decapRing + 1 }
    | none => some { g with decapRing := g.decapRing + 1 }
  else
    match clock with
    | some tUs => some { g with receiver := fragmentTimeout tUs g.receiver, decapRing := 0 }
    | none => some { g with decapRing := 0 }

def pduBufferSize : ℕ := 8192 - 256

/-- The frame `snd_single_pdu` builds for a port. -/
def etherFrame (conf : GatewayConf) (portId : ℕ) (pdu : List UInt8 × ℕ) : List UInt8 :=
  conf.localMac 2 ++ conf.localMac portId ++ be16 (u16 pdu.2) ++ pdu.1

/-- `snd_single_pdu`, without the build option `TAG_ROUTE`: it frees the PDU, and the buffer of
the frame once it is sent. -/
def sndSinglePdu (conf : GatewayConf) (env : GatewayEnv) (m : RteMbuf) (portId : ℕ) (g : Gateway) :
    Gateway :=
  let freed := { g.receiver with pool := g.receiver.pool.free m.addr }
  if pduBufferSize ≤ m.dataLen then { g with receiver := freed }
  else
    let output := g.loop.sender.output
    match output.pool.alloc env.send.toDpdk with
    | (none, pool) =>
      { g with
        receiver := freed
        loop.sender.output := { output with pool := pool } }
    | (some sendMbuf, pool) =>
      { g with
        receiver := freed
        loop.sender.output := { output with pool := pool.free sendMbuf.addr }
        user := if portId = 1 then g.user ++ [etherFrame conf portId (pduOf m)] else g.user }

/-- The ring behind ring `i` of `n`, round robin. -/
def nextRing (n i : ℕ) : ℕ := if i + 1 < n then i + 1 else 0

/-- `loop_count` of a ring in which nothing was found, and whether it has come to 100. -/
def countLoop (count : ℕ) : ℕ × Bool := if u8 (count + 1) = 100 then (0, true) else (u8 (count + 1), false)

def encapsulateMapping (conf : GatewayConf) (env : GatewayEnv) (g : Gateway) : Gateway :=
  if g.loop.point = .whole then
    match g.encap.dequeue 1 with
    | some (m, encap) =>
      { g with
        encapHead := encap.head
        loop := g.loop.next env.send conf.mapping (.pdu m)
        loopCount := Function.update g.loopCount 1 0
        encapRing := nextRing conf.encapRingQueueNum 1 }
    | none =>
      let count := countLoop (g.loopCount 1)
      { g with
        loop := if count.2 then g.loop.next env.send conf.mapping .idle else ⟨.fetch, g.loop.sender⟩
        loopCount := Function.update g.loopCount 1 count.1
        encapRing := nextRing conf.encapRingQueueNum 1 }
  else { g with loop := g.loop.next env.send conf.mapping .idle }

/-- The other rings: what is in ring 0 is sent on port 1, and what is in any other is lost. -/
def encapsulateOther (conf : GatewayConf) (env : GatewayEnv) (g : Gateway) : Gateway :=
  match g.encap.dequeue g.encapRing with
  | some (m, encap) =>
    let g' : Gateway :=
      { g with
        encapHead := encap.head
        loopCount := Function.update g.loopCount g.encapRing 0
        encapRing := nextRing conf.encapRingQueueNum g.encapRing }
    if g.encapRing = 0 then sndSinglePdu conf env m 1 g' else g'
  | none =>
    { g with
      loopCount := Function.update g.loopCount g.encapRing (countLoop (g.loopCount g.encapRing)).1
      encapRing := nextRing conf.encapRingQueueNum g.encapRing }

/-- One turn of `encapsulate_thread`. After a fault nothing is defined any more. -/
def encapsulate (conf : GatewayConf) (env : GatewayEnv) (g : Gateway) : Option Gateway :=
  let g' := if g.encapRing = 1 then encapsulateMapping conf env g else encapsulateOther conf env g
  if g'.loop.sender.output.fault then none else some g'

/-- One turn of `fc_bbframe_send_ignore_interval`: a frame that is found is sent and freed. -/
def sendFrame (conf : GatewayConf) (g : Gateway) : Gateway :=
  match g.snd.dequeue g.sndRing with
  | some (m, snd) =>
    let output := g.loop.sender.output
    { g with
      loop.sender.output := { output with pool := output.pool.free m.addr }
      sndHead := snd.head
      sndRing := nextRing conf.encapRingQueueNum g.sndRing
      wire := g.wire ++ [m.bytes] }
  | none => { g with sndRing := nextRing conf.encapRingQueueNum g.sndRing }

end Gateway

inductive GatewayEvent
  | arrive (port : ℕ) (data : Memory) (dataLen protocolType : ℕ)
  | decapsulate (now : ℕ → ℕ) (para : FrameParam) (clock : Option ℕ)
  | encapsulate
  | send

def Gateway.step (conf : GatewayConf) (env : GatewayEnv) (g : Gateway) : GatewayEvent → Option Gateway
  | .arrive port data dataLen protocolType => some (g.receiveMsg env port data dataLen protocolType)
  | .decapsulate now para clock => g.decapsulate conf env now para clock
  | .encapsulate => g.encapsulate conf env
  | .send => some (g.sendFrame conf)

end Fengtai
