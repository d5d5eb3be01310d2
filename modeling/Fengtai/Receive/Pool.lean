import Fengtai.Library.Words

set_option autoImplicit false

/-! What the receive side uses of the packet buffers: the pool the decapsulator
allocates from, the buffers it gives back, and the encap rings. -/

namespace Fengtai.Receive

open Library.Words

/-- A buffer is known by how it came into the program. -/
inductive MbufAddr
  | received (n : ℕ)
  | allocated (n : ℕ)
  deriving DecidableEq, Repr

structure RteMbuf where
  addr : MbufAddr
  data : Memory
  dataLen : ℕ
  protocolType : ℕ

def RteMbuf.bytes (m : RteMbuf) : List UInt8 := window m.data 0 m.dataLen

/-- `rte_pktmbuf_tailroom` of a fresh buffer: `DECAP_MBUF_SIZE` less `RTE_PKTMBUF_HEADROOM`. -/
def mbufTailroom : ℕ := 8192 - 128

/-- What the packet library answers: whether the `n`-th allocation and the `n`-th
enqueue succeed, and what the data room of a new buffer happens to hold. -/
structure Dpdk where
  allocates : ℕ → Bool
  room : ℕ → Memory
  enqueues : ℕ → Bool

def Dpdk.willing : Dpdk := ⟨fun _ => true, fun _ _ => 0, fun _ => true⟩

structure Pool where
  allocs : ℕ
  enqueues : ℕ
  freed : List MbufAddr
  ring : List (ℕ × RteMbuf)

def Pool.fresh : Pool := ⟨0, 0, [], []⟩

/-- `rte_pktmbuf_alloc(decap_pktmbuf_pool)`. -/
def Pool.alloc (env : Dpdk) (p : Pool) : Option RteMbuf × Pool :=
  (if env.allocates p.allocs then some ⟨.allocated p.allocs, env.room p.allocs, 0, 0⟩ else none,
    { p with allocs := p.allocs + 1 })

/-- `rte_pktmbuf_free`. -/
def Pool.free (a : MbufAddr) (p : Pool) : Pool := { p with freed := p.freed ++ [a] }

def Pool.freeHeld (held : Option RteMbuf) (p : Pool) : Pool :=
  match held with
  | some m => p.free m.addr
  | none => p

/-- `enqueue_encap_ring`, and the free its callers do when it fails. -/
def Pool.enqueueEncapRing (env : Dpdk) (m : RteMbuf) (ringId : ℕ) (p : Pool) : Pool :=
  if env.enqueues p.enqueues then
    { p with enqueues := p.enqueues + 1, ring := p.ring ++ [(ringId, m)] }
  else { p with enqueues := p.enqueues + 1, freed := p.freed ++ [m.addr] }

end Fengtai.Receive
