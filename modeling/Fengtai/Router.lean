import Fengtai.Receive.FrameHeader

set_option autoImplicit false

/-! The router header, as `router.c` and the two sides of the multi-PDU packs use it. -/

namespace Fengtai

open Library.Words

/-- `ROUTERHEADER`. Its declaration is not in the tree: the direction and `LAST_ENTRY` stand
somewhere in the `ROUTER_HEADER_LEN` bytes in front of `segment`. -/
structure RouterHeader where
  routerHeaderLen : ℕ
  sizeofRouterHeader : ℕ
  directionRtn : List UInt8 → Bool
  lastEntry : List UInt8 → ℕ
  copyST : List UInt8 → List UInt8 → List UInt8

/-- The router tables of `g_st_app_conf`. -/
structure RouterConf extends RouterHeader where
  routerTableNum : ℕ
  routerTableEntryNum : ℕ → ℕ
  routerTable : ℕ → ℕ → ℕ

namespace RouterConf

variable (rc : RouterConf)

def isRtn (mem : Memory) (p : ℕ) : Bool := rc.directionRtn (window mem p rc.routerHeaderLen)

/-- The local `router_header_size` of the header at `p`. -/
def sizeAt (mem : Memory) (p : ℕ) : ℕ :=
  u16 (rc.routerHeaderLen + 2 * (rc.lastEntry (window mem p rc.routerHeaderLen) + 1))

/-- `g_st_app_conf.router_header_size`. -/
def routerHeaderSize (i : ℕ) : ℕ := rc.routerHeaderLen + 2 * rc.routerTableEntryNum i

/-- `n` segments behind the header at `p`, converted where they stand. -/
def ntohsSegments (mem : Memory) (p n : ℕ) : Memory := fun i =>
  let first := p + rc.routerHeaderLen
  if first ≤ i ∧ i < first + 2 * n then if (i - first) % 2 = 0 then mem (i + 1) else mem (i - 1)
  else mem i

/-- `get_dst_id`. Its counter has eight bits: with a last entry of 255 it never ends. -/
def getDstId (mem : Memory) (p : ℕ) : Option (ℕ × Memory) :=
  let n := rc.lastEntry (window mem p rc.routerHeaderLen)
  if n < 255 then
    let mem := rc.ntohsSegments mem p (n + 1)
    some (load16 mem (p + rc.routerHeaderLen + 2 * n), mem)
  else none

def decideRouterTable (mem : Memory) (p : ℕ) : Option (ℕ × Memory) :=
  (rc.getDstId mem p).map fun r =>
    (((List.range rc.routerTableNum).find? fun i =>
      r.1 == rc.routerTable i (u8 (rc.routerTableEntryNum i + 255))).getD 0, r.2)

end RouterConf

end Fengtai
