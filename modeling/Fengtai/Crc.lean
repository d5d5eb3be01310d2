import Fengtai.Library.Words

set_option autoImplicit false

/-! The table-driven CRCs of `general_module.c`. -/

namespace Fengtai.Crc

open Library.Words

/-- `bit_rev`: the low `bw` bits in reverse order. -/
def bitRev (input : BitVec 32) (bw : ℕ) : BitVec 32 :=
  ((List.range bw).foldl (fun (s : BitVec 32 × BitVec 32) i =>
    (if s.2 &&& 1 = 1 then s.1 ||| (1 <<< (bw - 1 - i)) else s.1, s.2 >>> 1)) (0, input)).1

/-- One round of the inner loop of `crc32_init_table`. -/
def crc32Round (poly crc : BitVec 32) : BitVec 32 :=
  if crc &&& 1 = 1 then poly ^^^ (crc >>> 1) else crc >>> 1

/-- Entry `i` of `CRC32_table` after `crc32_init_table(poly)`. -/
def crc32InitTable (poly : BitVec 32) (i : BitVec 8) : BitVec 32 :=
  (crc32Round (bitRev poly 32))^[8] (i.setWidth 32)

def poly32 : BitVec 32 := 0x04C11DB7

def crc32Table : BitVec 8 → BitVec 32 := crc32InitTable poly32

/-- One turn of the loop of `crc32_lookup_table`. -/
def crc32Step (crc : BitVec 32) (b : UInt8) : BitVec 32 :=
  crc32Table (crc.setWidth 8 ^^^ b.toBitVec) ^^^ (crc >>> 8)

def crc32LookupTable (pdata : List UInt8) : BitVec 32 :=
  pdata.foldl crc32Step 0xFFFFFFFF ^^^ 0xFFFFFFFF

/-- One round of the inner loop of `mcs_init_crc8_table`, in 32 bits. -/
def crc8Round (poly value : BitVec 32) : BitVec 32 :=
  if value &&& 0x80 ≠ 0 then (value <<< 1) ^^^ poly else value <<< 1

/-- Entry `i` of `crc8_table`: the value is cut to eight bits when it is stored. -/
def mcsInitCrc8Table (poly : BitVec 32) (i : BitVec 8) : BitVec 8 :=
  ((crc8Round poly)^[8] (i.setWidth 32)).setWidth 8

def mcsCrc8Poly : BitVec 32 := 0xD5

def mcsGetCrc8 (data : List UInt8) : UInt8 :=
  ⟨data.foldl (fun crc8 b => mcsInitCrc8Table mcsCrc8Poly (crc8 ^^^ b.toBitVec)) 0⟩

def crcBytes (pdu : List UInt8) : List UInt8 := be32 (crc32LookupTable pdu).toNat

@[simp] lemma crcBytes_length (pdu : List UInt8) : (crcBytes pdu).length = 4 := rfl

lemma beValue_crcBytes (pdu : List UInt8) :
    BitVec.ofNat 32 (beValue (crcBytes pdu)) = crc32LookupTable pdu := by
  rw [crcBytes, beValue_be32 (by exact BitVec.isLt _), BitVec.ofNat_toNat, BitVec.setWidth_eq]

end Fengtai.Crc
