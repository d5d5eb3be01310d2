import Fengtai.Crc
import Fengtai.Library.BitPolynomial
import Fengtai.Library.ShiftRegister

set_option autoImplicit false

/-! The tables of `general_module.c` against the division they speed up, and the
segmented CRC-32 against the one that is taken in one go. -/

namespace Fengtai.Crc

open Library

def reflectedBits (pdata : List UInt8) : List Bool :=
  pdata.flatMap fun b => ShiftRegister.lsbBits b.toBitVec

/-- The CRC-32 one bit at a time: the polynomial is reflected, and the register starts
at all ones and is inverted at the end. -/
def crc32Bitwise (pdata : List UInt8) : BitVec 32 :=
  ShiftRegister.feed 0xEDB88320 0xFFFFFFFF (reflectedBits pdata) ^^^ 0xFFFFFFFF

lemma bitRev_poly32 : bitRev poly32 32 = 0xEDB88320 := by decide +kernel

lemma crc32Round_eq (poly crc : BitVec 32) :
    crc32Round poly crc = ShiftRegister.lsbRound poly crc := by
  have hlow : crc &&& 1 = (BitVec.ofBool (crc.getLsbD 0)).setWidth 32 :=
    BitVec.and_one_eq_setWidth_ofBool_getLsbD
  rw [crc32Round, ShiftRegister.lsbRound, hlow]
  cases crc.getLsbD 0 <;> simp

lemma crc32Table_eq (i : BitVec 8) :
    crc32Table i = (ShiftRegister.lsbRound 0xEDB88320)^[8] (i.setWidth 32) := by
  rw [crc32Table, crc32InitTable, bitRev_poly32, funext (crc32Round_eq _)]

/-- The register splits into its low byte, which the table answers for, and the rest,
which eight rounds only move down. -/
lemma crc32Step_eq (crc : BitVec 32) (b : UInt8) :
    crc32Step crc b = ShiftRegister.feed 0xEDB88320 crc (ShiftRegister.lsbBits b.toBitVec) := by
  have hlow : (crc ^^^ b.toBitVec.setWidth 32).setWidth 8 = crc.setWidth 8 ^^^ b.toBitVec := by
    rw [BitVec.setWidth_xor, BitVec.setWidth_setWidth_of_le _ (by decide), BitVec.setWidth_eq]
  have hhigh : b.toBitVec.setWidth 32 >>> 8 = 0#32 := by
    apply BitVec.eq_of_getLsbD_eq
    intro i _
    simp
  rw [ShiftRegister.feed_eq _ _ _ (by simp), ShiftRegister.pack_lsbBits,
    ShiftRegister.lsbBits_length, ShiftRegister.iterate_split, hlow,
    BitVec.ushiftRight_xor_distrib, hhigh, BitVec.xor_zero, crc32Step, crc32Table_eq]

lemma foldl_crc32Step (crc : BitVec 32) (pdata : List UInt8) :
    pdata.foldl crc32Step crc = ShiftRegister.feed 0xEDB88320 crc (reflectedBits pdata) := by
  induction pdata generalizing crc with
  | nil => rfl
  | cons b bs ih =>
    rw [List.foldl_cons, ih, crc32Step_eq, reflectedBits, reflectedBits, List.flatMap_cons,
      ShiftRegister.feed_append]

/-- Cutting the register to a byte after a round of `mcs_init_crc8_table` leaves a round
of an eight-bit register. -/
lemma crc8Round_setWidth (poly value : BitVec 32) :
    (crc8Round poly value).setWidth 8 =
      BitPolynomial.msbRound (poly.setWidth 8) (value.setWidth 8) := by
  have htop : value &&& 0x80 ≠ 0 ↔ (value.setWidth 8).msb = true := by
    have hmask : value &&& 0x80 = BitVec.twoPow 32 7 &&& value := BitVec.and_comm _ _
    rw [hmask, BitVec.twoPow_and, BitVec.msb_eq_getLsbD_last, BitVec.getLsbD_setWidth]
    cases value.getLsbD 7 <;> decide
  have hshift : (value <<< 1).setWidth 8 = value.setWidth 8 <<< 1 := by
    apply BitVec.eq_of_getLsbD_eq
    intro i hi
    simp [hi]
  rw [crc8Round, BitPolynomial.msbRound]
  by_cases h : (value.setWidth 8).msb
  · rw [if_pos (htop.mpr h), if_pos h, BitVec.setWidth_xor, hshift]
  · rw [if_neg (mt htop.mp h), if_neg h, hshift]

lemma mcsInitCrc8Table_eq (poly : BitVec 32) (i : BitVec 8) :
    mcsInitCrc8Table poly i = (BitPolynomial.msbRound (poly.setWidth 8))^[8] i := by
  have hsemi : Function.Semiconj (BitVec.setWidth 8) (crc8Round poly)
      (BitPolynomial.msbRound (poly.setWidth 8)) := crc8Round_setWidth poly
  rw [mcsInitCrc8Table, hsemi.iterate_right 8]
  congr 1
  exact BitVec.setWidth_setWidth_of_le i (by decide)

lemma modulus_mcsCrc8Poly :
    BitPolynomial.modulus (mcsCrc8Poly.setWidth 8) =
      Polynomial.X ^ 8 + Polynomial.X ^ 7 + Polynomial.X ^ 6 + Polynomial.X ^ 4 +
        Polynomial.X ^ 2 + 1 := by
  ext k
  rw [BitPolynomial.modulus, Polynomial.coeff_add, BitPolynomial.coeff_toPoly]
  by_cases hk : k < 9
  · interval_cases k <;> simp [Polynomial.coeff_X_pow, Polynomial.coeff_one, mcsCrc8Poly]
  · have hout : (mcsCrc8Poly.setWidth 8).getLsbD k = false :=
      BitVec.getLsbD_of_ge _ k (by omega)
    simp only [hout, Polynomial.coeff_add, Polynomial.coeff_X_pow, Polynomial.coeff_one]
    simp [show k ≠ 8 by omega, show k ≠ 7 by omega, show k ≠ 6 by omega, show k ≠ 4 by omega,
      show k ≠ 2 by omega, show k ≠ 0 by omega]

/-- Both tables compute the division they stand for. -/
theorem tables_divide (pdata : List UInt8) :
    crc32LookupTable pdata = crc32Bitwise pdata ∧
      BitPolynomial.toPoly (mcsGetCrc8 pdata).toBitVec =
        BitPolynomial.message (pdata.map UInt8.toBitVec) * Polynomial.X ^ 8 %ₘ
          (Polynomial.X ^ 8 + Polynomial.X ^ 7 + Polynomial.X ^ 6 + Polynomial.X ^ 4 +
            Polynomial.X ^ 2 + 1) := by
  constructor
  · rw [crc32LookupTable, foldl_crc32Step, crc32Bitwise]
  · rw [← modulus_mcsCrc8Poly, ← BitPolynomial.toPoly_foldl, List.foldl_map, mcsGetCrc8,
      funext₂ fun _ _ => mcsInitCrc8Table_eq _ _]

def mcsBitRev (data : BitVec 32) (bitWidth : ℕ) : BitVec 32 := bitRev data bitWidth

def mcsCrc32Poly : BitVec 32 := 0x4C11DB7

/-- Entry `i` of `crc32_table` after `mcs_init_crc32_table(poly)`. -/
def mcsInitCrc32Table (poly : BitVec 32) (i : BitVec 8) : BitVec 32 :=
  (crc32Round (mcsBitRev poly 32))^[8] (i.setWidth 32)

/-- `mcs_get_crc32`; a null pointer is a segment without bytes. -/
def mcsGetCrc32 (segData : List UInt8) (preSegCrc : BitVec 32) : BitVec 32 :=
  if segData = [] then 0
  else
    segData.foldl (fun pre b =>
      mcsInitCrc32Table mcsCrc32Poly (pre.setWidth 8 ^^^ b.toBitVec) ^^^ (pre >>> 8)) preSegCrc

lemma mcsGetCrc32_eq {segData : List UInt8} (h : segData ≠ []) (preSegCrc : BitVec 32) :
    mcsGetCrc32 segData preSegCrc = segData.foldl crc32Step preSegCrc := by
  rw [mcsGetCrc32, if_neg h]
  rfl

lemma foldl_mcsGetCrc32 (segs : List (List UInt8)) (h : ∀ seg ∈ segs, seg ≠ [])
    (preSegCrc : BitVec 32) :
    segs.foldl (fun pre seg => mcsGetCrc32 seg pre) preSegCrc =
      segs.flatten.foldl crc32Step preSegCrc := by
  induction segs generalizing preSegCrc with
  | nil => rfl
  | cons seg segs ih =>
    rw [List.foldl_cons, List.flatten_cons, List.foldl_append, ih fun s hs => h s (by simp [hs]),
      mcsGetCrc32_eq (h seg (by simp))]

/-- However a message is cut, its segments taken one after the other give its CRC-32. -/
theorem segments_agree (segs : List (List UInt8)) (h : ∀ seg ∈ segs, seg ≠ []) :
    segs.foldl (fun pre seg => mcsGetCrc32 seg pre) 0xFFFFFFFF ^^^ 0xFFFFFFFF =
      crc32LookupTable segs.flatten := by
  rw [foldl_mcsGetCrc32 segs h, crc32LookupTable]

theorem segments_agree_two :
    [[0x31], [0x32, 0x33]].foldl (fun pre seg => mcsGetCrc32 seg pre) 0xFFFFFFFF ^^^ 0xFFFFFFFF =
      crc32LookupTable [0x31, 0x32, 0x33] :=
  segments_agree [[0x31], [0x32, 0x33]] (by decide)

example : crc32LookupTable [0x31, 0x32, 0x33, 0x34, 0x35, 0x36, 0x37, 0x38, 0x39] = 0xCBF43926 := by
  decide +kernel

lemma reflectedBits_injective {p q : List UInt8} (hlen : p.length = q.length)
    (h : reflectedBits p = reflectedBits q) : p = q := by
  induction p generalizing q with
  | nil => exact (List.length_eq_zero_iff.mp hlen.symm).symm
  | cons b bs ih =>
    cases q with
    | nil => simp at hlen
    | cons c cs =>
      simp only [reflectedBits, List.flatMap_cons] at h
      obtain ⟨hhead, htail⟩ := List.append_inj h (by simp)
      have hbyte : b = c := UInt8.toBitVec_inj.mp (ShiftRegister.lsbBits_injective hhead)
      rw [hbyte, ih (Nat.succ.inj hlen) htail]

lemma reflectedBits_length (p : List UInt8) : (reflectedBits p).length = 8 * p.length := by
  simp [reflectedBits, Nat.mul_comm]

lemma crc32_burst (a z : List UInt8) {p q : List UInt8} (hlen : p.length = q.length)
    (h4 : p.length ≤ 4)
    (h : crc32LookupTable (a ++ p ++ z) = crc32LookupTable (a ++ q ++ z)) : p = q := by
  rw [crc32LookupTable, crc32LookupTable, foldl_crc32Step, foldl_crc32Step] at h
  have hfeed := (BitVec.xor_left_inj _).mp h
  simp only [reflectedBits, List.flatMap_append] at hfeed
  have hbits : reflectedBits p = reflectedBits q := by
    apply ShiftRegister.feed_burst 0xEDB88320 (by decide) _ _ _ _ _ hfeed
    · exact (reflectedBits_length p).trans (hlen ▸ (reflectedBits_length q).symm)
    · exact (reflectedBits_length p).trans_le (by omega)
  exact reflectedBits_injective hlen hbits

end Fengtai.Crc
