import Fengtai.Library.BitPolynomial

set_option autoImplicit false

/-! Sequences of bits as polynomials, the first bit carrying the highest power, and what a divisor
with a constant term says of two of them that differ in a few bits in a row. -/

namespace Fengtai.Library.BitPolynomial

open Polynomial

def msbBits {w : ℕ} (x : BitVec w) : List Bool := List.ofFn fun i : Fin w => x.getMsbD i

@[simp] lemma msbBits_length {w : ℕ} (x : BitVec w) : (msbBits x).length = w := by simp [msbBits]

noncomputable def bitPoly (bits : List Bool) : (ZMod 2)[X] :=
  bits.foldl (fun m b => m * X + if b then 1 else 0) 0

lemma bitPoly_concat (bits : List Bool) (b : Bool) :
    bitPoly (bits ++ [b]) = bitPoly bits * X + if b then 1 else 0 := by
  rw [bitPoly, List.foldl_append]
  rfl

lemma bitPoly_append (p q : List Bool) : bitPoly (p ++ q) = bitPoly p * X ^ q.length + bitPoly q := by
  induction q using List.reverseRecOn with
  | nil => simp [bitPoly]
  | append_singleton q b ih =>
    rw [← List.append_assoc, bitPoly_concat, ih, bitPoly_concat, List.length_append, List.length_singleton,
      pow_succ]
    ring

lemma coeff_bitPoly (bits : List Bool) (k : ℕ) :
    (bitPoly bits).coeff k = if bits.reverse.getD k false then 1 else 0 := by
  induction bits using List.reverseRecOn generalizing k with
  | nil => simp [bitPoly]
  | append_singleton bits b ih =>
    rw [bitPoly_concat, coeff_add, List.reverse_append, List.reverse_singleton, List.singleton_append]
    cases k with
    | zero => cases b <;> simp
    | succ k =>
      rw [coeff_mul_X, ih]
      cases b <;> simp [coeff_one]

lemma degree_bitPoly_lt (bits : List Bool) : (bitPoly bits).degree < bits.length := by
  rw [degree_lt_iff_coeff_zero]
  intro k hk
  rw [coeff_bitPoly, List.getD_eq_default _ _ (by simpa using hk)]
  rfl

lemma bitPoly_injective {p q : List Bool} (hlen : p.length = q.length) (h : bitPoly p = bitPoly q) : p = q := by
  apply List.reverse_injective
  apply List.ext_getElem (by simpa using hlen)
  intro k hp hq
  have hk := congrArg (fun f => f.coeff k) h
  simp only [coeff_bitPoly, List.getD_eq_getElem _ _ hp, List.getD_eq_getElem _ _ hq] at hk
  cases h₁ : p.reverse[k] <;> cases h₂ : q.reverse[k] <;> simp [h₁, h₂] at hk ⊢

lemma bitPoly_msbBits {w : ℕ} (x : BitVec w) : bitPoly (msbBits x) = toPoly x := by
  ext k
  rw [coeff_bitPoly, coeff_toPoly]
  congr 2
  by_cases hk : k < w
  · have hlen : k < (msbBits x).reverse.length := by simpa using hk
    rw [List.getD_eq_getElem _ _ hlen, List.getElem_reverse]
    simp only [msbBits, List.getElem_ofFn, List.length_ofFn, BitVec.getMsbD_eq_getLsbD]
    simp [show w - 1 - k < w by omega, show w - 1 - (w - 1 - k) = k by omega]
  · rw [List.getD_eq_default _ _ (by simpa using hk), BitVec.getLsbD_of_ge x k (by omega)]

lemma bitPoly_flatMap {w : ℕ} (words : List (BitVec w)) : bitPoly (words.flatMap msbBits) = message words := by
  induction words using List.reverseRecOn with
  | nil => rfl
  | append_singleton words x ih =>
    have hmessage : message (words ++ [x]) = message words * X ^ w + toPoly x := by simp [message]
    rw [List.flatMap_append, List.flatMap_singleton, bitPoly_append, msbBits_length, ih, bitPoly_msbBits,
      hmessage]

section Divisor

variable {w : ℕ} (poly : BitVec w)

lemma toPoly_injective : Function.Injective (toPoly : BitVec w → (ZMod 2)[X]) := by
  intro x y h
  apply BitVec.eq_of_getLsbD_eq
  intro k _
  have hk := congrArg (fun f => f.coeff k) h
  simp only [coeff_toPoly] at hk
  cases h₁ : x.getLsbD k <;> cases h₂ : y.getLsbD k <;> simp [h₁, h₂] at hk ⊢

lemma foldl_eq_iff (words : List (BitVec w)) (x : BitVec w) :
    words.foldl (fun r b => (msbRound poly)^[w] (r ^^^ b)) 0 = x ↔
      modulus poly ∣ bitPoly ((words ++ [x]).flatMap msbBits) := by
  have hmessage : message (words ++ [x]) = message words * X ^ w + toPoly x := by simp [message]
  rw [bitPoly_flatMap, hmessage, ← modByMonic_eq_zero_iff_dvd (modulus_monic poly), add_modByMonic,
    ← toPoly_foldl, toPoly_modByMonic, CharTwo.add_eq_zero]
  exact toPoly_injective.eq_iff.symm

lemma isCoprime_X_modulus (h : poly.getLsbD 0 = true) : IsCoprime (X : (ZMod 2)[X]) (modulus poly) := by
  have hw : w ≠ 0 := by
    rintro rfl
    simp at h
  refine (irreducible_X.coprime_iff_not_dvd).mpr ?_
  rw [X_dvd_iff, modulus, coeff_add, coeff_X_pow, coeff_toPoly, if_neg (Ne.symm hw), h]
  simp

/-- A divisor with a constant term does not divide two sequences that differ in a window no longer
than its degree. -/
lemma dvd_burst (h : poly.getLsbD 0 = true) {a p q z : List Bool} (hlen : p.length = q.length)
    (hw : p.length ≤ w) (hp : modulus poly ∣ bitPoly (a ++ p ++ z)) (hq : modulus poly ∣ bitPoly (a ++ q ++ z)) :
    p = q := by
  have hdiff : bitPoly (a ++ p ++ z) - bitPoly (a ++ q ++ z) = X ^ z.length * (bitPoly p - bitPoly q) := by
    rw [bitPoly_append, bitPoly_append a p, bitPoly_append (a ++ q), bitPoly_append a q, hlen]
    ring
  have hdvd : modulus poly ∣ X ^ z.length * (bitPoly p - bitPoly q) := by
    rw [← hdiff]
    exact dvd_sub hp hq
  have hdvd' := (isCoprime_X_modulus poly h).symm.pow_right.dvd_of_dvd_mul_left hdvd
  have hdegree : (bitPoly p - bitPoly q).degree < (modulus poly).degree := by
    rw [degree_modulus]
    refine lt_of_le_of_lt (degree_sub_le _ _) (max_lt ?_ ?_)
    · exact (degree_bitPoly_lt p).trans_le (by exact_mod_cast hw)
    · exact (degree_bitPoly_lt q).trans_le (by exact_mod_cast hlen ▸ hw)
  apply bitPoly_injective hlen
  exact sub_eq_zero.mp (eq_zero_of_dvd_of_degree_lt hdvd' hdegree)

end Divisor

end Fengtai.Library.BitPolynomial
