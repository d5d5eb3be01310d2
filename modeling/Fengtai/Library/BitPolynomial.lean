import Mathlib.Algebra.Polynomial.OfFn
import Mathlib.Algebra.Field.ZMod
import Mathlib.Tactic

set_option autoImplicit false

/-! Words as polynomials over the field of two elements: the exclusive or is the
sum, and a register that shifts towards the high end and adds the feedback word
when a bit falls out divides by the polynomial of that word with leading term
`X ^ w`. -/

namespace Fengtai.Library.BitPolynomial

open Polynomial

variable {w : ℕ}

noncomputable def toPoly (x : BitVec w) : (ZMod 2)[X] :=
  ofFn w fun i => if x.getLsbD i then 1 else 0

lemma coeff_toPoly (x : BitVec w) (k : ℕ) :
    (toPoly x).coeff k = if x.getLsbD k then 1 else 0 := by
  by_cases hk : k < w
  · simp [toPoly, hk]
  · simp [toPoly, not_lt.mp hk]

@[simp] lemma toPoly_zero : toPoly 0#w = 0 := by
  ext k
  simp [coeff_toPoly]

lemma toPoly_xor (x y : BitVec w) : toPoly (x ^^^ y) = toPoly x + toPoly y := by
  ext k
  rw [coeff_add, coeff_toPoly, coeff_toPoly, coeff_toPoly, BitVec.getLsbD_xor]
  cases x.getLsbD k <;> cases y.getLsbD k <;> decide

lemma degree_toPoly_lt (x : BitVec w) : (toPoly x).degree < w := ofFn_degree_lt _

variable (poly : BitVec w)

noncomputable def modulus : (ZMod 2)[X] := X ^ w + toPoly poly

lemma modulus_monic : (modulus poly).Monic := monic_X_pow_add (degree_toPoly_lt poly)

lemma degree_modulus : (modulus poly).degree = w := by
  rw [modulus, degree_add_eq_left_of_degree_lt] <;> rw [degree_X_pow]
  exact degree_toPoly_lt poly

lemma toPoly_modByMonic (x : BitVec w) : toPoly x %ₘ modulus poly = toPoly x := by
  rw [modByMonic_eq_self_iff (modulus_monic poly), degree_modulus]
  exact degree_toPoly_lt x

def msbRound (r : BitVec w) : BitVec w :=
  if r.msb then (r <<< 1) ^^^ poly else r <<< 1

lemma toPoly_shiftLeft (r : BitVec w) :
    toPoly (r <<< 1) + (if r.msb then X ^ w else 0) = toPoly r * X := by
  ext k
  rw [coeff_add, coeff_toPoly, BitVec.getLsbD_shiftLeft]
  cases k with
  | zero =>
    cases w with
    | zero => simp [BitVec.msb_eq_getLsbD_last]
    | succ w => cases r.msb <;> simp
  | succ k =>
    rw [coeff_mul_X, coeff_toPoly]
    rcases lt_trichotomy (k + 1) w with h | h | h
    · cases r.msb <;> simp [h, coeff_X_pow, h.ne]
    · subst h
      simp [BitVec.msb_eq_getLsbD_last, apply_ite (fun p : (ZMod 2)[X] => p.coeff (k + 1))]
    · cases r.msb <;>
        simp [coeff_X_pow, h.ne', BitVec.getLsbD_of_ge r k (Nat.le_of_lt_succ h)]

lemma toPoly_msbRound (r : BitVec w) :
    toPoly (msbRound poly r) = toPoly r * X %ₘ modulus poly := by
  rw [← toPoly_modByMonic poly (msbRound poly r), ← toPoly_shiftLeft]
  apply modByMonic_eq_of_dvd_sub (modulus_monic poly)
  rw [msbRound]
  cases r.msb with
  | false => simp
  | true =>
    have htwo : (X ^ w : (ZMod 2)[X]) + X ^ w = 0 := CharTwo.add_self_eq_zero _
    refine ⟨1, ?_⟩
    rw [if_pos rfl, if_pos rfl, toPoly_xor, modulus]
    linear_combination -htwo

lemma mul_modByMonic_left (p q g : (ZMod 2)[X]) : (p %ₘ g) * q %ₘ g = p * q %ₘ g := by
  by_cases hg : g.Monic
  · apply modByMonic_eq_of_dvd_sub hg
    rw [← sub_mul]
    exact Dvd.dvd.mul_right (dvd_modByMonic_sub p g) q
  · rw [modByMonic_eq_of_not_monic p hg]

lemma toPoly_iterate (k : ℕ) (r : BitVec w) :
    toPoly ((msbRound poly)^[k] r) = toPoly r * X ^ k %ₘ modulus poly := by
  induction k with
  | zero => simp [toPoly_modByMonic]
  | succ k ih =>
    rw [Function.iterate_succ_apply', toPoly_msbRound, ih, mul_modByMonic_left, pow_succ, mul_assoc]

noncomputable def message (bs : List (BitVec w)) : (ZMod 2)[X] :=
  bs.foldl (fun m b => m * X ^ w + toPoly b) 0

/-- Adding each word of a message and running as many rounds as it has bits leaves
the remainder of the message, moved up by one word. -/
lemma toPoly_foldl (bs : List (BitVec w)) :
    toPoly (bs.foldl (fun r b => (msbRound poly)^[w] (r ^^^ b)) 0) =
      message bs * X ^ w %ₘ modulus poly := by
  induction bs using List.reverseRecOn with
  | nil => simp [message]
  | append_singleton bs b ih =>
    have hmessage : message (bs ++ [b]) = message bs * X ^ w + toPoly b := by simp [message]
    rw [List.foldl_append, List.foldl_cons, List.foldl_nil, toPoly_iterate, toPoly_xor, ih,
      hmessage, add_mul, add_modByMonic, mul_modByMonic_left, ← add_modByMonic, ← add_mul]

end Fengtai.Library.BitPolynomial
