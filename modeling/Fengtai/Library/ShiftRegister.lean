import Mathlib.Tactic

set_option autoImplicit false

/-! Linear feedback shift registers over words of any width that shift towards
the low end: the round is linear, a message no longer than the register can be
added to it before the rounds, and rounds of a register whose feedback reaches
the top bit lose nothing. -/

namespace Fengtai.Library.ShiftRegister

variable {w : ℕ} (poly : BitVec w)

def lsbRound (r : BitVec w) : BitVec w :=
  if r.getLsbD 0 then poly ^^^ (r >>> 1) else r >>> 1

def lsbStep (r : BitVec w) (b : Bool) : BitVec w :=
  if r.getLsbD 0 ^^ b then poly ^^^ (r >>> 1) else r >>> 1

def feed (r : BitVec w) (bits : List Bool) : BitVec w := bits.foldl (lsbStep poly) r

def pack : List Bool → BitVec w
  | [] => 0
  | b :: bs => (pack bs <<< 1) ||| (BitVec.ofBool b).setWidth w

def lsbBits {v : ℕ} (b : BitVec v) : List Bool := List.ofFn fun i : Fin v => b.getLsbD i

@[simp] lemma lsbBits_length {v : ℕ} (b : BitVec v) : (lsbBits b).length = v := by simp [lsbBits]

lemma lsbBits_injective {v : ℕ} : Function.Injective (lsbBits : BitVec v → List Bool) := by
  intro a b h
  apply BitVec.eq_of_getLsbD_eq
  intro i hi
  exact congrFun (List.ofFn_injective h) ⟨i, hi⟩

lemma getLsbD_pack (bits : List Bool) (i : ℕ) :
    (pack bits : BitVec w).getLsbD i = (decide (i < w) && bits.getD i false) := by
  induction bits generalizing i with
  | nil => simp [pack]
  | cons b bs ih =>
    rw [pack, BitVec.getLsbD_or, BitVec.getLsbD_shiftLeft, ih]
    cases i with
    | zero => simp
    | succ i => by_cases h : i + 1 < w <;> simp [h, Nat.lt_of_succ_lt]

lemma pack_lsbBits {v : ℕ} (b : BitVec v) : pack (lsbBits b) = b.setWidth w := by
  apply BitVec.eq_of_getLsbD_eq
  intro i hi
  rw [getLsbD_pack, BitVec.getLsbD_setWidth]
  congr 1
  by_cases h : i < v
  · simp [lsbBits, List.getD, h]
  · simp [lsbBits, List.getD, h, BitVec.getLsbD_of_ge b i (by omega)]

lemma pack_injective {p q : List Bool} (hlen : p.length = q.length) (hw : p.length ≤ w)
    (h : (pack p : BitVec w) = pack q) : p = q := by
  apply List.ext_getElem hlen
  intro i hp hq
  have hi := congrArg (fun x => x.getLsbD i) h
  simp only [getLsbD_pack, Nat.lt_of_lt_of_le hp hw, decide_true, Bool.true_and] at hi
  simpa [List.getD, hp, hq] using hi

lemma lsbRound_xor (a b : BitVec w) :
    lsbRound poly (a ^^^ b) = lsbRound poly a ^^^ lsbRound poly b := by
  apply BitVec.eq_of_getLsbD_eq
  intro i _
  simp only [lsbRound, BitVec.getLsbD_xor]
  cases a.getLsbD 0 <;> cases b.getLsbD 0 <;> simp [Bool.xor_left_comm]

lemma iterate_xor (k : ℕ) (a b : BitVec w) :
    (lsbRound poly)^[k] (a ^^^ b) = (lsbRound poly)^[k] a ^^^ (lsbRound poly)^[k] b := by
  induction k generalizing a b with
  | zero => rfl
  | succ k ih => rw [Function.iterate_succ_apply, lsbRound_xor, ih]; rfl

lemma iterate_of_clear (y : BitVec w) (k : ℕ) (hy : ∀ i < k, y.getLsbD i = false) :
    (lsbRound poly)^[k] y = y >>> k := by
  induction k with
  | zero => simp
  | succ k ih =>
    rw [Function.iterate_succ_apply', ih fun i hi => hy i (by omega)]
    simp [lsbRound, hy k (by omega), BitVec.shiftRight_add]

/-- After `k` rounds the low `k` bits have met the feedback and the others have moved down. -/
lemma iterate_split (k : ℕ) (r : BitVec w) :
    (lsbRound poly)^[k] r =
      (lsbRound poly)^[k] ((r.setWidth k).setWidth w) ^^^ (r >>> k) := by
  have hsplit : r = (r.setWidth k).setWidth w ^^^ ((r >>> k) <<< k) := by
    apply BitVec.eq_of_getLsbD_eq
    intro i hi
    rw [BitVec.getLsbD_xor, BitVec.getLsbD_setWidth, BitVec.getLsbD_setWidth,
      BitVec.getLsbD_shiftLeft, BitVec.getLsbD_ushiftRight]
    by_cases h : i < k
    · simp [h, hi]
    · simp [h, hi, Nat.add_sub_cancel' (not_lt.mp h)]
  have hback : (r >>> k) <<< k >>> k = r >>> k := by
    apply BitVec.eq_of_getLsbD_eq
    intro i hi
    rw [BitVec.getLsbD_ushiftRight, BitVec.getLsbD_shiftLeft]
    by_cases h : k + i < w
    · simp [h]
    · simp [h, BitVec.getLsbD_of_ge r (k + i) (not_lt.mp h)]
  have hhigh : (lsbRound poly)^[k] ((r >>> k) <<< k) = r >>> k := by
    rw [iterate_of_clear poly _ k fun i hi => by simp [BitVec.getLsbD_shiftLeft, hi], hback]
  calc (lsbRound poly)^[k] r
      = (lsbRound poly)^[k] ((r.setWidth k).setWidth w ^^^ ((r >>> k) <<< k)) := by rw [← hsplit]
    _ = (lsbRound poly)^[k] ((r.setWidth k).setWidth w) ^^^ (r >>> k) := by
        rw [iterate_xor, hhigh]

lemma lsbStep_eq (r : BitVec w) (b : Bool) :
    lsbStep poly r b = lsbRound poly (r ^^^ (BitVec.ofBool b).setWidth w) := by
  cases w with
  | zero => exact Subsingleton.elim _ _
  | succ w =>
    have hb : ((BitVec.ofBool b).setWidth (w + 1)) >>> 1 = 0#(w + 1) := by
      apply BitVec.eq_of_getLsbD_eq
      intro i _
      cases b <;> simp
    rw [lsbStep, lsbRound, BitVec.ushiftRight_xor_distrib, hb, BitVec.xor_zero]
    simp

/-- A message no longer than the register may be added at once, before the rounds. -/
lemma feed_eq (r : BitVec w) (bits : List Bool) (h : bits.length ≤ w) :
    feed poly r bits = (lsbRound poly)^[bits.length] (r ^^^ pack bits) := by
  induction bits generalizing r with
  | nil => simp [feed, pack]
  | cons b bs ih =>
    have hbs : bs.length < w := h
    have hlow : ((pack bs : BitVec w) <<< 1).getLsbD 0 = false := by simp
    have hback : lsbRound poly ((pack bs : BitVec w) <<< 1) = pack bs := by
      rw [lsbRound, hlow]
      apply BitVec.eq_of_getLsbD_eq
      intro i hi
      simp only [Bool.false_eq_true, if_false, BitVec.getLsbD_ushiftRight,
        BitVec.getLsbD_shiftLeft, getLsbD_pack]
      by_cases h1 : 1 + i < w
      · simp [h1, hi]
      · simp [h1, List.getD, List.getElem?_eq_none (show bs.length ≤ i by omega)]
    have hsplit : (pack (b :: bs) : BitVec w) =
        (BitVec.ofBool b).setWidth w ^^^ (pack bs <<< 1) := by
      apply BitVec.eq_of_getLsbD_eq
      intro i _
      rw [pack, BitVec.getLsbD_or, BitVec.getLsbD_xor]
      cases i <;> simp
    calc feed poly r (b :: bs)
        = (lsbRound poly)^[bs.length] (lsbStep poly r b ^^^ pack bs) := ih _ hbs.le
      _ = (lsbRound poly)^[bs.length] (lsbRound poly (r ^^^ pack (b :: bs))) := by
          rw [hsplit, ← BitVec.xor_assoc, lsbRound_xor, hback, lsbStep_eq]

lemma lsbRound_top (h : poly.msb = true) (r : BitVec w) :
    (lsbRound poly r).getLsbD (w - 1) = r.getLsbD 0 := by
  have hw : 0 < w := by
    rcases Nat.eq_zero_or_pos w with rfl | hw
    · simp [BitVec.msb, BitVec.getMsbD] at h
    · exact hw
  have htop : poly.getLsbD (w - 1) = true := by rw [← BitVec.msb_eq_getLsbD_last, h]
  have hout : r.getLsbD (1 + (w - 1)) = false := BitVec.getLsbD_of_ge r _ (by omega)
  rw [lsbRound]
  cases r.getLsbD 0 <;> simp [htop, hout]

lemma lsbRound_injective (h : poly.msb = true) : Function.Injective (lsbRound poly) := by
  intro a b hab
  have hlow : a.getLsbD 0 = b.getLsbD 0 := by rw [← lsbRound_top poly h, hab, lsbRound_top poly h]
  have hshift : a >>> 1 = b >>> 1 := by
    rw [lsbRound, lsbRound, hlow] at hab
    cases hb : b.getLsbD 0 with
    | false => simpa [hb] using hab
    | true => exact (BitVec.xor_right_inj poly).mp (by simpa [hb] using hab)
  apply BitVec.eq_of_getLsbD_eq
  intro i _
  cases i with
  | zero => exact hlow
  | succ i => simpa [Nat.add_comm] using congrArg (fun x => x.getLsbD i) hshift

lemma feed_append (r : BitVec w) (p q : List Bool) :
    feed poly r (p ++ q) = feed poly (feed poly r p) q := by
  rw [feed, List.foldl_append]
  rfl

lemma feed_injective (h : poly.msb = true) (bits : List Bool) :
    Function.Injective fun r => feed poly r bits := by
  induction bits with
  | nil => exact fun _ _ hab => hab
  | cons b bs ih =>
    intro r s hrs
    have hstep : lsbStep poly r b = lsbStep poly s b := ih hrs
    rw [lsbStep_eq, lsbStep_eq] at hstep
    exact (BitVec.xor_left_inj _).mp (lsbRound_injective poly h hstep)

/-- A register whose feedback reaches the top bit tells apart two messages of one
length that differ only inside a window no longer than the register. -/
lemma feed_burst (h : poly.msb = true) (r : BitVec w) (a z : List Bool) {p q : List Bool}
    (hlen : p.length = q.length) (hw : p.length ≤ w)
    (heq : feed poly r (a ++ p ++ z) = feed poly r (a ++ q ++ z)) : p = q := by
  rw [feed_append, feed_append, feed_append poly r (a ++ q), feed_append poly r a] at heq
  have hwin := feed_injective poly h z heq
  rw [feed_eq poly _ p hw, feed_eq poly _ q (hlen ▸ hw), hlen] at hwin
  have hadd := (lsbRound_injective poly h).iterate q.length hwin
  exact pack_injective hlen hw ((BitVec.xor_right_inj _).mp hadd)

end Fengtai.Library.ShiftRegister
