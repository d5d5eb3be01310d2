import Mathlib.Tactic

set_option autoImplicit false

/-! Doubly linked segments: from `p` along `next` through the nodes of a list to the
last of them, each node pointing back with `pre`. What is written outside a segment
leaves it as it is, and segments are cut and joined like lists. -/

namespace Fengtai.Library.Segments

variable {P : Type*} {next pre next' pre' : P → Option P} {p q : P} {xs ys : List P}

def Segment (next pre : P → Option P) : P → List P → P → Prop
  | p, [], q => q = p
  | p, x :: xs, q => next p = some x ∧ pre x = some p ∧ Segment next pre x xs q

@[simp] lemma segment_nil : Segment next pre p [] q ↔ q = p := Iff.rfl

lemma segment_cons {x : P} : Segment next pre p (x :: xs) q ↔
    next p = some x ∧ pre x = some p ∧ Segment next pre x xs q := Iff.rfl

lemma Segment.end_eq (h : Segment next pre p xs q) : q = xs.getLastD p := by
  induction xs generalizing p with
  | nil => exact h
  | cons x xs ih =>
    rw [ih h.2.2]
    cases xs <;> rfl

lemma Segment.end_mem (h : Segment next pre p xs q) : q ∈ p :: xs := by
  induction xs generalizing p with
  | nil => exact List.mem_singleton.mpr h
  | cons x xs ih => exact List.mem_cons_of_mem _ (ih h.2.2)

lemma segment_append : Segment next pre p (xs ++ ys) q ↔
    ∃ r, Segment next pre p xs r ∧ Segment next pre r ys q := by
  induction xs generalizing p with
  | nil => simp
  | cons x xs ih =>
    rw [List.cons_append, segment_cons, ih]
    constructor
    · rintro ⟨hnext, hpre, r, hr, hrest⟩
      exact ⟨r, ⟨hnext, hpre, hr⟩, hrest⟩
    · rintro ⟨r, ⟨hnext, hpre, hr⟩, hrest⟩
      exact ⟨hnext, hpre, r, hr, hrest⟩

/-- Writes to `next` of anything but the nodes before the last, and to `pre` of anything
but the nodes of the list, leave the segment. -/
lemma Segment.frame (h : Segment next pre p xs q) (hnodup : (p :: xs).Nodup)
    (hnext : ∀ a ∈ p :: xs, a ≠ q → next' a = next a) (hpre : ∀ a ∈ xs, pre' a = pre a) :
    Segment next' pre' p xs q := by
  induction xs generalizing p with
  | nil => exact h
  | cons x xs ih =>
    obtain ⟨hx, hp, hrest⟩ := h
    obtain ⟨hnot, hnodup'⟩ := List.nodup_cons.mp hnodup
    have hne : p ≠ q := fun hc => hnot (hc ▸ hrest.end_mem)
    refine ⟨(hnext p (by simp) hne).trans hx, (hpre x (by simp)).trans hp, ih hrest hnodup' ?_ ?_⟩
    · exact fun a ha => hnext a (List.mem_cons_of_mem _ ha)
    · exact fun a ha => hpre a (List.mem_cons_of_mem _ ha)

/-- `k` steps along `next`; none is taken from the null pointer. -/
def walk (next : P → Option P) : ℕ → P → Option P
  | 0, p => some p
  | k + 1, p => (next p).bind (walk next k)

lemma Segment.walk (h : Segment next pre p xs q) : walk next xs.length p = some q := by
  induction xs generalizing p with
  | nil => exact congrArg some h.symm
  | cons x xs ih => rw [List.length_cons, Segments.walk, h.1, Option.bind_some, ih h.2.2]

/-- The nodes from `p` to the null pointer, if there are at most `fuel` of them. -/
def follow (next : P → Option P) : ℕ → Option P → Option (List P)
  | _, none => some []
  | 0, some _ => none
  | fuel + 1, some p => (follow next fuel (next p)).map (p :: ·)

lemma Segment.follow (h : Segment next pre p xs q) (hend : next q = none) {fuel : ℕ}
    (hfuel : xs.length ≤ fuel) : follow next fuel (next p) = some xs := by
  induction xs generalizing p fuel with
  | nil =>
    rw [segment_nil] at h
    rw [← h, hend]
    cases fuel <;> rfl
  | cons x xs ih =>
    obtain ⟨hx, -, hrest⟩ := h
    cases fuel with
    | zero => simp at hfuel
    | succ fuel =>
      rw [hx, Segments.follow, ih hrest (Nat.le_of_succ_le_succ hfuel)]
      rfl

end Fengtai.Library.Segments
