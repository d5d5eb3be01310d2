import Mathlib.Tactic

set_option autoImplicit false

/-! Tokens that are each in one place: settled for good, or held at one of the places of a
table. -/

namespace Fengtai.Library.Custody

/-- The tokens that are accounted for, what each place holds, and what has been settled. -/
structure Ledger (α ι : Type*) where
  known : Set α
  held : ι → Option α
  settled : Multiset α

variable {α ι : Type*} {known : Set α} {held : ι → Option α} {settled : Multiset α}
  {a b : α} {x : ι}

/-- Each known token is settled once or held at one place, and no other token is anywhere. -/
structure Ledger.Sound (l : Ledger α ι) : Prop where
  nodup : l.settled.Nodup
  settled_known : ∀ a ∈ l.settled, a ∈ l.known
  held_known : ∀ x a, l.held x = some a → a ∈ l.known
  apart : ∀ x a, l.held x = some a → a ∉ l.settled
  alone : ∀ x y a, l.held x = some a → l.held y = some a → x = y
  located : ∀ a ∈ l.known, a ∈ l.settled ∨ ∃ x, l.held x = some a

namespace Ledger.Sound

lemma empty : Ledger.Sound (⟨∅, fun _ => none, 0⟩ : Ledger α ι) where
  nodup := Multiset.nodup_zero
  settled_known := by simp
  held_known := by simp
  apart := by simp
  alone := by simp
  located := by simp

lemma settle (h : Ledger.Sound ⟨known, held, settled⟩) (ha : a ∉ known) :
    Ledger.Sound ⟨insert a known, held, a ::ₘ settled⟩ where
  nodup := Multiset.nodup_cons.mpr ⟨fun hs => ha (h.settled_known a hs), h.nodup⟩
  settled_known b hb := by
    rcases Multiset.mem_cons.mp hb with rfl | hb
    · exact Set.mem_insert b known
    · exact Set.mem_insert_of_mem a (h.settled_known b hb)
  held_known x b hb := Set.mem_insert_of_mem a (h.held_known x b hb)
  apart x b hb hs := by
    rcases Multiset.mem_cons.mp hs with rfl | hs
    · exact ha (h.held_known x b hb)
    · exact h.apart x b hb hs
  alone := h.alone
  located b hb := by
    rcases hb with rfl | hb
    · exact .inl (Multiset.mem_cons_self b settled)
    · exact (h.located b hb).imp_left Multiset.mem_cons_of_mem

variable [DecidableEq ι]

lemma hold (h : Ledger.Sound ⟨known, held, settled⟩) (ha : a ∉ known) (hx : held x = none) :
    Ledger.Sound ⟨insert a known, Function.update held x (some a), settled⟩ where
  nodup := h.nodup
  settled_known b hb := Set.mem_insert_of_mem a (h.settled_known b hb)
  held_known y b hb := by
    by_cases hy : y = x
    · subst hy
      obtain rfl : a = b := by simpa using hb
      exact Set.mem_insert a known
    · simp only [Function.update_of_ne hy] at hb
      exact Set.mem_insert_of_mem a (h.held_known y b hb)
  apart y b hb hs := by
    by_cases hy : y = x
    · subst hy
      obtain rfl : a = b := by simpa using hb
      exact ha (h.settled_known a hs)
    · simp only [Function.update_of_ne hy] at hb
      exact h.apart y b hb hs
  alone y z b hy hz := by
    by_cases hyx : y = x <;> by_cases hzx : z = x
    · rw [hyx, hzx]
    · subst hyx
      obtain rfl : a = b := by simpa using hy
      simp only [Function.update_of_ne hzx] at hz
      exact absurd (h.held_known z a hz) ha
    · subst hzx
      obtain rfl : a = b := by simpa using hz
      simp only [Function.update_of_ne hyx] at hy
      exact absurd (h.held_known y a hy) ha
    · simp only [Function.update_of_ne hyx, Function.update_of_ne hzx] at hy hz
      exact h.alone y z b hy hz
  located b hb := by
    rcases hb with rfl | hb
    · exact .inr ⟨x, by simp⟩
    · rcases h.located b hb with hs | ⟨y, hy⟩
      · exact .inl hs
      · have hyx : y ≠ x := by
          rintro rfl
          simp [hx] at hy
        exact .inr ⟨y, by simpa only [Function.update_of_ne hyx] using hy⟩

lemma release (h : Ledger.Sound ⟨known, held, settled⟩) (hx : held x = some a) :
    Ledger.Sound ⟨known, Function.update held x none, a ::ₘ settled⟩ where
  nodup := Multiset.nodup_cons.mpr ⟨h.apart x a hx, h.nodup⟩
  settled_known b hb := by
    rcases Multiset.mem_cons.mp hb with rfl | hb
    · exact h.held_known x b hx
    · exact h.settled_known b hb
  held_known y b hb := by
    by_cases hy : y = x
    · simp [hy] at hb
    · simp only [Function.update_of_ne hy] at hb
      exact h.held_known y b hb
  apart y b hb hs := by
    by_cases hy : y = x
    · simp [hy] at hb
    · simp only [Function.update_of_ne hy] at hb
      rcases Multiset.mem_cons.mp hs with rfl | hs
      · exact hy (h.alone y x b hb hx)
      · exact h.apart y b hb hs
  alone y z b hy hz := by
    by_cases hyx : y = x
    · simp [hyx] at hy
    · by_cases hzx : z = x
      · simp [hzx] at hz
      · simp only [Function.update_of_ne hyx, Function.update_of_ne hzx] at hy hz
        exact h.alone y z b hy hz
  located b hb := by
    rcases h.located b hb with hs | ⟨y, hy⟩
    · exact .inl (Multiset.mem_cons_of_mem hs)
    · by_cases hyx : y = x
      · subst hyx
        obtain rfl : a = b := Option.some.inj (hx.symm.trans hy)
        exact .inl (Multiset.mem_cons_self a settled)
      · exact .inr ⟨y, by simpa only [Function.update_of_ne hyx] using hy⟩

end Ledger.Sound

/-- Each token is still settled at most once and held at one place at most, but tokens may have been
lost: to the ledger they are settled. -/
def Ledger.Safe (l : Ledger α ι) : Prop :=
  ∃ lost, Ledger.Sound ⟨l.known, l.held, lost + l.settled⟩

lemma Ledger.Sound.safe {l : Ledger α ι} (h : l.Sound) : l.Safe := ⟨0, by rwa [zero_add]⟩

variable [DecidableEq ι]

structure Rules (P : Ledger α ι → Prop) : Prop where
  settle : ∀ {known held settled a}, P ⟨known, held, settled⟩ → a ∉ known →
    P ⟨insert a known, held, a ::ₘ settled⟩
  hold : ∀ {known held settled a x}, P ⟨known, held, settled⟩ → a ∉ known → held x = none →
    P ⟨insert a known, Function.update held x (some a), settled⟩
  release : ∀ {known held settled a x}, P ⟨known, held, settled⟩ → held x = some a →
    P ⟨known, Function.update held x none, a ::ₘ settled⟩

def Forgets (P : Ledger α ι → Prop) : Prop :=
  ∀ {known held settled x}, P ⟨known, held, settled⟩ → P ⟨known, Function.update held x none, settled⟩

lemma Ledger.Sound.rules : Rules (Ledger.Sound (α := α) (ι := ι)) := ⟨settle, hold, release⟩

namespace Ledger.Safe

lemma rules : Rules (Ledger.Safe (α := α) (ι := ι)) where
  settle := by
    rintro known held settled a ⟨lost, h⟩ ha
    exact ⟨lost, by simpa only [Multiset.add_cons] using h.settle ha⟩
  hold := by
    rintro known held settled a x ⟨lost, h⟩ ha hx
    exact ⟨lost, h.hold ha hx⟩
  release := by
    rintro known held settled a x ⟨lost, h⟩ hx
    exact ⟨lost, by simpa only [Multiset.add_cons] using h.release hx⟩

lemma forgets : Forgets (Ledger.Safe (α := α) (ι := ι)) := by
  rintro known held settled x ⟨lost, h⟩
  cases hx : held x with
  | none => exact ⟨lost, by rwa [Function.update_eq_self_iff.mpr hx.symm]⟩
  | some a => exact ⟨a ::ₘ lost, by simpa only [Multiset.cons_add] using h.release hx⟩

end Ledger.Safe

/-- The ledger of a party that is not alone with its tokens: what stands in `elsewhere` is settled with
others, and `again` a second time; of the tokens in `kept` none is lost. -/
def Ledger.Shared (kept : Set α) (elsewhere again : Multiset α) (l : Ledger α ι) : Prop :=
  ∃ s, s + again = elsewhere + l.settled ∧ (∀ a ∈ kept, a ∈ s) ∧ Ledger.Safe ⟨l.known, l.held, s⟩

namespace Ledger.Shared

variable {kept : Set α} {elsewhere again : Multiset α}

lemma rules : Rules (Ledger.Shared (α := α) (ι := ι) kept elsewhere again) where
  settle := by
    rintro known held settled a ⟨s, hs, hkept, hsafe⟩ ha
    refine ⟨a ::ₘ s, ?_, fun b hb => Multiset.mem_cons_of_mem (hkept b hb), Safe.rules.settle hsafe ha⟩
    rw [Multiset.cons_add, hs, Multiset.add_cons]
  hold := by
    rintro known held settled a x ⟨s, hs, hkept, hsafe⟩ ha hx
    exact ⟨s, hs, hkept, Safe.rules.hold hsafe ha hx⟩
  release := by
    rintro known held settled a x ⟨s, hs, hkept, hsafe⟩ hx
    refine ⟨a ::ₘ s, ?_, fun b hb => Multiset.mem_cons_of_mem (hkept b hb), Safe.rules.release hsafe hx⟩
    rw [Multiset.cons_add, hs, Multiset.add_cons]

lemma forgets : Forgets (Ledger.Shared (α := α) (ι := ι) kept elsewhere again) := by
  rintro known held settled x ⟨s, hs, hkept, hsafe⟩
  exact ⟨s, hs, hkept, Safe.forgets hsafe⟩

omit [DecidableEq ι] in
lemma arrive (h : Ledger.Shared kept elsewhere again ⟨known, held, settled⟩) (ha : a ∉ known) :
    Ledger.Shared (insert a kept) (a ::ₘ elsewhere) again ⟨insert a known, held, settled⟩ := by
  obtain ⟨s, hs, hkept, lost, hsound⟩ := h
  refine ⟨a ::ₘ s, ?_, ?_, lost, ?_⟩
  · rw [Multiset.cons_add, hs, Multiset.cons_add]
  · rintro b (rfl | hb)
    · exact Multiset.mem_cons_self b s
    · exact Multiset.mem_cons_of_mem (hkept b hb)
  · have hsettle := hsound.settle ha
    rwa [← Multiset.add_cons] at hsettle

omit [DecidableEq ι] in
lemma take (h : Ledger.Shared kept (a ::ₘ elsewhere) again ⟨known, held, settled⟩) :
    Ledger.Shared kept elsewhere again ⟨known, held, a ::ₘ settled⟩ := by
  obtain ⟨s, hs, hrest⟩ := h
  exact ⟨s, by rw [hs, Multiset.cons_add, Multiset.add_cons], hrest⟩

omit [DecidableEq ι] in
lemma repeated (h : Ledger.Shared kept elsewhere again ⟨known, held, settled⟩) :
    Ledger.Shared kept elsewhere (a ::ₘ again) ⟨known, held, a ::ₘ settled⟩ := by
  obtain ⟨s, hs, hrest⟩ := h
  exact ⟨s, by rw [Multiset.add_cons, hs, Multiset.add_cons], hrest⟩

end Ledger.Shared

end Fengtai.Library.Custody
