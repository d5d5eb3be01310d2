import Mathlib.Tactic

set_option autoImplicit false

/-! Runs of a partial, deterministic step function that answers each input. A
step that has no result stands for undefined behaviour and ends the run. -/

namespace Fengtai.Library.Runs

variable {σ ι ο : Type*} (step : σ → ι → Option (σ × ο))

def run : σ → List ι → Option (σ × List ο)
  | s, [] => some (s, [])
  | s, i :: is =>
    match step s i with
    | none => none
    | some (s', o) => (run s' is).map fun r => (r.1, o :: r.2)

@[simp] lemma run_nil (s : σ) : run step s [] = some (s, []) := rfl

lemma run_cons_some {s s' : σ} {i : ι} {o : ο} (is : List ι) (h : step s i = some (s', o)) :
    run step s (i :: is) = (run step s' is).map fun r => (r.1, o :: r.2) := by
  simp only [run, h]

lemma run_cons_eq_some {s t : σ} {i : ι} {is : List ι} {os : List ο} :
    run step s (i :: is) = some (t, os) ↔
      ∃ s' o os', step s i = some (s', o) ∧ run step s' is = some (t, os') ∧ os = o :: os' := by
  cases hs : step s i with
  | none => simp [run, hs]
  | some r =>
    obtain ⟨s', o⟩ := r
    rw [run_cons_some step is hs]
    cases hr : run step s' is with
    | none => simp [hr]
    | some r' =>
      obtain ⟨t', os'⟩ := r'
      constructor
      · intro h
        simp only [Option.map_some, Option.some.injEq, Prod.mk.injEq] at h
        exact ⟨s', o, os', rfl, by rw [hr, h.1], h.2.symm⟩
      · rintro ⟨s₁, o₁, os₁, h₁, h₂, rfl⟩
        simp only [Option.some.injEq, Prod.mk.injEq] at h₁
        obtain ⟨rfl, rfl⟩ := h₁
        rw [hr, Option.some.injEq, Prod.mk.injEq] at h₂
        simp [h₂]

lemma run_append (s : σ) (is js : List ι) :
    run step s (is ++ js) =
      (run step s is).bind fun r => (run step r.1 js).map fun r' => (r'.1, r.2 ++ r'.2) := by
  induction is generalizing s with
  | nil => simp
  | cons i is ih =>
    cases hs : step s i with
    | none => simp [run, hs]
    | some r =>
      obtain ⟨s', o⟩ := r
      rw [List.cons_append, run_cons_some step _ hs, run_cons_some step _ hs, ih]
      cases run step s' is with
      | none => rfl
      | some r' => simp [Option.map_map, Function.comp_def]

/-- The states reached from `s₀` by steps that all meet `ok`. -/
inductive Reached (ok : σ → ι → Prop) (s₀ : σ) : σ → Prop
  | start : Reached ok s₀ s₀
  | next {s s' : σ} {i : ι} {o : ο} :
      Reached ok s₀ s → ok s i → step s i = some (s', o) → Reached ok s₀ s'

def guarded (ok : σ → ι → Prop) [∀ s i, Decidable (ok s i)] (s : σ) (i : ι) : Option (σ × ο) :=
  if ok s i then step s i else none

variable {step}

lemma guarded_eq_some {ok : σ → ι → Prop} [∀ s i, Decidable (ok s i)] {s s' : σ} {i : ι} {o : ο} :
    guarded step ok s i = some (s', o) ↔ ok s i ∧ step s i = some (s', o) := by
  simp [guarded]

lemma Reached.of_run {ok : σ → ι → Prop} [∀ s i, Decidable (ok s i)] {s₀ s t : σ} {is : List ι}
    {os : List ο} (h : Reached step ok s₀ s) (hrun : run (guarded step ok) s is = some (t, os)) :
    Reached step ok s₀ t := by
  induction is generalizing s os with
  | nil =>
    obtain ⟨rfl, -⟩ := Prod.mk.inj (Option.some.inj hrun)
    exact h
  | cons i is ih =>
    obtain ⟨s', o, os', hs, hrest, -⟩ := (run_cons_eq_some _).mp hrun
    obtain ⟨hok, hs⟩ := guarded_eq_some.mp hs
    exact ih (h.next hok hs) hrest

lemma Reached.of_run_forall {ok : σ → ι → Prop} {s₀ s t : σ} {is : List ι} {os : List ο}
    (h : Reached step ok s₀ s) (hok : ∀ i ∈ is, ∀ s, ok s i) (hrun : run step s is = some (t, os)) :
    Reached step ok s₀ t := by
  induction is generalizing s os with
  | nil =>
    obtain ⟨rfl, -⟩ := Prod.mk.inj (Option.some.inj hrun)
    exact h
  | cons i is ih =>
    obtain ⟨s', o, os', hs, hrest, -⟩ := (run_cons_eq_some _).mp hrun
    rw [List.forall_mem_cons] at hok
    exact ih (h.next (hok.1 s) hs) hok.2 hrest

lemma Reached.foldl {next : σ → ι → σ} {ok : σ → ι → Prop} {s₀ s : σ} {is : List ι}
    (h : Reached (fun s i => some (next s i, ())) ok s₀ s)
    (hok : ∀ n i, is[n]? = some i → ok ((is.take n).foldl next s) i) :
    Reached (fun s i => some (next s i, ())) ok s₀ (is.foldl next s) := by
  induction is generalizing s with
  | nil => exact h
  | cons i is ih => exact ih (h.next (hok 0 i rfl) rfl) fun n j hj => hok (n + 1) j hj

lemma Reached.invariant {ok : σ → ι → Prop} {s₀ s : σ} (Inv : σ → Prop) (h₀ : Inv s₀)
    (hstep : ∀ s i s' o, Inv s → ok s i → step s i = some (s', o) → Inv s')
    (h : Reached step ok s₀ s) : Inv s := by
  induction h with
  | start => exact h₀
  | next _ hok hs ih => exact hstep _ _ _ _ ih hok hs

end Fengtai.Library.Runs
