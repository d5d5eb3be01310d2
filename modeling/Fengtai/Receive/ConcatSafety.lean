import Fengtai.Receive.ExtChain

set_option autoImplicit false

/-! What `get_concat_pdu` reads of a data field whose length prefixes nobody has checked. -/

namespace Fengtai.Receive

open Library.Words

/-- The PDUs with their length prefixes, one behind the other, are `size` bytes long. -/
inductive Fills (mem : Memory) : ℕ → ℕ → Prop
  | done (pos : ℕ) : Fills mem pos 0
  | pdu {pos size : ℕ} (hrest : Fills mem (pos + 2 + load16 mem pos) size) :
      Fills mem pos (2 + load16 mem pos + size)

/-- The PDU `y` stands behind `x`, with its length prefix between them. -/
def Follows (x y : ℕ × ℕ) : Prop := x.1 + x.2 + 2 = y.1

/-- What `get_concat_pdu` should do with a data field: read in it alone, and take PDUs out of it
that follow each other. -/
structure ConcatRead.Safe (mem : Memory) (ptrDatafield datafieldLength : ℕ) (c : ConcatRead) : Prop where
  inside : ∀ x ∈ c.reads, ptrDatafield ≤ x.1 ∧ x.1 + x.2 ≤ ptrDatafield + datafieldLength
  places : ∃ places : List (ℕ × ℕ), c.pdus = places.map (fun x => window mem x.1 x.2) ∧
    (∀ x ∈ places, x ∈ c.reads) ∧ places.IsChain Follows

namespace ConcatRead

variable {mem : Memory} {n k : ℕ} {c c' : ConcatRead}

lemma run_stop (h : n ≤ c.totalReadLength) : ConcatRead.run mem n (k + 1) c = some c :=
  if_neg (not_lt.mpr h)

lemma run_turn (h : c.totalReadLength < n) :
    ConcatRead.run mem n (k + 1) c = ConcatRead.run mem n k (c.turn mem) := if_pos h

lemma run_places (hrun : ConcatRead.run mem n k c = some c') :
    ∃ places : List (ℕ × ℕ), c'.pdus = c.pdus ++ places.map (fun x => window mem x.1 x.2) ∧
      (∀ x ∈ c.reads, x ∈ c'.reads) ∧ (∀ x ∈ places, x ∈ c'.reads) ∧
      ((c.position, 0) :: places).IsChain Follows := by
  induction k generalizing c with
  | zero => cases hrun
  | succ k ih =>
    by_cases h : c.totalReadLength < n
    · rw [run_turn h] at hrun
      obtain ⟨places, hpdus, hkeeps, hreads, hchain⟩ := ih hrun
      refine ⟨(c.position + 2, load16 mem c.position) :: places, ?_, ?_, ?_, ?_⟩
      · rw [hpdus, List.map_cons, List.append_cons]
        rfl
      · intro x hx
        apply hkeeps
        exact List.mem_append_left _ hx
      · rw [List.forall_mem_cons]
        refine ⟨hkeeps _ ?_, hreads⟩
        simp [ConcatRead.turn]
      · rw [List.isChain_cons_cons]
        refine ⟨rfl, ?_⟩
        cases places with
        | nil => exact List.isChain_singleton _
        | cons y ys =>
          rw [List.isChain_cons_cons] at hchain ⊢
          exact hchain
    · rw [run_stop (not_lt.mp h)] at hrun
      obtain rfl := Option.some.inj hrun
      exact ⟨[], by simp, fun _ hx => hx, by simp, List.isChain_singleton _⟩

lemma fills_of_run {ptr : ℕ} (hn : n < 65536) (hrun : ConcatRead.run mem n k c = some c')
    (hplace : c.position = ptr + c.totalReadLength) (hle : c.totalReadLength ≤ n)
    (hinside : ∀ x ∈ c'.reads, x.1 + x.2 ≤ ptr + n) :
    Fills mem c.position (n - c.totalReadLength) := by
  induction k generalizing c with
  | zero => cases hrun
  | succ k ih =>
    by_cases h : c.totalReadLength < n
    · rw [run_turn h] at hrun
      obtain ⟨-, -, hkeeps, -⟩ := run_places hrun
      have hpdu := hinside (c.position + 2, load16 mem c.position) (hkeeps _ (by
        simp [ConcatRead.turn]))
      simp only at hpdu
      have htotal : (c.turn mem).totalReadLength = c.totalReadLength + load16 mem c.position + 2 :=
        u16_of_lt (by omega)
      have hrest := ih hrun (by
        rw [htotal]
        simp only [ConcatRead.turn]
        omega) (by omega)
      rw [htotal] at hrest
      rw [show n - c.totalReadLength = 2 + load16 mem c.position +
        (n - (c.totalReadLength + load16 mem c.position + 2)) by omega]
      exact .pdu hrest
    · rw [show n - c.totalReadLength = 0 by omega]
      exact .done _

end ConcatRead

lemma Fills.run {mem : Memory} {pos size n k : ℕ} {c : ConcatRead} (h : Fills mem pos size)
    (hpos : pos = c.position) (hsize : c.totalReadLength + size = n) (hn : n < 65536)
    (hk : size ≤ 2 * k + 1) :
    ∃ c', ConcatRead.run mem n (k + 1) c = some c' ∧
      ∀ x ∈ c'.reads, x ∈ c.reads ∨ pos ≤ x.1 ∧ x.1 + x.2 ≤ pos + size := by
  induction h generalizing c k with
  | done => exact ⟨c, ConcatRead.run_stop (by omega), fun x hx => .inl hx⟩
  | pdu _ ih =>
    subst hpos
    obtain ⟨k, rfl⟩ : ∃ j, k = j + 1 := ⟨k - 1, by omega⟩
    have htotal : (c.turn mem).totalReadLength = c.totalReadLength + load16 mem c.position + 2 :=
      u16_of_lt (by omega)
    obtain ⟨c', hrun, hreads⟩ := ih (c := c.turn mem) (k := k) rfl (by omega) (by omega)
    refine ⟨c', by rw [ConcatRead.run_turn (by omega), hrun], fun x hx => ?_⟩
    rcases hreads x hx with hx | hx
    · simp only [ConcatRead.turn, List.mem_append, List.mem_cons, List.not_mem_nil, or_false] at hx
      rcases hx with hx | rfl | rfl
      · exact .inl hx
      · exact .inr (by simp only; omega)
      · exact .inr (by simp only; omega)
    · exact .inr (by omega)

/-- `get_concat_pdu` is safe on the data fields that their prefixes fill, and on no others. -/
theorem concat_safe_iff (mem : Memory) (ptrDatafield : ℕ) {datafieldLength : ℕ}
    (hn : datafieldLength < 65536) :
    (∃ c, getConcatPdu mem ptrDatafield datafieldLength = some c ∧
      c.Safe mem ptrDatafield datafieldLength) ↔ Fills mem ptrDatafield datafieldLength := by
  constructor
  · rintro ⟨c, hrun, hsafe⟩
    exact ConcatRead.fills_of_run hn hrun rfl (Nat.zero_le _) fun x hx => (hsafe.inside x hx).2
  · intro h
    obtain ⟨c, hrun, hreads⟩ := h.run (k := 32767) (c := ⟨ptrDatafield, 0, [], []⟩) rfl
      (Nat.zero_add _) hn (by omega)
    obtain ⟨places, hpdus, -, hin, hchain⟩ := ConcatRead.run_places hrun
    refine ⟨c, hrun, fun x hx => ?_, places, hpdus, hin, hchain.tail⟩
    rcases hreads x hx with hx | hx
    · cases hx
    · exact hx

theorem concat_safe_two : ∃ c, getConcatPdu (overwrite (fun _ => 0) [1, 0, 7, 0, 0]) 0 5 = some c ∧
    c.Safe (overwrite (fun _ => 0) [1, 0, 7, 0, 0]) 0 5 := by
  refine (concat_safe_iff _ 0 (by norm_num)).mpr ?_
  exact @Fills.pdu _ 0 2 (@Fills.pdu _ 3 0 (.done _))

/-- A prefix of 10 in four bytes, and one of 65534, with which the count goes round to zero. -/
theorem concat_reads_on :
    (¬ ∃ c, getConcatPdu (overwrite (fun _ => 0) [10, 0]) 0 4 = some c ∧
      c.Safe (overwrite (fun _ => 0) [10, 0]) 0 4) ∧
    (getConcatPdu (overwrite (fun _ => 0) [254, 255]) 0 4).map ConcatRead.reads =
      some [(0, 2), (2, 65534), (65536, 2), (65538, 0), (65538, 2), (65540, 0)] := by
  have hreads : (getConcatPdu (overwrite (fun _ => 0) [10, 0]) 0 4).map ConcatRead.reads =
      some [(0, 2), (2, 10)] := by decide +kernel
  constructor
  · rintro ⟨c, hrun, hsafe⟩
    rw [hrun, Option.map_some, Option.some.injEq] at hreads
    have hin := hsafe.inside (2, 10) (by rw [hreads]; simp)
    omega
  · decide +kernel

end Fengtai.Receive
