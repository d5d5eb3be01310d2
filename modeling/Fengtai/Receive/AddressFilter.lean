import Fengtai.Receive.Packet

set_option autoImplicit false

/-! Which packets of a frame `filter_address` lets through, and that a frame starts anew. -/

namespace Fengtai.Receive

open Library.Words

/-- The label of a GSE packet, as `decapsulate_gse_header` reads it. -/
structure Label where
  labelType : LabelType
  bytes : List UInt8
  length_eq : bytes.length = labelType.size

/-- What `decapsulate_gse` keeps of the addresses from one packet of a frame to the next. -/
structure FilterState where
  bfirstGse : Bool
  previous : PreviousMacInfo

namespace FilterState

/-- `filter_address` on the next packet; a match clears the flag. -/
def filter (mac : List UInt8) (s : FilterState) (x : Label) : ℤ × FilterState :=
  let (macMatch, previous) := filterAddress x.labelType x.bytes mac s.bfirstGse s.previous
  (macMatch, ⟨if macMatch = 1 then false else s.bfirstGse, previous⟩)

def after (mac : List UInt8) (s : FilterState) (xs : List Label) : FilterState :=
  xs.foldl (fun s x => (s.filter mac x).2) s

/-- The return values of `filter_address`, packet by packet. -/
def decisions (mac : List UInt8) (s : FilterState) : List Label → List ℤ
  | [] => []
  | x :: xs => (s.filter mac x).1 :: (s.filter mac x).2.decisions mac xs

lemma decisions_getElem (mac : List UInt8) (s : FilterState) (earlier later : List Label) (x : Label) :
    (s.decisions mac (earlier ++ x :: later))[earlier.length]? =
      some ((s.after mac earlier).filter mac x).1 := by
  induction earlier generalizing s with
  | nil => rfl
  | cons y ys ih => exact ih (s.filter mac y).2

end FilterState

/-- The label that is for us: broadcast, or as much of our address as it has bytes. -/
def Label.Ours (mac : List UInt8) (x : Label) : Prop :=
  x.labelType = .broadcast ∨ x.bytes = mac.take x.labelType.size

def lastExplicit (earlier : List Label) : Option Label :=
  earlier.reverse.find? fun x => x.labelType ≠ .reuse

def effective (earlier : List Label) (x : Label) : Option Label :=
  if x.labelType = .reuse then lastExplicit earlier else some x

lemma lastExplicit_snoc (earlier : List Label) (x : Label) :
    lastExplicit (earlier ++ [x]) = effective earlier x := by
  by_cases hx : x.labelType = .reuse
  · simp [lastExplicit, effective, hx]
  · simp [lastExplicit, effective, hx]

/-- `previous_mac_info` tells of the label `x`. -/
structure PreviousMacInfo.Tells (p : PreviousMacInfo) (x : Label) : Prop where
  labelType : p.labelType = x.labelType
  explicit : x.labelType ≠ .reuse
  address : x.labelType ≠ .broadcast →
    p.macLength = x.labelType.size ∧ p.macAddress.take p.macLength = x.bytes

/-- What is left behind a part of a frame: without an explicit label the flag still stands; and
it stands behind one only when that one is not ours. -/
def FilterState.Remembers (mac : List UInt8) (earlier : List Label) (s : FilterState) : Prop :=
  match lastExplicit earlier with
  | none => s.bfirstGse = true
  | some x => s.previous.Tells x ∧ (s.bfirstGse = true → ¬ x.Ours mac)

section Filter

variable {mac : List UInt8} {earlier : List Label} {s : FilterState} {x : Label}

lemma macMatch_eq_one {b : Bool} : macMatch b = 1 ↔ b = true := by cases b <;> simp [macMatch]

lemma filterAddress_compared (mac : List UInt8) {labelType : LabelType} {bytes : List UInt8}
    (h : labelType = .sixBytes ∨ labelType = .threeBytes) (hlen : bytes.length = labelType.size)
    (bfirstGse : Bool) (p : PreviousMacInfo) :
    filterAddress labelType bytes mac bfirstGse p =
      (macMatch (bytes == mac.take labelType.size),
        ⟨labelType, labelType.size, bytes ++ p.macAddress.drop labelType.size⟩) := by
  have htake : bytes.take labelType.size = bytes := List.take_of_length_le hlen.le
  rcases h with rfl | rfl
  · simp only [LabelType.size] at htake
    simp [filterAddress, equalMac, LabelType.size, htake]
  · simp only [LabelType.size] at htake
    simp [filterAddress, equalMac, LabelType.size, htake]

lemma FilterState.filter_explicit (mac : List UInt8) (s : FilterState) (hx : x.labelType ≠ .reuse) :
    ((s.filter mac x).1 = 1 ↔ x.Ours mac) ∧ (s.filter mac x).2.previous.Tells x := by
  have hcompared (h : x.labelType = .sixBytes ∨ x.labelType = .threeBytes) :
      ((s.filter mac x).1 = 1 ↔ x.Ours mac) ∧ (s.filter mac x).2.previous.Tells x := by
    have hne : x.labelType ≠ .broadcast := by rcases h with h | h <;> simp [h]
    have hf := filterAddress_compared mac h x.length_eq s.bfirstGse s.previous
    simp only [FilterState.filter, hf]
    refine ⟨?_, rfl, hx, fun _ => ⟨rfl, ?_⟩⟩
    · rw [macMatch_eq_one, beq_iff_eq, Label.Ours, or_iff_right hne]
    · exact List.take_left' x.length_eq
  cases hl : x.labelType with
  | sixBytes => exact hcompared (.inl hl)
  | threeBytes => exact hcompared (.inr hl)
  | reuse => exact absurd hl hx
  | broadcast =>
    have hf : filterAddress x.labelType x.bytes mac s.bfirstGse s.previous =
        (1, { s.previous with labelType := .broadcast }) := by simp [filterAddress, hl]
    simp only [FilterState.filter, hf]
    exact ⟨iff_of_true trivial (.inl hl), hl.symm, hx, fun h => absurd hl h⟩

lemma FilterState.filter_reuse (h : s.Remembers mac earlier) (hx : x.labelType = .reuse) :
    ((s.filter mac x).1 = 1 ↔ ∃ y, lastExplicit earlier = some y ∧ y.Ours mac) ∧
      (s.filter mac x).2.previous = s.previous := by
  by_cases hfirst : s.bfirstGse = true
  · have hf : filterAddress x.labelType x.bytes mac s.bfirstGse s.previous = (-1, s.previous) := by
      simp [filterAddress, hx, hfirst]
    simp only [FilterState.filter, hf]
    refine ⟨iff_of_false (by norm_num) ?_, trivial⟩
    rintro ⟨y, hy, hours⟩
    simp only [Remembers, hy] at h
    exact h.2 hfirst hours
  · cases hy : lastExplicit earlier with
    | none =>
      simp only [Remembers, hy] at h
      exact absurd h hfirst
    | some y =>
      simp only [Remembers, hy] at h
      obtain ⟨hlabel, hne, haddress⟩ := h.1
      have hf : filterAddress x.labelType x.bytes mac s.bfirstGse s.previous =
          if y.labelType = .broadcast then (1, s.previous)
          else (macMatch (mac.take y.labelType.size == y.bytes), s.previous) := by
        rw [Bool.not_eq_true] at hfirst
        simp only [filterAddress, hx, hfirst, hlabel, Bool.false_and, Bool.false_eq_true, if_false]
        split_ifs with hb
        · rfl
        · obtain ⟨hsize, htake⟩ := haddress hb
          rw [equalMac, htake, hsize]
      simp only [FilterState.filter, hf, Option.some.injEq, exists_eq_left']
      split_ifs with hb
      · exact ⟨iff_of_true rfl (.inl hb), rfl⟩
      · refine ⟨?_, rfl⟩
        rw [macMatch_eq_one, beq_iff_eq, Label.Ours, or_iff_right hb]
        exact eq_comm

lemma FilterState.Remembers.filter (h : s.Remembers mac earlier) (x : Label) :
    ((s.filter mac x).1 = 1 ↔ ∃ y, effective earlier x = some y ∧ y.Ours mac) ∧
      (s.filter mac x).2.Remembers mac (earlier ++ [x]) := by
  have hflag : (s.filter mac x).2.bfirstGse = true →
      s.bfirstGse = true ∧ (s.filter mac x).1 ≠ 1 := by
    simp only [FilterState.filter]
    split_ifs with hone
    · simp
    · exact fun hb => ⟨hb, hone⟩
  by_cases hx : x.labelType = .reuse
  · obtain ⟨hiff, hprevious⟩ := FilterState.filter_reuse h hx
    have heffective : effective earlier x = lastExplicit earlier := if_pos hx
    rw [Remembers, lastExplicit_snoc, heffective]
    refine ⟨hiff, ?_⟩
    cases hy : lastExplicit earlier with
    | none =>
      simp only [Remembers, hy] at h
      rw [hy] at hiff
      simp only [FilterState.filter] at hiff ⊢
      rw [if_neg (by simp [hiff])]
      exact h
    | some y =>
      simp only [Remembers, hy] at h
      exact ⟨hprevious ▸ h.1, fun hb => h.2 (hflag hb).1⟩
  · obtain ⟨hiff, htells⟩ := FilterState.filter_explicit mac s hx
    have heffective : effective earlier x = some x := if_neg hx
    rw [Remembers, lastExplicit_snoc, heffective]
    refine ⟨by simpa using hiff, htells, fun hb hours => (hflag hb).2 (hiff.mpr hours)⟩

lemma FilterState.Remembers.after (h : s.Remembers mac earlier) (xs : List Label) :
    (s.after mac xs).Remembers mac (earlier ++ xs) := by
  induction xs generalizing s earlier with
  | nil => rwa [List.append_nil]
  | cons x xs ih =>
    have hnext := ih (h.filter x).2
    rwa [List.append_assoc, List.singleton_append] at hnext

lemma FilterState.remembers_first (mac : List UInt8) (p : PreviousMacInfo) :
    FilterState.Remembers mac [] ⟨true, p⟩ := rfl

end Filter

/-- `filter_address` lets a packet of a frame through exactly when its effective label is
broadcast or ours; a REUSE label behind no explicit one never is. -/
theorem filter_decides (mac : List UInt8) (previous : PreviousMacInfo) (earlier later : List Label)
    (x : Label) :
    ∃ d, (FilterState.decisions mac ⟨true, previous⟩ (earlier ++ x :: later))[earlier.length]? = some d ∧
      (d = 1 ↔ ∃ y, effective earlier x = some y ∧ y.Ours mac) := by
  have hremembers := (FilterState.remembers_first mac previous).after earlier
  rw [List.nil_append] at hremembers
  exact ⟨_, FilterState.decisions_getElem mac _ earlier later x, (hremembers.filter x).1⟩

end Fengtai.Receive
