import Mathlib.Tactic

set_option autoImplicit false

/-! Machine words as natural numbers with explicit truncation, and their bytes
on a little-endian target. -/

namespace Fengtai.Library.Words

def u8 (x : ℕ) : ℕ := x % 256
def u16 (x : ℕ) : ℕ := x % 65536
def u32 (x : ℕ) : ℕ := x % 4294967296

def sub16 (a b : ℕ) : ℕ := (a + (65536 - b % 65536)) % 65536

@[simp] lemma u8_lt (x : ℕ) : u8 x < 256 := Nat.mod_lt _ (by norm_num)
@[simp] lemma u16_lt (x : ℕ) : u16 x < 65536 := Nat.mod_lt _ (by norm_num)
@[simp] lemma u32_lt (x : ℕ) : u32 x < 4294967296 := Nat.mod_lt _ (by norm_num)
@[simp] lemma sub16_lt (a b : ℕ) : sub16 a b < 65536 := Nat.mod_lt _ (by norm_num)

lemma u8_of_lt {x : ℕ} (h : x < 256) : u8 x = x := Nat.mod_eq_of_lt h
lemma u16_of_lt {x : ℕ} (h : x < 65536) : u16 x = x := Nat.mod_eq_of_lt h
lemma u32_of_lt {x : ℕ} (h : x < 4294967296) : u32 x = x := Nat.mod_eq_of_lt h

lemma sub16_of_le {a b : ℕ} (h : b ≤ a) (ha : a < 65536) : sub16 a b = a - b := by
  rw [sub16]
  omega

/-- Exchange of the two bytes of a 16-bit word: `rte_cpu_to_be_16`, `htons`. -/
def bswap16 (x : ℕ) : ℕ := x % 256 * 256 + x / 256 % 256

@[simp] lemma bswap16_lt (x : ℕ) : bswap16 x < 65536 := by
  rw [bswap16]
  omega

lemma bswap16_mod (x : ℕ) : bswap16 x % 256 = x / 256 % 256 := by
  rw [bswap16]
  omega

lemma bswap16_div (x : ℕ) : bswap16 x / 256 = x % 256 := by
  have hb : x / 256 % 256 < 256 := Nat.mod_lt _ (by norm_num)
  rw [bswap16]
  generalize x / 256 % 256 = b at hb
  omega

lemma bswap16_bswap16 {x : ℕ} (h : x < 65536) : bswap16 (bswap16 x) = x := by
  calc bswap16 (bswap16 x) = bswap16 x % 256 * 256 + bswap16 x / 256 % 256 := rfl
    _ = x / 256 % 256 * 256 + x % 256 % 256 := by rw [bswap16_mod, bswap16_div]
    _ = x := by omega

def le16 (x : ℕ) : List UInt8 := [UInt8.ofNat x, UInt8.ofNat (x / 256)]

def be16 (x : ℕ) : List UInt8 := [UInt8.ofNat (x / 256), UInt8.ofNat x]

@[simp] lemma le16_length (x : ℕ) : (le16 x).length = 2 := rfl
@[simp] lemma be16_length (x : ℕ) : (be16 x).length = 2 := rfl

@[simp] lemma le16_bswap16 (x : ℕ) : le16 (bswap16 x) = be16 x := by
  have hlow : UInt8.ofNat (bswap16 x) = UInt8.ofNat (x / 256) := by
    apply UInt8.toNat_inj.mp
    simp [bswap16_mod]
  have hhigh : UInt8.ofNat (bswap16 x / 256) = UInt8.ofNat x := by
    apply UInt8.toNat_inj.mp
    simp [bswap16_div]
  rw [le16, be16, hlow, hhigh]

def be32 (x : ℕ) : List UInt8 :=
  [UInt8.ofNat (x / 16777216), UInt8.ofNat (x / 65536), UInt8.ofNat (x / 256), UInt8.ofNat x]

@[simp] lemma be32_length (x : ℕ) : (be32 x).length = 4 := rfl

def beValue (bs : List UInt8) : ℕ := bs.foldl (fun v b => v * 256 + b.toNat) 0

lemma beValue_be16 (x : ℕ) : beValue (be16 x) = u16 x := by
  simp only [beValue, be16, u16, List.foldl_cons, List.foldl_nil, UInt8.toNat_ofNat']
  omega

lemma beValue_be32 {x : ℕ} (h : x < 4294967296) : beValue (be32 x) = x := by
  simp only [beValue, be32, List.foldl_cons, List.foldl_nil, UInt8.toNat_ofNat']
  omega

/-- Memory from some address on; what lies beyond an object is arbitrary. -/
abbrev Memory := ℕ → UInt8

def window (mem : Memory) (offset n : ℕ) : List UInt8 :=
  (List.range n).map fun i => mem (offset + i)

@[simp] lemma window_length (mem : Memory) (offset n : ℕ) : (window mem offset n).length = n := by
  simp [window]

@[simp] lemma window_zero (mem : Memory) (offset : ℕ) : window mem offset 0 = [] := rfl

lemma window_add (mem : Memory) (offset m n : ℕ) :
    window mem offset (m + n) = window mem offset m ++ window mem (offset + m) n := by
  simp only [window, List.range_add, List.map_append, List.map_map]
  congr 1
  apply List.map_congr_left
  intro i _
  simp [Nat.add_assoc]

lemma window_succ (mem : Memory) (offset n : ℕ) :
    window mem offset (n + 1) = mem offset :: window mem (offset + 1) n := by
  rw [Nat.add_comm n 1, window_add]
  rfl

def Holds (mem : Memory) (offset : ℕ) (bs : List UInt8) : Prop :=
  window mem offset bs.length = bs

@[simp] lemma holds_nil (mem : Memory) (offset : ℕ) : Holds mem offset [] := rfl

lemma holds_append (mem : Memory) (offset : ℕ) (xs ys : List UInt8) :
    Holds mem offset (xs ++ ys) ↔ Holds mem offset xs ∧ Holds mem (offset + xs.length) ys := by
  rw [Holds]
  rw [List.length_append, window_add]
  constructor
  · exact fun h => List.append_inj h (by simp)
  · rintro ⟨h₁, h₂⟩
    rw [h₁, h₂]

lemma holds_cons (mem : Memory) (offset : ℕ) (b : UInt8) (bs : List UInt8) :
    Holds mem offset (b :: bs) ↔ mem offset = b ∧ Holds mem (offset + 1) bs := by
  simp only [Holds]
  rw [List.length_cons, window_succ, List.cons.injEq]

def overwrite (room : Memory) (bs : List UInt8) : Memory := fun i => bs.getD i (room i)

lemma holds_overwrite (room : Memory) (bs : List UInt8) : Holds (overwrite room bs) 0 bs := by
  rw [Holds]
  apply List.ext_getElem (by simp)
  intro i h₁ h₂
  simp [window, overwrite, List.getD_eq_getElem?_getD, h₂]

/-- The 16-bit word at `offset`, as a little-endian target loads it. -/
def load16 (mem : Memory) (offset : ℕ) : ℕ := (mem offset).toNat + 256 * (mem (offset + 1)).toNat

@[simp] lemma load16_lt (mem : Memory) (offset : ℕ) : load16 mem offset < 65536 := by
  rw [load16]
  have h₁ := (mem offset).toNat_lt
  have h₂ := (mem (offset + 1)).toNat_lt
  omega

lemma load16_le16 {mem : Memory} {offset x : ℕ} (h : Holds mem offset (le16 x)) :
    load16 mem offset = u16 x := by
  simp only [le16, holds_cons] at h
  obtain ⟨h₁, h₂, _⟩ := h
  simp only [load16, h₁, h₂, u16, UInt8.toNat_ofNat']
  omega

lemma load16_be16 {mem : Memory} {offset x : ℕ} (h : Holds mem offset (be16 x)) :
    bswap16 (load16 mem offset) = u16 x := by
  simp only [be16, holds_cons] at h
  obtain ⟨h₁, h₂, _⟩ := h
  have hd : (x / 256 % 2 ^ 8 + 256 * (x % 2 ^ 8)) / 256 = x % 256 := by
    have hb : x / 256 % 2 ^ 8 < 256 := Nat.mod_lt _ (by norm_num)
    generalize x / 256 % 2 ^ 8 = b at hb
    omega
  simp only [load16, h₁, h₂, u16, bswap16, UInt8.toNat_ofNat', hd]
  omega

/-- The 32-bit word at `offset`. -/
def load32 (mem : Memory) (offset : ℕ) : ℕ := load16 mem offset + 65536 * load16 mem (offset + 2)

lemma load32_reverse_be32 {mem : Memory} {offset x : ℕ} (h : Holds mem offset (be32 x).reverse)
    (hx : x < 4294967296) : load32 mem offset = x := by
  simp only [be32, List.reverse_cons, List.reverse_nil, List.nil_append, List.cons_append,
    holds_cons] at h
  obtain ⟨h₁, h₂, h₃, h₄, -⟩ := h
  simp only [load32, load16, h₁, h₂, h₃, h₄, UInt8.toNat_ofNat']
  omega

/-- `ntohs` of the word at `p`, where it stands. -/
def ntohsAt (mem : Memory) (p : ℕ) : Memory := fun i =>
  if i = p then mem (p + 1) else if i = p + 1 then mem p else mem i

lemma holds_ntohsAt {mem : Memory} {p x : ℕ} (h : Holds mem p (be16 x)) :
    Holds (ntohsAt mem p) p (le16 x) := by
  simp only [be16, holds_cons] at h
  obtain ⟨h₁, h₂, -⟩ := h
  simp [le16, holds_cons, ntohsAt, h₁, h₂]

lemma holds_ntohsAt_of_disjoint {mem : Memory} {p q : ℕ} {bs : List UInt8} (h : Holds mem q bs)
    (hd : q + bs.length ≤ p ∨ p + 2 ≤ q) : Holds (ntohsAt mem p) q bs := by
  have hsame : window (ntohsAt mem p) q bs.length = window mem q bs.length := by
    apply List.map_congr_left
    intro i hi
    have hlt := List.mem_range.mp hi
    rw [ntohsAt, if_neg (by omega), if_neg (by omega)]
  rw [Holds, hsame, h]

end Fengtai.Library.Words
