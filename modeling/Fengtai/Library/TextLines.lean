import Mathlib.Data.List.TakeWhile
import Mathlib.Tactic

set_option autoImplicit false

/-! Text files of numbers as C programs read them: lines by `fgets`, fields by `strsep`, and the
fields by `atoi` and `strtol`. -/

namespace Fengtai.Library.TextLines

def newline : UInt8 := 10

/-- The lines `fgets` gets into a buffer of `n` bytes, of which `line` is read and `room` are free. -/
def fgetsLines (n : ℕ) : ℕ → List UInt8 → List UInt8 → List (List UInt8)
  | _, line, [] => if line = [] then [] else [line]
  | room, line, c :: text =>
    if c = newline ∨ room ≤ 1 then (line ++ [c]) :: fgetsLines n (n - 1) [] text
    else fgetsLines n (room - 1) (line ++ [c]) text

def readLines (n : ℕ) (text : List UInt8) : List (List UInt8) := fgetsLines n (n - 1) [] text

def isSpace (c : UInt8) : Bool := c == 32 || (9 ≤ c && c ≤ 13)

def isDigit (c : UInt8) : Bool := 48 ≤ c && c ≤ 57

def digitsValue (ds : List UInt8) : ℕ := ds.foldl (fun v c => 10 * v + (c.toNat - 48)) 0

def sign : List UInt8 → Bool × List UInt8
  | 45 :: s => (true, s)
  | 43 :: s => (false, s)
  | s => (false, s)

/-- A value that no `int` holds is undefined behaviour. -/
def atoi (s : List UInt8) : Option ℤ :=
  let r := sign (s.dropWhile isSpace)
  let v : ℤ := digitsValue (r.2.takeWhile isDigit)
  let v := if r.1 then -v else v
  if -2147483648 ≤ v ∧ v < 2147483648 then some v else none

def isHexDigit (c : UInt8) : Bool :=
  isDigit c || (65 ≤ c && c ≤ 70) || (97 ≤ c && c ≤ 102)

def hexDigit (c : UInt8) : ℕ :=
  if isDigit c then c.toNat - 48 else if c ≤ 70 then c.toNat - 55 else c.toNat - 87

def hexValue (ds : List UInt8) : ℕ := ds.foldl (fun v c => 16 * v + hexDigit c) 0

/-- The characters behind `0x` or `0X`, if a hexadecimal digit is next. -/
def skipHexMark : List UInt8 → List UInt8
  | 48 :: m :: c :: s => if (m = 120 ∨ m = 88) ∧ isHexDigit c = true then c :: s else 48 :: m :: c :: s
  | s => s

/-- `strtol` to the base 16: what no `long` holds becomes the nearest that one does. -/
def strtol16 (s : List UInt8) : ℤ :=
  let r := sign (s.dropWhile isSpace)
  let v : ℤ := hexValue ((skipHexMark r.2).takeWhile isHexDigit)
  if r.1 then max (-v) (-9223372036854775808) else min v 9223372036854775807

section Lines

variable {n : ℕ}

lemma fgetsLines_line {text line : List UInt8} (hline : newline ∉ line) (room : ℕ)
    (read : List UInt8) (h : line.length < room) :
    fgetsLines n room read (line ++ newline :: text) =
      (read ++ line ++ [newline]) :: readLines n text := by
  induction line generalizing room read with
  | nil => simp [fgetsLines, readLines]
  | cons c line ih =>
    rw [List.mem_cons, not_or] at hline
    rw [List.length_cons] at h
    rw [List.cons_append, fgetsLines, if_neg (by rintro (rfl | hroom); exacts [hline.1 rfl, by omega]),
      ih hline.2 _ _ (by omega)]
    simp

lemma fgetsLines_last {line : List UInt8} (hline : newline ∉ line) (room : ℕ) (read : List UInt8)
    (hread : read ++ line ≠ []) (h : line.length ≤ room) :
    fgetsLines n room read line = [read ++ line] := by
  induction line generalizing room read with
  | nil => simpa [fgetsLines] using hread
  | cons c line ih =>
    rw [List.mem_cons, not_or] at hline
    rw [List.length_cons] at h
    rw [fgetsLines]
    split_ifs with hend
    · obtain rfl : line = [] := by
        rcases hend with rfl | hroom
        · exact absurd rfl hline.1
        · exact List.eq_nil_of_length_eq_zero (by omega)
      simp [fgetsLines]
    · rw [ih hline.2 _ _ (by simp) (by omega)]
      simp

lemma readLines_line {line text : List UInt8} (hline : newline ∉ line) (h : line.length + 1 < n) :
    readLines n (line ++ newline :: text) = (line ++ [newline]) :: readLines n text := by
  apply fgetsLines_line hline
  omega

lemma readLines_last {line : List UInt8} (hline : newline ∉ line) (hne : line ≠ [])
    (h : line.length < n) : readLines n line = [line] := by
  apply fgetsLines_last hline (n - 1) [] hne
  omega

inductive LinesOf {α : Type*} (n : ℕ) (IsLine : α → List UInt8 → Prop) :
    List α → List UInt8 → Prop
  | nil : LinesOf n IsLine [] []
  | last {x : α} {line : List UInt8} (h : IsLine x line) (hline : line.length < n) :
      LinesOf n IsLine [x] line
  | line {x : α} {xs : List α} {line text : List UInt8} (h : IsLine x line)
      (hline : line.length + 1 < n) (hrest : LinesOf n IsLine xs text) :
      LinesOf n IsLine (x :: xs) (line ++ newline :: text)

/-- The line of `x` as `fgets` reads it. -/
def ReadAs {α : Type*} (n : ℕ) (IsLine : α → List UInt8 → Prop) (x : α) (read : List UInt8) : Prop :=
  ∃ line tail, read = line ++ tail ∧ IsLine x line ∧ line.length < n ∧
    (tail = [] ∨ tail = [newline])

lemma LinesOf.readLines {α : Type*} {IsLine : α → List UInt8 → Prop} {xs : List α}
    {text : List UInt8} (h : LinesOf n IsLine xs text)
    (hplain : ∀ x line, IsLine x line → line ≠ [] ∧ newline ∉ line) :
    List.Forall₂ (ReadAs n IsLine) xs (readLines n text) := by
  induction h with
  | nil => exact List.Forall₂.nil
  | @last x line h hline =>
    rw [readLines_last (hplain x line h).2 (hplain x line h).1 hline]
    exact .cons ⟨line, [], by simp, h, hline, Or.inl rfl⟩ .nil
  | @line x xs line text h hline hrest ih =>
    rw [readLines_line (hplain x line h).2 hline]
    exact .cons ⟨line, [newline], rfl, h, by omega, Or.inr rfl⟩ ih

lemma ends_plain {tail : List UInt8} (h : tail = [] ∨ tail = [newline]) {p : UInt8 → Bool}
    (hp : p newline = false) : ∀ c ∈ tail, p c = false := by
  rcases h with rfl | rfl
  · exact fun c hc => absurd hc List.not_mem_nil
  · simpa using hp

lemma string_eq {line tail : List UInt8} (hline : (0 : UInt8) ∉ line)
    (htail : tail = [] ∨ tail = [newline]) :
    (line ++ tail).takeWhile (· != 0) = line ++ tail := by
  apply List.takeWhile_eq_self_iff.2
  intro c hc
  rw [bne_iff_ne]
  rintro rfl
  rcases List.mem_append.1 hc with hc | hc
  · exact hline hc
  · have hne := ends_plain htail (p := fun c => c == 0) rfl 0 hc
    cases hne

end Lines

lemma foldlM_filter {α β γ : Type*} {f : β → γ → Option β} {keep : α → Bool} {R : α → γ → Prop}
    {Fits : List α → Prop} {Inv : List α → β → Prop} (hleft : ∀ xs ys, Fits (xs ++ ys) → Fits xs)
    (hstep : ∀ xs x l s, R x l → Inv xs s → Fits (xs ++ [x].filter keep) →
      ∃ s', f s l = some s' ∧ Inv (xs ++ [x].filter keep) s')
    {xs kept : List α} {ls : List γ} {s : β} (h : List.Forall₂ R xs ls) (hs : Inv kept s)
    (hfit : Fits (kept ++ xs.filter keep)) :
    ∃ s', ls.foldlM f s = some s' ∧ Inv (kept ++ xs.filter keep) s' := by
  induction h generalizing kept s with
  | nil => exact ⟨s, rfl, by simpa using hs⟩
  | @cons x l xs ls hx _ ih =>
    have hcons : (x :: xs).filter keep = [x].filter keep ++ xs.filter keep := by
      rw [← List.filter_append, List.singleton_append]
    rw [hcons, ← List.append_assoc] at hfit ⊢
    obtain ⟨s', hone, hs'⟩ := hstep kept x l s hx hs (hleft _ _ hfit)
    obtain ⟨s'', hrun, hs''⟩ := ih hs' hfit
    refine ⟨s'', ?_, hs''⟩
    rw [List.foldlM_cons, hone]
    exact hrun

/-- Any way to write `n` in digits. -/
structure Numeral (ds : List UInt8) (n : ℕ) : Prop where
  ne_nil : ds ≠ []
  digits : ∀ c ∈ ds, isDigit c = true
  value : digitsValue ds = n

lemma not_isSpace_of_isDigit {c : UInt8} (h : isDigit c = true) : isSpace c = false := by
  simp only [isDigit, isSpace, Bool.and_eq_true, decide_eq_true_eq, UInt8.le_iff_toNat_le] at *
  rw [Bool.or_eq_false_iff, beq_eq_false_iff_ne, Bool.and_eq_false_iff, decide_eq_false_iff_not,
    decide_eq_false_iff_not, ne_eq, ← UInt8.toNat_inj]
  simp only [UInt8.reduceToNat] at *
  omega

lemma sign_of_isDigit {c : UInt8} (h : isDigit c = true) (s : List UInt8) :
    sign (c :: s) = (false, c :: s) := by
  rw [sign]
  all_goals
    rintro s' heq
    obtain rfl := (List.cons.inj heq).1
    exact absurd h (by decide)

lemma atoi_numeral {ds rest : List UInt8} {n : ℕ} (h : Numeral ds n) (hn : n < 2147483648)
    (hrest : ∀ c ∈ rest.head?, isDigit c = false) : atoi (ds ++ rest) = some (n : ℤ) := by
  obtain ⟨c, cs, rfl⟩ := List.exists_cons_of_ne_nil h.ne_nil
  have hc := h.digits c List.mem_cons_self
  have hskip : (c :: cs ++ rest).dropWhile isSpace = c :: cs ++ rest := by
    rw [List.cons_append, List.dropWhile_cons, not_isSpace_of_isDigit hc]
    rfl
  have htake : (c :: cs ++ rest).takeWhile isDigit = c :: cs := by
    rw [List.takeWhile_append_of_pos h.digits]
    cases rest with
    | nil => simp
    | cons d rest => simp [hrest d rfl]
  have hsign : sign (c :: cs ++ rest) = (false, c :: cs ++ rest) := sign_of_isDigit hc _
  rw [atoi, hskip, hsign]
  simp only [htake, h.value, Bool.false_eq_true, if_false]
  rw [if_pos (by omega)]

inductive Row (isDelim : UInt8 → Bool) (bound : ℕ) : List ℕ → List UInt8 → Prop
  | one {ds : List UInt8} {n : ℕ} (h : Numeral ds n) (hn : n < bound) : Row isDelim bound [n] ds
  | more {ds text : List UInt8} {n : ℕ} {row : List ℕ} {d : UInt8} (h : Numeral ds n)
      (hn : n < bound) (hd : isDelim d = true) (hrow : Row isDelim bound row text) :
      Row isDelim bound (n :: row) (ds ++ d :: text)

namespace Row

variable {isDelim : UInt8 → Bool} {bound : ℕ} {row : List ℕ} {text : List UInt8}

lemma ne_nil (h : Row isDelim bound row text) : row ≠ [] ∧ text ≠ [] := by
  cases h with
  | one h => exact ⟨List.cons_ne_nil _ _, h.ne_nil⟩
  | more h => exact ⟨List.cons_ne_nil _ _, by simp [h.ne_nil]⟩

lemma lt (h : Row isDelim bound row text) : ∀ n ∈ row, n < bound := by
  induction h with
  | one h hn => simpa using hn
  | more h hn hd hrow ih => simpa using ⟨hn, ih⟩

lemma length_le (h : Row isDelim bound row text) : row.length ≤ text.length := by
  induction h with
  | one h => exact List.length_pos_iff.2 h.ne_nil
  | more h hn hd hrow ih =>
    rw [List.length_append, List.length_cons, List.length_cons]
    omega

lemma not_mem (h : Row isDelim bound row text) {c : UInt8} (hdigit : isDigit c = false)
    (hdelim : isDelim c = false) : c ∉ text := by
  have hds {ds : List UInt8} {n : ℕ} (hn : Numeral ds n) : c ∉ ds := by
    intro hc
    rw [hn.digits c hc] at hdigit
    cases hdigit
  induction h with
  | one h => exact hds h
  | more h hn hd hrow ih =>
    rw [List.mem_append, List.mem_cons, not_or, not_or]
    refine ⟨hds h, ?_, ih⟩
    rintro rfl
    rw [hd] at hdelim
    cases hdelim

lemma fields (h : Row isDelim bound row text) (hbound : bound ≤ 2147483648)
    (hdelim : ∀ c, isDigit c = true → isDelim c = false) {tail : List UInt8}
    (htail : ∀ c ∈ tail, isDigit c = false ∧ isDelim c = false) :
    List.Forall₂ (fun (n : ℕ) p => atoi p = some (n : ℤ)) row ((text ++ tail).splitOnP isDelim) := by
  have hds {ds : List UInt8} {n : ℕ} (hn : Numeral ds n) : ∀ c ∈ ds, isDelim c = false :=
    fun c hc => hdelim c (hn.digits c hc)
  induction h with
  | @one ds n h hn =>
    have hnone : ∀ c ∈ ds ++ tail, isDelim c = false := by
      intro c hc
      rcases List.mem_append.1 hc with hc | hc
      exacts [hds h c hc, (htail c hc).2]
    rw [List.splitOnP_eq_singleton hnone]
    refine List.Forall₂.cons (atoi_numeral h (by omega) fun c hc => ?_) List.Forall₂.nil
    exact (htail c (List.mem_of_mem_head? hc)).1
  | @more ds text n row d h hn hd hrow ih =>
    rw [List.append_assoc, List.cons_append, List.splitOnP_append_cons_of_forall_mem (hds h) d hd]
    refine List.Forall₂.cons ?_ ih
    have hatoi := @atoi_numeral ds [] n h (by omega) (by simp)
    rwa [List.append_nil] at hatoi

end Row

/-- Any way to write `n` in hexadecimal digits behind `0x`. -/
structure HexNumeral (text : List UInt8) (n : ℕ) : Prop where
  digits : ∃ c cs, text = 48 :: 120 :: c :: cs ∧ (∀ d ∈ c :: cs, isHexDigit d = true) ∧
    hexValue (c :: cs) = n

lemma strtol16_hexNumeral {text : List UInt8} {n : ℕ} (h : HexNumeral text n)
    (hn : n < 9223372036854775808) : strtol16 text = n := by
  obtain ⟨c, cs, rfl, hdigits, hvalue⟩ := h.digits
  have hskip : (48 :: 120 :: c :: cs : List UInt8).dropWhile isSpace = 48 :: 120 :: c :: cs := rfl
  have hsign : sign (48 :: 120 :: c :: cs) = (false, 48 :: 120 :: c :: cs) := rfl
  have hmark : skipHexMark (48 :: 120 :: c :: cs) = c :: cs := by
    rw [skipHexMark, if_pos ⟨Or.inl rfl, hdigits c List.mem_cons_self⟩]
  have htake : (c :: cs).takeWhile isHexDigit = c :: cs := List.takeWhile_eq_self_iff.2 hdigits
  rw [strtol16, hskip, hsign]
  simp only [hmark, htake, hvalue, Bool.false_eq_true, if_false]
  omega

inductive Fields (isDelim : UInt8 → Bool) : List (List UInt8) → List UInt8 → Prop
  | one {p : List UInt8} (hp : ∀ c ∈ p, isDelim c = false) : Fields isDelim [p] p
  | more {p text : List UInt8} {ps : List (List UInt8)} {d : UInt8}
      (hp : ∀ c ∈ p, isDelim c = false) (hd : isDelim d = true) (hrest : Fields isDelim ps text) :
      Fields isDelim (p :: ps) (p ++ d :: text)

lemma Fields.splitOnP {isDelim : UInt8 → Bool} {ps : List (List UInt8)} {text tail : List UInt8}
    (h : Fields isDelim ps text) (htail : ∀ c ∈ tail, isDelim c = false) :
    (text ++ tail).splitOnP isDelim = ps.dropLast ++ [ps.getLastD [] ++ tail] := by
  induction h with
  | @one p hp =>
    apply List.splitOnP_eq_singleton
    intro c hc
    rcases List.mem_append.1 hc with hc | hc
    exacts [hp c hc, htail c hc]
  | @more p text ps d hp hd hrest ih =>
    rw [List.append_assoc, List.cons_append, List.splitOnP_append_cons_of_forall_mem hp d hd, ih]
    cases hrest with
    | one => rfl
    | more => rfl

end Fengtai.Library.TextLines
