import Fengtai.Library.TextLines
import Fengtai.RouterFunc

set_option autoImplicit false

/-! The router tables: from the lines of `router.conf` to the router headers that are put in front
of packets. -/

namespace Fengtai.Config

open Library.Words Library.TextLines

/-- The router tables of `g_st_app_conf`. Their declaration is not in the tree: an element holds
any node id. -/
structure TableShape where
  rows : ℕ
  columns : ℕ
  element : ℤ → ℕ
  element_natCast : ∀ n : ℕ, n < 65536 → element n = n

/-- The tables, with the static counter of `read_router_string`. -/
structure RouterTables where
  i : ℕ
  routerTableNum : ℕ
  routerTableEntryNum : ℕ → ℕ
  routerTable : ℕ → ℕ → ℕ

def RouterTables.initial : RouterTables := ⟨0, 0, fun _ => 0, fun _ _ => 0⟩

/-- The characters of `",:-\t "`. -/
def isDelim (c : UInt8) : Bool := c == 44 || c == 58 || c == 45 || c == 9 || c == 32

/-- The fields of a line into row `i`, from column `j` on. -/
def storeEntries (shape : TableShape) (i : ℕ) :
    ℕ → List (List UInt8) → (ℕ → ℕ → ℕ) → Option (ℕ × (ℕ → ℕ → ℕ))
  | j, [], table => some (j, table)
  | j, p :: fields, table =>
    (atoi p).bind fun v =>
      if i < shape.rows ∧ j < shape.columns then
        storeEntries shape i (u8 (j + 1)) fields
          (Function.update table i (Function.update (table i) j (shape.element v)))
      else none

def readRouterString (shape : TableShape) (localId : ℕ) (string : List UInt8) (t : RouterTables) :
    Option RouterTables :=
  let fields := (string.takeWhile (· != 0)).splitOnP isDelim
  (atoi (fields.headD [])).bind fun id =>
    if (id % 65536).toNat = localId then
      (storeEntries shape t.i 0 fields t.routerTable).map fun r =>
        { i := u8 (t.i + 1)
          routerTableNum := u8 (t.i + 1)
          routerTableEntryNum := Function.update t.routerTableEntryNum t.i r.1
          routerTable := r.2 }
    else some t

/-- The file is there, with `text` in it. -/
def readRouterTblConfig (shape : TableShape) (localId : ℕ) (text : List UInt8) :
    Option RouterTables :=
  (readLines 100 text).foldlM (fun t line => readRouterString shape localId line t) .initial

section Reading

variable {shape : TableShape} {localId : ℕ}

/-- The tables hold `rows`. -/
structure RouterTables.Lists (t : RouterTables) (rows : List (List ℕ)) : Prop where
  i : t.i = rows.length
  num : t.routerTableNum = rows.length
  entryNum : ∀ i row, rows[i]? = some row → t.routerTableEntryNum i = row.length
  entry : ∀ i row, rows[i]? = some row → ∀ j v, row[j]? = some v → t.routerTable i j = v

lemma RouterTables.lists_initial : RouterTables.initial.Lists [] where
  i := rfl
  num := rfl
  entryNum i row h := by simp at h
  entry i row h := by simp at h

def ownRows (localId : ℕ) (rows : List (List ℕ)) : List (List ℕ) :=
  rows.filter fun row => row.head? = some localId

/-- There is room for `rows`, and the counter of eight bits does not wrap. -/
structure TableShape.Fits (shape : TableShape) (rows : List (List ℕ)) : Prop where
  counter : rows.length < 256
  room : rows.length ≤ shape.rows
  columns : ∀ row ∈ rows, row.length ≤ shape.columns

lemma TableShape.Fits.left {rows rows' : List (List ℕ)} (h : shape.Fits (rows ++ rows')) :
    shape.Fits rows := by
  have hlength : (rows ++ rows').length = rows.length + rows'.length := List.length_append
  refine ⟨?_, ?_, fun row hrow => h.columns row (List.mem_append_left _ hrow)⟩
  · exact (hlength ▸ Nat.le_add_right _ _).trans_lt h.counter
  · exact (hlength ▸ Nat.le_add_right _ _).trans h.room

lemma isDelim_of_isDigit (c : UInt8) (h : isDigit c = true) : isDelim c = false := by
  simp only [isDigit, Bool.and_eq_true, decide_eq_true_eq, UInt8.le_iff_toNat_le] at h
  simp only [isDelim, Bool.or_eq_false_iff, beq_eq_false_iff_ne, ne_eq, ← UInt8.toNat_inj]
  simp only [UInt8.reduceToNat] at *
  omega

lemma storeEntries_eq {row : List ℕ} {fields : List (List UInt8)} {i j : ℕ}
    (h : List.Forall₂ (fun (n : ℕ) p => atoi p = some (n : ℤ)) row fields) (hrow : ∀ n ∈ row, n < 65536)
    (hi : i < shape.rows) (hcolumns : j + row.length ≤ shape.columns)
    (hcounter : j + row.length < 256) (table : ℕ → ℕ → ℕ) :
    ∃ table', storeEntries shape i j fields table = some (j + row.length, table') ∧
      (∀ b v, row[b]? = some v → table' i (j + b) = v) ∧
        ∀ a b, a ≠ i ∨ b < j → table' a b = table a b := by
  induction h generalizing j table with
  | nil => exact ⟨table, rfl, fun b v hb => by simp at hb, fun a b _ => rfl⟩
  | @cons n p row fields hp _ ih =>
    rw [List.length_cons] at hcolumns hcounter
    obtain ⟨table', hstore, hin, hout⟩ := ih (fun m hm => hrow m (List.mem_cons_of_mem _ hm))
      (j := j + 1) (by omega) (by omega)
      (Function.update table i (Function.update (table i) j (shape.element n)))
    refine ⟨table', ?_, ?_, ?_⟩
    · rw [storeEntries, hp, Option.bind_some, if_pos ⟨hi, by omega⟩, u8_of_lt (by omega), hstore,
        List.length_cons]
      congr 2
      omega
    · rintro (_ | b) v hb
      · obtain rfl : n = v := by simpa using hb
        rw [Nat.add_zero, hout i j (Or.inr (Nat.lt_succ_self j)), Function.update_self,
          Function.update_self, shape.element_natCast n (hrow n List.mem_cons_self)]
      · rw [← hin b v (by simpa using hb)]
        congr 1
        omega
    · intro a b hab
      rw [hout a b (by omega)]
      by_cases ha : a = i
      · subst ha
        rw [Function.update_self, Function.update_of_ne (by omega)]
      · rw [Function.update_of_ne ha]

lemma readRouterString_row {row : List ℕ} {text tail : List UInt8} {rows : List (List ℕ)}
    {t : RouterTables} (h : Row isDelim 65536 row text) (htext : text.length < 100)
    (htail : tail = [] ∨ tail = [newline]) (ht : t.Lists rows)
    (hfit : shape.Fits (rows ++ ownRows localId [row])) :
    ∃ t', readRouterString shape localId (text ++ tail) t = some t' ∧
      t'.Lists (rows ++ ownRows localId [row]) := by
  have hstring := string_eq (h.not_mem rfl rfl) htail
  have hfields := h.fields (by norm_num) isDelim_of_isDigit fun c hc =>
    ⟨ends_plain htail rfl c hc, ends_plain htail rfl c hc⟩
  have hlt := h.lt
  have hlength := h.length_le
  rw [readRouterString, hstring]
  generalize (text ++ tail).splitOnP isDelim = fields at hfields
  cases hfields with
  | nil => exact absurd rfl h.ne_nil.1
  | @cons n p row fields hp hrest =>
    have hn := hlt n List.mem_cons_self
    have hid : ((n : ℤ) % 65536).toNat = n := by omega
    simp only [List.headD_cons, hp, Option.bind_some, hid]
    split_ifs with hlocal
    · have hkept : ownRows localId [n :: row] = [n :: row] := by simp [ownRows, hlocal]
      rw [hkept] at hfit ⊢
      obtain ⟨hcounter, hrows, hcolumns⟩ := hfit
      rw [List.length_append, List.length_singleton] at hcounter hrows
      have hcolumn := hcolumns (n :: row) (by simp)
      obtain ⟨table', hstore, hin, hout⟩ := storeEntries_eq (List.Forall₂.cons hp hrest) hlt
        (ht.i.trans_lt hrows) (j := 0) (by omega) (by omega) t.routerTable
      rw [hstore]
      refine ⟨_, rfl, ?_, ?_, ?_, ?_⟩
      · simp only [ht.i, List.length_append, List.length_singleton]
        exact u8_of_lt (by omega)
      · simp only [ht.i, List.length_append, List.length_singleton]
        exact u8_of_lt (by omega)
      · intro i row' hrow'
        simp only
        rcases Nat.lt_trichotomy i rows.length with hi | rfl | hi
        · rw [List.getElem?_append_left hi] at hrow'
          rw [Function.update_of_ne (by rw [ht.i]; omega), ht.entryNum i row' hrow']
        · obtain rfl : n :: row = row' := by simpa using hrow'
          rw [← ht.i, Function.update_self, Nat.zero_add]
        · rw [List.getElem?_eq_none (by simp; omega)] at hrow'
          cases hrow'
      · intro i row' hrow' j v hv
        simp only
        rcases Nat.lt_trichotomy i rows.length with hi | rfl | hi
        · rw [List.getElem?_append_left hi] at hrow'
          rw [hout i j (Or.inl (by rw [ht.i]; omega))]
          exact ht.entry i row' hrow' j v hv
        · obtain rfl : n :: row = row' := by simpa using hrow'
          rw [← ht.i, ← Nat.zero_add j]
          exact hin j v hv
        · rw [List.getElem?_eq_none (by simp; omega)] at hrow'
          cases hrow'
    · have hkept : ownRows localId [n :: row] = [] := by simp [ownRows, hlocal]
      rw [hkept, List.append_nil]
      exact ⟨t, rfl, ht⟩

abbrev Written : List (List ℕ) → List UInt8 → Prop := LinesOf 100 (Row isDelim 65536)

lemma readRouterTblConfig_written {rows : List (List ℕ)} {text : List UInt8}
    (h : Written rows text) (hfit : shape.Fits (ownRows localId rows)) :
    ∃ t, readRouterTblConfig shape localId text = some t ∧ t.Lists (ownRows localId rows) := by
  have hread := h.readLines fun row line hrow =>
    ⟨hrow.ne_nil.2, hrow.not_mem (by decide) (by decide)⟩
  rw [← List.nil_append (ownRows localId rows)] at hfit ⊢
  have hstep (rows : List (List ℕ)) (row : List ℕ) (read : List UInt8) (t : RouterTables)
      (hread : ReadAs 100 (Row isDelim 65536) row read) (ht : t.Lists rows)
      (hroom : shape.Fits (rows ++ ownRows localId [row])) :
      ∃ t', readRouterString shape localId read t = some t' ∧
        t'.Lists (rows ++ ownRows localId [row]) := by
    obtain ⟨line, tail, rfl, hrow, hline, htail⟩ := hread
    exact readRouterString_row hrow hline htail ht hroom
  exact foldlM_filter (fun _ _ h => h.left) hstep hread RouterTables.lists_initial hfit

end Reading

end Fengtai.Config
