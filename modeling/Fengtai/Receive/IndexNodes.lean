import Fengtai.ListOps
import Fengtai.Receive.Timeout

set_option autoImplicit false

/-! `frag_buffer_index_list` as the linked lists it is made of, and that the lists of nodes
behave like `IndexList` through every run of the receiver. -/

namespace Fengtai.Receive

open Library.Runs ListTemplate

abbrev IndexLists := Heap (ℕ × ℕ) (ℕ × ℕ × Fin fragBufferNum)

def indexNode (x : ℕ × ℕ) (k : Fin fragBufferNum) : ℕ × ℕ × Fin fragBufferNum := (x.1, x.2, k)

/-- The `int8_t` behind a node: `init_decap_mem` writes it once. -/
def indexValue (n : ℕ × ℕ × Fin fragBufferNum) : ℤ := n.2.2.val

/-- The loops of `init_decap_mem`, over memory that holds anything. -/
def initIndexLists (h : IndexLists) : IndexLists :=
  searched.foldl (fun h x =>
    (List.finRange fragBufferNum).foldl (fun h k => h.pushList x (indexNode x k)) (h.initList x)) h

/-- `frag_info` and the index lists. -/
structure LinkedTable where
  info : ℕ → ℕ → Fin fragBufferNum → FragInfo
  lists : IndexLists

namespace LinkedTable

def initial (h : IndexLists) : LinkedTable := ⟨fun _ _ _ => .initial, initIndexLists h⟩

def setInfo (T : LinkedTable) (x : ℕ × ℕ) (i : Fin fragBufferNum) (f : FragInfo) : LinkedTable :=
  { T with
    info := Function.update T.info x.1 (Function.update (T.info x.1) x.2
      (Function.update (T.info x.1 x.2) i f)) }

def takeHeader (h : IndexLists) (x : ℕ × ℕ) : Option (Option ℤ × IndexLists) :=
  match h.getHeaderData x with
  | none => some (none, h)
  | some (.head _) => none
  | some (.node n) => (h.removeNodePoint x n).map fun h => (some (indexValue n), h.pushList x n)

/-- The choice of a buffer as both reassembly functions make it: `index` starts as -1. -/
def chooseIndex (T : LinkedTable) (x : ℕ × ℕ) (timeStamp : ℕ) : Option (ℤ × IndexLists) :=
  match (List.finRange fragBufferNum).find? fun i => timeStamp = (T.info x.1 x.2 i).timeStamp with
  | some i => some (i.val, T.lists)
  | none => (takeHeader T.lists x).map fun r => (r.1.getD (-1), r.2)

/-- `start_reassemble_pdu` and `keep_reassemble_pdu`; an index outside the row of `frag_info`
has no result. -/
def receive (env : Dpdk) (x : ℕ × ℕ) (a : Arrival) (s : LinkedTable × Pool) :
    Option ((LinkedTable × Pool) × ℤ) :=
  if a.fragType = .start ∧ 0 < a.fragSeq then some (s, -1)
  else
    (s.1.chooseIndex x a.timeStamp).bind fun c =>
      if h : 0 ≤ c.1 ∧ c.1.toNat < fragBufferNum then
        let i : Fin fragBufferNum := ⟨c.1.toNat, h.2⟩
        let f := s.1.info x.1 x.2 i
        (if a.fragType = .start then f.start env x.2 a s.2 else f.keep x.2 a s.2).map fun r =>
          (({ s.1 with lists := c.2 }.setInfo x i r.info, r.pool), r.code)
      else none

/-- `fragment_timeout` for one list. -/
def timeoutAt (tUs : ℕ) (s : LinkedTable × Pool) (x : ℕ × ℕ) : Option (LinkedTable × Pool) :=
  match s.1.lists.getHeaderData x with
  | none => some s
  | some (.head _) => none
  | some (.node n) =>
    if h : 0 ≤ indexValue n ∧ (indexValue n).toNat < fragBufferNum then
      let i : Fin fragBufferNum := ⟨(indexValue n).toNat, h.2⟩
      let f := s.1.info x.1 x.2 i
      if f.Stale tUs then
        (s.1.lists.removeNodePoint x n).map fun h =>
          ({ s.1 with lists := h.pushList x n }.setInfo x i f.reset, s.2.freeHeld f.pduNode.ptrPdu)
      else some (s.1.setInfo x i { f with timeoutFlag := false }, s.2)
    else none

inductive Event
  | call (x : ℕ × ℕ) (a : Arrival)
  | finish (x : ℕ × ℕ) (i : Fin fragBufferNum)
  | timeout (tUs : ℕ)

/-- A call of a reassembly function, of `finish_reassemble_pdu` or of `fragment_timeout`. -/
def step (env : Dpdk) (s : LinkedTable × Pool) : Event → Option ((LinkedTable × Pool) × ℤ)
  | .call x a => receive env x a s
  | .finish x i => (finishReassemblePdu env (s.1.info x.1 x.2 i) s.2).map fun d =>
      ((s.1.setInfo x i d.info, d.pool), d.ret)
  | .timeout tUs => (searched.foldlM (timeoutAt tUs) s).map fun s => (s, 0)

def InRange (_ : LinkedTable × Pool) : Event → Prop
  | .call x _ => x ∈ searched
  | .finish x _ => x ∈ searched
  | .timeout _ => True

/-- The linked lists and buffers are those of the table `t`. -/
structure Simulates (T : LinkedTable) (t : Table) : Prop where
  info : ∀ x ∈ searched, T.info x.1 x.2 = (t x.1 x.2).info
  lists : ∀ x ∈ searched, Represents T.lists x ((t x.1 x.2).indexList.order.map (indexNode x))

variable {T : LinkedTable} {t : Table} {x : ℕ × ℕ} {h : IndexLists}

lemma indexNode_injective (x : ℕ × ℕ) : Function.Injective (indexNode x) := by
  intro j k hjk
  simpa [indexNode] using hjk

lemma order_nodup (l : IndexList) (x : ℕ × ℕ) : (l.order.map (indexNode x)).Nodup :=
  (l.complete.nodup_iff.mpr (List.nodup_finRange _)).map (indexNode_injective x)

lemma represents_other {h h' : IndexLists} {y : ℕ × ℕ} {l : IndexList}
    {ks : List (Fin fragBufferNum)} (hr : Represents h y (l.order.map (indexNode y))) (hxy : y ≠ x)
    (hf : Frame h h' (owned x (ks.map (indexNode x)))) :
    Represents h' y (l.order.map (indexNode y)) := by
  apply hr.frame hf
  · simpa using hxy
  · intro n hn hc
    obtain ⟨j, -, rfl⟩ := List.mem_map.mp hn
    obtain ⟨k, -, hk⟩ := List.mem_map.mp (node_mem_owned_iff.mp hc)
    exact hxy (Prod.ext (congrArg Prod.fst hk).symm (congrArg (fun n => n.2.1) hk).symm)
  · exact order_nodup l y

lemma header_rotates {l : IndexList} (hr : Represents h x (l.order.map (indexNode x))) :
    h.getHeaderData x = some (.node (indexNode x l.header)) ∧
      ∃ h', h.removeNodePoint x (indexNode x l.header) = some h' ∧
        Represents (h'.pushList x (indexNode x l.header)) x (l.rotate.order.map (indexNode x)) ∧
        Frame h (h'.pushList x (indexNode x l.header)) (owned x (l.order.map (indexNode x))) := by
  have horder : l.order = l.header :: l.order.tail := (List.cons_head_tail l.order_ne_nil).symm
  have hnodup := order_nodup l x
  rw [horder, List.map_cons] at hr hnodup
  obtain ⟨hheader, h', hrun, hrot⟩ := hr.toShows.rotate hnodup
  refine ⟨hheader, h', hrun, ?_, ?_⟩
  · have hrep := hrot.represents
    rw [← List.map_singleton, ← List.map_append] at hrep
    exact hrep
  · rw [horder, List.map_cons]
    exact hrot.frame

lemma setInfo_info (T : LinkedTable) (x y : ℕ × ℕ) (i : Fin fragBufferNum) (f : FragInfo) :
    (T.setInfo x i f).info y.1 y.2 =
      if y = x then Function.update (T.info x.1 x.2) i f else T.info y.1 y.2 := by
  by_cases hyx : y = x
  · subst hyx
    simp [setInfo]
  · rw [if_neg hyx]
    by_cases h₁ : y.1 = x.1
    · have h₂ : y.2 ≠ x.2 := fun hc => hyx (Prod.ext h₁ hc)
      simp [setInfo, h₁, h₂]
    · simp [setInfo, h₁]

lemma table_set_apply (t : Table) (x y : ℕ × ℕ) (c : FragCell) :
    t.set x.1 x.2 c y.1 y.2 = if y = x then c else t y.1 y.2 := by
  rw [Table.set_cases]
  exact if_congr Prod.ext_iff.symm rfl rfl

lemma Simulates.set_lists (hs : Simulates T t) (hx : x ∈ searched) {h' : IndexLists} {c : FragCell}
    (hinfo : c.info = (t x.1 x.2).info)
    (hr : Represents h' x (c.indexList.order.map (indexNode x)))
    (hf : Frame T.lists h' (owned x ((t x.1 x.2).indexList.order.map (indexNode x))))
    (i : Fin fragBufferNum) (f : FragInfo) :
    Simulates (setInfo { T with lists := h' } x i f) (t.set x.1 x.2 (c.set i f)) := by
  constructor
  · intro y hy
    rw [setInfo_info, table_set_apply]
    by_cases hyx : y = x
    · rw [if_pos hyx, if_pos hyx, FragCell.set, hinfo, ← hs.info x hx]
    · rw [if_neg hyx, if_neg hyx]
      exact hs.info y hy
  · intro y hy
    rw [table_set_apply]
    by_cases hyx : y = x
    · rw [if_pos hyx, hyx]
      exact hr
    · rw [if_neg hyx]
      exact represents_other (hs.lists y hy) hyx hf

/-- The pointers choose the buffer `select` chooses, and leave its list. -/
lemma Simulates.chooseIndex (hs : Simulates T t) (hx : x ∈ searched) (stamp : ℕ) :
    ∃ h', T.chooseIndex x stamp = some ((((t x.1 x.2).select stamp).1.val : ℤ), h') ∧
      Represents h' x (((t x.1 x.2).select stamp).2.indexList.order.map (indexNode x)) ∧
      Frame T.lists h' (owned x ((t x.1 x.2).indexList.order.map (indexNode x))) := by
  have hinfo := hs.info x hx
  have hfind : ((List.finRange fragBufferNum).find? fun i =>
      stamp = (T.info x.1 x.2 i).timeStamp) = (t x.1 x.2).findStamp stamp := by
    rw [hinfo]
    rfl
  rw [LinkedTable.chooseIndex, hfind, FragCell.select]
  cases (t x.1 x.2).findStamp stamp with
  | some i => exact ⟨T.lists, rfl, hs.lists x hx, Frame.refl ..⟩
  | none =>
    obtain ⟨hheader, h', hrun, hrep, hframe⟩ := header_rotates (hs.lists x hx)
    refine ⟨_, ?_, hrep, hframe⟩
    simp only [takeHeader, hheader, hrun]
    rfl

lemma Simulates.receive (hs : Simulates T t) (hx : x ∈ searched) (env : Dpdk) (a : Arrival)
    (p : Pool) :
    (receiveFragment env x.2 a (t x.1 x.2) p = none ∧ receive env x a (T, p) = none) ∨
      ∃ r T', receiveFragment env x.2 a (t x.1 x.2) p = some r ∧
        receive env x a (T, p) = some ((T', r.pool), r.code) ∧
          Simulates T' (t.set x.1 x.2 r.cell) := by
  by_cases hseq : a.fragType = .start ∧ 0 < a.fragSeq
  · refine .inr ⟨⟨-1, 0, t x.1 x.2, p⟩, T, receiveFragment_refused env _ _ _ hseq,
      by rw [LinkedTable.receive, if_pos hseq], ?_⟩
    rwa [Table.set_cell]
  obtain ⟨h', hchoose, hrep, hframe⟩ := hs.chooseIndex hx a.timeStamp
  have hindex : (0 : ℤ) ≤ ((t x.1 x.2).select a.timeStamp).1.val ∧
      (((t x.1 x.2).select a.timeStamp).1.val : ℤ).toNat < fragBufferNum := by
    constructor
    · exact Int.natCast_nonneg _
    · rw [Int.toNat_natCast]
      exact Fin.isLt _
  rw [receiveFragment_eq env _ _ _ hseq, LinkedTable.receive, if_neg hseq, hchoose, Option.bind_some,
    dif_pos hindex]
  simp only [Int.toNat_natCast, Fin.eta, hs.info x hx]
  generalize (if a.fragType = .start then _ else _ : Option Received) = result
  cases result with
  | none => exact .inl ⟨rfl, rfl⟩
  | some r =>
    refine .inr ⟨_, _, rfl, rfl, hs.set_lists hx (by rw [FragCell.select_info]) hrep hframe _ _⟩

lemma Simulates.timeoutAt (hs : Simulates T t) (hx : x ∈ searched) (tUs : ℕ) (p : Pool) :
    ∃ T', LinkedTable.timeoutAt tUs (T, p) x =
        some (T', (FragCell.timeout tUs (t x.1 x.2, p)).2) ∧
      Simulates T' (t.set x.1 x.2 (FragCell.timeout tUs (t x.1 x.2, p)).1) := by
  obtain ⟨hheader, h', hrun, hrep, hframe⟩ := header_rotates (hs.lists x hx)
  have hindex : 0 ≤ indexValue (indexNode x (t x.1 x.2).indexList.header) ∧
      (indexValue (indexNode x (t x.1 x.2).indexList.header)).toNat < fragBufferNum :=
    ⟨Int.natCast_nonneg _, by rw [indexValue, Int.toNat_natCast]; exact Fin.isLt _⟩
  have hfin : (⟨(indexValue (indexNode x (t x.1 x.2).indexList.header)).toNat, hindex.2⟩ :
      Fin fragBufferNum) = (t x.1 x.2).indexList.header := by
    simp [indexValue, indexNode]
  rw [LinkedTable.timeoutAt, hheader]
  simp only [dif_pos hindex, hfin, hs.info x hx]
  by_cases hstale : ((t x.1 x.2).info (t x.1 x.2).indexList.header).Stale tUs
  · have hold := hstale
    rw [FragInfo.Stale] at hold
    simp only [if_pos hstale, hrun, Option.map_some, FragCell.timeout, if_pos hold]
    exact ⟨_, rfl, hs.set_lists hx (c := { t x.1 x.2 with indexList := (t x.1 x.2).indexList.rotate })
      rfl hrep hframe _ _⟩
  · have hnew := hstale
    rw [FragInfo.Stale] at hnew
    simp only [if_neg hstale, FragCell.timeout, if_neg hnew]
    exact ⟨_, rfl, hs.set_lists hx rfl (hs.lists x hx) (Frame.refl ..) _ _⟩

lemma Simulates.sweep (hs : Simulates T t) (tUs : ℕ) (p : Pool) {cells : List (ℕ × ℕ)}
    (hcells : cells ⊆ searched) :
    ∃ T' p' t', cells.foldlM (LinkedTable.timeoutAt tUs) (T, p) = some (T', p') ∧
      Simulates T' t' := by
  induction cells generalizing T p t with
  | nil => exact ⟨T, p, t, rfl, hs⟩
  | cons x cells ih =>
    obtain ⟨hx, hcells⟩ := List.cons_subset.mp hcells
    obtain ⟨T', hrun, hs'⟩ := hs.timeoutAt hx tUs p
    obtain ⟨T'', p'', t'', hrest, hs''⟩ := ih hs' _ hcells
    exact ⟨T'', p'', t'', by rw [List.foldlM_cons, hrun]; exact hrest, hs''⟩

lemma represents_pushed (h : IndexLists) (x : ℕ × ℕ) :
    Represents ((List.finRange fragBufferNum).foldl (fun h k => h.pushList x (indexNode x k))
        (h.initList x)) x (IndexList.initial.order.map (indexNode x)) ∧
      Frame h ((List.finRange fragBufferNum).foldl (fun h k => h.pushList x (indexNode x k))
        (h.initList x)) (owned x (IndexList.initial.order.map (indexNode x))) := by
  have horder : IndexList.initial.order = [0, 1] := rfl
  have hrange : List.finRange fragBufferNum = [0, 1] := rfl
  have h₀ := represents_initList h x
  have h₁ := h₀.toShows.push (i := indexNode x 0) List.nodup_nil List.not_mem_nil
  have h₂ := h₁.toShows.push (i := indexNode x 1) (by simp) (by simp [indexNode])
  rw [horder, hrange]
  refine ⟨h₂, ?_⟩
  have hf₀ := (frame_pushList h₀.toShows (indexNode x 0)).mono
    (owned_mono [indexNode x 0, indexNode x 1] (by simp))
  have hf₁ := (frame_pushList h₁.toShows (indexNode x 1)).mono
    (owned_mono [indexNode x 0, indexNode x 1] (by simp))
  exact ((frame_initList h x _).trans hf₀).trans hf₁

lemma represents_initIndexLists (h : IndexLists) (hx : x ∈ searched) :
    Represents (initIndexLists h) x (IndexList.initial.order.map (indexNode x)) := by
  have hnodup := searched_nodup
  rw [initIndexLists]
  generalize searched = cells at hx hnodup
  induction cells using List.reverseRecOn with
  | nil => cases hx
  | append_singleton cells y ih =>
    obtain ⟨hlast, hframe⟩ := represents_pushed
      (cells.foldl (fun h x => (List.finRange fragBufferNum).foldl
        (fun h k => h.pushList x (indexNode x k)) (h.initList x)) h) y
    rw [List.foldl_append]
    by_cases hxy : x = y
    · subst hxy
      exact hlast
    · have hmem : x ∈ cells := by simpa [hxy] using hx
      exact represents_other (ih hmem (List.nodup_append.mp hnodup).1) hxy hframe

lemma simulates_initial (h : IndexLists) : Simulates (initial h) Table.initial := by
  constructor
  · intro x _
    rw [initial]
    rfl
  · intro x hx
    have hlists : (initial h).lists = initIndexLists h := by rw [initial]
    have hlist : (Table.initial x.1 x.2).indexList = IndexList.initial := rfl
    rw [hlists, hlist]
    exact represents_initIndexLists h hx

lemma Simulates.step (hs : Simulates T t) {env : Dpdk} {p p' : Pool} {T' : LinkedTable} {e : Event}
    {o : ℤ} (he : InRange (T, p) e) (hstep : step env (T, p) e = some ((T', p'), o)) :
    ∃ t', Simulates T' t' := by
  cases e with
  | call x a =>
    rw [LinkedTable.step] at hstep
    obtain ⟨-, hnone⟩ | ⟨r, T'', -, hrun, hs'⟩ := hs.receive he env a p
    · rw [hnone] at hstep
      cases hstep
    · rw [hrun, Option.some.injEq, Prod.mk.injEq, Prod.mk.injEq] at hstep
      exact ⟨_, hstep.1.1 ▸ hs'⟩
  | finish x i =>
    obtain ⟨d, -, hd⟩ := Option.map_eq_some_iff.mp hstep
    rw [Prod.mk.injEq, Prod.mk.injEq] at hd
    exact ⟨_, hd.1.1 ▸ hs.set_lists he rfl (hs.lists x he) (Frame.refl ..) i d.info⟩
  | timeout tUs =>
    obtain ⟨s', hrun, hs'⟩ := Option.map_eq_some_iff.mp hstep
    obtain ⟨T'', p'', t'', hsweep, hsim⟩ := hs.sweep tUs p (List.Subset.refl searched)
    rw [hsweep, Option.some.injEq] at hrun
    rw [← hrun, Prod.mk.injEq, Prod.mk.injEq] at hs'
    exact ⟨t'', hs'.1.1 ▸ hsim⟩

/-- Taking the header out of a well-formed list and pushing it keeps the list well formed and
rotates it. In every run of the three functions on lists that start as `init_decap_mem` leaves
them, every list has each index once, and a buffer chosen has one of them. -/
theorem index_lists_rotate {L ι : Type*} [DecidableEq L] [DecidableEq ι] {h : Heap L ι} {l : L}
    {i : ι} {xs : List ι} (hs : Shows h l (i :: xs)) (hnodup : (i :: xs).Nodup) (env : Dpdk)
    (memory : IndexLists) (p : Pool) (s : LinkedTable × Pool)
    (hreached : Reached (step env) InRange (initial memory, p) s) :
    (h.getHeaderData l = some (.node i) ∧
      ∃ h', h.removeNodePoint l i = some h' ∧ Rotated h (h'.pushList l i) l i xs) ∧
    ∀ x ∈ searched,
      (∃ order : List (Fin fragBufferNum), order.Perm (List.finRange fragBufferNum) ∧
        Represents s.1.lists x (order.map (indexNode x))) ∧
      ∀ stamp, ∃ c, s.1.chooseIndex x stamp = some c ∧ 0 ≤ c.1 ∧ c.1 < fragBufferNum := by
  refine ⟨hs.rotate hnodup, fun x hx => ?_⟩
  obtain ⟨t, ht⟩ : ∃ t, Simulates s.1 t := by
    apply hreached.invariant fun s => ∃ t, Simulates s.1 t
    · exact ⟨_, simulates_initial memory⟩
    · rintro ⟨T, p⟩ e ⟨T', p'⟩ o ⟨t, ht⟩ he hstep
      exact ht.step he hstep
  refine ⟨⟨_, (t x.1 x.2).indexList.complete, ht.lists x hx⟩, fun stamp => ?_⟩
  obtain ⟨h', hchoose, -, -⟩ := ht.chooseIndex hx stamp
  exact ⟨_, hchoose, Int.natCast_nonneg _, Int.ofNat_lt.mpr (Fin.isLt _)⟩

def receiveStep (env : Dpdk) (fragID : ℕ) (s : FragCell × Pool) (a : Arrival) :
    Option ((FragCell × Pool) × ℤ) :=
  (receiveFragment env fragID a s.1 s.2).map fun r => ((r.cell, r.pool), r.code)

lemma Simulates.calls (hs : Simulates T t) (hx : x ∈ searched) {env : Dpdk} {p p' : Pool}
    {c : FragCell} {as : List Arrival} {codes : List ℤ}
    (hrun : run (receiveStep env x.2) (t x.1 x.2, p) as = some ((c, p'), codes)) :
    ∃ T', run (LinkedTable.step env) (T, p) (as.map (.call x)) = some ((T', p'), codes) ∧
      Simulates T' (t.set x.1 x.2 c) := by
  induction as generalizing T t p codes with
  | nil =>
    obtain ⟨hstate, rfl⟩ := Prod.mk.inj (Option.some.inj hrun)
    obtain ⟨rfl, rfl⟩ := Prod.mk.inj hstate
    exact ⟨T, rfl, by rwa [Table.set_cell]⟩
  | cons a as ih =>
    obtain ⟨s, code, codes', hstep, hrest, rfl⟩ := (run_cons_eq_some _).mp hrun
    obtain ⟨r, hr, hs'⟩ := Option.map_eq_some_iff.mp hstep
    obtain ⟨rfl, rfl⟩ := Prod.mk.inj hs'
    obtain ⟨hnone, -⟩ | ⟨r', T', hr', hcall, hsim⟩ := hs.receive hx env a p
    · rw [hnone] at hr
      cases hr
    · obtain rfl := Option.some.inj (hr'.symm.trans hr)
      have hsame : (t.set x.1 x.2 r'.cell) x.1 x.2 = r'.cell := Table.set_self ..
      obtain ⟨T'', hmore, hsim'⟩ := ih hsim (hsame.symm ▸ hrest)
      refine ⟨T'', (run_cons_eq_some _).mpr ⟨_, _, _, hcall, hmore, rfl⟩, ?_⟩
      rwa [Table.set_set] at hsim'

def blankHeap (L ι : Type*) : Heap L ι :=
  ⟨fun _ => none, fun _ => none, fun _ => 1, fun _ => none, fun _ => 0, fun _ => 0⟩

def twoNodes : Heap ℕ ℕ := ((blankHeap ℕ ℕ).pushList 0 7).pushList 0 8

lemma twoNodes_shows : Shows twoNodes 0 [7, 8] := by
  have hempty : Represents (blankHeap ℕ ℕ) 0 [] := ⟨⟨⟨rfl, rfl, rfl, rfl⟩, rfl⟩, rfl⟩
  have hone := hempty.toShows.push (i := 7) List.nodup_nil List.not_mem_nil
  exact (hone.toShows.push (by simp) (by decide)).toShows

def sampleStarts : List Arrival :=
  [1, 2, 3].map fun stamp => ⟨.start, fun _ => 0, 8 * stamp, 100, 10, 200, 0, 0x0800⟩

/-- Two nodes change places, and the header of a list that has been rotated three times is the second. -/
theorem index_lists_rotate_three :
    (∃ h', twoNodes.removeNodePoint 0 7 = some h' ∧ Rotated twoNodes (h'.pushList 0 7) 0 7 [8]) ∧
      ∃ s, run (step .willing) (initial (blankHeap _ _), .fresh) (sampleStarts.map (.call (0, 5))) =
          some (s, [0, 0, 0]) ∧
        s.1.lists.getHeaderData (0, 5) = some (.node (indexNode (0, 5) 1)) ∧
        ∀ x ∈ searched,
          (∃ order : List (Fin fragBufferNum), order.Perm (List.finRange fragBufferNum) ∧
            Represents s.1.lists x (order.map (indexNode x))) ∧
          ∀ stamp, ∃ c, s.1.chooseIndex x stamp = some c ∧ 0 ≤ c.1 ∧ c.1 < fragBufferNum := by
  have hx : (0, 5) ∈ searched := mem_searched.mpr ⟨by decide, by decide⟩
  have hcell : (run (receiveStep .willing 5) (.initial, .fresh) sampleStarts).map
      (fun s => (s.1.1.indexList.header, s.2)) = some (1, [0, 0, 0]) := by decide +kernel
  obtain ⟨⟨⟨c, p⟩, codes⟩, hrun, hout⟩ := Option.map_eq_some_iff.mp hcell
  obtain ⟨hheader, rfl⟩ := Prod.mk.inj hout
  obtain ⟨T, hcalls, hsim⟩ := (simulates_initial (blankHeap _ _)).calls hx hrun
  have hreached : Reached (step .willing) InRange (initial (blankHeap _ _), .fresh) (T, p) := by
    refine Reached.of_run_forall .start (fun e he s => ?_) hcalls
    obtain ⟨a, -, rfl⟩ := List.mem_map.mp he
    exact hx
  have hall := index_lists_rotate twoNodes_shows (by decide) .willing (blankHeap _ _) .fresh (T, p) hreached
  refine ⟨hall.1.2, (T, p), hcalls, ?_, hall.2⟩
  obtain ⟨htop, -⟩ := header_rotates (hsim.lists (0, 5) hx)
  have hsame : (Table.initial.set 0 5 c) 0 5 = c := Table.set_self ..
  rw [htop, hsame]
  exact congrArg (fun k => some (Ptr.node (indexNode (0, 5) k))) hheader

end LinkedTable

end Fengtai.Receive
