import Fengtai.Library.Runs
import Fengtai.ListOps

set_option autoImplicit false

/-! Runs of the operations of `list_template.c` on any number of lists. -/

namespace Fengtai.ListTemplate

open Library.Runs

variable {L ι : Type*} [DecidableEq L] [DecidableEq ι]

inductive ListOp (L ι : Type*)
  | push (l : L) (i : ι)
  | insert (l : L) (pos : ℕ) (i : ι)
  | removePos (l : L) (pos : ℕ)
  | removePoint (l : L) (i : ι)
  | pop (l : L)
  | link (dest src : L)
  | clear (l : L) (fuel : ℕ)
  | fresh (i : ι) (next pre : Option (Ptr L ι)) (bytes : BitVec 64)

structure Lists (L ι : Type*) where
  heap : Heap L ι
  members : L → List ι

namespace Lists

def membersAfter (members : L → List ι) : ListOp L ι → L → List ι
  | .push l i => Function.update members l (members l ++ [i])
  | .insert l pos i => Function.update members l ((members l).take pos ++ i :: (members l).drop pos)
  | .removePos l pos =>
    if pos = 0 then members else Function.update members l ((members l).eraseIdx (pos - 1))
  | .removePoint l i => Function.update members l ((members l).erase i)
  | .pop l => Function.update members l (members l).tail
  | .link dest src => Function.update (Function.update members dest (members dest ++ members src)) src []
  | .clear l _ => Function.update members l []
  | .fresh _ _ _ _ => members

def heapAfter (h : Heap L ι) : ListOp L ι → Option (Heap L ι)
  | .push l i => some (h.pushList l i)
  | .insert l pos i => h.insertExistNode l pos i
  | .removePos l pos => (h.removeNodePos l pos).map Prod.fst
  | .removePoint l i => h.removeNodePoint l i
  | .pop l => (h.popList l).map Prod.fst
  | .link dest src => h.linkedList dest src
  | .clear l fuel => (h.clearList fuel l).map Prod.fst
  | .fresh i next pre bytes => some
      { h with
        next := Function.update h.next (.node i) next
        pre := Function.update h.pre (.node i) pre
        nodeBytes := Function.update h.nodeBytes (.node i) bytes }

def step (s : Lists L ι) (op : ListOp L ι) : Option (Lists L ι × Unit) :=
  (heapAfter s.heap op).map fun h => (⟨h, membersAfter s.members op⟩, ())

def Detached (s : Lists L ι) (i : ι) : Prop := ∀ l, i ∉ s.members l

/-- The operations of the interface: only detached nodes are put into a list or written to,
only members are removed, and two lists are joined. -/
def Used (s : Lists L ι) : ListOp L ι → Prop
  | .push _ i => s.Detached i
  | .insert _ _ i => s.Detached i
  | .removePoint l i => i ∈ s.members l
  | .link dest src => dest ≠ src
  | .clear l fuel => (s.members l).length ≤ fuel
  | .fresh i _ _ _ => s.Detached i
  | _ => True

/-- What the operations get right: insertion before a member and popping, for nodes that
count no bytes, and removal by address unless the node is the only member. -/
def Meets (s : Lists L ι) : ListOp L ι → Prop
  | .insert l pos i => pos < s.heap.size l ∧ s.heap.nodeBytes (.node i) = 0
  | .removePoint l _ => s.heap.size l ≠ 1
  | .pop l => ∀ p, s.heap.getHeaderData l = some p → s.heap.nodeBytes p = 0
  | _ => True

def Right (s : Lists L ι) : Prop := ∀ l, Represents s.heap l (s.members l)

structure Sound (s : Lists L ι) : Prop where
  right : s.Right
  nodup : ∀ l, (s.members l).Nodup
  apart : ∀ l k i, i ∈ s.members l → i ∈ s.members k → l = k

variable {s : Lists L ι} {l : L} {i : ι} {h' : Heap L ι}

omit [DecidableEq L] [DecidableEq ι] in
lemma Sound.other (hs : s.Sound) {zs : List ι} (hf : Frame s.heap h' (owned l zs))
    (hz : ∀ j ∈ zs, j ∈ s.members l ∨ s.Detached j) {k : L} (hk : k ≠ l) :
    Represents h' k (s.members k) := by
  apply (hs.right k).frame hf
  · exact fun hc => hk (head_mem_owned_iff.mp hc)
  · intro j hj hc
    rcases hz j (node_mem_owned_iff.mp hc) with hmem | hdet
    · exact hk (hs.apart k l j hj hmem)
    · exact hdet k hj
  · exact hs.nodup k

omit [DecidableEq ι] in
lemma Sound.right_update (hs : s.Sound) {zs : List ι} (hf : Frame s.heap h' (owned l zs))
    (hz : ∀ j ∈ zs, j ∈ s.members l ∨ s.Detached j) (ys : List ι) :
    (∀ k, Represents h' k (Function.update s.members l ys k)) ↔ Represents h' l ys := by
  rw [Function.forall_update_iff s.members (fun k xs => Represents h' k xs)]
  exact and_iff_left fun k hk => hs.other hf hz hk

lemma Sound.push (hs : s.Sound) (hi : s.Detached i) :
    Right ⟨s.heap.pushList l i, membersAfter s.members (.push l i)⟩ := by
  apply (hs.right_update (frame_pushList (hs.right l).toShows i) _ _).mpr
  · exact (hs.right l).push (hs.nodup l) (hi l)
  · intro j hj
    rcases List.mem_cons.mp hj with rfl | hj
    · exact .inr hi
    · exact .inl hj

omit [DecidableEq L] [DecidableEq ι] in
/-- An inserted node is counted nowhere, and the tail stays. -/
lemma represents_insert_iff {h h' : Heap L ι} {as bs : List ι} (hs : Represents h l (as ++ bs))
    (hi : i ∉ as ++ bs)
    (hlinks : Library.Segments.Segment h'.next h'.pre (.head l) ((as ++ i :: bs).map .node)
      (lastNode l (as ++ i :: bs)))
    (hclose : h'.next (lastNode l (as ++ i :: bs)) = none) (htail : h'.tail l = h.tail l)
    (hsize : h'.size l = h.size l + 1) (hbytes : h'.dataBytes l = h.dataBytes l)
    (hnodes : h'.nodeBytes = h.nodeBytes) :
    Represents h' l (as ++ i :: bs) ↔ bs ≠ [] ∧ h.nodeBytes (.node i) = 0 := by
  have hsum : h'.dataBytes l = ((as ++ i :: bs).map fun j => h'.nodeBytes (.node j)).sum ↔
      h.nodeBytes (.node i) = 0 := by
    rw [hbytes, hs.bytes_eq, hnodes, List.map_append, List.map_append, List.sum_append,
      List.sum_append, List.map_cons, List.sum_cons, add_right_inj, eq_comm, add_eq_right]
  have hend : h'.tail l = (as ++ i :: bs).getLast?.map .node ↔ bs ≠ [] := by
    rw [htail, hs.tail_eq]
    cases bs with
    | nil =>
      simp only [List.append_nil, List.getLast?_concat, ne_eq, not_true, iff_false]
      intro hc
      obtain ⟨j, hj, hji⟩ := Option.map_eq_some_iff.mp hc
      rw [List.append_nil] at hi
      exact hi (Ptr.node.inj hji ▸ List.mem_of_getLast? hj)
    | cons b bs => simp
  constructor
  · exact fun hrep => ⟨hend.mp hrep.tail_eq, hsum.mp hrep.bytes_eq⟩
  · rintro ⟨hne, hzero⟩
    refine ⟨⟨⟨hlinks, hclose, ?_, ?_⟩, hsum.mpr hzero⟩, hend.mpr hne⟩
    · rw [hend.mpr hne, lastNode_eq_getD]
    · rw [hsize, hs.size_eq]
      simp
      omega

lemma insertExistNode_clip (h : Heap L ι) (l : L) (i : ι) {pos : ℕ} (hpos : h.size l ≤ pos) :
    h.insertExistNode l pos i = h.insertExistNode l (h.size l) i := by
  rcases hpos.lt_or_eq with hlt | rfl
  · simp [Heap.insertExistNode, hlt]
  · rfl

lemma Sound.insert (hs : s.Sound) (hi : s.Detached i) (l : L) (pos : ℕ) :
    ∃ h', s.heap.insertExistNode l pos i = some h' ∧
      (Right ⟨h', membersAfter s.members (.insert l pos i)⟩ ↔
        pos < s.heap.size l ∧ s.heap.nodeBytes (.node i) = 0) := by
  have hsplit : s.members l = (s.members l).take pos ++ (s.members l).drop pos :=
    (List.take_append_drop pos _).symm
  have hrep := hs.right l
  have hnodup := hs.nodup l
  have hnot := hi l
  rw [hsplit] at hrep hnodup hnot
  obtain ⟨h', hrun, hlinks, hclose, htail, hsize, hbytes, hframe⟩ := hrep.insertExistNode hnodup hnot
  have hpos : s.heap.insertExistNode l ((s.members l).take pos).length i =
      s.heap.insertExistNode l pos i := by
    rw [List.length_take, ← (hs.right l).size_eq]
    rcases Nat.le_total pos (s.heap.size l) with hle | hle
    · rw [Nat.min_eq_left hle]
    · rw [Nat.min_eq_right hle, insertExistNode_clip _ _ _ hle]
  refine ⟨h', hpos ▸ hrun, ?_⟩
  have hown : ∀ j ∈ i :: (s.members l).take pos ++ (s.members l).drop pos,
      j ∈ s.members l ∨ s.Detached j := by
    rw [List.cons_append, ← hsplit]
    intro j hj
    rcases List.mem_cons.mp hj with rfl | hj
    · exact .inr hi
    · exact .inl hj
  refine (hs.right_update hframe hown _).trans ?_
  rw [represents_insert_iff hrep hnot hlinks hclose htail hsize hbytes hframe.nodeBytes, ne_eq,
    List.drop_eq_nil_iff, not_le, (hs.right l).size_eq]

lemma Sound.removePos (hs : s.Sound) (l : L) (pos : ℕ) :
    ∃ r, s.heap.removeNodePos l pos = some r ∧
      Right ⟨r.1, membersAfter s.members (.removePos l pos)⟩ := by
  have hsize := (hs.right l).size_eq
  cases pos with
  | zero => exact ⟨(s.heap, none), by simp [Heap.removeNodePos], hs.right⟩
  | succ k =>
    rcases Nat.lt_or_ge k (s.members l).length with hk | hk
    · have hsplit : s.members l =
          (s.members l).take k ++ (s.members l)[k] :: (s.members l).drop (k + 1) := by
        rw [← List.drop_eq_getElem_cons hk, List.take_append_drop]
      have hrep := hs.right l
      have hnodup := hs.nodup l
      rw [hsplit] at hrep hnodup
      obtain ⟨h', hrun, hafter, hframe⟩ := hrep.removeNodePos hnodup
      rw [List.length_take_of_le hk.le] at hrun
      refine ⟨_, hrun, ?_⟩
      rw [← hsplit] at hframe
      simp only [membersAfter, Nat.add_sub_cancel, Nat.succ_ne_zero, if_false,
        List.eraseIdx_eq_take_drop_succ]
      exact (hs.right_update hframe (fun j hj => .inl hj) _).mpr hafter
    · refine ⟨(s.heap, none), by simp [Heap.removeNodePos, hsize]; omega, ?_⟩
      have hsame : membersAfter s.members (.removePos l (k + 1)) = s.members := by
        simp [membersAfter, List.eraseIdx_of_length_le hk]
      rw [hsame]
      exact hs.right

lemma Sound.removePoint (hs : s.Sound) (hi : i ∈ s.members l) :
    ∃ h', s.heap.removeNodePoint l i = some h' ∧
      (Right ⟨h', membersAfter s.members (.removePoint l i)⟩ ↔ s.heap.size l ≠ 1) := by
  obtain ⟨as, bs, hsplit, hnot⟩ := List.eq_append_cons_of_mem hi
  have hrep := hs.right l
  have hnodup := hs.nodup l
  rw [hsplit] at hrep hnodup
  obtain ⟨h', hrun, hshows, htail, hframe⟩ := hrep.removeNodePoint hnodup
  refine ⟨h', hrun, ?_⟩
  have herase : (s.members l).erase i = as ++ bs := by
    rw [hsplit, List.erase_append_right _ hnot, List.erase_cons_head]
  rw [← hsplit] at hframe
  simp only [membersAfter, herase]
  refine (hs.right_update hframe (fun j hj => .inl hj) _).trans ?_
  have hone : s.heap.size l ≠ 1 ↔ as ++ bs ≠ [] := by
    rw [hrep.size_eq, ne_eq, ne_eq, ← List.length_eq_zero_iff, List.length_append,
      List.length_append, List.length_cons]
    omega
  rw [hone]
  constructor
  · rintro hafter hnil
    rw [hafter.tail_eq, hnil] at htail
    exact htail rfl
  · exact hshows.represents

lemma Sound.pop (hs : s.Sound) (l : L) :
    ∃ r, s.heap.popList l = some r ∧ (Right ⟨r.1, membersAfter s.members (.pop l)⟩ ↔
      ∀ p, s.heap.getHeaderData l = some p → s.heap.nodeBytes p = 0) := by
  have hrep := hs.right l
  have hnodup := hs.nodup l
  cases hmembers : s.members l with
  | nil =>
    rw [hmembers] at hrep
    have hsame : membersAfter s.members (.pop l) = s.members := by
      rw [membersAfter, hmembers, List.tail_nil, ← hmembers, Function.update_eq_self]
    have hheader : s.heap.getHeaderData l = none := hrep.close
    refine ⟨(s.heap, none), by simp [Heap.popList, hrep.size_eq], ?_⟩
    rw [hsame, hheader]
    exact ⟨fun _ p hp => absurd hp (by simp), fun _ => hs.right⟩
  | cons i bs =>
    rw [hmembers] at hrep hnodup
    have hheader : s.heap.getHeaderData l = some (.node i) := hrep.getHeaderData
    obtain ⟨h', hrun, hlinked, htail, hbytes, hframe⟩ := hrep.popList hnodup
    refine ⟨_, hrun, ?_⟩
    rw [← hmembers] at hframe
    simp only [membersAfter, hmembers, List.tail_cons, hheader]
    refine (hs.right_update hframe (fun j hj => .inl hj) _).trans ?_
    have hsum : h'.dataBytes l = (bs.map fun j => h'.nodeBytes (.node j)).sum ↔
        s.heap.nodeBytes (.node i) = 0 := by
      rw [hbytes, hrep.bytes_eq, hframe.nodeBytes, List.map_cons, List.sum_cons, add_eq_right]
    constructor
    · intro hafter p hp
      rw [← Option.some.inj hp]
      exact hsum.mp hafter.bytes_eq
    · exact fun hzero => ⟨⟨hlinked, hsum.mpr (hzero _ rfl)⟩, htail⟩

lemma Sound.link (hs : s.Sound) {dest src : L} (hne : dest ≠ src) :
    ∃ h', s.heap.linkedList dest src = some h' ∧
      Right ⟨h', membersAfter s.members (.link dest src)⟩ := by
  cases hmembers : s.members src with
  | nil =>
    have hsame : membersAfter s.members (.link dest src) = s.members := by
      rw [membersAfter, hmembers, List.append_nil, Function.update_eq_self, ← hmembers,
        Function.update_eq_self]
    refine ⟨s.heap, linkedList_empty (hmembers ▸ hs.right src), ?_⟩
    rw [hsame]
    exact hs.right
  | cons i ys =>
    have hrep := hs.right src
    have hnodup : (s.members dest ++ s.members src).Nodup := by
      refine List.nodup_append.mpr ⟨hs.nodup dest, hs.nodup src, fun a ha b hb hab => ?_⟩
      exact hne (hs.apart dest src a ha (hab ▸ hb))
    rw [hmembers] at hrep hnodup
    obtain ⟨h', hrun, hdest, hsrc, hframe⟩ := (hs.right dest).linkedList hrep hne hnodup
    refine ⟨h', hrun, fun k => ?_⟩
    simp only [membersAfter, hmembers]
    by_cases hks : k = src
    · subst hks
      simpa using hsrc
    by_cases hkd : k = dest
    · subst hkd
      simpa [hks] using hdest
    rw [Function.update_of_ne hks, Function.update_of_ne hkd]
    rw [← hmembers] at hframe
    apply (hs.right k).frame hframe
    · simp [hks, hkd]
    · rintro j hj (hc | hc)
      · exact hkd (hs.apart k dest j hj (node_mem_owned_iff.mp hc))
      · exact hks (hs.apart k src j hj (node_mem_owned_iff.mp hc))
    · exact hs.nodup k

lemma Sound.clear (hs : s.Sound) (l : L) {fuel : ℕ} (hfuel : (s.members l).length ≤ fuel) :
    ∃ r, s.heap.clearList fuel l = some r ∧
      Right ⟨r.1, membersAfter s.members (.clear l fuel)⟩ := by
  refine ⟨_, (hs.right l).clearList hfuel, ?_⟩
  apply (hs.right_update (frame_initList s.heap l []) (by simp) _).mpr
  exact represents_initList s.heap l

lemma Sound.fresh (hs : s.Sound) (hi : s.Detached i) (next pre : Option (Ptr L ι))
    (bytes : BitVec 64) :
    ∃ h', heapAfter s.heap (.fresh i next pre bytes) = some h' ∧
      Right ⟨h', s.members⟩ := by
  refine ⟨_, rfl, fun k => ?_⟩
  have hk := hs.right k
  have hne : ∀ p ∈ owned k (s.members k), p ≠ .node i := fun p hp hc =>
    hi k (node_mem_owned_iff.mp (hc ▸ hp))
  refine ⟨⟨⟨?links, ?close, hk.tail_getD, hk.size_eq⟩, ?bytes_eq⟩, hk.tail_eq⟩
  case links =>
    apply hk.links.frame (nodup_map_node (hs.nodup k))
    · exact fun p hp _ => Function.update_of_ne (hne p hp) ..
    · exact fun p hp => Function.update_of_ne (hne p (List.mem_cons_of_mem _ hp)) ..
  case close => exact (Function.update_of_ne (hne _ (lastNode_mem_owned k _)) ..).trans hk.close
  case bytes_eq =>
    refine hk.bytes_eq.trans (congrArg List.sum (List.map_congr_left fun j hj => ?_))
    exact (Function.update_of_ne (hne _ (node_mem_owned hj)) ..).symm

def Apart (members : L → List ι) : Prop :=
  (∀ l, (members l).Nodup) ∧ ∀ l k i, i ∈ members l → i ∈ members k → l = k

omit [DecidableEq ι] in
lemma Apart.update {members : L → List ι} (h : Apart members) {ys : List ι} (hnodup : ys.Nodup)
    (hys : ∀ j ∈ ys, j ∈ members l ∨ ∀ k, j ∉ members k) :
    Apart (Function.update members l ys) := by
  have hmem : ∀ k j, k ≠ l → j ∈ members k → j ∉ ys := by
    intro k j hk hj hc
    rcases hys j hc with hmem | hnone
    · exact hk (h.2 k l j hj hmem)
    · exact hnone k hj
  constructor
  · intro k
    by_cases hk : k = l
    · subst hk
      simpa using hnodup
    · simpa [hk] using h.1 k
  · intro a b j ha hb
    by_cases hal : a = l
    · subst hal
      rw [Function.update_self] at ha
      by_contra hab
      rw [Function.update_of_ne (Ne.symm hab)] at hb
      exact hmem b j (Ne.symm hab) hb ha
    · rw [Function.update_of_ne hal] at ha
      by_cases hbl : b = l
      · subst hbl
        rw [Function.update_self] at hb
        exact absurd hb (hmem a j hal ha)
      · rw [Function.update_of_ne hbl] at hb
        exact h.2 a b j ha hb

omit [DecidableEq ι] in
lemma Apart.add {members : L → List ι} (h : Apart members) {ys : List ι}
    (hi : ∀ k, i ∉ members k) (hperm : ys.Perm (i :: members l)) :
    Apart (Function.update members l ys) := by
  apply h.update
  · rw [hperm.nodup_iff, List.nodup_cons]
    exact ⟨hi l, h.1 l⟩
  · intro j hj
    rcases List.mem_cons.mp (hperm.mem_iff.mp hj) with rfl | hj
    · exact .inr hi
    · exact .inl hj

omit [DecidableEq ι] in
lemma Apart.take_out {members : L → List ι} (h : Apart members) {ys : List ι}
    (hsub : ys.Sublist (members l)) : Apart (Function.update members l ys) :=
  h.update ((h.1 l).sublist hsub) fun _ hj => .inl (hsub.subset hj)

lemma Apart.after (h : Apart s.members) {op : ListOp L ι} (hop : s.Used op) :
    Apart (membersAfter s.members op) := by
  cases op with
  | push l i => exact h.add hop (List.perm_append_singleton i _)
  | insert l pos i =>
    apply h.add hop
    refine List.perm_middle.trans ?_
    rw [List.take_append_drop]
  | removePos l pos =>
    by_cases hpos : pos = 0
    · simpa only [membersAfter, if_pos hpos] using h
    · simpa only [membersAfter, if_neg hpos] using h.take_out (List.eraseIdx_sublist ..)
  | removePoint l i => exact h.take_out List.erase_sublist
  | pop l => exact h.take_out (List.tail_sublist _)
  | link dest src =>
    have hne : src ≠ dest := fun hc => hop hc.symm
    have hempty : Apart (Function.update s.members src []) := h.take_out (List.nil_sublist _)
    rw [membersAfter, Function.update_comm hne.symm]
    apply hempty.update
    · refine List.nodup_append.mpr ⟨h.1 dest, h.1 src, fun a ha b hb hab => ?_⟩
      exact hop (h.2 dest src a ha (hab ▸ hb))
    · intro j hj
      rw [Function.update_of_ne hne.symm]
      rcases List.mem_append.mp hj with hj | hj
      · exact .inl hj
      · refine .inr fun k hk => ?_
        by_cases hks : k = src
        · simp [hks] at hk
        · rw [Function.update_of_ne hks] at hk
          exact hks (h.2 k src j hk hj)
  | clear l fuel => exact h.take_out (List.nil_sublist _)
  | fresh i next pre bytes => exact h

lemma Sound.step (hs : s.Sound) {op : ListOp L ι} (hop : s.Used op) :
    ∃ s', s.step op = some (s', ()) ∧ s'.members = membersAfter s.members op ∧
      (s'.Right ↔ s.Meets op) := by
  cases op with
  | push l i => exact ⟨_, rfl, rfl, iff_of_true (hs.push hop) trivial⟩
  | insert l pos i =>
    obtain ⟨h', hrun, hright⟩ := hs.insert hop l pos
    exact ⟨_, by rw [Lists.step, heapAfter, hrun]; rfl, rfl, hright⟩
  | removePos l pos =>
    obtain ⟨r, hrun, hright⟩ := hs.removePos l pos
    exact ⟨_, by rw [Lists.step, heapAfter, hrun]; rfl, rfl, iff_of_true hright trivial⟩
  | removePoint l i =>
    obtain ⟨h', hrun, hright⟩ := hs.removePoint hop
    exact ⟨_, by rw [Lists.step, heapAfter, hrun]; rfl, rfl, hright⟩
  | pop l =>
    obtain ⟨r, hrun, hright⟩ := hs.pop l
    exact ⟨_, by rw [Lists.step, heapAfter, hrun]; rfl, rfl, hright⟩
  | link dest src =>
    obtain ⟨h', hrun, hright⟩ := hs.link hop
    exact ⟨_, by rw [Lists.step, heapAfter, hrun]; rfl, rfl, iff_of_true hright trivial⟩
  | clear l fuel =>
    obtain ⟨r, hrun, hright⟩ := hs.clear l hop
    exact ⟨_, by rw [Lists.step, heapAfter, hrun]; rfl, rfl, iff_of_true hright trivial⟩
  | fresh i next pre bytes =>
    obtain ⟨h', hrun, hright⟩ := hs.fresh hop next pre bytes
    exact ⟨⟨h', s.members⟩, by rw [Lists.step, hrun]; rfl, rfl, iff_of_true hright trivial⟩

def initial (h : Heap L ι) : Lists L ι := ⟨h, fun _ => []⟩

omit [DecidableEq L] [DecidableEq ι] in
lemma apart_initial (h : Heap L ι) : Apart (initial h).members :=
  ⟨fun _ => List.nodup_nil, fun _ _ _ hi => absurd hi List.not_mem_nil⟩

/-- Lists that start as `Init_List` leaves them stay right as long as every operation is one
of those the code gets right, and the next operation keeps them right exactly if it is one. -/
theorem lists_right (h : Heap L ι) (hinit : ∀ l, h.initList l = h) (s : Lists L ι)
    (hs : Reached step (fun s op => s.Used op ∧ s.Meets op) (initial h) s) :
    s.Right ∧ ∀ op, s.Used op → ∃ s', s.step op = some (s', ()) ∧ (s'.Right ↔ s.Meets op) := by
  have hsound : s.Right ∧ Apart s.members := by
    apply hs.invariant fun s => s.Right ∧ Apart s.members
    · exact ⟨fun l => hinit l ▸ represents_initList h l, apart_initial h⟩
    · rintro s op s' o ⟨hright, hnodup, hapart⟩ ⟨hused, hmeets⟩ hstep
      obtain ⟨t, ht, hmembers, hiff⟩ := Sound.step ⟨hright, hnodup, hapart⟩ hused
      rw [hstep, Option.some.injEq, Prod.mk.injEq] at ht
      rw [ht.1]
      exact ⟨hiff.mpr hmeets, hmembers ▸ Apart.after ⟨hnodup, hapart⟩ hused⟩
  refine ⟨hsound.1, fun op hop => ?_⟩
  obtain ⟨s', hstep, -, hiff⟩ := Sound.step ⟨hsound.1, hsound.2.1, hsound.2.2⟩ hop
  exact ⟨s', hstep, hiff⟩

/-- Lists as `Init_List` leaves them, and nodes that count no bytes. -/
def emptyHeap : Heap ℕ ℕ where
  next _ := none
  pre _ := none
  nodeBytes _ := 0
  tail _ := none
  size _ := 0
  dataBytes _ := 0

lemma emptyHeap_init (l : ℕ) : emptyHeap.initList l = emptyHeap := by
  simp [Heap.initList, emptyHeap]

instance usedDecidable [Fintype L] (s : Lists L ι) : (op : ListOp L ι) → Decidable (s.Used op)
  | .push _ i => inferInstanceAs (Decidable (∀ l, i ∉ s.members l))
  | .insert _ _ i => inferInstanceAs (Decidable (∀ l, i ∉ s.members l))
  | .removePos _ _ => isTrue trivial
  | .removePoint l i => inferInstanceAs (Decidable (i ∈ s.members l))
  | .pop _ => isTrue trivial
  | .link dest src => inferInstanceAs (Decidable (dest ≠ src))
  | .clear l fuel => inferInstanceAs (Decidable ((s.members l).length ≤ fuel))
  | .fresh i _ _ _ => inferInstanceAs (Decidable (∀ l, i ∉ s.members l))

instance meetsDecidable (s : Lists L ι) : (op : ListOp L ι) → Decidable (s.Meets op)
  | .push _ _ => isTrue trivial
  | .insert l pos i => inferInstanceAs (Decidable (pos < s.heap.size l ∧ s.heap.nodeBytes (.node i) = 0))
  | .removePos _ _ => isTrue trivial
  | .removePoint l _ => inferInstanceAs (Decidable (s.heap.size l ≠ 1))
  | .pop l => inferInstanceAs (Decidable (∀ p ∈ s.heap.getHeaderData l, s.heap.nodeBytes p = 0))
  | .link _ _ => isTrue trivial
  | .clear _ _ => isTrue trivial
  | .fresh _ _ _ _ => isTrue trivial

/-- Two lists as `Init_List` leaves them, with five nodes. -/
def twoLists : Heap Bool (Fin 5) where
  next _ := none
  pre _ := none
  nodeBytes _ := 0
  tail _ := none
  size _ := 0
  dataBytes _ := 0

/-- Every operation but `Clear_List`. -/
def sampleOps : List (ListOp Bool (Fin 5)) :=
  [.push false 0, .fresh 1 none none 40, .push false 1, .push true 2, .insert false 1 3,
    .removePoint false 1, .push true 4, .link false true, .push true 1, .removePos false 2, .pop false]

theorem lists_right_sample : ∃ s,
    run (guarded step fun s op => s.Used op ∧ s.Meets op) (initial twoLists) sampleOps =
        some (s, List.replicate 11 ()) ∧
      s.members false = [2, 4] ∧ s.members true = [1] ∧ s.Right ∧
      ∃ s', s.step (.clear false 2) = some (s', ()) ∧ s'.Right := by
  have hrun : (run (guarded step fun s op => s.Used op ∧ s.Meets op) (initial twoLists) sampleOps).map
      (fun r => (r.1.members false, r.1.members true, r.2)) =
        some ([2, 4], [1], List.replicate 11 ()) := by decide +kernel
  obtain ⟨⟨s, os⟩, hs, hout⟩ := Option.map_eq_some_iff.mp hrun
  simp only [Prod.mk.injEq] at hout
  obtain ⟨hfirst, hsecond, rfl⟩ := hout
  obtain ⟨hright, hnext⟩ := lists_right twoLists (fun l => by simp [Heap.initList, twoLists]) s
    (Reached.start.of_run hs)
  obtain ⟨s', hs', hiff⟩ := hnext (.clear false 2) (by simp [Used, hfirst])
  exact ⟨s, hs, hfirst, hsecond, hright, s', hs', hiff.mpr trivial⟩

/-- A node inserted into an empty list does not become the tail, so that the next push
loses it. -/
theorem insert_loses_tail : ∃ (h : Heap ℕ ℕ) (s : Lists ℕ ℕ), (∀ l, h.initList l = h) ∧
    Reached step Used (initial h) s ∧ ¬ s.Right := by
  refine ⟨emptyHeap, _, emptyHeap_init, .next (i := .push 0 8) (.next (i := .insert 0 0 7) .start
    (fun _ => List.not_mem_nil) rfl) ?_ rfl, fun hright => ?_⟩
  · intro l
    by_cases hl : l = 0
    · subst hl
      decide
    · simp [membersAfter, initial, hl]
  · have hlinks := (hright 0).links.1
    revert hlinks
    decide

end Lists

end Fengtai.ListTemplate
