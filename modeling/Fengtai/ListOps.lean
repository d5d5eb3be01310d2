import Fengtai.ListShape

set_option autoImplicit false

/-! What each operation of `list_template.c` makes of a list in memory. -/

namespace Fengtai.ListTemplate

open Library.Segments

variable {L ι : Type*} [DecidableEq L] [DecidableEq ι]
variable {h : Heap L ι} {l : L} {xs : List ι} {i : ι}

lemma represents_initList (h : Heap L ι) (l : L) : Represents (h.initList l) l [] where
  links := rfl
  close := by simp [Heap.initList]
  tail_getD := by simp [Heap.initList]
  size_eq := by simp [Heap.initList]
  bytes_eq := by simp [Heap.initList]
  tail_eq := by simp [Heap.initList]

lemma frame_initList (h : Heap L ι) (l : L) (xs : List ι) :
    Frame h (h.initList l) (owned l xs) :=
  have hl := head_mem_owned l xs
  ((((Frame.refl h _).setPre hl none).setNext hl none).setTail hl none).setCounts hl 0 0

lemma pushList_eq (h : Heap L ι) (l : L) (i : ι) :
    h.pushList l i =
      (((((h.setPre (.node i) (some ((h.tail l).getD (.head l)))).setNext
        ((h.tail l).getD (.head l)) (some (.node i))).setNext (.node i) none).setTail l
          (some (.node i))).setCounts l (h.size l + 1) (h.dataBytes l + h.nodeBytes (.node i))) := by
  rw [Heap.pushList]
  cases h.tail l <;> rfl

lemma frame_pushList (hs : Shows h l xs) (i : ι) :
    Frame h (h.pushList l i) (owned l (i :: xs)) := by
  have hl := head_mem_owned l (i :: xs)
  have hi : Ptr.node i ∈ owned l (i :: xs) := node_mem_owned (by simp)
  have hlast : lastNode l xs ∈ owned l (i :: xs) :=
    owned_mono _ (fun j hj => List.mem_cons_of_mem i hj) (lastNode_mem_owned l xs)
  rw [pushList_eq, hs.tail_getD]
  exact (((((Frame.refl h _).setPre hi _).setNext hlast _).setNext hi _).setTail hl _).setCounts hl
    _ _

lemma Shows.push (hs : Shows h l xs) (hnodup : xs.Nodup) (hi : i ∉ xs) :
    Represents (h.pushList l i) l (xs ++ [i]) := by
  have hlast : lastNode l xs ≠ Ptr.node i := lastNode_ne hi
  apply Shows.represents _ (by simp)
  rw [pushList_eq, hs.tail_getD]
  refine ⟨⟨?links, ?close, ?tail_getD, ?size_eq⟩, ?bytes_eq⟩
  case links =>
    rw [List.map_append, lastNode_append]
    refine segment_append.mpr ⟨lastNode l xs, ?_, ?_, ?_, rfl⟩
    · apply hs.links.frame (nodup_map_node hnodup)
      · intro p hp hne
        have hpi : p ≠ .node i := fun hc => hi (node_mem_owned_iff.mp (hc ▸ hp))
        simp [hne, hpi]
      · intro p hp
        have hpi : p ≠ .node i := by
          rintro rfl
          exact hi (node_mem_owned_iff.mp (List.mem_cons_of_mem (Ptr.head l) hp))
        simp [hpi]
    · simp [hlast]
    · simp
  case close => simp
  case tail_getD => simp
  case size_eq => simp [hs.size_eq]
  case bytes_eq => simp [hs.bytes_eq]

omit [DecidableEq L] [DecidableEq ι] in
lemma Shows.getHeaderData {is : List ι} (hs : Shows h l (i :: is)) :
    h.getHeaderData l = some (.node i) := hs.links.1

/-- `Remove_Node_point` of a member; the tail of a list whose only member goes is its head node. -/
lemma Shows.removeNodePoint {as bs : List ι} (hs : Shows h l (as ++ i :: bs))
    (hnodup : (as ++ i :: bs).Nodup) :
    ∃ h', h.removeNodePoint l i = some h' ∧ Shows h' l (as ++ bs) ∧ h'.tail l ≠ none ∧
      Frame h h' (owned l (as ++ i :: bs)) := by
  have hl : Ptr.head l ∈ owned l (as ++ i :: bs) := head_mem_owned l _
  have hi : Ptr.node i ∈ owned l (as ++ i :: bs) := node_mem_owned (by simp)
  have hr : lastNode l as ∈ owned l (as ++ i :: bs) :=
    owned_mono _ (fun j hj => List.mem_append_left _ hj) (lastNode_mem_owned l as)
  have hne : lastNode l as ≠ .node i := lastNode_ne fun hc =>
    (List.nodup_append.mp hnodup).2.2 i hc i (by simp) rfl
  obtain ⟨-, -, hpre, -⟩ := hs.split
  obtain ⟨rfl, hnext⟩ | ⟨b, cs, rfl, hnext⟩ := hs.next_cases
  · refine ⟨_, by rw [Heap.removeNodePoint, hpre, hnext, Option.map_some], ?_, ?_, ?_⟩
    · apply hs.of_linked (hs.unlink hnodup ?hnext ?hnexts ?hpre ?hpres ?htail ?hsize)
      case hnext => simp [hne, hnext]
      case hnexts => exact fun p hpr hpi => by simp [hpr, hpi]
      case hpre => exact fun p hp => absurd (hnext.symm.trans hp) (by simp)
      case hpres => exact fun p _ _ => rfl
      case hnodes => rfl
      case htail => simp
      case hsize => simp
      case hbytes => simp
    · simp
    · exact (((((Frame.refl h _).setNext hr _).setTail hl _).setNext hr _).setCounts hl _ _).setNext
        hi _
  · have hb : Ptr.node b ∈ owned l (as ++ i :: b :: cs) := node_mem_owned (by simp)
    refine ⟨_, by rw [Heap.removeNodePoint, hpre, hnext, Option.map_some], ?_, ?_, ?_⟩
    · apply hs.of_linked (hs.unlink hnodup ?hnext ?hnexts ?hpre ?hpres ?htail ?hsize)
      case hnext => simp [hne, hnext]
      case hnexts => exact fun p hpr hpi => by simp [hpr, hpi]
      case hpre => exact fun p hp => by simp [Option.some.inj (hnext.symm.trans hp)]
      case hpres =>
        intro p hp _
        have hpb : p ≠ .node b := fun hc => hp (by rw [hnext, hc])
        simp [hpb]
      case hnodes => rfl
      case htail => exact hs.tail_getD.trans (lastNode_skip l as i b cs).symm
      case hsize => simp
      case hbytes => simp
    · intro hc
      have hget : Ptr.head l = lastNode l (as ++ i :: b :: cs) := by rw [← hs.tail_getD]; simp_all
      exact absurd (lastNode_eq_head_iff.mp hget.symm) (by simp)
    · exact ((((Frame.refl h _).setPre hb _).setNext hr _).setCounts hl _ _).setNext hi _

lemma Shows.removeNodePos {as bs : List ι} (hs : Shows h l (as ++ i :: bs))
    (hnodup : (as ++ i :: bs).Nodup) :
    ∃ h', h.removeNodePos l (as.length + 1) = some (h', some (.node i)) ∧
      Represents h' l (as ++ bs) ∧ Frame h h' (owned l (as ++ i :: bs)) := by
  have hl : Ptr.head l ∈ owned l (as ++ i :: bs) := head_mem_owned l _
  have hr : lastNode l as ∈ owned l (as ++ i :: bs) :=
    owned_mono _ (fun j hj => List.mem_append_left _ hj) (lastNode_mem_owned l as)
  have hne : lastNode l as ≠ .node i := lastNode_ne fun hc =>
    (List.nodup_append.mp hnodup).2.2 i hc i (by simp) rfl
  obtain ⟨hfirst, hprev, -, -⟩ := hs.split
  have hwalk : walk h.next as.length (.head l) = some (lastNode l as) := by
    simpa using hfirst.walk
  have hrange : ¬ (as.length + 1 < 1 ∨ h.size l < as.length + 1) := by
    rw [hs.size_eq, List.length_append, List.length_cons]
    omega
  have hstay : (h.setNext (lastNode l as) (h.next (.node i))).next (.node i) =
      h.next (.node i) := by simp [hne.symm]
  obtain ⟨rfl, hnext⟩ | ⟨b, cs, rfl, hnext⟩ := hs.next_cases
  · refine ⟨_, by
      simp only [Heap.removeNodePos, if_neg hrange, Nat.add_sub_cancel, hwalk, Option.bind_some,
        hprev, Option.map_some, hstay]
      simp only [hnext]
      rfl, ?_, ?_⟩
    · constructor
      case toShows =>
        apply hs.of_linked (hs.unlink hnodup ?hnext ?hnexts ?hpre ?hpres ?htail ?hsize)
        case hnext => simp [hnext]
        case hnexts => exact fun p hpr _ => by simp [hpr]
        case hpre => exact fun p hp => absurd (hnext.symm.trans hp) (by simp)
        case hpres => exact fun p _ _ => rfl
        case hnodes => rfl
        case htail =>
          by_cases hnil : as = []
          · simp [hnil]
          · simp [lastNode_eq_head_iff, hnil]
        case hsize => simp
        case hbytes => simp
      case tail_eq =>
        obtain rfl | ⟨ys, j, rfl⟩ := List.eq_nil_or_concat as
        · simp
        · simp
    · exact ((Frame.refl h _).setNext hr _).setTail hl _ |>.setCounts hl _ _
  · have hb : Ptr.node b ∈ owned l (as ++ i :: b :: cs) := node_mem_owned (by simp)
    refine ⟨_, by
      simp only [Heap.removeNodePos, if_neg hrange, Nat.add_sub_cancel, hwalk, Option.bind_some,
        hprev, Option.map_some, hstay]
      simp only [hnext]
      rfl, ?_, ?_⟩
    · apply Shows.represents _ (by simp)
      apply hs.of_linked (hs.unlink hnodup ?hnext ?hnexts ?hpre ?hpres ?htail ?hsize)
      case hnext => simp [hnext]
      case hnexts => exact fun p hpr _ => by simp [hpr]
      case hpre => exact fun p hp => by simp [Option.some.inj (hnext.symm.trans hp)]
      case hpres =>
        intro p hp _
        have hpb : p ≠ .node b := fun hc => hp (by rw [hnext, hc])
        simp [hpb]
      case hnodes => rfl
      case htail => exact hs.tail_getD.trans (lastNode_skip l as i b cs).symm
      case hsize => simp
      case hbytes => simp
    · exact ((Frame.refl h _).setNext hr _).setPre hb _ |>.setCounts hl _ _

/-- `Insert_Exist_Node` links the node in, but leaves the tail and `data_bytes`. -/
lemma Represents.insertExistNode {as bs : List ι} (hs : Represents h l (as ++ bs))
    (hnodup : (as ++ bs).Nodup) (hi : i ∉ as ++ bs) :
    ∃ h', h.insertExistNode l as.length i = some h' ∧
      Segment h'.next h'.pre (.head l) ((as ++ i :: bs).map .node) (lastNode l (as ++ i :: bs)) ∧
      h'.next (lastNode l (as ++ i :: bs)) = none ∧ h'.tail l = h.tail l ∧
      h'.size l = h.size l + 1 ∧ h'.dataBytes l = h.dataBytes l ∧
      Frame h h' (owned l (i :: as ++ bs)) := by
  have hias : i ∉ as := fun hc => hi (List.mem_append_left _ hc)
  have hne : lastNode l as ≠ .node i := lastNode_ne hias
  have hl : Ptr.head l ∈ owned l (i :: as ++ bs) := head_mem_owned l _
  have hmem : Ptr.node i ∈ owned l (i :: as ++ bs) := node_mem_owned (by simp)
  have hr : lastNode l as ∈ owned l (i :: as ++ bs) :=
    owned_mono _ (fun j hj => by simp [hj]) (lastNode_mem_owned l as)
  have hsize : h.size l = as.length + bs.length := by rw [hs.size_eq, List.length_append]
  cases bs with
  | nil =>
    rw [List.append_nil] at hs hnodup
    have hwalk : walk h.next as.length (.head l) = some (lastNode l as) := by
      simpa using hs.links.walk
    have hrun : h.insertExistNode l as.length i =
        some ((((h.setNext (.node i) none).setPre (.node i) (some (lastNode l as))).setNext
          (lastNode l as) (some (.node i))).setCounts l (h.size l + 1) (h.dataBytes l)) := by
      rw [List.length_nil, Nat.add_zero] at hsize
      simp [Heap.insertExistNode, hsize, hwalk, hs.close]
    refine ⟨_, hrun, ?_, ?_, rfl, by simp, by simp, ?_⟩
    · rw [List.map_append, lastNode_append]
      refine segment_append.mpr ⟨lastNode l as, ?_, by simp, by simp, rfl⟩
      apply hs.links.frame (nodup_map_node hnodup)
      · intro p hp hpr
        have hpi : p ≠ .node i := fun hc => hias (node_mem_owned_iff.mp (hc ▸ hp))
        simp [hpr, hpi]
      · intro p hp
        have hpi : p ≠ .node i := by
          rintro rfl
          exact hias (node_mem_owned_iff.mp (List.mem_cons_of_mem (Ptr.head l) hp))
        simp [hpi]
    · simp [hne.symm]
    · exact (((Frame.refl h _).setNext hmem _).setPre hmem _).setNext hr _ |>.setCounts hl _ _
  | cons b bs =>
    obtain ⟨hfirst, hnext, -, hrest⟩ := hs.split
    have hb : Ptr.node b ∈ owned l (i :: as ++ b :: bs) := node_mem_owned (by simp)
    have hwalk : walk h.next as.length (.head l) = some (lastNode l as) := by
      simpa using hfirst.walk
    have hrun : h.insertExistNode l as.length i =
        some (((((h.setNext (.node i) (some (.node b))).setPre (.node b) (some (.node i))).setPre
          (.node i) (some (lastNode l as))).setNext (lastNode l as) (some (.node i))).setCounts l
            (h.size l + 1) (h.dataBytes l)) := by
      rw [List.length_cons] at hsize
      simp [Heap.insertExistNode, hsize, hwalk, hnext, hne]
      omega
    have hbefore : ∀ p ∈ owned l as, p ≠ .node i ∧ p ≠ .node b := fun p hp =>
      ⟨fun hc => hias (node_mem_owned_iff.mp (hc ▸ hp)), before_ne hnodup hp b (by simp)⟩
    have hafter : ∀ p ∈ Ptr.node b :: bs.map Ptr.node, p ≠ .node i ∧ p ≠ lastNode l as := by
      intro p hp
      rw [← List.map_cons] at hp
      obtain ⟨j, hj, rfl⟩ := List.mem_map.mp hp
      refine ⟨fun hc => hi ?_, (before_ne hnodup (lastNode_mem_owned l as) j hj).symm⟩
      rw [← Ptr.node.inj hc]
      exact List.mem_append_right _ hj
    have hbi : Ptr.node b ≠ (.node i : Ptr L ι) := (hafter _ (by simp)).1
    have hbs := (List.nodup_append.mp hnodup).2.1
    refine ⟨_, hrun, ?_, ?_, rfl, by simp, by simp, ?_⟩
    · rw [List.map_append, List.map_cons, List.map_cons, ← lastNode_skip]
      refine segment_append.mpr ⟨lastNode l as, ?_, by simp, by simp, by simp [hne.symm], by simp [hbi], ?_⟩
      · apply hfirst.frame (nodup_map_node (List.nodup_append.mp hnodup).1)
        · exact fun p hp hpr => by simp [hpr, (hbefore p hp).1]
        · intro p hp
          have hne := hbefore p (List.mem_cons_of_mem _ hp)
          simp [hne.1, hne.2]
      · apply hrest.frame
        · rw [← List.map_cons]
          exact hbs.map fun _ _ hij => Ptr.node.inj hij
        · exact fun p hp _ => by simp [hafter p hp]
        · intro p hp
          have hpb : p ≠ .node b := by
            obtain ⟨j, hj, rfl⟩ := List.mem_map.mp hp
            exact fun hc => (List.nodup_cons.mp hbs).1 (Ptr.node.inj hc ▸ hj)
          simp [hpb, (hafter p (List.mem_cons_of_mem _ hp)).1]
    · rw [← lastNode_skip]
      simp [hafter _ hrest.end_mem, hs.close]
    · exact ((((Frame.refl h _).setNext hmem _).setPre hb _).setPre hmem _).setNext hr _ |>.setCounts
        hl _ _

/-- `Pop_List` takes out the first member, but leaves `data_bytes`. -/
lemma Represents.popList {bs : List ι} (hs : Represents h l (i :: bs)) (hnodup : (i :: bs).Nodup) :
    ∃ h', h.popList l = some (h', some (.node i)) ∧ Linked h' l bs ∧
      h'.tail l = bs.getLast?.map .node ∧ h'.dataBytes l = h.dataBytes l ∧
      Frame h h' (owned l (i :: bs)) := by
  have hl : Ptr.head l ∈ owned l (i :: bs) := head_mem_owned l _
  have hi : Ptr.node i ∈ owned l (i :: bs) := node_mem_owned (by simp)
  have hfirst : h.next (.head l) = some (.node i) := hs.links.1
  have hsize := hs.size_eq
  have hlinked : Linked h l ([] ++ i :: bs) := hs.toLinked
  obtain ⟨rfl, hnext⟩ | ⟨b, cs, rfl, hnext⟩ := hlinked.next_cases
  · have htail : h.tail l = some (.node i) := hs.tail_eq
    have hrun : h.popList l = some ((((((h.setNext (.head l) none).setPre (.node i) none).setNext
        (.node i) none).setTail l none).setCounts l 0 (h.dataBytes l)), some (.node i)) := by
      simp [Heap.popList, hsize, hfirst, htail]
    refine ⟨_, hrun, ⟨rfl, by simp, by simp, by simp⟩, by simp, by simp, ?_⟩
    exact ((((Frame.refl h _).setNext hl _).setPre hi _).setNext hi _).setTail hl _ |>.setCounts hl _ _
  · have hb : Ptr.node b ∈ owned l (i :: b :: cs) := node_mem_owned (by simp)
    have hrun : h.popList l = some (((h.setNext (.head l) (some (.node b))).setPre (.node b)
        (some (.head l))).setCounts l (h.size l - 1) (h.dataBytes l), some (.node i)) := by
      simp [Heap.popList, hsize, hfirst, hnext]
    refine ⟨_, hrun, ?_, ?_, by simp, ?_⟩
    · apply hlinked.unlink hnodup
      case hnext => simp [hnext]
      case hnexts => exact fun p hpr _ => by simp_all
      case hpre => exact fun p hp => by simp [Option.some.inj (hnext.symm.trans hp)]
      case hpres =>
        intro p hp _
        have hpb : p ≠ .node b := fun hc => hp (by rw [hnext, hc])
        simp [hpb]
      case htail => exact hs.tail_getD.trans (lastNode_skip l [] i b cs).symm
      case hsize => simp
    · simp [hs.tail_eq, List.getLast?_cons_cons]
    · exact ((Frame.refl h _).setNext hl _).setPre hb _ |>.setCounts hl _ _

lemma Linked.clearList {fuel : ℕ} (hs : Linked h l xs) (hfuel : xs.length ≤ fuel) :
    h.clearList fuel l = some (h.initList l, xs.map .node) := by
  rw [Heap.clearList, hs.links.follow hs.close (by simpa using hfuel)]
  rfl

lemma linkedList_empty {dest src : L} (hs : Represents h src []) :
    h.linkedList dest src = some h := by
  rw [Heap.linkedList, if_pos (by simpa using hs.size_eq)]

lemma Represents.linkedList {dest src : L} {ys : List ι} (hd : Represents h dest xs)
    (hs : Represents h src (i :: ys)) (hne : dest ≠ src) (hnodup : (xs ++ i :: ys).Nodup) :
    ∃ h', h.linkedList dest src = some h' ∧ Represents h' dest (xs ++ i :: ys) ∧
      Represents h' src [] ∧ Frame h h' (owned dest xs ∪ owned src (i :: ys)) := by
  have hfirst : h.next (.head src) = some (.node i) := hs.links.1
  have hsize : h.size src = ys.length + 1 := hs.size_eq
  have hlast : lastNode dest (xs ++ i :: ys) = lastNode src (i :: ys) := by
    rw [lastNode_append_cons]
    exact (lastNode_append_cons src [] i ys).symm
  have htail : h.tail src = some (lastNode src (i :: ys)) := by
    have hget := hs.tail_getD
    rw [hs.tail_eq, List.getLast?_cons] at hget ⊢
    exact congrArg some hget
  have hrun : h.linkedList dest src =
      some ((((((((h.setPre (.node i) (some (lastNode dest xs))).setNext (lastNode dest xs)
        (some (.node i))).setTail dest (some (lastNode src (i :: ys)))).setCounts dest
          (h.size dest + h.size src) (h.dataBytes dest + h.dataBytes src)).setNext
            (lastNode src (i :: ys)) none).setCounts src 0 0).setTail src none).setNext
              (.head src) none) := by
    have hget := hd.tail_getD
    cases hdest : h.tail dest with
    | none =>
      have hnil : xs = [] := by
        rw [hdest, Option.getD_none] at hget
        exact lastNode_eq_head_iff.mp hget.symm
      subst hnil
      simp [Heap.linkedList, hsize, hfirst, hdest, htail, hne.symm, hd.size_eq, hd.bytes_eq]
    | some tail =>
      rw [hdest, Option.getD_some] at hget
      subst hget
      simp [Heap.linkedList, hsize, hfirst, hdest, htail, hne.symm]
  have hrest : Segment h.next h.pre (.node i) (ys.map .node) (lastNode src (i :: ys)) := hs.links.2.2
  have hbefore : ∀ p ∈ owned dest xs, p ≠ .node i ∧ p ≠ lastNode src (i :: ys) ∧ p ≠ .head src := by
    intro p hp
    have hother := before_ne hnodup hp
    refine ⟨hother i (by simp), ?_, fun hc => hne.symm (head_mem_owned_iff.mp (hc ▸ hp))⟩
    have hmem := hrest.end_mem
    rw [← List.map_cons] at hmem
    obtain ⟨j, hj, hq⟩ := List.mem_map.mp hmem
    exact hq ▸ hother j hj
  have hafter : ∀ p ∈ Ptr.node i :: ys.map Ptr.node, p ≠ lastNode dest xs ∧ p ≠ .head src := by
    intro p hp
    rw [← List.map_cons] at hp
    obtain ⟨j, hj, rfl⟩ := List.mem_map.mp hp
    exact ⟨(before_ne hnodup (lastNode_mem_owned dest xs) j hj).symm, by simp⟩
  have hys := (List.nodup_append.mp hnodup).2.1
  have hlast_ne := hbefore _ (lastNode_mem_owned dest xs)
  refine ⟨_, hrun, ?_, ?_, ?_⟩
  · apply Shows.represents _ (by simp)
    refine ⟨⟨?links, ?close, ?tail_getD, ?size_eq⟩, ?bytes_eq⟩
    case links =>
      rw [List.map_append, List.map_cons, hlast]
      refine segment_append.mpr ⟨lastNode dest xs, ?_, by simp [hlast_ne], by simp, ?_⟩
      · apply hd.links.frame (nodup_map_node (List.nodup_append.mp hnodup).1)
        · exact fun p hp hpt => by simp [hpt, hbefore p hp]
        · exact fun p hp => by simp [(hbefore p (List.mem_cons_of_mem _ hp)).1]
      · apply hrest.frame
        · rw [← List.map_cons]
          exact hys.map fun _ _ hij => Ptr.node.inj hij
        · exact fun p hp hpq => by simp [hpq, hafter p hp]
        · intro p hp
          have hpi : p ≠ .node i := by
            obtain ⟨j, hj, rfl⟩ := List.mem_map.mp hp
            exact fun hc => (List.nodup_cons.mp hys).1 (Ptr.node.inj hc ▸ hj)
          simp [hpi]
    case close =>
      rw [hlast]
      simp [hafter _ hrest.end_mem]
    case tail_getD => simp [hlast, hne]
    case size_eq => simp [hne, hd.size_eq, hs.size_eq]
    case bytes_eq => simp [hne, hd.bytes_eq, hs.bytes_eq]
  · exact ⟨⟨⟨rfl, by simp, by simp, by simp⟩, by simp⟩, by simp⟩
  · have hdl : Ptr.head dest ∈ owned dest xs ∪ owned src (i :: ys) := .inl (head_mem_owned _ _)
    have hsl : Ptr.head src ∈ owned dest xs ∪ owned src (i :: ys) := .inr (head_mem_owned _ _)
    have hi : Ptr.node i ∈ owned dest xs ∪ owned src (i :: ys) :=
      .inr (node_mem_owned (by simp))
    have hdt : lastNode dest xs ∈ owned dest xs ∪ owned src (i :: ys) :=
      .inl (lastNode_mem_owned _ _)
    have hst : lastNode src (i :: ys) ∈ owned dest xs ∪ owned src (i :: ys) :=
      .inr (lastNode_mem_owned _ _)
    exact ((((((((Frame.refl h _).setPre hi _).setNext hdt _).setTail hdl _).setCounts hdl _ _).setNext
      hst _).setCounts hsl _ _).setTail hsl _).setNext hsl _

structure Rotated (h h' : Heap L ι) (l : L) (i : ι) (xs : List ι) : Prop where
  represents : Represents h' l (xs ++ [i])
  size_eq : h'.size l = h.size l
  bytes_eq : h'.dataBytes l = h.dataBytes l
  frame : Frame h h' (owned l (i :: xs))

lemma Shows.rotate (hs : Shows h l (i :: xs))
    (hnodup : (i :: xs).Nodup) :
    h.getHeaderData l = some (.node i) ∧
      ∃ h', h.removeNodePoint l i = some h' ∧ Rotated h (h'.pushList l i) l i xs := by
  obtain ⟨hnot, hnodup'⟩ := List.nodup_cons.mp hnodup
  have hsplit : Shows h l ([] ++ i :: xs) := hs
  obtain ⟨h', hrun, hrest, -, hframe⟩ := hsplit.removeNodePoint hnodup
  have hpush := hrest.push hnodup' hnot
  refine ⟨hs.getHeaderData, h', hrun, hpush, ?_, ?_, hframe.trans (frame_pushList hrest i)⟩
  · rw [hpush.size_eq, hs.size_eq]
    simp
  · have hnodes : (h'.pushList l i).nodeBytes = h.nodeBytes := by
      rw [(frame_pushList hrest i).nodeBytes, hframe.nodeBytes]
    rw [hpush.bytes_eq, hs.bytes_eq, hnodes]
    simp [add_comm]

end Fengtai.ListTemplate
