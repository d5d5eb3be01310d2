import Fengtai.ListTemplate

set_option autoImplicit false

/-! What a list in memory shows, and what each operation of `list_template.c` makes of it. -/

namespace Fengtai.ListTemplate

open Library.Segments

variable {L ι : Type*}

/-- The last node of a list with the members `xs`, or its head node. -/
def lastNode (l : L) (xs : List ι) : Ptr L ι := (xs.map Ptr.node).getLastD (.head l)

lemma lastNode_eq_getD (l : L) (xs : List ι) :
    lastNode l xs = (xs.getLast?.map .node).getD (.head l) := by
  rw [lastNode, List.getLastD_eq_getLast?, List.getLast?_map]

@[simp] lemma lastNode_nil (l : L) : lastNode l ([] : List ι) = .head l := rfl

@[simp] lemma lastNode_append (l : L) (xs : List ι) (i : ι) : lastNode l (xs ++ [i]) = .node i := by
  simp [lastNode, List.getLastD_eq_getLast?]

/-- The members of `l` are `xs`, linked both ways. The tail of an empty list may be null or
the head node. -/
structure Linked (h : Heap L ι) (l : L) (xs : List ι) : Prop where
  links : Segment h.next h.pre (.head l) (xs.map .node) (lastNode l xs)
  close : h.next (lastNode l xs) = none
  tail_getD : (h.tail l).getD (.head l) = lastNode l xs
  size_eq : h.size l = xs.length

/-- `data_bytes` counts the members as well. -/
structure Shows (h : Heap L ι) (l : L) (xs : List ι) : Prop extends Linked h l xs where
  bytes_eq : h.dataBytes l = (xs.map fun i => h.nodeBytes (.node i)).sum

/-- The tail of an empty list is null as well. -/
structure Represents (h : Heap L ι) (l : L) (xs : List ι) : Prop extends Shows h l xs where
  tail_eq : h.tail l = xs.getLast?.map .node

/-- `h'` differs from `h` only in the nodes of `F` and the lists whose head nodes are in it. -/
structure Frame (h h' : Heap L ι) (F : Set (Ptr L ι)) : Prop where
  next : ∀ p ∉ F, h'.next p = h.next p
  pre : ∀ p ∉ F, h'.pre p = h.pre p
  nodeBytes : h'.nodeBytes = h.nodeBytes
  tail : ∀ l, .head l ∉ F → h'.tail l = h.tail l
  size : ∀ l, .head l ∉ F → h'.size l = h.size l
  dataBytes : ∀ l, .head l ∉ F → h'.dataBytes l = h.dataBytes l

variable {h h' : Heap L ι} {l : L} {xs : List ι} {F : Set (Ptr L ι)}

lemma nodup_map_node (hnodup : xs.Nodup) : (Ptr.head l :: xs.map Ptr.node).Nodup := by
  rw [List.nodup_cons]
  exact ⟨by simp, hnodup.map fun _ _ hij => Ptr.node.inj hij⟩

lemma Shows.frame (hs : Shows h l xs) (hf : Frame h h' F) (hhead : .head l ∉ F)
    (hnodes : ∀ i ∈ xs, .node i ∉ F) (hnodup : xs.Nodup) : Shows h' l xs := by
  have hmem : ∀ p ∈ Ptr.head l :: xs.map Ptr.node, p ∉ F := by
    intro p hp
    rcases List.mem_cons.mp hp with rfl | hp
    · exact hhead
    · obtain ⟨i, hi, rfl⟩ := List.mem_map.mp hp
      exact hnodes i hi
  refine ⟨⟨?links, ?close, ?tail_getD, ?size_eq⟩, ?bytes_eq⟩
  case links =>
    apply hs.links.frame (nodup_map_node hnodup)
    · exact fun p hp _ => hf.next p (hmem p hp)
    · exact fun p hp => hf.pre p (hmem p (List.mem_cons_of_mem _ hp))
  case close => rw [hf.next _ (hmem _ hs.links.end_mem), hs.close]
  case tail_getD => rw [hf.tail l hhead, hs.tail_getD]
  case size_eq => rw [hf.size l hhead, hs.size_eq]
  case bytes_eq => rw [hf.dataBytes l hhead, hf.nodeBytes, hs.bytes_eq]

lemma Represents.frame (hs : Represents h l xs) (hf : Frame h h' F) (hhead : .head l ∉ F)
    (hnodes : ∀ i ∈ xs, .node i ∉ F) (hnodup : xs.Nodup) : Represents h' l xs where
  toShows := hs.toShows.frame hf hhead hnodes hnodup
  tail_eq := (hf.tail l hhead).trans hs.tail_eq

lemma Shows.represents (hs : Shows h l xs) (hne : xs ≠ []) : Represents h l xs where
  toShows := hs
  tail_eq := by
    obtain ⟨ys, i, rfl⟩ := List.eq_nil_or_concat xs |>.resolve_left hne
    have htail := hs.tail_getD
    rw [List.concat_eq_append, lastNode_append] at htail
    cases ht : h.tail l with
    | none => rw [ht] at htail; cases htail
    | some p =>
      rw [ht, Option.getD_some] at htail
      simp [htail]

namespace Frame

lemma refl (h : Heap L ι) (F : Set (Ptr L ι)) : Frame h h F :=
  ⟨fun _ _ => rfl, fun _ _ => rfl, rfl, fun _ _ => rfl, fun _ _ => rfl, fun _ _ => rfl⟩

lemma mono {G : Set (Ptr L ι)} (hf : Frame h h' F) (hsub : F ⊆ G) : Frame h h' G where
  next p hp := hf.next p fun hc => hp (hsub hc)
  pre p hp := hf.pre p fun hc => hp (hsub hc)
  nodeBytes := hf.nodeBytes
  tail k hk := hf.tail k fun hc => hk (hsub hc)
  size k hk := hf.size k fun hc => hk (hsub hc)
  dataBytes k hk := hf.dataBytes k fun hc => hk (hsub hc)

lemma trans {h'' : Heap L ι} (hf : Frame h h' F) (hf' : Frame h' h'' F) : Frame h h'' F where
  next p hp := (hf'.next p hp).trans (hf.next p hp)
  pre p hp := (hf'.pre p hp).trans (hf.pre p hp)
  nodeBytes := hf'.nodeBytes.trans hf.nodeBytes
  tail k hk := (hf'.tail k hk).trans (hf.tail k hk)
  size k hk := (hf'.size k hk).trans (hf.size k hk)
  dataBytes k hk := (hf'.dataBytes k hk).trans (hf.dataBytes k hk)

variable [DecidableEq L] [DecidableEq ι]

lemma setNext (hf : Frame h h' F) {p : Ptr L ι} (hp : p ∈ F) (q : Option (Ptr L ι)) :
    Frame h (h'.setNext p q) F where
  next a ha := (Function.update_of_ne (fun hc => ha (by rw [hc]; exact hp)) ..).trans (hf.next a ha)
  pre := hf.pre
  nodeBytes := hf.nodeBytes
  tail := hf.tail
  size := hf.size
  dataBytes := hf.dataBytes

lemma setPre (hf : Frame h h' F) {p : Ptr L ι} (hp : p ∈ F) (q : Option (Ptr L ι)) :
    Frame h (h'.setPre p q) F where
  next := hf.next
  pre a ha := (Function.update_of_ne (fun hc => ha (by rw [hc]; exact hp)) ..).trans (hf.pre a ha)
  nodeBytes := hf.nodeBytes
  tail := hf.tail
  size := hf.size
  dataBytes := hf.dataBytes

omit [DecidableEq ι] in
lemma setTail (hf : Frame h h' F) (hl : .head l ∈ F) (q : Option (Ptr L ι)) :
    Frame h (h'.setTail l q) F where
  next := hf.next
  pre := hf.pre
  nodeBytes := hf.nodeBytes
  tail k hk := (Function.update_of_ne (fun hc => hk (by rw [hc]; exact hl)) ..).trans (hf.tail k hk)
  size := hf.size
  dataBytes := hf.dataBytes

omit [DecidableEq ι] in
lemma setCounts (hf : Frame h h' F) (hl : .head l ∈ F) (size : ℕ) (dataBytes : BitVec 64) :
    Frame h (h'.setCounts l size dataBytes) F where
  next := hf.next
  pre := hf.pre
  nodeBytes := hf.nodeBytes
  tail := hf.tail
  size k hk := (Function.update_of_ne (fun hc => hk (by rw [hc]; exact hl)) ..).trans (hf.size k hk)
  dataBytes k hk :=
    (Function.update_of_ne (fun hc => hk (by rw [hc]; exact hl)) ..).trans (hf.dataBytes k hk)

end Frame

def owned (l : L) (xs : List ι) : Set (Ptr L ι) := {p | p ∈ Ptr.head l :: xs.map Ptr.node}

@[simp] lemma node_mem_owned_iff {l : L} {i : ι} : .node i ∈ owned l xs ↔ i ∈ xs := by
  simp [owned]

@[simp] lemma head_mem_owned_iff {k l : L} : .head k ∈ owned l xs ↔ k = l := by simp [owned]

lemma head_mem_owned (l : L) (xs : List ι) : .head l ∈ owned l xs := List.mem_cons_self

lemma node_mem_owned {l : L} {i : ι} (hi : i ∈ xs) : .node i ∈ owned l xs :=
  List.mem_cons_of_mem _ (List.mem_map_of_mem hi)

lemma lastNode_mem_owned (l : L) (xs : List ι) : lastNode l xs ∈ owned l xs := by
  obtain rfl | ⟨ys, i, rfl⟩ := List.eq_nil_or_concat xs
  · exact head_mem_owned l []
  · rw [List.concat_eq_append, lastNode_append]
    exact node_mem_owned (by simp)

lemma owned_mono (ys : List ι) (hsub : xs ⊆ ys) : owned l xs ⊆ owned l ys := by
  intro p hp
  rcases List.mem_cons.mp hp with rfl | hp
  · exact head_mem_owned l ys
  · obtain ⟨i, hi, rfl⟩ := List.mem_map.mp hp
    exact node_mem_owned (hsub hi)

lemma lastNode_append_cons (l : L) (as : List ι) (i : ι) (bs : List ι) :
    lastNode l (as ++ i :: bs) = (bs.map Ptr.node).getLastD (.node i) := by
  rw [lastNode, List.map_append, List.map_cons, List.getLastD_eq_getLast?,
    List.getLast?_append_of_ne_nil _ (List.cons_ne_nil _ _), List.getLastD_eq_getLast?,
    List.getLast?_cons]
  rfl

lemma lastNode_skip (l : L) (as : List ι) (i b : ι) (bs : List ι) :
    lastNode l (as ++ b :: bs) = lastNode l (as ++ i :: b :: bs) := by
  rw [lastNode_append_cons, lastNode_append_cons, List.map_cons, List.getLastD_cons]

lemma lastNode_ne {l : L} {as : List ι} {i : ι} (hi : i ∉ as) : lastNode l as ≠ .node i := by
  intro hc
  have hmem := lastNode_mem_owned l as
  rw [hc, node_mem_owned_iff] at hmem
  exact hi hmem

lemma before_ne {as bs : List ι} (hnodup : (as ++ bs).Nodup) {p : Ptr L ι} (hp : p ∈ owned l as) :
    ∀ b ∈ bs, p ≠ .node b := by
  intro b hb
  rcases List.mem_cons.mp hp with rfl | hp
  · simp
  · obtain ⟨a, ha, rfl⟩ := List.mem_map.mp hp
    simpa using (List.nodup_append.mp hnodup).2.2 a ha b hb

lemma lastNode_eq_head_iff {l : L} {as : List ι} : lastNode l as = .head l ↔ as = [] := by
  obtain rfl | ⟨ys, i, rfl⟩ := List.eq_nil_or_concat as <;> simp

lemma Linked.split {i : ι} {as bs : List ι} (hs : Linked h l (as ++ i :: bs)) :
    Segment h.next h.pre (.head l) (as.map .node) (lastNode l as) ∧
      h.next (lastNode l as) = some (.node i) ∧ h.pre (.node i) = some (lastNode l as) ∧
      Segment h.next h.pre (.node i) (bs.map .node) (lastNode l (as ++ i :: bs)) := by
  have hlinks := hs.links
  rw [List.map_append, List.map_cons] at hlinks
  obtain ⟨r, hfirst, hnext, hpre, hrest⟩ := segment_append.mp hlinks
  have hr : r = lastNode l as := hfirst.end_eq
  subst hr
  exact ⟨hfirst, hnext, hpre, hrest⟩

lemma Linked.next_cases {i : ι} {as bs : List ι} (hs : Linked h l (as ++ i :: bs)) :
    (bs = [] ∧ h.next (.node i) = none) ∨ ∃ b cs, bs = b :: cs ∧ h.next (.node i) = some (.node b) := by
  obtain ⟨-, -, -, hrest⟩ := hs.split
  cases bs with
  | nil => exact .inl ⟨rfl, by rw [← lastNode_append l as i, hs.close]⟩
  | cons b bs => exact .inr ⟨b, bs, rfl, hrest.1⟩

lemma Linked.unlink {i : ι} {as bs : List ι} (hs : Linked h l (as ++ i :: bs))
    (hnodup : (as ++ i :: bs).Nodup) (hnext : h'.next (lastNode l as) = h.next (.node i))
    (hnexts : ∀ p, p ≠ lastNode l as → p ≠ .node i → h'.next p = h.next p)
    (hpre : ∀ p, h.next (.node i) = some p → h'.pre p = some (lastNode l as))
    (hpres : ∀ p, h.next (.node i) ≠ some p → p ≠ .node i → h'.pre p = h.pre p)
    (htail : (h'.tail l).getD (.head l) = lastNode l (as ++ bs)) (hsize : h'.size l = h.size l - 1) :
    Linked h' l (as ++ bs) := by
  obtain ⟨hfirst, -, -, hrest⟩ := hs.split
  have hdisjoint : ∀ p ∈ Ptr.head l :: as.map Ptr.node, p ≠ .node i ∧ ∀ b ∈ bs, p ≠ .node b := by
    intro p hp
    have hne := before_ne hnodup hp
    exact ⟨hne i (by simp), fun b hb => hne b (List.mem_cons_of_mem i hb)⟩
  have hfirst' : Segment h'.next h'.pre (.head l) (as.map .node) (lastNode l as) := by
    apply hfirst.frame (nodup_map_node (List.nodup_append.mp hnodup).1)
    · exact fun p hp hne => hnexts p hne (hdisjoint p hp).1
    · intro p hp
      obtain ⟨hpi, hpb⟩ := hdisjoint p (List.mem_cons_of_mem _ hp)
      refine hpres p (fun hc => ?_) hpi
      cases bs with
      | nil =>
        rw [← lastNode_append l as i, hs.close] at hc
        cases hc
      | cons b bs => exact hpb b (by simp) (Option.some.inj (hc.symm.trans hrest.1))
  have hlength : h'.size l = (as ++ bs).length := by
    rw [hsize, hs.size_eq]
    simp
  cases bs with
  | nil =>
    have hend : h'.next (lastNode l as) = none := by
      rw [hnext, ← lastNode_append l as i, hs.close]
    rw [List.append_nil] at *
    exact ⟨hfirst', hend, htail, hlength⟩
  | cons b bs =>
    obtain ⟨hib, -, hrest⟩ := hrest
    have hrest_nodup := (List.nodup_append.mp hnodup).2.1
    have hafter : ∀ p ∈ Ptr.node b :: bs.map Ptr.node, p ≠ lastNode l as ∧ p ≠ .node i := by
      intro p hp
      rw [← List.map_cons] at hp
      obtain ⟨j, hj, rfl⟩ := List.mem_map.mp hp
      constructor
      · intro hc
        exact (hdisjoint _ (lastNode_mem_owned l as)).2 j hj hc.symm
      · rintro hc
        exact (List.nodup_cons.mp hrest_nodup).1 (Ptr.node.inj hc ▸ hj)
    have hlast := lastNode_skip l as i b bs
    refine ⟨?_, ?_, htail, hlength⟩
    · rw [List.map_append, List.map_cons, hlast]
      refine segment_append.mpr ⟨_, hfirst', hnext.trans hib, hpre _ hib, ?_⟩
      apply hrest.frame
      · rw [← List.map_cons]
        exact (List.nodup_cons.mp hrest_nodup).2.map fun _ _ hij => Ptr.node.inj hij
      · exact fun p hp _ => hnexts p (hafter p hp).1 (hafter p hp).2
      · intro p hp
        refine hpres p (fun hc => ?_) (hafter p (List.mem_cons_of_mem _ hp)).2
        obtain ⟨j, hj, rfl⟩ := List.mem_map.mp hp
        have hbj : b = j := Ptr.node.inj (Option.some.inj (hib.symm.trans hc))
        exact (List.nodup_cons.mp (List.nodup_cons.mp hrest_nodup).2).1 (hbj ▸ hj)
    · rw [hlast]
      have hmem := hafter _ hrest.end_mem
      rw [hnexts _ hmem.1 hmem.2, hs.close]

lemma Shows.of_linked {i : ι} {as bs : List ι} (hs : Shows h l (as ++ i :: bs))
    (hlinked : Linked h' l (as ++ bs)) (hnodes : h'.nodeBytes = h.nodeBytes)
    (hbytes : h'.dataBytes l = h.dataBytes l - h.nodeBytes (.node i)) : Shows h' l (as ++ bs) where
  toLinked := hlinked
  bytes_eq := by
    rw [hbytes, hs.bytes_eq, hnodes, List.map_append, List.map_append, List.sum_append,
      List.sum_append, List.map_cons, List.sum_cons]
    ring

end Fengtai.ListTemplate
