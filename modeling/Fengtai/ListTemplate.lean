import Fengtai.Library.Segments
import Mathlib.Data.BitVec

set_option autoImplicit false

/-! The linked lists of `list_template.c`: several lists over one memory of nodes. An
operation has no result when it would follow a null pointer. -/

namespace Fengtai.ListTemplate

open Library.Segments

variable {L ι : Type*}

/-- A `LINKNODE*` that is not null: the head node of a list, which carries no data, or
another node. -/
inductive Ptr (L ι : Type*)
  | head (l : L)
  | node (i : ι)
  deriving DecidableEq

/-- The fields of the nodes and, for each `LINKLIST`, its own; `pList->head` is the head
node it was made with. -/
structure Heap (L ι : Type*) where
  next : Ptr L ι → Option (Ptr L ι)
  pre : Ptr L ι → Option (Ptr L ι)
  nodeBytes : Ptr L ι → BitVec 64
  tail : L → Option (Ptr L ι)
  size : L → ℕ
  dataBytes : L → BitVec 64

namespace Heap

section Writes

variable [DecidableEq L] [DecidableEq ι]

@[simp] def setNext (h : Heap L ι) (p : Ptr L ι) (q : Option (Ptr L ι)) : Heap L ι :=
  { h with next := Function.update h.next p q }

@[simp] def setPre (h : Heap L ι) (p : Ptr L ι) (q : Option (Ptr L ι)) : Heap L ι :=
  { h with pre := Function.update h.pre p q }

@[simp] def setTail (h : Heap L ι) (l : L) (q : Option (Ptr L ι)) : Heap L ι :=
  { h with tail := Function.update h.tail l q }

/-- `size` and `data_bytes` are always written together, except by the two operations
that leave `data_bytes` as it is. -/
@[simp] def setCounts (h : Heap L ι) (l : L) (size : ℕ) (dataBytes : BitVec 64) : Heap L ι :=
  { h with
    size := Function.update h.size l size
    dataBytes := Function.update h.dataBytes l dataBytes }

end Writes

variable [DecidableEq L] [DecidableEq ι]

def initList (h : Heap L ι) (pList : L) : Heap L ι :=
  (((h.setPre (.head pList) none).setNext (.head pList) none).setTail pList none).setCounts pList 0 0

def insertExistNode (h : Heap L ι) (pList : L) (pos : ℕ) (node : ι) : Option (Heap L ι) :=
  let pos := if h.size pList < pos then h.size pList else pos
  (walk h.next pos (.head pList)).bind fun pCurrent =>
    let h := h.setNext (.node node) (h.next pCurrent)
    let h? := if pos < h.size pList then
        (h.next pCurrent).map fun pNext => h.setPre pNext (some (.node node))
      else some h
    h?.map fun h =>
      let h := (h.setPre (.node node) (some pCurrent)).setNext pCurrent (some (.node node))
      let h := h.setCounts pList (h.size pList + 1) (h.dataBytes pList)
      if pos = h.size pList then h.setTail pList (some (.node node)) else h

/-- `Remove_Node_pos`, with the node it takes out. -/
def removeNodePos (h : Heap L ι) (pList : L) (pos : ℕ) : Option (Heap L ι × Option (Ptr L ι)) :=
  if pos < 1 ∨ h.size pList < pos then some (h, none)
  else
    (walk h.next (pos - 1) (.head pList)).bind fun pPrevious =>
      (h.next pPrevious).map fun pCurrent =>
        let h := h.setNext pPrevious (h.next pCurrent)
        let h := match h.next pCurrent with
          | some pNext => h.setPre pNext (some pPrevious)
          | none => h.setTail pList (if pPrevious = Ptr.head pList then none else some pPrevious)
        (h.setCounts pList (h.size pList - 1) (h.dataBytes pList - h.nodeBytes pCurrent),
          some pCurrent)

/-- `Remove_Node_point`, of a node that is not the head node. -/
def removeNodePoint (h : Heap L ι) (pList : L) (pNode : ι) : Option (Heap L ι) :=
  let pNext := h.next (.node pNode)
  (h.pre (.node pNode)).map fun pPre =>
    let h := match pNext with
      | some pNext => h.setPre pNext (some pPre)
      | none => (h.setNext pPre none).setTail pList (some pPre)
    let h := h.setNext pPre pNext
    let h := h.setCounts pList (h.size pList - 1) (h.dataBytes pList - h.nodeBytes (.node pNode))
    h.setNext (.node pNode) none

def getHeaderData (h : Heap L ι) (pList : L) : Option (Ptr L ι) := h.next (.head pList)

/-- `Clear_List`, with the nodes it frees, `fuel` of them at most. -/
def clearList (fuel : ℕ) (h : Heap L ι) (pList : L) : Option (Heap L ι × List (Ptr L ι)) :=
  (follow h.next fuel (h.next (.head pList))).map fun freed =>
    (h.initList pList, freed)

def pushList (h : Heap L ι) (pList : L) (pNode : ι) : Heap L ι :=
  let h := match h.tail pList with
    | none => (h.setNext (.head pList) (some (.node pNode))).setPre (.node pNode)
        (some (.head pList))
    | some tail => (h.setPre (.node pNode) (some tail)).setNext tail (some (.node pNode))
  let h := (h.setNext (.node pNode) none).setTail pList (some (.node pNode))
  h.setCounts pList (h.size pList + 1) (h.dataBytes pList + h.nodeBytes (.node pNode))

/-- `Linked_List`; an empty source is answered by an error code. -/
def linkedList (h : Heap L ι) (pDestList pSrcList : L) : Option (Heap L ι) :=
  if h.size pSrcList = 0 then some h
  else
    (h.next (.head pSrcList)).bind fun first =>
      let h := match h.tail pDestList with
        | none =>
          let h := (h.setCounts pDestList 0 0).setPre first (some (.head pDestList))
          h.setNext (.head pDestList) (h.next (.head pSrcList))
        | some tail => (h.setPre first (some tail)).setNext tail (h.next (.head pSrcList))
      let h := h.setTail pDestList (h.tail pSrcList)
      let h := h.setCounts pDestList (h.size pDestList + h.size pSrcList)
        (h.dataBytes pDestList + h.dataBytes pSrcList)
      (h.tail pSrcList).map fun tail =>
        (((h.setNext tail none).setCounts pSrcList 0 0).setTail pSrcList none).setNext
          (.head pSrcList) none

/-- `Pop_List`, with the node it takes out; `data_bytes` stays. -/
def popList (h : Heap L ι) (pList : L) : Option (Heap L ι × Option (Ptr L ι)) :=
  if 1 < h.size pList then
    (h.next (.head pList)).bind fun pNode =>
      let h := h.setNext (.head pList) (h.next pNode)
      (h.next (.head pList)).map fun pNext =>
        let h := h.setPre pNext (some (.head pList))
        (h.setCounts pList (h.size pList - 1) (h.dataBytes pList), some pNode)
  else if h.size pList = 1 then
    let pNode := h.next (.head pList)
    let h := h.setNext (.head pList) none
    (h.tail pList).map fun tail =>
      let h := ((h.setPre tail none).setNext tail none).setTail pList none
      (h.setCounts pList (h.size pList - 1) (h.dataBytes pList), pNode)
  else some (h, none)

end Heap

end Fengtai.ListTemplate
