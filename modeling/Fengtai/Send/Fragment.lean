import Fengtai.Crc
import Fengtai.Receive.Pool
import Fengtai.Send.Queue

set_option autoImplicit false

/-! Fragmentation on the sending side: `fragment.c`, and `fetch_pdu_fragment` of
`encapsulate.c`. -/

namespace Fengtai.Send

open Library.Words Crc Receive

def gseMaxSize : ℕ := 4095
abbrev fragmentMaxNum : ℕ := 256

def gseHeaderLengthFragmentPduS1 : ℕ := 13
def gseHeaderLengthFragmentPduS2 : ℕ := 7
def gseHeaderLengthFragmentPduS3 : ℕ := 10
def gseHeaderLengthFragmentPduM1 : ℕ := 11

/-- What the sender of one mapping reads of `g_st_app_conf`, and a macro the tree does not
hold: `INVALID_ID_VALUE` tells the mark -1 from the 256 IDs. -/
structure AppConf where
  mappingId : ℕ
  modcode : ℕ
  paddingThreshold : ℕ
  portToPktType : ℕ
  localMac : List UInt8
  localMac_length : localMac.length = 6
  invalidIdValue : ℤ → Bool
  invalid_of_neg : ∀ x, x < 0 → invalidIdValue x = true
  valid_of_id : ∀ x, 0 ≤ x → x < 256 → invalidIdValue x = false

/-- `valid_payload` of `general_module.c`: the data bytes of a frame for each modcod. -/
def validPayload : List ℕ :=
  [0, 2001 - 10, 2676 - 10, 3216 - 10, 4026 - 10, 4836 - 10, 5380 - 10, 6051 - 10, 6456 - 10,
    6730 - 10, 7184 - 10, 7274 - 10, 4836 - 10, 5380 - 10, 6051 - 10, 6730 - 10, 7184 - 10,
    7274 - 10, 5380 - 10, 6051 - 10, 6456 - 10, 6730 - 10, 7184 - 10, 7274 - 10, 6051 - 10,
    6456 - 10, 6730 - 10, 7184 - 10, 7274 - 10, 0, 0, 0]

def mapModcodPayload (modcod : ℕ) : ℕ := validPayload.getD modcod 0

lemma mapModcodPayload_bounds {modcod : ℕ} (h1 : 1 ≤ modcod) (h2 : modcod ≤ 28) :
    1991 ≤ mapModcodPayload modcod ∧ mapModcodPayload modcod ≤ 7264 := by
  interval_cases modcod <;> decide

structure Ptr where
  block : Memory
  offset : ℕ

def Ptr.add (p : Ptr) (n : ℕ) : Ptr := { p with offset := p.offset + n }

def Ptr.read (p : Ptr) (n : ℕ) : List UInt8 := window p.block p.offset n

def Ptr.null : Ptr := ⟨fun _ => 0, 0⟩

@[simp] lemma Ptr.add_zero (p : Ptr) : p.add 0 = p := rfl

@[simp] lemma Ptr.add_add (p : Ptr) (m n : ℕ) : (p.add m).add n = p.add (m + n) := by
  simp [Ptr.add, Nat.add_assoc]

@[simp] lemma Ptr.read_length (p : Ptr) (n : ℕ) : (p.read n).length = n := by simp [Ptr.read]

lemma Ptr.read_add (p : Ptr) (m n : ℕ) : p.read (m + n) = p.read m ++ (p.add m).read n :=
  window_add p.block p.offset m n

/-- `FRAGMENT_TYPE_CODE`; S is the zero value. -/
inductive FragmentType
  | s
  | m
  | e
  deriving DecidableEq, Repr

structure EnPduNode where
  pduSize : ℕ
  pPduStart : Ptr
  macLength : ℕ
  macAddress : List UInt8
  modcod : ℕ
  protocoltype : ℕ
  mbufAddress : Option MbufAddr
  fragmentFlag : Bool
  fragmentID : ℕ
  fragmentType : FragmentType
  fragmentSeq : ℕ
  pduTotalLength : ℕ
  crc32 : BitVec 32

def EnPduNode.zero : EnPduNode where
  pduSize := 0
  pPduStart := .null
  macLength := 0
  macAddress := List.replicate 6 0
  modcod := 0
  protocoltype := 0
  mbufAddress := none
  fragmentFlag := false
  fragmentID := 0
  fragmentType := .s
  fragmentSeq := 0
  pduTotalLength := 0
  crc32 := 0

structure FragmentInfo where
  fragmentID : ℕ
  totalNum : ℕ
  transferedNum : ℕ
  middleSize : ℕ
  startSize : ℕ
  endSize : ℕ
  crc32 : BitVec 32

structure FragmentBuffer where
  used : Bool
  fragmentInfo : FragmentInfo
  pduNode : EnPduNode

def FragmentBuffer.zero : FragmentBuffer := ⟨false, ⟨0, 0, 0, 0, 0, 0, 0⟩, .zero⟩

/-- The fragmentation parameters of `ENCAP_PARAM`, with the entry of the static
`last_FragmentID` that belongs to the mapping. -/
structure Fragments where
  fragmentBuffer : ℕ → FragmentBuffer
  fragmentIDQueue : CircularQueue
  lastFragmentID : ℕ

/-- After `init_encap_mem`. -/
def Fragments.initial : Fragments where
  fragmentBuffer := fun _ => .zero
  fragmentIDQueue := .initCircleQueue 256
  lastFragmentID := 0

def boardcastAddress : List UInt8 := List.replicate 6 0xFF

def getBroadcastType (macAddress : List UInt8) : Bool := macAddress.take 6 == boardcastAddress

/-- `allocate_fragmentID`: the first unused ID after the last one, else from 0 on. -/
def allocateFragmentID (lastFragmentID : ℕ) (fragmentBuffer : ℕ → FragmentBuffer) : Option ℕ :=
  let unused := fun i => !(fragmentBuffer i).used
  ((List.range' (lastFragmentID + 1) (fragmentMaxNum - (lastFragmentID + 1))).find? unused).or
    ((List.range (lastFragmentID + 1)).find? unused)

def startHeaderLength (node : EnPduNode) : ℕ :=
  if getBroadcastType node.macAddress then gseHeaderLengthFragmentPduS2
  else if node.macLength = 3 then gseHeaderLengthFragmentPduS3
  else gseHeaderLengthFragmentPduS1

def serialExtHeaderSize : ℕ := 4

def middleSize (frameMaxPayload : ℕ) : ℕ :=
  if frameMaxPayload ≤ gseMaxSize then
    sub16 frameMaxPayload (gseHeaderLengthFragmentPduM1 + serialExtHeaderSize)
  else sub16 (frameMaxPayload / 2) (gseHeaderLengthFragmentPduM1 + serialExtHeaderSize)

/-- The plan `run_fragment` writes down for a PDU, its CRC counted as part of it. The end
size is kept without the CRC. -/
def fragmentPlan (bNewFrame : Bool) (frameMaxPayload frameUsablePayload : ℕ) (node : EnPduNode)
    (crc32 : BitVec 32) (id : ℕ) : FragmentInfo :=
  let room := if bNewFrame then frameMaxPayload else frameUsablePayload
  let startSize := sub16 (sub16 room (startHeaderLength node)) serialExtHeaderSize
  let remaining := ((node.pduSize : ℤ) - startSize) % 4294967296 |>.toNat
  let middle := middleSize frameMaxPayload
  let endSize := u16 (remaining % middle)
  { fragmentID := id
    totalNum := u8 (remaining / middle + (if 0 < endSize then 1 else 0) + 1)
    transferedNum := 0
    middleSize := middle
    startSize := startSize
    endSize := sub16 endSize 4
    crc32 := crc32 }

def Fragments.adopt (s : Fragments) (id : ℕ) (b : FragmentBuffer) : Fragments where
  fragmentBuffer := Function.update s.fragmentBuffer id b
  fragmentIDQueue := s.fragmentIDQueue.push id
  lastFragmentID := id

/-- `run_fragment`: the plan goes into the buffer of a free ID. -/
def runFragment (bNewFrame : Bool) (frameMaxPayload frameUsablePayload : ℕ) (node : EnPduNode)
    (crc32 : BitVec 32) (s : Fragments) : Fragments × ℤ :=
  match allocateFragmentID s.lastFragmentID s.fragmentBuffer with
  | none => (s, -1)
  | some id =>
    if node.pduSize = 0 then (s, -1)
    else
      (s.adopt id
        ⟨true, fragmentPlan bNewFrame frameMaxPayload frameUsablePayload node crc32 id, node⟩, id)

def doFragment (bNewFrame : Bool) (frameMaxPayload frameUsablePayload : ℕ) (node : EnPduNode)
    (s : Fragments) : Fragments × ℤ :=
  runFragment bNewFrame frameMaxPayload frameUsablePayload
    { node with pduSize := u16 (node.pduSize + 4) }
    (crc32LookupTable (node.pPduStart.read node.pduSize)) s

def getFragmentID (q : CircularQueue) : ℤ := (q.getElement 0).getD (-1)

def errorFragmentIDInvalid : ℤ := -1
def errorFragmentSize : ℤ := -2
def errorFragmentIDUsed : ℤ := -3

/-- Kind and size of the next fragment; `none` when all have been fetched. -/
def FragmentInfo.nextFragment (f : FragmentInfo) : Option (FragmentType × ℕ) :=
  if f.transferedNum = 0 then some (.s, f.startSize)
  else if (f.transferedNum : ℤ) = f.totalNum - 1 then some (.e, f.endSize)
  else if (f.transferedNum : ℤ) < f.totalNum - 1 then some (.m, f.middleSize)
  else none

def FragmentInfo.nextOffset (f : FragmentInfo) : ℕ :=
  if f.transferedNum ≤ 1 then f.startSize * f.transferedNum
  else f.startSize + f.middleSize * (f.transferedNum - 1)

/-- The node of the next fragment: what `fetch_pdu_fragment` writes over `node`. The
protocol type stays as it was. -/
def FragmentBuffer.fragmentNode (b : FragmentBuffer) (id : ℕ) (kind : FragmentType) (size : ℕ)
    (node : EnPduNode) : EnPduNode :=
  { node with
    fragmentType := kind
    pduSize := size
    pPduStart := b.pduNode.pPduStart.add b.fragmentInfo.nextOffset
    macLength := b.pduNode.macLength
    macAddress := b.pduNode.macAddress
    modcod := b.pduNode.modcod
    mbufAddress := b.pduNode.mbufAddress
    fragmentFlag := true
    fragmentID := u8 id
    fragmentSeq := b.fragmentInfo.transferedNum
    pduTotalLength := b.pduNode.pduTotalLength
    crc32 := b.fragmentInfo.crc32 }

def Fragments.advance (s : Fragments) (id : ℕ) : Fragments :=
  let b := s.fragmentBuffer id
  let info : FragmentInfo :=
    { b.fragmentInfo with transferedNum := u8 (b.fragmentInfo.transferedNum + 1) }
  if info.totalNum ≤ info.transferedNum then
    { s with
      fragmentBuffer := Function.update s.fragmentBuffer id ⟨false, info, b.pduNode⟩
      fragmentIDQueue := (s.fragmentIDQueue.setElement 0 (-1)).pop }
  else { s with fragmentBuffer := Function.update s.fragmentBuffer id ⟨b.used, info, b.pduNode⟩ }

/-- What `fetch_pdu_fragment` leaves, the node it fills and its return value. -/
structure Fetched where
  fragments : Fragments
  node : EnPduNode
  ret : ℤ

def fetchPduFragment (conf : AppConf) (node : EnPduNode) (s : Fragments) : Fetched :=
  let id := getFragmentID s.fragmentIDQueue
  if conf.invalidIdValue id then ⟨s, node, errorFragmentIDInvalid⟩
  else
    let b := s.fragmentBuffer id.toNat
    if b.used then
      match b.fragmentInfo.nextFragment with
      | some (kind, size) =>
        ⟨s.advance id.toNat, b.fragmentNode id.toNat kind size node, id⟩
      | none => ⟨s, node, errorFragmentSize⟩
    else ⟨s, node, errorFragmentIDUsed⟩

structure Fragments.Drained (s : Fragments) : Prop where
  queue : s.fragmentIDQueue.Vacant
  unused : ∀ i < 256, (s.fragmentBuffer i).used = false
  last_lt : s.lastFragmentID < 256

/-- The fragmentation of `id` is under way, and no other. -/
structure Fragments.Pending (s : Fragments) (id : ℕ) : Prop where
  id_lt : id < 256
  queue : s.fragmentIDQueue.HoldsOnly id
  used : (s.fragmentBuffer id).used = true
  unused : ∀ i < 256, i ≠ id → (s.fragmentBuffer i).used = false
  transfered : (s.fragmentBuffer id).fragmentInfo.transferedNum <
    (s.fragmentBuffer id).fragmentInfo.totalNum
  total_lt : (s.fragmentBuffer id).fragmentInfo.totalNum < 256
  last_lt : s.lastFragmentID < 256

lemma Fragments.drained_initial : Fragments.initial.Drained where
  queue := CircularQueue.vacant_init
  unused _ _ := rfl
  last_lt := by decide

lemma allocateFragmentID_drained {s : Fragments} (h : s.Drained) :
    ∃ id, allocateFragmentID s.lastFragmentID s.fragmentBuffer = some id ∧ id < 256 ∧
      id = (s.lastFragmentID + 1) % 256 := by
  have hlast := h.last_lt
  by_cases hl : s.lastFragmentID + 1 < 256
  · refine ⟨s.lastFragmentID + 1, ?_, hl, (Nat.mod_eq_of_lt hl).symm⟩
    obtain ⟨n, hn⟩ : ∃ n, 256 - (s.lastFragmentID + 1) = n + 1 :=
      ⟨255 - (s.lastFragmentID + 1), by omega⟩
    simp [allocateFragmentID, hn, List.range'_succ, h.unused _ hl]
  · have hl' : s.lastFragmentID = 255 := by omega
    refine ⟨0, ?_, by omega, by omega⟩
    rw [allocateFragmentID, hl', List.range_succ_eq_map, List.find?_cons_of_pos]
    · rfl
    · simp [h.unused 0 (by decide)]

lemma fetchPduFragment_drained (conf : AppConf) (node : EnPduNode) {s : Fragments}
    (h : s.Drained) : (fetchPduFragment conf node s).fragments = s ∧
      (fetchPduFragment conf node s).ret < 0 := by
  have hlow := h.queue.low 255
  have hhigh := h.queue.high 255
  have hid : getFragmentID s.fragmentIDQueue = s.fragmentIDQueue.slots 255 := by
    simp [getFragmentID, h.queue.getElement]
  by_cases hneg : s.fragmentIDQueue.slots 255 < 0
  · simp [fetchPduFragment, hid, conf.invalid_of_neg _ hneg, errorFragmentIDInvalid]
  · have hused := h.unused (s.fragmentIDQueue.slots 255).toNat (by omega)
    simp [fetchPduFragment, hid, conf.valid_of_id _ (by omega) hhigh, hused, errorFragmentIDUsed]

def kindOf (n k : ℕ) : FragmentType := if k = 0 then .s else if k + 1 = n then .e else .m

def FragmentInfo.sizeOf (f : FragmentInfo) (k : ℕ) : ℕ :=
  if k = 0 then f.startSize else if k + 1 = f.totalNum then f.endSize else f.middleSize

lemma FragmentInfo.nextFragment_eq {f : FragmentInfo} (h : f.transferedNum < f.totalNum) :
    f.nextFragment = some (kindOf f.totalNum f.transferedNum, f.sizeOf f.transferedNum) := by
  simp only [nextFragment, kindOf, sizeOf]
  by_cases h0 : f.transferedNum = 0
  · simp [h0]
  · by_cases h1 : f.transferedNum + 1 = f.totalNum
    · have h1' : (f.transferedNum : ℤ) = f.totalNum - 1 := by omega
      simp [h0, h1, h1']
    · have h1' : ¬ (f.transferedNum : ℤ) = f.totalNum - 1 := by omega
      have h2 : (f.transferedNum : ℤ) < f.totalNum - 1 := by omega
      simp only [h0, h1, h1', h2, if_true, if_false]

lemma fetchPduFragment_pending (conf : AppConf) (node : EnPduNode) {s : Fragments} {id : ℕ}
    (h : s.Pending id) :
    fetchPduFragment conf node s =
      let b := s.fragmentBuffer id
      ⟨s.advance id, b.fragmentNode id (kindOf b.fragmentInfo.totalNum b.fragmentInfo.transferedNum)
        (b.fragmentInfo.sizeOf b.fragmentInfo.transferedNum) node, id⟩ := by
  have hid : getFragmentID s.fragmentIDQueue = id := by
    simp [getFragmentID, h.queue.getElement]
  have hlt := h.id_lt
  have hvalid := conf.valid_of_id id (by omega) (by omega)
  simp only [fetchPduFragment, hid, hvalid, Int.toNat_natCast, h.used, if_true,
    FragmentInfo.nextFragment_eq h.transfered, Bool.false_eq_true, if_false]

lemma Fragments.Pending.advance_more {s : Fragments} {id : ℕ} (h : s.Pending id)
    (hmore : (s.fragmentBuffer id).fragmentInfo.transferedNum + 1 <
      (s.fragmentBuffer id).fragmentInfo.totalNum) :
    (s.advance id).Pending id ∧
      (s.advance id).fragmentBuffer id =
        { s.fragmentBuffer id with fragmentInfo :=
          { (s.fragmentBuffer id).fragmentInfo with
            transferedNum := (s.fragmentBuffer id).fragmentInfo.transferedNum + 1 } } := by
  have ht := h.total_lt
  have hu : u8 ((s.fragmentBuffer id).fragmentInfo.transferedNum + 1) =
      (s.fragmentBuffer id).fragmentInfo.transferedNum + 1 := u8_of_lt (by omega)
  have hnot : ¬ (s.fragmentBuffer id).fragmentInfo.totalNum ≤
      (s.fragmentBuffer id).fragmentInfo.transferedNum + 1 := by omega
  simp only [advance, hu, hnot, if_false]
  refine ⟨⟨h.id_lt, h.queue, by simpa using h.used, ?_, by simpa using hmore, by simpa using ht,
    h.last_lt⟩, by simp⟩
  intro i hi hne
  simpa [hne] using h.unused i hi hne

lemma Fragments.Pending.advance_last {s : Fragments} {id : ℕ} (h : s.Pending id)
    (hlast : (s.fragmentBuffer id).fragmentInfo.transferedNum + 1 =
      (s.fragmentBuffer id).fragmentInfo.totalNum) : (s.advance id).Drained := by
  have ht := h.total_lt
  have hu : u8 ((s.fragmentBuffer id).fragmentInfo.transferedNum + 1) =
      (s.fragmentBuffer id).fragmentInfo.totalNum := by rw [hlast, u8_of_lt ht]
  simp only [advance, hu, le_refl, if_true]
  refine ⟨h.queue.release, ?_, h.last_lt⟩
  intro i hi
  by_cases hne : i = id
  · simp [hne]
  · simpa [hne] using h.unused i hi hne

lemma Fragments.advance_last_eq (s : Fragments) (id : ℕ) :
    (s.advance id).lastFragmentID = s.lastFragmentID := by
  simp only [advance]
  split_ifs <;> rfl

end Fengtai.Send
