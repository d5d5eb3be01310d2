import Fengtai.Config.Routes

set_option autoImplicit false

/-! The mapping table: from the lines of `mapping_tbl.conf` to the next hops, ports, packet types and
addresses of a node's rings. -/

namespace Fengtai.Config

open Library.Words Library.TextLines Receive

/-- The mapping tables of `g_st_app_conf`. Their declaration is not in the tree: the elements hold
any node id and any protocol type. -/
structure MappingShape where
  rows : ℕ
  nextHopId : ℤ → ℕ
  protocolType : ℤ → ℕ
  nextHopId_natCast : ∀ n : ℕ, n < 65536 → nextHopId n = n
  protocolType_natCast : ∀ n : ℕ, n < 65536 → protocolType n = n

/-- What `read_nic_config` and the interfaces have set before. -/
structure NodeConf where
  localId : ℕ
  ifName : List (List UInt8)
  localMac : ℕ → List UInt8

/-- The tables, with the static counter of `read_mapping_tbl_string`. -/
structure MappingTables where
  i : ℕ
  mappingTableEntryNum : ℕ
  nextHopId : ℕ → ℕ
  portId : ℕ → ℕ
  dstMac : ℕ → List UInt8
  dstMacFlag : ℕ → ℕ
  protocolType : ℕ → ℕ
  portToPktType : ℕ → ℕ

def MappingTables.initial : MappingTables :=
  ⟨0, 0, fun _ => 0, fun _ => 0, fun _ => List.replicate 6 0, fun _ => 0, fun _ => 0, fun _ => 0⟩

def fwdTunnelPdu : ℕ := 1
def rtnTunnelPdu : ℕ := 2
def multiFwdPduPack : ℕ := 17

/-- The words for the packet types. `m_rtn_pdu` stands for the same type as `m_fwd_pdu`. -/
def packetTypes : List (List UInt8 × ℕ) :=
  [([105, 115, 108], islPack), ([98, 98], bbframePack),
    ([109, 95, 102, 119, 100, 95, 112, 100, 117], multiFwdPduPack),
    ([109, 95, 114, 116, 110, 95, 112, 100, 117], multiFwdPduPack),
    ([102, 119, 100, 95, 112, 100, 117], fwdTunnelPdu),
    ([114, 116, 110, 95, 112, 100, 117], rtnTunnelPdu),
    ([102, 119, 100, 95, 98, 98], enumFwdTxFwdData)]

/-- The first interface whose name the field starts with. -/
def NodeConf.port (node : NodeConf) (p : List UInt8) : Option ℕ :=
  (List.range node.ifName.length).find? fun j => (node.ifName.getD j []).isPrefixOf p

/-- The value of a character, where `StrToHex` sets one. -/
def nibble (c : UInt8) : Option ℕ :=
  if 48 ≤ c ∧ c ≤ 57 then some (c.toNat - 48)
  else if 65 ≤ c ∧ c ≤ 90 then some (c.toNat - 55)
  else if 97 ≤ c ∧ c ≤ 122 then some (c.toNat - 87)
  else none

/-- A character left over at the end is not read. -/
def strToHex : List UInt8 → Option (List UInt8)
  | a :: b :: text =>
    (nibble a).bind fun x => (nibble b).bind fun y => (strToHex text).map fun hex =>
      UInt8.ofNat (x <<< 4 ||| y) :: hex
  | _ => some []

/-- The fields up to a total of twelve characters. -/
def joinMac : ℕ → List (List UInt8) → List UInt8
  | _, [] => []
  | j, p :: ps =>
    let j := u8 (j + p.length)
    p ++ if j = 12 then [] else joinMac j ps

/-- `text` has twenty bytes, and six bytes of `data` are copied. -/
def readMac (ps : List (List UInt8)) : Option (List UInt8) :=
  let text := joinMac 0 ps
  if ps ≠ [] ∧ text.length < 20 then
    (strToHex text).bind fun hex => if 6 ≤ hex.length then some (hex.take 6) else none
  else none

namespace MappingTables

/-- A field that is missing is skipped. -/
def readNextHop (shape : MappingShape) (t : MappingTables) : Option (List UInt8) → Option MappingTables
  | none => some t
  | some p => (atoi p).map fun v =>
    { t with nextHopId := Function.update t.nextHopId t.i (shape.nextHopId v) }

/-- The port stays as it is when no interface has the name. -/
def readPort (node : NodeConf) (t : MappingTables) (p : Option (List UInt8)) : MappingTables :=
  { t with portId := (p.bind node.port).elim t.portId (Function.update t.portId t.i) }

def readOwnMac (node : NodeConf) (t : MappingTables) : MappingTables :=
  { t with
    dstMac := if t.nextHopId t.i = node.localId then
      Function.update t.dstMac t.i (node.localMac (t.portId t.i)) else t.dstMac
    dstMacFlag := if t.nextHopId t.i = node.localId then
      Function.update t.dstMacFlag t.i 3 else t.dstMacFlag }

def readProtocol (shape : MappingShape) (t : MappingTables) (p : Option (List UInt8)) :
    MappingTables :=
  { t with
    protocolType := p.elim t.protocolType fun p =>
      Function.update t.protocolType t.i (shape.protocolType (strtol16 p)) }

/-- So does the packet type when the word is not one of those known. -/
def readPktType (t : MappingTables) (p : Option (List UInt8)) : MappingTables :=
  { t with
    portToPktType := (p.bind fun p => packetTypes.lookup p).elim t.portToPktType
      (Function.update t.portToPktType t.i) }

def readDstMac (t : MappingTables) (ps : List (List UInt8)) : Option MappingTables :=
  (readMac ps).map fun mac =>
    { t with
      dstMac := Function.update t.dstMac t.i mac
      i := u8 (t.i + 1)
      mappingTableEntryNum := u8 (t.i + 1) }

end MappingTables

def readMappingTblString (shape : MappingShape) (node : NodeConf) (string : List UInt8)
    (t : MappingTables) : Option MappingTables :=
  let fields := (string.takeWhile (· != 0)).splitOnP isDelim
  (atoi (fields.headD [])).bind fun id =>
    if (id % 65536).toNat = node.localId then
      if t.i < shape.rows then
        (t.readNextHop shape fields[1]?).bind fun t =>
          ((((t.readPort node fields[2]?).readOwnMac node).readProtocol shape
            fields[3]?).readPktType fields[4]?).readDstMac (fields.drop 5)
      else none
    else some t

/-- The first line of the file is its heading. -/
def readMappingTblConfig (shape : MappingShape) (node : NodeConf) (text : List UInt8) :
    Option MappingTables :=
  ((readLines 100 text).drop 1).foldlM (fun t line => readMappingTblString shape node line t)
    .initial

structure MappingLine where
  localId : ℕ
  nextHopId : ℕ
  port : List UInt8
  protocolType : ℕ
  pktType : List UInt8
  mac : List UInt8

structure HexByte (b : UInt8) (p : List UInt8) : Prop where
  two : ∃ c d x y, p = [c, d] ∧ nibble c = some x ∧ nibble d = some y ∧ y < 16 ∧
    b = UInt8.ofNat (16 * x + y)

structure MappingLine.WrittenAs (l : MappingLine) (line : List UInt8) : Prop where
  localId : l.localId < 65536
  nextHopId : l.nextHopId < 65536
  protocolType : l.protocolType < 65536
  pktType : ∃ type, packetTypes.lookup l.pktType = some type
  mac : l.mac.length = 6
  fields : ∃ id hop hex macs, Numeral id l.localId ∧ Numeral hop l.nextHopId ∧
    HexNumeral hex l.protocolType ∧ List.Forall₂ HexByte l.mac macs ∧
    Fields isDelim (id :: hop :: l.port :: hex :: l.pktType :: macs) line
  plain : ∀ c ∈ line, c ≠ 0 ∧ c ≠ newline

/-- What a line leaves in entry `k` of tables that were empty there. -/
structure MappingTables.Entry (node : NodeConf) (t : MappingTables) (k : ℕ) (l : MappingLine) :
    Prop where
  nextHopId : t.nextHopId k = l.nextHopId
  portId : t.portId k = (node.port l.port).getD 0
  dstMac : t.dstMac k = l.mac
  dstMacFlag : t.dstMacFlag k = if l.nextHopId = node.localId then 3 else 0
  protocolType : t.protocolType k = l.protocolType
  portToPktType : some (t.portToPktType k) = packetTypes.lookup l.pktType

/-- The tables hold `lines`, and nothing beyond them. -/
structure MappingTables.Lists (node : NodeConf) (t : MappingTables) (lines : List MappingLine) :
    Prop where
  i : t.i = lines.length
  num : t.mappingTableEntryNum = lines.length
  entry : ∀ k l, lines[k]? = some l → t.Entry node k l
  empty : ∀ k, lines.length ≤ k → t.nextHopId k = 0 ∧ t.portId k = 0 ∧ t.dstMacFlag k = 0

section Reading

variable {shape : MappingShape} {node : NodeConf}

lemma MappingTables.lists_initial : MappingTables.initial.Lists node [] where
  i := rfl
  num := rfl
  entry k l h := by simp at h
  empty k _ := ⟨rfl, rfl, rfl⟩

lemma HexByte.length {b : UInt8} {p : List UInt8} (h : HexByte b p) : p.length = 2 := by
  obtain ⟨c, d, x, y, rfl, -⟩ := h.two
  rfl

lemma macs_length {mac : List UInt8} {macs : List (List UInt8)}
    (h : List.Forall₂ HexByte mac macs) : macs.flatten.length = 2 * mac.length := by
  induction h with
  | nil => rfl
  | cons hp _ ih =>
    rw [List.flatten_cons, List.length_append, hp.length, ih, List.length_cons]
    omega

lemma strToHex_macs {mac tail : List UInt8} {macs : List (List UInt8)}
    (h : List.Forall₂ HexByte mac macs) (htail : tail.length ≤ 1) :
    strToHex (macs.flatten ++ tail) = some mac := by
  induction h with
  | nil =>
    rcases tail with _ | ⟨c, _ | ⟨d, tail⟩⟩
    · rfl
    · rfl
    · simp at htail
  | @cons b p mac macs hp _ ih =>
    obtain ⟨c, d, x, y, rfl, hx, hy, hlt, rfl⟩ := hp.two
    have hor : x <<< 4 ||| y = 16 * x + y := by
      rw [Nat.shiftLeft_eq, Nat.mul_comm]
      exact (Nat.two_pow_add_eq_or_of_lt (i := 4) hlt x).symm
    have hsplit : ([c, d] :: macs).flatten ++ tail = c :: d :: (macs.flatten ++ tail) := rfl
    rw [hsplit, strToHex, hx, hy, ih, Option.bind_some, Option.bind_some, Option.map_some, hor]

lemma joinMac_macs {mac tail : List UInt8} {macs : List (List UInt8)} {j : ℕ}
    (h : List.Forall₂ HexByte mac macs) (hne : macs ≠ []) (hj : j + 2 * macs.length ≤ 12) :
    joinMac j (macs.dropLast ++ [macs.getLastD [] ++ tail]) = macs.flatten ++ tail := by
  induction h generalizing j with
  | nil => exact absurd rfl hne
  | @cons b p mac macs hp hrest ih =>
    cases hrest with
    | nil =>
      simp only [List.dropLast_singleton, List.nil_append, List.getLastD_cons, List.getLastD_nil,
        joinMac, ite_self, List.append_nil, List.flatten_cons, List.flatten_nil]
    | @cons b' p' mac macs hp' hrest' =>
      rw [List.length_cons] at hj
      have hstop : u8 (j + p.length) = j + 2 := by
        rw [hp.length]
        exact u8_of_lt (by omega)
      have hlength : 0 < (p' :: macs).length := Nat.succ_pos _
      have hrun := ih (j := j + 2) (List.cons_ne_nil _ _) (by omega)
      rw [List.dropLast_cons_of_ne_nil (List.cons_ne_nil _ _), List.cons_append, joinMac, hstop,
        if_neg (by omega), List.flatten_cons, List.append_assoc, ← hrun]
      rfl

lemma readMac_macs {mac tail : List UInt8} {macs : List (List UInt8)}
    (h : List.Forall₂ HexByte mac macs) (hmac : mac.length = 6) (htail : tail.length ≤ 1) :
    readMac (macs.dropLast ++ [macs.getLastD [] ++ tail]) = some mac := by
  have hmacs : macs.length = 6 := h.length_eq.symm.trans hmac
  have hne : macs ≠ [] := by
    rintro rfl
    cases hmacs
  have hflat := macs_length h
  have hjoin := @joinMac_macs mac tail macs 0 h hne (by omega)
  rw [readMac, hjoin, if_pos ⟨by simp, by rw [List.length_append]; omega⟩,
    strToHex_macs h htail, Option.bind_some, if_pos hmac.ge, ← hmac, List.take_length]

namespace MappingTables

/-- What the line of `l` makes of the tables. -/
def readLine (node : NodeConf) (t : MappingTables) (l : MappingLine)
    (type : ℕ) : MappingTables where
  i := u8 (t.i + 1)
  mappingTableEntryNum := u8 (t.i + 1)
  nextHopId := Function.update t.nextHopId t.i l.nextHopId
  portId := (node.port l.port).elim t.portId (Function.update t.portId t.i)
  dstMac := Function.update t.dstMac t.i l.mac
  dstMacFlag := if l.nextHopId = node.localId then Function.update t.dstMacFlag t.i 3
    else t.dstMacFlag
  protocolType := Function.update t.protocolType t.i l.protocolType
  portToPktType := Function.update t.portToPktType t.i type

variable {t : MappingTables} {lines : List MappingLine} {l : MappingLine} {type : ℕ}

lemma Lists.entry_add (ht : t.Lists node lines) (htype : packetTypes.lookup l.pktType = some type) :
    (t.readLine node l type).Entry node t.i l := by
  obtain ⟨-, hport, hflag⟩ := ht.empty t.i ht.i.ge
  refine ⟨?_, ?_, ?_, ?_, ?_, ?_⟩
  · exact Function.update_self ..
  · simp only [readLine]
    cases node.port l.port with
    | none => exact hport
    | some j => exact Function.update_self ..
  · exact Function.update_self ..
  · simp only [readLine]
    split_ifs
    · exact Function.update_self ..
    · exact hflag
  · exact Function.update_self ..
  · rw [htype]
    exact congrArg some (Function.update_self ..)

lemma readLine_other {k : ℕ} (hk : k ≠ t.i) :
    (t.readLine node l type).nextHopId k = t.nextHopId k ∧
      (t.readLine node l type).portId k = t.portId k ∧
      (t.readLine node l type).dstMac k = t.dstMac k ∧
      (t.readLine node l type).dstMacFlag k = t.dstMacFlag k ∧
      (t.readLine node l type).protocolType k = t.protocolType k ∧
      (t.readLine node l type).portToPktType k = t.portToPktType k := by
  refine ⟨Function.update_of_ne hk .., ?_, Function.update_of_ne hk .., ?_,
    Function.update_of_ne hk .., Function.update_of_ne hk ..⟩
  · simp only [readLine]
    cases node.port l.port with
    | none => rfl
    | some j => exact Function.update_of_ne hk ..
  · simp only [readLine]
    split_ifs
    · exact Function.update_of_ne hk ..
    · rfl

lemma Lists.add (ht : t.Lists node lines) (hcounter : lines.length < 255)
    (htype : packetTypes.lookup l.pktType = some type) :
    (t.readLine node l type).Lists node (lines ++ [l]) := by
  have hnext : u8 (t.i + 1) = (lines ++ [l]).length := by
    rw [ht.i, List.length_append, List.length_singleton]
    exact u8_of_lt (by omega)
  refine ⟨hnext, hnext, ?_, ?_⟩
  · intro k l' hl'
    rcases Nat.lt_trichotomy k lines.length with hk | rfl | hk
    · rw [List.getElem?_append_left hk] at hl'
      obtain ⟨hhop, hport, hmac, hflag, hprotocol, hpkt⟩ :=
        @readLine_other node t l type k (by rw [ht.i]; omega)
      have hentry := ht.entry k l' hl'
      refine ⟨?_, ?_, ?_, ?_, ?_, ?_⟩
      · rw [hhop, hentry.nextHopId]
      · rw [hport, hentry.portId]
      · rw [hmac, hentry.dstMac]
      · rw [hflag, hentry.dstMacFlag]
      · rw [hprotocol, hentry.protocolType]
      · rw [hpkt, hentry.portToPktType]
    · obtain rfl : l = l' := by simpa using hl'
      rw [← ht.i]
      exact ht.entry_add htype
    · rw [List.getElem?_eq_none (by simp; omega)] at hl'
      cases hl'
  · intro k hk
    rw [List.length_append, List.length_singleton] at hk
    obtain ⟨hhop, hport, -, hflag, -⟩ :=
      @readLine_other node t l type k (by rw [ht.i]; omega)
    obtain ⟨hhop', hport', hflag'⟩ := ht.empty k (by omega)
    exact ⟨hhop.trans hhop', hport.trans hport', hflag.trans hflag'⟩

end MappingTables

def ownLines (localId : ℕ) (lines : List MappingLine) : List MappingLine :=
  lines.filter fun l => l.localId = localId

/-- There is room for the lines, and the counter of eight bits does not wrap. -/
def RoomFor (shape : MappingShape) (lines : List MappingLine) : Prop :=
  lines.length ≤ shape.rows ∧ lines.length < 256

lemma RoomFor.left {lines lines' : List MappingLine} (h : RoomFor shape (lines ++ lines')) :
    RoomFor shape lines := by
  rw [RoomFor, List.length_append] at h
  exact ⟨by omega, by omega⟩

lemma readMappingTblString_line {l : MappingLine} {line tail : List UInt8}
    {lines : List MappingLine} {t : MappingTables} (h : l.WrittenAs line)
    (htail : tail = [] ∨ tail = [newline]) (ht : t.Lists node lines)
    (hfit : RoomFor shape (lines ++ ownLines node.localId [l])) :
    ∃ t', readMappingTblString shape node (line ++ tail) t = some t' ∧
      t'.Lists node (lines ++ ownLines node.localId [l]) := by
  obtain ⟨id, hop, hex, macs, hid, hhop, hhex, hmacs, hfields⟩ := h.fields
  obtain ⟨type, htype⟩ := h.pktType
  have hstring := string_eq (fun hc => (h.plain 0 hc).1 rfl) htail
  have hsplit := hfields.splitOnP (ends_plain htail rfl)
  obtain ⟨m, ms, rfl⟩ : ∃ m ms, macs = m :: ms := by
    apply List.exists_cons_of_ne_nil
    rintro rfl
    have hlength := hmacs.length_eq
    rw [h.mac] at hlength
    cases hlength
  have htokens : (line ++ tail).splitOnP isDelim = id :: hop :: l.port :: hex :: l.pktType ::
      ((m :: ms).dropLast ++ [(m :: ms).getLastD [] ++ tail]) := by
    rw [hsplit]
    rfl
  have hshort : tail.length ≤ 1 := by
    rcases htail with rfl | rfl
    exacts [Nat.zero_le _, le_rfl]
  have hmac := readMac_macs hmacs h.mac hshort
  have hlocal := @atoi_numeral id [] l.localId hid (h.localId.trans (by norm_num)) (by simp)
  have hnext := @atoi_numeral hop [] l.nextHopId hhop (h.nextHopId.trans (by norm_num)) (by simp)
  have hprotocol := strtol16_hexNumeral hhex (h.protocolType.trans (by norm_num))
  rw [List.append_nil] at hlocal hnext
  have hmod : ((l.localId : ℤ) % 65536).toNat = l.localId := by
    have hlt := h.localId
    omega
  rw [readMappingTblString, hstring, htokens]
  simp only [List.headD_cons, hlocal, Option.bind_some, hmod]
  split_ifs with hown hrow
  · have hkept : ownLines node.localId [l] = [l] := by simp [ownLines, hown]
    rw [hkept] at hfit ⊢
    have hcounter := hfit.2
    rw [List.length_append, List.length_singleton] at hcounter
    simp only [MappingTables.readNextHop, List.getElem?_cons_succ, List.getElem?_cons_zero, hnext,
      Option.map_some, Option.bind_some, List.drop_succ_cons, List.drop_zero,
      MappingTables.readDstMac, hmac, MappingTables.readPktType, MappingTables.readProtocol,
      MappingTables.readOwnMac, MappingTables.readPort, hprotocol, htype, Option.elim_some,
      shape.nextHopId_natCast _ h.nextHopId, shape.protocolType_natCast _ h.protocolType,
      Function.update_self]
    refine ⟨t.readLine node l type, ?_, ?_⟩
    · simp only [MappingTables.readLine]
      split_ifs
      · rw [Function.update_idem]
      · rfl
    · exact ht.add (by omega) htype
  · have hkept : ownLines node.localId [l] = [l] := by simp [ownLines, hown]
    rw [hkept, RoomFor, List.length_append, List.length_singleton] at hfit
    exact absurd (ht.i.trans_lt hfit.1) hrow
  · have hkept : ownLines node.localId [l] = [] := by simp [ownLines, hown]
    rw [hkept, List.append_nil]
    exact ⟨t, rfl, ht⟩

structure MappingFile (heading body : List UInt8) (lines : List MappingLine) : Prop where
  unbroken : newline ∉ heading
  short : heading.length + 1 < 100
  body : LinesOf 100 MappingLine.WrittenAs lines body

lemma MappingLine.WrittenAs.ne_nil {l : MappingLine} {line : List UInt8} (h : l.WrittenAs line) :
    line ≠ [] := by
  obtain ⟨id, hop, hex, macs, -, -, -, -, hfields⟩ := h.fields
  cases hfields
  simp

lemma readMappingTblConfig_written {heading body : List UInt8} {lines : List MappingLine}
    (h : MappingFile heading body lines) (hfit : RoomFor shape (ownLines node.localId lines)) :
    ∃ t, readMappingTblConfig shape node (heading ++ newline :: body) = some t ∧
      t.Lists node (ownLines node.localId lines) := by
  have hread := h.body.readLines fun l line hl => ⟨hl.ne_nil, fun hc => (hl.plain _ hc).2 rfl⟩
  have hstep (lines : List MappingLine) (l : MappingLine) (read : List UInt8) (t : MappingTables)
      (hread : ReadAs 100 MappingLine.WrittenAs l read) (ht : t.Lists node lines)
      (hroom : RoomFor shape (lines ++ ownLines node.localId [l])) :
      ∃ t', readMappingTblString shape node read t = some t' ∧
        t'.Lists node (lines ++ ownLines node.localId [l]) := by
    obtain ⟨line, tail, rfl, hline, -, htail⟩ := hread
    exact readMappingTblString_line hline htail ht hroom
  rw [← List.nil_append (ownLines node.localId lines)] at hfit ⊢
  rw [readMappingTblConfig, readLines_line h.unbroken h.short, List.drop_one, List.tail_cons]
  exact foldlM_filter (fun _ _ h => h.left) hstep hread MappingTables.lists_initial hfit

end Reading

/-- What the tables mean to `get_mapping_index`. -/
def MappingTables.hopConf (node : NodeConf) (t : MappingTables) : HopConf :=
  ⟨node.localId, t.nextHopId⟩

/-- The file has a line from `a` to `b`. A table with a free entry leads to node 0 as well. -/
def LeadsTo (lines : List MappingLine) (a b : ℕ) : Prop :=
  (∃ l ∈ lines, l.localId = a ∧ l.nextHopId = b) ∨
    (b = 0 ∧ (ownLines a lines).length < maxDeviceNum)

lemma leadsTo_iff {node : NodeConf} {t : MappingTables} {lines : List MappingLine}
    (ht : t.Lists node (ownLines node.localId lines))
    (hfit : (ownLines node.localId lines).length ≤ maxDeviceNum) (b : ℕ) :
    (∃ i < maxDeviceNum, t.nextHopId i = b) ↔ LeadsTo lines node.localId b := by
  constructor
  · rintro ⟨i, hi, rfl⟩
    rcases Nat.lt_or_ge i (ownLines node.localId lines).length with hin | hout
    · have hmem := List.getElem_mem hin
      obtain ⟨hl, hown⟩ := List.mem_filter.1 hmem
      have hentry := ht.entry i _ (List.getElem?_eq_getElem hin)
      exact Or.inl ⟨_, hl, of_decide_eq_true hown, hentry.nextHopId.symm⟩
    · exact Or.inr ⟨(ht.empty i hout).1, hout.trans_lt hi⟩
  · rintro (⟨l, hl, hown, rfl⟩ | ⟨rfl, hfree⟩)
    · have hmem : l ∈ ownLines node.localId lines := by
        rw [ownLines, List.mem_filter, decide_eq_true_eq]
        exact ⟨hl, hown⟩
      obtain ⟨i, hi, rfl⟩ := List.getElem_of_mem hmem
      exact ⟨i, hi.trans_le hfit, (ht.entry i _ (List.getElem?_eq_getElem hi)).nextHopId⟩
    · exact ⟨_, hfree, (ht.empty _ le_rfl).1⟩

/-- The lines join each node of `row` to the next, and the last to itself. -/
structure Joins (lines : List MappingLine) (row : List ℕ) : Prop where
  onward : ∀ k a b, row[k]? = some a → row[k + 1]? = some b → a ≠ b ∧ LeadsTo lines a b
  own : ∀ a, row.getLast? = some a → LeadsTo lines a a

/-- Nodes that read the same `mapping_tbl.conf` have each its own lines of it, in their order: next
hop, port, type and address of each ring, nothing of the others'. Together they are linked along
exactly the routes that the lines of the file join. -/
theorem mapping_table_joins_nodes (shape : MappingShape) {heading body : List UInt8}
    {lines : List MappingLine} (hfile : MappingFile heading body lines) (node : ℕ → NodeConf)
    (hnode : ∀ n, (node n).localId = n) (hrows : maxDeviceNum ≤ shape.rows)
    (hrings : ∀ n, (ownLines n lines).length ≤ maxDeviceNum) :
    ∃ t : ℕ → MappingTables,
      (∀ n, readMappingTblConfig shape (node n) (heading ++ newline :: body) = some (t n) ∧
        (t n).Lists (node n) (ownLines n lines)) ∧
      ∀ row, Linked (fun n => (t n).hopConf (node n)) row ↔ Joins lines row := by
  have hread (n : ℕ) : ∃ t, readMappingTblConfig shape (node n) (heading ++ newline :: body) =
      some t ∧ t.Lists (node n) (ownLines n lines) := by
    have hone := @readMappingTblConfig_written shape (node n) heading body lines hfile
    rw [hnode n] at hone
    exact hone ⟨(hrings n).trans hrows, (hrings n).trans_lt (by decide)⟩
  choose t ht using hread
  refine ⟨t, ht, fun row => ?_⟩
  have hring (a b : ℕ) : (∃ i < maxDeviceNum, (t a).nextHopId i = b) ↔ LeadsTo lines a b := by
    have hone := @leadsTo_iff (node a) (t a) lines
    rw [hnode a] at hone
    exact hone (ht a).2 (hrings a) b
  constructor
  · intro h
    refine ⟨fun k a b ha hb => ?_, fun a ha => (hring a a).1 (h.own a ha)⟩
    obtain ⟨hne, hi⟩ := h.onward k a b ha hb
    exact ⟨hne, (hring a b).1 hi⟩
  · intro h
    refine ⟨fun n _ => hnode n, fun k a b ha hb => ?_, fun a ha => (hring a a).2 (h.own a ha)⟩
    obtain ⟨hne, hleads⟩ := h.onward k a b ha hb
    exact ⟨hne, (hring a b).2 hleads⟩

def commas : List (List UInt8) → List UInt8
  | [] => []
  | [p] => p
  | p :: ps => p ++ 44 :: commas ps

lemma fields_commas {p : List UInt8} {ps : List (List UInt8)}
    (h : (p :: ps).all (fun p => p.all fun c => !isDelim c) = true) :
    Fields isDelim (p :: ps) (commas (p :: ps)) := by
  induction ps generalizing p with
  | nil =>
    apply Fields.one
    simpa using h
  | cons q ps ih =>
    rw [List.all_cons, Bool.and_eq_true] at h
    exact .more (by simpa using h.1) rfl (ih h.2)

/-- A line from `a` to `b` for forward data, with the address of all stations. -/
def digitLine (a b : UInt8) : List UInt8 :=
  commas ([[a], [b], [101], [48, 120, 57], [102, 119, 100, 95, 98, 98]] ++ List.replicate 6 [102, 102])

def digitMapping (a b : UInt8) : MappingLine :=
  ⟨a.toNat - 48, b.toNat - 48, [101], 9, [102, 119, 100, 95, 98, 98], List.replicate 6 255⟩

lemma numeral_digit {a : UInt8} (ha : isDigit a = true) : Numeral [a] (a.toNat - 48) :=
  ⟨List.cons_ne_nil _ _, List.forall_mem_singleton.2 ha, by simp [digitsValue]⟩

lemma ne_of_isDigit {a : UInt8} (ha : isDigit a = true) : a ≠ 0 ∧ a ≠ newline := by
  constructor
  · rintro rfl
    cases ha
  · rintro rfl
    cases ha

lemma digitMapping_writtenAs {a b : UInt8} (ha : isDigit a = true) (hb : isDigit b = true) :
    (digitMapping a b).WrittenAs (digitLine a b) := by
  have hbyte : HexByte 255 [102, 102] := ⟨102, 102, 15, 15, rfl, rfl, rfl, by decide, rfl⟩
  have hmacs : List.Forall₂ HexByte (List.replicate 6 255) (List.replicate 6 [102, 102]) :=
    .cons hbyte (.cons hbyte (.cons hbyte (.cons hbyte (.cons hbyte (.cons hbyte .nil)))))
  have hhex : HexNumeral [48, 120, 57] 9 :=
    ⟨57, [], rfl, List.forall_mem_singleton.2 rfl, rfl⟩
  have hlt {c : UInt8} : c.toNat - 48 < 65536 :=
    (Nat.sub_le _ _).trans_lt (c.toNat_lt.trans (by decide))
  have hprotocol : 9 < 65536 := by norm_num
  refine ⟨hlt, hlt, hprotocol, ⟨enumFwdTxFwdData, rfl⟩, rfl, ?_, ?_⟩
  · refine ⟨[a], [b], [48, 120, 57], List.replicate 6 [102, 102], numeral_digit ha,
      numeral_digit hb, hhex, hmacs, fields_commas ?_⟩
    simp only [List.all_cons, List.all_nil, isDelim_of_isDigit a ha, isDelim_of_isDigit b hb]
    rfl
  · have hne : a ≠ 0 ∧ a ≠ 10 := ne_of_isDigit ha
    have hne' : b ≠ 0 ∧ b ≠ 10 := ne_of_isDigit hb
    simp [digitLine, commas, hne, hne', newline]

def eightRings : MappingShape where
  rows := 8
  nextHopId := eightRows.element
  protocolType := eightRows.element
  nextHopId_natCast := eightRows.element_natCast
  protocolType_natCast := eightRows.element_natCast

/-- One interface, of the name `e`. -/
def oneInterface (n : ℕ) : NodeConf := ⟨n, [[101]], fun _ => List.replicate 6 0⟩

/-- A heading of one character, a line from 7 to 9, and one from 9 to itself. -/
theorem mapping_table_joins_nodes_two :
    ∃ t : ℕ → MappingTables,
      (∀ n, readMappingTblConfig eightRings (oneInterface n)
        ([35] ++ newline :: (digitLine 55 57 ++ newline :: digitLine 57 57)) = some (t n)) ∧
      (t 7).dstMac 0 = List.replicate 6 255 ∧
      Linked (fun n => (t n).hopConf (oneInterface n)) [7, 9] := by
  have hthere := @digitMapping_writtenAs 55 57 rfl rfl
  have hown := @digitMapping_writtenAs 57 57 rfl rfl
  have hfile : MappingFile [35] (digitLine 55 57 ++ newline :: digitLine 57 57)
      [digitMapping 55 57, digitMapping 57 57] :=
    ⟨by decide, by decide, .line hthere (by decide) (.last hown (by decide))⟩
  obtain ⟨t, ht, hlinked⟩ := mapping_table_joins_nodes eightRings hfile oneInterface
    (fun _ => rfl) le_rfl fun n => (List.length_filter_le _ _).trans (by decide)
  refine ⟨t, fun n => (ht n).1, ?_, (hlinked [7, 9]).2 ⟨?_, ?_⟩⟩
  · exact ((ht 7).2.entry 0 (digitMapping 55 57) rfl).dstMac
  · intro k a b ha hb
    rcases k with _ | k
    · obtain rfl : 7 = a := by simpa using ha
      obtain rfl : 9 = b := by simpa using hb
      exact ⟨by decide, Or.inl ⟨digitMapping 55 57, List.mem_cons_self, rfl, rfl⟩⟩
    · simp at hb
  · intro a ha
    obtain rfl : 9 = a := by simpa using ha
    exact Or.inl ⟨digitMapping 57 57, by simp, rfl, rfl⟩

end Fengtai.Config
