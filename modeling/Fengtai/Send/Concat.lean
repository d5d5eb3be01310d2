import Fengtai.Receive.Packet
import Fengtai.Send.Lengths
import Fengtai.Send.Packets

set_option autoImplicit false

/-! Several PDUs in one GSE packet: what `update_pdu_group` counts, what `write_codeblock`
copies and what `get_concat_pdu` reads. -/

namespace Fengtai.Receive

open Library.Words

namespace ConcatRead

structure From (mem : Memory) (start : ℕ) (c : ConcatRead) : Prop where
  position : c.position = start + (c.pdus.map fun pdu => pdu.length + 2).sum
  last : ∀ pdu b, c.pdus.getLast? = some pdu → pdu.getLast? = some b → mem (c.position - 1) = b

lemma from_start (mem : Memory) (start : ℕ) : From mem start ⟨start, 0, [], []⟩ :=
  ⟨by simp, by simp⟩

lemma From.turn {mem : Memory} {start : ℕ} {c : ConcatRead} (h : From mem start c) :
    From mem start (c.turn mem) := by
  refine ⟨?_, ?_⟩
  · simp only [ConcatRead.turn, h.position, List.map_append, List.map_singleton, List.sum_append,
      List.sum_singleton, window_length]
    omega
  · intro pdu b hpdu hb
    simp only [ConcatRead.turn, List.getLast?_concat, Option.some.injEq] at hpdu
    subst hpdu
    cases hn : load16 mem c.position with
    | zero => simp [hn] at hb
    | succ n =>
      rw [hn, window_add, List.getLast?_append] at hb
      have hlast : mem (c.position + 2 + n) = b := by simpa [window] using hb
      rw [← hlast]
      simp only [ConcatRead.turn, hn]
      congr 1

lemma From.run {mem : Memory} {start datafieldLength k : ℕ} {c c' : ConcatRead}
    (h : From mem start c) (hrun : ConcatRead.run mem datafieldLength k c = some c') : From mem start c' := by
  induction k generalizing c with
  | zero => simp [ConcatRead.run] at hrun
  | succ k ih =>
    simp only [ConcatRead.run] at hrun
    split_ifs at hrun
    · exact ih h.turn hrun
    · obtain rfl := Option.some.inj hrun
      exact h

end ConcatRead

namespace ExtWalk

lemma regularExtHeaderType_iff (t : ℕ) :
    regularExtHeaderType t = true ↔ t = pduConcat ∨ t = timeStemp ∨ t = fragSequence := by
  simp [regularExtHeaderType]

lemma getExtensionHeaderInfo_regular (mem : Memory) (p : ℕ) {t : ℕ}
    (ht : regularExtHeaderType t = true) (next : ℕ) :
    ∃ n ≤ 4, (getExtensionHeaderInfo mem p t next).1 = n + 2 ∧
      ((getExtensionHeaderInfo mem p t next).2 = load16 mem (p + n) ∨
        (getExtensionHeaderInfo mem p t next).2 = bswap16 (load16 mem (p + n))) := by
  rcases (regularExtHeaderType_iff t).mp ht with rfl | rfl | rfl
  · exact ⟨0, by norm_num, rfl, .inl rfl⟩
  · exact ⟨4, le_rfl, rfl, .inr rfl⟩
  · exact ⟨2, by norm_num, rfl, .inr rfl⟩

lemma turn_pduConcat (mem : Memory) (pGSE : ℕ) {w : ExtWalk} (h : w.nextType = pduConcat) :
    (w.turn mem pGSE).offset = u16 (w.offset + 2) := by
  simp [ExtWalk.turn, h, getExtensionHeaderInfo, pduConcat]

/-- From `size` on the memory repeats a byte that makes no regular type. -/
structure Ends (mem : Memory) (size : ℕ) : Prop where
  size_le : size ≤ 5000
  stops : ∀ i, size ≤ i → regularExtHeaderType (load16 mem i) = false ∧
    regularExtHeaderType (bswap16 (load16 mem i)) = false

structure Within (low size : ℕ) (w : ExtWalk) : Prop where
  low_le : low ≤ w.offset
  le_size : w.offset ≤ size + 7
  regular : regularExtHeaderType w.nextType = true → w.offset ≤ size + 1

lemma Within.turn {mem : Memory} {low size : ℕ} (he : Ends mem size) {w : ExtWalk}
    (h : Within low size w) (hreg : regularExtHeaderType w.nextType = true) :
    Within low size (w.turn mem 0) := by
  obtain ⟨n, hn, hsize, hnext⟩ := getExtensionHeaderInfo_regular mem (0 + w.offset) hreg w.nextType
  have hle := h.regular hreg
  have hlow := h.low_le
  have hbound := he.size_le
  have hoff : (w.turn mem 0).offset = w.offset + (n + 2) := by
    simp only [ExtWalk.turn, hsize]
    exact u16_of_lt (by omega)
  refine ⟨by omega, by omega, fun hreg' => ?_⟩
  by_contra hfar
  have hstop := he.stops (0 + w.offset + n) (by omega)
  rcases hnext with hnext | hnext
  · have hnext' : (w.turn mem 0).nextType = load16 mem (0 + w.offset + n) := hnext
    rw [hnext', hstop.1] at hreg'
    exact Bool.noConfusion hreg'
  · have hnext' : (w.turn mem 0).nextType = bswap16 (load16 mem (0 + w.offset + n)) := hnext
    rw [hnext', hstop.2] at hreg'
    exact Bool.noConfusion hreg'

lemma Within.run {mem : Memory} {low size k : ℕ} (he : Ends mem size) {w w' : ExtWalk}
    (h : Within low size w) (hrun : ExtWalk.run mem 0 k w = some w') : low ≤ w'.offset := by
  induction k generalizing w with
  | zero => simp [ExtWalk.run] at hrun
  | succ k ih =>
    simp only [ExtWalk.run] at hrun
    split_ifs at hrun with hreg
    · exact ih (h.turn he hreg) hrun
    · obtain rfl := Option.some.inj hrun
      exact h.low_le

end ExtWalk

end Fengtai.Receive

namespace Fengtai.Send

open Library.Words Receive

/-- Calls of `update_pdu_group` one after the other, each with its label. -/
def PduGroup.addAll (items : List (EnPduNode × LabelType × ℕ)) (r : PduGroup × SequenceCounters) :
    PduGroup × SequenceCounters :=
  items.foldl (fun r x => updatePduGroup x.1 r.1 x.2.1 x.2.2 r.2) r

/-- A group of whole PDUs. The second one brings the header of a concatenation. -/
structure PduGroup.Joined (nodes : List EnPduNode) (g : PduGroup) : Prop where
  num : g.pduNum = nodes.length
  flag : g.fragmentFlag = false
  pdus : ∀ (i : ℕ) (hi : i < nodes.length),
    g.onePdu i = ⟨nodes[i].pduSize, nodes[i].pPduStart, nodes[i].mbufAddress⟩
  opt : g.optExtHeaderInfo = []
  man : g.manExtHeaderInfo =
    if nodes.length < 2 then [] else [⟨bswap16 pduConcat, 2, bswap16 g.protocolType⟩]
  total : nodes ≠ [] → g.gseTotalLength ≤ 13 + g.calcDatafieldLength

lemma PduGroup.joined_zero : PduGroup.zero.Joined [] :=
  ⟨rfl, rfl, by simp, rfl, rfl, by simp⟩

namespace PduGroup.Joined

variable {nodes : List EnPduNode} {g : PduGroup}

lemma addToPduGroup (h : g.Joined nodes) {node : EnPduNode} (hnode : node.fragmentFlag = false)
    (hlt : nodes.length < pduMaxNum) (label : LabelType) (size : ℕ) :
    let g' := Send.addToPduGroup node g label size
    g'.pduNum = nodes.length + 1 ∧ g'.fragmentFlag = false ∧
      g'.onePdu = Function.update g.onePdu nodes.length
        ⟨node.pduSize, node.pPduStart, node.mbufAddress⟩ ∧
      g'.optExtHeaderInfo = [] ∧ g'.manExtHeaderInfo = g.manExtHeaderInfo ∧
      (nodes ≠ [] → g'.protocolType = g.protocolType) := by
  have hmax : nodes.length < 180 := hlt
  have hnum : u16 (g.pduNum + 1) = nodes.length + 1 := by
    rw [h.num]
    exact u16_of_lt (by omega)
  have hle : nodes.length + 1 ≤ pduMaxNum := hlt
  have hempty : nodes.length + 1 = 1 → nodes = [] := fun h1 =>
    List.length_eq_zero_iff.mp (Nat.succ_injective h1)
  simp only [Send.addToPduGroup, hnum, if_pos hle]
  split_ifs with h1 h2 h3
  · simp [PduGroup.addFirst, hnode, h.opt, addOptExtensionHeader, addManExtensionHeader, hempty h1]
  · simp [hnode, h.opt]
  · simp [hnode, h.opt]
  · omega

lemma add (h : g.Joined nodes) {node : EnPduNode} (hnode : node.fragmentFlag = false)
    (hlt : nodes.length < pduMaxNum) (label : LabelType) (size : ℕ) (c : SequenceCounters) :
    (updatePduGroup node g label size c).1.Joined (nodes ++ [node]) := by
  obtain ⟨hnum, hflag, hpdus, hopt, hman, htype⟩ := h.addToPduGroup hnode hlt label size
  have hhead : ∀ t : EncapsulationType, ∀ d,
      (calcGseVariableHeaderSize t node.fragmentType label d).total ≤ 11 := by
    intro t d
    have hlabel := label.size_le
    simp only [calcGseVariableHeaderSize, GseVariableHeaderSize.total]
    split_ifs <;> omega
  simp only [updatePduGroup, hnode, Bool.false_eq_true, if_false]
  generalize Send.addToPduGroup node g label size = g' at hnum hflag hpdus hopt hman htype ⊢
  have hadded : ∀ (i : ℕ) (hi : i < (nodes ++ [node]).length), g'.onePdu i =
      ⟨(nodes ++ [node])[i].pduSize, (nodes ++ [node])[i].pPduStart,
        (nodes ++ [node])[i].mbufAddress⟩ := by
    intro i hi
    rw [hpdus]
    by_cases hlast : i = nodes.length
    · subst hlast
      simp
    · have hi' : i < nodes.length := by
        simp only [List.length_append, List.length_singleton] at hi
        omega
      rw [Function.update_of_ne hlast, h.pdus i hi', List.getElem_append_left hi']
  have hlength : (nodes ++ [node]).length = nodes.length + 1 := by simp
  have htotal : ∀ (t : EncapsulationType) (d : ℕ), u16 (sizeofGseFixedHeader +
      calcGseLength (calcGseVariableHeaderSize t node.fragmentType label d) d) ≤ 13 + d := by
    intro t d
    have hle := hhead t d
    have h16 : ∀ x, u16 x ≤ x := fun x => Nat.mod_le _ _
    have hlen := h16 ((calcGseVariableHeaderSize t node.fragmentType label d).total + d)
    have hall := h16 (sizeofGseFixedHeader +
      calcGseLength (calcGseVariableHeaderSize t node.fragmentType label d) d)
    simp only [calcGseLength, sizeofGseFixedHeader] at hall ⊢
    omega
  by_cases h2 : g'.pduNum = 2
  · have hone : nodes.length = 1 := by omega
    have hne : nodes ≠ [] := by
      rintro rfl
      simp at hone
    have hnil : g'.manExtHeaderInfo = [] := by
      rw [hman, h.man, if_pos (by omega)]
    simp only [if_pos h2]
    refine ⟨hnum.trans hlength.symm, hflag, hadded, hopt, ?_, fun _ => htotal _ _⟩
    rw [if_neg (by omega), hnil]
    rfl
  · simp only [if_neg h2]
    refine ⟨hnum.trans hlength.symm, hflag, hadded, hopt, ?_, fun _ => htotal _ _⟩
    rw [hman, h.man]
    by_cases h0 : nodes.length = 0
    · rw [if_pos (by omega), if_pos (by omega)]
    · have hne : nodes ≠ [] := by
        rintro rfl
        simp at h0
      rw [if_neg (by omega), if_neg (by omega), htype hne]

lemma map_range {α : Type*} (h : g.Joined nodes) (f : OnePdu → α) :
    (List.range g.pduNum).map (fun i => f (g.onePdu i)) =
      nodes.map fun n => f ⟨n.pduSize, n.pPduStart, n.mbufAddress⟩ := by
  apply List.ext_getElem
  · simp [h.num]
  · intro i h1 h2
    simp only [List.length_map] at h2
    simp [h.pdus i h2]

lemma prefixed_sum (nodes : List EnPduNode) : (nodes.map fun n => n.pduSize + 2).sum =
    (nodes.map EnPduNode.pduSize).sum + 2 * nodes.length := by
  induction nodes with
  | nil => rfl
  | cons n nodes ih =>
    simp only [List.map_cons, List.sum_cons, List.length_cons, ih]
    omega

lemma datafield (h : g.Joined nodes) (h2 : 2 ≤ nodes.length) (hmax : nodes.length ≤ pduMaxNum) :
    g.calcDatafieldLength = u16 ((nodes.map EnPduNode.pduSize).sum + 2 * nodes.length + 2) := by
  have hne : ¬ g.pduNum = 1 := by
    rw [h.num]
    omega
  have hpdus := h.map_range fun p => p.pduSize + 2
  simp only [PduGroup.calcDatafieldLength, if_neg hne, if_pos (h.num.trans_le hmax), hpdus, prefixed_sum,
    h.opt, h.man, if_neg (not_lt.mpr h2)]
  simp [extHeaderMaxNum]

lemma packet_bytes (h : g.Joined nodes) (h2 : 2 ≤ nodes.length) {bytes : List UInt8}
    (hb : g.packet.bytes = some bytes) :
    g.calcDatafieldLength ≤ g.fixedHeader.gseLength ∧
      bytes = be16 g.fixedHeader.word ++
        (packageGseVariableHeader g.headerSizes g).take
          (g.fixedHeader.gseLength - g.calcDatafieldLength) ++
        be16 g.protocolType ++ (nodes.map EnPduNode.data).flatten := by
  have hdata : g.packet.pduBytes = (nodes.map EnPduNode.data).flatten := by
    have hpdus := h.map_range fun p => p.pStart.read p.pduSize
    simp only [OneGse.pduBytes, PduGroup.packet, h.flag, Bool.false_eq_true, false_and, if_false,
      List.append_nil, List.flatMap, hpdus]
    rfl
  have hman : g.packet.manExtHeaderInfo = [⟨bswap16 pduConcat, 2, bswap16 g.protocolType⟩] := by
    change g.manExtHeaderInfo = _
    rw [h.man, if_neg (not_lt.mpr h2)]
  have hopt : g.packet.optExtHeaderInfo = [] := by
    simp only [PduGroup.packet, h.man, if_neg (not_lt.mpr h2), h.opt]
    rfl
  simp only [OneGse.bytes, hdata, hman, hopt, manExtBytes, Option.map_eq_some_iff] at hb
  obtain ⟨header, hheader, rfl⟩ := hb
  rw [g.packet_gseHeader] at hheader
  split_ifs at hheader with hle
  obtain rfl := Option.some.inj hheader
  refine ⟨hle, ?_⟩
  simp

end PduGroup.Joined

lemma PduGroup.joined_addAll {items : List (EnPduNode × LabelType × ℕ)}
    (hmax : items.length ≤ pduMaxNum) (hwhole : ∀ x ∈ items, x.1.fragmentFlag = false)
    (c : SequenceCounters) :
    (PduGroup.addAll items (.zero, c)).1.Joined (items.map Prod.fst) := by
  induction items using List.reverseRecOn with
  | nil => exact joined_zero
  | append_singleton items x ih =>
    simp only [List.length_append, List.length_singleton] at hmax
    have hitems := ih (by omega) fun y hy => hwhole y (by simp [hy])
    rw [addAll, List.foldl_append, List.map_append]
    exact hitems.add (hwhole x (by simp)) (by simpa using hmax) _ _ _

/-- What a group of concatenated PDUs is to be: its packet has the length the group counts, and
is read back whatever stands behind it. -/
def RoundTrips (g : PduGroup) (pdus : List (List UInt8)) : Prop :=
  ∃ bytes, g.packet.bytes = some bytes ∧ bytes.length = g.gseTotalLength ∧
    ∀ mem pGSE, Holds mem pGSE bytes → readConcat mem pGSE = some (pdus, g.protocolType)

namespace PduGroup.Joined

variable {nodes : List EnPduNode} {g : PduGroup}

lemma headers (h : g.Joined nodes) (h2 : 2 ≤ nodes.length) (hpos : 0 < g.calcDatafieldLength) :
    g.headerSizes = ⟨0, 0, 2, g.labelType.size⟩ ∧ g.fixedHeader.startIndicator = true ∧
      g.fixedHeader.endIndicator = true ∧ g.fixedHeader.labelType = g.labelType ∧
      g.fixedHeader.gseLength = calcGseLength g.headerSizes g.calcDatafieldLength % 4096 := by
  have htype : getEncapsulationType g.pduNum g.fragmentFlag = .concat := by
    rw [h.num, h.flag, getEncapsulationType, if_neg (by omega), if_pos (by omega)]
    rfl
  simp [PduGroup.headerSizes, PduGroup.fixedHeader, packageGseFixedHeader, htype,
    calcGseVariableHeaderSize, hpos]

lemma decapsulateGseHeader_eq (h : g.Joined nodes) (h2 : 2 ≤ nodes.length)
    (hpos : 0 < g.calcDatafieldLength) {mem : Memory}
    (hmem : Holds mem 0 (be16 g.fixedHeader.word ++ be16 pduConcat)) :
    (decapsulateGseHeader mem 0).1 = g.fixedHeader ∧
      (decapsulateGseHeader mem 0).2.size = g.headerSizes ∧
      (decapsulateGseHeader mem 0).2.protocolType = pduConcat := by
  obtain ⟨hsizes, hs, he, hlabel, hgse⟩ := h.headers h2 hpos
  obtain ⟨hword, htype⟩ := (holds_append _ _ _ _).mp hmem
  have hlt : g.fixedHeader.gseLength < 4096 := by
    rw [hgse]
    exact Nat.mod_lt _ (by norm_num)
  have hfixed : GseFixedHeader.ofWord (bswap16 (load16 mem 0)) = g.fixedHeader := by
    rw [load16_be16 hword, u16_of_lt g.fixedHeader.word_lt, GseFixedHeader.ofWord_word hlt]
  have hvar : GseFixedHeader.variableSize g.fixedHeader = g.headerSizes := by
    simp [GseFixedHeader.variableSize, hs, he, hlabel, hsizes]
  have hnext : bswap16 (load16 mem 2) = pduConcat := load16_be16 htype
  refine ⟨hfixed, ?_, ?_⟩
  · simp only [decapsulateGseHeader, hfixed, hvar]
  · simp only [decapsulateGseHeader, hfixed, hvar, hsizes]
    exact hnext

lemma walk_low (h : g.Joined nodes) (h2 : 2 ≤ nodes.length) (hpos : 0 < g.calcDatafieldLength)
    {mem : Memory} (hmem : Holds mem 0 (be16 g.fixedHeader.word ++ be16 pduConcat)) {size : ℕ}
    (hsize : 4 + g.headerSizes.total ≤ size + 1) (he : ExtWalk.Ends mem size) {t : ℕ} {w : ExtWalk}
    (hwalk : walkExtHeaders mem 0 (decapsulateGseHeader mem 0).2 t = some w) :
    4 + g.headerSizes.total ≤ w.offset := by
  obtain ⟨-, hv, hnext⟩ := h.decapsulateGseHeader_eq h2 hpos hmem
  have hle := he.size_le
  rw [walkExtHeaders, hv, hnext] at hwalk
  generalize hw : ExtWalk.mk (sizeofGseFixedHeader + g.headerSizes.total) 0 pduConcat 0 t [] = first
    at hwalk
  have htype : first.nextType = pduConcat := by rw [← hw]
  have hoff : (first.turn mem 0).offset = 4 + g.headerSizes.total := by
    rw [ExtWalk.turn_pduConcat mem 0 htype, ← hw]
    simp only [sizeofGseFixedHeader]
    rw [u16_of_lt (by omega)]
    omega
  have hreg : regularExtHeaderType first.nextType = true := by rw [htype]; decide
  rw [show extWalkTurns = 32767 + 1 from rfl, ExtWalk.run, if_pos hreg] at hwalk
  exact ExtWalk.Within.run he ⟨hoff.ge, hoff.trans_le (by omega), fun _ => hoff.trans_le hsize⟩ hwalk

end PduGroup.Joined

def goesOn (bytes : List UInt8) (b : UInt8) : Memory :=
  overwrite (fun _ => if b = 0 then 1 else 0) bytes

lemma goesOn_beyond {bytes : List UInt8} (b : UInt8) {i : ℕ} (h : bytes.length ≤ i) :
    goesOn bytes b i = if b = 0 then 1 else 0 := by
  simp [goesOn, overwrite, List.getD_eq_getElem?_getD, h]

lemma goesOn_ends {bytes : List UInt8} (b : UInt8) {size : ℕ} (h : bytes.length ≤ size)
    (hsize : size ≤ 5000) : ExtWalk.Ends (goesOn bytes b) size := by
  refine ⟨hsize, fun i hi => ?_⟩
  have hnext : goesOn bytes b (i + 1) = if b = 0 then 1 else 0 := goesOn_beyond b (by omega)
  rw [load16, goesOn_beyond b (h.trans hi), hnext]
  split_ifs <;> decide

lemma goesOn_ne {bytes : List UInt8} (b : UInt8) {i : ℕ} (h : bytes.length ≤ i) :
    goesOn bytes b i ≠ b := by
  rw [goesOn_beyond b h]
  split_ifs with h0
  · rw [h0]
    decide
  · exact Ne.symm h0

namespace PduGroup.Joined

variable {nodes : List EnPduNode} {g : PduGroup}

lemma data_length (nodes : List EnPduNode) :
    (nodes.map EnPduNode.data).flatten.length = (nodes.map EnPduNode.pduSize).sum := by
  induction nodes with
  | nil => rfl
  | cons n nodes ih => simp [ih]

lemma packet_layout (h : g.Joined nodes) (h2 : 2 ≤ nodes.length) (hmax : nodes.length ≤ pduMaxNum)
    (hlen : calcGseLength g.headerSizes g.calcDatafieldLength ≤ gseMaxSize) {bytes : List UInt8}
    (hb : g.packet.bytes = some bytes) (htotal : bytes.length = g.gseTotalLength) :
    0 < g.calcDatafieldLength ∧ (nodes.map EnPduNode.pduSize).sum ≤ 4095 ∧
      bytes = be16 g.fixedHeader.word ++ be16 pduConcat ++ g.macAddress.take g.labelType.size ++
        be16 g.protocolType ++ (nodes.map EnPduNode.data).flatten := by
  obtain ⟨hle, hbytes⟩ := h.packet_bytes h2 hb
  have hd := h.datafield h2 hmax
  have hne : nodes ≠ [] := by
    rintro rfl
    simp at h2
  have hsum : (nodes.map EnPduNode.pduSize).sum ≤ bytes.length := by
    rw [hbytes, List.length_append, data_length]
    omega
  have hsmall : (nodes.map EnPduNode.pduSize).sum + 2 * nodes.length + 2 < 65536 := by
    have hcounted := h.total hne
    simp only [pduMaxNum] at hmax
    by_contra hbig
    rw [hd, u16] at hcounted
    omega
  rw [u16_of_lt hsmall] at hd
  have hpos : 0 < g.calcDatafieldLength := by omega
  obtain ⟨hsizes, -, -, -, hgse⟩ := h.headers h2 hpos
  have hlabel := g.labelType.size_le
  have hv : g.headerSizes.total = 2 + g.labelType.size := by
    rw [hsizes]
    simp [GseVariableHeaderSize.total]
  have hgl : g.fixedHeader.gseLength = g.headerSizes.total + g.calcDatafieldLength := by
    rw [hgse] at hle ⊢
    simp only [calcGseLength, u16, gseMaxSize] at hlen hle ⊢
    omega
  have hvar : packageGseVariableHeader g.headerSizes g =
      be16 pduConcat ++ g.macAddress.take g.labelType.size := by
    simp [packageGseVariableHeader, hsizes, PduGroup.typeField, h.opt, h.man, not_lt.mpr h2]
  refine ⟨hpos, ?_, ?_⟩
  · rw [hgse] at hgl
    have hlt := Nat.mod_lt (calcGseLength g.headerSizes g.calcDatafieldLength)
      (show 0 < 4096 by norm_num)
    omega
  · rw [hbytes, hvar, hgl, Nat.add_sub_cancel, hv, List.take_of_length_le]
    · simp
    · simp

lemma not_roundTrips (h : g.Joined nodes) (h2 : 2 ≤ nodes.length) (hmax : nodes.length ≤ pduMaxNum)
    (hpos : ∀ n ∈ nodes, 1 ≤ n.pduSize)
    (hlen : calcGseLength g.headerSizes g.calcDatafieldLength ≤ gseMaxSize) :
    ¬ RoundTrips g (nodes.map EnPduNode.data) := by
  rintro ⟨bytes, hb, htotal, hread⟩
  obtain ⟨hdpos, hsmall, hbytes⟩ := h.packet_layout h2 hmax hlen hb htotal
  -- the last byte of the last PDU
  obtain ⟨front, n, rfl⟩ : ∃ front n, nodes = front ++ [n] := by
    rcases List.eq_nil_or_concat nodes with rfl | ⟨front, n, rfl⟩
    · simp at h2
    · exact ⟨front, n, by simp⟩
  obtain ⟨b, hlast⟩ : ∃ b, n.data.getLast? = some b := by
    rw [← Option.isSome_iff_exists, List.getLast?_isSome, ← List.length_pos_iff,
      EnPduNode.data_length]
    exact hpos n (by simp)
  have hlength := congrArg List.length hbytes
  have hlabel := g.labelType.size_le
  simp only [List.length_append, be16_length, data_length, List.length_take] at hlength
  obtain ⟨hsizes, -⟩ := h.headers h2 hdpos
  have hv : g.headerSizes.total = 2 + g.labelType.size := by
    rw [hsizes]
    simp [GseVariableHeaderSize.total]
  have hread := hread (goesOn bytes b) 0 (holds_overwrite _ _)
  have hmem : Holds (goesOn bytes b) 0 (be16 g.fixedHeader.word ++ be16 pduConcat) := by
    have hall : Holds (goesOn bytes b) 0 bytes := holds_overwrite _ _
    nth_rewrite 2 [hbytes] at hall
    simp only [List.append_assoc] at hall
    rw [← List.append_assoc] at hall
    exact ((holds_append _ _ _ _).mp hall).1
  have hends : ExtWalk.Ends (goesOn bytes b) (bytes.length + 20) :=
    goesOn_ends b (by omega) (by omega)
  simp only [readConcat] at hread
  cases hwalk : walkExtHeaders (goesOn bytes b) 0 (decapsulateGseHeader (goesOn bytes b) 0).2 0 with
  | none => simp [hwalk] at hread
  | some w =>
    have hlow := h.walk_low h2 hdpos hmem (by omega) hends hwalk
    simp only [hwalk] at hread
    split_ifs at hread
    obtain ⟨c, hc, hpdus⟩ := Option.map_eq_some_iff.mp hread
    obtain ⟨hposition, hbyte⟩ := (ConcatRead.from_start _ _).run hc
    rw [(Prod.mk.inj hpdus).1] at hposition hbyte
    -- it is looked for where two bytes for each PDU stand before it
    have hprefixed : (((front ++ [n]).map EnPduNode.data).map fun pdu => pdu.length + 2).sum =
        ((front ++ [n]).map EnPduNode.pduSize).sum + 2 * (front ++ [n]).length := by
      rw [← prefixed_sum, List.map_map]
      congr 1
      apply List.map_congr_left
      intro x _
      simp
    rw [hprefixed] at hposition
    refine goesOn_ne b ?_ (hbyte n.data b (by simp) hlast)
    omega

end PduGroup.Joined

/-- `write_codeblock` never writes the prefixes, so no list of PDUs makes the round trip. -/
theorem concat_never_round_trips {items : List (EnPduNode × LabelType × ℕ)} (h2 : 2 ≤ items.length)
    (hmax : items.length ≤ pduMaxNum)
    (hwhole : ∀ x ∈ items, x.1.fragmentFlag = false ∧ 1 ≤ x.1.pduSize) (c : SequenceCounters)
    (hlen : calcGseLength (PduGroup.addAll items (.zero, c)).1.headerSizes
      (PduGroup.addAll items (.zero, c)).1.calcDatafieldLength ≤ gseMaxSize) :
    ¬ RoundTrips (PduGroup.addAll items (.zero, c)).1 (items.map fun x => x.1.data) := by
  have hjoined := PduGroup.joined_addAll hmax (fun x hx => (hwhole x hx).1) c
  have hdata : (items.map fun x => x.1.data) = (items.map Prod.fst).map EnPduNode.data := by
    rw [List.map_map]
    rfl
  rw [hdata]
  refine hjoined.not_roundTrips (by simpa using h2) (by simpa using hmax) ?_ hlen
  intro n hn
  obtain ⟨x, hx, rfl⟩ := List.mem_map.mp hn
  exact (hwhole x hx).2

def tenTwice : List (EnPduNode × LabelType × ℕ) :=
  List.replicate 2 ({ zeroPdu 10 with protocoltype := 0x0800 }, .broadcast, 0)

theorem concat_never_round_trips_ten :
    ¬ RoundTrips (PduGroup.addAll tenTwice (.zero, .initial)).1 (List.replicate 2 (zeroPdu 10).data) :=
  concat_never_round_trips (by decide) (by decide) (by decide) .initial (by decide)

/-- Their packet has 26 bytes, four less than the group counts. -/
theorem ten_twice_short :
    ¬ RoundTrips (PduGroup.addAll tenTwice (.zero, .initial)).1
      (tenTwice.map fun x => x.1.data) := by
  rintro ⟨bytes, hb, htotal, -⟩
  have hgroup : (PduGroup.addAll tenTwice (.zero, .initial)).1.gseTotalLength = 30 := by decide
  have hlen : (PduGroup.addAll tenTwice (.zero, .initial)).1.packet.bytes.map List.length =
      some 26 := by decide
  rw [hb, Option.map_some, Option.some.injEq] at hlen
  omega

end Fengtai.Send
