import Fengtai.Receive.Containment

set_option autoImplicit false

/-! The walk of `decapsulate_gse` along the extension headers: where it ends, and what it hands on
behind a chain of them. -/

namespace Fengtai.Receive

open Library.Words

def extHeaderSize (headerType : ℕ) : ℕ :=
  if headerType / 256 = 0 then 2 else 2 * (headerType / 256 - 1) + 2

/-- The type in the last two bytes of the extension header at `pos`: in network order, but behind
PDU_CONCAT it is taken as it lies in memory. -/
def typeBehind (mem : Memory) (pos headerType : ℕ) : ℕ :=
  if headerType = pduConcat then load16 mem pos
  else bswap16 (load16 mem (pos + (extHeaderSize headerType - 2)))

section Header

variable {mem : Memory} {headerType : ℕ}

lemma regular_cases (h : regularExtHeaderType headerType = true) :
    headerType = pduConcat ∨ headerType = timeStemp ∨ headerType = fragSequence :=
  of_decide_eq_true h

lemma extHeaderSize_bounds (h : regularExtHeaderType headerType = true) :
    2 ≤ extHeaderSize headerType ∧ extHeaderSize headerType ≤ 6 := by
  rcases regular_cases h with rfl | rfl | rfl <;> decide

lemma getExtensionHeaderInfo_size (mem : Memory) (pos : ℕ) (h : regularExtHeaderType headerType = true) :
    (getExtensionHeaderInfo mem pos headerType headerType).1 = extHeaderSize headerType := by
  rcases regular_cases h with rfl | rfl | rfl <;> rfl

lemma getExtensionHeaderInfo_type (mem : Memory) (pos : ℕ) (h : regularExtHeaderType headerType = true) :
    (getExtensionHeaderInfo mem pos headerType headerType).2 = typeBehind mem pos headerType := by
  rcases regular_cases h with rfl | rfl | rfl <;> rfl

end Header

namespace ExtWalk

variable {mem : Memory} {pGSE k : ℕ} {w w' : ExtWalk}

lemma run_stop (h : regularExtHeaderType w.nextType = false) :
    ExtWalk.run mem pGSE (k + 1) w = some w := by
  rw [ExtWalk.run, h]
  rfl

lemma run_turn (h : regularExtHeaderType w.nextType = true) :
    ExtWalk.run mem pGSE (k + 1) w = ExtWalk.run mem pGSE k (w.turn mem pGSE) := by
  rw [ExtWalk.run, h]
  rfl

lemma turn_places (mem : Memory) (pGSE : ℕ) (h : regularExtHeaderType w.nextType = true) :
    (w.turn mem pGSE).offset = u16 (w.offset + extHeaderSize w.nextType) ∧
      (w.turn mem pGSE).varHeaderSize = extHeaderSize w.nextType ∧
      (w.turn mem pGSE).reads = w.reads ++ [(pGSE + w.offset, extHeaderSize w.nextType)] ∧
      (w.turn mem pGSE).chain = w.chain + extHeaderSize w.nextType := by
  have hsize := getExtensionHeaderInfo_size mem (pGSE + w.offset) h
  have hreads : (w.turn mem pGSE).reads = w.reads ++ [(pGSE + w.offset, extHeaderSize w.nextType)] := by
    rw [← hsize]
    rfl
  refine ⟨?_, ?_, hreads, ?_⟩
  · rw [← hsize]
    rfl
  · rw [← hsize]
    rfl
  · simp [ExtWalk.chain, hreads]

lemma turn_nextType (mem : Memory) (pGSE : ℕ) (h : regularExtHeaderType w.nextType = true) :
    (w.turn mem pGSE).nextType = typeBehind mem (pGSE + w.offset) w.nextType :=
  getExtensionHeaderInfo_type mem (pGSE + w.offset) h

/-- The walk reads on from where it is; `offset` may have gone round, and `var_header_size` is
not larger than what has been read. -/
lemma run_places (hrun : ExtWalk.run mem pGSE k w = some w') :
    (∃ rs, w'.reads = w.reads ++ rs) ∧ w'.offset + w.chain ≤ w.offset + w'.chain ∧
      (w' = w ∨ w.chain + w'.varHeaderSize ≤ w'.chain) := by
  induction k generalizing w with
  | zero => cases hrun
  | succ k ih =>
    cases h : regularExtHeaderType w.nextType with
    | false =>
      rw [run_stop h] at hrun
      obtain rfl := Option.some.inj hrun
      exact ⟨⟨[], (List.append_nil _).symm⟩, le_rfl, .inl rfl⟩
    | true =>
      rw [run_turn h] at hrun
      obtain ⟨hoffset, hvar, hreads, hchain⟩ := turn_places mem pGSE h
      obtain ⟨⟨rs, hrs⟩, hle, hlast⟩ := ih hrun
      have hwrap : u16 (w.offset + extHeaderSize w.nextType) ≤ w.offset + extHeaderSize w.nextType :=
        Nat.mod_le _ _
      refine ⟨⟨(pGSE + w.offset, extHeaderSize w.nextType) :: rs, ?_⟩, by omega, .inr ?_⟩
      · rw [hrs, hreads, List.append_assoc]
        rfl
      · rcases hlast with rfl | hlast <;> omega

end ExtWalk

/-- The types, each read where the header before it ends, come to one that is not of an extension
header, and the headers on the way begin in front of `limit`. -/
inductive ChainEnds (mem : Memory) (limit : ℕ) : ℕ → ℕ → Prop
  | stop {pos headerType : ℕ} (h : regularExtHeaderType headerType = false) :
      ChainEnds mem limit pos headerType
  | header {pos headerType : ℕ} (h : regularExtHeaderType headerType = true) (hlt : pos < limit)
      (hrest : ChainEnds mem limit (pos + extHeaderSize headerType) (typeBehind mem pos headerType)) :
      ChainEnds mem limit pos headerType

section Bounded

variable {mem : Memory} {pGSE limit k : ℕ} {w w' : ExtWalk}

lemma ExtWalk.chainEnds (hrun : ExtWalk.run mem pGSE k w = some w') (hlimit : ∀ x ∈ w'.reads, x.1 < limit)
    (hexact : w'.offset + w.chain = w.offset + w'.chain) :
    ChainEnds mem limit (pGSE + w.offset) w.nextType := by
  induction k generalizing w with
  | zero => cases hrun
  | succ k ih =>
    cases h : regularExtHeaderType w.nextType with
    | false => exact .stop h
    | true =>
      rw [run_turn h] at hrun
      obtain ⟨hoffset, -, hreads, hchain⟩ := turn_places mem pGSE h
      obtain ⟨⟨rs, hrs⟩, hle, -⟩ := run_places hrun
      have hwrap : u16 (w.offset + extHeaderSize w.nextType) ≤ w.offset + extHeaderSize w.nextType :=
        Nat.mod_le _ _
      have hnext := ih hrun (by omega)
      rw [show pGSE + (w.turn mem pGSE).offset = pGSE + w.offset + extHeaderSize w.nextType by omega]
        at hnext
      rw [turn_nextType mem pGSE h] at hnext
      have hread : (pGSE + w.offset, extHeaderSize w.nextType) ∈ w'.reads := by
        rw [hrs, hreads]
        simp
      exact .header h (hlimit _ hread) hnext

lemma ChainEnds.run {pos headerType : ℕ} (h : ChainEnds mem limit pos headerType)
    (hpos : pos = pGSE + w.offset) (htype : headerType = w.nextType) (hnear : limit ≤ pGSE + 65530)
    (hfuel : limit ≤ pos + 2 * k) :
    ∃ w', ExtWalk.run mem pGSE (k + 1) w = some w' ∧
      (∃ rs, w'.reads = w.reads ++ rs ∧ ∀ x ∈ rs, x.1 < limit) ∧
      w'.offset + w.chain = w.offset + w'.chain := by
  induction h generalizing w k with
  | stop h =>
    subst htype
    exact ⟨w, ExtWalk.run_stop h, ⟨[], by simp⟩, rfl⟩
  | header h hlt _ ih =>
    subst htype hpos
    obtain ⟨hoffset, -, hreads, hchain⟩ := ExtWalk.turn_places mem pGSE h
    obtain ⟨hmin, hmax⟩ := extHeaderSize_bounds h
    have hexact : u16 (w.offset + extHeaderSize w.nextType) = w.offset + extHeaderSize w.nextType :=
      u16_of_lt (by omega)
    obtain ⟨k, rfl⟩ : ∃ n, k = n + 1 := ⟨k - 1, by omega⟩
    obtain ⟨w', hrun, ⟨rs, hrs, hbelow⟩, heq⟩ := ih (w := w.turn mem pGSE) (k := k)
      (by rw [hoffset, hexact, Nat.add_assoc]) (ExtWalk.turn_nextType mem pGSE h).symm (by omega)
    refine ⟨w', by rw [ExtWalk.run_turn h, hrun],
      ⟨(pGSE + w.offset, extHeaderSize w.nextType) :: rs, ?_, ?_⟩, by omega⟩
    · rw [hrs, hreads, List.append_assoc]
      rfl
    · exact List.forall_mem_cons.mpr ⟨hlt, hbelow⟩

end Bounded

/-- The walk along the extension headers of the packet at `pGSE` ends, looks at headers that begin
in the packet alone, and `offset` does not go round. -/
def WalkBounded (mem : Memory) (pGSE timestampSeq : ℕ) : Prop :=
  let (fixedHeader, v) := decapsulateGseHeader mem pGSE
  ∃ w, walkExtHeaders mem pGSE v timestampSeq = some w ∧
    (∀ x ∈ w.reads, x.1 < pGSE + 2 + fixedHeader.gseLength) ∧ w.offset = 2 + v.size.total + w.chain

/-- The walk has no bound of its own: the packet does not keep it, the types do. -/
theorem walkBounded_iff (mem : Memory) (pGSE timestampSeq : ℕ) :
    WalkBounded mem pGSE timestampSeq ↔
      ChainEnds mem (pGSE + 2 + (decapsulateGseHeader mem pGSE).1.gseLength)
        (pGSE + (2 + (decapsulateGseHeader mem pGSE).2.size.total))
        (decapsulateGseHeader mem pGSE).2.protocolType := by
  constructor
  · rintro ⟨w, hrun, hlimit, hexact⟩
    exact ExtWalk.chainEnds hrun hlimit hexact
  · intro h
    have hlen := GseWalk.gseLength_lt mem pGSE
    obtain ⟨w, hrun, ⟨rs, hrs, hbelow⟩, hexact⟩ := h.run (k := 32767)
      (w := ⟨2 + (decapsulateGseHeader mem pGSE).2.size.total, 0,
        (decapsulateGseHeader mem pGSE).2.protocolType, 0, timestampSeq, []⟩) rfl rfl
      (by omega) (by omega)
    rw [List.nil_append] at hrs
    exact ⟨w, hrun, hrs ▸ hbelow, hexact⟩

/-- Where all of memory says FRAG_SEQUENCE the walk never ends. -/
theorem walk_goes_round :
    ¬ WalkBounded (fun _ => 2) 0 0 ∧
      ¬ ∃ k w, ExtWalk.run (fun _ => 2) 0 k ⟨11, 0, fragSequence, 0, 0, []⟩ = some w := by
  have hendless (k : ℕ) (w : ExtWalk) (h : w.nextType = fragSequence) :
      ExtWalk.run (fun _ => 2) 0 k w = none := by
    induction k generalizing w with
    | zero => rfl
    | succ k ih =>
      rw [ExtWalk.run_turn (by rw [h]; rfl)]
      apply ih
      simp [ExtWalk.turn, h, getExtensionHeaderInfo, load16, bswap16, fragSequence]
  constructor
  · rintro ⟨w, hrun, -⟩
    rw [walkExtHeaders, hendless _ _ (by decide)] at hrun
    cases hrun
  · rintro ⟨k, w, hrun⟩
    rw [hendless k _ rfl] at hrun
    cases hrun

structure ExtHeader where
  headerType : ℕ
  data : List UInt8
  regular : regularExtHeaderType headerType = true
  length_eq : data.length + 2 = extHeaderSize headerType

namespace ExtHeader

/-- The type field in front of a chain that ends in the type `last`. -/
def firstType (last : ℕ) : List ExtHeader → ℕ
  | [] => last
  | h :: _ => h.headerType

def chainBytes (last : ℕ) : List ExtHeader → List UInt8
  | [] => []
  | h :: hs => h.data ++ be16 (firstType last hs) ++ chainBytes last hs

variable {mem : Memory} {pos last : ℕ} {hs : List ExtHeader}

lemma chainBytes_cons_length (last : ℕ) (h : ExtHeader) (hs : List ExtHeader) :
    (chainBytes last (h :: hs)).length = extHeaderSize h.headerType + (chainBytes last hs).length := by
  have hlen := h.length_eq
  simp only [chainBytes, List.length_append, be16_length]
  omega

lemma headerType_lt (h : ExtHeader) : h.headerType < 65536 := by
  rcases regular_cases h.regular with hr | hr | hr <;> rw [hr] <;> decide

lemma firstType_lt (hlast : last < 65536) : firstType last hs < 65536 := by
  cases hs with
  | nil => exact hlast
  | cons h _ => exact h.headerType_lt

lemma info (h : ExtHeader) {next : ℕ} (hnext : next < 65536) (hmem : Holds mem pos (h.data ++ be16 next)) :
    (getExtensionHeaderInfo mem pos h.headerType h.headerType).2 =
      if h.headerType = pduConcat then bswap16 next else next := by
  rw [holds_append] at hmem
  have hload := load16_be16 hmem.2
  rw [u16_of_lt hnext] at hload
  have hlen := h.length_eq
  rcases regular_cases h.regular with hr | hr | hr <;> rw [hr] at hlen ⊢
  · rw [show h.data.length = 0 by simpa [extHeaderSize, pduConcat] using hlen, Nat.add_zero] at hload
    rw [if_pos rfl, ← hload, bswap16_bswap16 (load16_lt ..)]
    rfl
  · rw [show h.data.length = 4 by simpa [extHeaderSize, timeStemp] using hlen] at hload
    rw [if_neg (by decide), ← hload]
    rfl
  · rw [show h.data.length = 2 by simpa [extHeaderSize, fragSequence] using hlen] at hload
    rw [if_neg (by decide), ← hload]
    rfl

end ExtHeader

open ExtHeader

/-- What is to be handed on of the packet at `pGSE` behind the chain `hs`: the walk has gone
through the chain alone, the data field is the rest of the packet, and its type is `last`. -/
structure Parsed.Behind (mem : Memory) (pGSE last : ℕ) (hs : List ExtHeader) (p : Parsed) : Prop where
  walked : p.ext.chain = (chainBytes last hs).length
  pointer : p.ptrDatafield = pGSE + (2 + (decapsulateGseHeader mem pGSE).2.size.total) +
    (chainBytes last hs).length
  length : p.ptrDatafield + p.datafieldLength = pGSE + 2 + (decapsulateGseHeader mem pGSE).1.gseLength
  protocolType : p.ext.nextType = last
  headerLength : ∀ now, p.fragType = some .start → (p.arrival mem now .start).headerLength =
    p.varHeader.size.protocolTypeSize + p.varHeader.size.labelSize + (chainBytes last hs).length

/-- A chain that is handed on as it should be: none, or one header, with a type behind it that a
PDU_CONCAT header does not spoil. -/
def HandedOn (last : ℕ) : List ExtHeader → Prop
  | [] => True
  | [h] => h.headerType = pduConcat → bswap16 last = last
  | _ => False

section Chain

variable {mem : Memory} {pGSE timestampSeq last : ℕ} {hs : List ExtHeader}

lemma decapsulateGseHeader_size_le (mem : Memory) (pGSE : ℕ) :
    (decapsulateGseHeader mem pGSE).2.size.total ≤ 11 := by
  have hlabel := (decapsulateGseHeader mem pGSE).1.labelType.size_le
  change 2 + (if _ then 0 else 1) + (if _ then 2 else 0) +
    (decapsulateGseHeader mem pGSE).1.labelType.size ≤ 11
  split_ifs <;> omega

def parsedOf (mem : Memory) (pGSE : ℕ) (w : ExtWalk) : Parsed where
  fixedHeader := (decapsulateGseHeader mem pGSE).1
  varHeader := (decapsulateGseHeader mem pGSE).2
  ext := w
  ptrDatafield := pGSE + w.offset
  datafieldLength := sub16 (decapsulateGseHeader mem pGSE).1.gseLength
    (u16 (w.varHeaderSize + (decapsulateGseHeader mem pGSE).2.size.total))

lemma parsePacket_eq (mem : Memory) (pGSE timestampSeq : ℕ) : parsePacket mem pGSE timestampSeq =
    (walkExtHeaders mem pGSE (decapsulateGseHeader mem pGSE).2 timestampSeq).map (parsedOf mem pGSE) :=
  rfl

lemma first_turn (w : ExtWalk) {h : ExtHeader} (htype : w.nextType = h.headerType)
    (hoffset : w.offset + 6 < 65536) (hlast : last < 65536)
    (hmem : Holds mem (pGSE + w.offset) (chainBytes last (h :: hs))) :
    (w.turn mem pGSE).offset = w.offset + extHeaderSize h.headerType ∧
      (w.turn mem pGSE).varHeaderSize = extHeaderSize h.headerType ∧
      (w.turn mem pGSE).chain = w.chain + extHeaderSize h.headerType ∧
      (w.turn mem pGSE).nextType =
        if h.headerType = pduConcat then bswap16 (firstType last hs) else firstType last hs := by
  have hregular : regularExtHeaderType w.nextType = true := by rw [htype, h.regular]
  obtain ⟨hplace, hvar, -, hchain⟩ := ExtWalk.turn_places mem pGSE hregular
  have hsize := extHeaderSize_bounds h.regular
  rw [htype] at hplace hvar hchain
  refine ⟨by rw [hplace, u16_of_lt (by omega)], hvar, hchain, ?_⟩
  rw [← h.info (firstType_lt hlast) ((holds_append ..).mp hmem).1, ← htype]
  rfl

lemma behind_of_walk {w : ExtWalk}
    (hwalk : walkExtHeaders mem pGSE (decapsulateGseHeader mem pGSE).2 timestampSeq = some w)
    (hsize : (chainBytes last hs).length ≤ 6) (hchain : w.chain = (chainBytes last hs).length)
    (hvar : w.varHeaderSize = (chainBytes last hs).length) (htype : w.nextType = last)
    (hoffset : w.offset = 2 + (decapsulateGseHeader mem pGSE).2.size.total + (chainBytes last hs).length)
    (hinside : (decapsulateGseHeader mem pGSE).2.size.total + (chainBytes last hs).length ≤
      (decapsulateGseHeader mem pGSE).1.gseLength) :
    ∃ p, parsePacket mem pGSE timestampSeq = some p ∧ p.Behind mem pGSE last hs := by
  have hlen := GseWalk.gseLength_lt mem pGSE
  have htotal := decapsulateGseHeader_size_le mem pGSE
  have hvarlen : u16 (w.varHeaderSize + (decapsulateGseHeader mem pGSE).2.size.total) =
      w.varHeaderSize + (decapsulateGseHeader mem pGSE).2.size.total := u16_of_lt (by omega)
  refine ⟨parsedOf mem pGSE w, by rw [parsePacket_eq, hwalk]; rfl, ?_⟩
  refine ⟨hchain, by simp only [parsedOf, hoffset]; omega, ?_, htype, fun now _ => ?_⟩
  · simp only [parsedOf, hvarlen, hoffset]
    rw [sub16_of_le (by omega) (by omega)]
    omega
  · simp only [Parsed.arrival, parsedOf, hvarlen]
    rw [u8_of_lt (by omega), hvar]
    simp only [GseVariableHeaderSize.total]
    omega

lemma walk_first {h : ExtHeader} (hlast : last < 65536)
    (htype : (decapsulateGseHeader mem pGSE).2.protocolType = firstType last (h :: hs))
    (hmem : Holds mem (pGSE + (2 + (decapsulateGseHeader mem pGSE).2.size.total))
      (chainBytes last (h :: hs))) :
    ∃ w : ExtWalk,
      walkExtHeaders mem pGSE (decapsulateGseHeader mem pGSE).2 timestampSeq =
          ExtWalk.run mem pGSE (32766 + 1) w ∧
        w.offset = 2 + (decapsulateGseHeader mem pGSE).2.size.total + extHeaderSize h.headerType ∧
        w.varHeaderSize = extHeaderSize h.headerType ∧ w.chain = extHeaderSize h.headerType ∧
        w.nextType =
          if h.headerType = pduConcat then bswap16 (firstType last hs) else firstType last hs := by
  have htotal := decapsulateGseHeader_size_le mem pGSE
  set start : ExtWalk := ⟨2 + (decapsulateGseHeader mem pGSE).2.size.total, 0,
    (decapsulateGseHeader mem pGSE).2.protocolType, 0, timestampSeq, []⟩ with hstart
  have hregular : regularExtHeaderType start.nextType = true := by
    rw [hstart]
    simp only [htype, firstType, h.regular]
  obtain ⟨hoffset, hvar, hchain, hnext⟩ :=
    first_turn start htype (by simp only [hstart]; omega) hlast hmem
  have hchain₀ : start.chain = 0 := rfl
  refine ⟨start.turn mem pGSE, ?_, hoffset, hvar, by omega, hnext⟩
  exact ExtWalk.run_turn (k := 32766 + 1) hregular

lemma single_of_behind {w : ExtWalk} {h : ExtHeader} {p : Parsed}
    (hwalk : walkExtHeaders mem pGSE (decapsulateGseHeader mem pGSE).2 timestampSeq =
      ExtWalk.run mem pGSE (32766 + 1) w)
    (hvar : w.varHeaderSize = extHeaderSize h.headerType)
    (hchain : w.chain = extHeaderSize h.headerType)
    (hinside : (decapsulateGseHeader mem pGSE).2.size.total + (chainBytes last (h :: hs)).length ≤
      (decapsulateGseHeader mem pGSE).1.gseLength)
    (hp : parsePacket mem pGSE timestampSeq = some p) (hbehind : p.Behind mem pGSE last (h :: hs)) :
    hs = [] ∧ w.nextType = last := by
  have hlen := GseWalk.gseLength_lt mem pGSE
  have hbytes := chainBytes_cons_length last h hs
  have hbounds := extHeaderSize_bounds h.regular
  rw [parsePacket_eq, hwalk] at hp
  obtain ⟨w', hw, rfl⟩ := Option.map_eq_some_iff.mp hp
  obtain ⟨hwalked, hpointer, hlength, hlasttype, -⟩ := hbehind
  simp only [parsedOf] at hwalked hpointer hlength hlasttype
  obtain ⟨-, -, hw⟩ := ExtWalk.run_places hw
  have hsmall : w'.varHeaderSize ≤ 4096 := by
    rcases hw with rfl | hw <;> omega
  have hwhole : w'.varHeaderSize = (chainBytes last (h :: hs)).length := by
    rw [u16_of_lt (by omega)] at hlength
    simp only [sub16] at hlength
    omega
  obtain rfl : w' = w := by
    rcases hw with hw | hw
    · exact hw
    · omega
  refine ⟨?_, hlasttype⟩
  cases hs with
  | nil => rfl
  | cons h' hs =>
    have hrest := chainBytes_cons_length last h' hs
    have hmin := (extHeaderSize_bounds h'.regular).1
    omega

end Chain

/-- Behind a chain of extension headers in a packet the data field is handed on, with its length
and type, when the chain has at most one header, and no PDU_CONCAT header in front of a type whose
bytes differ. -/
theorem chain_handed_on_iff {mem : Memory} {pGSE timestampSeq last : ℕ} {hs : List ExtHeader}
    (hlast : last < 65536) (hstop : regularExtHeaderType last = false)
    (htype : (decapsulateGseHeader mem pGSE).2.protocolType = firstType last hs)
    (hmem : Holds mem (pGSE + (2 + (decapsulateGseHeader mem pGSE).2.size.total)) (chainBytes last hs))
    (hinside : (decapsulateGseHeader mem pGSE).2.size.total + (chainBytes last hs).length ≤
      (decapsulateGseHeader mem pGSE).1.gseLength) :
    (∃ p, parsePacket mem pGSE timestampSeq = some p ∧ p.Behind mem pGSE last hs) ↔
      HandedOn last hs := by
  cases hs with
  | nil =>
    refine iff_of_true ?_ trivial
    have hwalk : walkExtHeaders mem pGSE (decapsulateGseHeader mem pGSE).2 timestampSeq =
        ExtWalk.run mem pGSE (32767 + 1) ⟨2 + (decapsulateGseHeader mem pGSE).2.size.total, 0,
          (decapsulateGseHeader mem pGSE).2.protocolType, 0, timestampSeq, []⟩ := rfl
    apply behind_of_walk (hwalk.trans (ExtWalk.run_stop ?_)) _ rfl rfl htype rfl hinside
    · simp only [htype, firstType, hstop]
    · exact Nat.zero_le _
  | cons h hs =>
    obtain ⟨w, hwalk, hoffset, hvar, hchain, hnext⟩ := walk_first hlast htype hmem
    constructor
    · rintro ⟨p, hp, hbehind⟩
      obtain ⟨rfl, hlasttype⟩ := single_of_behind hwalk hvar hchain hinside hp hbehind
      intro hconcat
      rw [if_pos hconcat] at hnext
      exact hnext.symm.trans hlasttype
    · intro hon
      cases hs with
      | cons => exact hon.elim
      | nil =>
        have hone : (chainBytes last [h]).length = extHeaderSize h.headerType :=
          chainBytes_cons_length last h []
        have hbounds := extHeaderSize_bounds h.regular
        have hnext' : w.nextType = last := by
          rw [hnext]
          split_ifs with hc
          · exact hon hc
          · rfl
        apply behind_of_walk (hwalk.trans (ExtWalk.run_stop (by rw [hnext', hstop]))) (by omega)
          (by omega) (by omega) hnext' _ hinside
        rw [hoffset, hone]

def chainedPacket (hs : List ExtHeader) : Memory :=
  overwrite (fun _ => 0) (be16 (GseFixedHeader.word
    ⟨2 + (chainBytes protocolIpv4 hs).length + 4, .broadcast, true, true⟩) ++
      be16 (firstType protocolIpv4 hs) ++ chainBytes protocolIpv4 hs)

def sequenceHeader : ExtHeader := ⟨fragSequence, [0, 8], rfl, rfl⟩

def stampHeader : ExtHeader := ⟨timeStemp, [0, 0, 0, 1], rfl, rfl⟩

theorem chain_handed_on_sequence :
    ∃ p, parsePacket (chainedPacket [sequenceHeader]) 0 0 = some p ∧
      p.Behind (chainedPacket [sequenceHeader]) 0 protocolIpv4 [sequenceHeader] := by
  refine (chain_handed_on_iff (by decide) rfl (by decide +kernel) ?_ (by decide +kernel)).mpr ?_
  · rw [Holds]
    decide +kernel
  · exact fun hconcat => absurd hconcat (by decide)

/-- Behind FRAG_SEQUENCE and TIME_STEMP the data field is taken to be four bytes too long. -/
theorem two_headers_miscounted :
    (decapsulateGseHeader (chainedPacket [sequenceHeader, stampHeader]) 0).1.gseLength = 16 ∧
      (parsePacket (chainedPacket [sequenceHeader, stampHeader]) 0 0).map (fun p =>
        (p.ptrDatafield, p.datafieldLength)) = some (14, 8) ∧
      ¬ ∃ p, parsePacket (chainedPacket [sequenceHeader, stampHeader]) 0 0 = some p ∧
        p.Behind (chainedPacket [sequenceHeader, stampHeader]) 0 protocolIpv4
          [sequenceHeader, stampHeader] := by
  have hlen : (decapsulateGseHeader (chainedPacket [sequenceHeader, stampHeader]) 0).1.gseLength = 16 := by
    decide +kernel
  have hparse : (parsePacket (chainedPacket [sequenceHeader, stampHeader]) 0 0).map (fun p =>
      (p.ptrDatafield, p.datafieldLength)) = some (14, 8) := by decide +kernel
  refine ⟨hlen, hparse, ?_⟩
  rintro ⟨p, hp, hbehind⟩
  have hend := hbehind.length
  rw [hp, Option.map_some, Option.some.injEq, Prod.mk.injEq] at hparse
  omega

end Fengtai.Receive
