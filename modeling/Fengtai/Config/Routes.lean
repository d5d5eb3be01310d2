import Fengtai.Config.RouterTable

set_option autoImplicit false

/-! The router headers made of the tables, and the way of a packet that carries one. -/

namespace Fengtai.Config

open Library Library.Words Receive

/-- The five fields that `init_router_header` sets, of which the direction, `M` and `TTL` are not
read by `router_func`. -/
structure HeaderInit {rh : RouterHeader} (ce : CurEntry rh) where
  lastBits : ℕ
  set : (curEntry lastEntry direction ttl : ℕ) → List UInt8 → List UInt8
  length_set : ∀ c l d t h, (set c l d t h).length = h.length
  get_set : ∀ c l d t h, h.length = rh.routerHeaderLen → ce.get (set c l d t h) = c % 2 ^ ce.bits
  lastEntry_set : ∀ c l d t h, h.length = rh.routerHeaderLen →
    rh.lastEntry (set c l d t h) = l % 2 ^ lastBits

section Headers

variable {rh : RouterHeader} {ce : CurEntry rh} (hi : HeaderInit ce)

/-- `segment` of row `i`. -/
def segments (t : RouterTables) (i : ℕ) : List UInt8 :=
  (List.range (t.routerTableEntryNum i)).flatMap fun j => le16 (bswap16 (t.routerTable i j))

/-- Header `i`. Beyond the `MAX_DEVICE_NUM` headers, or with segments beyond the end of one, the
behaviour is undefined. -/
def initHeader (curEntry direction : ℕ) (t : RouterTables) (routerHeader : ℕ → Memory) (i : ℕ) :
    Option (ℕ → Memory) :=
  let n := t.routerTableEntryNum i
  if i < maxDeviceNum ∧ rh.routerHeaderLen + 2 * n ≤ rh.sizeofRouterHeader then
    some (Function.update routerHeader i (overwrite (routerHeader i)
      (hi.set curEntry (u32 (n + 4294967295)) direction (n + 1) (rh.header (routerHeader i)) ++
        segments t i)))
  else none

def initRouterHeader (curEntry direction : ℕ) (t : RouterTables) (routerHeader : ℕ → Memory) :
    Option (ℕ → Memory) :=
  (List.range t.routerTableNum).foldlM (initHeader hi curEntry direction t) routerHeader

lemma segments_eq {t : RouterTables} {rows : List (List ℕ)} (ht : t.Lists rows) {i : ℕ}
    {row : List ℕ} (hrow : rows[i]? = some row) : segments t i = row.flatMap be16 := by
  have hrange : row = (List.range row.length).map (t.routerTable i) := by
    apply List.ext_getElem (by simp)
    intro j hj _
    rw [List.getElem_map, List.getElem_range]
    exact (ht.entry i row hrow j _ (List.getElem?_eq_getElem hj)).symm
  rw [segments, ht.entryNum i row hrow]
  conv_rhs => rw [hrange, List.flatMap_map]
  simp

/-- The headers have room for `rows`, and their fields for the entries. -/
structure HeaderInit.Fits (rows : List (List ℕ)) : Prop where
  devices : rows.length ≤ maxDeviceNum
  room : ∀ row ∈ rows, rh.routerHeaderLen + 2 * row.length ≤ rh.sizeofRouterHeader
  curEntry : ∀ row ∈ rows, row.length ≤ 2 ^ ce.bits
  lastEntry : ∀ row ∈ rows, row.length ≤ 2 ^ hi.lastBits

def Short (row : List ℕ) : Prop := 0 < row.length ∧ row.length < 100

/-- The header of `row`, made of what was there. -/
def Heads (curEntry direction : ℕ) (row : List ℕ) (mem : Memory) : Prop :=
  ∃ old : List UInt8, old.length = rh.routerHeaderLen ∧
    Holds mem 0 (hi.set curEntry (row.length - 1) direction (row.length + 1) old ++
      row.flatMap be16)

variable {hi} {t : RouterTables} {rows : List (List ℕ)} (curEntry direction : ℕ)

lemma initHeader_heads (ht : t.Lists rows) (hfit : hi.Fits rows)
    (hrows : ∀ row ∈ rows, Short row) (routerHeader : ℕ → Memory)
    {i : ℕ} {row : List ℕ} (hrow : rows[i]? = some row) :
    ∃ mem, initHeader hi curEntry direction t routerHeader i =
      some (Function.update routerHeader i mem) ∧ Heads hi curEntry direction row mem := by
  obtain ⟨hi', hget⟩ := List.getElem?_eq_some_iff.1 hrow
  have hmem : row ∈ rows := List.mem_of_getElem? hrow
  have hlast : u32 (row.length + 4294967295) = row.length - 1 := by
    obtain ⟨hpos, hlt⟩ := hrows row hmem
    rw [u32]
    omega
  rw [initHeader, ht.entryNum i row hrow, if_pos ⟨hi'.trans_le hfit.devices, hfit.room row hmem⟩,
    hlast, segments_eq ht hrow]
  exact ⟨_, rfl, _, rh.header_length (routerHeader i), holds_overwrite _ _⟩

lemma foldlM_initHeader_heads (ht : t.Lists rows) (hfit : hi.Fits rows)
    (hrows : ∀ row ∈ rows, Short row) (routerHeader : ℕ → Memory)
    {n : ℕ} (hn : n ≤ rows.length) :
    ∃ headers, (List.range n).foldlM (initHeader hi curEntry direction t) routerHeader =
      some headers ∧ ∀ i < n, ∀ row, rows[i]? = some row →
        Heads hi curEntry direction row (headers i) := by
  induction n with
  | zero => exact ⟨routerHeader, rfl, fun i hi => absurd hi (Nat.not_lt_zero i)⟩
  | succ n ih =>
    obtain ⟨mid, hmid, hheads⟩ := ih (by omega)
    have hrow : rows[n]? = some rows[n] := List.getElem?_eq_getElem hn
    obtain ⟨mem, hinit, hmem⟩ := initHeader_heads curEntry direction ht hfit hrows mid hrow
    refine ⟨Function.update mid n mem, ?_, ?_⟩
    · rw [List.range_succ, List.foldlM_append, hmid]
      simpa using hinit
    · intro i hin row hget
      rcases Nat.lt_succ_iff_lt_or_eq.1 hin with hlt | rfl
      · rw [Function.update_of_ne hlt.ne]
        exact hheads i hlt row hget
      · obtain rfl := Option.some.inj (hrow.symm.trans hget)
        rw [Function.update_self]
        exact hmem

lemma initRouterHeader_heads (ht : t.Lists rows) (hfit : hi.Fits rows)
    (hrows : ∀ row ∈ rows, Short row) (routerHeader : ℕ → Memory) :
    ∃ headers, initRouterHeader hi curEntry direction t routerHeader = some headers ∧
      ∀ i row, rows[i]? = some row → Heads hi curEntry direction row (headers i) := by
  obtain ⟨headers, hinit, hheads⟩ :=
    foldlM_initHeader_heads curEntry direction ht hfit hrows routerHeader le_rfl
  refine ⟨headers, ?_, fun i row hget => ?_⟩
  · rw [initRouterHeader, ht.num]
    exact hinit
  · exact hheads i (List.getElem?_eq_some_iff.1 hget).1 row hget

end Headers

section Route

variable {rh : RouterHeader} (ce : CurEntry rh)

/-- The first bytes of the packets for `row`. -/
structure HeaderOf (row : List ℕ) (header : List UInt8) : Prop where
  length : header.length = rh.routerHeaderLen
  last : rh.lastEntry header = row.length - 1
  short : row.length < 256
  field : row.length ≤ 2 ^ ce.bits
  ids : ∀ n ∈ row, n < 65536

/-- The packet stands at entry `k` of `row`. -/
def At (row : List ℕ) (header body : List UInt8) (k : ℕ) (m : RteMbuf) : Prop :=
  m.bytes = ce.set k header ++ (row.flatMap be16 ++ body)

namespace At

variable {ce} {row : List ℕ} {header body : List UInt8} {k : ℕ} {m : RteMbuf}

lemma dataLen (hm : At ce row header body k m) (hh : HeaderOf ce row header) :
    rh.routerHeaderLen ≤ m.dataLen := by
  have hlength := congrArg List.length hm
  rw [RteMbuf.bytes, window_length, List.length_append, ce.length_set, hh.length] at hlength
  omega

lemma header_eq (hm : At ce row header body k m) (hh : HeaderOf ce row header) :
    rh.header m.data = ce.set k header := by
  have hbytes := hm
  rw [At, bytes_eq (hm.dataLen hh)] at hbytes
  exact (List.append_inj hbytes (by rw [rh.header_length, ce.length_set, hh.length])).1

lemma curEntry_eq (hm : At ce row header body k m) (hh : HeaderOf ce row header)
    (hk : k < row.length) : curEntry ce m = k := by
  rw [curEntry, hm.header_eq hh, ce.get_set k header hh.length]
  exact Nat.mod_eq_of_lt (hk.trans_le hh.field)

lemma lastEntry_eq (hm : At ce row header body k m) (hh : HeaderOf ce row header) :
    lastEntry rh m = row.length - 1 := by
  rw [lastEntry, hm.header_eq hh, ce.lastEntry_set, hh.last]

lemma wellFormed (hm : At ce row header body k m) (hh : HeaderOf ce row header)
    (hk : k < row.length) : WellFormed ce m := by
  have hshort := hh.short
  rw [WellFormed, hm.curEntry_eq hh hk, hm.lastEntry_eq hh]
  omega

lemma segmentOf_eq (hm : At ce row header body k m) (hh : HeaderOf ce row header) {j v : ℕ}
    (hv : row[j]? = some v) : segmentOf rh m j = v := by
  obtain ⟨hj, hget⟩ := List.getElem?_eq_some_iff.1 hv
  have hsplit : row = row.take j ++ v :: row.drop (j + 1) := by
    rw [← hget, List.getElem_cons_drop, List.take_append_drop]
  have hfront : ((row.take j).flatMap be16).length = 2 * j := by
    simp [List.length_flatMap, Nat.min_eq_left hj.le, Nat.mul_comm]
  have hholds : Holds m.data 0 (ce.set k header ++ (row.flatMap be16 ++ body)) := by
    rw [← hm, Holds, RteMbuf.bytes, window_length]
  rw [hsplit, List.flatMap_append, List.flatMap_cons, List.append_assoc, List.append_assoc,
    holds_append, holds_append, holds_append, ce.length_set, hh.length, hfront] at hholds
  have hvalue := load16_be16 hholds.2.2.1
  rw [Nat.zero_add] at hvalue
  rw [segmentOf, RouterHeader.segment, hvalue]
  exact u16_of_lt (hh.ids v (List.mem_of_getElem? hv))

lemma nextHop_eq (hm : At ce row header body k m) (hh : HeaderOf ce row header) {n : ℕ}
    (hn : row[k]? = some n) : nextHop ce m = row[k + 1]?.getD n := by
  obtain ⟨hk, -⟩ := List.getElem?_eq_some_iff.1 hn
  rw [nextHop, hm.curEntry_eq hh hk, hm.lastEntry_eq hh]
  split_ifs with hlast
  · rw [List.getElem?_eq_none (by omega), hm.segmentOf_eq hh hn, Option.getD_none]
  · have hnext : row[k + 1]? = some row[k + 1] := List.getElem?_eq_getElem (by omega)
    rw [hm.segmentOf_eq hh hnext, hnext, Option.getD_some]

lemma next (hm : At ce row header body k m) (hh : HeaderOf ce row header) (hk : k < row.length) :
    At ce row header body (k + 1) (advanced ce m) := by
  rw [At, bytes_advanced ce (hm.dataLen hh), hm.curEntry_eq hh hk, hm.header_eq hh, ce.set_set, hm,
    List.drop_left' (by rw [ce.length_set, hh.length])]

end At

structure Parcel where
  node : ℕ
  mbuf : RteMbuf

/-- What `router_func` finds at a node: the packet as it came in, and the rings. -/
structure Stop where
  env : Dpdk
  pool : Pool
  arrived : RteMbuf

/-- Each ring of a node leads to the next hop it is for; that of the node itself to its users. -/
def pass (conf : ℕ → HopConf) (node : ℕ) (stop : Stop) : Option Parcel :=
  (routerFunc ce (conf node) stop.env stop.arrived stop.pool).bind fun r =>
    ((r.pool.ring.drop stop.pool.ring.length).head?).map fun x => ⟨(conf node).nextHopId x.1, x.2⟩

inductive Visits (conf : ℕ → HopConf) (start : Parcel) : List ℕ → Parcel → Prop
  | start : Visits conf start [] start
  | next {nodes : List ℕ} {p p' : Parcel} {stop : Stop} (h : Visits conf start nodes p)
      (harrived : stop.arrived.bytes = p.mbuf.bytes) (hpass : pass ce conf p.node stop = some p')
      (hleaves : p'.node ≠ p.node) : Visits conf start (nodes ++ [p.node]) p'

/-- The nodes of `row` have a ring for the one after them, and the last has one for itself. -/
structure Linked (conf : ℕ → HopConf) (row : List ℕ) : Prop where
  localId : ∀ n ∈ row, (conf n).localId = n
  onward : ∀ k a b, row[k]? = some a → row[k + 1]? = some b →
    a ≠ b ∧ ∃ i < maxDeviceNum, (conf a).nextHopId i = b
  own : ∀ a, row.getLast? = some a → ∃ i < maxDeviceNum, (conf a).nextHopId i = a

variable {ce} {row : List ℕ} {header body : List UInt8} {k n : ℕ} {conf : ℕ → HopConf}

lemma Linked.ring (h : Linked conf row) (hn : row[k]? = some n) :
    ∃ i < maxDeviceNum, (conf n).nextHopId i = row[k + 1]?.getD n := by
  cases hnext : row[k + 1]? with
  | some b => exact (h.onward k n b hn hnext).2
  | none =>
    apply h.own n
    obtain ⟨hk, -⟩ := List.getElem?_eq_some_iff.1 hn
    rw [List.getElem?_eq_none_iff] at hnext
    rw [List.getLast?_eq_getElem?, show row.length - 1 = k by omega, hn]

lemma pass_eq {stop : Stop} (hm : At ce row header body k stop.arrived)
    (hh : HeaderOf ce row header) (hlinked : Linked conf row) (hn : row[k]? = some n) :
    pass ce conf n stop =
      if stop.env.enqueues stop.pool.enqueues = true then
        some ⟨row[k + 1]?.getD n, advanced ce stop.arrived⟩
      else none := by
  obtain ⟨hk, -⟩ := List.getElem?_eq_some_iff.1 hn
  have hmapped : (conf n).nextHopId (mappingIndexOf ce (conf n) stop.arrived) =
      row[k + 1]?.getD n := by
    rw [mappingIndexOf, hm.nextHop_eq hh hn, getMappingIndex_right]
    refine Or.inr ⟨?_, hlinked.ring hn⟩
    rw [hm.curEntry_eq hh hk, hm.segmentOf_eq hh hn,
      hlinked.localId n (List.mem_of_getElem? hn)]
  rw [pass, routerFunc_eq ce _ _ _ (hm.wellFormed hh hk), Option.bind_some, Pool.enqueueEncapRing]
  split_ifs
  · simp [hmapped]
  · simp

lemma visits_row {start : Parcel} {c : ℕ} (hstart : At ce row header body c start.mbuf)
    (hnode : row[c]? = some start.node) (hh : HeaderOf ce row header) (hlinked : Linked conf row)
    {nodes : List ℕ} {p : Parcel} (h : Visits ce conf start nodes p) :
    ∃ k, row[k]? = some p.node ∧ c ≤ k ∧ nodes = (row.take k).drop c ∧
      At ce row header body k p.mbuf := by
  induction h with
  | start => exact ⟨c, hnode, le_rfl, by simp, hstart⟩
  | @next nodes p p' stop h harrived hpass hleaves ih =>
    obtain ⟨k, hp, hle, rfl, hat⟩ := ih
    have harrive : At ce row header body k stop.arrived := harrived.trans hat
    obtain ⟨hk, hget⟩ := List.getElem?_eq_some_iff.1 hp
    rw [pass_eq harrive hh hlinked hp] at hpass
    split_ifs at hpass
    obtain rfl := Option.some.inj hpass
    cases hnext : row[k + 1]? with
    | none => simp [hnext] at hleaves
    | some b =>
      refine ⟨k + 1, by simp [hnext], by omega, ?_, harrive.next hh hk⟩
      rw [List.take_succ_eq_append_getElem hk, hget, List.drop_append_of_le_length]
      rw [List.length_take]
      omega

end Route

section Configured

variable {rh : RouterHeader} {ce : CurEntry rh} (hi : HeaderInit ce)

lemma Heads.headerOf {hi : HeaderInit ce} {curEntry direction : ℕ} {row : List ℕ} {mem : Memory}
    (h : Heads hi curEntry direction row mem) (hshort : Short row)
    (hcur : row.length ≤ 2 ^ ce.bits) (hlast : row.length ≤ 2 ^ hi.lastBits)
    (hids : ∀ n ∈ row, n < 65536) (hentry : curEntry < row.length) :
    HeaderOf ce row (rh.header mem) ∧ ce.set curEntry (rh.header mem) = rh.header mem ∧
      window mem 0 (rh.routerHeaderLen + 2 * row.length) =
        rh.header mem ++ row.flatMap be16 := by
  obtain ⟨old, hold, hholds⟩ := h
  obtain ⟨hpos, hlt⟩ := hshort
  have hlength : (hi.set curEntry (row.length - 1) direction (row.length + 1) old).length =
      rh.routerHeaderLen := by rw [hi.length_set, hold]
  have hsegments : (row.flatMap be16).length = 2 * row.length := by
    simp [List.length_flatMap, Nat.mul_comm]
  have hwindow := hholds
  rw [Holds, List.length_append, hlength, hsegments] at hwindow
  rw [holds_append] at hholds
  have hheader : rh.header mem =
      hi.set curEntry (row.length - 1) direction (row.length + 1) old := by
    rw [RouterHeader.header, ← hlength]
    exact hholds.1
  refine ⟨⟨rh.header_length mem, ?_, by omega, hcur, hids⟩, ?_, ?_⟩
  · rw [hheader, hi.lastEntry_set _ _ _ _ _ hold]
    exact Nat.mod_eq_of_lt (by omega)
  · have hget : ce.get (rh.header mem) = curEntry := by
      rw [hheader, hi.get_set _ _ _ _ _ hold]
      exact Nat.mod_eq_of_lt (by omega)
    conv_lhs => rw [← hget, ce.set_get]
  · rw [hwindow, hheader]

lemma Written.rows {rows : List (List ℕ)} {text : List UInt8} (h : Written rows text) :
    ∀ row ∈ rows, Short row ∧ ∀ n ∈ row, n < 65536 := by
  have hrow {row : List ℕ} {line : List UInt8} (h : TextLines.Row isDelim 65536 row line)
      (hline : line.length < 100) : Short row ∧ ∀ n ∈ row, n < 65536 :=
    ⟨⟨List.length_pos_iff.2 h.ne_nil.1, h.length_le.trans_lt hline⟩, h.lt⟩
  induction h with
  | nil => exact fun row hmem => absurd hmem List.not_mem_nil
  | last h hline => simpa using hrow h hline
  | line h hline _ ih =>
    rw [List.forall_mem_cons]
    exact ⟨hrow h (by omega), ih⟩

/-- The rows of `router.conf` that start at a node become its headers, in their order, and a packet
that carries one of them is brought from node to node along its row and then to the users of the
last: it never goes elsewhere, is dropped only by a full ring, and nothing but `CUR_ENTRY` changes. -/
theorem packets_follow_configured_routes (shape : TableShape) {rows : List (List ℕ)}
    {text : List UInt8} {localId : ℕ} (htext : Written rows text)
    (htable : shape.Fits (ownRows localId rows)) (hheader : hi.Fits (ownRows localId rows))
    (curEntry direction : ℕ) (routerHeader : ℕ → Memory) :
    ∃ t headers, readRouterTblConfig shape localId text = some t ∧
      initRouterHeader hi curEntry direction t routerHeader = some headers ∧
      t.Lists (ownRows localId rows) ∧
      (∀ i row, (ownRows localId rows)[i]? = some row →
        Heads hi curEntry direction row (headers i)) ∧
      ∀ i row node, (ownRows localId rows)[i]? = some row → row[curEntry]? = some node →
        ∀ m body, m.bytes =
          window (headers i) 0 (rh.routerHeaderLen + 2 * t.routerTableEntryNum i) ++ body →
        ∀ conf, Linked conf row → ∀ nodes p, Visits ce conf ⟨node, m⟩ nodes p →
          ∃ k, row[k]? = some p.node ∧ curEntry ≤ k ∧ nodes = (row.take k).drop curEntry ∧
            p.mbuf.bytes = ce.set k (rh.header (headers i)) ++ m.bytes.drop rh.routerHeaderLen ∧
            ∀ stop : Stop, stop.arrived.bytes = p.mbuf.bytes →
              stop.env.enqueues stop.pool.enqueues = true →
              ∃ p', pass ce conf p.node stop = some p' ∧ p'.node = row[k + 1]?.getD p.node := by
  have hown : ∀ row ∈ ownRows localId rows, Short row ∧ ∀ n ∈ row, n < 65536 :=
    fun row hrow => htext.rows row (List.mem_of_mem_filter hrow)
  obtain ⟨t, hread, ht⟩ := readRouterTblConfig_written htext htable
  obtain ⟨headers, hinit, hheads⟩ := initRouterHeader_heads curEntry direction ht hheader
    (fun row hrow => (hown row hrow).1) routerHeader
  refine ⟨t, headers, hread, hinit, ht, hheads, ?_⟩
  intro i row node hrow hnode m body hm conf hlinked nodes p hvisits
  have hmem : row ∈ ownRows localId rows := List.mem_of_getElem? hrow
  obtain ⟨hshort, hids⟩ := hown row hmem
  obtain ⟨hentry, -⟩ := List.getElem?_eq_some_iff.1 hnode
  obtain ⟨hof, hset, hwindow⟩ := (hheads i row hrow).headerOf hshort (hheader.curEntry row hmem)
    (hheader.lastEntry row hmem) hids hentry
  have hstart : At ce row (rh.header (headers i)) body curEntry m := by
    rw [At, hm, ht.entryNum i row hrow, hwindow, hset, List.append_assoc]
  obtain ⟨k, hp, hle, hnodes, hat⟩ := visits_row hstart hnode hof hlinked hvisits
  refine ⟨k, hp, hle, hnodes, ?_, ?_⟩
  · rw [hat, hstart, List.drop_left' (by rw [ce.length_set, hof.length])]
  · intro stop harrived hroom
    refine ⟨⟨row[k + 1]?.getD p.node, advanced ce stop.arrived⟩, ?_, rfl⟩
    rw [pass_eq (harrived.trans hat) hof hlinked hp, if_pos hroom]

end Configured

/-- The fields of the header with its entries in the halves of the third byte. -/
def nibbleInit : HeaderInit nibbleCurEntry where
  lastBits := 4
  set := fun c l d t header => ((header.modify 0 fun _ => UInt8.ofNat (32 * d)).modify 2
    fun _ => UInt8.ofNat (c % 16 * 16 + l % 16)).modify 3 fun _ => UInt8.ofNat t
  length_set c l d t h := by simp
  get_set c l d t h hlen := by
    rcases h with _ | ⟨a, _ | ⟨b, _ | ⟨e, s⟩⟩⟩
    all_goals simp_all [nibbleHeader, nibbleCurEntry]
    omega
  lastEntry_set c l d t h hlen := by
    rcases h with _ | ⟨a, _ | ⟨b, _ | ⟨e, s⟩⟩⟩
    all_goals simp_all [nibbleHeader]

def eightRows : TableShape where
  rows := 8
  columns := 16
  element := fun z => (z % 65536).toNat
  element_natCast n hn := by omega

/-- Two lines: `7:9` and, up to the end of the file, `9-7`. -/
def twoRoutes : List UInt8 := [55, 58, 57, 10, 57, 45, 55]

lemma twoRoutes_written : Written [[7, 9], [9, 7]] twoRoutes := by
  have hseven : TextLines.Numeral [55] 7 :=
    ⟨List.cons_ne_nil _ _, List.forall_mem_singleton.2 rfl, rfl⟩
  have hnine : TextLines.Numeral [57] 9 :=
    ⟨List.cons_ne_nil _ _, List.forall_mem_singleton.2 rfl, rfl⟩
  have hthere : TextLines.Row isDelim 65536 [7, 9] ([55] ++ 58 :: [57]) :=
    .more hseven (by decide) rfl (.one hnine (by decide))
  have hback : TextLines.Row isDelim 65536 [9, 7] ([57] ++ 45 :: [55]) :=
    .more hnine (by decide) rfl (.one hseven (by decide))
  exact .line hthere (by decide) (.last hback (by decide))

def twoNodes (n : ℕ) : HopConf := ⟨n, fun i => if i = 1 then 9 else 0⟩

lemma twoNodes_linked : Linked twoNodes [7, 9] where
  localId n _ := rfl
  onward k a b ha hb := by
    rcases k with _ | k
    · obtain rfl : 7 = a := by simpa using ha
      obtain rfl : 9 = b := by simpa using hb
      exact ⟨by decide, 1, by decide, rfl⟩
    · simp at hb
  own a ha := by
    obtain rfl : 9 = a := by simpa using ha
    exact ⟨1, by decide, rfl⟩

def packetOf (bytes : List UInt8) : RteMbuf :=
  ⟨.received 0, overwrite (fun _ => 0) bytes, bytes.length, 0x0800⟩

lemma packetOf_bytes (bytes : List UInt8) : (packetOf bytes).bytes = bytes :=
  holds_overwrite (fun _ => 0) bytes

theorem packets_follow_configured_routes_two :
    ∃ t headers, readRouterTblConfig eightRows 7 twoRoutes = some t ∧
      initRouterHeader nibbleInit 0 1 t (fun _ _ => 0) = some headers ∧ t.routerTableNum = 1 ∧
      ∀ body, ∃ p, Visits nibbleCurEntry twoNodes
        ⟨7, packetOf (window (headers 0) 0 (4 + 2 * t.routerTableEntryNum 0) ++ body)⟩ [7] p ∧
          p.node = 9 ∧ p.mbuf.bytes.drop 4 =
            (packetOf (window (headers 0) 0 (4 + 2 * t.routerTableEntryNum 0) ++ body)).bytes.drop 4 := by
  have hown : ownRows 7 [[7, 9], [9, 7]] = [[7, 9]] := by decide
  have htable : eightRows.Fits (ownRows 7 [[7, 9], [9, 7]]) := by
    rw [hown]
    exact ⟨by decide, by decide, by decide⟩
  have hheader : nibbleInit.Fits (ownRows 7 [[7, 9], [9, 7]]) := by
    rw [hown]
    exact ⟨by decide, by decide, by decide, by decide⟩
  obtain ⟨t, headers, hread, hinit, hlists, -, hroute⟩ := packets_follow_configured_routes nibbleInit
    eightRows twoRoutes_written htable hheader 0 1 fun _ _ => 0
  refine ⟨t, headers, hread, hinit, by rw [hlists.num, hown]; rfl, fun body => ?_⟩
  have hvisits := hroute 0 [7, 9] 7 (by rw [hown]; rfl) rfl
    (packetOf (window (headers 0) 0 (4 + 2 * t.routerTableEntryNum 0) ++ body)) body
    (packetOf_bytes _) twoNodes twoNodes_linked
  obtain ⟨k, hk, -, hnone, -, hpass⟩ := hvisits [] _ .start
  obtain rfl : k = 0 := by
    rcases k with _ | _ | k
    · rfl
    · simp at hk
    · simp at hk
  obtain ⟨p, hp, hnode⟩ := hpass ⟨hopEnv, .fresh, _⟩ rfl rfl
  have hnine : p.node = 9 := hnode
  have hthere := Visits.next .start rfl hp (by simp [hnine])
  obtain ⟨k, -, -, -, hbytes, -⟩ := hvisits [7] p hthere
  refine ⟨p, hthere, hnine, ?_⟩
  rw [hbytes]
  exact List.drop_left' (nibbleCurEntry.length_set_header k (headers 0))

end Fengtai.Config
