import Fengtai.Gateway.Threads
import Fengtai.Receive.EncapRing
import Fengtai.Receive.Timeout
import Fengtai.Send.RoundTrip

set_option autoImplicit false

/-! The receiving half of a gateway: frames of port 0 to ring 0 and out on port 1, and frames of
port 1 to ring 1. -/

namespace Fengtai

open Library Library.Words Receive Send

namespace Gateway

def inner (m : RteMbuf) : RteMbuf := { m.adj sizeofRteEtherHdr with protocolType := etherType m }

/-- What `process_frame_header` makes of a frame of port 1. -/
def entered (m : RteMbuf) : Option RteMbuf :=
  if etherType m = protocolArp ∨ etherType m = protocolIpv4 then some (inner m) else none

structure UserFrame (m : RteMbuf) : Prop where
  size_ge : 60 ≤ m.dataLen
  size_le : m.dataLen ≤ 1514
  notLine : etherType m ≠ 0x9101

lemma inner_addr (m : RteMbuf) : (inner m).addr = m.addr := by
  simp only [inner, RteMbuf.adj]
  split_ifs <;> rfl

lemma inner_ordinary {m : RteMbuf} (hge : 60 ≤ m.dataLen) (hle : m.dataLen ≤ 1514) : Ordinary (inner m) := by
  have hlong : ¬ m.dataLen < sizeofRteEtherHdr := by
    rw [sizeofRteEtherHdr]
    omega
  have hlen : (m.adj sizeofRteEtherHdr).dataLen = m.dataLen - sizeofRteEtherHdr := by
    rw [RteMbuf.adj, if_neg hlong]
  simp only [sizeofRteEtherHdr] at hlen
  refine ⟨?_, ?_⟩
  · change 46 ≤ (m.adj sizeofRteEtherHdr).dataLen
    rw [sizeofRteEtherHdr, hlen]
    omega
  · change (m.adj sizeofRteEtherHdr).dataLen ≤ 1500
    rw [sizeofRteEtherHdr, hlen]
    omega

lemma UserFrame.plain {m pdu : RteMbuf} (h : UserFrame m) (he : entered m = some pdu) : Plain pdu := by
  rw [entered] at he
  split_ifs at he with htype
  obtain rfl := Option.some.inj he
  exact ⟨inner_ordinary h.size_ge h.size_le, htype.symm⟩

section Dispatch

variable {env : RecvEnv} (now : ℕ → ℕ) (para : FrameParam) (r : Receiver)

lemma dispatch_user (henq : ∀ i, env.enqueues i = true) {m : RteMbuf} (hm : UserFrame m) :
    ∃ r', dispatchDecapPkt env m 1 now para r = some r' ∧ r'.table = r.table ∧
      r'.pool.ring = r.pool.ring ++ (entered m).toList.map (Prod.mk 1) := by
  have hline : ¬ bswap16 (load16 m.data 12) = 0x9101 := hm.notLine
  by_cases htype : etherType m = protocolArp ∨ etherType m = protocolIpv4
  · have htype' : bswap16 (load16 m.data 12) = protocolArp ∨
        bswap16 (load16 m.data 12) = protocolIpv4 := htype
    refine ⟨{ r with pool := r.pool.enqueueEncapRing env.toDpdk (inner m) 1 }, ?_, rfl, ?_⟩
    · simp only [dispatchDecapPkt, processFrameHeader, if_neg hline, if_pos htype']
      rfl
    · rw [entered, if_pos htype]
      simp [Pool.enqueueEncapRing, henq]
  · have htype' : ¬ (bswap16 (load16 m.data 12) = protocolArp ∨
        bswap16 (load16 m.data 12) = protocolIpv4) := htype
    refine ⟨{ r with pool := r.pool.free m.addr }, ?_, rfl, ?_⟩
    · simp only [dispatchDecapPkt, processFrameHeader, if_neg hline, if_neg htype']
      rfl
    · rw [entered, if_neg htype]
      exact (List.append_nil _).symm

lemma dispatch_frame {conf : AppConf} (hc : conf.Configured) (htype : conf.portToPktType = enumFwdTxFwdData)
    (halloc : ∀ i, env.allocates i = true) (henq : ∀ i, env.enqueues i = true) {frame later : List Entry}
    {m : RteMbuf} (hm : CarriesFrame conf frame m) {ms : List RteMbuf}
    (h : Awaits conf env.toDpdk 0 ms (frame ++ later) r.table) :
    ∃ r' ms', ∃ new : List RteMbuf, dispatchDecapPkt env m 0 now para r = some r' ∧
      Awaits conf env.toDpdk 0 ms' later r'.table ∧
      r'.pool.ring = r.pool.ring ++ new.map (Prod.mk 0) ∧ new.map pduOf ++ ms'.map pduOf = ms.map pduOf := by
  obtain ⟨hfilled, macRev, modcod, hbytes⟩ := hm
  have hholds : Holds m.data 0 (frameBuffer conf macRev modcod frame) := by
    rw [← hbytes, Holds, RteMbuf.bytes, window_length]
  obtain ⟨r', ms', hstep, hawaits, hpdus⟩ := Awaits.frame now hc htype halloc henq hfilled h hholds para
  obtain ⟨new, hnew⟩ : r.pool.Feeds r'.pool := by
    obtain ⟨-, hpay⟩ := hc.payload_bounds
    have hused := hfilled.used_le
    rw [frameBuffer, List.append_assoc _ (frame.map Entry.bytes).flatten] at hholds
    obtain ⟨hret, hpara, hmbuf, hpool⟩ := processFrameHeader_fwdData htype hholds
      (show conf.payload ≤ 8000 by omega) hused para r.pool
    have hskip : ¬ ((0 : ℤ) = -1 ∨ (0 : ℤ) = 2) := by norm_num
    simp only [dispatchDecapPkt, hret, hpara, hmbuf, hpool, if_neg hskip, true_or, or_true, if_true] at hstep
    exact decapsulateGse_feeds (r := r) hstep
  refine ⟨r', ms', new, hstep, hawaits, hnew, ?_⟩
  rw [ringPdus, hnew, List.map_append, ringPdus, List.append_assoc] at hpdus
  have hcancel := List.append_cancel_left hpdus
  rw [List.map_map] at hcancel
  exact hcancel

end Dispatch

section Timeout

variable {tUs : ℕ} {r : Receiver}

def NoneOld (tUs : ℕ) (r : Receiver) : Prop :=
  ∀ x, r.Expired tUs x → x.2.2 ≠ (r.table x.1 x.2.1).indexList.header

lemma NoneOld.timeout_table (h : NoneOld tUs r)
    (hflag : ∀ port fragID i, ((r.table port fragID).info i).timeoutFlag = false) :
    (fragmentTimeout tUs r).table = r.table := by
  funext port fragID
  obtain ⟨hcells, -⟩ := sweep_cells tUs hflag searched_nodup
  rw [fragmentTimeout_eq, hcells]
  split_ifs with hin
  · obtain ⟨hport, hid⟩ := mem_searched.mp hin
    rw [FragCell.expire, if_neg]
    intro hstale
    exact h (port, fragID, (r.table port fragID).indexList.header) ⟨hport, hid, hstale⟩ rfl
  · rfl

end Timeout

structure Wired (g : Gateway) : Prop where
  rcvSound : g.rcv.Sound
  encapSound : g.encap.Sound
  ports : ∀ x ∈ g.rcv.log, x.1 ≤ 1
  received : ∀ x ∈ g.rcv.log, ∃ n, x.2.addr = .received n
  users : ∀ m ∈ g.rcv.ring 1, UserFrame m
  unflagged : ∀ port fragID i, ((g.receiver.table port fragID).info i).timeoutFlag = false
  entered : g.encap.ring 1 = (g.rcv.taken 1).filterMap entered

/-- The gateway has heard the first of `frames`, and awaits the others and `rest` behind them; the
PDUs of both are `taken`, and it has handed on those it could. -/
structure Hearing (own : GatewayConf) (conf : AppConf) (env : Dpdk) (taken : List RteMbuf)
    (frames : List (List Entry)) (rest : List Entry) (g : Gateway) : Prop where
  heard : List.Forall₂ (CarriesFrame conf) (frames.take (g.rcv.ring 0).length) (g.rcv.ring 0)
  awaits : ∃ ms, Awaits conf env 0 ms ((frames.drop (g.rcv.head 0)).flatten ++ rest) g.receiver.table ∧
    (g.encap.ring 0).map pduOf ++ ms.map pduOf = taken.map pduOf
  user : g.user = (g.encap.taken 0).map fun m => etherFrame own 1 (pduOf m)

lemma wired_initial : initial.Wired where
  rcvSound := Rings.sound_empty
  encapSound := Rings.sound_empty
  ports := by simp [initial, Rings.empty]
  received := by simp [initial, Rings.empty]
  users := by simp [initial, Rings.empty, Rings.ring]
  unflagged := fun _ _ _ => rfl
  entered := rfl

lemma hearing_initial (own : GatewayConf) (conf : AppConf) (env : Dpdk) :
    initial.Hearing own conf env [] [] [] where
  heard := .nil
  awaits := ⟨[], .between .nil fun _ => FragCell.free_initial, rfl⟩
  user := rfl

section Steps

variable {own : GatewayConf} {env : GatewayEnv} {conf : AppConf} {taken : List RteMbuf}
  {frames : List (List Entry)} {rest : List Entry} {g : Gateway}

lemma Hearing.length_le (h : g.Hearing own conf env.recv.toDpdk taken frames rest) :
    (g.rcv.ring 0).length ≤ frames.length := by
  have hlen := h.heard.length_eq
  rw [List.length_take] at hlen
  omega

lemma Hearing.more (h : g.Hearing own conf env.recv.toDpdk taken frames rest) (hw : g.Wired)
    {new : List (List Entry)} {part rest' : List Entry} {fetched : List RteMbuf}
    (hpart : Sent conf fetched part) (hplain : ∀ m ∈ fetched, Plain m)
    (hflat : new.flatten ++ rest' = rest ++ part) :
    g.Hearing own conf env.recv.toDpdk (taken ++ fetched) (frames ++ new) rest' := by
  have hlen := h.length_le
  have hhead := hw.rcvSound 0
  obtain ⟨ms, hawaits, hpdus⟩ := h.awaits
  refine ⟨?_, ⟨ms ++ fetched, ?_, ?_⟩, h.user⟩
  · rw [List.take_append_of_le_length hlen]
    exact h.heard
  · rw [List.drop_append_of_le_length (hhead.trans hlen), List.flatten_append, List.append_assoc, hflat,
      ← List.append_assoc]
    exact hawaits.append (hpart.toCome hplain)
  · rw [List.map_append, ← List.append_assoc, hpdus, List.map_append]

lemma Hearing.congr (h : g.Hearing own conf env.recv.toDpdk taken frames rest) {g' : Gateway}
    (hring : g'.rcv.ring 0 = g.rcv.ring 0) (hhead : g'.rcv.head 0 = g.rcv.head 0)
    (htable : g'.receiver.table = g.receiver.table) (hencap : g'.encap.ring 0 = g.encap.ring 0)
    (htaken : g'.encap.taken 0 = g.encap.taken 0) (huser : g'.user = g.user) :
    g'.Hearing own conf env.recv.toDpdk taken frames rest := by
  refine ⟨?_, ?_, ?_⟩
  · rw [hring]
    exact h.heard
  · rw [hhead, htable, hencap]
    exact h.awaits
  · rw [huser, htaken]
    exact h.user

end Steps

end Gateway

end Fengtai
