import Fengtai.Send.Frame

set_option autoImplicit false

/-! The encapsulation loop of one mapping: `encapsulate.c`. -/

namespace Fengtai.Send

open Library.Words Receive

/-- What `encapsulate.c` keeps for a mapping. `packed` is no field of the source: it remembers
the groups `encapsulate_gse` has made packets of, the last one last. -/
structure Sender where
  pduGroup : PduGroup
  gseGroup : GseGroup
  usingPdu : EnPduNode
  fragments : Fragments
  framePayload : FramePayload
  counters : SequenceCounters
  lastLabel : LastLabel
  output : Output
  packed : List PduGroup

/-- After `init_encap_mem`. -/
def Sender.initial : Sender where
  pduGroup := .zero
  gseGroup := .initial
  usingPdu := .zero
  fragments := .initial
  framePayload := .zero
  counters := .initial
  lastLabel := .initial
  output := ⟨.fresh, false⟩
  packed := []

namespace Sender

def readEnapsulateBuffer (conf : AppConf) (mbuf : RteMbuf) : EnPduNode :=
  { EnPduNode.zero with
    pduSize := mbuf.dataLen
    pPduStart := ⟨mbuf.data, 0⟩
    modcod := conf.modcode
    protocoltype := u16 mbuf.protocolType
    mbufAddress := some mbuf.addr
    pduTotalLength := mbuf.dataLen
    macAddress := boardcastAddress }

def getWholePkt (conf : AppConf) (mbuf : RteMbuf) (s : Sender) : Sender :=
  { s with usingPdu := readEnapsulateBuffer conf mbuf }

/-- `get_frag_pkt`; the answer is whether it returns `SUCCEED_FETCH_FRAGMENT`. -/
def getFragPkt (conf : AppConf) (s : Sender) : Bool × Sender :=
  let f := fetchPduFragment conf .zero s.fragments
  (0 ≤ f.ret, { s with fragments := f.fragments, usingPdu := f.node })

def makeFrame (env : SendEnv) (conf : AppConf) (s : Sender) : Sender :=
  { s with
    output := (encapsulateFrame env conf s.gseGroup s.framePayload.maxPayload
      s.framePayload.usedPayload s.output).2
    framePayload := .zero
    gseGroup := s.gseGroup.reset }

/-- The call of `update_pdu_group` on `using_pdu`. -/
def updatePduGroup (label : LabelType × ℕ) (s : Sender) : Sender :=
  let r := Send.updatePduGroup s.usingPdu s.pduGroup label.1 label.2 s.counters
  { s with pduGroup := r.1, counters := r.2 }

/-- `update_gse_group` with `RESET_PDU_GROUP`; an empty group makes no packet. -/
def updateGseGroup (s : Sender) : Sender :=
  { s with
    framePayload := s.framePayload.update s.pduGroup.gseTotalLength
    gseGroup := encapsulateGse s.pduGroup s.gseGroup
    pduGroup := if s.pduGroup.pduNum = 0 then s.pduGroup else .zero
    packed := if s.pduGroup.pduNum = 0 then s.packed else s.packed ++ [s.pduGroup] }

/-- `force_send` with `insert_dummy` 0. -/
def forceSend (env : SendEnv) (conf : AppConf) (s : Sender) : Sender :=
  if 0 < s.gseGroup.gseNum then s.updateGseGroup.makeFrame env conf else s

def updateLastLabel (s : Sender) : Sender :=
  { s with lastLabel := Send.updateLastLabel s.usingPdu.macLength s.usingPdu.macAddress s.lastLabel }

/-- `decide_label` for `using_pdu`. -/
def decideLabel (s : Sender) (nullFrame : Bool) : LabelType × ℕ :=
  Send.decideLabel s.usingPdu.macLength s.usingPdu.macAddress s.lastLabel.macLength
    s.lastLabel.macAddress nullFrame

/-- `fragment_process`: the first fragment closes the frame. -/
def fragmentProcess (env : SendEnv) (conf : AppConf) (label : LabelType × ℕ) (nullFrame : Bool)
    (s : Sender) : Sender :=
  let r := doFragment nullFrame s.framePayload.maxPayload s.framePayload.usablePayload s.usingPdu
    s.fragments
  let f := fetchPduFragment conf s.usingPdu r.1
  (({ s with pduGroup := .zero, fragments := f.fragments, usingPdu := f.node }.updatePduGroup
    label).updateGseGroup).makeFrame env conf

/-- `read_ok` of `encapsulate_isl_bb`. -/
inductive ReadOk
  | succeedFetchFragment
  | succeedFetchModcod
  | failedFetchModcod
  deriving DecidableEq, Repr

/-- The frame of an unused mapping takes the modcod of the PDU at hand. -/
def openFrame (s : Sender) : Sender :=
  { s with
    framePayload :=
      if s.framePayload.maxPayload = 0 then initFramePayload s.usingPdu.modcod else s.framePayload
    gseGroup :=
      if s.gseGroup.modcod = 0 then { s.gseGroup with modcod := s.usingPdu.modcod } else s.gseGroup }

/-- Case 1.2.1: the frame is sent as it is, and the PDU opens the next one. Its group is not
reset in between. -/
def startNewFrame (env : SendEnv) (conf : AppConf) (s : Sender) : Sender :=
  let s := s.makeFrame env conf
  let s := { s with framePayload := initFramePayload s.pduGroup.modcod }
  let label := s.decideLabel true
  let s := s.updateLastLabel.updatePduGroup label
  if s.pduGroup.gseTotalLength ≤ s.framePayload.usablePayload then s.updateGseGroup
  else s.fragmentProcess env conf label true

/-- `encapsulate_isl_bb` once `using_pdu` is in the group. -/
def placeGroup (env : SendEnv) (conf : AppConf) (label : LabelType × ℕ) (nullFrame : Bool)
    (s : Sender) : Sender :=
  if s.pduGroup.gseTotalLength ≤ s.framePayload.usablePayload then
    let s := s.updateGseGroup.updateLastLabel
    if s.framePayload.usablePayload < conf.paddingThreshold then s.makeFrame env conf else s
  else if s.framePayload.usablePayload < conf.paddingThreshold then s.startNewFrame env conf
  else s.updateLastLabel.fragmentProcess env conf label nullFrame

def encapsulateIslBb (env : SendEnv) (conf : AppConf) (readOk : ReadOk) (s : Sender) : Sender :=
  if readOk = .failedFetchModcod then s.forceSend env conf
  else
    let nullFrame := s.framePayload.maxPayload == 0
    let s := s.openFrame
    let label := s.decideLabel nullFrame
    (s.updatePduGroup label).placeGroup env conf label nullFrame

/-- The inner loop of `encapsulate_thread`: fragments are taken until none is pending. -/
def drain (env : SendEnv) (conf : AppConf) : ℕ → Sender → Sender
  | 0, s => s
  | fuel + 1, s =>
    let r := s.getFragPkt conf
    if r.1 then (r.2.encapsulateIslBb env conf .succeedFetchFragment).drain env conf fuel else r.2

/-- More fragments than the buffers can describe. -/
def drainFuel : ℕ := 65536

/-- One turn of the loop for the mapping: with the next PDU, or with none and `FAILED_FETCH_MODCOD`. -/
inductive Turn
  | pdu (mbuf : RteMbuf)
  | idle

def turn (env : SendEnv) (conf : AppConf) (s : Sender) : Turn → Sender
  | .pdu mbuf =>
    ((s.drain env conf drainFuel).getWholePkt conf mbuf).encapsulateIslBb env conf .succeedFetchModcod
  | .idle => (s.drain env conf drainFuel).encapsulateIslBb env conf .failedFetchModcod

def runTurns (env : SendEnv) (conf : AppConf) (s : Sender) (turns : List Turn) : Sender :=
  turns.foldl (turn env conf) s

end Sender

end Fengtai.Send
