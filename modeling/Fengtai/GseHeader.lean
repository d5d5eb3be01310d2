import Fengtai.Library.Words

set_option autoImplicit false

/-! What both sides share of a GSE packet: `GSE_FIXED_HEADER`, the label types and the
constants of the extension headers. -/

namespace Fengtai

/-- `LABEL_TYPE_CODE`, in the order of the codes. -/
inductive LabelType
  | sixBytes
  | threeBytes
  | broadcast
  | reuse
  deriving DecidableEq, Repr

def LabelType.code : LabelType → ℕ
  | .sixBytes => 0
  | .threeBytes => 1
  | .broadcast => 2
  | .reuse => 3

def LabelType.ofCode (code : ℕ) : LabelType :=
  match code % 4 with
  | 0 => .sixBytes
  | 1 => .threeBytes
  | 2 => .broadcast
  | _ => .reuse

/-- The size `label_size` both sides derive from the label type. -/
def LabelType.size : LabelType → ℕ
  | .sixBytes => 6
  | .threeBytes => 3
  | .broadcast => 0
  | .reuse => 0

lemma LabelType.code_lt (l : LabelType) : l.code < 4 := by cases l <;> decide

lemma LabelType.size_le (l : LabelType) : l.size ≤ 6 := by cases l <;> decide

/-- `GSE_FIXED_HEADER`: a word of four bit fields. -/
structure GseFixedHeader where
  gseLength : ℕ
  labelType : LabelType
  endIndicator : Bool
  startIndicator : Bool
  deriving DecidableEq, Repr

def sizeofGseFixedHeader : ℕ := 2

/-- The bit fields as a little-endian compiler lays them out, `GSE_Length` lowest. -/
def GseFixedHeader.word (h : GseFixedHeader) : ℕ :=
  h.gseLength % 4096 + 4096 * h.labelType.code + 16384 * h.endIndicator.toNat +
    32768 * h.startIndicator.toNat

def GseFixedHeader.ofWord (w : ℕ) : GseFixedHeader where
  gseLength := w % 4096
  labelType := .ofCode (w / 4096)
  endIndicator := w / 16384 % 2 == 1
  startIndicator := w / 32768 % 2 == 1

lemma GseFixedHeader.word_lt (h : GseFixedHeader) : h.word < 65536 := by
  have hl := h.labelType.code_lt
  have he := h.endIndicator.toNat_le
  have hs := h.startIndicator.toNat_le
  simp only [word]
  omega

lemma GseFixedHeader.ofWord_word {h : GseFixedHeader} (hlt : h.gseLength < 4096) :
    ofWord h.word = h := by
  obtain ⟨n, l, e, s⟩ := h
  simp only [ofWord, word, mk.injEq]
  have hn : n % 4096 = n := Nat.mod_eq_of_lt hlt
  simp only at hlt
  refine ⟨?_, ?_, ?_, ?_⟩
  · cases l <;> cases e <;> cases s <;> simp only [LabelType.code, Bool.toNat] <;> omega
  · have hcode : (n % 4096 + 4096 * l.code + 16384 * e.toNat + 32768 * s.toNat) / 4096 % 4 =
        l.code := by
      have hl := l.code_lt
      cases e <;> cases s <;> simp only [Bool.toNat, cond] <;> omega
    rw [LabelType.ofCode, hcode]
    cases l <;> rfl
  · have hl := l.code_lt
    have hbit : (n % 4096 + 4096 * l.code + 16384 * e.toNat + 32768 * s.toNat) / 16384 % 2 =
        e.toNat := by
      cases e <;> cases s <;> simp only [Bool.toNat, cond] <;> omega
    rw [hbit]
    cases e <;> rfl
  · have hl := l.code_lt
    have hbit : (n % 4096 + 4096 * l.code + 16384 * e.toNat + 32768 * s.toNat) / 32768 % 2 =
        s.toNat := by
      cases e <;> cases s <;> simp only [Bool.toNat, cond] <;> omega
    rw [hbit]
    cases s <;> rfl

structure GseVariableHeaderSize where
  fragmentIDSize : ℕ
  totalLengthSize : ℕ
  protocolTypeSize : ℕ
  labelSize : ℕ
  deriving DecidableEq, Repr

def GseVariableHeaderSize.total (v : GseVariableHeaderSize) : ℕ :=
  v.protocolTypeSize + v.fragmentIDSize + v.totalLengthSize + v.labelSize

def pduConcat : ℕ := 0x0003
def timeStemp : ℕ := 0x0301
def fragSequence : ℕ := 0x0202
def extHeaderMaxNum : ℕ := 10

/-- `port_to_pkt_type` and `msg_type` values: `Pack_Type` and `FWD_L2_L1_MSG_Type`. -/
def islPack : ℕ := 3
def bbframePack : ℕ := 4
def enumFwdTxFwdData : ℕ := 6

def sizeofL2L1MsgHeader : ℕ := 24
def sizeofMacFrameHeader : ℕ := 14
def sizeofL2L1Header : ℕ := 32
def sizeofBbHeader : ℕ := 10
def sizeofIslHeader : ℕ := 11

end Fengtai
