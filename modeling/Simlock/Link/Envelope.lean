import Mathlib.Data.List.Basic
import Mathlib.Tactic.Linarith

/-! The binary messages of a link.

    Every channel message is an envelope: one type byte, the channel number as a big-endian 32-bit
    word, then the payload. `encodeEnvelope` writes it and `parseEnvelope` reads it back; the two are
    inverse on every number that fits 32 bits. `OPEN` carries the channel id as UTF-8, `CREDIT` a
    32-bit amount, `RESET` a reason code.

        byte 0     bytes 1..4          bytes 5..
        type       channel number      payload -/

namespace Simlock.Link

abbrev Bytes := List UInt8

def KIB : Nat := 1024
def maxDataBytes : Nat := 64 * KIB
def channelWindow : Nat := 4 * KIB * KIB
def maxChannelNumber : Nat := 0xffffffff

inductive EnvelopeType where
  | OPEN | DATA | END | STOP | CREDIT | RESET
  deriving DecidableEq, Repr

/-- The `ENVELOPE` table. -/
def EnvelopeType.code : EnvelopeType → UInt8
  | .OPEN => 1
  | .DATA => 2
  | .END => 3
  | .STOP => 4
  | .CREDIT => 5
  | .RESET => 6

inductive ResetReason where
  | aborted | stalled | notAccepted | invalid
  deriving DecidableEq, Repr

/-- The `RESET_CODES` table. -/
def ResetReason.code : ResetReason → UInt8
  | .aborted => 1
  | .stalled => 2
  | .notAccepted => 3
  | .invalid => 4

/-- `DataView.setUint32`: the four big-endian bytes of `n`, taken modulo `2 ^ 32`. -/
def setUint32 (n : Nat) : Bytes :=
  [UInt8.ofNat (n / 2 ^ 24), UInt8.ofNat (n / 2 ^ 16), UInt8.ofNat (n / 2 ^ 8), UInt8.ofNat n]

/-- `DataView.getUint32` at the head of `bytes`; missing bytes read as 0. -/
def getUint32 (bytes : Bytes) : Nat :=
  (bytes.getD 0 0).toNat * 2 ^ 24 + (bytes.getD 1 0).toNat * 2 ^ 16 +
    (bytes.getD 2 0).toNat * 2 ^ 8 + (bytes.getD 3 0).toNat

def headerBytes : Nat := 5

/-- A message before it is turned into bytes. -/
structure Envelope where
  type : EnvelopeType
  number : Nat
  payload : Bytes
  deriving DecidableEq, Repr

def encodeEnvelope (type : EnvelopeType) (number : Nat) (payload : Bytes) : Bytes :=
  type.code :: (setUint32 number ++ payload)

def Envelope.bytes (e : Envelope) : Bytes := encodeEnvelope e.type e.number e.payload

/-- `encodeCredit`, as the envelope whose bytes it returns. -/
def encodeCredit (number amount : Nat) : Envelope := ⟨.CREDIT, number, setUint32 amount⟩

/-- `encodeReset`, as the envelope whose bytes it returns. -/
def encodeReset (number : Nat) (reason : ResetReason) : Envelope := ⟨.RESET, number, [reason.code]⟩

structure ParsedEnvelope where
  type : UInt8
  number : Nat
  payload : Bytes
  deriving DecidableEq, Repr

def parseEnvelope (bytes : Bytes) : Option ParsedEnvelope :=
  if bytes.length < headerBytes then none
  else some ⟨bytes.getD 0 0, getUint32 (bytes.drop 1), bytes.drop headerBytes⟩

/-- `isEnvelopeType`, with the type the code stands for. -/
def isEnvelopeType (type : UInt8) : Option EnvelopeType :=
  [.OPEN, .DATA, .END, .STOP, .CREDIT, .RESET].find? (fun t => t.code = type)

def parseCredit (payload : Bytes) : Option Nat :=
  if payload.length ≠ 4 then none else some (getUint32 payload)

def parseResetReason (payload : Bytes) : Option ResetReason :=
  [.aborted, .stalled, .notAccepted, .invalid].find? (fun r => payload.head? = some r.code)

/-- A character of the class `[A-Za-z0-9-]`. -/
def isChannelIdChar (c : Char) : Bool :=
  ('A' ≤ c && c ≤ 'Z') || ('a' ≤ c && c ≤ 'z') || ('0' ≤ c && c ≤ '9') || c == '-'

/-- `/^[A-Za-z0-9-]{1,32}$/`. -/
def isChannelId (id : String) : Bool :=
  1 ≤ id.toList.length && id.toList.length ≤ 32 && id.toList.all isChannelIdChar

/-- `new TextEncoder().encode(id)` for an id of `isChannelId`, whose characters are one byte each. -/
def encodeId (id : String) : Bytes := id.toList.map (fun c => UInt8.ofNat c.toNat)

/-- The characters of a payload that is read as UTF-8. A byte above 127 decodes to a character
    outside `[A-Za-z0-9-]`, whatever follows it, so reading it as itself decides the same ids. -/
def decodeChars (payload : Bytes) : List Char := payload.map (fun b => Char.ofNat b.toNat)

/-- `parseChannelId`: `TextDecoder` drops a leading byte order mark. -/
def parseChannelId (payload : Bytes) : Option String :=
  let text := if [0xEF, 0xBB, 0xBF].isPrefixOf payload then payload.drop 3 else payload
  let id := String.ofList (decodeChars text)
  if isChannelId id then some id else none

/-- The UTF-8 length of a text, one to four bytes a character. -/
def utf8Length (text : String) : Nat := text.utf8ByteSize

/-! ### Reading back what was written -/

theorem getUint32_setUint32 (n : Nat) (h : n < 2 ^ 32) (rest : Bytes) :
    getUint32 (setUint32 n ++ rest) = n := by
  simp only [getUint32, setUint32, List.cons_append, List.nil_append, List.getD_cons_zero,
    List.getD_cons_succ, UInt8.toNat_ofNat']
  omega

theorem isEnvelopeType_code (t : EnvelopeType) : isEnvelopeType t.code = some t := by
  cases t <;> decide

theorem parseResetReason_code (r : ResetReason) : parseResetReason [r.code] = some r := by
  cases r <;> decide

theorem parseCredit_setUint32 (n : Nat) (h : n < 2 ^ 32) : parseCredit (setUint32 n) = some n := by
  have hget := getUint32_setUint32 n h []
  rw [List.append_nil] at hget
  have hlen : (setUint32 n).length = 4 := rfl
  simp [parseCredit, hget, hlen]

/-- An envelope whose number fits 32 bits is read back as it was written. -/
theorem parseEnvelope_bytes (e : Envelope) (h : e.number < 2 ^ 32) :
    parseEnvelope e.bytes = some ⟨e.type.code, e.number, e.payload⟩ := by
  have hget := getUint32_setUint32 e.number h e.payload
  have hlen : ¬ (e.type.code :: (setUint32 e.number ++ e.payload)).length < headerBytes := by
    simp [headerBytes, setUint32]
  rw [Envelope.bytes, encodeEnvelope, parseEnvelope, if_neg hlen]
  simp only [List.getD_cons_zero, List.drop_succ_cons, List.drop_zero, hget]
  simp [headerBytes, setUint32]

theorem isChannelIdChar_toNat {c : Char} (h : isChannelIdChar c = true) : c.toNat < 128 := by
  simp only [isChannelIdChar, Bool.or_eq_true, Bool.and_eq_true, decide_eq_true_eq,
    beq_iff_eq] at h
  simp only [Char.le_def, UInt32.le_iff_toNat_le] at h
  rcases h with ((h | h) | h) | h
  · exact lt_of_le_of_lt h.2 (by decide)
  · exact lt_of_le_of_lt h.2 (by decide)
  · exact lt_of_le_of_lt h.2 (by decide)
  · subst h; decide

theorem decodeChars_encode {cs : List Char} (h : cs.all isChannelIdChar = true) :
    decodeChars (cs.map (fun c => UInt8.ofNat c.toNat)) = cs := by
  induction cs with
  | nil => rfl
  | cons c cs ih =>
    simp only [List.all_cons, Bool.and_eq_true] at h
    have hc := isChannelIdChar_toNat h.1
    have hmod : c.toNat % 256 = c.toNat := Nat.mod_eq_of_lt (by omega)
    simp only [decodeChars, List.map_cons, UInt8.toNat_ofNat'] at ih ⊢
    rw [ih h.2]
    simp [hmod]

theorem encodeId_noMark {cs : List Char} (h : cs.all isChannelIdChar = true) :
    [(0xEF : UInt8), 0xBB, 0xBF].isPrefixOf (cs.map (fun c => UInt8.ofNat c.toNat)) = false := by
  cases cs with
  | nil => rfl
  | cons c cs =>
    simp only [List.all_cons, Bool.and_eq_true] at h
    have hc := isChannelIdChar_toNat h.1
    have hne : (0xEF : UInt8) ≠ UInt8.ofNat c.toNat := by
      intro heq
      have := congrArg UInt8.toNat heq
      rw [UInt8.toNat_ofNat'] at this
      simp at this
      omega
    simp [List.isPrefixOf, hne]

/-- A channel id is read back from the payload of its `OPEN`. -/
theorem parseChannelId_encodeId {id : String} (h : isChannelId id = true) :
    parseChannelId (encodeId id) = some id := by
  have hall : id.toList.all isChannelIdChar = true := by
    simp only [isChannelId, Bool.and_eq_true] at h
    exact h.2
  simp [parseChannelId, encodeId, encodeId_noMark hall, decodeChars_encode hall, h]

end Simlock.Link
