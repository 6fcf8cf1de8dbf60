import Mathlib.Data.Rat.Floor
import Simlock.Core.Domain
import Simlock.Core.Json

/-! What an event carries.

    A payload is untrusted JSON: a relayed one is a worker's claim. The readers below take one field
    of it and answer nothing when it is absent or of another shape, so that whatever a payload holds
    the projector sees a bounded string, an amount or one of the known names. -/

namespace Simlock.History

open Core (Platform Json Payload payloadOf)

def maxString : Nat := 200

def maxSafeInteger : ℚ := 9007199254740991

def utf16Units (c : Char) : Nat := if c.toNat < 0x10000 then 1 else 2

/-- `value.slice(0, n)`: a string is counted in UTF-16 units. -/
def slice : Nat → List Char → List Char
  | _, [] => []
  | n, c :: cs => if utf16Units c ≤ n then c :: slice (n - utf16Units c) cs else []

def text : Option Json → Option String
  | some (.string s) => if s = "" then none else some (String.ofList (slice maxString s.toList))
  | _ => none

/-- `amount` of a value known to be a number. -/
def amountOf (n : ℚ) : Option ℚ := if n < 0 then none else if n ≤ maxSafeInteger then some n else none

def amount : Option Json → Option ℚ
  | some (.number n) => amountOf n
  | _ => none

/-- `allowed` gives every allowed name with the value it stands for. -/
def oneOf {α : Type} (value : Option Json) (allowed : List (String × α)) : Option α :=
  match value with
  | some (.string s) => (allowed.find? (fun e => e.1 = s)).map Prod.snd
  | _ => none

/-- `lease.granted`'s source. -/
inductive LeaseSource where
  | warm | booted | provisioned
  deriving DecidableEq, Repr

inductive EndReason where
  | explicit | killed | deviceLost | expired
  deriving DecidableEq, Repr

def platforms : List (String × Platform) := [("ios", .ios), ("android", .android)]

def sources : List (String × LeaseSource) :=
  [("warm", .warm), ("booted", .booted), ("provisioned", .provisioned)]

def endReasons : List (String × EndReason) :=
  [("explicit", .explicit), ("killed", .killed), ("device-lost", .deviceLost),
    ("expired", .expired)]

structure Spec where
  platform : Option Platform
  model : Option String
  deriving DecidableEq, Repr

def specOf (value : Option Json) : Spec :=
  let spec := payloadOf value
  { model := text (spec.field "model"), platform := oneOf (spec.field "platform") platforms }

/-- The events the projector knows; it ignores every other one. -/
inductive EventName where
  | leaseRequested | leaseRejected | leaseDeclined | requestGranted
  | leaseGranted | leaseReleased | leaseExpired
  | capacityChanged | queueChanged
  | daemonStopping | daemonStarted
  | workerDisconnected
  | deviceProvisioned | deviceQuarantineAbandoned | deviceQuarantineRecovered
  | deviceQuarantineStranded | deviceQuarantined | deviceReady | deviceRecovered
  | deviceRecoveryFailed
  | other (name : String)
  deriving DecidableEq, Repr

structure EventEnvelope where
  seq : Nat
  timestamp : ℚ
  event : EventName
  payload : Option Json

end Simlock.History
