import Simlock.Core.Domain
import Simlock.Core.Json

/-! A tunnel socket's HELLO.

    The holder names up to eight tunnels in one JSON payload. It is wire input, so its size and shape
    are checked before any of it is used, then its count and ports, then what the lease's device can
    carry; what fails is refused with a code and a text. -/

namespace Simlock.Tunnels

open Core (Platform Json payloadOf)

inductive PortKind where
  | reverse | forward
  deriving DecidableEq, Repr

/-- A tunnel by device port, or the emulator port `adb`, the only one that has a name. -/
inductive Tunnel where
  | port (kind : PortKind) (devicePort : Int)
  | emulator
  deriving DecidableEq, Repr

structure Refusal where
  code : String
  message : String
  deriving DecidableEq, Repr

/-- A frame's payload: how long it is and what `JSON.parse` makes of it. -/
structure HelloPayload where
  length : Nat
  parsed : Option Json

/-- What a driver says about the lease's device. -/
structure Device where
  platform : Platform
  physical : Bool
  supports : Bool
  supportsEmulatorPort : Bool
  deriving DecidableEq, Repr

def helloMaxBytes : Nat := 4096
def maxTunnels : Nat := 8
def minDevicePort : Int := 1024
def maxDevicePort : Int := 65535

def field (value : Option Json) (name : String) : Option Json := (payloadOf value).field name

def badTunnel : String := "HELLO tunnels must each be \x7bkind, devicePort\x7d"

/-- `typeof devicePort === "number" && Number.isInteger(devicePort)`. -/
def parsePort (kind : PortKind) : Option Json → Except String Tunnel
  | some (.number n) => if n.den = 1 then .ok (.port kind n.num) else .error badTunnel
  | _ => .error badTunnel

def parseTunnel (entry : Json) : Except String Tunnel :=
  match field (some entry) "kind" with
  | some (.string "emulator") =>
    match field (some entry) "emulatorPort" with
    | some (.string "adb") => .ok .emulator
    | _ => .error "HELLO emulator tunnels must name the port adb"
  | some (.string "reverse") => parsePort .reverse (field (some entry) "devicePort")
  | some (.string "forward") => parsePort .forward (field (some entry) "devicePort")
  | _ => .error badTunnel

/-- The entries in their order; the first that is wrong is the answer. -/
def parseTunnels : List Json → Except String (List Tunnel)
  | [] => .ok []
  | entry :: entries =>
    match parseTunnel entry with
    | .error message => .error message
    | .ok tunnel =>
      match parseTunnels entries with
      | .error message => .error message
      | .ok tunnels => .ok (tunnel :: tunnels)

def parseHello (payload : HelloPayload) : Except String (List Tunnel) :=
  if helloMaxBytes < payload.length then
    .error s!"HELLO is longer than {helloMaxBytes} bytes"
  else
    match payload.parsed with
    | none => .error "HELLO is not valid JSON"
    | some parsed =>
      match field (some parsed) "tunnels" with
      | some (.array (entry :: entries)) => parseTunnels (entry :: entries)
      | _ => .error "HELLO must name 1 to 8 tunnels"

def kindName : PortKind → String
  | .reverse => "reverse"
  | .forward => "forward"

/-- The first port that is out of range. -/
def badPort : List Tunnel → Option Refusal
  | [] => none
  | .emulator :: tunnels => badPort tunnels
  | .port kind devicePort :: tunnels =>
    if devicePort < minDevicePort ∨ maxDevicePort < devicePort then
      some { code := "TUNNEL_BAD_PORT"
             message := s!"{kindName kind} {devicePort}: device ports are {minDevicePort} to " ++
               s!"{maxDevicePort}" }
    else badPort tunnels

def refusal (tunnels : List Tunnel) (held : Int) : Option Refusal :=
  if (maxTunnels : Int) < held + tunnels.length then
    some { code := "TUNNEL_LIMIT"
           message := s!"the lease already has {held} tunnels; at most {maxTunnels}" }
  else badPort tunnels

def unsupportedTunnelMessage : Platform → Bool → String
  | .ios, false => "the lease is on an iOS simulator; this worker's iOS driver takes no tunnels"
  | .ios, true =>
    "the lease is on an iPhone; tunnels need an Android emulator or phone, or an iOS simulator"
  | .android, _ =>
    "the lease is on a android device; tunnels need an Android emulator or phone, or an iOS simulator"

def emulatorNoun : Platform → Bool → String
  | .ios, true => "an iPhone"
  | .ios, false => "an iOS simulator"
  | .android, true => "an Android phone"
  | .android, false => "a android device"

def unsupportedEmulatorPortMessage (name : String) (platform : Platform) (physical : Bool) :
    String :=
  s!"emulator {name}: the lease is on {emulatorNoun platform physical}; emulator ports need an " ++
    "Android emulator"

def isEmulator : Tunnel → Bool
  | .emulator => true
  | .port _ _ => false

/-- What the device cannot carry of the tunnels. -/
def unsupported (device : Device) (tunnels : List Tunnel) : Option Refusal :=
  if (tunnels.any fun tunnel => !isEmulator tunnel) ∧ device.supports = false then
    some { code := "TUNNEL_UNSUPPORTED"
           message := unsupportedTunnelMessage device.platform device.physical }
  else if tunnels.any isEmulator ∧ device.supportsEmulatorPort = false then
    some { code := "TUNNEL_UNSUPPORTED"
           message := unsupportedEmulatorPortMessage "adb" device.platform device.physical }
  else none

/-- Every check of a HELLO, in its order, with `held` tunnels counted against the lease. -/
def checkHello (device : Device) (held : Int) (payload : HelloPayload) :
    Except Refusal (List Tunnel) :=
  match parseHello payload with
  | .error message => .error { code := "BAD_REQUEST", message }
  | .ok tunnels =>
    match refusal tunnels held with
    | some refused => .error refused
    | none =>
      match unsupported device tunnels with
      | some refused => .error refused
      | none => .ok tunnels

/-! ### What an accepted HELLO names -/

theorem parseTunnels_length {entries : List Json} {tunnels : List Tunnel}
    (h : parseTunnels entries = .ok tunnels) : tunnels.length = entries.length := by
  induction entries generalizing tunnels with
  | nil =>
    cases h
    rfl
  | cons entry entries ih =>
    simp only [parseTunnels] at h
    split at h
    · cases h
    · split at h
      · cases h
      · rename_i hrest
        cases h
        simp [ih hrest]

theorem parseHello_pos {payload : HelloPayload} {tunnels : List Tunnel}
    (h : parseHello payload = .ok tunnels) : 0 < tunnels.length := by
  unfold parseHello at h
  split at h
  · cases h
  · split at h
    · cases h
    · split at h
      · rw [parseTunnels_length h]
        simp
      · cases h

theorem refusal_none {tunnels : List Tunnel} {held : Int} (h : refusal tunnels held = none) :
    held + tunnels.length ≤ maxTunnels := by
  unfold refusal at h
  split at h
  · cases h
  · omega

/-- An accepted HELLO names at least one tunnel and fits the lease's limit. -/
theorem checkHello_ok {device : Device} {held : Int} {payload : HelloPayload}
    {tunnels : List Tunnel} (h : checkHello device held payload = .ok tunnels) :
    0 < tunnels.length ∧ held + tunnels.length ≤ maxTunnels := by
  unfold checkHello at h
  split at h
  · cases h
  · rename_i named hnamed
    split at h
    · cases h
    · rename_i hfits
      split at h
      · cases h
      · cases h
        exact ⟨parseHello_pos hnamed, refusal_none hfits⟩

end Simlock.Tunnels
