import Mathlib.Data.List.Basic
import Mathlib.Logic.Function.Basic

/-! Claims on devices: one operation at a time has a device.

    A claim is an object of its own, told apart from its equals by its token. Giving back a claim
    that no longer holds its device does nothing. -/

namespace Simlock.Core

inductive DeviceOperation where
  | boot | eviction | cleanup | nuke | recovery | reclaim | enrollment | grant
  deriving DecidableEq, Repr

structure DeviceOperationClaim where
  deviceId : String
  operation : DeviceOperation
  owner : Option String
  token : Nat
  deriving DecidableEq, Repr

/-- The claim that holds each device, if one does. -/
structure DeviceOperationClaims where
  held : String → Option DeviceOperationClaim

namespace DeviceOperationClaims

variable (claims : DeviceOperationClaims)

def empty : DeviceOperationClaims := ⟨fun _ => none⟩

/-- What holds the device and for whom. -/
def claim (deviceId : String) : Option (DeviceOperation × Option String) :=
  (claims.held deviceId).map fun held => (held.operation, held.owner)

def isClaimed (deviceId : String) : Bool := (claims.held deviceId).isSome

/-- The claims with one more. -/
def take (claim : DeviceOperationClaim) : DeviceOperationClaims :=
  ⟨Function.update claims.held claim.deviceId (some claim)⟩

/-- `none` when the device is claimed already. -/
def tryClaim (claim : DeviceOperationClaim) : Option DeviceOperationClaims :=
  if claims.isClaimed claim.deviceId then none else some (claims.take claim)

def release (claim : DeviceOperationClaim) : DeviceOperationClaims :=
  if claims.held claim.deviceId = some claim then
    ⟨Function.update claims.held claim.deviceId none⟩
  else claims

variable {claims} {claim : DeviceOperationClaim}

theorem tryClaim_of_free (h : claims.isClaimed claim.deviceId = false) :
    claims.tryClaim claim = some (claims.take claim) := by simp [tryClaim, h]

theorem tryClaim_some {after : DeviceOperationClaims} (h : claims.tryClaim claim = some after) :
    claims.isClaimed claim.deviceId = false ∧ after = claims.take claim := by
  rw [tryClaim] at h
  split at h
  · cases h
  · rename_i hfree
    exact ⟨Bool.not_eq_true _ ▸ hfree, (Option.some.inj h).symm⟩

/-- A claim on a free device, given back, leaves nothing behind. -/
theorem release_take (h : claims.isClaimed claim.deviceId = false) :
    (claims.take claim).release claim = claims := by
  have hnone : claims.held claim.deviceId = none := by simpa [isClaimed] using h
  simp [release, take, ← hnone]

end DeviceOperationClaims

end Simlock.Core
