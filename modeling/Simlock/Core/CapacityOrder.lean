import Simlock.Core.Capacity
import Mathlib.Data.List.Forall2

/-! A lighter load is refused nothing that a heavier one is granted.

    Two lists of devices are compared entry by entry: a lighter device is of the same platform and
    takes no slot and no byte that the heavier one does not take. Every check of a strategy then
    goes the same way, and the reservations, which stand in both lists, do not matter. -/

namespace Simlock.Core

/-- What a device adds to the RAM in use. -/
def ResourceStrategyOptions.bytesUsed (options : ResourceStrategyOptions) (d : CapacityDevice) :
    Nat :=
  if d.state = .registered .deleted ∨ d.state = .registered .shutdown then 0
  else options.bytesPerDevice d.toPlannedCapacityDevice

/-- The device takes nothing that the other does not. -/
structure Lighter (d' d : CapacityDevice) : Prop where
  platform : d'.platform = d.platform
  active : d.state = .registered .deleted → d'.state = .registered .deleted
  bytes : ∀ options : ResourceStrategyOptions, options.bytesUsed d' ≤ options.bytesUsed d

theorem Lighter.refl (d : CapacityDevice) : Lighter d d := ⟨rfl, id, fun _ => Nat.le_refl _⟩

section Load

variable {devices devices' : List CapacityDevice}

theorem usedBytes_cons (options : ResourceStrategyOptions) (d : CapacityDevice) :
    options.usedBytes (d :: devices) = options.bytesUsed d + options.usedBytes devices := by
  simp only [ResourceStrategyOptions.usedBytes, ResourceStrategyOptions.bytesUsed, activeDevices]
  by_cases hdeleted : d.state = .registered .deleted
  · simp [hdeleted]
  · by_cases hshutdown : d.state = .registered .shutdown
    · simp [hshutdown]
    · simp [hdeleted, hshutdown]

theorem usedBytes_mono (options : ResourceStrategyOptions)
    (h : List.Forall₂ Lighter devices' devices) :
    options.usedBytes devices' ≤ options.usedBytes devices := by
  induction h with
  | nil => exact Nat.le_refl _
  | cons hd _ ih =>
    rw [usedBytes_cons, usedBytes_cons]
    exact Nat.add_le_add (hd.bytes options) ih

theorem activeOf_mono (platform : Platform) (h : List.Forall₂ Lighter devices' devices) :
    ((activeDevices devices').filter fun d => d.platform = platform).length ≤
      ((activeDevices devices).filter fun d => d.platform = platform).length := by
  simp only [activeDevices, List.filter_filter, ← List.countP_eq_length_filter]
  induction h with
  | nil => exact Nat.le_refl _
  | @cons d' d _ _ hd _ ih =>
    rw [List.countP_cons, List.countP_cons]
    have hactive := hd.active
    have hplatform := hd.platform
    by_cases hdeleted : d.state = .registered .deleted
    · simpa [hdeleted, hactive hdeleted] using ih
    · refine Nat.add_le_add ih ?_
      by_cases hof : d.platform = platform
      · simp only [hdeleted, hof, decide_true, ne_eq, not_false_eq_true, Bool.and_true, if_true]
        split <;> omega
      · simp [hof, hplatform]

variable {strategy : CapacityStrategy}

theorem withinDeviceLimit_mono {platform : Platform} {limits : CapacityLimits}
    (h : List.Forall₂ Lighter devices' devices)
    (hwithin : withinDeviceLimit platform devices limits = true) :
    withinDeviceLimit platform devices' limits = true := by
  have hle := activeOf_mono platform h
  simp only [withinDeviceLimit, decide_eq_true_eq] at hwithin ⊢
  omega

theorem canProvision_mono {device : PlannedCapacityDevice}
    (h : List.Forall₂ Lighter devices' devices)
    (hcan : strategy.canProvision device devices = none) :
    strategy.canProvision device devices' = none := by
  cases strategy with
  | fixed options =>
    simp only [CapacityStrategy.canProvision] at hcan ⊢
    split at hcan
    · rw [if_pos (withinDeviceLimit_mono h ‹_›)]
    · cases hcan
  | resource options totalRamBytes =>
    have hbytes := canProvision_bytes hcan
    simp only [CapacityStrategy.canProvision] at hcan ⊢
    split at hcan
    · cases hcan
    · rename_i hwithin
      rw [Bool.not_eq_true, Bool.not_eq_false'] at hwithin
      have hused := usedBytes_mono options h
      rw [withinDeviceLimit_mono h hwithin, Bool.not_true, if_neg (by decide), if_neg (by omega)]

theorem canBoot_mono {device : CapacityDevice} (h : List.Forall₂ Lighter devices' devices)
    (hcan : strategy.canBoot device devices = none) :
    strategy.canBoot device devices' = none := by
  cases strategy with
  | fixed options => rfl
  | resource options totalRamBytes =>
    have hused := usedBytes_mono options h
    simp only [CapacityStrategy.canBoot] at hcan ⊢
    generalize (if device.state = .registered .shutdown then _ else _ : Int) = extraBytes
      at hcan ⊢
    split at hcan
    · rename_i hnothing
      rw [if_pos hnothing]
    · rename_i hextra
      split at hcan
      · cases hcan
      · rw [if_neg hextra, if_neg (by omega)]

end Load

/-! ### What a refusal has found -/

section Refusal

variable {c : CapacityCoordinator} {strategy : CapacityStrategy} {paused : Bool} {token : Nat}
  {devices : List CapacityDevice} {reason : CapacityRefusalReason}

/-- The refusal is for a running slot. -/
def CapacityRefusalReason.ofRunning (reason : CapacityRefusalReason) : Prop :=
  reason = .globalRunningLimit ∨ reason = .platformRunningLimit

theorem canProvision_not_running {device : PlannedCapacityDevice}
    (h : strategy.canProvision device devices = some reason) : ¬ reason.ofRunning := by
  cases strategy with
  | fixed options =>
    simp only [CapacityStrategy.canProvision] at h
    split at h <;> cases h
    rintro (h | h) <;> cases h
  | resource options totalRamBytes =>
    simp only [CapacityStrategy.canProvision] at h
    split at h
    · cases h
      rintro (h | h) <;> cases h
    · split at h <;> cases h
      rintro (h | h) <;> cases h

theorem canBoot_not_running {device : CapacityDevice}
    (h : strategy.canBoot device devices = some reason) : ¬ reason.ofRunning := by
  cases strategy with
  | fixed options => cases h
  | resource options totalRamBytes =>
    simp only [CapacityStrategy.canBoot] at h
    generalize (if device.state = .registered .shutdown then _ else _ : Int) = extraBytes at h
    split at h
    · cases h
    · split at h <;> cases h
      rintro (h | h) <;> cases h

/-- Everything but the running slot was granted. -/
theorem tryReserveProvisioning_running {device : PlannedCapacityDevice}
    (h : c.tryReserveProvisioning strategy paused token device devices = .error reason)
    (hrunning : reason.ofRunning) :
    paused = false ∧ strategy.canProvision device (c.withReservations devices) = none := by
  rw [CapacityCoordinator.tryReserveProvisioning] at h
  split at h
  · cases h
    rcases hrunning with h | h <;> cases h
  · rename_i hpaused
    split at h
    · rename_i hcan
      cases h
      exact absurd hrunning (canProvision_not_running hcan)
    · exact ⟨Bool.not_eq_true _ ▸ hpaused, ‹_›⟩

theorem tryReserveBoot_running {id : String} {device : CapacityDevice}
    (h : c.tryReserveBoot strategy paused token id device devices = .error reason)
    (hrunning : reason.ofRunning) :
    paused = false ∧ strategy.canBoot device (c.withReservations devices) = none := by
  rw [CapacityCoordinator.tryReserveBoot] at h
  split at h
  · cases h
    rcases hrunning with h | h <;> cases h
  · rename_i hpaused
    split at h
    · rename_i hcan
      cases h
      exact absurd hrunning (canBoot_not_running hcan)
    · exact ⟨Bool.not_eq_true _ ▸ hpaused, ‹_›⟩

end Refusal

end Simlock.Core
