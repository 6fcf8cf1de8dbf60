import Simlock.Core.Registry
import Simlock.Lib.Evict

/-! What the store of lease requests keeps when one is added, settled or pruned.

    Adding a request prunes the settled records that have expired, takes out the oldest settled ones
    that are beyond the maximum, and appends the new one. Open records are never taken out, so they
    alone may fill the list past the maximum. Settling writes one open record, and a record it wrote
    is not written again. -/

namespace Simlock.Core

open Simlock.Lib

section Requests

variable {records : List (Obj LeaseRequestRecord)} {now : Int} {o : RegistryOptions}

def isOpen (x : Obj LeaseRequestRecord) : Bool := !isSettled x.val

/-- Settled, and out of its retention. -/
def HasExpired (now retentionMs : Int) (x : Obj LeaseRequestRecord) : Prop :=
  isSettled x.val = true ∧ x.val.settledAt.getD now + retentionMs ≤ now

/-- What adding a request makes of the records. -/
structure AddedWithin (records result : List (Obj LeaseRequestRecord)) (input : NewLeaseRequest)
    (now : Int) (o : RegistryOptions) : Prop where
  /-- Every open record stays, and the new one comes last. -/
  opens : result.filter isOpen = records.filter isOpen ++ [⟨newLeaseRequestRecord input now, true⟩]
  /-- What goes has expired, or is among the oldest settled records of those left, as many as are
      beyond the maximum; the rest keeps its order. -/
  drops : ∃ kept, kept.Sublist records ∧ (∀ x ∈ records, x ∈ kept ∨ HasExpired now o.retentionMs x) ∧
    result = withoutFirst (fun x => isSettled x.val) (kept.length + 1 - o.maxRecords) kept ++
      [⟨newLeaseRequestRecord input now, true⟩]
  bounded : result.length ≤ max o.maxRecords (result.countP isOpen)

/-- What settling a request makes of the records: one open record of the id is written. -/
structure SettledOnce (records result : List (Obj LeaseRequestRecord)) (id : String)
    (outcome : LeaseRequestOutcome) (now : Int) : Prop where
  one : ∃ front x back, records = front ++ x :: back ∧ x.val.id = id ∧ isSettled x.val = false ∧
    result = front ++ ⟨outcome.settle x.val now, true⟩ :: back
  once : ∀ outcome' now', withSettledLeaseRequest result id outcome' now' = none

/-! ### Retention -/

theorem isRetained_of_open {x : Obj LeaseRequestRecord} (retentionMs : Int)
    (h : isOpen x = true) : isRetained now retentionMs x.val = true := by
  simp only [isOpen] at h
  simp [isRetained, h]

theorem retained_opens (records : List (Obj LeaseRequestRecord)) (now retentionMs : Int) :
    (retainedLeaseRequests records now retentionMs).filter isOpen = records.filter isOpen := by
  unfold retainedLeaseRequests
  rw [List.filter_filter]
  refine List.filter_congr fun x _ => ?_
  cases hopen : isOpen x with
  | true => simp [isRetained_of_open retentionMs hopen]
  | false => rfl

theorem retained_or_expired {x : Obj LeaseRequestRecord} {retentionMs : Int} (h : x ∈ records) :
    x ∈ retainedLeaseRequests records now retentionMs ∨ HasExpired now retentionMs x := by
  by_cases hretained : isRetained now retentionMs x.val = true
  · exact .inl (List.mem_filter.mpr ⟨h, hretained⟩)
  · simp only [isRetained, Bool.or_eq_true, Bool.not_eq_true', decide_eq_true_eq, not_or,
      Bool.not_eq_false, Int.not_lt] at hretained
    exact .inr hretained

/-- The prune of a commit that purges a device. -/
theorem settled_opens (draft : Draft) (o : RegistryOptions) (now : Int) :
    (draft.settled o now).leaseRequests.filter isOpen = draft.leaseRequests.filter isOpen := by
  unfold Draft.settled
  dsimp only
  split
  · exact retained_opens draft.leaseRequests now o.retentionMs
  · rfl

/-! ### Eviction -/

/-- The loop takes out the oldest settled records, as many as are beyond the maximum. -/
theorem evictSettled_eq (maxRecords fuel : Nat) (kept : List (Obj LeaseRequestRecord))
    (hfuel : kept.length ≤ fuel) : evictSettled maxRecords fuel kept =
      withoutFirst (fun x => isSettled x.val) (kept.length + 1 - maxRecords) kept := by
  induction fuel generalizing kept with
  | zero =>
    rw [List.length_eq_zero_iff.mp (Nat.le_zero.mp hfuel)]
    simp [evictSettled]
  | succ fuel ih =>
    rw [evictSettled]
    split
    · rename_i hroom
      rw [show kept.length + 1 - maxRecords = 0 by omega, withoutFirst_zero]
    · rename_i hfull
      cases hfind : kept.findIdx? (fun x => isSettled x.val) with
      | none =>
        have hnone : ∀ x ∈ kept, isSettled x.val = false := fun x hx =>
          List.findIdx?_eq_none_iff.mp hfind x hx
        exact (withoutFirst_of_none hnone _).symm
      | some i =>
        have herase : kept.eraseP (fun x => isSettled x.val) = kept.eraseIdx i := by
          rw [List.eraseP_eq_eraseIdx, hfind]
        obtain ⟨hi, -⟩ := List.findIdx?_eq_some_iff_getElem.mp hfind
        have hlength := List.length_eraseIdx_of_lt hi
        have hone : kept.length + 1 - maxRecords = kept.length - 1 + 1 - maxRecords + 1 := by
          omega
        dsimp only
        rw [ih _ (by omega), hlength, ← herase, hone, withoutFirst_succ]

theorem withNewLeaseRequest_addedWithin (records : List (Obj LeaseRequestRecord))
    (input : NewLeaseRequest) (now : Int) (o : RegistryOptions) :
    AddedWithin records (withNewLeaseRequest records (newLeaseRequestRecord input now) now o) input
      now o := by
  have heq : withNewLeaseRequest records (newLeaseRequestRecord input now) now o =
      withoutFirst (fun x => isSettled x.val)
        ((retainedLeaseRequests records now o.retentionMs).length + 1 - o.maxRecords)
        (retainedLeaseRequests records now o.retentionMs) ++
      [⟨newLeaseRequestRecord input now, true⟩] := by
    unfold withNewLeaseRequest
    dsimp only
    rw [evictSettled_eq _ _ _ (Nat.le_refl _)]
  have hopens := retained_opens records now o.retentionMs
  rw [heq]
  generalize hkept : retainedLeaseRequests records now o.retentionMs = kept at hopens ⊢
  have hfilter : (withoutFirst (fun x => isSettled x.val) (kept.length + 1 - o.maxRecords)
      kept).filter isOpen = records.filter isOpen :=
    (filter_not_withoutFirst _ _).trans hopens
  refine ⟨?_, ⟨kept, ?_, ?_, rfl⟩, ?_⟩
  · rw [List.filter_append, hfilter]
    rfl
  · rw [← hkept]
    exact List.filter_sublist
  · intro x hx
    rw [← hkept]
    exact retained_or_expired hx
  · have hlength := length_withoutFirst (p := fun x : Obj LeaseRequestRecord => isSettled x.val)
      (kept.length + 1 - o.maxRecords) kept
    have hsplit : kept.length = kept.countP (fun x => isSettled x.val) + kept.countP isOpen := by
      rw [List.length_eq_countP_add_countP fun x => isSettled x.val]
      exact congrArg _ (List.countP_congr fun x _ => by simp [isOpen])
    have hcount : (withoutFirst (fun x => isSettled x.val) (kept.length + 1 - o.maxRecords)
        kept).countP isOpen = kept.countP isOpen := by
      rw [List.countP_eq_length_filter, List.countP_eq_length_filter, hfilter, hopens]
    rw [List.length_append, List.countP_append, hcount]
    have hnew : List.countP isOpen [⟨newLeaseRequestRecord input now, true⟩] = 1 := rfl
    rw [hnew, List.length_singleton]
    omega

/-! ### Settling -/

theorem replaceFirst_append {p : LeaseRequestRecord → Bool} {x : Obj LeaseRequestRecord}
    {front back : List (Obj LeaseRequestRecord)} (hfront : ∀ y ∈ front, p y.val = false)
    (hx : p x.val = true) (new : LeaseRequestRecord) :
    replaceFirst p new (front ++ x :: back) = front ++ ⟨new, true⟩ :: back := by
  induction front with
  | nil => simp [replaceFirst, hx]
  | cons y rest ih =>
    rw [List.cons_append, replaceFirst, hfront y (.head _), if_neg (by simp),
      ih fun z hz => hfront z (.tail _ hz), List.cons_append]

theorem withSettled_settledOnce {result : List (Obj LeaseRequestRecord)} {id : String}
    {outcome : LeaseRequestOutcome}
    (h : withSettledLeaseRequest records id outcome now = some result) :
    SettledOnce records result id outcome now := by
  unfold withSettledLeaseRequest at h
  cases hfind : records.find? (fun o => o.val.id = id) with
  | none =>
    rw [hfind] at h
    cases h
  | some x =>
    rw [hfind] at h
    dsimp only at h
    split at h
    · cases h
    · rename_i hopen
      obtain ⟨hid, front, back, rfl, hfront⟩ := List.find?_eq_some_iff_append.mp hfind
      have hfront' : ∀ y ∈ front, (fun r : LeaseRequestRecord => decide (r.id = id)) y.val =
          false := fun y hy => by simpa using hfront y hy
      have hid : x.val.id = id := by simpa using hid
      have hresult := Option.some.inj h
      rw [replaceFirst_append hfront' (by simp [hid])] at hresult
      subst hresult
      refine ⟨⟨front, x, back, rfl, hid, by simpa using hopen, rfl⟩, fun outcome' now' => ?_⟩
      -- the record that was just written is the one found again
      have hagain : (front ++ ⟨outcome.settle x.val now, true⟩ :: back).find?
          (fun o => o.val.id = id) = some ⟨outcome.settle x.val now, true⟩ := by
        have hkeeps : (outcome.settle x.val now).id = id := by cases outcome <;> exact hid
        exact List.find?_eq_some_iff_append.mpr ⟨decide_eq_true hkeeps, front, back, rfl, hfront⟩
      have hsettled : isSettled (outcome.settle x.val now) = true := by cases outcome <;> rfl
      unfold withSettledLeaseRequest
      rw [hagain]
      simp [hsettled]

end Requests

end Simlock.Core
