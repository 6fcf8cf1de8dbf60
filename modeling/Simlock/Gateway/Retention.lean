import Mathlib.Algebra.Order.Group.Nat
import Simlock.Gateway.WorkerDrains

/-! The sweep forgets only what its test allows, unless a worker it listed comes back.

    The test is made when the sweep lists the views. What it forgets after an await still meets it
    as long as none of the workers it listed connects, or has an unexpired lease read, before the
    sweep comes to it. -/

namespace Simlock.Uplink

open Lib

variable {ν : Type}

namespace WorkerRegistry

variable {o : RegistryOptions ν} {s : WorkerRegistry ν}

/-! ### What was read and when -/

/-- The leases kept beside a view are the last read, and a view is seen from its disconnection on. -/
structure Reads (s : WorkerRegistry ν) (g : Observed ν) : Prop where
  leases : ∀ id v l, s.view id = some v → v.field .leases = some l → s.lastLeases id = some l
  read : ∀ id v, s.view id = some v → g.read id = s.lastLeases id
  absent : ∀ id, s.view id = none → s.lastLeases id = none
  since : ∀ id v, s.view id = some v → v.connection = .disconnected → g.since id ≤ v.lastSeenAt
  seen : ∀ id v, s.view id = some v → v.lastSeenAt ≤ s.now

/-- The sweep's test reads the leases last read. -/
theorem Reads.tested {g : Observed ν} (h : Reads s g) {id : String} {v : WorkerView ν}
    (hview : s.view id = some v) : (v.field .leases).or (s.lastLeases id) = g.read id := by
  rw [h.read id v hview]
  cases hleases : v.field .leases with
  | none => rfl
  | some l => exact (h.leases id v l hview hleases).symm

/-- One view is set, with what was read of it. -/
theorem Reads.set {g g' : Observed ν} (h : Reads s g) {workerId : String} {v : WorkerView ν}
    {t : WorkerRegistry ν} (hworkers : t.workers = (s.set workerId v).workers) (hnow : t.now = s.now)
    (hkept : ∀ id, id ≠ workerId → t.lastLeases id = s.lastLeases id)
    (hother : ∀ id, id ≠ workerId → g'.read id = g.read id ∧ g'.since id = g.since id)
    (hleases : ∀ l, v.field .leases = some l → t.lastLeases workerId = some l)
    (hread : g'.read workerId = t.lastLeases workerId)
    (hsince : v.connection = .disconnected → g'.since workerId ≤ v.lastSeenAt)
    (hseen : v.lastSeenAt ≤ s.now) : Reads t g' := by
  have hview : ∀ id v', t.view id = some v' → (id = workerId ∧ v' = v) ∨
      (id ≠ workerId ∧ s.view id = some v') := fun id v' hv' => by
    rw [view_congr hworkers, view_set] at hv'
    split at hv'
    · rename_i hid
      exact .inl ⟨hid, (Option.some.inj hv').symm⟩
    · rename_i hid
      exact .inr ⟨hid, hv'⟩
  refine ⟨fun id v' l hv' hl => ?_, fun id v' hv' => ?_, fun id hnone => ?_, fun id v' hv' hd => ?_,
    fun id v' hv' => ?_⟩
  · rcases hview id v' hv' with ⟨rfl, rfl⟩ | ⟨hid, hv'⟩
    · exact hleases l hl
    · rw [hkept id hid, h.leases id v' l hv' hl]
  · rcases hview id v' hv' with ⟨rfl, rfl⟩ | ⟨hid, hv'⟩
    · exact hread
    · rw [(hother id hid).1, hkept id hid, h.read id v' hv']
  · rw [view_congr hworkers, view_set] at hnone
    split at hnone
    · cases hnone
    · rename_i hid
      rw [hkept id hid, h.absent id hnone]
  · rcases hview id v' hv' with ⟨rfl, rfl⟩ | ⟨hid, hv'⟩
    · exact hsince hd
    · rw [(hother id hid).2]
      exact h.since id v' hv' hd
  · rw [hnow]
    rcases hview id v' hv' with ⟨-, rfl⟩ | ⟨-, hv'⟩
    · exact hseen
    · exact h.seen id v' hv'

theorem Reads.forgetView {g : Observed ν} (h : Reads s g) (workerId : String) :
    Reads (s.forgetView workerId) g := by
  have hview : ∀ id v, (s.forgetView workerId).view id = some v →
      id ≠ workerId ∧ s.view id = some v := fun id v hv => by
    rw [view_forgetView] at hv
    split at hv
    · cases hv
    · rename_i hid
      exact ⟨hid, hv⟩
  have hkept : ∀ id, id ≠ workerId → (s.forgetView workerId).lastLeases id = s.lastLeases id :=
    fun id hid => Function.update_of_ne hid _ _
  refine ⟨fun id v l hv hl => ?_, fun id v hv => ?_, fun id hnone => ?_, fun id v hv => ?_,
    fun id v hv => ?_⟩
  · obtain ⟨hid, hv⟩ := hview id v hv
    rw [hkept id hid, h.leases id v l hv hl]
  · obtain ⟨hid, hv⟩ := hview id v hv
    rw [hkept id hid, h.read id v hv]
  · by_cases hid : id = workerId
    · rw [hid]
      exact Function.update_self ..
    · rw [view_forgetView, if_neg hid] at hnone
      rw [hkept id hid, h.absent id hnone]
  · exact h.since id v (hview id v hv).2
  · exact h.seen id v (hview id v hv).2

/-- The drains, the sweeps and the operator's actions are of no matter. -/
theorem Reads.congr {g g' : Observed ν} {t : WorkerRegistry ν} (h : Reads s g)
    (hworkers : t.workers = s.workers) (hlast : t.lastLeases = s.lastLeases) (hnow : s.now ≤ t.now)
    (hread : g'.read = g.read) (hsince : g'.since = g.since) : Reads t g' := by
  refine ⟨fun id v l hv => ?_, fun id v hv => ?_, fun id hv => ?_, fun id v hv => ?_,
    fun id v hv => ?_⟩
  all_goals rw [view_congr hworkers] at hv
  · rw [hlast]
    exact h.leases id v l hv
  · rw [hlast, hread]
    exact h.read id v hv
  · rw [hlast]
    exact h.absent id hv
  · rw [hsince]
    exact h.since id v hv
  · exact (h.seen id v hv).trans hnow

/-- A worker that connects has the view it had, or a new one with nothing read. -/
theorem Reads.made {g : Observed ν} (h : Reads s g) {workerId : String} {v : WorkerView ν}
    (hconnection : v.connection ≠ .disconnected) (hseen : v.lastSeenAt = s.now)
    (hleases : ∀ l, v.field .leases = some l →
      ∃ existing, s.view workerId = some existing ∧ existing.field .leases = some l) :
    Reads (s.set workerId v) (g.made workerId (s.view workerId)) := by
  refine h.set rfl rfl (fun _ _ => rfl) (fun id hid => ?_) (fun l hl => ?_) ?_
    (fun hd => absurd hd hconnection) hseen.le
  · unfold Observed.made
    split
    · exact ⟨rfl, rfl⟩
    · exact ⟨Function.update_of_ne hid _ _, rfl⟩
  · obtain ⟨existing, hview, hheld⟩ := hleases l hl
    exact h.leases workerId existing l hview hheld
  · unfold Observed.made
    match hview : s.view workerId with
    | some existing => exact h.read workerId existing hview
    | none => exact (Function.update_self ..).trans (h.absent workerId hview).symm

theorem Reads.connect {g : Observed ν} (h : Reads s g) (workerId : String)
    (label version : Option String) :
    Reads (s.connect workerId label version) (g.made workerId (s.view workerId)) := by
  refine h.made nofun rfl fun l hl => ?_
  exact Option.bind_eq_some_iff.1 hl

theorem Reads.markIncompatible {g : Observed ν} (h : Reads s g) (workerId : String)
    (label : Option String) (protocol : Protocol) (version : Option String) :
    Reads (s.markIncompatible workerId label protocol version) (g.made workerId (s.view workerId)) := by
  refine h.made nofun rfl fun l hl => ?_
  exact Option.bind_eq_some_iff.1 hl

theorem refresh_connection (v : WorkerView ν) (now : Nat) (r : WorkerRefresh ν) :
    (v.refresh now r).connection = v.connection := by
  unfold WorkerView.refresh WorkerView.without withoutReadFields WorkerView.without
  dsimp only
  split <;> (try split) <;> rfl

theorem refresh_lastSeenAt (v : WorkerView ν) (now : Nat) (r : WorkerRefresh ν) :
    (v.refresh now r).lastSeenAt = now := by
  unfold WorkerView.refresh WorkerView.without
  dsimp only
  split <;> (try split) <;> rfl

/-- A refresh has the leases it brings, or the ones the view had. -/
theorem refresh_leases {v : WorkerView ν} {now : Nat} {r : WorkerRefresh ν} {l : ν}
    (h : (v.refresh now r).field .leases = some l) :
    r.field .leases = some (some l) ∨ (r.field .leases = none ∧ v.field .leases = some l) := by
  have hwithout : ∀ w : WorkerView ν, (w.without [.load]).field .leases = w.field .leases :=
    fun w => by simp [WorkerView.without]
  have hfield : (v.refresh now r).field .leases = (r.field .leases).getD
      (((if r.starting then withoutReadFields v else v).without [.load]).field .leases) := by
    unfold WorkerView.refresh
    dsimp only
    by_cases hconnected :
        ((if r.starting then withoutReadFields v else v).without [.load]).connection = .connected
    · rw [if_pos hconnected]
    · rw [if_neg hconnected, hwithout]
  rw [hfield, hwithout] at h
  match hr : r.field .leases with
  | some read =>
    rw [hr, Option.getD_some] at h
    exact .inl (congrArg some h)
  | none =>
    rw [hr, Option.getD_none] at h
    refine .inr ⟨rfl, ?_⟩
    split at h
    · have hnone : (withoutReadFields v).field .leases = none := by
        simp [withoutReadFields, WorkerView.without, readFields]
      rw [hnone] at h
      cases h
    · exact h

theorem Reads.refresh {g : Observed ν} (h : Reads s g) (workerId : String) (r : WorkerRefresh ν) :
    Reads (s.refresh workerId r) (g.note s (.refresh workerId r)) := by
  unfold WorkerRegistry.refresh
  match hview : s.view workerId with
  | none =>
    have hnote : g.note s (.refresh workerId r) = g := by
      unfold Observed.note
      dsimp only
      rw [hview]
    rw [hnote]
    exact h
  | some v =>
    have hsince : ∀ g' : Observed ν, g'.since = g.since →
        (v.refresh s.now r).connection = .disconnected →
        g'.since workerId ≤ (v.refresh s.now r).lastSeenAt := fun g' hg' hd => by
      rw [refresh_connection] at hd
      rw [refresh_lastSeenAt, hg']
      exact (h.since workerId v hview hd).trans (h.seen workerId v hview)
    have hold : ∀ l, (v.refresh s.now r).field .leases = some l → r.field .leases = none →
        s.lastLeases workerId = some l := fun l hl hr => by
      rcases refresh_leases hl with hl | ⟨-, hl⟩
      · rw [hl] at hr
        cases hr
      · exact h.leases workerId v l hview hl
    unfold keepLastReads Observed.note
    dsimp only
    rw [hview]
    match hr : r.field .leases with
    | some (some leases) =>
      dsimp only
      refine h.set rfl rfl (fun id hid => Function.update_of_ne hid _ _)
        (fun id hid => ⟨Function.update_of_ne hid _ _, rfl⟩) (fun l hl => ?_) ?_ (hsince _ rfl)
        (refresh_lastSeenAt v s.now r).le
      · rcases refresh_leases hl with hl | ⟨hl, -⟩
        · rw [hr] at hl
          rw [← Option.some.inj (Option.some.inj hl)]
          exact Function.update_self ..
        · rw [hr] at hl
          cases hl
      · dsimp only
        rw [Function.update_self, Function.update_self]
    | some none =>
      refine h.set rfl rfl (fun _ _ => rfl) (fun _ _ => ⟨rfl, rfl⟩) (fun l hl => ?_)
        (h.read workerId v hview) (hsince _ rfl) (refresh_lastSeenAt v s.now r).le
      rcases refresh_leases hl with hl | ⟨hl, -⟩
      · rw [hr] at hl
        cases hl
      · rw [hr] at hl
        cases hl
    | none =>
      exact h.set rfl rfl (fun _ _ => rfl) (fun _ _ => ⟨rfl, rfl⟩) (fun l hl => hold l hl hr)
        (h.read workerId v hview) (hsince _ rfl) (refresh_lastSeenAt v s.now r).le

theorem disconnected_leases {v : WorkerView ν} {now : Nat} {l : ν}
    (h : (v.disconnected now).field .leases = some l) : v.field .leases = some l := by
  unfold WorkerView.disconnected at h
  split at h
  · exact h
  · unfold WorkerView.without at h
    dsimp only at h
    rwa [if_neg (by decide)] at h

theorem Reads.disconnect {g : Observed ν} (h : Reads s g) (workerId : String) :
    Reads (s.disconnect workerId) (g.note s (.disconnected workerId)) := by
  unfold WorkerRegistry.disconnect Observed.note
  dsimp only
  match hview : s.view workerId with
  | none =>
    rw [if_neg (by simp)]
    exact h
  | some v =>
    dsimp only
    have hleases : ∀ l, (v.disconnected s.now).field .leases = some l →
        s.lastLeases workerId = some l := fun l hl =>
      h.leases workerId v l hview (disconnected_leases hl)
    by_cases hconnected : v.connection ≠ .disconnected
    · have hseen : (v.disconnected s.now).lastSeenAt = s.now := by
        unfold WorkerView.disconnected
        rw [if_neg hconnected]
      rw [if_pos ⟨v, rfl, hconnected⟩]
      refine h.set rfl rfl (fun _ _ => rfl)
        (fun id hid => ⟨rfl, Function.update_of_ne hid _ _⟩) hleases (h.read workerId v hview)
        (fun _ => ?_) hseen.le
      rw [hseen]
      exact (Function.update_self ..).le
    · have hsame : v.disconnected s.now = v := by
        unfold WorkerView.disconnected
        rw [if_pos (not_not.1 hconnected)]
      rw [if_neg (by simpa using hconnected)]
      rw [hsame] at hleases ⊢
      exact h.set rfl rfl (fun _ _ => rfl) (fun _ _ => ⟨rfl, rfl⟩) hleases (h.read workerId v hview)
        (h.since workerId v hview) (h.seen workerId v hview)

theorem Reads.setDrained {g : Observed ν} (h : Reads s g) (workerId : String) (drained : Bool) :
    Reads (s.setDrained workerId drained) (g.note s (.setDrained workerId drained)) := by
  have hg : Reads s (g.note s (.setDrained workerId drained)) := by
    unfold Observed.note
    dsimp only
    split
    · exact h.congr rfl rfl le_rfl rfl rfl
    · exact h
  unfold WorkerRegistry.setDrained
  match hview : s.view workerId with
  | none => exact hg
  | some v =>
    dsimp only
    split
    · exact hg
    · have hset : Reads (s.set workerId { v with drained := drained })
          (g.note s (.setDrained workerId drained)) :=
        hg.set rfl rfl (fun _ _ => rfl) (fun _ _ => ⟨rfl, rfl⟩)
          (fun l hl => hg.leases workerId v l hview hl) (hg.read workerId v hview)
          (fun hd => hg.since workerId v hview hd) (hg.seen workerId v hview)
      unfold save drain
      split
      · split
        · exact hset.congr rfl rfl le_rfl rfl rfl
        · exact hset.congr rfl rfl le_rfl rfl rfl
      · exact hset.congr rfl rfl le_rfl rfl rfl

theorem Reads.clearDrain {g g' : Observed ν} (h : Reads s g) (workerId : String)
    (hread : g'.read = g.read) (hsince : g'.since = g.since) : Reads (s.clearDrain workerId) g' := by
  unfold WorkerRegistry.clearDrain
  split
  · exact h.congr rfl rfl le_rfl hread hsince
  · exact h.congr rfl rfl le_rfl hread hsince

theorem Reads.remove {g : Observed ν} (h : Reads s g) (workerId : String) :
    Reads (s.remove workerId) (g.note s (.remove workerId)) := by
  unfold WorkerRegistry.remove Observed.note
  dsimp only
  match hview : s.view workerId with
  | none =>
    rw [if_neg (by simp)]
    exact h.clearDrain workerId rfl rfl
  | some v =>
    dsimp only
    by_cases hconnected : v.connection ≠ .disconnected
    · rw [if_pos hconnected, if_pos ⟨v, rfl, hconnected⟩]
      exact h
    · rw [if_neg hconnected, if_neg (by simpa using hconnected)]
      exact (h.forgetView workerId).clearDrain workerId rfl rfl

theorem Reads.step {x : WorkerRegistry ν × Observed ν} (h : Reads x.1 x.2) (a : RegistryAct ν) :
    Reads (observe o x a).1 (observe o x a).2 := by
  obtain ⟨s, g⟩ := x
  cases a with
  | connected workerId label version => exact h.connect workerId label version
  | incompatible workerId label protocol version =>
    exact h.markIncompatible workerId label protocol version
  | refresh workerId r => exact h.refresh workerId r
  | disconnected workerId => exact h.disconnect workerId
  | setDrained workerId drained => exact h.setDrained workerId drained
  | remove workerId => exact h.remove workerId
  | pruneExpired =>
    unfold observe WorkerRegistry.step WorkerRegistry.pruneExpired
    dsimp only
    split
    · exact h
    · exact (h.forgetView _).congr rfl rfl le_rfl rfl rfl
  | continueSweep i =>
    unfold observe WorkerRegistry.step WorkerRegistry.continueSweep
    dsimp only
    split
    · exact (h.forgetView _).congr rfl rfl le_rfl rfl rfl
    · exact h
  | restart => exact ⟨nofun, nofun, fun _ _ => rfl, nofun, nofun⟩
  | tick elapsed => exact h.congr rfl rfl (Nat.le_add_right ..) rfl rfl

/-! ### The sweeps -/

theorem holds_mono {now now' : Nat} (hle : now ≤ now') {read : Option ν}
    (h : o.holds now read = false) : o.holds now' read = false := by
  unfold RegistryOptions.holds at h ⊢
  rw [List.any_eq_false] at h ⊢
  intro lease hlease hboth
  rw [Bool.and_eq_true, decide_eq_true_eq] at hboth
  refine h lease hlease ?_
  rw [Bool.and_eq_true, decide_eq_true_eq]
  exact ⟨hle.trans_lt hboth.1, hboth.2⟩

/-- The worker has no view, or retention may forget it. -/
def Away (o : RegistryOptions ν) (s : WorkerRegistry ν) (g : Observed ν) (id : String) : Prop :=
  ∀ v, s.view id = some v → v.connection = .disconnected ∧ g.since id + o.retentionMs ≤ s.now ∧
    o.holds s.now (g.read id) = false

theorem Away.mono {g g' : Observed ν} {t : WorkerRegistry ν} {id : String} (h : Away o s g id)
    (hview : ∀ v, t.view id = some v → ∃ v', s.view id = some v' ∧ v'.connection = v.connection)
    (hsince : g'.since id = g.since id)
    (hread : g'.read id = g.read id ∨ o.holds s.now (g'.read id) = false) (hnow : s.now ≤ t.now) :
    Away o t g' id := fun v hv => by
  obtain ⟨v', hv', hconnection⟩ := hview v hv
  obtain ⟨hd, hlong, hheld⟩ := h v' hv'
  refine ⟨hconnection ▸ hd, ?_, holds_mono hnow ?_⟩
  · rw [hsince]
    exact hlong.trans hnow
  · rcases hread with hread | hread
    · rw [hread]
      exact hheld
    · exact hread

/-- What the sweep's test lets through may be forgotten. -/
theorem away_of_expired {g : Observed ν} (h : Reads s g) (hd : Drains s g) {id : String}
    (hid : id ∈ s.expiredViews o) : Away o s g id := fun v hv => by
  obtain ⟨w, hw, rfl⟩ := List.mem_map.1 hid
  obtain ⟨hmem, htest⟩ := List.mem_filter.1 hw
  have hview := view_of_mem hd.nodup ((List.mem_insertionSort _).1 hmem)
  obtain rfl := Option.some.inj (hview.symm.trans hv)
  unfold expired at htest
  rw [Bool.and_eq_true, Bool.and_eq_true, decide_eq_true_eq, decide_eq_true_eq, h.tested hview,
    Bool.not_eq_true'] at htest
  obtain ⟨⟨hdisconnected, hlong⟩, hheld⟩ := htest
  have hsince := h.since w.1 w.2 hview hdisconnected
  exact ⟨hdisconnected, (Nat.add_le_add_right hsince _).trans hlong, hheld⟩

/-- Every worker that a sweep has still to forget may be forgotten. -/
def Swept (o : RegistryOptions ν) (x : WorkerRegistry ν × Observed ν) : Prop :=
  ∀ rest ∈ x.1.sweeps, ∀ id ∈ rest, Away o x.1 x.2 id

/-- A worker that a sweep has listed and not come to yet does not connect, nor is it read with an
    unexpired lease. -/
def Undisturbed (o : RegistryOptions ν) (x : WorkerRegistry ν × Observed ν) : RegistryAct ν → Prop
  | .connected workerId _ _ | .incompatible workerId _ _ _ => ∀ rest ∈ x.1.sweeps, workerId ∉ rest
  | .refresh workerId r => ∀ leases, r.field .leases = some (some leases) →
      o.holds x.1.now (some leases) = true → ∀ rest ∈ x.1.sweeps, workerId ∉ rest
  | .disconnected _ | .setDrained .. | .remove _ | .pruneExpired | .continueSweep _ | .restart
  | .tick _ => True

/-- Another worker's view is set. -/
theorem Away.set_other {g g' : Observed ν} {workerId id : String} (h : Away o s g id)
    (hid : id ≠ workerId) {v : WorkerView ν} (hread : g'.read id = g.read id)
    (hsince : g'.since id = g.since id) : Away o (s.set workerId v) g' id :=
  h.mono (fun v' hv' => by
    rw [view_set, if_neg hid] at hv'
    exact ⟨v', hv', rfl⟩) hsince (.inl hread) le_rfl

theorem Away.forgetView {g : Observed ν} {id : String} (h : Away o s g id) (workerId : String) :
    Away o (s.forgetView workerId) g id :=
  h.mono (fun v hv => by
    rw [view_forgetView] at hv
    split at hv
    · cases hv
    · exact ⟨v, hv, rfl⟩) rfl (.inl rfl) le_rfl

theorem Away.congr {g g' : Observed ν} {t : WorkerRegistry ν} {id : String} (h : Away o s g id)
    (hworkers : t.workers = s.workers) (hnow : s.now ≤ t.now) (hread : g'.read = g.read)
    (hsince : g'.since = g.since) : Away o t g' id :=
  h.mono (fun v hv => ⟨v, by rwa [view_congr hworkers] at hv, rfl⟩) (congrFun hsince id)
    (.inl (congrFun hread id)) hnow

theorem Away.refresh {g : Observed ν} {id : String} (h : Away o s g id) (workerId : String)
    (r : WorkerRefresh ν) (hok : id = workerId → ∀ leases, r.field .leases = some (some leases) →
      o.holds s.now (some leases) = false) :
    Away o (s.refresh workerId r) (g.note s (.refresh workerId r)) id := by
  have hsince : (g.note s (.refresh workerId r)).since id = g.since id := by
    unfold Observed.note
    dsimp only
    split <;> rfl
  have hread : (g.note s (.refresh workerId r)).read id = g.read id ∨
      o.holds s.now ((g.note s (.refresh workerId r)).read id) = false := by
    unfold Observed.note
    dsimp only
    split
    · rename_i leases _ hleases
      by_cases hid : id = workerId
      · refine .inr ?_
        subst hid
        dsimp only
        rw [Function.update_self]
        exact hok rfl _ hleases
      · exact .inl (Function.update_of_ne hid _ _)
    · exact .inl rfl
  unfold WorkerRegistry.refresh
  match hview : s.view workerId with
  | none => exact h.mono (fun v hv => ⟨v, hv, rfl⟩) hsince hread le_rfl
  | some v =>
    have hworkers : ((s.set workerId (v.refresh s.now r)).keepLastReads workerId r).workers =
        (s.set workerId (v.refresh s.now r)).workers := by
      unfold keepLastReads
      split <;> rfl
    have hnow : ((s.set workerId (v.refresh s.now r)).keepLastReads workerId r).now = s.now := by
      unfold keepLastReads
      split <;> rfl
    refine h.mono (fun v' hv' => ?_) hsince hread hnow.ge
    rw [view_congr hworkers, view_set] at hv'
    split at hv'
    · rename_i hid
      rw [← Option.some.inj hv', hid]
      exact ⟨v, hview, (refresh_connection v s.now r).symm⟩
    · exact ⟨v', hv', rfl⟩

theorem Away.disconnect {g : Observed ν} {id : String} (h : Away o s g id) (workerId : String) :
    Away o (s.disconnect workerId) (g.note s (.disconnected workerId)) id := by
  unfold WorkerRegistry.disconnect Observed.note
  dsimp only
  match hview : s.view workerId with
  | none =>
    rw [if_neg (by simp)]
    exact h
  | some v =>
    dsimp only
    by_cases hid : id = workerId
    · -- it is disconnected already, and stays as it is
      subst hid
      have hd := (h v hview).1
      have hsame : v.disconnected s.now = v := by
        unfold WorkerView.disconnected
        rw [if_pos hd]
      rw [if_neg (by simpa using hd)]
      refine h.mono (fun v' hv' => ?_) rfl (.inl rfl) le_rfl
      rw [view_set_self, hsame] at hv'
      exact ⟨v, hview, by rw [Option.some.inj hv']⟩
    · split
      · exact h.set_other hid rfl (Function.update_of_ne hid _ _)
      · exact h.set_other hid rfl rfl

theorem Away.setDrained {g : Observed ν} {id : String} (h : Away o s g id) (workerId : String)
    (drained : Bool) :
    Away o (s.setDrained workerId drained) (g.note s (.setDrained workerId drained)) id := by
  have hg : Away o s (g.note s (.setDrained workerId drained)) id := by
    unfold Observed.note
    dsimp only
    split
    · exact h.congr rfl le_rfl rfl rfl
    · exact h
  unfold WorkerRegistry.setDrained
  match hview : s.view workerId with
  | none => exact hg
  | some v =>
    dsimp only
    split
    · exact hg
    · have hset : Away o (s.set workerId { v with drained := drained })
          (g.note s (.setDrained workerId drained)) id := by
        refine hg.mono (fun v' hv' => ?_) rfl (.inl rfl) le_rfl
        rw [view_set] at hv'
        split at hv'
        · rename_i hid
          rw [← Option.some.inj hv', hid]
          exact ⟨v, hview, rfl⟩
        · exact ⟨v', hv', rfl⟩
      unfold save drain
      split
      · split
        · exact hset.congr rfl le_rfl rfl rfl
        · exact hset.congr rfl le_rfl rfl rfl
      · exact hset.congr rfl le_rfl rfl rfl

theorem Away.remove {g : Observed ν} {id : String} (h : Away o s g id) (workerId : String) :
    Away o (s.remove workerId) (g.note s (.remove workerId)) id := by
  have hclear : ∀ (t : WorkerRegistry ν) (g' : Observed ν), g'.read = g.read → g'.since = g.since →
      Away o t g id → Away o (t.clearDrain workerId) g' id := fun t g' hread hsince ht => by
    unfold WorkerRegistry.clearDrain
    split
    · exact ht.congr rfl le_rfl hread hsince
    · exact ht.congr rfl le_rfl hread hsince
  unfold WorkerRegistry.remove Observed.note
  dsimp only
  match hview : s.view workerId with
  | none =>
    rw [if_neg (by simp)]
    exact hclear s _ rfl rfl h
  | some v =>
    dsimp only
    by_cases hconnected : v.connection ≠ .disconnected
    · rw [if_pos hconnected, if_pos ⟨v, rfl, hconnected⟩]
      exact h
    · rw [if_neg hconnected, if_neg (by simpa using hconnected)]
      exact hclear _ _ rfl rfl (h.forgetView workerId)

theorem Observed.made_of_ne (g : Observed ν) {workerId id : String} (hid : id ≠ workerId)
    (existing : Option (WorkerView ν)) :
    (g.made workerId existing).read id = g.read id ∧
      (g.made workerId existing).since id = g.since id := by
  unfold Observed.made
  split
  · exact ⟨rfl, rfl⟩
  · exact ⟨Function.update_of_ne hid _ _, rfl⟩

theorem setDrained_sweeps (workerId : String) (drained : Bool) :
    (s.setDrained workerId drained).sweeps = s.sweeps := by
  unfold WorkerRegistry.setDrained save drain
  split
  · rfl
  · split
    · rfl
    · dsimp only
      split
      · split <;> rfl
      · rfl

theorem clearDrain_sweeps (workerId : String) : (s.clearDrain workerId).sweeps = s.sweeps := by
  unfold WorkerRegistry.clearDrain
  split <;> rfl

theorem remove_sweeps (workerId : String) : (s.remove workerId).sweeps = s.sweeps := by
  unfold WorkerRegistry.remove
  split
  · exact clearDrain_sweeps workerId
  · split
    · rfl
    · exact clearDrain_sweeps workerId

theorem refresh_sweeps (workerId : String) (r : WorkerRefresh ν) :
    (s.refresh workerId r).sweeps = s.sweeps := by
  unfold WorkerRegistry.refresh keepLastReads
  split
  · rfl
  · split <;> rfl

theorem disconnect_sweeps (workerId : String) : (s.disconnect workerId).sweeps = s.sweeps := by
  unfold WorkerRegistry.disconnect
  split <;> rfl

theorem Swept.step {x : WorkerRegistry ν × Observed ν} (h : Swept o x) (hreads : Reads x.1 x.2)
    (hdrains : Drains x.1 x.2) {a : RegistryAct ν} (ha : Undisturbed o x a) :
    Swept o (observe o x a) := by
  obtain ⟨s, g⟩ := x
  intro rest hrest id hid
  cases a with
  | connected workerId label version =>
    have hne : id ≠ workerId := fun heq => ha rest hrest (heq ▸ hid)
    obtain ⟨hread, hsince⟩ := g.made_of_ne hne (s.view workerId)
    exact (h rest hrest id hid).set_other hne hread hsince
  | incompatible workerId label protocol version =>
    have hne : id ≠ workerId := fun heq => ha rest hrest (heq ▸ hid)
    obtain ⟨hread, hsince⟩ := g.made_of_ne hne (s.view workerId)
    exact (h rest hrest id hid).set_other hne hread hsince
  | refresh workerId r =>
    have hrest' : rest ∈ s.sweeps := by rw [← refresh_sweeps workerId r]; exact hrest
    refine (h rest hrest' id hid).refresh workerId r fun heq leases hleases => ?_
    by_contra hheld
    exact ha leases hleases (Bool.not_eq_false _ ▸ hheld) rest hrest' (heq ▸ hid)
  | disconnected workerId =>
    have hrest' : rest ∈ s.sweeps := by rw [← disconnect_sweeps workerId]; exact hrest
    exact (h rest hrest' id hid).disconnect workerId
  | setDrained workerId drained =>
    have hrest' : rest ∈ s.sweeps := by rw [← setDrained_sweeps workerId drained]; exact hrest
    exact (h rest hrest' id hid).setDrained workerId drained
  | remove workerId =>
    have hrest' : rest ∈ s.sweeps := by rw [← remove_sweeps workerId]; exact hrest
    exact (h rest hrest' id hid).remove workerId
  | pruneExpired =>
    unfold observe WorkerRegistry.step WorkerRegistry.pruneExpired at hrest ⊢
    dsimp only at hrest ⊢
    match hexpired : s.expiredViews o with
    | [] =>
      rw [hexpired] at hrest
      exact h rest hrest id hid
    | workerId :: others =>
      rw [hexpired] at hrest
      have haway : Away o s g id := by
        rcases List.mem_append.1 hrest with hrest | hrest
        · exact h rest hrest id hid
        · rw [List.mem_singleton.1 hrest] at hid
          refine away_of_expired hreads hdrains ?_
          rw [hexpired]
          exact List.mem_cons_of_mem workerId hid
      exact (haway.forgetView workerId).congr rfl le_rfl rfl rfl
  | continueSweep i =>
    unfold observe WorkerRegistry.step WorkerRegistry.continueSweep at hrest ⊢
    dsimp only at hrest ⊢
    match hsweep : s.sweeps[i]? with
    | some (workerId :: others) =>
      rw [hsweep] at hrest
      have haway : Away o s g id := by
        rcases List.mem_or_eq_of_mem_set hrest with hrest | hrest
        · exact h rest hrest id hid
        · rw [hrest] at hid
          exact h _ (List.mem_of_getElem? hsweep) id (List.mem_cons_of_mem workerId hid)
      exact (haway.forgetView workerId).congr rfl le_rfl rfl rfl
    | some [] =>
      rw [hsweep] at hrest
      exact h rest hrest id hid
    | none =>
      rw [hsweep] at hrest
      exact h rest hrest id hid
  | restart => cases hrest
  | tick elapsed => exact (h rest hrest id hid).congr rfl (Nat.le_add_right ..) rfl rfl

/-! ### Runs -/

def started : WorkerRegistry ν × Observed ν := (new, .new)

/-- The retention sweep forgets a worker's view. -/
structure Retires (o : RegistryOptions ν) (s : WorkerRegistry ν) (a : RegistryAct ν) (id : String)
    (v : WorkerView ν) : Prop where
  sweep : a = .pruneExpired ∨ ∃ i, a = .continueSweep i
  before : s.view id = some v
  after : (s.step o a).view id = none

/-- What a sweep forgets may be forgotten. -/
theorem away_of_retires {x : WorkerRegistry ν × Observed ν} (hdrains : Drains x.1 x.2)
    (hreads : Reads x.1 x.2) (hswept : Swept o x) {a : RegistryAct ν} {id : String}
    {v : WorkerView ν} (h : Retires o x.1 a id v) : Away o x.1 x.2 id := by
  obtain ⟨hsweep, hbefore, hafter⟩ := h
  -- the view that goes is the one of the worker forgotten
  have hforgotten : ∀ (workerId : String) (t : WorkerRegistry ν),
      t.workers = (x.1.forgetView workerId).workers → t.view id = none → id = workerId :=
    fun workerId t ht hnone => by
      by_contra hid
      rw [view_congr ht, view_forgetView, if_neg hid, hbefore] at hnone
      cases hnone
  rcases hsweep with rfl | ⟨i, rfl⟩
  · unfold WorkerRegistry.step WorkerRegistry.pruneExpired at hafter
    dsimp only at hafter
    match hexpired : x.1.expiredViews o with
    | [] =>
      rw [hexpired] at hafter
      cases hbefore.symm.trans hafter
    | workerId :: others =>
      rw [hexpired] at hafter
      obtain rfl := hforgotten workerId _ rfl hafter
      refine away_of_expired hreads hdrains ?_
      rw [hexpired]
      exact List.mem_cons_self
  · unfold WorkerRegistry.step WorkerRegistry.continueSweep at hafter
    dsimp only at hafter
    match hsweep : x.1.sweeps[i]? with
    | some (workerId :: others) =>
      rw [hsweep] at hafter
      obtain rfl := hforgotten workerId _ rfl hafter
      exact hswept _ (List.mem_of_getElem? hsweep) _ List.mem_cons_self
    | some [] =>
      rw [hsweep] at hafter
      cases hbefore.symm.trans hafter
    | none =>
      rw [hsweep] at hafter
      cases hbefore.symm.trans hafter

theorem Drains.started : Drains (started (ν := ν)).1 started.2 :=
  ⟨List.nodup_nil, fun _ => ⟨nofun, nofun⟩, nofun, rfl⟩

theorem Reads.started : Reads (started (ν := ν)).1 started.2 :=
  ⟨nofun, nofun, fun _ _ => rfl, nofun, nofun⟩

/-- In every run a view is drained exactly when the operator's last action on its worker was a
    drain. And when no worker that a sweep has listed connects, or is read with an unexpired lease,
    before the sweep comes to it, retention forgets only workers that are disconnected, have been
    for the retention time, and have no unexpired lease of the gateway's among the last read. -/
theorem drains_and_leases_outlive (o : RegistryOptions ν) (acts : List (RegistryAct ν)) :
    (∀ id v, (run (observe o) started acts).1.view id = some v →
      v.drained = (run (observe o) started acts).2.drained id) ∧
    (AllSteps (observe o) (Undisturbed o) started acts → ∀ a id v,
      Retires o (run (observe o) started acts).1 a id v →
        v.connection = .disconnected ∧
        (run (observe o) started acts).2.since id + o.retentionMs ≤
          (run (observe o) started acts).1.now ∧
        o.holds (run (observe o) started acts).1.now
          ((run (observe o) started acts).2.read id) = false) := by
  have hdrains : Drains (run (observe o) started acts).1 (run (observe o) started acts).2 :=
    run_invariant (I := fun x => Drains x.1 x.2) (fun x a h => h.step a) acts started Drains.started
  refine ⟨fun id v hview => ?_, fun hall a id v hretires => ?_⟩
  · rw [hdrains.view id v hview, isDrained]
    cases hlast : (run (observe o) started acts).2.drained id with
    | true => exact decide_eq_true ((hdrains.last id).2 hlast)
    | false =>
      refine decide_eq_false fun hmem => ?_
      rw [(hdrains.last id).1 hmem] at hlast
      cases hlast
  · have hsafe : Drains (run (observe o) started acts).1 (run (observe o) started acts).2 ∧
        Reads (run (observe o) started acts).1 (run (observe o) started acts).2 ∧
        Swept o (run (observe o) started acts) :=
      run_invariant_of_allSteps (I := fun x => Drains x.1 x.2 ∧ Reads x.1 x.2 ∧ Swept o x)
        (fun x a ha hI => ⟨hI.1.step a, hI.2.1.step a, hI.2.2.step hI.2.1 hI.1 ha⟩) acts started
        ⟨Drains.started, Reads.started, fun _ hrest => by cases hrest⟩ hall
    exact away_of_retires hsafe.1 hsafe.2.1 hsafe.2.2 hretires v hretires.before

/-! ### Two runs -/

def shortly : RegistryOptions (List WorkerLease) :=
  { retentionMs := 10, gatewayRequesterPrefix := some "gw:", before := fun a b => decide (a ≤ b)
    leases := fun leases => leases }

/-- Two workers that went away, swept after the retention time. -/
def twoGone : List (RegistryAct (List WorkerLease)) :=
  [.connected "a" none none, .connected "b" none none, .disconnected "a", .disconnected "b",
    .tick 10, .pruneExpired]

theorem drains_and_leases_outlive_twoGone :
    ∃ v, Retires shortly (run (observe shortly) started twoGone).1 (.continueSweep 0) "b" v ∧
      v.connection = .disconnected := by
  have hconnection : ((run (observe shortly) started twoGone).1.view "b").map
      WorkerView.connection = some .disconnected := by decide +kernel
  obtain ⟨v, hview, -⟩ := Option.map_eq_some_iff.1 hconnection
  have hretires : Retires shortly (run (observe shortly) started twoGone).1 (.continueSweep 0) "b" v :=
    ⟨.inr ⟨0, rfl⟩, hview, rfl⟩
  exact ⟨v, hretires, ((drains_and_leases_outlive shortly twoGone).2
    ⟨nofun, nofun, trivial, trivial, trivial, trivial, trivial⟩ _ "b" v hretires).1⟩

/-- The second of them comes back before the sweep comes to it, and is forgotten while connected. -/
theorem forgotten_while_connected : ¬ ∀ acts : List (RegistryAct (List WorkerLease)),
    (∀ id v, (run (observe shortly) started acts).1.view id = some v →
      v.drained = (run (observe shortly) started acts).2.drained id) ∧
    ∀ a id v, Retires shortly (run (observe shortly) started acts).1 a id v →
      v.connection = .disconnected ∧
      (run (observe shortly) started acts).2.since id + shortly.retentionMs ≤
        (run (observe shortly) started acts).1.now ∧
      shortly.holds (run (observe shortly) started acts).1.now
        ((run (observe shortly) started acts).2.read id) = false := by
  intro h
  have hretains := (h (twoGone ++ [.connected "b" none none])).2 (.continueSweep 0) "b"
  have hconnected : (((run (observe shortly) started (twoGone ++ [.connected "b" none none])).1.view
      "b").map WorkerView.connection) = some .connected := by decide +kernel
  obtain ⟨v, hview, hv⟩ := Option.map_eq_some_iff.1 hconnected
  have hgone : ((run (observe shortly) started (twoGone ++ [.connected "b" none none])).1.step
      shortly (.continueSweep 0)).view "b" = none := rfl
  have hforgotten := (hretains v ⟨.inr ⟨0, rfl⟩, hview, hgone⟩).1
  rw [hv] at hforgotten
  cases hforgotten

end WorkerRegistry

end Simlock.Uplink
