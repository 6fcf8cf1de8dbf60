import Simlock.Gateway.WorkerRegistry
import Simlock.Lib.Run

/-! A drain ends with an undrain or a remove, and with nothing else.

    The view, the set and the store agree on the drains after every call, whatever sweeps are under
    way, and a restart takes them from the store: so a view is drained exactly when the operator's
    last action on its worker was a drain. -/

namespace Simlock.Uplink

open Lib

variable {ν : Type}

namespace WorkerRegistry

variable {o : RegistryOptions ν} {s : WorkerRegistry ν}

/-! ### Looking views up -/

theorem view_set (workerId : String) (v : WorkerView ν) (id : String) :
    (s.set workerId v).view id = if id = workerId then some v else s.view id := by
  unfold view set
  split
  · rename_i h
    subst h
    rw [find_upsert_self Prod.fst (id, v) s.workers]
    rfl
  · rename_i h
    rw [find_upsert_of_ne Prod.fst (by exact Ne.symm h) s.workers]

theorem view_set_self (workerId : String) (v : WorkerView ν) :
    (s.set workerId v).view workerId = some v := by rw [view_set, if_pos rfl]

theorem view_forgetView (workerId id : String) :
    (s.forgetView workerId).view id = if id = workerId then none else s.view id := by
  unfold view forgetView
  dsimp only
  split
  · rename_i h
    subst h
    have hnone : (s.workers.filter fun w => w.1 ≠ id).find? (fun w => w.1 = id) = none := by
      refine List.find?_eq_none.2 fun w hw => ?_
      have hne := (List.mem_filter.1 hw).2
      simpa using hne
    rw [hnone]
    rfl
  · rename_i h
    rw [List.find?_filter]
    refine congrArg (Option.map Prod.snd) (congrArg (fun p => s.workers.find? p) (funext fun w => ?_))
    by_cases hw : w.1 = id
    · simp [hw, h]
    · simp [hw]

theorem view_of_mem (hnodup : (s.workers.map Prod.fst).Nodup) {w : String × WorkerView ν}
    (h : w ∈ s.workers) : s.view w.1 = some w.2 := by
  rw [view, find_key_eq_some hnodup h]
  rfl

/-- The same views, from one list of workers. -/
theorem view_congr {t : WorkerRegistry ν} (h : t.workers = s.workers) (id : String) :
    t.view id = s.view id := by rw [view, view, h]

/-! ### The drains -/

/-- The view, the set, the store and the operator's last action agree. -/
structure Drains (s : WorkerRegistry ν) (g : Observed ν) : Prop where
  nodup : (s.workers.map Prod.fst).Nodup
  last : ∀ id, id ∈ s.drained ↔ g.drained id = true
  view : ∀ id v, s.view id = some v → v.drained = s.isDrained id
  stored : s.store = s.drained

theorem Observed.drained_cons (g : Observed ν) (workerId : String) (drained : Bool) (id : String) :
    ({ g with actions := (workerId, drained) :: g.actions } : Observed ν).drained id =
      if id = workerId then drained else g.drained id := by
  unfold Observed.drained
  by_cases h : workerId = id
  · simp [h]
  · simp [h, Ne.symm h]

theorem Drains.set {g : Observed ν} (h : Drains s g) {w : String} {v : WorkerView ν}
    (hv : v.drained = s.isDrained w) : Drains (s.set w v) g where
  nodup := nodup_keys_upsert _ h.nodup
  last := h.last
  view id v' hview := by
    rw [view_set] at hview
    split at hview
    · rename_i hid
      obtain rfl := Option.some.inj hview
      rw [hid]
      exact hv
    · exact h.view id v' hview
  stored := h.stored

theorem Drains.forgetView {g : Observed ν} (h : Drains s g) (workerId : String) :
    Drains (s.forgetView workerId) g where
  nodup := (List.filter_sublist.map Prod.fst).nodup h.nodup
  last := h.last
  view id v hview := by
    rw [view_forgetView] at hview
    split at hview
    · cases hview
    · exact h.view id v hview
  stored := h.stored

/-- What is read, and which sweeps are under way, is of no matter. -/
theorem Drains.congr {g g' : Observed ν} {t : WorkerRegistry ν} (h : Drains s g)
    (hworkers : t.workers = s.workers) (hdrained : t.drained = s.drained) (hstore : t.store = s.store)
    (hactions : g'.actions = g.actions) : Drains t g' where
  nodup := hworkers ▸ h.nodup
  last id := by
    rw [hdrained, h.last id, Observed.drained, Observed.drained, hactions]
  view id v hview := by
    rw [view_congr hworkers] at hview
    rw [h.view id v hview, isDrained, isDrained, hdrained]
  stored := by rw [hstore, hdrained, h.stored]

theorem mem_undrain (workerId id : String) :
    id ∈ (s.undrain workerId).drained ↔ id ∈ s.drained ∧ id ≠ workerId := by
  rw [undrain, List.mem_filter, decide_eq_true_eq]

theorem mem_drain (workerId id : String) :
    id ∈ (s.drain workerId).drained ↔ id ∈ s.drained ∨ id = workerId := by
  unfold drain
  split
  · rename_i h
    refine ⟨Or.inl, ?_⟩
    rintro (hid | rfl)
    · exact hid
    · exact of_decide_eq_true h
  · exact List.mem_append.trans (or_congr_right List.mem_singleton)

/-- The operator's action is in the set, in the views and in the store. -/
theorem Drains.acted {g : Observed ν} (h : Drains s g) {t : WorkerRegistry ν} {workerId : String}
    {drained : Bool} (hnodup : (t.workers.map Prod.fst).Nodup)
    (hset : ∀ id, id ∈ t.drained ↔ if id = workerId then drained = true else id ∈ s.drained)
    (hother : ∀ id v, id ≠ workerId → t.view id = some v → s.view id = some v)
    (hself : ∀ v, t.view workerId = some v → v.drained = drained)
    (hstored : t.store = t.drained) :
    Drains t { g with actions := (workerId, drained) :: g.actions } where
  nodup := hnodup
  last id := by
    rw [hset, Observed.drained_cons]
    split
    · exact Iff.rfl
    · exact h.last id
  view id v hview := by
    have hmem := hset id
    by_cases hid : id = workerId
    · subst hid
      rw [if_pos rfl] at hmem
      rw [hself v hview]
      cases drained with
      | true => exact (decide_eq_true (hmem.2 rfl)).symm
      | false => exact (decide_eq_false fun h => Bool.false_ne_true (hmem.1 h)).symm
    · rw [if_neg hid] at hmem
      rw [h.view id v (hother id v hid hview), isDrained, isDrained, decide_eq_decide.2 hmem]
  stored := hstored

theorem Drains.setDrained {g : Observed ν} (h : Drains s g) {workerId : String} {drained : Bool} :
    Drains (s.setDrained workerId drained) (g.note s (.setDrained workerId drained)) := by
  unfold WorkerRegistry.setDrained
  match hview : s.view workerId with
  | none =>
    have hnote : g.note s (.setDrained workerId drained) = g := by
      unfold Observed.note
      dsimp only
      rw [hview]
      rfl
    rw [hnote]
    exact h
  | some v =>
    have hnote : g.note s (.setDrained workerId drained) =
        { g with actions := (workerId, drained) :: g.actions } := by
      unfold Observed.note
      dsimp only
      rw [hview]
      rfl
    have hv := h.view workerId v hview
    rw [hnote]
    dsimp only
    split
    · rename_i hsame
      refine h.acted h.nodup (fun id => ?_) (fun _ _ _ => id) (fun v' hv' => ?_) h.stored
      · split
        · rename_i hid
          rw [hid, ← hsame, hv, isDrained, decide_eq_true_eq]
        · exact Iff.rfl
      · rw [hview] at hv'
        rw [← Option.some.inj hv', hsame]
    · have hother : ∀ id (v' : WorkerView ν), id ≠ workerId →
          (s.set workerId { v with drained := drained }).view id = some v' →
          s.view id = some v' := fun id v' hid hv' => by rwa [view_set, if_neg hid] at hv'
      have hself : ∀ v', (s.set workerId { v with drained := drained }).view workerId = some v' →
          v'.drained = drained := fun v' hv' => by
        rw [view_set_self] at hv'
        rw [← Option.some.inj hv']
      have hnodup : ((s.set workerId { v with drained := drained }).workers.map Prod.fst).Nodup :=
        nodup_keys_upsert _ h.nodup
      cases drained with
      | true =>
        rw [if_pos rfl]
        have hworkers : ((s.set workerId { v with drained := true }).drain workerId).save.workers =
            (s.set workerId { v with drained := true }).workers := by
          unfold save drain
          split <;> rfl
        refine h.acted (hworkers ▸ hnodup) (fun id => ?_) (fun id v' hid hv' => ?_)
          (fun v' hv' => ?_) rfl
        · refine (mem_drain workerId id).trans ?_
          by_cases hid : id = workerId
          · simp [hid]
          · simp only [hid, or_false, if_false]
            exact Iff.rfl
        · exact hother id v' hid (by rwa [view_congr hworkers] at hv')
        · exact hself v' (by rwa [view_congr hworkers] at hv')
      | false =>
        rw [if_neg Bool.false_ne_true]
        refine h.acted hnodup (fun id => ?_) (fun id v' hid hv' => hother id v' hid hv')
          (fun v' hv' => hself v' hv') rfl
        refine (mem_undrain workerId id).trans ?_
        by_cases hid : id = workerId
        · simp [hid]
        · simp only [hid, ne_eq, not_false_eq_true, and_true, if_false]
          exact Iff.rfl

/-- A clear of the drain of a worker without a view. -/
theorem Drains.clearDrain {g : Observed ν} (h : Drains s g) {workerId : String}
    (hview : s.view workerId = none) :
    Drains (s.clearDrain workerId) { g with actions := (workerId, false) :: g.actions } := by
  have hself : ∀ v, s.view workerId = some v → v.drained = false := fun v hv => by
    rw [hview] at hv
    cases hv
  unfold WorkerRegistry.clearDrain
  split
  · refine h.acted h.nodup (fun id => ?_) (fun _ _ _ => id) hself rfl
    refine (mem_undrain workerId id).trans ?_
    by_cases hid : id = workerId
    · simp [hid]
    · simp [hid]
  · rename_i hnot
    refine h.acted h.nodup (fun id => ?_) (fun _ _ _ => id) hself h.stored
    split
    · rename_i hid
      rw [hid]
      exact ⟨fun hmem => absurd (decide_eq_true hmem) hnot, nofun⟩
    · exact Iff.rfl

theorem Drains.remove {g : Observed ν} (h : Drains s g) (workerId : String) :
    Drains (s.remove workerId) (g.note s (.remove workerId)) := by
  unfold WorkerRegistry.remove Observed.note
  dsimp only
  match hview : s.view workerId with
  | none =>
    rw [if_neg (by simp)]
    exact h.clearDrain hview
  | some v =>
    dsimp only
    by_cases hconnected : v.connection ≠ .disconnected
    · rw [if_pos hconnected, if_pos ⟨v, rfl, hconnected⟩]
      exact h
    · rw [if_neg hconnected, if_neg (by simpa using hconnected)]
      refine (h.forgetView workerId).clearDrain ?_
      rw [view_forgetView, if_pos rfl]

theorem Drains.refresh {g : Observed ν} (h : Drains s g) (workerId : String) (r : WorkerRefresh ν) :
    Drains (s.refresh workerId r) (g.note s (.refresh workerId r)) := by
  have hactions : (g.note s (.refresh workerId r)).actions = g.actions := by
    unfold Observed.note
    dsimp only
    split <;> rfl
  unfold WorkerRegistry.refresh
  match hview : s.view workerId with
  | none => exact h.congr rfl rfl rfl hactions
  | some v =>
    have hv : (v.refresh s.now r).drained = s.isDrained workerId := by
      rw [← h.view workerId v hview]
      unfold WorkerView.refresh WorkerView.without withoutReadFields WorkerView.without
      dsimp only
      split <;> (try split) <;> rfl
    have hkept := h.set hv
    unfold keepLastReads
    dsimp only
    split
    · exact hkept.congr rfl rfl rfl hactions
    · exact hkept.congr rfl rfl rfl hactions

theorem Drains.disconnect {g : Observed ν} (h : Drains s g) (workerId : String) :
    Drains (s.disconnect workerId) (g.note s (.disconnected workerId)) := by
  have hactions : (g.note s (.disconnected workerId)).actions = g.actions := by
    unfold Observed.note
    dsimp only
    split <;> rfl
  unfold WorkerRegistry.disconnect
  match hview : s.view workerId with
  | none => exact h.congr rfl rfl rfl hactions
  | some v =>
    have hv : (v.disconnected s.now).drained = s.isDrained workerId := by
      rw [← h.view workerId v hview]
      unfold WorkerView.disconnected WorkerView.without
      split <;> rfl
    exact (h.set hv).congr rfl rfl rfl hactions

/-- Nothing but the operator's actions changes the drains. -/
theorem Drains.step {x : WorkerRegistry ν × Observed ν} (h : Drains x.1 x.2) (a : RegistryAct ν) :
    Drains (observe o x a).1 (observe o x a).2 := by
  obtain ⟨s, g⟩ := x
  have hmade : ∀ workerId, (g.made workerId (s.view workerId)).actions = g.actions :=
    fun workerId => by
      unfold Observed.made
      split <;> rfl
  cases a with
  | connected workerId label version =>
    exact (h.set (w := workerId) rfl).congr rfl rfl rfl (hmade workerId)
  | incompatible workerId label protocol version =>
    exact (h.set (w := workerId) rfl).congr rfl rfl rfl (hmade workerId)
  | refresh workerId r => exact h.refresh workerId r
  | disconnected workerId => exact h.disconnect workerId
  | setDrained workerId drained => exact h.setDrained
  | remove workerId => exact h.remove workerId
  | pruneExpired =>
    unfold observe WorkerRegistry.step WorkerRegistry.pruneExpired
    dsimp only
    split
    · exact h
    · exact (h.forgetView _).congr rfl rfl rfl rfl
  | continueSweep i =>
    unfold observe WorkerRegistry.step WorkerRegistry.continueSweep
    dsimp only
    split
    · exact (h.forgetView _).congr rfl rfl rfl rfl
    · exact h
  | restart =>
    refine ⟨List.nodup_nil, fun id => ?_, nofun, rfl⟩
    exact (h.stored ▸ h.last id : id ∈ s.store ↔ g.drained id = true)
  | tick elapsed => exact h.congr rfl rfl rfl rfl

end WorkerRegistry

end Simlock.Uplink
