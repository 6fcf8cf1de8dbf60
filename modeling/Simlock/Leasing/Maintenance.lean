import Simlock.Leasing.ReleaseCoordinator
import Simlock.Lib.Indexed

/-! Maintenance and the workflows it keeps out.

    The count of maintenances begun and not ended is the depth, a parked workflow is one of the
    waiters and waits for the depth to fall, and a workflow is admitted once (`Admissions`); this
    holds in every run. A maintenance that has begun finds nothing running (`Excludes`) as long as no
    workflow returns over a task of its own that is not over: `releaseAll` returns with the first of
    its releases that throws, and the others go on. -/

namespace Simlock.Leasing

open Simlock.Lib Simlock.Core

/-- Its section ran, and that of its end did not. -/
def Maintenance.holds (x : Maintenance) : Bool := x = .draining || x = .begun

/-- A workflow runs from its admission until it returned and its tasks are over. -/
def Workflow.isRunning (w : Workflow) : Bool :=
  w.admission = .active || w.branches.any fun branches => !branches.all Branch.isOver

namespace ReleaseCoordinator

variable {o : RegistryOptions} {p : ReleaseOptions} {s s' : ReleaseCoordinator}

/-- Where a workflow's admission is. -/
def admissionOf (s : ReleaseCoordinator) (n : Nat) : Option Admission :=
  s.workflows[n]?.map Workflow.admission

/-- Who is admitted, who is parked, and how deep the maintenance is. -/
structure Admissions (s : ReleaseCoordinator) : Prop where
  active_nodup : s.activeWorkflows.Nodup
  active : ∀ n, n ∈ s.activeWorkflows ↔ ∃ a, s.admissionOf n = some a ∧ a = .active
  waiting : ∀ n, n ∈ s.maintenanceWaiters ↔ ∃ a, s.admissionOf n = some a ∧ a = .parked
  once : s.admissions.Nodup
  admitted : ∀ n, n ∈ s.admissions ↔
    ∃ a, s.admissionOf n = some a ∧ (a = .active ∨ a = .returned)
  depth : s.maintenances.countP Maintenance.holds = s.maintenanceDepth
  closed : s.maintenanceWaiters ≠ [] → 0 < s.maintenanceDepth

/-! ### The invariant of every run -/

/-- Nothing an admission reads or writes differs. -/
structure SameAdmissions (s s' : ReleaseCoordinator) : Prop where
  admissionOf : ∀ n, s'.admissionOf n = s.admissionOf n
  active : s'.activeWorkflows = s.activeWorkflows
  waiting : s'.maintenanceWaiters = s.maintenanceWaiters
  admissions : s'.admissions = s.admissions
  maintenances : s'.maintenances = s.maintenances
  depth : s'.maintenanceDepth = s.maintenanceDepth

theorem Admissions.same (h : Admissions s) (e : SameAdmissions s s') : Admissions s' := by
  refine ⟨e.active ▸ h.active_nodup, fun n => ?_, fun n => ?_, e.admissions ▸ h.once, fun n => ?_,
    ?_, ?_⟩
  · rw [e.active, e.admissionOf]
    exact h.active n
  · rw [e.waiting, e.admissionOf]
    exact h.waiting n
  · rw [e.admissions, e.admissionOf]
    exact h.admitted n
  · rw [e.maintenances, e.depth]
    exact h.depth
  · rw [e.waiting, e.depth]
    exact h.closed

theorem SameAdmissions.refl (s : ReleaseCoordinator) : SameAdmissions s s :=
  ⟨fun _ => rfl, rfl, rfl, rfl, rfl, rfl⟩

@[simp] theorem setWorkflow_activeWorkflows (n : Nat) (w : Workflow) :
    (s.setWorkflow n w).activeWorkflows = s.activeWorkflows := rfl

@[simp] theorem setWorkflow_maintenanceWaiters (n : Nat) (w : Workflow) :
    (s.setWorkflow n w).maintenanceWaiters = s.maintenanceWaiters := rfl

@[simp] theorem setWorkflow_admissions (n : Nat) (w : Workflow) :
    (s.setWorkflow n w).admissions = s.admissions := rfl

theorem admissionOf_set {n : Nat} {w : Workflow} (hw : s.workflows[n]? = some w) (w' : Workflow)
    (i : Nat) :
    (s.setWorkflow n w').admissionOf i = if i = n then some w'.admission else s.admissionOf i :=
  map_getElem?_set hw Workflow.admission i

/-- A workflow replaced by one of the same admission. -/
theorem sameAdmissions_set (w' : Workflow) {n : Nat} {w : Workflow} (hw : s.workflows[n]? = some w)
    (ha : w'.admission = w.admission) : SameAdmissions s (s.setWorkflow n w') := by
  refine ⟨fun i => ?_, rfl, rfl, rfl, rfl, rfl⟩
  rw [admissionOf_set hw, ha]
  split
  · rename_i hi
    rw [hi, admissionOf, hw]
    rfl
  · rfl

theorem branch_some {n i : Nat} {w : Workflow} {b : Branch} (h : s.branch n i = some (w, b)) :
    s.workflows[n]? = some w ∧ ∃ branches, w.branches = some branches ∧ branches[i]? = some b := by
  unfold branch at h
  split at h
  · rename_i w' hw
    split at h
    · rename_i b' hb
      obtain ⟨rfl, rfl⟩ := Prod.mk.inj (Option.some.inj h)
      exact ⟨hw, Option.bind_eq_some_iff.mp hb⟩
    · cases h
  · cases h

theorem begin_same (n : Nat) : SameAdmissions s (s.begin_ n) := by
  unfold begin_
  split
  · rename_i w hw
    split
    · exact sameAdmissions_set _ hw rfl
    · exact .refl s
  · exact .refl s

theorem decideBranch_same (n i : Nat) (now : Int) (proceeds writable : Bool) :
    SameAdmissions s (s.decideBranch o p n i now proceeds writable) := by
  unfold decideBranch
  split
  · rename_i w b hb
    obtain ⟨hw, -⟩ := branch_some hb
    have hset : ∀ stage, SameAdmissions s (s.setWorkflow n (w.setStage i b stage)) :=
      fun _ => sameAdmissions_set _ hw rfl
    split
    · split
      · exact hset _
      · exact hset _
      · split
        · have h := hset .committed
          exact ⟨h.admissionOf, rfl, rfl, rfl, rfl, rfl⟩
        · exact hset _
    · exact .refl s
  · exact .refl s

theorem continueBranch_same (n i : Nat) (throws : Bool) :
    SameAdmissions s (s.continueBranch n i throws) := by
  unfold continueBranch
  split
  · rename_i w b hb
    obtain ⟨hw, -⟩ := branch_some hb
    split
    · split
      · have h := sameAdmissions_set (w.setStage i b .over) hw rfl
        exact ⟨h.admissionOf, rfl, rfl, rfl, rfl, rfl⟩
      · exact sameAdmissions_set _ hw rfl
    · exact .refl s
  · exact .refl s

/-- A list that keeps those of one admission, when one workflow moves to another. -/
theorem mem_of_moves {n : Nat} {a : Admission} {l l' : List Nat} {x : Admission → Prop}
    (hset : ∀ i, s'.admissionOf i = if i = n then some a else s.admissionOf i)
    (hl : ∀ i, i ∈ l ↔ ∃ c, s.admissionOf i = some c ∧ x c) (hself : n ∈ l' ↔ x a)
    (hother : ∀ i ≠ n, i ∈ l' ↔ i ∈ l) (i : Nat) :
    i ∈ l' ↔ ∃ c, s'.admissionOf i = some c ∧ x c := by
  rw [hset]
  by_cases hi : i = n
  · simp [hi, hself]
  · simp [hi, hother i hi, hl i]

theorem Admissions.call (h : Admissions s) (work : Work) :
    Admissions { s with workflows := s.workflows ++ [⟨work, .asking, none⟩] } := by
  have hset : ∀ i, ({ s with workflows := s.workflows ++ [⟨work, .asking, none⟩] } :
      ReleaseCoordinator).admissionOf i =
        if i = s.workflows.length then some .asking else s.admissionOf i := by
    exact map_getElem?_append_one s.workflows _ Workflow.admission
  have hn : s.admissionOf s.workflows.length = none := by simp [admissionOf]
  refine ⟨h.active_nodup, mem_of_moves hset h.active ?_ fun _ _ => .rfl,
    mem_of_moves hset h.waiting ?_ fun _ _ => .rfl, h.once,
    mem_of_moves hset h.admitted ?_ fun _ _ => .rfl, h.depth, h.closed⟩
  · simp [h.active, hn]
  · simp [h.waiting, hn]
  · simp [h.admitted, hn]

/-- Only one that asks is admitted, or parked. -/
theorem Admissions.check (h : Admissions s) (n : Nat) : Admissions (s.check n) := by
  unfold ReleaseCoordinator.check
  split
  · rename_i w hw
    split
    · rename_i hasks
      have hn : s.admissionOf n = some .asking := by simp [admissionOf, hw, hasks]
      have hactive : n ∉ s.activeWorkflows := by simp [h.active, hn]
      have hwait : n ∉ s.maintenanceWaiters := by simp [h.waiting, hn]
      have honce : n ∉ s.admissions := by simp [h.admitted, hn]
      split
      · refine ⟨?_, mem_of_moves (admissionOf_set hw _) h.active ?_ ?_,
          mem_of_moves (admissionOf_set hw _) h.waiting ?_ ?_, ?_,
          mem_of_moves (admissionOf_set hw _) h.admitted ?_ ?_, h.depth, h.closed⟩
        · exact List.nodup_append.mpr ⟨h.active_nodup, List.nodup_singleton _, fun a ha b hb hab =>
            hactive (List.mem_singleton.mp hb ▸ hab ▸ ha)⟩
        · simp
        · exact fun i hi => by simp [hi]
        · simp [hwait]
        · exact fun i hi => by simp
        · exact List.nodup_append.mpr ⟨h.once, List.nodup_singleton _, fun a ha b hb hab =>
            honce (List.mem_singleton.mp hb ▸ hab ▸ ha)⟩
        · simp
        · exact fun i hi => by simp [hi]
      · rename_i hdepth
        refine ⟨h.active_nodup, mem_of_moves (admissionOf_set hw _) h.active ?_ ?_,
          mem_of_moves (admissionOf_set hw _) h.waiting ?_ ?_, h.once,
          mem_of_moves (admissionOf_set hw _) h.admitted ?_ ?_, h.depth,
          fun _ => Nat.pos_of_ne_zero hdepth⟩
        · simp [hactive]
        · exact fun i hi => by simp
        · simp
        · exact fun i hi => by simp [hi]
        · simp [honce]
        · exact fun i hi => by simp
    · exact h
  · exact h

theorem Admissions.returns (h : Admissions s) (n : Nat) : Admissions (s.return_ n) := by
  unfold return_
  split
  · rename_i w hw
    split
    · rename_i hcond
      have ha : w.admission = .active := by simpa using (Bool.and_eq_true_iff.mp hcond).1
      have hn : s.admissionOf n = some .active := by simp [admissionOf, hw, ha]
      have hwait : n ∉ s.maintenanceWaiters := by simp [h.waiting, hn]
      have honce : n ∈ s.admissions := by simp [h.admitted, hn]
      refine ⟨h.active_nodup.erase n, mem_of_moves (admissionOf_set hw _) h.active ?_ ?_,
        mem_of_moves (admissionOf_set hw _) h.waiting ?_ ?_, h.once,
        mem_of_moves (admissionOf_set hw _) h.admitted ?_ ?_, h.depth, h.closed⟩
      · simp [h.active_nodup.mem_erase_iff]
      · exact fun i hi => List.mem_erase_of_ne hi
      · simp [hwait]
      · exact fun i hi => by simp
      · simp [honce]
      · exact fun i hi => by simp
    · exact h
  · exact h

/-! ### The depth -/

theorem Admissions.deepens (h : Admissions s) {m : Nat} (hm : s.maintenances[m]? = some .asking) :
    Admissions { s.setMaintenance m .draining with maintenanceDepth := s.maintenanceDepth + 1 } := by
  refine ⟨h.active_nodup, h.active, h.waiting, h.once, h.admitted, ?_, fun _ => Nat.succ_pos _⟩
  have hdepth := h.depth
  have hcount := countP_set_of_getElem? .draining hm Maintenance.holds
  have hasking : Maintenance.holds .asking = false := rfl
  have hdraining : Maintenance.holds .draining = true := rfl
  rw [hasking, hdraining] at hcount
  exact hcount.trans (by simpa using hdepth)

theorem Admissions.drains (h : Admissions s) {m : Nat} (hm : s.maintenances[m]? = some .draining) :
    Admissions (s.setMaintenance m .begun) := by
  refine ⟨h.active_nodup, h.active, h.waiting, h.once, h.admitted, ?_, h.closed⟩
  have hpos : 0 < s.maintenances.countP Maintenance.holds :=
    countP_pos_of_getElem? hm rfl
  have hdepth := h.depth
  have hcount := countP_set_of_getElem? .begun hm Maintenance.holds
  have hdraining : Maintenance.holds .draining = true := rfl
  have hbegun : Maintenance.holds .begun = true := rfl
  rw [hdraining, hbegun, if_pos rfl] at hcount
  exact hcount.trans ((Nat.sub_add_cancel hpos).trans hdepth)

theorem admissionOf_wakeAll (i : Nat) :
    s.wakeAll.admissionOf i =
      if i ∈ s.maintenanceWaiters then (s.admissionOf i).map fun _ => .asking
      else s.admissionOf i := by
  simp only [admissionOf, wakeAll, List.getElem?_mapIdx]
  cases s.workflows[i]? with
  | none => simp
  | some w =>
    simp only [Option.map_some]
    split
    · rfl
    · rfl

/-- The last end wakes every parked workflow. -/
theorem Admissions.wakes (h : Admissions s) {ms : List Maintenance} {depth : Nat}
    (hdepth : ms.countP Maintenance.holds = depth) :
    Admissions (wakeAll { s with maintenances := ms, maintenanceDepth := depth }) := by
  have hkept : ∀ (x : Admission → Prop) (i : Nat), ¬ x .parked → ¬ x .asking →
      ((∃ a, s.admissionOf i = some a ∧ x a) ↔
        ∃ a, (wakeAll { s with maintenances := ms, maintenanceDepth := depth }).admissionOf i = some a
          ∧ x a) := by
    intro x i hparked hasking
    rw [admissionOf_wakeAll]
    split
    · rename_i hi
      obtain ⟨a, hi', rfl⟩ := (h.waiting i).mp hi
      have hold : s.admissionOf i = some .parked := hi'
      simp only [admissionOf] at hold ⊢
      simp [hold, hparked, hasking]
    · rfl
  refine ⟨h.active_nodup, fun i => (h.active i).trans (hkept _ i nofun nofun),
    fun i => ⟨nofun, ?_⟩, h.once,
    fun i => (h.admitted i).trans (hkept _ i (by simp) (by simp)), hdepth, nofun⟩
  rintro ⟨a, hi, rfl⟩
  rw [admissionOf_wakeAll] at hi
  split at hi
  · simp at hi
  · rename_i hnot
    exact absurd ((h.waiting i).mpr ⟨_, hi, rfl⟩) hnot

theorem Admissions.ends (h : Admissions s) (m : Nat) : Admissions (s.endMaintenance m) := by
  unfold endMaintenance
  split
  · rename_i hm
    have hcount := countP_set_of_getElem? .ended hm Maintenance.holds
    have hbegun : Maintenance.holds .begun = true := rfl
    have hended : Maintenance.holds .ended = false := rfl
    rw [hbegun, hended, if_pos rfl, if_neg Bool.false_ne_true, h.depth] at hcount
    dsimp only
    split
    · exact h.wakes hcount
    · rename_i hdeep
      exact ⟨h.active_nodup, h.active, h.waiting, h.once, h.admitted, hcount,
        fun _ => Nat.pos_of_ne_zero hdeep⟩
  · exact h

theorem Admissions.step (h : Admissions s) (a : Step) : Admissions (s.step o p a) := by
  cases a with
  | call work => exact h.call work
  | check n => exact h.check n
  | start n => exact h.same (begin_same n)
  | decide_ n i now proceeds writable => exact h.same (decideBranch_same n i now proceeds writable)
  | continue_ n i throws => exact h.same (continueBranch_same n i throws)
  | return_ n => exact h.returns n
  | reclaimed k => exact h.same ⟨fun _ => rfl, rfl, rfl, rfl, rfl, rfl⟩
  | beginMaintenance =>
    refine ⟨h.active_nodup, h.active, h.waiting, h.once, h.admitted, ?_, h.closed⟩
    have hnew : [Maintenance.asking].countP Maintenance.holds = 0 := rfl
    exact (List.countP_append ..).trans (by rw [hnew]; exact h.depth)
  | deepen m =>
    simp only [ReleaseCoordinator.step]
    split
    · rename_i hm
      exact h.deepens hm
    · exact h
  | drained m =>
    simp only [ReleaseCoordinator.step]
    split
    · rename_i hm
      exact h.drains hm.1
    · exact h
  | endMaintenance m => exact h.ends m
  | other now c => exact h.same ⟨fun _ => rfl, rfl, rfl, rfl, rfl, rfl⟩

theorem admissions_start (r : Registry) : Admissions (start r) := by
  refine ⟨.nil, fun n => ⟨nofun, ?_⟩, fun n => ⟨nofun, ?_⟩, .nil, fun n => ⟨nofun, ?_⟩, rfl, nofun⟩
  · rintro ⟨a, h, -⟩
    simp [admissionOf, start] at h
  · rintro ⟨a, h, -⟩
    simp [admissionOf, start] at h
  · rintro ⟨a, h, -⟩
    simp [admissionOf, start] at h

theorem admissions_run (o : RegistryOptions) (p : ReleaseOptions) (r : Registry) (acts : List Step) :
    Admissions (run (step o p) (start r) acts) :=
  run_invariant (I := Admissions) (fun _ a h => h.step a) acts (start r) (admissions_start r)

/-! ### What a begun maintenance finds -/

/-- No workflow returns over a task of its own that is not over. -/
def Careful (s : ReleaseCoordinator) : Step → Prop
  | .return_ n => ∀ w branches, s.workflows[n]? = some w → w.branches = some branches →
    ∀ b ∈ branches, b.isOver = true
  | _ => True

/-- What a begun maintenance keeps out, and what it rests on. -/
structure Excludes (s : ReleaseCoordinator) : Prop where
  unstarted : ∀ (n : Nat) w, s.workflows[n]? = some w →
    w.admission = .asking ∨ w.admission = .parked → w.branches = none
  done : ∀ (n : Nat) w branches, s.workflows[n]? = some w → w.admission = .returned →
    w.branches = some branches → ∀ b ∈ branches, b.isOver = true
  quiet : .begun ∈ s.maintenances → s.activeWorkflows = [] ∧ s.backgroundReclaims = []

theorem Admissions.deep (h : Admissions s) (hm : .begun ∈ s.maintenances) :
    0 < s.maintenanceDepth :=
  h.depth ▸ List.countP_pos_iff.mpr ⟨_, hm, rfl⟩

theorem Admissions.open (h : Admissions s) {n : Nat} {w : Workflow}
    (hw : s.workflows[n]? = some w) (ha : w.admission = .active) : s.activeWorkflows ≠ [] := by
  have hn : n ∈ s.activeWorkflows := (h.active n).mpr ⟨_, by simp [admissionOf, hw, ha], rfl⟩
  exact List.ne_nil_of_mem hn

/-- A workflow replaced by one that is as it should be, and no maintenance that begins. -/
theorem Excludes.set (h : Excludes s) {n : Nat} {w' : Workflow}
    (hs : s'.workflows = s.workflows.set n w') (hm : s'.maintenances = s.maintenances)
    (hunstarted : w'.admission = .asking ∨ w'.admission = .parked → w'.branches = none)
    (hover : w'.admission = .returned → ∀ branches, w'.branches = some branches →
      ∀ b ∈ branches, b.isOver = true)
    (hquiet : .begun ∈ s.maintenances → s'.activeWorkflows = [] ∧ s'.backgroundReclaims = []) :
    Excludes s' := by
  have hcases : ∀ (i : Nat) v, s'.workflows[i]? = some v → v = w' ∨ s.workflows[i]? = some v := by
    intro i v hv
    rw [hs, List.getElem?_set] at hv
    split at hv
    · split at hv
      · exact .inl (Option.some.inj hv).symm
      · cases hv
    · exact .inr hv
  refine ⟨fun i v hv ha => ?_, fun i v branches hv ha => ?_, fun hb => hquiet (hm ▸ hb)⟩
  · rcases hcases i v hv with rfl | hv
    · exact hunstarted ha
    · exact h.unstarted i v hv ha
  · rcases hcases i v hv with rfl | hv
    · exact hover ha branches
    · exact h.done i v branches hv ha

/-- A task that is not over is one of an admitted workflow. -/
theorem Excludes.active_of_branch (h : Excludes s) {n i : Nat} {w : Workflow} {b : Branch}
    (hb : s.branch n i = some (w, b)) (hstage : b.isOver = false) : w.admission = .active := by
  obtain ⟨hw, branches, hbranches, hi⟩ := branch_some hb
  cases ha : w.admission with
  | active => rfl
  | asking => simp [h.unstarted n w hw (.inl ha)] at hbranches
  | parked => simp [h.unstarted n w hw (.inr ha)] at hbranches
  | returned =>
    have hover := h.done n w branches hw ha hbranches b (List.mem_of_getElem? hi)
    simp [hstage] at hover

/-- A step of an admitted workflow's own, under no maintenance. -/
theorem Excludes.works (h : Excludes s) (ha : Admissions s) {n : Nat} {w w' : Workflow}
    (hw : s.workflows[n]? = some w) (hactive : w.admission = .active)
    (hs : s'.workflows = s.workflows.set n w') (hm : s'.maintenances = s.maintenances)
    (hkept : w'.admission = w.admission) : Excludes s' := by
  have hactive' : w'.admission = .active := hkept.trans hactive
  refine h.set hs hm (by simp [hactive']) (by simp [hactive']) fun hb => ?_
  exact absurd (h.quiet hb).1 (ha.open hw hactive)

theorem Excludes.same (h : Excludes s) (hw : s'.workflows = s.workflows)
    (hm : .begun ∈ s'.maintenances → .begun ∈ s.maintenances)
    (hactive : s'.activeWorkflows = s.activeWorkflows)
    (hreclaims : s'.backgroundReclaims.Sublist s.backgroundReclaims) : Excludes s' := by
  refine ⟨hw ▸ h.unstarted, hw ▸ h.done, fun hb => ?_⟩
  obtain ⟨hnone, hquiet⟩ := h.quiet (hm hb)
  exact ⟨hactive.trans hnone, List.sublist_nil.mp (hquiet ▸ hreclaims)⟩

theorem begun_of_set {m : Nat} {x : Maintenance} (hx : x ≠ .begun)
    (h : .begun ∈ s.maintenances.set m x) : .begun ∈ s.maintenances := by
  rcases List.mem_or_eq_of_mem_set h with h | rfl
  · exact h
  · exact absurd rfl hx

theorem Excludes.check (h : Excludes s) (ha : Admissions s) (n : Nat) : Excludes (s.check n) := by
  unfold ReleaseCoordinator.check
  split
  · rename_i w hw
    split
    · rename_i hasks
      have hnone : w.branches = none := h.unstarted n w hw (.inl hasks)
      split
      · rename_i hdepth
        refine h.set rfl rfl nofun nofun fun hb => ?_
        have hdeep := ha.deep hb
        omega
      · exact h.set rfl rfl (fun _ => hnone) nofun h.quiet
    · exact h
  · exact h

theorem Excludes.begins (h : Excludes s) (ha : Admissions s) (n : Nat) :
    Excludes (s.begin_ n) := by
  unfold begin_
  split
  · rename_i w hw
    split
    · rename_i hcond
      have hactive : w.admission = .active := by simpa using (Bool.and_eq_true_iff.mp hcond).1
      exact h.works ha hw hactive rfl rfl rfl
    · exact h
  · exact h

theorem Excludes.decides (h : Excludes s) (ha : Admissions s) (n i : Nat) (now : Int)
    (proceeds writable : Bool) : Excludes (s.decideBranch o p n i now proceeds writable) := by
  unfold decideBranch
  split
  · rename_i w b hb
    obtain ⟨hw, -⟩ := branch_some hb
    split
    · rename_i hstage
      have hactive := h.active_of_branch hb (by simp [Branch.isOver, hstage])
      split
      · exact h.works ha hw hactive rfl rfl rfl
      · exact h.works ha hw hactive rfl rfl rfl
      · split
        · exact h.works ha hw hactive rfl rfl rfl
        · exact h.works ha hw hactive rfl rfl rfl
    · exact h
  · exact h

theorem Excludes.continues (h : Excludes s) (ha : Admissions s) (n i : Nat) (throws : Bool) :
    Excludes (s.continueBranch n i throws) := by
  unfold continueBranch
  split
  · rename_i w b hb
    obtain ⟨hw, -⟩ := branch_some hb
    split
    · rename_i hstage
      have hactive := h.active_of_branch hb (by simp [Branch.isOver, hstage])
      split
      · exact h.works ha hw hactive rfl rfl rfl
      · exact h.works ha hw hactive rfl rfl rfl
    · exact h
  · exact h

theorem Excludes.returns (h : Excludes s) (n : Nat) (hok : Careful s (.return_ n)) :
    Excludes (s.return_ n) := by
  unfold return_
  split
  · rename_i w hw
    split
    · refine h.set rfl rfl nofun (fun _ branches hb => hok w branches hw hb) fun hb => ?_
      obtain ⟨hnone, hquiet⟩ := h.quiet hb
      exact ⟨by simp [hnone], hquiet⟩
    · exact h
  · exact h

theorem Excludes.wakes (h : Excludes s) (ha : Admissions s) {ms : List Maintenance} {depth : Nat}
    (hm : .begun ∈ ms → .begun ∈ s.maintenances) :
    Excludes (wakeAll { s with maintenances := ms, maintenanceDepth := depth }) := by
  have hcases : ∀ (i : Nat) v,
      (wakeAll { s with maintenances := ms, maintenanceDepth := depth }).workflows[i]? = some v → s.workflows[i]? = some v ∨ v.admission = .asking ∧ v.branches = none := by
    intro i v hv
    simp only [wakeAll, List.getElem?_mapIdx] at hv
    obtain ⟨w, hw, rfl⟩ := Option.map_eq_some_iff.mp hv
    split
    · rename_i hi
      obtain ⟨a, hparked, rfl⟩ := (ha.waiting i).mp hi
      have hp : w.admission = .parked := by simpa [admissionOf, hw] using hparked
      exact .inr ⟨rfl, h.unstarted i w hw (.inr hp)⟩
    · exact .inl hw
  refine ⟨fun i v hv hadm => ?_, fun i v branches hv hret => ?_, fun hb => h.quiet (hm hb)⟩
  · rcases hcases i v hv with hv | ⟨-, hnone⟩
    · exact h.unstarted i v hv hadm
    · exact hnone
  · rcases hcases i v hv with hv | ⟨hask, -⟩
    · exact h.done i v branches hv hret
    · simp [hask] at hret

theorem Excludes.step (h : Excludes s) (ha : Admissions s) (a : Step) (hok : Careful s a) :
    Excludes (s.step o p a) := by
  cases a with
  | call work =>
    have hcases : ∀ (i : Nat) v, (s.workflows ++ [⟨work, .asking, none⟩])[i]? = some v →
        s.workflows[i]? = some v ∨ v = ⟨work, .asking, none⟩ := by
      intro i v hv
      rw [List.getElem?_append] at hv
      split at hv
      · exact .inl hv
      · exact .inr (List.mem_singleton.mp (List.mem_of_getElem? hv))
    refine ⟨fun i v hv hadm => ?_, fun i v branches hv hret => ?_, h.quiet⟩
    · rcases hcases i v hv with hv | rfl
      · exact h.unstarted i v hv hadm
      · rfl
    · rcases hcases i v hv with hv | rfl
      · exact h.done i v branches hv hret
      · cases hret
  | check n => exact h.check ha n
  | start n => exact h.begins ha n
  | decide_ n i now proceeds writable => exact h.decides ha n i now proceeds writable
  | continue_ n i throws => exact h.continues ha n i throws
  | return_ n => exact h.returns n hok
  | reclaimed k => exact h.same rfl id rfl List.erase_sublist
  | beginMaintenance =>
    exact h.same rfl (fun hb => by simpa [ReleaseCoordinator.step] using hb) rfl (.refl _)
  | deepen m =>
    simp only [ReleaseCoordinator.step]
    split
    · exact h.same rfl (begun_of_set nofun) rfl (.refl _)
    · exact h
  | drained m =>
    simp only [ReleaseCoordinator.step]
    split
    · rename_i hm
      exact ⟨h.unstarted, h.done, fun _ => hm.2⟩
    · exact h
  | endMaintenance m =>
    simp only [ReleaseCoordinator.step, ReleaseCoordinator.endMaintenance]
    split
    · split
      · exact h.wakes ha (begun_of_set nofun)
      · exact h.same rfl (begun_of_set nofun) rfl (.refl _)
    · exact h
  | other now c => exact h.same rfl id rfl (.refl _)

theorem excludes_start (r : Registry) : Excludes (start r) :=
  ⟨fun n w hw => by simp [start] at hw, fun n w branches hw => by simp [start] at hw, nofun⟩

theorem excludes_run (o : RegistryOptions) (p : ReleaseOptions) (r : Registry) (acts : List Step)
    (h : AllSteps (step o p) Careful (start r) acts) :
    Excludes (run (step o p) (start r) acts) :=
  (run_invariant_of_allSteps (I := fun s => Admissions s ∧ Excludes s)
    (fun _ a hok hi => ⟨hi.1.step a, hi.2.step hi.1 a hok⟩) acts (start r)
    ⟨admissions_start r, excludes_start r⟩ h).2

/-! ### Maintenance and workflows -/

/-- While a maintenance is begun and not ended, no workflow and no background reclaim runs, and none
    is admitted. -/
def Excluded (s : ReleaseCoordinator) : Prop :=
  .begun ∈ s.maintenances →
    (∀ w ∈ s.workflows, w.isRunning = false) ∧ s.backgroundReclaims = [] ∧
      ∀ n, (s.check n).admissions = s.admissions

/-- Every workflow is admitted at most once. One that is not admitted is among the waiters of a
    maintenance that is on, or asks, and is admitted when it asks after the last end. -/
def NoneLost (s : ReleaseCoordinator) : Prop :=
  s.admissions.Nodup ∧ ∀ (n : Nat) w, s.workflows[n]? = some w →
    n ∈ s.admissions ∨
    (w.admission = .parked ∧ n ∈ s.maintenanceWaiters ∧ 0 < s.maintenanceDepth) ∨
    (w.admission = .asking ∧ (s.maintenanceDepth = 0 → n ∈ (s.check n).admissions))

theorem Admissions.noneLost (h : Admissions s) : NoneLost s := by
  refine ⟨h.once, fun n w hw => ?_⟩
  have hn : s.admissionOf n = some w.admission := by simp [admissionOf, hw]
  cases ha : w.admission with
  | active => exact .inl ((h.admitted n).mpr ⟨_, hn, .inl ha⟩)
  | returned => exact .inl ((h.admitted n).mpr ⟨_, hn, .inr ha⟩)
  | parked =>
    have hwait : n ∈ s.maintenanceWaiters := (h.waiting n).mpr ⟨_, hn, ha⟩
    exact .inr (.inl ⟨rfl, hwait, h.closed (List.ne_nil_of_mem hwait)⟩)
  | asking =>
    refine .inr (.inr ⟨rfl, fun hzero => ?_⟩)
    simp [ReleaseCoordinator.check, hw, ha, hzero]

theorem Excludes.excluded (h : Excludes s) (ha : Admissions s) : Excluded s := by
  intro hb
  obtain ⟨hnone, hquiet⟩ := h.quiet hb
  refine ⟨fun w hw => ?_, hquiet, fun n => ?_⟩
  · obtain ⟨n, hn⟩ := List.getElem?_of_mem hw
    cases hadm : w.admission with
    | active => exact absurd hnone (ha.open hn hadm)
    | asking => simp [Workflow.isRunning, hadm, h.unstarted n w hn (.inl hadm)]
    | parked => simp [Workflow.isRunning, hadm, h.unstarted n w hn (.inr hadm)]
    | returned =>
      cases hbr : w.branches with
      | none => simp [Workflow.isRunning, hadm, hbr]
      | some branches =>
        have hover : branches.all Branch.isOver = true :=
          List.all_eq_true.mpr (h.done n w branches hn hadm hbr)
        simp [Workflow.isRunning, hadm, hbr, hover]
  · have hdeep := ha.deep hb
    unfold ReleaseCoordinator.check
    split
    · split
      · split
        · omega
        · rfl
      · rfl
    · rfl

/-- Every run whose workflows return only when their tasks are over. -/
theorem maintenance_excludes_workflows (o : RegistryOptions) (p : ReleaseOptions) (r : Registry)
    (acts : List Step) (h : AllSteps (step o p) Careful (start r) acts) :
    Excluded (run (step o p) (start r) acts) ∧ NoneLost (run (step o p) (start r) acts) :=
  have ha := admissions_run o p r acts
  ⟨(excludes_run o p r acts h).excluded ha, ha.noneLost⟩

def phone (n : String) : Registry.PhysicalEnrollmentInput :=
  ⟨.ios, "udid_" ++ n, "iPhone 15", "17.0", .phone, []⟩

def leasePhone (n : String) : List Step :=
  [.other 1 (.enrollPhysical ("dev_" ++ n) (phone n)),
    .other 2 (.createLease ("lse_" ++ n) ⟨"dev_" ++ n, "agent", "owner", 60, 100, none, none, none⟩)]

/-- A workflow of one task, admitted, done and returned. -/
def wholeWorkflow (n : Nat) : List Step :=
  [.start n, .decide_ n 0 3 true true, .continue_ n 0 false, .return_ n]

def onePhone : List Step :=
  leasePhone "1" ++ [.call (.one (.absent "lse_1" .notPresent)), .call .releaseAll, .check 0,
    .beginMaintenance, .deepen 0, .check 1] ++ wholeWorkflow 0 ++ [.drained 0]

theorem onePhone_careful :
    AllSteps (step shortRetention ⟨false, 60⟩) Careful (start .empty) onePhone := by
  refine ⟨trivial, trivial, trivial, trivial, trivial, trivial, trivial, trivial, trivial, trivial,
    trivial, fun w branches hw hb => ?_, trivial, trivial⟩
  have hover : ((run (step shortRetention ⟨false, 60⟩) (start .empty)
      (onePhone.take 11)).workflows[0]?.bind Workflow.branches).all
        (fun branches => branches.all Branch.isOver) = true := by decide +kernel
  have hw' : (run (step shortRetention ⟨false, 60⟩) (start .empty) (onePhone.take 11)).workflows[0]?
      = some w := hw
  rw [hw', Option.bind_some, hb] at hover
  exact List.all_eq_true.mp hover

theorem maintenance_excludes_workflows_onePhone :
    (run (step shortRetention ⟨false, 60⟩) (start .empty) onePhone).maintenances = [.begun] ∧
    Excluded (run (step shortRetention ⟨false, 60⟩) (start .empty) onePhone) :=
  ⟨by decide +kernel, (maintenance_excludes_workflows shortRetention ⟨false, 60⟩ .empty onePhone
    onePhone_careful).1⟩

/-- Three phones are lost while `releaseAll` releases four: it returns with the first release that
    finds its lease gone, maintenance begins, and the fourth phone's reclaim starts under it. -/
def fourPhones : List Step :=
  leasePhone "1" ++ leasePhone "2" ++ leasePhone "3" ++ leasePhone "4" ++
  [.call (.one (.absent "lse_1" .notPresent)), .call (.one (.absent "lse_2" .notPresent)),
    .call (.one (.absent "lse_3" .notPresent)), .call .releaseAll, .beginMaintenance,
    .check 0, .check 1, .check 2, .check 3, .start 3, .deepen 0] ++
  wholeWorkflow 0 ++ wholeWorkflow 1 ++ wholeWorkflow 2 ++
  [.decide_ 3 0 4 true true, .decide_ 3 1 4 true true, .decide_ 3 2 4 true true, .return_ 3,
    .decide_ 3 3 4 true true, .drained 0, .continue_ 3 3 false]

theorem releaseAll_reclaims_under_maintenance :
    ¬ ∀ (o : RegistryOptions) (p : ReleaseOptions) (r : Registry) (acts : List Step),
      Excluded (run (step o p) (start r) acts) := by
  intro h
  have hx := h shortRetention ⟨false, 60⟩ .empty fourPhones
  have hb : (run (step shortRetention ⟨false, 60⟩) (start .empty) fourPhones).maintenances
      = [.begun] := by decide +kernel
  have hr : (run (step shortRetention ⟨false, 60⟩) (start .empty) fourPhones).backgroundReclaims
      = [0] := by decide +kernel
  have hquiet := (hx (by rw [hb]; decide)).2.1
  rw [hr] at hquiet
  cases hquiet

end ReleaseCoordinator

end Simlock.Leasing
