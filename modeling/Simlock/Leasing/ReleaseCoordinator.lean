import Simlock.Leasing.Expiry

/-! The coordinator of lease ends, and the maintenance it admits no workflow under.

    A normal workflow asks for admission in a serialized section: it is admitted while no maintenance
    is on, and parked otherwise. What it then does is a list of tasks side by side (one for each lease
    of a `releaseAll`), each with one section of its own; a committed release goes on as a reclaim in
    the background. Maintenance is counted, and its begin waits until no workflow and no background
    reclaim is left.

        asking ──check──▶ active ──start──▶ tasks ──return──▶ returned
          │▲ depth > 0                        │ commit, then background reclaim
          ▼│ last end wakes                   ▼
         parked                            reclaims

    Every section and every continuation is a step of its own, in any order. -/

namespace Simlock.Leasing

open Simlock.Lib Simlock.Core

/-! ### Workflows -/

inductive ReclaimMode where
  | background | none
  deriving DecidableEq, Repr

/-- What a workflow does under its admission. -/
inductive Task where
  | release (leaseId : String) (expectedDeadline : Option Int) (reclaim : ReclaimMode)
  | save (leaseId : String)
  | missing (leaseId : String)
  | absent (leaseId : String) (reason : AbsentReason)
  | returned (deviceId : String) (osVersion : Option String)
  | renew (leaseId : String) (ttlMs : Option Int)
  | write (c : Call)

/-- How far a task is: its section is queued, its commit is in, it is over, or it threw. -/
inductive Stage where
  | queued | committed | over | failed
  deriving DecidableEq, Repr

structure Branch where
  task : Task
  stage : Stage

def Branch.isOver (b : Branch) : Bool := b.stage = .over || b.stage = .failed

/-- A call of the coordinator's. -/
inductive Work where
  | one (task : Task)
  | releaseAll

inductive Admission where
  | asking | parked | active | returned
  deriving DecidableEq, Repr

structure Workflow where
  work : Work
  admission : Admission
  branches : Option (List Branch)

def Workflow.setStage (w : Workflow) (i : Nat) (b : Branch) (stage : Stage) : Workflow :=
  { w with branches := w.branches.map fun branches => branches.set i { b with stage := stage } }

/-- Where a `beginMaintenance`, and the `endMaintenance` that matches it, are. -/
inductive Maintenance where
  | asking | draining | begun | ended
  deriving DecidableEq, Repr

structure ReleaseOptions where
  hasParticipants : Bool
  defaultTtlMs : Int
  deriving DecidableEq, Repr

structure ReleaseCoordinator where
  registry : Registry
  maintenanceDepth : Nat
  maintenanceWaiters : List Nat
  activeWorkflows : List Nat
  /-- Those of a workflow, by number: from the release's continuation until the reclaim settles. -/
  backgroundReclaims : List Nat
  workflows : List Workflow
  maintenances : List Maintenance
  /-- The workflows admitted, in order. -/
  admissions : List Nat
  reclaims : Nat

namespace ReleaseCoordinator

def start (r : Registry) : ReleaseCoordinator := ⟨r, 0, [], [], [], [], [], [], 0⟩

end ReleaseCoordinator

/-! ### The section of a task -/

/-- Whether a committed release is reclaimed by a workflow other than this one's continuation. -/
def ReclaimMode.deferReclaim (o : ReleaseOptions) : ReclaimMode → Bool
  | .none => true
  | .background => o.hasParticipants

/-- What a section comes to: nothing to do, a commit, or a throw. -/
inductive Decided where
  | nothing
  | committed (r : Registry)
  | failed

def decided : Option Registry → Decided
  | none => .failed
  | some r => .committed r

def hasLease (r : Registry) (leaseId : String) : Bool := (r.lease leaseId).isSome

/-- The section of a task. `proceeds` is what its caller asks again there, and whether a returned
    device could be claimed. -/
def Task.section (o : RegistryOptions) (p : ReleaseOptions) (r : Registry) (now : Int)
    (proceeds : Bool) : Task → Decided
  | .release leaseId expectedDeadline reclaim =>
    if expectedDeadline.any fun d => (r.lease leaseId).map LeaseRecord.ttlDeadline ≠ some d then
      .nothing
    else decided (r.apply o now (.beginRelease leaseId (reclaim.deferReclaim p)))
  | .save leaseId => decided (r.apply o now (.beginRelease leaseId p.hasParticipants))
  | .missing leaseId => decided (r.apply o now (.endLeaseAndMarkDeviceMissing leaseId))
  | .absent leaseId reason =>
    if !proceeds || !hasLease r leaseId then .nothing
    else decided (r.apply o now (.endLeaseAndMarkDeviceAbsent leaseId reason))
  | .returned deviceId osVersion =>
    match r.device deviceId, osVersion with
    | some (.physical d), none =>
      if proceeds && d.state = .reclaiming && !r.leases.any fun l => l.deviceId = d.id then
        .committed r
      else .nothing
    | some (.physical d), some version =>
      if proceeds && d.state = .absent then
        decided (r.apply o now (.transitionDevice d.id .reclaiming (some ⟨.returned, d.id⟩)
          { osVersion := some version }))
      else .nothing
    | _, _ => .nothing
  | .renew leaseId ttlMs =>
    let width := ttlMs.getD (((r.lease leaseId).map LeaseRecord.ttlMs).getD p.defaultTtlMs)
    decided (r.apply o now (.renewLease leaseId (now + width) width))
  | .write c => if proceeds then decided (r.apply o now c) else .nothing

/-- Whether the task's commit is followed by a reclaim in the background. -/
def Task.reclaims : Task → Bool
  | .release _ _ .background | .returned _ _ => true
  | _ => false

/-! ### The steps -/

namespace ReleaseCoordinator

variable (s : ReleaseCoordinator)

/-- A step of one of the coordinator's calls, by its number. -/
inductive Step where
  | call (work : Work)
  /-- The section of `#awaitAdmission`. -/
  | check (n : Nat)
  /-- An admitted workflow begins: a `releaseAll` reads the leases there are. -/
  | start (n : Nat)
  /-- The section of a workflow's task; `writable` is whether a write reaches the tables. -/
  | decide_ (n i : Nat) (now : Int) (proceeds writable : Bool)
  /-- What follows a task's commit, in the workflow; a save can throw there. -/
  | continue_ (n i : Nat) (throws : Bool)
  /-- The end of a workflow: its tasks are over, or one of them threw. -/
  | return_ (n : Nat)
  | reclaimed (k : Nat)
  | beginMaintenance
  /-- The section of a `beginMaintenance`. -/
  | deepen (m : Nat)
  /-- It finds no workflow and no background reclaim. -/
  | drained (m : Nat)
  /-- The section of the matching `endMaintenance`. -/
  | endMaintenance (m : Nat)
  /-- A commit of the rest of the daemon. -/
  | other (now : Int) (c : Call)

def setWorkflow (n : Nat) (w : Workflow) : ReleaseCoordinator :=
  { s with workflows := s.workflows.set n w }

def setMaintenance (m : Nat) (x : Maintenance) : ReleaseCoordinator :=
  { s with maintenances := s.maintenances.set m x }

/-- `Promise.all`: it throws with the first task that does. -/
def settles (branches : List Branch) : Bool :=
  branches.all Branch.isOver || branches.any fun b => b.stage = .failed

def check (n : Nat) : ReleaseCoordinator :=
  match s.workflows[n]? with
  | some w =>
    if w.admission = .asking then
      if s.maintenanceDepth = 0 then
        { s.setWorkflow n { w with admission := .active } with
          activeWorkflows := s.activeWorkflows ++ [n]
          admissions := s.admissions ++ [n] }
      else
        { s.setWorkflow n { w with admission := .parked } with
          maintenanceWaiters := s.maintenanceWaiters ++ [n] }
    else s
  | none => s

/-- The tasks of a workflow that begins now. -/
def tasksOf : Work → List Task
  | .one task => [task]
  | .releaseAll => s.registry.leases.map fun lease => .release lease.id none .background

def begin_ (n : Nat) : ReleaseCoordinator :=
  match s.workflows[n]? with
  | some w =>
    if w.admission = .active && w.branches.isNone then
      s.setWorkflow n { w with branches := some ((s.tasksOf w.work).map fun task => ⟨task, .queued⟩) }
    else s
  | none => s

/-- A task of a workflow, and the workflow with that task in the stage given. -/
def branch (n i : Nat) : Option (Workflow × Branch) :=
  match s.workflows[n]? with
  | some w =>
    match w.branches.bind fun branches => branches[i]? with
    | some b => some (w, b)
    | none => none
  | none => none

def decideBranch (o : RegistryOptions) (p : ReleaseOptions) (n i : Nat) (now : Int)
    (proceeds writable : Bool) : ReleaseCoordinator :=
  match s.branch n i with
  | some (w, b) =>
    if b.stage = .queued then
      match b.task.section o p s.registry now proceeds with
      | .nothing => s.setWorkflow n (w.setStage i b .over)
      | .failed => s.setWorkflow n (w.setStage i b .failed)
      | .committed r =>
        if writable then
          { s.setWorkflow n (w.setStage i b .committed) with registry := r }
        else s.setWorkflow n (w.setStage i b .failed)
    else s
  | none => s

def continueBranch (n i : Nat) (throws : Bool) : ReleaseCoordinator :=
  match s.branch n i with
  | some (w, b) =>
    if b.stage = .committed then
      if b.task.reclaims then
        { s.setWorkflow n (w.setStage i b .over) with
          backgroundReclaims := s.backgroundReclaims ++ [s.reclaims]
          reclaims := s.reclaims + 1 }
      else s.setWorkflow n (w.setStage i b (if throws then .failed else .over))
    else s
  | none => s

def return_ (n : Nat) : ReleaseCoordinator :=
  match s.workflows[n]? with
  | some w =>
    if w.admission = .active && w.branches.any settles then
      { s.setWorkflow n { w with admission := .returned } with
        activeWorkflows := s.activeWorkflows.erase n }
    else s
  | none => s

/-- The last end wakes whom the waiters name, and each asks again. -/
def wakeAll : ReleaseCoordinator :=
  { s with
    maintenanceWaiters := []
    workflows := s.workflows.mapIdx fun n w =>
      if n ∈ s.maintenanceWaiters then { w with admission := .asking } else w }

def endMaintenance (m : Nat) : ReleaseCoordinator :=
  if s.maintenances[m]? = some .begun then
    let s := { s.setMaintenance m .ended with maintenanceDepth := s.maintenanceDepth - 1 }
    if s.maintenanceDepth = 0 then s.wakeAll else s
  else s

def step (o : RegistryOptions) (p : ReleaseOptions) (s : ReleaseCoordinator) :
    Step → ReleaseCoordinator
  | .call work => { s with workflows := s.workflows ++ [⟨work, .asking, none⟩] }
  | .check n => s.check n
  | .start n => s.begin_ n
  | .decide_ n i now proceeds writable => s.decideBranch o p n i now proceeds writable
  | .continue_ n i throws => s.continueBranch n i throws
  | .return_ n => s.return_ n
  | .reclaimed k => { s with backgroundReclaims := s.backgroundReclaims.erase k }
  | .beginMaintenance => { s with maintenances := s.maintenances ++ [.asking] }
  | .deepen m =>
    if s.maintenances[m]? = some .asking then
      { s.setMaintenance m .draining with maintenanceDepth := s.maintenanceDepth + 1 }
    else s
  | .drained m =>
    if s.maintenances[m]? = some .draining ∧ s.activeWorkflows = [] ∧ s.backgroundReclaims = [] then
      s.setMaintenance m .begun
    else s
  | .endMaintenance m => s.endMaintenance m
  | .other now c => { s with registry := (s.registry.apply o now c).getD s.registry }

end ReleaseCoordinator

end Simlock.Leasing
