import Simlock.Gateway.Dispatch

/-! What a gateway's request can come to hold.

    From the invariant of the walks: a waiter has one attempt at a time, every attempt leaves it
    settled, queued or in one attempt, and of the leases its workers granted at most one was not
    given back. A lease whose id conflicts is given back. The call that gives it back can fail, and
    nothing gives back what a worker grants after the gateway stopped waiting. -/

namespace Simlock.Gateway

open Simlock.Lib Simlock.Core Simlock.Leasing

namespace FleetHost

variable {ν : Type} {o : FleetOptions ν} {h h' h'' : FleetHost ν} {id : String}

/-! ### A walk keeps the requests there are -/

/-- The requests forwarded so far stay as they are. -/
def KeepsCalls (h h' : FleetHost ν) : Prop :=
  h.Fresh → h'.Fresh ∧ ∀ {n c}, h.calls n = some c → h'.calls n = some c

theorem KeepsCalls.of_same (hc : h'.calls = h.calls) (hs : h'.sent = h.sent) : KeepsCalls h h' := by
  intro hf
  refine ⟨fun n hn => ?_, fun {n c} h' => by rw [hc]; exact h'⟩
  rw [hc]
  exact hf n (hs ▸ hn)

theorem KeepsCalls.trans (hk : KeepsCalls h h') (hk' : KeepsCalls h' h'') : KeepsCalls h h'' := by
  intro hf
  obtain ⟨hf', hkeep⟩ := hk hf
  obtain ⟨hf'', hkeep'⟩ := hk' hf'
  exact ⟨hf'', fun hc => hkeep' (hkeep hc)⟩

theorem keepsCalls_staleView (unreachable : Option String) (now : Int) :
    KeepsCalls h (h.staleView o id unreachable now) := by
  unfold staleView
  split
  · exact .of_same rfl rfl
  · exact .of_same rfl rfl

theorem keepsCalls_attempt (workerId : String) (now : Int) :
    KeepsCalls h (h.attempt o id workerId now) := by
  unfold attempt
  split
  · refine fun hf => ⟨(touches_forward rfl).fresh hf, fun {n c} hc => ?_⟩
    have hn : n ≠ h.sent := by
      rintro rfl
      simp [hf h.sent (Nat.le_refl _)] at hc
    simpa [setCall, hn] using hc
  · exact keepsCalls_staleView _ _

theorem keepsCalls_beginAttempt (workerId : String) (now : Int) :
    KeepsCalls h (h.beginAttempt o id workerId now) := by
  unfold beginAttempt
  split
  · exact .of_same rfl rfl
  · refine KeepsCalls.trans ?_ (keepsCalls_attempt workerId now)
    exact .of_same rfl rfl

theorem keepsCalls_walkWaiter (claims : Claims) (w : Waiter FleetLeaseGrant) (now : Int) :
    KeepsCalls h (h.walkWaiter o claims id w now).2.2 := by
  simp only [walkWaiter]
  split
  · exact .of_same rfl rfl
  · split
    · simp only [rejectIfEveryWorkerFailedProvisioning]
      split
      · exact .of_same rfl rfl
      · split
        · exact .of_same rfl rfl
        · exact .of_same rfl rfl
    · refine KeepsCalls.trans ?_ (keepsCalls_beginAttempt _ now)
      exact .of_same rfl rfl

theorem keepsCalls_dispatch (now : Int) : KeepsCalls h (h.dispatch o now) := by
  have hpass : ∀ (ids : List String) (s : Bool × Claims × FleetHost ν),
      KeepsCalls s.2.2 (ids.foldl (passWaiter o none now) s).2.2 := by
    intro ids
    induction ids with
    | nil => exact fun s => .of_same rfl rfl
    | cons i ids ih =>
      intro s
      have hone : KeepsCalls s.2.2 (passWaiter o none now s i).2.2 := by
        unfold passWaiter
        split
        · exact .of_same rfl rfl
        · split
          · exact keepsCalls_walkWaiter _ _ now
          · exact keepsCalls_walkWaiter _ _ now
          · exact .of_same rfl rfl
      exact hone.trans (ih _)
  exact hpass h.queue.waiters (false, ⟨[], []⟩, h)

/-! ### The grants that conflict -/

/-- A worker grants another id than the forwarded one, or one routed to another worker. -/
def Conflicts (h : FleetHost ν) (c : Forwarded) (grant : LeaseGrant) : Prop :=
  ∃ w, h.queue.owned c.waiter = some w ∧
    (isOtherId w.options grant = true ∨ h.isRoutedElsewhere w.options c.workerId grant = true)

theorem release_of_releaseOnWorker (n : Nat) (c : Forwarded) :
    ∃ c', (h.releaseOnWorker n c).calls n = some c' ∧ c'.release ≠ .none := by
  refine ⟨_, Function.update_self _ _ _, ?_⟩
  dsimp only
  split <;> nofun

theorem answered_granted {n : Nat} {c : Forwarded} {grant : LeaseGrant}
    (hc : h.calls n = some c) (harr : c.arrived = false) (ha : c.awaited = true)
    (hg : c.answer = some (.granted grant)) (now : Int) :
    h.answered o n now =
      (h.setCall n { c with announced := true, arrived := true, awaited := false }).attemptGranted o n
        { c with announced := true, arrived := true, awaited := false } grant now := by
  obtain ⟨waiter, workerId, announced, awaited, arrived, answer, release⟩ := c
  subst harr ha hg
  simp only [answered, hc]

/-- A conflicting grant that is waited for is given back when it comes. -/
theorem answered_gives_back (hb : Between h none) {n : Nat} {c : Forwarded} {grant : LeaseGrant}
    (hc : h.calls n = some c) (ha : c.awaited = true) (hg : c.answer = some (.granted grant))
    (hconf : h.Conflicts c grant) (now : Int) :
    ∃ c', (h.answered o n now).calls n = some c' ∧ c'.release ≠ .none := by
  obtain ⟨w, hw, hconf⟩ := hconf
  have harr : c.arrived = false :=
    ((hb.placed c.waiter nofun).ok (callsOf_eq_some.mpr ⟨hc, rfl⟩)).awaited ha
  let c' : Forwarded := { c with announced := true, arrived := true, awaited := false }
  have hans : h.answered o n now = (h.setCall n c').attemptGranted o n c' grant now :=
    answered_granted hc harr ha hg now
  have hb' : Between (h.setCall n c') (some c.waiter) :=
    setCall_handed hb c' hc rfl (fun _ => .inl harr) fun _ => ⟨nofun, nofun⟩
  have hfresh : ((h.setCall n c').releaseOnWorker n c').Fresh :=
    hb'.fresh.setCall (Function.update_self _ _ _)
  obtain ⟨d, hd, hrel⟩ := release_of_releaseOnWorker (h := h.setCall n c') n c'
  have hw' : (h.setCall n c').queue.owned c'.waiter = some w := hw
  rw [hans]
  simp only [attemptGranted, hw']
  split
  · rename_i hother
    refine ⟨d, (KeepsCalls.trans ?_ (keepsCalls_staleView none now) hfresh).2 hd, hrel⟩
    unfold rememberRefusal
    split
    · exact .of_same rfl rfl
    · exact .of_same rfl rfl
  · rename_i hother
    have helse : h.isRoutedElsewhere w.options c.workerId grant = true := hconf.resolve_left hother
    have hadd : (h.setCall n c').index.add (entryOf w.options c'.workerId grant.lease)
        (some w.request.platform) = (false, (h.setCall n c').index) := by
      unfold FleetLeaseIndex.add
      exact if_pos helse
    simp only [settleGrant, hadd]
    refine ⟨d, (KeepsCalls.trans ?_ (keepsCalls_dispatch now) hfresh).2 hd, hrel⟩
    exact .of_same rfl rfl

/-! ### One attempt, one lease -/

theorem one_live (hb : Between h none) {n m : Nat} {c d : Forwarded} (hc : h.calls n = some c)
    (hd : h.calls m = some d) (hw : c.waiter = d.waiter) (hcl : c.Live) (hdl : d.Live) : n = m :=
  (hb.placed c.waiter nofun).one (callsOf_eq_some.mpr ⟨hc, rfl⟩)
    (callsOf_eq_some.mpr ⟨hd, hw.symm⟩) hcl hdl

/-- Where an attempt leaves its waiter. -/
theorem waiter_of_call (hb : Between h none) {n : Nat} {c : Forwarded} (hc : h.calls n = some c) :
    h.queue.Settled c.waiter ∨
      h.queue.stateOf c.waiter = some .queued ∧ c.arrived = true ∨
      h.queue.stateOf c.waiter = some .processing := by
  have hp := hb.placed c.waiter nofun
  have hcn := callsOf_eq_some.mpr ⟨hc, rfl⟩
  cases hs : h.queue.stateOf c.waiter with
  | none => cases hcn.symm.trans (hp.fresh (.inl hs) n)
  | some x =>
    cases x with
    | new => cases hcn.symm.trans (hp.fresh (.inr hs) n)
    | queued =>
      have harr : c.arrived = true := by
        cases harr : c.arrived with
        | true => rfl
        | false => exact absurd (.inl harr) (hp.queued hs hcn)
      exact .inr (.inl ⟨rfl, harr⟩)
    | processing => exact .inr (.inr rfl)
    | granted g => exact .inl ⟨_, hs, rfl⟩
    | rejected e => exact .inl ⟨_, hs, rfl⟩

/-- A waiter in `processing` has one attempt that is waited for. -/
theorem processing_attempt (hb : Between h none) {i : String}
    (hi : h.queue.stateOf i = some .processing) :
    ∃! n, ∃ c, h.calls n = some c ∧ c.waiter = i ∧ c.awaited = true := by
  have hp := hb.placed i nofun
  obtain ⟨n, c, hcn, ha⟩ := hp.processing hi
  obtain ⟨hc, hw⟩ := callsOf_eq_some.mp hcn
  refine ⟨n, ⟨c, hc, hw, ha⟩, ?_⟩
  rintro m ⟨d, hd, hwd, hda⟩
  have hdm := callsOf_eq_some.mpr ⟨hd, hwd⟩
  exact hp.one hdm hcn (.inl ((hp.ok hdm).awaited hda)) (.inl ((hp.ok hcn).awaited ha))

/-- One attempt in flight for each waiter; one lease that is not given back; a conflicting grant is
    given back; and an attempt leaves its waiter settled, queued with nothing in flight, or in
    `processing`, where exactly one attempt is waited for. -/
theorem one_attempt_and_one_lease (hr : Reached o h) :
    (∀ n m c d, h.calls n = some c → h.calls m = some d → c.waiter = d.waiter →
      c.arrived = false → d.arrived = false → n = m) ∧
    (∀ n m c d, h.calls n = some c → h.calls m = some d → c.waiter = d.waiter →
      c.KeepsLease → d.KeepsLease → n = m) ∧
    (∀ n c grant now, h.calls n = some c → c.awaited = true → c.answer = some (.granted grant) →
      h.Conflicts c grant →
        ∃ c', (h.answered o n now).calls n = some c' ∧ c'.release ≠ .none) ∧
    (∀ n c, h.calls n = some c →
      h.queue.Settled c.waiter ∨
      h.queue.stateOf c.waiter = some .queued ∧ c.arrived = true ∨
      h.queue.stateOf c.waiter = some .processing) ∧
    ∀ i, h.queue.stateOf i = some .processing →
      ∃! n, ∃ c, h.calls n = some c ∧ c.waiter = i ∧ c.awaited = true := by
  have hb := hr.between
  refine ⟨?_, ?_, ?_, ?_, ?_⟩
  · intro n m c d hc hd hw ha ha'
    exact one_live hb hc hd hw (.inl ha) (.inl ha')
  · intro n m c d hc hd hw hl hl'
    exact one_live hb hc hd hw hl.live hl'.live
  · intro n c grant now hc ha hg hconf
    exact answered_gives_back hb hc ha hg hconf now
  · intro n c hc
    exact waiter_of_call hb hc
  · intro i hi
    exact processing_attempt hb hi

/-! ### What is not given back -/

/-- The worker holds a lease for the request. -/
def holdsLease (h : FleetHost ν) (n : Nat) : Bool :=
  (h.calls n).any fun c =>
    c.release != .done && match c.answer with | some (.granted _) => true | _ => false

/-- The grant of the request has come, and nothing was done to give it back. -/
def isLeft (h : FleetHost ν) (n : Nat) : Bool :=
  h.holdsLease n && (h.calls n).any fun c => c.arrived && c.release = .none

def isSettledWaiter (h : FleetHost ν) (i : String) : Bool :=
  (h.queue.stateOf i).any WaiterState.isTerminal

/-- Every request goes to the first worker that is left. -/
def firstWorker : FleetOptions Unit where
  routing :=
    { assess := fun _ _ => none
      select := fun _ views => views.head?.map fun v => ⟨v.id⟩
      explain := fun _ _ => [] }
  maxPerRequester := none

def emptyView (id : String) : WorkerView Unit := ⟨id, false, "idle", none, [], ()⟩

def leasedPhone : Device :=
  .physical
    { id := "dev_1", driverDeviceId := "udid", createdAt := 0, lastLeaseEndedAt := none
      readyAt := none, shutdownAt := none, deletedAt := none, foreignStateDetectedAt := none
      foreignProvenanceDetectedAt := none, recoveringSince := none, recoveryAttempts := none
      deferredReclaimLeaseId := none, quarantinedAt := none, quarantineAttempts := none
      quarantineNextRetryAt := none, quarantineCause := none, address := none
      spec := ⟨.ios, "iPhone 16", "18.4", .phone⟩, state := .leased, enrolledApps := []
      reclaimingSince := none, absentReason := none }

def grantOf (leaseId : String) : LeaseGrant where
  device := leasedPhone
  environment := ⟨[], List.nodup_nil⟩
  lease := ⟨leaseId, "dev_1", "gw:agent", "owner", 0, 900000, 900000, 0, true⟩
  timing := ⟨0, 0, 0, 0⟩

def phone : DeviceRequest := ⟨.ios, none, none, none, none, none, none, some .phone, none⟩

def naming (leaseId : Option String) : WaiterOptions :=
  { requesterId := "agent", ownerId := "owner", idempotencyKey := none, leaseId := leaseId
    fleetRequestId := none, timeoutMs := none, noWait := false, requires := none }

/-- The worker grants after the gateway stopped to wait. -/
def lateGrant : List (FleetAction Unit) :=
  [.linksChanged fun _ => true,
    .viewsChanged [emptyView "w1"] [emptyView "w1"] 0,
    .request phone (naming none) "req_1" false false 0,
    .admitted "req_1" 0,
    .requestTimeout 0 60000,
    .decides 0 (.granted (grantOf "lse_1")),
    .answered 0 70000]

/-- The first worker grants another id, and its link is gone before the lease can be released. -/
def otherIdGrant : List (FleetAction Unit) :=
  [.linksChanged fun _ => true,
    .viewsChanged [emptyView "w1", emptyView "w2"] [emptyView "w1", emptyView "w2"] 0,
    .request phone (naming (some "mine")) "req_1" false false 0,
    .admitted "req_1" 0,
    .decides 0 (.granted (grantOf "other")),
    .linksChanged fun id => id = "w2",
    .answered 0 10,
    .viewsChanged [emptyView "w1", emptyView "w2"] [emptyView "w1", emptyView "w2"] 20,
    .decides 1 (.granted (grantOf "mine")),
    .answered 1 30]

theorem admits_lateGrant :
    AllSteps (step firstWorker) Admits (create "gw:") lateGrant := by
  refine ⟨trivial, trivial, rfl, trivial, trivial, trivial, trivial, trivial⟩

theorem admits_otherIdGrant :
    AllSteps (step firstWorker) Admits (create "gw:") otherIdGrant := by
  refine ⟨trivial, trivial, rfl, trivial, trivial, trivial, trivial, trivial, trivial, trivial,
    trivial⟩

theorem admits_forwarded :
    AllSteps (step firstWorker) Admits (create "gw:") (lateGrant.take 4) :=
  ⟨trivial, trivial, rfl, trivial, trivial⟩

theorem one_attempt_and_one_lease_forwarded :
    ∃! n, ∃ c, (run (step firstWorker) (create "gw:") (lateGrant.take 4)).calls n = some c ∧
      c.waiter = "req_1" ∧ c.awaited = true :=
  (one_attempt_and_one_lease ⟨"gw:", lateGrant.take 4, admits_forwarded, rfl⟩).2.2.2.2 "req_1" rfl

/-- A grant for a settled waiter is left on its worker, and a request can come to hold devices on
    two workers. -/
theorem request_holds_on_two_workers :
    (∃ h : FleetHost Unit, Reached firstWorker h ∧
      h.isSettledWaiter "req_1" = true ∧ h.isLeft 0 = true) ∧
    ∃ h : FleetHost Unit, Reached firstWorker h ∧
      (h.calls 0).map Forwarded.waiter = some "req_1" ∧
      (h.calls 1).map Forwarded.waiter = some "req_1" ∧
      (h.calls 0).map Forwarded.workerId = some "w1" ∧
      (h.calls 1).map Forwarded.workerId = some "w2" ∧
      h.holdsLease 0 = true ∧ h.holdsLease 1 = true := by
  refine ⟨⟨_, ⟨"gw:", lateGrant, admits_lateGrant, rfl⟩, ?_⟩,
    ⟨_, ⟨"gw:", otherIdGrant, admits_otherIdGrant, rfl⟩, ?_⟩⟩
  · decide +kernel
  · decide +kernel

end FleetHost

end Simlock.Gateway
