import Simlock.LeasePolicy.RenewalRuns

/-! One step of the renewal loop keeps what holds of it.

    `Sound` is what holds between steps and `Between` what holds inside one, when no timer is armed.
    Whatever a callback does, it leaves the loop as it was or stopped. -/

namespace Simlock.LeasePolicy

open Simlock.Lib

/-! ### The delay -/

/-- A timer armed with any but the least delay left is in time. -/
theorem arm_inTime (deadline now : ℚ) (ttlMs : Option ℚ) (handle : Nat) (role : Role)
    (hleft : deadline - now ≠ minimumRenewDelayMs) :
    (Timer.mk handle now (now + renewDelayMs (deadline - now) ttlMs) role).InTime deadline := by
  have hwidth : ∃ width : ℚ, width ≤ deadline - now ∧ renewDelayMs (deadline - now) ttlMs ≤
      max minimumRenewDelayMs ⌊width / renewDivisor⌋ := by
    cases ttlMs with
    | none => exact ⟨deadline - now, le_refl _, min_le_right _ _⟩
    | some ttlMs => exact ⟨min ttlMs (deadline - now), min_le_right _ _, min_le_right _ _⟩
  obtain ⟨width, hwidth, hdelay⟩ := hwidth
  have hfloor : (⌊width / renewDivisor⌋ : ℚ) ≤ width / 3 := Int.floor_le _
  unfold Timer.InTime minimumRenewDelayMs at *
  dsimp only
  rcases lt_or_gt_of_ne hleft with hless | hmore
  · refine .inr ⟨hless, ?_⟩
    have hmax : max (250 : ℚ) ⌊width / renewDivisor⌋ ≤ 250 := max_le (le_refl _) (by linarith)
    linarith
  · refine .inl ?_
    have hmax : max (250 : ℚ) ⌊width / renewDivisor⌋ < deadline - now :=
      max_lt hmore (by linarith)
    linarith

/-! ### The invariant -/

/-- The role of the timer while no race waits to be resumed. -/
def roleOf : Option Race → Role
  | none => .wait
  | some race => .bound race.attemptId

structure Numbered (s : Renewal) : Prop where
  stage : ∀ attemptId, s.stage attemptId ≠ .unsent → 0 < attemptId ∧ attemptId ≤ s.attempts
  current : ∀ race, s.race = some race → race.attemptId = s.attempts
  newest : s.newestAnswered ≤ s.attempts
  settled : s.newestAnswered = 0 ∨ s.stage s.newestAnswered = .settled
  won : s.stopped = false → ∀ attemptId lease,
    s.race = some ⟨attemptId, some (.answered (.renewed lease))⟩ →
      s.newestAnswered = attemptId ∧ s.deadline = lease.ttlDeadline

/-- The armed timers are what the loop's variable holds. -/
def Single (s : Renewal) : Prop :=
  (s.timers = [] ∧ s.timer = none) ∨ ∃ timer, s.timers = [timer] ∧ s.timer = some timer.handle

structure Armed (s : Renewal) : Prop where
  single : Single s
  quiet : s.stopped = true → s.timers = []
  running : s.stopped = false → undecided s.race →
    ∃ timer, s.timers = [timer] ∧ timer.InTime s.deadline ∧ timer.role = roleOf s.race

/-- Between two steps. -/
structure Sound (grant : RenewedLease) (s : Renewal) : Prop where
  heard : Heard grant s.seen s.stopped s.deadline s.newestAnswered
  numbered : Numbered s
  armed : Armed s

/-- Inside a step, with no timer armed. -/
structure Between (grant : RenewedLease) (s : Renewal) : Prop where
  heard : Heard grant s.seen s.stopped s.deadline s.newestAnswered
  numbered : Numbered s
  timers : s.timers = []
  timer : s.timer = none

variable {grant : RenewedLease} {s : Renewal}

/-! ### The loop's own operations -/

theorem Single.cancelTimer (h : Single s) :
    s.cancelTimer = { s with timers := [], timer := none } := by
  unfold Renewal.cancelTimer
  rcases h with ⟨htimers, htimer⟩ | ⟨timer, htimers, htimer⟩
  · rw [htimer]
    dsimp only
    rw [← htimers, ← htimer]
  · rw [htimer]
    dsimp only
    rw [htimers]
    simp

theorem Single.stop (h : Single s) :
    s.stop =
      { s with timers := [], timer := none, stopped := true, seen := .stop :: s.seen } := by
  have hsingle : Single { s with stopped := true } := h
  unfold Renewal.stop
  rw [hsingle.cancelTimer]
  rfl

/-- A callback leaves the loop as it was, or stopped. -/
theorem Single.callback (h : Single s) (event : Event) (stops : Bool) :
    s.callback event stops =
      if stops then
        { s with timers := [], timer := none, stopped := true, seen := .stop :: event :: s.seen }
      else { s with seen := event :: s.seen } := by
  have hsingle : Single (s.log event) := h
  unfold Renewal.callback
  rw [hsingle.stop]
  rfl

theorem Numbered.stopped (h : Numbered s) (timers : List Timer) (timer : Option Nat)
    (seen : List Event) :
    Numbered { s with timers := timers, timer := timer, stopped := true, seen := seen } :=
  { h with won := nofun }

theorem Between.single (h : Between grant s) : Single s := .inl ⟨h.timers, h.timer⟩

/-- Once the loop is over, a state inside a step is sound. -/
theorem Between.over (h : Between grant s) (hstopped : s.stopped = true) : Sound grant s where
  heard := h.heard
  numbered := h.numbered
  armed :=
    { single := h.single
      quiet := fun _ => h.timers
      running := fun hrunning => by
        rw [hstopped] at hrunning
        cases hrunning }

theorem Between.arm (h : Between grant s) (hrunning : s.stopped = false)
    (hleft : s.deadline - s.now ≠ minimumRenewDelayMs) {role : Role} (hrole : role = roleOf s.race) :
    Sound grant (s.arm role) := by
  refine ⟨h.heard, ⟨h.numbered.stage, h.numbered.current, h.numbered.newest, h.numbered.settled,
    h.numbered.won⟩, ?_⟩
  have htimers : (s.arm role).timers =
      [⟨s.handles, s.now, s.now + renewDelayMs (s.deadline - s.now) s.ttlMs, role⟩] := by
    unfold Renewal.arm
    dsimp only
    rw [h.timers]
    rfl
  refine ⟨.inr ⟨_, htimers, rfl⟩, fun hstopped => ?_, fun _ _ => ⟨_, htimers, ?_, hrole⟩⟩
  · have hstopped' : s.stopped = true := hstopped
    rw [hrunning] at hstopped'
    cases hstopped'
  · exact arm_inTime s.deadline s.now s.ttlMs s.handles role hleft

theorem Between.schedule (h : Between grant s) (hrace : s.race = none)
    (hleft : s.stopped = false → s.deadline - s.now ≠ minimumRenewDelayMs) :
    Sound grant s.schedule := by
  unfold Renewal.schedule
  split
  · rename_i hstopped
    exact h.over hstopped
  · rename_i hrunning
    have hrunning' : s.stopped = false := by simpa using hrunning
    exact h.arm hrunning' (hleft hrunning') (by rw [hrace]; rfl)

theorem Between.giveUp (h : Between grant s) (reason : LeaseGoneReason) (stops : Bool) :
    Sound grant (s.giveUp reason stops) := by
  unfold Renewal.giveUp
  split
  · rename_i hstopped
    exact h.over hstopped
  · rename_i hrunning
    have hheard := h.heard
    rw [show s.stopped = false by simpa using hrunning] at hheard
    have hsingle : Single { s with stopped := true } := h.single
    rw [hsingle.cancelTimer]
    have hsingle' : Single { s with stopped := true, timers := [], timer := none } :=
      .inl ⟨rfl, rfl⟩
    rw [hsingle'.callback]
    have hlost := hheard.lost reason
    split
    · exact Between.over ⟨hlost.stop, h.numbered.stopped _ _ _, rfl, rfl⟩ rfl
    · exact Between.over ⟨hlost, h.numbered.stopped _ _ _, rfl, rfl⟩ rfl

/-- A failed attempt is reported, and then the lease is over or waits again. -/
theorem Between.failed (h : Between grant s) (hrunning : s.stopped = false)
    (hrace : s.race = none) (errorStops goneStops : Bool)
    (hleft : errorStops = false → s.deadline - s.now ≠ minimumRenewDelayMs) :
    Sound grant (s.failed errorStops goneStops) := by
  have hheard := h.heard
  rw [hrunning] at hheard
  have hcall := hheard.call .onError rfl rfl rfl
  unfold Renewal.failed
  rw [h.single.callback]
  cases errorStops with
  | true =>
    have hbetween : Between grant { s with
        timers := [], timer := none, stopped := true, seen := .stop :: .onError :: s.seen } :=
      ⟨hcall.stop, h.numbered.stopped _ _ _, rfl, rfl⟩
    simp only [if_true]
    split
    · exact hbetween.giveUp _ _
    · exact hbetween.schedule hrace nofun
  | false =>
    have hbetween : Between grant { s with seen := .onError :: s.seen } :=
      ⟨by rw [hrunning]; exact hcall, { h.numbered with }, h.timers, h.timer⟩
    simp only [Bool.false_eq_true, if_false]
    split
    · exact hbetween.giveUp _ _
    · exact hbetween.schedule hrace fun _ => hleft rfl

/-! ### The race -/

/-- Deciding a race changes nothing else, and only the race of its attempt. -/
theorem decideRace_cases (attemptId : Nat) (outcome : Outcome) (s : Renewal) :
    (s.race = some ⟨attemptId, none⟩ ∧
        s.decideRace attemptId outcome = { s with race := some ⟨attemptId, some outcome⟩ }) ∨
      s.race ≠ some ⟨attemptId, none⟩ ∧ s.decideRace attemptId outcome = s := by
  unfold Renewal.decideRace
  split
  · rename_i current hrace
    by_cases hcurrent : current = attemptId
    · subst hcurrent
      exact .inl ⟨hrace, if_pos rfl⟩
    · refine .inr ⟨fun heq => ?_, if_neg hcurrent⟩
      rw [hrace] at heq
      cases heq
      exact hcurrent rfl
  · rename_i hother
    exact .inr ⟨hother attemptId, rfl⟩

/-- Deciding the race of an attempt in progress, with an answer that has been adopted. -/
theorem Sound.decideRace (h : Sound grant s) (attemptId : Nat) (outcome : Outcome)
    (hwon : s.stopped = false → ∀ lease, outcome = .answered (.renewed lease) →
      s.race = some ⟨attemptId, none⟩ →
        s.newestAnswered = attemptId ∧ s.deadline = lease.ttlDeadline) :
    Sound grant (s.decideRace attemptId outcome) := by
  rcases decideRace_cases attemptId outcome s with ⟨hrace, heq⟩ | ⟨-, heq⟩
  · rw [heq]
    refine ⟨h.heard, ⟨h.numbered.stage, ?_, h.numbered.newest, h.numbered.settled, ?_⟩,
      ⟨h.armed.single, h.armed.quiet, fun _ hundecided => hundecided.elim⟩⟩
    · intro race hrace'
      cases hrace'
      exact h.numbered.current ⟨attemptId, none⟩ hrace
    · intro hrunning id lease hid
      cases hid
      exact hwon hrunning lease rfl hrace
  · rw [heq]
    exact h

/-! ### The steps -/

theorem Sound.stop (h : Sound grant s) : Sound grant s.stop := by
  rw [h.armed.single.stop]
  exact Between.over ⟨h.heard.stop, h.numbered.stopped _ _ _, rfl, rfl⟩ rfl

theorem Sound.wait (h : Sound grant s) (time : ℚ) : Sound grant { s with now := time } :=
  ⟨h.heard, { h.numbered with }, { h.armed with single := h.armed.single }⟩

theorem Sound.tick (h : Between grant s) (hrunning : s.stopped = false)
    (hleft : s.deadline - s.now ≠ minimumRenewDelayMs) : Sound grant s.tick := by
  unfold Renewal.tick
  rw [if_neg (by simp [hrunning])]
  have hbetween : Between grant { s with
      attempts := s.attempts + 1, race := some ⟨s.attempts + 1, none⟩ } := by
    refine ⟨h.heard, ⟨fun id hid => ?_, fun race hrace => ?_, ?_, h.numbered.settled, ?_⟩,
      h.timers, h.timer⟩
    · have hstage := h.numbered.stage id hid
      exact ⟨hstage.1, hstage.2.trans (Nat.le_succ _)⟩
    · cases hrace
      rfl
    · exact h.numbered.newest.trans (Nat.le_succ _)
    · intro _ id lease hid
      cases hid
  exact hbetween.arm hrunning hleft rfl

theorem Sound.fired (h : Sound grant s) {timer : Timer} (htimer : timer ∈ s.timers)
    (hleft : timer.role = .wait → s.deadline - s.now ≠ minimumRenewDelayMs) :
    Sound grant (s.fired timer) := by
  have hrunning : s.stopped = false := by
    by_contra hstopped
    rw [h.armed.quiet (by simpa using hstopped)] at htimer
    cases htimer
  have htimers : s.timers = [timer] := by
    rcases h.armed.single with ⟨hnone, -⟩ | ⟨only, honly, -⟩
    · rw [hnone] at htimer
      cases htimer
    · rw [honly] at htimer ⊢
      rw [List.mem_singleton.1 htimer]
  have hbetween : Between grant { s with
      timers := s.timers.filter (·.handle ≠ timer.handle), timer := none } :=
    ⟨h.heard, { h.numbered with }, by rw [htimers]; simp, rfl⟩
  unfold Renewal.fired
  dsimp only
  cases hrole : timer.role with
  | wait => exact Sound.tick hbetween hrunning (hleft hrole)
  | bound attemptId =>
    -- the bound of the attempt in progress, or of one whose race is decided
    have hdecided : Sound grant
        ({ s with timers := s.timers.filter (·.handle ≠ timer.handle), timer := none }.decideRace
          attemptId .timedOut) := by
      rcases decideRace_cases attemptId .timedOut
        { s with timers := s.timers.filter (·.handle ≠ timer.handle), timer := none } with
        ⟨hrace, heq⟩ | ⟨hrace, heq⟩
      · rw [heq]
        refine ⟨h.heard, ⟨h.numbered.stage, ?_, h.numbered.newest, h.numbered.settled, ?_⟩,
          ⟨hbetween.single, fun _ => hbetween.timers, fun _ hundecided => hundecided.elim⟩⟩
        · intro race hrace'
          cases hrace'
          exact h.numbered.current ⟨attemptId, none⟩ hrace
        · intro _ id lease hid
          cases hid
      · rw [heq]
        refine ⟨h.heard, hbetween.numbered, ⟨hbetween.single, fun _ => hbetween.timers, ?_⟩⟩
        intro _ hundecided
        obtain ⟨only, honly, -, honlyRole⟩ := h.armed.running hrunning hundecided
        obtain rfl : timer = only := by simpa [htimers] using honly
        rw [hrole] at honlyRole
        dsimp only at hrace hundecided
        cases hcurrent : s.race with
        | none =>
          rw [hcurrent] at honlyRole
          cases honlyRole
        | some race =>
          obtain ⟨current, outcome⟩ := race
          rw [hcurrent] at honlyRole hrace hundecided
          cases outcome with
          | none =>
            cases honlyRole
            exact absurd rfl hrace
          | some outcome => exact hundecided.elim
    exact hdecided

theorem Sound.send (h : Sound grant s) {attemptId : Nat} (hpos : 0 < attemptId)
    (hle : attemptId ≤ s.attempts) (hunsent : s.stage attemptId = .unsent) (stops : Bool) :
    Sound grant (s.send attemptId stops) := by
  have hstage : ∀ (stage : Stage) (id : Nat),
      Function.update s.stage attemptId stage id ≠ .unsent → 0 < id ∧ id ≤ s.attempts := by
    intro stage id hid
    by_cases heq : id = attemptId
    · rw [heq]
      exact ⟨hpos, hle⟩
    · rw [Function.update_of_ne heq] at hid
      exact h.numbered.stage id hid
  have hsettled : ∀ stage : Stage, s.newestAnswered = 0 ∨
      Function.update s.stage attemptId stage s.newestAnswered = .settled := by
    intro stage
    rcases h.numbered.settled with hzero | hsettled
    · exact .inl hzero
    · refine .inr ?_
      rw [Function.update_of_ne]
      · exact hsettled
      · intro heq
        rw [heq, hunsent] at hsettled
        cases hsettled
  unfold Renewal.send
  split
  · rename_i hstopped
    have hsound : Sound grant
        { s with stage := Function.update s.stage attemptId .settled } :=
      ⟨h.heard, { h.numbered with stage := hstage _, settled := hsettled _ },
        { h.armed with single := h.armed.single }⟩
    exact hsound.decideRace attemptId _ fun _ _ heq => by cases heq
  · rename_i hrunning
    have hrunning' : s.stopped = false := by simpa using hrunning
    have hheard := h.heard
    rw [hrunning'] at hheard
    have hcall := hheard.call (.renew attemptId) rfl rfl rfl
    have hnumbered : Numbered { s with stage := Function.update s.stage attemptId .sent } :=
      { h.numbered with stage := hstage _, settled := hsettled _ }
    have hsingle : Single { s with stage := Function.update s.stage attemptId .sent } :=
      h.armed.single
    rw [hsingle.callback]
    cases stops with
    | true => exact Between.over ⟨hcall.stop, hnumbered.stopped _ _ _, rfl, rfl⟩ rfl
    | false =>
      refine ⟨?_, { hnumbered with }, { h.armed with single := h.armed.single }⟩
      dsimp only
      rw [hrunning']
      exact hcall

/-- The request of an attempt is settled. -/
theorem Numbered.settle (h : Numbered s) {attemptId : Nat} (hsent : s.stage attemptId = .sent) :
    Numbered { s with stage := Function.update s.stage attemptId .settled } := by
  refine { h with stage := fun id hid => ?_, settled := ?_ }
  · by_cases heq : id = attemptId
    · rw [heq]
      exact h.stage attemptId (by rw [hsent]; nofun)
    · have hid' : Function.update s.stage attemptId .settled id ≠ .unsent := hid
      rw [Function.update_of_ne heq] at hid'
      exact h.stage id hid'
  · rcases h.settled with hzero | hsettled
    · exact .inl hzero
    · by_cases heq : s.newestAnswered = attemptId
      · exact .inr (by dsimp only; rw [heq, Function.update_self])
      · exact .inr (by dsimp only; rwa [Function.update_of_ne heq])

/-- An answer that came after the end, or from an attempt older than one that answered. -/
theorem Sound.settle_ignored (h : Sound grant s) {attemptId : Nat}
    (hsent : s.stage attemptId = .sent) (lease : RenewedLease) (stops : Bool)
    (hold : s.stopped = true ∨ ¬ s.newestAnswered < attemptId) :
    Sound grant (s.settle attemptId (.renewed lease) stops) := by
  have hstage := h.numbered.stage attemptId (by rw [hsent]; nofun)
  let settled : Renewal :=
    { s with
      stage := Function.update s.stage attemptId .settled
      seen := .answer attemptId lease :: s.seen }
  have hsame : (if settled.stopped then settled else settled.adoptNewest attemptId lease stops) =
      settled := by
    split
    · rfl
    · rename_i hrunning
      exact if_neg (hold.resolve_left hrunning)
  have hsettle : s.settle attemptId (.renewed lease) stops =
      settled.decideRace attemptId (.answered (.renewed lease)) :=
    congrArg (Renewal.decideRace attemptId (.answered (.renewed lease))) hsame
  have hsound : Sound grant settled :=
    ⟨h.heard.ignored hstage.1 hold lease, { h.numbered.settle hsent with },
      { h.armed with single := h.armed.single }⟩
  rw [hsettle]
  refine hsound.decideRace attemptId _ fun hrunning _ _ hrace => ?_
  -- the attempt in progress is the newest, so its answer would have been adopted
  have hrunning' : s.stopped = false := hrunning
  have hcurrent : attemptId = s.attempts := h.numbered.current ⟨attemptId, none⟩ hrace
  have hle := h.numbered.newest
  have hnot : ¬ s.newestAnswered < attemptId := hold.resolve_left (by simp [hrunning'])
  have hnewest : s.newestAnswered = attemptId := by omega
  rcases h.numbered.settled with hzero | hsettled
  · omega
  · rw [hnewest, hsent] at hsettled
    cases hsettled

/-- The answer of the highest number so far: of the attempt in progress, or of an abandoned one that
    fits the armed timer. -/
theorem Sound.settle_adopted (h : Sound grant s) {attemptId : Nat}
    (hsent : s.stage attemptId = .sent) (lease : RenewedLease) (stops : Bool)
    (hrunning : s.stopped = false) (hnew : s.newestAnswered < attemptId)
    (hfits : Fits s (.settle attemptId (.renewed lease) stops)) :
    Sound grant (s.settle attemptId (.renewed lease) stops) := by
  have hstage := h.numbered.stage attemptId (by rw [hsent]; nofun)
  have hnumbered := h.numbered.settle hsent
  have hheard := h.heard
  rw [hrunning] at hheard
  have hadopted := hheard.adopts hnew lease
  let adopting : Renewal :=
    { s with
      stage := Function.update s.stage attemptId .settled
      seen := .answer attemptId lease :: s.seen
      newestAnswered := attemptId
      deadline := lease.ttlDeadline
      ttlMs := lease.ttlMs }
  have hsingle : Single adopting := h.armed.single
  have hsame : (if s.stopped then
        { s with stage := Function.update s.stage attemptId .settled }.log
          (.answer attemptId lease)
      else
        ({ s with stage := Function.update s.stage attemptId .settled }.log
          (.answer attemptId lease)).adoptNewest attemptId lease stops) =
      adopting.callback (.onRenewed attemptId lease) stops := by
    rw [if_neg (by simp [hrunning])]
    exact if_pos hnew
  have hsettle : s.settle attemptId (.renewed lease) stops =
      (adopting.callback (.onRenewed attemptId lease) stops).decideRace attemptId
        (.answered (.renewed lease)) :=
    congrArg (Renewal.decideRace attemptId (.answered (.renewed lease))) hsame
  rw [hsettle, hsingle.callback]
  cases stops with
  | true =>
    refine Sound.decideRace (Between.over ⟨hadopted.stop, ?_, rfl, rfl⟩ rfl) attemptId _ nofun
    exact ⟨hnumbered.stage, h.numbered.current, hstage.2, .inr (Function.update_self _ _ _), nofun⟩
  | false =>
    let after : Renewal := { adopting with seen := .onRenewed attemptId lease :: adopting.seen }
    have hheardAfter : Heard grant after.seen after.stopped after.deadline
        after.newestAnswered := by
      have hstopped : after.stopped = false := hrunning
      rw [hstopped]
      exact hadopted
    have hsettled : after.stage after.newestAnswered = .settled := Function.update_self _ _ _
    change Sound grant (after.decideRace attemptId (.answered (.renewed lease)))
    rcases decideRace_cases attemptId (.answered (.renewed lease)) after with
      ⟨hrace, heq⟩ | ⟨hrace, heq⟩
    · rw [heq]
      refine ⟨hheardAfter, ⟨hnumbered.stage, ?_, hstage.2, .inr hsettled, ?_⟩,
        ⟨h.armed.single, h.armed.quiet, fun _ hundecided => hundecided.elim⟩⟩
      · intro race hrace'
        cases hrace'
        exact h.numbered.current ⟨attemptId, none⟩ hrace
      · intro _ id lease' hid
        cases hid
        exact ⟨rfl, rfl⟩
    · rw [heq]
      refine ⟨hheardAfter, ⟨hnumbered.stage, h.numbered.current, hstage.2, .inr hsettled, ?_⟩,
        ⟨h.armed.single, h.armed.quiet, ?_⟩⟩
      · intro _ id lease' hid
        have hwon := (h.numbered.won hrunning id lease' hid).1
        have hcurrent : id = s.attempts := h.numbered.current _ hid
        omega
      · intro _ hundecided
        obtain ⟨timer, htimers, -, hrole⟩ := h.armed.running hrunning hundecided
        refine ⟨timer, htimers, .inl ?_, hrole⟩
        refine hfits hsent hnew rfl (fun race hcurrent hid => ?_) timer (by rw [htimers]; simp)
        obtain ⟨current, outcome⟩ := race
        have hcurrent' : after.race = some ⟨current, outcome⟩ := hcurrent
        rw [hcurrent'] at hundecided hrace
        cases outcome with
        | none => exact hrace (by rw [show current = attemptId from hid])
        | some outcome => exact hundecided

theorem Sound.settle (h : Sound grant s) {attemptId : Nat} (hsent : s.stage attemptId = .sent)
    (answer : Answer) (stops : Bool) (hfits : Fits s (.settle attemptId answer stops)) :
    Sound grant (s.settle attemptId answer stops) := by
  cases answer with
  | rejected error =>
    have hsound : Sound grant { s with stage := Function.update s.stage attemptId .settled } :=
      ⟨h.heard, h.numbered.settle hsent, { h.armed with single := h.armed.single }⟩
    exact hsound.decideRace attemptId _ fun _ _ heq => by cases heq
  | renewed lease =>
    by_cases hadopts : s.stopped = false ∧ s.newestAnswered < attemptId
    · exact h.settle_adopted hsent lease stops hadopts.1 hadopts.2 hfits
    · refine h.settle_ignored hsent lease stops ?_
      cases hstopped : s.stopped with
      | true => exact .inl rfl
      | false => exact .inr fun hnew => hadopts ⟨hstopped, hnew⟩

/-- The rest of a tick. -/
theorem Sound.resume (h : Sound grant s) (errorStops goneStops renewedStops : Bool)
    (hfits : Fits s (.resume errorStops goneStops renewedStops)) :
    Sound grant (s.resume errorStops goneStops renewedStops) := by
  unfold Renewal.resume
  split
  · rename_i attemptId outcome hrace
    dsimp only
    have hsingle : Single { s with race := none } := h.armed.single
    rw [hsingle.cancelTimer]
    have hbetween : Between grant { s with race := none, timers := [], timer := none } :=
      ⟨h.heard, ⟨h.numbered.stage, nofun, h.numbered.newest, h.numbered.settled,
        fun _ _ _ hid => by cases hid⟩, rfl, rfl⟩
    split
    · rename_i hstopped
      exact hbetween.over hstopped
    · rename_i hstopped
      have hrunning : s.stopped = false := by simpa using hstopped
      have hleft := hfits hrunning ⟨attemptId, some outcome⟩ hrace outcome rfl
      split
      · rename_i error
        split
        · exact hbetween.giveUp _ _
        · rename_i hgone
          refine hbetween.failed hrunning rfl errorStops goneStops fun hstops => hleft ?_
          simp [goesOn, hstops, hgone]
      · refine hbetween.failed hrunning rfl errorStops goneStops fun hstops => hleft ?_
        simp [goesOn, hstops]
      · rename_i lease
        obtain ⟨hnewest, -⟩ := h.numbered.won hrunning attemptId lease hrace
        have hsame : { s with race := none, timers := [], timer := none }.adoptNewest attemptId
            lease renewedStops = { s with race := none, timers := [], timer := none } :=
          if_neg (by dsimp only; omega)
        rw [hsame]
        split
        · exact hbetween.giveUp _ _
        · exact hbetween.schedule rfl fun _ => hleft rfl
  · exact h

theorem Sound.step (h : Sound grant s) (a : Action) (hfits : Fits s a) :
    Sound grant (LeasePolicy.step s a) := by
  cases a with
  | wait time =>
    unfold LeasePolicy.step
    dsimp only
    split
    · exact h.wait time
    · exact h
  | fire handle =>
    unfold LeasePolicy.step
    dsimp only
    split
    · rename_i timer hfind
      have hmem := List.mem_of_find?_eq_some hfind
      have hhandle : timer.handle = handle := by simpa using List.find?_some hfind
      split
      · exact h.fired hmem (hfits timer hmem hhandle)
      · exact h
    · exact h
  | send attemptId stops =>
    unfold LeasePolicy.step
    dsimp only
    split
    · rename_i hsend
      exact h.send hsend.1 hsend.2.1 hsend.2.2 stops
    · exact h
  | settle attemptId answer stops =>
    unfold LeasePolicy.step
    dsimp only
    split
    · rename_i hsent
      exact h.settle hsent answer stops hfits
    · exact h
  | resume errorStops goneStops renewedStops => exact h.resume _ _ _ hfits
  | stop => exact h.stop

theorem sound_start (now : ℚ) (grant : RenewedLease)
    (hgrant : grant.ttlDeadline - now ≠ minimumRenewDelayMs) :
    Sound grant (start now grant) := by
  refine Between.schedule ⟨⟨rfl, trivial, by simp, .inl ⟨rfl, rfl, rfl⟩, rfl⟩,
    ⟨fun _ hid => absurd rfl hid, nofun, le_refl _, .inl rfl, fun _ _ _ hid => by cases hid⟩,
    rfl, rfl⟩ rfl fun _ => hgrant

/-! ### What a sound state is like -/

theorem Sound.right (h : Sound grant s) : Right grant s where
  raced := by
    rcases h.heard.raced with ⟨hnone, -, hdeadline⟩ | ⟨x, hx, hmax, -, hdeadline⟩
    · exact .inl ⟨hnone, hdeadline⟩
    · exact .inr ⟨x, hx, hmax, hdeadline⟩
  renewed := h.heard.renewed
  goneOnce := by
    have hgone := h.heard.gone
    split at hgone <;> omega
  quiet := h.heard.quiet
  disarmed hended := h.armed.quiet (h.heard.ended.symm.trans hended)
  armed hended hundecided := by
    obtain ⟨timer, htimers, hin, -⟩ :=
      h.armed.running (h.heard.ended.symm.trans hended) hundecided
    exact ⟨timer, htimers, hin⟩

/-! ### The end of the lease -/

/-- The holder was told of the lease's end. -/
def Renewal.told (s : Renewal) : Bool := s.seen.any Event.isGone

section Told

variable (s : Renewal)

@[simp] theorem told_cancelTimer : s.cancelTimer.told = s.told := by
  unfold Renewal.cancelTimer
  split <;> rfl

@[simp] theorem told_stop : s.stop.told = s.told := by
  unfold Renewal.stop Renewal.log Renewal.told
  rw [List.any_cons]
  exact told_cancelTimer { s with stopped := true }

theorem told_callback {event : Event} (h : event.isGone = false) (stops : Bool) :
    (s.callback event stops).told = s.told := by
  have hlog : (s.log event).told = s.told := by
    unfold Renewal.told Renewal.log
    rw [List.any_cons, h, Bool.false_or]
  unfold Renewal.callback
  split
  · rw [told_stop, hlog]
  · exact hlog

@[simp] theorem told_schedule : s.schedule.told = s.told := by
  unfold Renewal.schedule
  split <;> rfl

@[simp] theorem told_tick : s.tick.told = s.told := by
  unfold Renewal.tick
  split <;> rfl

@[simp] theorem told_decideRace (attemptId : Nat) (outcome : Outcome) :
    (s.decideRace attemptId outcome).told = s.told := by
  rcases decideRace_cases attemptId outcome s with ⟨-, heq⟩ | ⟨-, heq⟩ <;> rw [heq]
  rfl

@[simp] theorem told_adoptNewest (attemptId : Nat) (lease : RenewedLease) (stops : Bool) :
    (s.adoptNewest attemptId lease stops).told = s.told := by
  unfold Renewal.adoptNewest Renewal.adoptDeadline
  split
  · exact told_callback _ rfl stops
  · rfl

@[simp] theorem told_fired (timer : Timer) : (s.fired timer).told = s.told := by
  unfold Renewal.fired
  dsimp only
  split
  · exact told_tick _
  · exact told_decideRace _ _ _

@[simp] theorem told_send (attemptId : Nat) (stops : Bool) :
    (s.send attemptId stops).told = s.told := by
  unfold Renewal.send
  split
  · exact told_decideRace _ _ _
  · exact told_callback _ rfl stops

@[simp] theorem told_settle (attemptId : Nat) (answer : Answer) (stops : Bool) :
    (s.settle attemptId answer stops).told = s.told := by
  unfold Renewal.settle
  dsimp only
  cases answer with
  | rejected error => exact told_decideRace _ _ _
  | renewed lease =>
    dsimp only
    rw [told_decideRace]
    split
    · rfl
    · exact told_adoptNewest _ _ _ _

/-- Giving up leaves the deadline and the clock as they are. -/
theorem giveUp_goes (reason : LeaseGoneReason) (stops : Bool) :
    (s.giveUp reason stops).deadline = s.deadline ∧ (s.giveUp reason stops).now = s.now := by
  unfold Renewal.giveUp Renewal.callback Renewal.stop Renewal.cancelTimer Renewal.log
  dsimp only
  split
  · exact ⟨rfl, rfl⟩
  · split
    · split <;> split <;> exact ⟨rfl, rfl⟩
    · split <;> exact ⟨rfl, rfl⟩

end Told

/-- A failed attempt tells of the end only at or past the deadline. -/
theorem failed_told (errorStops goneStops : Bool)
    (htold : (s.failed errorStops goneStops).told = true) (hnot : s.told = false) :
    (s.failed errorStops goneStops).deadline ≤ (s.failed errorStops goneStops).now := by
  unfold Renewal.failed at htold ⊢
  dsimp only at htold ⊢
  split
  · rename_i hpast
    rw [(giveUp_goes _ _ _).1, (giveUp_goes _ _ _).2]
    exact hpast
  · rename_i hpast
    rw [if_neg hpast, told_schedule, told_callback _ rfl, hnot] at htold
    cases htold

/-- A resumed loop tells of the end only after a rejection for good, or at or past the deadline. -/
theorem Sound.resume_told (h : Sound grant s) {attemptId : Nat} {outcome : Outcome}
    (hrace : s.race = some ⟨attemptId, some outcome⟩) (errorStops goneStops renewedStops : Bool)
    (htold : (s.resume errorStops goneStops renewedStops).told = true) (hnot : s.told = false) :
    (∃ attemptId' error,
        some (Race.mk attemptId (some outcome)) =
            some ⟨attemptId', some (.answered (.rejected error))⟩ ∧
          isLeaseGone error = true) ∨
      (s.resume errorStops goneStops renewedStops).deadline ≤
        (s.resume errorStops goneStops renewedStops).now := by
  let paused : Renewal := { s with race := none, timers := [], timer := none }
  have hpaused : { s with race := none }.cancelTimer = paused :=
    Single.cancelTimer (s := { s with race := none }) h.armed.single
  unfold Renewal.resume at htold ⊢
  rw [hrace] at htold ⊢
  dsimp only at htold ⊢
  rw [hpaused] at htold ⊢
  have hnot' : paused.told = false := hnot
  cases hstopped : paused.stopped with
  | true =>
    rw [if_pos hstopped, hnot'] at htold
    cases htold
  | false =>
    rw [if_neg (by simp [hstopped])] at htold ⊢
    match outcome, hrace with
    | .timedOut, _ => exact .inr (failed_told _ _ htold hnot')
    | .answered (.rejected error), _ =>
      cases hgone : isLeaseGone error with
      | true => exact .inl ⟨attemptId, error, rfl, hgone⟩
      | false =>
        simp only [hgone, Bool.false_eq_true, if_false] at htold ⊢
        exact .inr (failed_told _ _ htold hnot')
    | .answered (.renewed lease), hrace =>
      obtain ⟨hnewest, hdeadline⟩ := h.numbered.won hstopped attemptId lease hrace
      have hsame : paused.adoptNewest attemptId lease renewedStops = paused :=
        if_neg (by change ¬ s.newestAnswered < attemptId; omega)
      dsimp only at htold ⊢
      rw [hsame] at htold ⊢
      split
      · rename_i hpast
        rw [(giveUp_goes _ _ _).1, (giveUp_goes _ _ _).2]
        exact .inr (hdeadline.trans_le hpast)
      · rename_i hpast
        rw [if_neg hpast, told_schedule, hnot'] at htold
        cases htold

theorem Sound.goneRightly (h : Sound grant s) (a : Action) : GoneRightly s a := by
  intro htold hnot
  have hsame : (LeasePolicy.step s a).told = s.told → False := by
    intro heq
    have htold' : (LeasePolicy.step s a).told = true := htold
    rw [heq, show s.told = false from hnot] at htold'
    cases htold'
  cases a with
  | wait time =>
    refine (hsame ?_).elim
    unfold LeasePolicy.step
    dsimp only
    split <;> rfl
  | fire handle =>
    refine (hsame ?_).elim
    unfold LeasePolicy.step
    dsimp only
    split
    · split
      · exact told_fired _ _
      · rfl
    · rfl
  | send attemptId stops =>
    refine (hsame ?_).elim
    unfold LeasePolicy.step
    dsimp only
    split
    · exact told_send _ _ _
    · rfl
  | settle attemptId answer stops =>
    refine (hsame ?_).elim
    unfold LeasePolicy.step
    dsimp only
    split
    · exact told_settle _ _ _ _
    · rfl
  | stop => exact (hsame (told_stop s)).elim
  | resume errorStops goneStops renewedStops =>
    cases hrace : s.race with
    | none =>
      refine (hsame (congrArg Renewal.told ?_)).elim
      change s.resume errorStops goneStops renewedStops = s
      unfold Renewal.resume
      rw [hrace]
    | some race =>
      obtain ⟨attemptId, outcome⟩ := race
      cases outcome with
      | none =>
        refine (hsame (congrArg Renewal.told ?_)).elim
        change s.resume errorStops goneStops renewedStops = s
        unfold Renewal.resume
        rw [hrace]
      | some outcome => exact h.resume_told hrace _ _ _ htold hnot

/-! ### Every run -/

/-- Where every adopted answer of an abandoned attempt brings a deadline after the armed timer is
    due, and no timer is armed with exactly the least delay left, every state of every run is right
    and tells of the end of the lease rightly. -/
theorem renewal_right (now : ℚ) (grant : RenewedLease)
    (hgrant : grant.ttlDeadline - now ≠ minimumRenewDelayMs) (acts : List Action)
    (hfits : AllSteps step Fits (start now grant) acts) :
    Right grant (run step (start now grant) acts) ∧
      AllSteps step GoneRightly (start now grant) acts := by
  have hstart := sound_start now grant hgrant
  have hstep : ∀ s a, Fits s a → Sound grant s → Sound grant (step s a) :=
    fun s a hfit h => h.step a hfit
  refine ⟨?_, AllSteps.of_invariant hstep (fun s a _ h => h.goneRightly a) acts _ hstart hfits⟩
  exact (run_invariant_of_allSteps hstep acts _ hstart hfits).right

def ninetySeconds : RenewedLease := ⟨some 90000, 90000⟩

/-- The first attempt times out, the second is answered; the first answer comes late and is not
    adopted, and the holder is told when the deadline has passed. -/
def renewedTwice : List Action :=
  [.wait 30000, .fire 0, .send 1 false, .wait 50000, .fire 1, .resume false false false,
    .wait 63333, .fire 2, .send 2 false, .settle 2 (.renewed ⟨some 90000, 160000⟩) false,
    .resume false false false, .settle 1 (.renewed ⟨some 90000, 120000⟩) false, .wait 160000,
    .fire 4, .send 3 false, .settle 3 (.rejected .other) false, .resume false false false]

theorem renewal_right_renewedTwice :
    (ninetySeconds.ttlDeadline - 0 ≠ minimumRenewDelayMs ∧
        AllSteps step Fits (start 0 ninetySeconds) renewedTwice) ∧
      Right ninetySeconds (run step (start 0 ninetySeconds) renewedTwice) ∧
        (run step (start 0 ninetySeconds) renewedTwice).told = true := by
  have hgrant : ninetySeconds.ttlDeadline - 0 ≠ minimumRenewDelayMs := by decide +kernel
  have hfits : AllSteps step Fits (start 0 ninetySeconds) renewedTwice := by decide +kernel
  exact ⟨⟨hgrant, hfits⟩, (renewal_right 0 ninetySeconds hgrant renewedTwice hfits).1,
    by decide +kernel⟩

/-- The first attempt is abandoned; while the loop waits for 63333 ms its answer comes, with a
    deadline of 55000 ms. -/
def shortenedLate : List Action :=
  [.wait 30000, .fire 0, .send 1 false, .wait 50000, .fire 1, .resume false false false,
    .settle 1 (.renewed ⟨some 5000, 55000⟩) false]

theorem renewal_not_right :
    ¬ ∀ now grant acts, Right grant (run step (start now grant) acts) := by
  intro hall
  obtain ⟨timer, htimers, hin⟩ := (hall 0 ninetySeconds shortenedLate).armed (by decide +kernel)
    (by
      have hrace : (run step (start 0 ninetySeconds) shortenedLate).race = none := by
        decide +kernel
      rw [hrace]
      trivial)
  have hlate : (run step (start 0 ninetySeconds) shortenedLate).timers =
      [⟨2, 50000, 50000 + 13333, .wait⟩] := by decide +kernel
  have hdeadline : (run step (start 0 ninetySeconds) shortenedLate).deadline = 55000 := by
    decide +kernel
  rw [hlate] at htimers
  obtain rfl := List.singleton_inj.1 htimers
  rw [hdeadline] at hin
  unfold Timer.InTime minimumRenewDelayMs at hin
  norm_num at hin

end Simlock.LeasePolicy
