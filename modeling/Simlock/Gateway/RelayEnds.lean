import Simlock.Gateway.Relay

/-! A relayed exchange ends once, and is bounded until its head.

    While it runs, every armed timer is one the exchange can still cancel, and before the head one
    is armed unless the upload waits for the channel. `fail`, `abandon` and `finish` leave the same
    state behind (`Over`), which nothing that comes later disturbs.

    Three things break this: a response that ends while the request body is still being sent leaves
    the gateway's direction of the channel open; a worker's abort of a file upload waits for an
    answer with no deadline; a file upload's write that completes after the end arms the silence
    timer again. `Careful` names them. -/

namespace Simlock.Relay

open Lib

namespace Exchange

/-! ### The condition -/

/-- The response ends and the request body is still being sent. -/
def endsResponse (s : Exchange) : Act → Bool
  | .resume _ =>
    !s.done && s.ahead == .ended && (s.consumer == some .pull || s.consumer == some .drain) &&
      (s.upload == .reading || s.upload == .writing) && !s.ownEnded
  | _ => false

/-- A file upload before its head finds that the worker has aborted the channel. -/
def abortsUpload (s : Exchange) : Act → Bool
  | .writeSettles (.failed (.channel .aborted)) =>
    s.call.upload && s.upload == .writing && !s.headed && !s.done
  | .closeSettles (.failed (.channel .aborted)) =>
    s.call.upload && s.upload == .closing && s.call.hasBody && !s.headed && !s.done
  | _ => false

/-- A write of a file upload completes when the exchange has ended. -/
def writesAfterEnd (s : Exchange) : Act → Bool
  | .writeSettles .ok => s.call.upload && s.upload == .writing && s.done
  | _ => false

def Careful (s : Exchange) (a : Act) : Prop :=
  s.endsResponse a = false ∧ s.abortsUpload a = false ∧ s.writesAfterEnd a = false

instance (s : Exchange) (a : Act) : Decidable (Careful s a) :=
  inferInstanceAs (Decidable (_ ∧ _ ∧ _))

/-- The exchange ends before it had a channel to send the caller's body over. -/
def endsUnopened (s : Exchange) (a : Act) : Bool :=
  s.call.hasBody && !s.opened && !s.done &&
    match a with
    | .openFails => s.opening
    | .callerAborts => true
    | .fires id => s.armed.any fun t => t.id == id
    | _ => false

def OpensFirst (s : Exchange) (a : Act) : Prop := s.endsUnopened a = false

instance (s : Exchange) (a : Act) : Decidable (OpensFirst s a) :=
  inferInstanceAs (Decidable (_ = _))

/-! ### What is claimed -/

/-- One answer, one cancel, nothing left behind, and a bound on every wait before the head. -/
structure Bounded (s : Exchange) : Prop where
  once : s.answers.length ≤ 1
  answered : s.done = true → s.answers.length = 1
  oneCancel : s.cancels ≤ 1
  asked : 0 < s.cancels → s.requestSent = true
  quiet : s.done = true → s.armed = []
  freed : s.done = true → s.opened = true → s.ownEnded = true ∨ s.reset = true
  body : s.done = true → s.bodyTaken = true → s.bodyCancelled = true
  waits : s.done = false → s.headed = false → s.upload ≠ .writing → s.upload ≠ .closing →
    ∃ t ∈ s.armed, (s.step (.fires t.id)).done = true

def BodyCancelled (s : Exchange) : Prop :=
  s.done = true → s.call.hasBody = true → s.bodyCancelled = true

/-! ### Timers -/

/-- Every armed timer is one of the three the exchange knows. -/
def Held (s : Exchange) : Prop :=
  ∀ t ∈ s.armed, s.timer = some t.id ∨ s.idleTimer = some t.id ∨ s.silenceTimer = some t.id

theorem mem_cancelTimer {s : Exchange} {handle : Option Nat} {t : Timer} :
    t ∈ (s.cancelTimer handle).armed ↔ t ∈ s.armed ∧ handle ≠ some t.id := by
  simp [cancelTimer]

theorem Held.cancelTimer {s : Exchange} (h : Held s) (handle : Option Nat) :
    Held (s.cancelTimer handle) := fun t ht => h t (mem_cancelTimer.mp ht).1

theorem Held.disarmSilence {s : Exchange} (h : Held s) : Held s.disarmSilence := by
  intro t ht
  obtain ⟨hmem, hne⟩ := mem_cancelTimer.mp ht
  rcases h t hmem with htimer | hidle | hsilence
  · exact Or.inl htimer
  · exact Or.inr (Or.inl hidle)
  · exact absurd hsilence hne

theorem Held.disarmIdle {s : Exchange} (h : Held s) : Held s.disarmIdle := by
  intro t ht
  obtain ⟨hmem, hne⟩ := mem_cancelTimer.mp ht
  rcases h t hmem with htimer | hidle | hsilence
  · exact Or.inl htimer
  · exact absurd hidle hne
  · exact Or.inr (Or.inr hsilence)

theorem Held.armIdle {s : Exchange} (h : Held s) : Held s.armIdle := by
  unfold Exchange.armIdle
  split
  · exact h
  · intro t ht
    rcases List.mem_cons.mp ht with rfl | hold
    · exact Or.inr (Or.inl rfl)
    · obtain ⟨hmem, hne⟩ := mem_cancelTimer.mp hold
      rcases h t hmem with htimer | hidle | hsilence
      · exact Or.inl htimer
      · exact absurd hidle hne
      · exact Or.inr (Or.inr hsilence)

theorem Held.armDeadline {s : Exchange} (h : Held s) (hnone : s.timer = none) :
    Held s.armDeadline := by
  intro t ht
  rcases List.mem_cons.mp ht with rfl | hold
  · exact Or.inl rfl
  · rcases h t hold with htimer | hrest
    · rw [hnone] at htimer
      cases htimer
    · exact Or.inr hrest

theorem Held.armSilence {s : Exchange} (h : Held s) (hnone : s.silenceTimer = none) :
    Held s.armSilence := by
  unfold Exchange.armSilence
  split
  · intro t ht
    rcases List.mem_cons.mp ht with rfl | hold
    · exact Or.inr (Or.inr rfl)
    · rcases h t hold with htimer | hidle | hsilence
      · exact Or.inl htimer
      · exact Or.inr (Or.inl hidle)
      · rw [hnone] at hsilence
        cases hsilence
  · exact h

/-! ### The end -/

/-- What holds while the exchange runs, whatever the upload is at. -/
structure Base (s : Exchange) : Prop where
  running : s.done = false
  held : Held s
  answers : s.answers.length = if s.headed then 1 else 0
  cancels : s.cancels = if s.cancelSent then 1 else 0
  asked : s.cancelSent = true → s.requestSent = true

structure Over (s : Exchange) : Prop where
  done : s.done = true
  quiet : s.armed = []
  answers : s.answers.length = 1
  cancels : s.cancels = if s.cancelSent then 1 else 0
  asked : s.cancelSent = true → s.requestSent = true
  freed : s.opened = true → s.ownEnded = true ∨ s.reset = true
  body : s.bodyTaken = true → s.bodyCancelled = true

/-- An exchange that knows its timers cancels them all. -/
theorem Held.finish_armed {s : Exchange} (h : Held s) (hrun : s.done = false) :
    s.finish.armed = [] := by
  unfold Exchange.finish
  rw [if_neg (by simp [hrun])]
  apply List.eq_nil_iff_forall_not_mem.mpr
  intro t ht
  obtain ⟨hmem, hsilence⟩ := mem_cancelTimer.mp ht
  obtain ⟨hmem, hidle⟩ := mem_cancelTimer.mp hmem
  obtain ⟨hmem, htimer⟩ := mem_cancelTimer.mp hmem
  rcases h t hmem with h | h | h
  · exact htimer h
  · exact hidle h
  · exact hsilence h

/-- An exchange that has answered and let go of its channel ends well. -/
theorem over_finish {s : Exchange} (hrun : s.done = false) (hheld : Held s)
    (hans : s.answers.length = 1) (hcancels : s.cancels = if s.cancelSent then 1 else 0)
    (hasked : s.cancelSent = true → s.requestSent = true)
    (hfreed : s.opened = true → s.ownEnded = true ∨ s.reset = true) : Over s.finish := by
  have hquiet := hheld.finish_armed hrun
  have hfin : s.finish = { (((s.cancelTimer s.timer).cancelTimer s.idleTimer).disarmSilence) with
      done := true, bodyCancelled := s.bodyCancelled || s.bodyTaken } := by
    unfold Exchange.finish
    rw [if_neg (by simp [hrun])]
  refine ⟨?_, hquiet, ?_, ?_, ?_, ?_, ?_⟩ <;> rw [hfin]
  · exact hans
  · exact hcancels
  · exact hasked
  · exact hfreed
  · intro htaken
    have htaken : s.bodyTaken = true := htaken
    simp [htaken]

theorem Base.finish {s : Exchange} (h : Base s) (hheaded : s.headed = true)
    (hfreed : s.opened = true → s.ownEnded = true ∨ s.reset = true) : Over s.finish := by
  have hans := h.answers
  rw [if_pos hheaded] at hans
  exact over_finish h.running h.held hans h.cancels h.asked hfreed

/-- At most one cancel is sent, and only for a request that was. -/
theorem Base.sendCancel {s : Exchange} (h : Base s) : Base s.sendCancel := by
  unfold Exchange.sendCancel
  split
  · exact h
  · rename_i hsend
    simp only [Bool.or_eq_true, Bool.not_eq_true', not_or, Bool.not_eq_false,
      Bool.not_eq_true] at hsend
    refine ⟨h.running, h.held, h.answers, ?_, fun _ => hsend.1⟩
    have hzero := h.cancels
    rw [hsend.2] at hzero
    simpa using hzero

theorem Base.abortChannel {s : Exchange} (h : Base s) : Base s.abortChannel :=
  ⟨h.running, h.held, h.answers, h.cancels, h.asked⟩

theorem abortChannel_freed (s : Exchange) :
    s.abortChannel.opened = true → s.abortChannel.ownEnded = true ∨ s.abortChannel.reset = true := by
  intro hopen
  have hopen : s.opened = true := hopen
  simp [Exchange.abortChannel, hopen]

theorem Base.fail {s : Exchange} (h : Base s) (e : RelayError) : Over (s.fail e) := by
  have hcancelled : Base s.sendCancel.abortChannel := h.sendCancel.abortChannel
  unfold Exchange.fail
  rw [if_neg (by simp [h.running])]
  dsimp only
  refine over_finish hcancelled.running hcancelled.held ?_ hcancelled.cancels hcancelled.asked
    (abortChannel_freed s.sendCancel)
  have hans := hcancelled.answers
  dsimp only
  split
  · rename_i hheaded
    rwa [if_pos hheaded] at hans
  · rename_i hheaded
    rw [if_neg hheaded] at hans
    simp [hans]

theorem Base.abandon {s : Exchange} (h : Base s) (hheaded : s.headed = true) : Over s.abandon := by
  have hcancelled : Base s.sendCancel.abortChannel := h.sendCancel.abortChannel
  unfold Exchange.abandon
  rw [if_neg (by simp [h.running])]
  refine hcancelled.finish ?_ (abortChannel_freed s.sendCancel)
  unfold Exchange.sendCancel
  split <;> exact hheaded

/-! ### While it runs -/

/-- The upload reads the body, or writes or closes the gateway's direction. -/
def sending (s : Exchange) : Prop :=
  s.upload = .reading ∨ s.upload = .writing ∨ s.upload = .closing

/-- The running exchange: which timer bounds it before the head, and what has become of the
    gateway's direction. -/
structure Live (s : Exchange) : Prop extends Base s where
  noSilence : s.upload ≠ .reading ∨ s.call.upload = false → s.silenceTimer = none
  noIdle : s.headed = false → s.idleTimer = none
  noDeadline : s.headed = false → s.call.upload = true → s.sending → s.timer = none
  deadline : s.headed = false → (s.call.upload = true → ¬ s.sending) →
    ∃ t ∈ s.armed, s.timer = some t.id
  silence : s.headed = false → s.call.upload = true → s.upload = .reading →
    ∃ t ∈ s.armed, s.silenceTimer = some t.id
  unopened : s.opened = false → s.upload = .unstarted ∧ s.requestSent = false ∧ s.headed = false
  opening : s.opening = true → s.opened = false
  begun : s.opened = true → s.call.twoWay = false → s.upload ≠ .unstarted
  ended : s.upload = .closing ∨ s.upload = .finished → s.ownEnded = true ∨ s.reset = true
  refused : s.call.twoWay = true → s.headed = true → s.piped = false → s.ownEnded = true
  written : s.writeEnded = true → s.ownEnded = true
  unheaded : s.headed = false → s.consumer = none ∧ s.piped = false
  pumped : s.piped = true → ∀ c ∈ s.consumer, c = .pump

def Inv (s : Exchange) : Prop := Live s ∨ Over s

theorem Live.base {s : Exchange} (h : Live s) : Base s := h.toBase

/-- The fields the invariant does not read. -/
theorem Live.frame {s : Exchange} (h : Live s) (p a r t c : Bool) (w : Ahead) :
    Live { s with peerAborted := p, answered := a, readEnded := r, bodyTaken := t,
                  bodyCancelled := c, ahead := w } :=
  ⟨⟨h.running, h.held, h.answers, h.cancels, h.asked⟩, h.noSilence, h.noIdle, h.noDeadline,
    h.deadline, h.silence, h.unopened, h.opening, h.begun, h.ended, h.refused, h.written,
    h.unheaded, h.pumped⟩

theorem Live.reset {s : Exchange} (h : Live s) : Live { s with reset := true } :=
  ⟨⟨h.running, h.held, h.answers, h.cancels, h.asked⟩, h.noSilence, h.noIdle, h.noDeadline,
    h.deadline, h.silence, h.unopened, h.opening, h.begun, fun _ => Or.inr rfl, h.refused,
    h.written, h.unheaded, h.pumped⟩

theorem Live.ownEnded {s : Exchange} (h : Live s) (w : Bool) :
    Live { s with ownEnded := true, writeEnded := w } :=
  ⟨⟨h.running, h.held, h.answers, h.cancels, h.asked⟩, h.noSilence, h.noIdle, h.noDeadline,
    h.deadline, h.silence, h.unopened, h.opening, h.begun, fun _ => Or.inl rfl,
    fun _ _ _ => rfl, fun _ => rfl, h.unheaded, h.pumped⟩

theorem Live.consumer {s : Exchange} (h : Live s) {c : Option Consumer}
    (hheaded : c ≠ none → s.headed = true) (hpump : s.piped = true → ∀ d ∈ c, d = .pump) :
    Live { s with consumer := c } := by
  refine ⟨⟨h.running, h.held, h.answers, h.cancels, h.asked⟩, h.noSilence, h.noIdle, h.noDeadline,
    h.deadline, h.silence, h.unopened, h.opening, h.begun, h.ended, h.refused, h.written,
    fun hun => ⟨?_, (h.unheaded hun).2⟩, hpump⟩
  dsimp only at hun ⊢
  by_contra hc
  rw [hheaded hc] at hun
  cases hun

@[simp] theorem look_headed (s : Exchange) : s.look.headed = s.headed := by
  unfold Exchange.look
  split <;> rfl

@[simp] theorem look_piped (s : Exchange) : s.look.piped = s.piped := by
  unfold Exchange.look
  split <;> rfl

@[simp] theorem armIdle_piped (s : Exchange) : s.armIdle.piped = s.piped := by
  unfold Exchange.armIdle
  split <;> rfl

@[simp] theorem armIdle_headed (s : Exchange) : s.armIdle.headed = s.headed := by
  unfold Exchange.armIdle
  split <;> rfl

theorem Live.look {s : Exchange} (h : Live s) : Live s.look := by
  unfold Exchange.look
  split
  · exact h.frame _ _ _ _ _ _
  · exact h

theorem Live.armIdle {s : Exchange} (h : Live s) : Live s.armIdle := by
  have hheld := h.held.armIdle
  unfold Exchange.armIdle at hheld ⊢
  split
  · exact h
  · rename_i hon
    rw [if_neg hon] at hheld
    have hheaded : s.headed = true := by
      cases hh : s.headed with
      | true => rfl
      | false => simp [hh] at hon
    refine ⟨⟨h.running, hheld, h.answers, h.cancels, h.asked⟩, h.noSilence, ?_, ?_, ?_, ?_,
      h.unopened, h.opening, h.begun, h.ended, h.refused, h.written, h.unheaded, h.pumped⟩
    all_goals
      intro hun
      have hun : s.headed = false := hun
      rw [hheaded] at hun
      cases hun

theorem Live.disarmIdle {s : Exchange} (h : Live s) (hheaded : s.headed = true) :
    Live s.disarmIdle := by
  refine ⟨⟨h.running, h.held.disarmIdle, h.answers, h.cancels, h.asked⟩, h.noSilence, ?_, ?_, ?_,
    ?_, h.unopened, h.opening, h.begun, h.ended, h.refused, h.written, h.unheaded, h.pumped⟩
  all_goals
    intro hun
    have hun : s.headed = false := hun
    rw [hheaded] at hun
    cases hun

/-! ### One action of a running exchange -/

theorem Base.reset {s : Exchange} (h : Base s) : Base { s with reset := true } :=
  ⟨h.running, h.held, h.answers, h.cancels, h.asked⟩

theorem onChannelError_inv {s : Exchange} (h : Base s) (f : Failure)
    (hlive : f = .channel .aborted → Live { s with reset := true }) : Inv (s.onChannelError f) := by
  unfold Exchange.onChannelError
  rw [if_neg (by simp [h.running])]
  cases f with
  | other => exact Or.inr (h.fail _)
  | channel reason =>
    cases reason with
    | aborted =>
      have hpeer := (hlive rfl).frame true s.answered s.readEnded s.bodyTaken s.bodyCancelled s.ahead
      dsimp only
      split
      · exact Or.inr (hpeer.base.fail _)
      · exact Or.inl hpeer
    | closed => exact Or.inr (h.reset.fail _)
    | notAccepted => exact Or.inr (h.reset.fail _)
    | stalled => exact Or.inr (h.reset.fail _)
    | invalid => exact Or.inr (h.reset.fail _)
    | stopped => exact Or.inr (h.reset.fail _)

theorem Live.onChannelError {s : Exchange} (h : Live s) (f : Failure) :
    Inv (s.onChannelError f) := onChannelError_inv h.base f fun _ => h.reset

/-- A direction of a two-way relay has ended; both ends end it. -/
theorem Live.maybeComplete {s : Exchange} (h : Live s) (hheaded : s.headed = true) :
    Inv s.maybeComplete := by
  unfold Exchange.maybeComplete
  split
  · rename_i hboth
    simp only [Bool.and_eq_true] at hboth
    exact Or.inr (h.base.finish hheaded fun _ => Or.inl (h.written hboth.2))
  · exact Or.inl h

theorem not_sending_over {s : Exchange} (h : s.upload = .finished) : ¬ s.sending := by
  simp [sending, h]

/-- The upload is over and the gateway's direction has ended: a file upload's head deadline runs
    from here. -/
theorem Live.uploadEnds {s : Exchange} (h : Live s)
    (hstage : s.upload = .writing ∨ s.upload = .closing)
    (hend : s.ownEnded = true ∨ s.reset = true) (c : Bool) :
    Live ({ s with upload := .finished, bodyCancelled := c }.armHeadDeadline) := by
  have hsilence : s.silenceTimer = none := by
    apply h.noSilence
    rcases hstage with hs | hs <;> simp [hs]
  have hsending : s.sending := by
    rcases hstage with hs | hs <;> simp [sending, hs]
  have hopen : s.opened = true := by
    cases ho : s.opened with
    | true => rfl
    | false =>
      have hun := (h.unopened ho).1
      rcases hstage with hs | hs <;> simp [hun] at hs
  unfold Exchange.armHeadDeadline
  split
  · rename_i hon
    refine ⟨⟨h.running, h.held, h.answers, h.cancels, h.asked⟩, fun _ => hsilence, h.noIdle, ?_, ?_,
      ?_, ?_, h.opening, ?_, fun _ => hend, h.refused, h.written, h.unheaded, h.pumped⟩
    · intro _ _ hover
      exact absurd hover (not_sending_over rfl)
    · intro hun _
      have hkind : s.call.upload = false := by
        cases hk : s.call.upload with
        | false => rfl
        | true =>
          have hun : s.headed = false := hun
          simp [hk, h.running, hun] at hon
      exact h.deadline hun fun hk => absurd hk (by simp [hkind])
    · intro _ _ hreading
      cases hreading
    · intro ho
      have ho : s.opened = false := ho
      rw [hopen] at ho
      cases ho
    · intro _ _ hun
      cases hun
  · rename_i hon
    simp only [Bool.or_eq_true, Bool.not_eq_true', not_or, Bool.not_eq_false,
      Bool.not_eq_true] at hon
    obtain ⟨⟨hkind, -⟩, hun⟩ := hon
    have htimer : s.timer = none := h.noDeadline hun hkind hsending
    have hheld : Held { s with upload := .finished, bodyCancelled := c } := h.held
    refine ⟨⟨h.running, hheld.armDeadline htimer, h.answers, h.cancels, h.asked⟩,
      fun _ => hsilence, h.noIdle, ?_, ?_, ?_, ?_, h.opening, ?_, fun _ => hend, h.refused,
      h.written, h.unheaded, h.pumped⟩
    · intro _ _ hover
      exact absurd hover (not_sending_over rfl)
    · intro _ _
      exact ⟨_, List.mem_cons_self, rfl⟩
    · intro _ _ hreading
      cases hreading
    · intro ho
      have ho : s.opened = false := ho
      rw [hopen] at ho
      cases ho
    · intro _ _ hover
      cases hover

/-- The worker has aborted the channel while the body was sent; the start deadline still runs, or the
    head is in. -/
theorem Live.uploadAborted {s : Exchange} (h : Live s)
    (hstage : s.upload = .writing ∨ s.upload = .closing)
    (hbound : s.call.upload = true → s.headed = true) :
    Live { s with upload := .finished, reset := true } := by
  have hsilence : s.silenceTimer = none := by
    apply h.noSilence
    rcases hstage with hs | hs <;> simp [hs]
  have hopen : s.opened = true := by
    cases ho : s.opened with
    | true => rfl
    | false =>
      have hun := (h.unopened ho).1
      rcases hstage with hs | hs <;> simp [hun] at hs
  refine ⟨⟨h.running, h.held, h.answers, h.cancels, h.asked⟩, fun _ => hsilence, h.noIdle, ?_, ?_,
    ?_, ?_, h.opening, ?_, fun _ => Or.inr rfl, h.refused, h.written, h.unheaded, h.pumped⟩
  · intro _ _ hover
    exact absurd hover (not_sending_over rfl)
  · intro hun _
    have hun : s.headed = false := hun
    apply h.deadline hun
    intro hkind
    rw [hbound hkind] at hun
    cases hun
  · intro _ _ hreading
    cases hreading
  · intro ho
    have ho : s.opened = false := ho
    rw [hopen] at ho
    cases ho
  · intro _ _ hun
    cases hun

/-- A write or the close of the gateway's direction fails. -/
theorem Live.uploadFailed {s : Exchange} (h : Live s)
    (hstage : s.upload = .writing ∨ s.upload = .closing) (f : Failure)
    (hbound : f = .channel .aborted → s.call.upload = true → s.headed = true) :
    Inv ({ s with upload := .finished }.uploadFailed f) := by
  have hbase : Base { s with upload := .finished } :=
    ⟨h.running, h.held, h.answers, h.cancels, h.asked⟩
  have habort : f = .channel .aborted → Live { s with upload := .finished, reset := true } :=
    fun hf => h.uploadAborted hstage (hbound hf)
  unfold Exchange.uploadFailed
  rw [if_neg (by simp [h.running])]
  cases f with
  | other => exact Or.inr (hbase.fail _)
  | channel reason =>
    cases reason with
    | stopped => exact Or.inl ((h.ownEnded s.writeEnded).uploadEnds hstage (Or.inl rfl) true)
    | aborted => exact onChannelError_inv hbase _ habort
    | closed => exact onChannelError_inv hbase _ habort
    | notAccepted => exact onChannelError_inv hbase _ habort
    | stalled => exact onChannelError_inv hbase _ habort
    | invalid => exact onChannelError_inv hbase _ habort

theorem armSilence_of_not_upload {s : Exchange} (h : s.call.upload = false) :
    s.armSilence = s := by
  unfold Exchange.armSilence
  simp [h]

/-- The upload goes back to reading: a file upload's silence runs. -/
theorem Live.readsOn {s : Exchange} (h : Live s) (hwriting : s.upload = .writing) :
    Live { s.armSilence with upload := .reading } := by
  have hsilence : s.silenceTimer = none := h.noSilence (Or.inl (by simp [hwriting]))
  have hsending : s.sending := Or.inr (Or.inl hwriting)
  have hheld := h.held.armSilence hsilence
  have hopen : s.opened = true := by
    cases ho : s.opened with
    | true => rfl
    | false => simp [(h.unopened ho).1] at hwriting
  cases hkind : s.call.upload with
  | false =>
    rw [armSilence_of_not_upload hkind]
    refine ⟨⟨h.running, h.held, h.answers, h.cancels, h.asked⟩, fun _ => hsilence, h.noIdle, ?_,
      ?_, ?_, ?_, h.opening, ?_, ?_, h.refused, h.written, h.unheaded, h.pumped⟩
    · intro _ hk
      simp [hkind] at hk
    · intro hun _
      exact h.deadline hun fun hk => absurd hk (by simp [hkind])
    · intro _ hk
      simp [hkind] at hk
    · intro ho
      simp [hopen] at ho
    · intro _ _ hun
      cases hun
    · rintro (hs | hs) <;> cases hs
  | true =>
    unfold Exchange.armSilence at hheld ⊢
    rw [if_pos hkind] at hheld ⊢
    refine ⟨⟨h.running, hheld, h.answers, h.cancels, h.asked⟩, ?_, h.noIdle, ?_, ?_, ?_, ?_,
      h.opening, ?_, ?_, h.refused, h.written, h.unheaded, h.pumped⟩
    · rintro (hr | hk)
      · exact absurd rfl hr
      · simp [setTimer, hkind] at hk
    · intro hun _ _
      exact h.noDeadline hun hkind hsending
    · intro _ hnot
      exact absurd (Or.inl rfl) (hnot hkind)
    · intro _ _ _
      exact ⟨_, List.mem_cons_self, rfl⟩
    · intro ho
      simp [setTimer, hopen] at ho
    · intro _ _ hun
      cases hun
    · rintro (hs | hs) <;> cases hs

theorem Live.writeSettles {s : Exchange} (h : Live s) (w : Written)
    (hok : s.abortsUpload (.writeSettles w) = false) : Inv (s.writeSettles w) := by
  unfold Exchange.writeSettles
  split
  · rename_i hwriting
    cases w with
    | failed f =>
      refine h.uploadFailed (Or.inl hwriting) f fun hf hkind => ?_
      subst hf
      simpa [abortsUpload, hwriting, hkind, h.running] using hok
    | ok => exact Or.inl (h.readsOn hwriting)
  · exact Or.inl h

theorem Live.closeSettles {s : Exchange} (h : Live s) (w : Written)
    (hok : s.abortsUpload (.closeSettles w) = false) : Inv (s.closeSettles w) := by
  unfold Exchange.closeSettles
  split
  · rename_i hclosing
    have hover : Live ({ s with upload := .finished }.armHeadDeadline) :=
      h.uploadEnds (Or.inr hclosing) (h.ended (Or.inl hclosing)) s.bodyCancelled
    cases w with
    | ok => exact Or.inl hover
    | failed f =>
      dsimp only
      split
      · rename_i hbody
        refine h.uploadFailed (Or.inr hclosing) f fun hf hkind => ?_
        subst hf
        simpa [abortsUpload, hclosing, hkind, hbody, h.running] using hok
      · exact Or.inl hover
  · exact Or.inl h

/-- The read of the caller's body is done: its silence no longer counts. -/
theorem Live.readDone {s : Exchange} (h : Live s) (hreading : s.upload = .reading) {g : Upload}
    (hg : g = .writing ∨ g = .closing) (hend : g = .closing → s.ownEnded = true) :
    Live { s.disarmSilence with upload := g } := by
  have hopen : s.opened = true := by
    cases ho : s.opened with
    | true => rfl
    | false => simp [(h.unopened ho).1] at hreading
  refine ⟨⟨h.running, h.held.disarmSilence, h.answers, h.cancels, h.asked⟩, fun _ => rfl, h.noIdle,
    ?_, ?_, ?_, ?_, h.opening, ?_, ?_, h.refused, h.written, h.unheaded, h.pumped⟩
  · intro hun hkind _
    exact h.noDeadline hun hkind (Or.inl hreading)
  · intro hun hnot
    have hkind : s.call.upload = false := by
      cases hk : s.call.upload with
      | false => rfl
      | true => exact absurd (Or.inr hg) (hnot hk)
    obtain ⟨t, ht, htimer⟩ := h.deadline hun fun hk => absurd hk (by simp [hkind])
    refine ⟨t, mem_cancelTimer.mpr ⟨ht, ?_⟩, htimer⟩
    rw [h.noSilence (Or.inr hkind)]
    simp
  · intro _ _ hr
    have hr : g = .reading := hr
    rcases hg with rfl | rfl <;> cases hr
  · intro ho
    have ho : s.opened = false := ho
    simp [hopen] at ho
  · intro _ _ hun
    have hun : g = .unstarted := hun
    rcases hg with rfl | rfl <;> cases hun
  · rintro (hs | hs)
    · exact Or.inl (hend hs)
    · have hs : g = .finished := hs
      rcases hg with rfl | rfl <;> cases hs

/-- The caller's body gives a chunk or its end. -/
theorem Live.bodyReads {s : Exchange} (h : Live s) (r : Read) : Inv (s.bodyReads r) := by
  unfold Exchange.bodyReads
  split
  · rename_i hreading
    cases r with
    | failed f =>
      have hbase : Base { s with upload := .finished } :=
        ⟨h.running, h.held, h.answers, h.cancels, h.asked⟩
      unfold Exchange.uploadFailed
      dsimp only
      rw [if_neg (by simp [h.running])]
      exact Or.inr (hbase.fail _)
    | chunk =>
      have hnext := h.readDone hreading (Or.inl rfl) (by simp)
      dsimp only
      rw [if_neg (by simp [disarmSilence, cancelTimer, h.running])]
      exact Or.inl hnext
    | ended =>
      have hnext := (h.ownEnded s.writeEnded).readDone hreading (Or.inr rfl) fun _ => rfl
      dsimp only
      rw [if_neg (by simp [disarmSilence, cancelTimer, h.running])]
      exact Or.inl hnext
  · exact Or.inl h

theorem Live.readSettles {s : Exchange} (h : Live s) (r : Read) : Inv (s.readSettles r) := by
  have hahead (w : Ahead) : Live { s with ahead := w } := h.frame _ _ _ _ _ w
  unfold Exchange.readSettles
  split
  · cases r with
    | chunk => exact Or.inl (hahead _).armIdle
    | ended => exact Or.inl (hahead _)
    | failed f => exact (hahead _).onChannelError f
  · exact Or.inl h

theorem Live.pull {s : Exchange} (h : Live s) : Inv s.pull := by
  unfold Exchange.pull
  split
  · rename_i hask
    simp only [Bool.and_eq_true] at hask
    split
    · refine Or.inl (h.armIdle.look.consumer (fun _ => ?_) fun _ d hd => ?_)
      · simpa using hask.1
      · cases hd
        rfl
    · rename_i hpiped
      refine Or.inl (h.look.consumer (fun _ => ?_) fun hp => ?_)
      · simpa using hask.1
      · exact absurd (by simpa using hp) hpiped
  · exact Or.inl h

/-- A response that ends after the request body has let go of the channel. -/
theorem Live.responseEnds {s : Exchange} (h : Live s) {c : Consumer} (hc : s.consumer = some c)
    (hone : c ≠ .pump)
    (hok : (s.upload = .reading ∨ s.upload = .writing) → s.ownEnded = true) :
    s.headed = true ∧ (s.ownEnded = true ∨ s.reset = true) := by
  have hheaded : s.headed = true := by
    cases hh : s.headed with
    | true => rfl
    | false => simp [(h.unheaded hh).1] at hc
  have hpiped : s.piped = false := by
    cases hp : s.piped with
    | false => rfl
    | true => exact absurd (h.pumped hp c hc) hone
  refine ⟨hheaded, ?_⟩
  cases htwo : s.call.twoWay with
  | true => exact Or.inl (h.refused htwo hheaded hpiped)
  | false =>
    have hopen : s.opened = true := by
      cases ho : s.opened with
      | true => rfl
      | false => simp [(h.unopened ho).2.2] at hheaded
    cases hup : s.upload with
    | unstarted => exact absurd hup (h.begun hopen htwo)
    | reading => exact Or.inl (hok (Or.inl hup))
    | writing => exact Or.inl (hok (Or.inr hup))
    | closing => exact h.ended (Or.inl hup)
    | finished => exact h.ended (Or.inr hup)

theorem Live.resume {s : Exchange} (h : Live s) (full : Bool)
    (hok : s.endsResponse (.resume full) = false) : Inv (s.resume full) := by
  have hfree (t : Exchange) (ht : Live t) : Live { t with consumer := none } :=
    ht.consumer (by simp) (by simp)
  have hahead (w : Ahead) : Live { s with ahead := w } := h.frame _ _ _ _ _ w
  unfold Exchange.resume
  split
  · exact Or.inl (hfree s h)
  · rename_i c hc _
    have hheaded : s.headed = true := by
      cases hh : s.headed with
      | true => rfl
      | false => simp [(h.unheaded hh).1] at hc
    dsimp only
    rw [if_neg (by simp [h.running])]
    cases c with
    | pull => exact Or.inl (hfree _ (hahead .unread))
    | pump =>
      dsimp only
      split
      · exact Or.inl ((hfree _ (hahead .unread)).disarmIdle hheaded)
      · exact Or.inl (hfree _ (hahead .unread))
    | drain => exact Or.inl (hahead .unread).look
  · rename_i c hc hended
    have hnext := hfree _ (hahead .unread)
    dsimp only
    rw [if_neg (by simp [h.running])]
    have hsent : c ≠ .pump → (s.upload = .reading ∨ s.upload = .writing) → s.ownEnded = true := by
      intro hone hbody
      cases hown : s.ownEnded with
      | true => rfl
      | false =>
        have hwho : c = .pull ∨ c = .drain := by
          cases c with
          | pull => exact Or.inl rfl
          | drain => exact Or.inr rfl
          | pump => exact absurd rfl hone
        simp only [endsResponse, h.running, hended, hc, hown] at hok
        rcases hwho with rfl | rfl <;> rcases hbody with hb | hb <;> simp [hb] at hok
    cases c with
    | pull =>
      obtain ⟨hheaded, hfreed⟩ := h.responseEnds hc (by simp) (hsent (by simp))
      exact Or.inr (hnext.base.finish hheaded fun _ => hfreed)
    | drain =>
      obtain ⟨hheaded, hfreed⟩ := h.responseEnds hc (by simp) (hsent (by simp))
      exact Or.inr (hnext.base.finish hheaded fun _ => hfreed)
    | pump =>
      have hheaded : s.headed = true := by
        cases hh : s.headed with
        | true => rfl
        | false => simp [(h.unheaded hh).1] at hc
      have hidle := hnext.disarmIdle hheaded
      exact (hidle.frame _ _ true _ _ _).maybeComplete hheaded
  · exact Or.inl h
  · exact Or.inl h
  · exact Or.inl h

theorem Live.onAnswer {s : Exchange} (h : Live s) (cancelled : Bool) :
    Inv (s.onAnswer cancelled) := by
  unfold Exchange.onAnswer
  rw [if_neg (by simp [h.running])]
  split
  · exact Or.inr (h.base.fail _)
  · split
    · exact Or.inr (h.base.fail _)
    · exact Or.inl (h.frame _ true _ _ _ _)

theorem Live.moduleEnds {s : Exchange} (h : Live s) (hheaded : s.headed = true) :
    Inv ({ s with ownEnded := true, writeEnded := true }.maybeComplete) :=
  (h.ownEnded true).maybeComplete hheaded

theorem Live.moduleWrite {s : Exchange} (h : Live s) (hheaded : s.headed = true) (w : Written) :
    Inv (s.moduleWrite w) := by
  unfold Exchange.moduleWrite
  split
  · exact Or.inl h
  · exact h.moduleEnds hheaded
  · exact h.onChannelError _

theorem Live.moduleClose {s : Exchange} (h : Live s) (hheaded : s.headed = true) (w : Written) :
    Inv (s.moduleClose w) := by
  unfold Exchange.moduleClose
  split
  · exact h.moduleEnds hheaded
  · exact h.moduleEnds hheaded
  · exact h.onChannelError _

theorem Live.fires {s : Exchange} (h : Live s) (id : Nat) : Inv (s.fires id) := by
  have hbase : Base (s.cancelTimer (some id)) :=
    ⟨h.running, h.held.cancelTimer _, h.answers, h.cancels, h.asked⟩
  unfold Exchange.fires
  split
  · exact Or.inr (hbase.fail _)
  · exact Or.inl h

theorem resolve_armIdle (s : Exchange) : s.armIdle.resolve = s.resolve.armIdle := by
  unfold Exchange.armIdle Exchange.resolve
  dsimp only
  split <;> rfl

/-- The head is in: the caller has its response, and no timer of the way there is left. -/
theorem Live.headIn {s : Exchange} (h : Live s) (hun : s.headed = false) (hopen : s.opened = true)
    {p o : Bool} (hown : s.ownEnded = true → o = true)
    (hrefused : s.call.twoWay = true → p = false → o = true) :
    Live ({ ({ s with headed := true }.cancelTimer s.timer).disarmSilence with
      piped := p, ownEnded := o }.resolve) := by
  have hheld : Held (({ s with headed := true }.cancelTimer s.timer).disarmSilence) :=
    Held.disarmSilence (Held.cancelTimer h.held s.timer)
  have hans := h.answers
  rw [if_neg (by simp [hun])] at hans
  refine ⟨⟨h.running, hheld, ?_, h.cancels, h.asked⟩, fun _ => rfl, ?_, ?_, ?_, ?_, ?_, h.opening,
    h.begun, ?_, fun htwo _ => hrefused htwo, fun hw => hown (h.written hw), ?_, ?_⟩
  · simp [hans, resolve, disarmSilence, cancelTimer]
  · intro hno
    cases hno
  · intro hno
    cases hno
  · intro hno
    cases hno
  · intro hno
    cases hno
  · intro hno
    have hno : s.opened = false := hno
    simp [hopen] at hno
  · intro hstage
    rcases h.ended hstage with he | hr
    · exact Or.inl (hown he)
    · exact Or.inr hr
  · intro hno
    cases hno
  · intro _ c hc
    have hc : s.consumer = some c := hc
    simp [(h.unheaded hun).1] at hc

theorem Live.respond {s : Exchange} (h : Live s.resolve) (hheaded : s.headed = true)
    (hpiped : s.piped = false) (status : Nat) : Live (s.respond status) := by
  unfold Exchange.respond
  rw [resolve_armIdle]
  dsimp only
  split
  · refine h.armIdle.look.consumer (fun _ => ?_) fun hp => ?_
    · simpa [resolve] using hheaded
    · have hp : s.piped = true := by simpa [← resolve_armIdle, resolve] using hp
      simp [hpiped] at hp
  · exact h.armIdle

theorem Live.onHead {s : Exchange} (h : Live s) (hsent : s.requestSent = true) (status : Nat)
    (accepted : Bool) : Inv (s.onHead status accepted) := by
  have hopen : s.opened = true := by
    cases ho : s.opened with
    | true => rfl
    | false => simp [(h.unopened ho).2.1] at hsent
  unfold Exchange.onHead
  rw [if_neg (by simp [h.running])]
  split
  · exact Or.inr (h.base.fail _)
  · rename_i hvalid
    simp only [Bool.or_eq_true, Bool.not_eq_true', not_or, Bool.not_eq_false,
      Bool.not_eq_true] at hvalid
    obtain ⟨hun, -⟩ := hvalid
    have hpiped : s.piped = false := (h.unheaded hun).2
    dsimp only
    split
    · split
      · unfold Exchange.openTwoWay
        rw [resolve_armIdle]
        exact Or.inl (h.headIn hun hopen (fun ho => ho) fun _ hp => absurd hp (by simp)).armIdle
      · have hin := h.headIn (p := s.piped) hun hopen (fun _ => rfl) fun _ _ => rfl
        exact Or.inl (hin.respond rfl hpiped status)
    · rename_i htwo
      have hin := h.headIn (p := s.piped) hun hopen (fun ho => ho) fun ht => absurd ht htwo
      exact Or.inl (hin.respond rfl hpiped status)

/-- Between the opening of the channel and the start of the upload. -/
structure Opened (s : Exchange) : Prop extends Base s where
  noSilence : s.silenceTimer = none
  noIdle : s.idleTimer = none
  unheaded : s.headed = false
  isOpen : s.opened = true
  notOpening : s.opening = false
  unstarted : s.upload = .unstarted
  noConsumer : s.consumer = none
  notPiped : s.piped = false
  written : s.writeEnded = true → s.ownEnded = true
  noDeadline : s.call.upload = true → s.timer = none
  deadline : s.call.upload = false → ∃ t ∈ s.armed, s.timer = some t.id

/-- A two-way relay sends no body. -/
theorem Opened.twoWay {s : Exchange} (h : Opened s) (htwo : s.call.twoWay = true) : Live s := by
  have hkind : s.call.upload = false := by
    cases hk : s.call.upload with
    | false => rfl
    | true => simp [s.call.oneWay hk] at htwo
  refine ⟨h.toBase, fun _ => h.noSilence, fun _ => h.noIdle, ?_, fun _ _ => h.deadline hkind, ?_,
    ?_, ?_, ?_, ?_, ?_, h.written, fun _ => ⟨h.noConsumer, h.notPiped⟩, ?_⟩
  · intro _ hk
    simp [hkind] at hk
  · intro _ hk
    simp [hkind] at hk
  · intro ho
    simp [h.isOpen] at ho
  · intro ho
    simp [h.notOpening] at ho
  · intro _ hone
    simp [htwo] at hone
  · intro hstage
    simp [h.unstarted] at hstage
  · intro _ hh
    simp [h.unheaded] at hh
  · intro hp
    simp [h.notPiped] at hp

/-- With no body the gateway's direction is closed at once. -/
theorem Opened.closes {s : Exchange} (h : Opened s) :
    Live { s with ownEnded := true, upload := .closing } := by
  refine ⟨⟨h.running, h.held, h.answers, h.cancels, h.asked⟩, fun _ => h.noSilence,
    fun _ => h.noIdle, fun _ hk _ => h.noDeadline hk, ?_, ?_, ?_, ?_, ?_, fun _ => Or.inl rfl,
    fun _ _ _ => rfl, fun _ => rfl, fun _ => ⟨h.noConsumer, h.notPiped⟩, ?_⟩
  · intro _ hnot
    apply h.deadline
    cases hk : s.call.upload with
    | false => rfl
    | true => exact absurd (Or.inr (Or.inr rfl)) (hnot hk)
  · intro _ _ hreading
    cases hreading
  · intro ho
    have ho : s.opened = false := ho
    simp [h.isOpen] at ho
  · intro ho
    have ho : s.opening = true := ho
    simp [h.notOpening] at ho
  · intro _ _ hun
    cases hun
  · intro hp
    have hp : s.piped = true := hp
    simp [h.notPiped] at hp

/-- With a body the relay takes it, and a file upload's silence runs. -/
theorem Opened.reads {s : Exchange} (h : Opened s) :
    Live { s.armSilence with bodyTaken := true, upload := .reading } := by
  have hheld := h.held.armSilence h.noSilence
  cases hkind : s.call.upload with
  | false =>
    rw [armSilence_of_not_upload hkind]
    refine ⟨⟨h.running, h.held, h.answers, h.cancels, h.asked⟩, fun _ => h.noSilence,
      fun _ => h.noIdle, ?_, fun _ _ => h.deadline hkind, ?_, ?_, ?_, ?_, ?_, ?_, h.written,
      fun _ => ⟨h.noConsumer, h.notPiped⟩, ?_⟩
    · intro _ hk
      simp [hkind] at hk
    · intro _ hk
      simp [hkind] at hk
    · intro ho
      simp [h.isOpen] at ho
    · intro ho
      simp [h.notOpening] at ho
    · intro _ _ hun
      cases hun
    · rintro (hs | hs) <;> cases hs
    · intro _ hh
      simp [h.unheaded] at hh
    · intro hp
      simp [h.notPiped] at hp
  | true =>
    unfold Exchange.armSilence at hheld ⊢
    rw [if_pos hkind] at hheld ⊢
    refine ⟨⟨h.running, hheld, h.answers, h.cancels, h.asked⟩, ?_, fun _ => h.noIdle,
      fun _ _ _ => h.noDeadline hkind, ?_, ?_, ?_, ?_, ?_, ?_, ?_, h.written,
      fun _ => ⟨h.noConsumer, h.notPiped⟩, ?_⟩
    · rintro (hr | hk)
      · exact absurd rfl hr
      · simp [setTimer, hkind] at hk
    · intro _ hnot
      exact absurd (Or.inl rfl) (hnot hkind)
    · intro _ _ _
      exact ⟨_, List.mem_cons_self, rfl⟩
    · intro ho
      simp [setTimer, h.isOpen] at ho
    · intro ho
      simp [setTimer, h.notOpening] at ho
    · intro _ _ hun
      cases hun
    · rintro (hs | hs) <;> cases hs
    · intro _ hh
      simp [setTimer, h.unheaded] at hh
    · intro hp
      simp [setTimer, h.notPiped] at hp

theorem Opened.look {s : Exchange} (h : Opened s) :
    Opened { s.look with requestSent := true } := by
  have hlook : s.look = { s with ahead := s.look.ahead } := by
    unfold Exchange.look
    split <;> rfl
  rw [hlook]
  exact ⟨⟨h.running, h.held, h.answers, h.cancels, fun _ => rfl⟩, h.noSilence, h.noIdle, h.unheaded,
    h.isOpen, h.notOpening, h.unstarted, h.noConsumer, h.notPiped, h.written, h.noDeadline,
    h.deadline⟩

/-- The start deadline of a file upload ends here; any other keeps it. -/
theorem Live.opened {s : Exchange} (h : Live s) (hopening : s.opening = true) :
    Opened { s with opening := false, opened := true }.endStartDeadlineOfUpload := by
  obtain ⟨hup, -, hun⟩ := h.unopened (h.opening hopening)
  have hidle : s.idleTimer = none := h.noIdle hun
  have hsilence : s.silenceTimer = none := h.noSilence (Or.inl (by simp [hup]))
  obtain ⟨hconsumer, hpiped⟩ := h.unheaded hun
  obtain ⟨t, ht, htimer⟩ := h.deadline hun fun _ => by simp [sending, hup]
  unfold Exchange.endStartDeadlineOfUpload
  split
  · rename_i hkind
    have hkind : s.call.upload = true := by
      simp only [Bool.and_eq_true] at hkind
      exact hkind.1
    have hheld : ∀ u ∈ (s.cancelTimer s.timer).armed, s.idleTimer = some u.id ∨
        s.silenceTimer = some u.id := by
      intro u hu
      obtain ⟨hmem, hne⟩ := mem_cancelTimer.mp hu
      exact (h.held u hmem).resolve_left hne
    exact ⟨⟨h.running, fun u hu => Or.inr (hheld u hu), h.answers, h.cancels, h.asked⟩, hsilence,
      hidle, hun, rfl, rfl, hup, hconsumer, hpiped, h.written, fun _ => rfl,
      fun hk => absurd (show s.call.upload = false from hk) (by simp [hkind])⟩
  · rename_i hkind
    have hkind : s.call.upload = false := by
      cases hk : s.call.upload with
      | false => rfl
      | true => simp [hk, htimer] at hkind
    exact ⟨⟨h.running, h.held, h.answers, h.cancels, h.asked⟩, hsilence, hidle, hun, rfl, rfl, hup,
      hconsumer, hpiped, h.written,
      fun hk => absurd (show s.call.upload = true from hk) (by simp [hkind]),
      fun _ => ⟨t, ht, htimer⟩⟩

theorem Live.opens {s : Exchange} (h : Live s) (hopening : s.opening = true) : Live s.opens := by
  have hnext := (h.opened hopening).look
  unfold Exchange.opens
  dsimp only
  rw [if_neg (by simp [h.running])]
  split
  · rename_i htwo
    exact hnext.twoWay htwo
  · unfold Exchange.startUpload
    split
    · exact hnext.reads
    · exact hnext.closes

/-- One action of a running exchange, as long as it is careful. -/
theorem Live.step {s : Exchange} (h : Live s) {a : Act} (hok : s.Careful a) : Inv (s.step a) := by
  obtain ⟨hresponse, hupload, -⟩ := hok
  have hheaded : s.piped = true → s.headed = true := by
    intro hp
    cases hh : s.headed with
    | true => rfl
    | false => simp [(h.unheaded hh).2] at hp
  unfold Exchange.step
  cases a with
  | opens =>
    dsimp only
    split
    · rename_i hopening
      exact Or.inl (h.opens hopening)
    · exact Or.inl h
  | openFails =>
    dsimp only
    split
    · have hbase : Base { s with opening := false } :=
        ⟨h.running, h.held, h.answers, h.cancels, h.asked⟩
      exact Or.inr (hbase.fail _)
    · exact Or.inl h
  | head status accepted =>
    dsimp only
    split
    · rename_i hsent
      exact h.onHead hsent status accepted
    · exact Or.inl h
  | invalidPush =>
    dsimp only
    split
    · exact Or.inr (h.base.fail _)
    · exact Or.inl h
  | answer cancelled =>
    dsimp only
    split
    · exact h.onAnswer cancelled
    · exact Or.inl h
  | callError =>
    dsimp only
    split
    · exact Or.inr (h.base.fail _)
    · exact Or.inl h
  | fires id => exact h.fires id
  | callerAborts => exact Or.inr (h.base.fail _)
  | callerCancels =>
    dsimp only
    split
    · rename_i hin
      exact Or.inr (h.base.abandon hin)
    · exact Or.inl h
  | bodyReads r => exact h.bodyReads r
  | writeSettles w => exact h.writeSettles w hupload
  | closeSettles w => exact h.closeSettles w hupload
  | readSettles r => exact h.readSettles r
  | pull => exact h.pull
  | resume full => exact h.resume full hresponse
  | moduleWrite w =>
    dsimp only
    split
    · rename_i hpiped
      exact h.moduleWrite (hheaded hpiped) w
    · exact Or.inl h
  | moduleClose w =>
    dsimp only
    split
    · rename_i hpiped
      exact h.moduleClose (hheaded hpiped) w
    · exact Or.inl h
  | workerStops =>
    dsimp only
    split
    · exact Or.inl (h.ownEnded s.writeEnded)
    · exact Or.inl h

/-! ### After the end -/

/-- An ended exchange with nothing more of it let go of than before. -/
theorem Over.frame {s : Exchange} (h : Over s) (u : Upload) (w : Ahead) (c : Option Consumer)
    (o : Bool) : Over { s with upload := u, ahead := w, consumer := c, opening := o } :=
  ⟨h.done, h.quiet, h.answers, h.cancels, h.asked, h.freed, h.body⟩

theorem Over.ownEnded {s : Exchange} (h : Over s) (w : Bool) :
    Over { s with ownEnded := true, writeEnded := w } :=
  ⟨h.done, h.quiet, h.answers, h.cancels, h.asked, fun _ => Or.inl rfl, h.body⟩

theorem Over.fail {s : Exchange} (h : Over s) (e : RelayError) : Over (s.fail e) := by
  unfold Exchange.fail
  rwa [if_pos h.done]

theorem Over.onChannelError {s : Exchange} (h : Over s) (f : Failure) :
    Over (s.onChannelError f) := by
  unfold Exchange.onChannelError
  rwa [if_pos h.done]

theorem Over.uploadFailed {s : Exchange} (h : Over s) (f : Failure) : Over (s.uploadFailed f) := by
  unfold Exchange.uploadFailed
  rwa [if_pos h.done]

theorem Over.armHeadDeadline {s : Exchange} (h : Over s) : Over s.armHeadDeadline := by
  unfold Exchange.armHeadDeadline
  rwa [if_pos (by simp [h.done])]

theorem Over.armIdle {s : Exchange} (h : Over s) : Over s.armIdle := by
  unfold Exchange.armIdle
  rwa [if_pos (by simp [h.done])]

theorem Over.maybeComplete {s : Exchange} (h : Over s) : Over s.maybeComplete := by
  unfold Exchange.maybeComplete Exchange.finish
  rw [if_pos h.done]
  split <;> exact h

theorem Over.disarmSilence {s : Exchange} (h : Over s) (u : Upload) :
    Over { s.disarmSilence with upload := u } := by
  refine ⟨h.done, ?_, h.answers, h.cancels, h.asked, h.freed, h.body⟩
  apply List.eq_nil_iff_forall_not_mem.mpr
  intro t ht
  have hmem := (mem_cancelTimer.mp ht).1
  rw [h.quiet] at hmem
  cases hmem

theorem Over.look {s : Exchange} (h : Over s) (c : Option Consumer) :
    Over { s.look with consumer := c } := by
  unfold Exchange.look
  split
  · exact h.frame _ _ _ _
  · exact h.frame _ _ _ _

theorem Over.opens {s : Exchange} (h : Over s) : Over s.opens := by
  unfold Exchange.opens
  dsimp only
  rw [if_pos h.done]
  exact ⟨h.done, h.quiet, h.answers, h.cancels, h.asked, fun _ => Or.inr rfl, h.body⟩

theorem Over.bodyReads {s : Exchange} (h : Over s) (r : Read) : Over (s.bodyReads r) := by
  unfold Exchange.bodyReads
  split
  · cases r with
    | failed f => exact Over.uploadFailed (h.frame _ _ _ _) _
    | chunk =>
      dsimp only
      rw [if_pos (show s.disarmSilence.done = true from h.done)]
      exact h.disarmSilence _
    | ended =>
      dsimp only
      rw [if_pos (show s.disarmSilence.done = true from h.done)]
      exact h.disarmSilence _
  · exact h

theorem Over.writeSettles {s : Exchange} (h : Over s) (w : Written)
    (hok : s.writesAfterEnd (.writeSettles w) = false) : Over (s.writeSettles w) := by
  unfold Exchange.writeSettles
  split
  · rename_i hwriting
    cases w with
    | ok =>
      have hkind : s.call.upload = false := by simpa [writesAfterEnd, hwriting, h.done] using hok
      dsimp only
      rw [armSilence_of_not_upload hkind]
      exact h.frame _ _ _ _
    | failed f => exact Over.uploadFailed (h.frame _ _ _ _) _
  · exact h

theorem Over.closeSettles {s : Exchange} (h : Over s) (w : Written) : Over (s.closeSettles w) := by
  unfold Exchange.closeSettles
  split
  · cases w with
    | ok => exact Over.armHeadDeadline (h.frame _ _ _ _)
    | failed f =>
      dsimp only
      split
      · exact Over.uploadFailed (h.frame _ _ _ _) _
      · exact Over.armHeadDeadline (h.frame _ _ _ _)
  · exact h

theorem Over.readSettles {s : Exchange} (h : Over s) (r : Read) : Over (s.readSettles r) := by
  unfold Exchange.readSettles
  split
  · cases r with
    | chunk => exact Over.armIdle (h.frame _ _ _ _)
    | ended => exact h.frame _ _ _ _
    | failed f => exact Over.onChannelError (h.frame _ _ _ _) _
  · exact h

theorem Over.pull {s : Exchange} (h : Over s) : Over s.pull := by
  unfold Exchange.pull
  split
  · split
    · exact h.armIdle.look _
    · exact h.look _
  · exact h

theorem Over.resume {s : Exchange} (h : Over s) (full : Bool) : Over (s.resume full) := by
  unfold Exchange.resume
  split
  · exact h.frame _ _ _ _
  · dsimp only
    rw [if_pos h.done]
    exact h.frame _ _ _ _
  · dsimp only
    rw [if_pos h.done]
    exact h.frame _ _ _ _
  all_goals exact h

theorem Over.moduleEnds {s : Exchange} (h : Over s) :
    Over ({ s with ownEnded := true, writeEnded := true }.maybeComplete) :=
  (h.ownEnded true).maybeComplete

theorem Over.moduleWrite {s : Exchange} (h : Over s) (w : Written) : Over (s.moduleWrite w) := by
  unfold Exchange.moduleWrite
  split
  · exact h
  · exact h.moduleEnds
  · exact h.onChannelError _

theorem Over.moduleClose {s : Exchange} (h : Over s) (w : Written) : Over (s.moduleClose w) := by
  unfold Exchange.moduleClose
  split
  · exact h.moduleEnds
  · exact h.moduleEnds
  · exact h.onChannelError _

/-- Nothing that still arrives undoes the end. -/
theorem Over.step {s : Exchange} (h : Over s) {a : Act} (hok : s.Careful a) : Over (s.step a) := by
  unfold Exchange.step
  cases a with
  | opens =>
    dsimp only
    split
    · exact h.opens
    · exact h
  | openFails =>
    dsimp only
    split
    · exact Over.fail (h.frame _ _ _ _) _
    · exact h
  | head status accepted =>
    unfold Exchange.onHead
    dsimp only
    rw [if_pos h.done]
    split <;> exact h
  | invalidPush =>
    dsimp only
    split
    · exact h.fail _
    · exact h
  | answer cancelled =>
    unfold Exchange.onAnswer
    dsimp only
    rw [if_pos h.done]
    split <;> exact h
  | callError =>
    dsimp only
    split
    · exact h.fail _
    · exact h
  | fires id =>
    unfold Exchange.fires
    dsimp only
    rw [h.quiet]
    exact h
  | callerAborts => exact h.fail _
  | callerCancels =>
    unfold Exchange.abandon
    dsimp only
    rw [if_pos h.done]
    split <;> exact h
  | bodyReads r => exact h.bodyReads r
  | writeSettles w => exact h.writeSettles w hok.2.2
  | closeSettles w => exact h.closeSettles w
  | readSettles r => exact h.readSettles r
  | pull => exact h.pull
  | resume full => exact h.resume full
  | moduleWrite w =>
    dsimp only
    split
    · exact h.moduleWrite w
    · exact h
  | moduleClose w =>
    dsimp only
    split
    · exact h.moduleClose w
    · exact h
  | workerStops =>
    dsimp only
    split
    · exact h.ownEnded s.writeEnded
    · exact h

theorem inv_step (s : Exchange) (a : Act) (hok : s.Careful a) : s.Inv → (s.step a).Inv
  | .inl h => h.step hok
  | .inr h => Or.inr (h.step hok)

theorem held_create (call : Call) : Held (create call).armDeadline :=
  Held.armDeadline (fun t ht => by cases ht) rfl

theorem inv_start (call : Call) (aborted reachable : Bool) :
    Inv (Exchange.start call aborted reachable) := by
  have hbase : Base (create call).armDeadline := ⟨rfl, held_create call, rfl, rfl, fun h => h⟩
  unfold Exchange.start
  split
  · refine Or.inr ⟨rfl, rfl, rfl, rfl, fun h => h, ?_, ?_⟩
    · intro hopen
      cases hopen
    · intro htaken
      cases htaken
  · split
    · refine Or.inl ⟨⟨rfl, held_create call, rfl, rfl, fun h => h⟩, fun _ => rfl, fun _ => rfl, ?_,
        ?_, ?_, fun _ => ⟨rfl, rfl, rfl⟩, fun _ => rfl, ?_, ?_, ?_, ?_, fun _ => ⟨rfl, rfl⟩, ?_⟩
      · intro _ _ hsending
        simp [sending, armDeadline, setTimer, create] at hsending
      · intro _ _
        exact ⟨_, List.mem_cons_self, rfl⟩
      · intro _ _ hreading
        cases hreading
      · intro hopen
        cases hopen
      · rintro (hs | hs) <;> cases hs
      · intro _ hh
        cases hh
      · intro hw
        cases hw
      · intro hp
        cases hp
    · exact Or.inr (hbase.fail _)

/-- Whatever timer is armed, it ends the exchange when it fires. -/
theorem Base.fires_done {s : Exchange} (h : Base s) {t : Timer} (ht : t ∈ s.armed) :
    (s.step (.fires t.id)).done = true := by
  have hbase : Base (s.cancelTimer (some t.id)) :=
    ⟨h.running, h.held.cancelTimer _, h.answers, h.cancels, h.asked⟩
  show (s.fires t.id).done = true
  unfold Exchange.fires
  cases hfind : s.armed.find? (·.id = t.id) with
  | some u => exact (hbase.fail u.error).done
  | none =>
    have hno := List.find?_eq_none.mp hfind t ht
    simp at hno

theorem Live.bounded {s : Exchange} (h : Live s) : Bounded s := by
  have hnot {p : Prop} (hd : s.done = true) : p := by
    rw [h.running] at hd
    cases hd
  refine ⟨?_, fun hd => hnot hd, ?_, ?_, fun hd => hnot hd, fun hd => hnot hd, fun hd => hnot hd,
    ?_⟩
  · rw [h.answers]
    split <;> simp
  · rw [h.cancels]
    split <;> simp
  · intro hpos
    apply h.asked
    cases hsent : s.cancelSent with
    | true => rfl
    | false => simp [h.cancels, hsent] at hpos
  · intro _ hun hwriting hclosing
    have harmed : ∃ t, t ∈ s.armed := by
      by_cases hreading : s.call.upload = true ∧ s.upload = .reading
      · obtain ⟨t, ht, -⟩ := h.silence hun hreading.1 hreading.2
        exact ⟨t, ht⟩
      · obtain ⟨t, ht, -⟩ := h.deadline hun fun hkind hsending => by
          rcases hsending with hr | hw | hc
          · exact hreading ⟨hkind, hr⟩
          · exact hwriting hw
          · exact hclosing hc
        exact ⟨t, ht⟩
    obtain ⟨t, ht⟩ := harmed
    exact ⟨t, ht, h.base.fires_done ht⟩

theorem Over.bounded {s : Exchange} (h : Over s) : Bounded s := by
  refine ⟨by simp [h.answers], fun _ => h.answers, ?_, ?_, fun _ => h.quiet, fun _ => h.freed,
    fun _ => h.body, ?_⟩
  · rw [h.cancels]
    split <;> simp
  · intro hpos
    apply h.asked
    cases hsent : s.cancelSent with
    | true => rfl
    | false => simp [h.cancels, hsent] at hpos
  · intro hd
    rw [h.done] at hd
    cases hd

theorem Inv.bounded {s : Exchange} : Inv s → Bounded s
  | .inl h => h.bounded
  | .inr h => h.bounded

/-! ### The caller's body -/

/-- What only the opening of the channel changes. -/
def kept (s : Exchange) : Call × Bool × Bool := (s.call, s.opened, s.bodyTaken)

@[simp] theorem armIdle_kept (s : Exchange) : s.armIdle.kept = s.kept := by
  unfold Exchange.armIdle
  split <;> rfl

@[simp] theorem armSilence_kept (s : Exchange) : s.armSilence.kept = s.kept := by
  unfold Exchange.armSilence
  split <;> rfl

@[simp] theorem armHeadDeadline_kept (s : Exchange) : s.armHeadDeadline.kept = s.kept := by
  unfold Exchange.armHeadDeadline
  split <;> rfl

@[simp] theorem look_kept (s : Exchange) : s.look.kept = s.kept := by
  unfold Exchange.look
  split <;> rfl

@[simp] theorem finish_kept (s : Exchange) : s.finish.kept = s.kept := by
  unfold Exchange.finish
  split <;> rfl

@[simp] theorem sendCancel_kept (s : Exchange) : s.sendCancel.kept = s.kept := by
  unfold Exchange.sendCancel
  split <;> rfl

@[simp] theorem fail_kept (s : Exchange) (e : RelayError) : (s.fail e).kept = s.kept := by
  unfold Exchange.fail
  dsimp only
  split
  · rfl
  · rw [finish_kept]
    exact sendCancel_kept s

@[simp] theorem abandon_kept (s : Exchange) : s.abandon.kept = s.kept := by
  unfold Exchange.abandon
  split
  · rfl
  · rw [finish_kept]
    exact sendCancel_kept s

@[simp] theorem onChannelError_kept (s : Exchange) (f : Failure) :
    (s.onChannelError f).kept = s.kept := by
  unfold Exchange.onChannelError
  split
  · rfl
  · cases f with
    | other => exact fail_kept _ _
    | channel reason =>
      cases reason with
      | aborted =>
        dsimp only
        split
        · exact fail_kept _ _
        · rfl
      | closed => exact fail_kept _ _
      | notAccepted => exact fail_kept _ _
      | stalled => exact fail_kept _ _
      | invalid => exact fail_kept _ _
      | stopped => exact fail_kept _ _

@[simp] theorem maybeComplete_kept (s : Exchange) : s.maybeComplete.kept = s.kept := by
  unfold Exchange.maybeComplete
  split
  · exact finish_kept s
  · rfl

@[simp] theorem uploadFailed_kept (s : Exchange) (f : Failure) :
    (s.uploadFailed f).kept = s.kept := by
  unfold Exchange.uploadFailed
  split
  · rfl
  · split
    · exact armHeadDeadline_kept _
    · exact onChannelError_kept _ _
    · exact fail_kept _ _

theorem bodyReads_kept (s : Exchange) (r : Read) : (s.bodyReads r).kept = s.kept := by
  unfold Exchange.bodyReads
  split
  · cases r with
    | failed f => exact uploadFailed_kept _ _
    | chunk =>
      dsimp only
      split <;> rfl
    | ended =>
      dsimp only
      split <;> rfl
  · rfl

theorem writeSettles_kept (s : Exchange) (w : Written) : (s.writeSettles w).kept = s.kept := by
  unfold Exchange.writeSettles
  split
  · cases w with
    | ok => exact armSilence_kept s
    | failed f => exact uploadFailed_kept _ _
  · rfl

theorem closeSettles_kept (s : Exchange) (w : Written) : (s.closeSettles w).kept = s.kept := by
  unfold Exchange.closeSettles
  split
  · cases w with
    | ok => exact armHeadDeadline_kept _
    | failed f =>
      dsimp only
      split
      · exact uploadFailed_kept _ _
      · exact armHeadDeadline_kept _
  · rfl

theorem readSettles_kept (s : Exchange) (r : Read) : (s.readSettles r).kept = s.kept := by
  unfold Exchange.readSettles
  split
  · cases r with
    | chunk => exact armIdle_kept _
    | ended => rfl
    | failed f => exact onChannelError_kept _ _
  · rfl

theorem pull_kept (s : Exchange) : s.pull.kept = s.kept := by
  have hlook (t : Exchange) (c : Option Consumer) :
      Exchange.kept { t.look with consumer := c } = t.kept := look_kept t
  unfold Exchange.pull
  split
  · split
    · rw [hlook, armIdle_kept]
    · exact hlook s _
  · rfl

theorem resume_kept (s : Exchange) (full : Bool) : (s.resume full).kept = s.kept := by
  unfold Exchange.resume
  split
  · rfl
  · dsimp only
    split
    · rfl
    · split
      · rfl
      · split <;> rfl
      · exact look_kept _
  · dsimp only
    split
    · rfl
    · split
      · exact finish_kept _
      · exact finish_kept _
      · exact maybeComplete_kept _
  all_goals rfl

theorem respond_kept (s : Exchange) (status : Nat) : (s.respond status).kept = s.kept := by
  have hanswered : s.armIdle.resolve.kept = s.kept := armIdle_kept s
  unfold Exchange.respond
  dsimp only
  split
  · exact (look_kept _).trans hanswered
  · exact hanswered

theorem onHead_kept (s : Exchange) (status : Nat) (accepted : Bool) :
    (s.onHead status accepted).kept = s.kept := by
  unfold Exchange.onHead
  dsimp only
  split
  · rfl
  · split
    · exact fail_kept _ _
    · split
      · split
        · exact armIdle_kept _
        · exact respond_kept _ _
      · exact respond_kept _ _

theorem onAnswer_kept (s : Exchange) (cancelled : Bool) : (s.onAnswer cancelled).kept = s.kept := by
  unfold Exchange.onAnswer
  split
  · rfl
  · split
    · exact fail_kept _ _
    · split
      · exact fail_kept _ _
      · rfl

theorem moduleWrite_kept (s : Exchange) (w : Written) : (s.moduleWrite w).kept = s.kept := by
  unfold Exchange.moduleWrite
  split
  · rfl
  · exact maybeComplete_kept _
  · exact onChannelError_kept _ _

theorem moduleClose_kept (s : Exchange) (w : Written) : (s.moduleClose w).kept = s.kept := by
  unfold Exchange.moduleClose
  split
  · exact maybeComplete_kept _
  · exact maybeComplete_kept _
  · exact onChannelError_kept _ _

theorem step_kept {s : Exchange} {a : Act} (ha : a ≠ .opens) : (s.step a).kept = s.kept := by
  unfold Exchange.step
  cases a with
  | opens => exact absurd rfl ha
  | openFails =>
    dsimp only
    split
    · exact fail_kept _ _
    · rfl
  | head status accepted =>
    dsimp only
    split
    · exact onHead_kept s status accepted
    · rfl
  | invalidPush =>
    dsimp only
    split
    · exact fail_kept _ _
    · rfl
  | answer cancelled =>
    dsimp only
    split
    · exact onAnswer_kept s cancelled
    · rfl
  | callError =>
    dsimp only
    split
    · exact fail_kept _ _
    · rfl
  | fires id =>
    unfold Exchange.fires
    dsimp only
    split
    · exact fail_kept _ _
    · rfl
  | callerAborts => exact fail_kept _ _
  | callerCancels =>
    dsimp only
    split
    · exact abandon_kept s
    · rfl
  | bodyReads r => exact bodyReads_kept s r
  | writeSettles w => exact writeSettles_kept s w
  | closeSettles w => exact closeSettles_kept s w
  | readSettles r => exact readSettles_kept s r
  | pull => exact pull_kept s
  | resume full => exact resume_kept s full
  | moduleWrite w =>
    dsimp only
    split
    · exact moduleWrite_kept s w
    · rfl
  | moduleClose w =>
    dsimp only
    split
    · exact moduleClose_kept s w
    · rfl
  | workerStops =>
    dsimp only
    split <;> rfl

/-- A relay with a body takes it when its channel opens, and does not end before. -/
structure Takes (s : Exchange) : Prop where
  oneWay : s.call.twoWay = false
  taken : s.opened = true → s.bodyTaken = true
  waits : s.opened = false → s.done = false ∧ s.ahead = .unread

/-- What the opening has done when the upload begins. -/
theorem opening_kept (s : Exchange) : (Exchange.endStartDeadlineOfUpload
    { s with opening := false, opened := true }).look.kept = (s.call, true, s.bodyTaken) := by
  rw [look_kept]
  unfold Exchange.endStartDeadlineOfUpload
  split <;> rfl

theorem opens_call (s : Exchange) : s.opens.call = s.call := by
  have hcall := congrArg Prod.fst (opening_kept s)
  unfold Exchange.opens
  dsimp only
  split
  · rfl
  · split
    · exact hcall
    · unfold Exchange.startUpload
      split
      · exact (congrArg Prod.fst (armSilence_kept _)).trans hcall
      · exact hcall

theorem reading_kept {s : Exchange} {c : Call} {b : Bool} (h : s.kept = (c, true, b)) :
    Exchange.kept { s.armSilence with bodyTaken := true, upload := .reading } = (c, true, true) := by
  have harm := (armSilence_kept s).trans h
  simp only [kept, Prod.mk.injEq] at harm ⊢
  exact ⟨harm.1, harm.2.1, trivial⟩

theorem opens_kept {s : Exchange} (hbody : s.call.hasBody = true) (hone : s.call.twoWay = false) :
    s.opens.kept = (s.call, true, if s.done then s.bodyTaken else true) := by
  have hlook := opening_kept s
  have hcall := congrArg Prod.fst hlook
  simp only [kept] at hcall
  unfold Exchange.opens
  dsimp only
  split
  · rfl
  · rw [if_neg (by rw [hcall]; simp [hone])]
    unfold Exchange.startUpload
    dsimp only
    rw [if_pos (by rw [hcall]; exact hbody)]
    exact reading_kept hlook

/-- Before the channel is open nothing but its opening, its failure, the deadline and the caller's
    abort happens. -/
theorem Live.step_unopened {s : Exchange} (h : Live s) (hclosed : s.opened = false)
    (hahead : s.ahead = .unread) (hbody : s.call.hasBody = true) {a : Act} (ha : a ≠ .opens)
    (hok : s.OpensFirst a) : s.step a = s := by
  obtain ⟨hup, hsent, hun⟩ := h.unopened hclosed
  obtain ⟨hconsumer, hpiped⟩ := h.unheaded hun
  unfold OpensFirst endsUnopened at hok
  simp only [hbody, hclosed, h.running, Bool.not_false, Bool.and_self, Bool.true_and] at hok
  unfold Exchange.step
  cases a with
  | opens => exact absurd rfl ha
  | openFails =>
    dsimp only at hok ⊢
    rw [hok]
    rfl
  | callerAborts => cases hok
  | fires id =>
    have hfind : s.armed.find? (·.id = id) = none := by
      rw [List.find?_eq_none]
      intro t ht hid
      have hno := List.any_eq_false.mp hok t ht
      simp_all
    unfold Exchange.fires
    dsimp only
    rw [hfind]
  | head status accepted => simp [hsent]
  | invalidPush => simp [hsent]
  | answer cancelled => simp [hsent]
  | callError => simp [hsent]
  | callerCancels => simp [hun]
  | bodyReads r => simp [Exchange.bodyReads, hup]
  | writeSettles w => simp [Exchange.writeSettles, hup]
  | closeSettles w => simp [Exchange.closeSettles, hup]
  | readSettles r => simp [Exchange.readSettles, hahead]
  | pull => simp [Exchange.pull, hun]
  | resume full => simp [Exchange.resume, hconsumer]
  | moduleWrite w => simp [hpiped]
  | moduleClose w => simp [hpiped]
  | workerStops => simp [hclosed]

theorem Takes.of_kept {s t : Exchange} (h : Takes s) (hopen : s.opened = true)
    (hkept : t.kept = s.kept) : Takes t := by
  simp only [kept, Prod.mk.injEq] at hkept
  obtain ⟨hcall, hopened, htaken⟩ := hkept
  refine ⟨by rw [hcall]; exact h.oneWay, fun _ => by rw [htaken]; exact h.taken hopen, fun hno => ?_⟩
  rw [hopened, hopen] at hno
  cases hno

theorem Takes.step {s : Exchange} (h : Takes s) (hinv : Inv s) (hbody : s.call.hasBody = true)
    {a : Act} (hok : s.OpensFirst a) : Takes (s.step a) := by
  by_cases ha : a = .opens
  · subst ha
    unfold Exchange.step
    dsimp only
    split
    · have hopens := opens_kept hbody h.oneWay
      simp only [kept, Prod.mk.injEq] at hopens
      obtain ⟨hcall, hopened, htaken⟩ := hopens
      refine ⟨by rw [hcall]; exact h.oneWay, fun _ => ?_, fun hno => ?_⟩
      · rw [htaken]
        split
        · rename_i hdone
          apply h.taken
          cases hopen : s.opened with
          | true => rfl
          | false => simp [(h.waits hopen).1] at hdone
        · rfl
      · rw [hopened] at hno
        cases hno
    · exact h
  · cases hopen : s.opened with
    | true => exact h.of_kept hopen (step_kept ha)
    | false =>
      obtain ⟨hrun, hahead⟩ := h.waits hopen
      have hlive : Live s := by
        rcases hinv with hlive | hover
        · exact hlive
        · have hd := hover.done
          rw [hrun] at hd
          cases hd
      rw [hlive.step_unopened hopen hahead hbody ha hok]
      exact h

theorem step_call (s : Exchange) (a : Act) : (s.step a).call = s.call := by
  by_cases ha : a = .opens
  · subst ha
    unfold Exchange.step
    dsimp only
    split
    · exact opens_call s
    · rfl
  · exact congrArg Prod.fst (step_kept ha)

/-- Once it has ended, a relay that took the caller's body has cancelled it. -/
theorem Takes.bodyCancelled {s : Exchange} (h : Takes s) (hs : Bounded s) : BodyCancelled s := by
  intro hdone _
  apply hs.body hdone
  apply h.taken
  cases hopen : s.opened with
  | true => rfl
  | false => simp [(h.waits hopen).1] at hdone

end Exchange

open Exchange

/-- A body is sent one way, to a worker that can be reached, for a caller that is still there. -/
def BodyCanGo (call : Call) (aborted reachable : Bool) : Prop :=
  call.hasBody = true → call.twoWay = false ∧ aborted = false ∧ reachable = true

theorem start_call (call : Call) (aborted reachable : Bool) :
    (Exchange.start call aborted reachable).call = call := by
  unfold Exchange.start
  split
  · rfl
  · split
    · rfl
    · exact congrArg Prod.fst (fail_kept (create call).armDeadline .unreachable)

theorem start_takes {call : Call} {aborted reachable : Bool}
    (h : call.twoWay = false ∧ aborted = false ∧ reachable = true) :
    (Exchange.start call aborted reachable).Takes := by
  obtain ⟨hone, rfl, rfl⟩ := h
  refine ⟨hone, fun hopen => ?_, fun _ => ⟨rfl, rfl⟩⟩
  cases hopen

/-- In every careful run the exchange answers once, sends at most one cancel and that for a request
    it sent, leaves no timer, no body it took and no channel behind, and has a timer that ends it at
    every moment before the head, writes to the channel apart. Where moreover it does not end before
    its channel opens, the caller's body is cancelled however it ends. -/
theorem relay_ends_once_and_bounded (call : Call) (aborted reachable : Bool)
    (acts : List Exchange.Act)
    (h : AllSteps Exchange.step Exchange.Careful (Exchange.start call aborted reachable) acts) :
    (run Exchange.step (Exchange.start call aborted reachable) acts).Bounded ∧
      (BodyCanGo call aborted reachable →
        AllSteps Exchange.step Exchange.OpensFirst (Exchange.start call aborted reachable) acts →
        (run Exchange.step (Exchange.start call aborted reachable) acts).BodyCancelled) := by
  have hinv := inv_start call aborted reachable
  have hbounded := (run_invariant_of_allSteps inv_step acts _ hinv h).bounded
  refine ⟨hbounded, fun hcan hfirst hdone hbody => ?_⟩
  have hcall : (run Exchange.step (Exchange.start call aborted reachable) acts).call = call :=
    run_invariant (I := fun s => s.call = call) (fun s a hs => (step_call s a).trans hs) acts _
      (start_call call aborted reachable)
  rw [hcall] at hbody
  have hstep : ∀ (s : Exchange) a, s.Careful a ∧ s.OpensFirst a →
      (s.Inv ∧ s.Takes ∧ s.call = call) →
        ((s.step a).Inv ∧ (s.step a).Takes ∧ (s.step a).call = call) := by
    rintro s a ⟨hok, hopens⟩ ⟨hs, htakes, hsame⟩
    refine ⟨inv_step s a hok hs, ?_, (step_call s a).trans hsame⟩
    exact htakes.step hs (by rw [hsame]; exact hbody) hopens
  have hrun := run_invariant_of_allSteps hstep acts _
    ⟨hinv, start_takes (hcan hbody), start_call call aborted reachable⟩ (h.and hfirst)
  exact hrun.2.1.bodyCancelled hbounded hdone (by rw [hcall]; exact hbody)

/-- A file upload of one chunk, answered with a body of one chunk. -/
def fileUpload : Call :=
  { twoWay := false, hasBody := true, upload := true, headMethod := false, oneWay := by decide }

def uploadAnswered : List Act :=
  [.opens, .bodyReads .chunk, .writeSettles .ok, .bodyReads .ended, .closeSettles .ok, .head 201 true,
    .readSettles .chunk, .pull, .resume false, .pull, .readSettles .ended, .resume false]

theorem relay_ends_once_and_bounded_uploadAnswered :
    (run Exchange.step (Exchange.start fileUpload false true) uploadAnswered).done = true ∧
      (run Exchange.step (Exchange.start fileUpload false true) uploadAnswered).Bounded ∧
      (run Exchange.step (Exchange.start fileUpload false true) uploadAnswered).BodyCancelled := by
  have hrun := relay_ends_once_and_bounded fileUpload false true uploadAnswered (by decide +kernel)
  exact ⟨by decide +kernel, hrun.1, hrun.2 (fun _ => by decide) (by decide +kernel)⟩

/-- The worker aborts the channel while a file's bytes are sent, and its call is never answered. -/
def abortedUpload : List Act :=
  [.opens, .bodyReads .chunk, .readSettles (.failed (.channel .aborted)),
    .writeSettles (.failed (.channel .aborted))]

/-- The response ends while the request body is still being read. -/
def earlyResponse : List Act :=
  [.opens, .head 200 true, .pull, .readSettles .ended, .resume false]

theorem aborted_upload_unbounded_and_channel_left_open :
    ¬ (∀ acts, (run Exchange.step (Exchange.start fileUpload false true) acts).Bounded) ∧
      (run Exchange.step (Exchange.start fileUpload false true) abortedUpload).armed = [] ∧
      (run Exchange.step (Exchange.start fileUpload false true) abortedUpload).done = false ∧
      (run Exchange.step (Exchange.start fileUpload false true) earlyResponse).done = true ∧
      (run Exchange.step (Exchange.start fileUpload false true) earlyResponse).ownEnded = false ∧
      (run Exchange.step (Exchange.start fileUpload false true) earlyResponse).reset = false := by
  refine ⟨fun hall => ?_, by decide +kernel, by decide +kernel, by decide +kernel, by decide +kernel,
    by decide +kernel⟩
  obtain ⟨t, ht, -⟩ := (hall abortedUpload).waits (by decide +kernel) (by decide +kernel)
    (by decide +kernel) (by decide +kernel)
  have hnone : (run Exchange.step (Exchange.start fileUpload false true) abortedUpload).armed = [] := by
    decide +kernel
  rw [hnone] at ht
  cases ht

end Simlock.Relay
