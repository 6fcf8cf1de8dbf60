import Simlock.Link.ReceiverBounds

/-! What a method of a channel does to the credit of its two directions.

    Credit is lost where the receiver counts it as granted and the sender never hears of it, or
    where the receiver has read everything and still keeps some back. `Accounts` is the first half
    of the account, with `got` the credit a message brought and `fs` the messages queued:

        granted' ≤ granted + credits fs        allowance + got ≤ allowance'

    `Settled` is the second, of a channel by itself: an empty receiver has granted what was read,
    and who waits for credit has none. -/

namespace Simlock.Link

/-- What a method neither forgets nor takes back. -/
structure Accounts (c c' : Channel) (got : Nat) (fs : List Envelope) : Prop where
  number : c'.number = c.number
  failed : c.failure.isSome = true → c'.failure.isSome = true
  ended : c.endQueued = true → c'.endQueued = true
  reset : c.resetHanded = true → c'.resetHanded = true
  done : c.done = true → c'.done = true
  allowance : c'.failure.isSome = false → c.allowance + got ≤ c'.allowance
  granted : Within c → c'.granted ≤ c.granted + credits fs
  frames : ∀ e ∈ fs, e.number = c.number

/-- The channel keeps no credit back that it should have granted, and lets nobody wait for credit
    that it has. -/
structure Settled (c : Channel) : Prop where
  chunks : ∀ chunk ∈ c.inQueue, chunk ≠ []
  granted : c.failure.isSome = false → c.stopSent = false → c.inEnded = false →
    c.inQueue = [] → c.inTail = [] → c.readTotal ≤ c.granted
  waits : c.failure.isSome = false → c.endQueued = false →
    c.pendingWrite = true ∨ 0 < c.creditWaiters → c.allowance ≤ c.handed + c.queuedBytes

/-- `Settled`, but for a chunk the reader was just handed. -/
structure Reading (c : Channel) : Prop where
  chunks : ∀ chunk ∈ c.inQueue, chunk ≠ []
  waits : c.failure.isSome = false → c.endQueued = false →
    c.pendingWrite = true ∨ 0 < c.creditWaiters → c.allowance ≤ c.handed + c.queuedBytes

theorem Settled.reading {c : Channel} (h : Settled c) : Reading c := ⟨h.chunks, h.waits⟩

/-- A method of a channel, from a message with `got` credit to the messages `fs`. -/
structure Turn (c c' : Channel) (got : Nat) (fs : List Envelope) : Prop
    extends Accounts c c' got fs where
  settled : Settled c → Settled c'

theorem Accounts.trans {c c' c'' : Channel} {got got' : Nat} {fs gs : List Envelope}
    (h : Accounts c c' got fs) (hkeeps : Keeps c c') (k : Accounts c' c'' got' gs) :
    Accounts c c'' (got + got') (fs ++ gs) := by
  refine ⟨k.number.trans h.number, fun hf => k.failed (h.failed hf), fun he => k.ended (h.ended he),
    fun hr => k.reset (h.reset hr), fun hd => k.done (h.done hd), fun hf => ?_, fun hw => ?_,
    fun e he => ?_⟩
  · have hruns : c'.failure.isSome = false := by
      cases hc' : c'.failure.isSome with
      | false => rfl
      | true => exact (k.failed hc').symm.trans hf
    have hfirst := h.allowance hruns
    have hsecond := k.allowance hf
    omega
  · have hfirst := h.granted hw
    have hsecond := k.granted (hkeeps.within hw)
    rw [credits_append]
    omega
  · rcases List.mem_append.mp he with he | he
    · exact h.frames e he
    · exact (k.frames e he).trans h.number

theorem Accounts.refl (c : Channel) : Accounts c c 0 [] :=
  ⟨rfl, id, id, id, id, fun _ => Nat.le_refl _, fun _ => Nat.le_refl _, by simp⟩

theorem Turn.refl (c : Channel) : Turn c c 0 [] := ⟨.refl c, id⟩

/-- A method that leaves both counters of credit as they are. -/
theorem Accounts.same {c c' : Channel} (hnumber : c'.number = c.number)
    (hfailure : c'.failure = c.failure) (hended : c'.endQueued = c.endQueued)
    (hreset : c'.resetHanded = c.resetHanded) (hdone : c'.done = c.done)
    (hallowance : c'.allowance = c.allowance) (hgranted : c'.granted = c.granted) :
    Accounts c c' 0 [] := by
  refine ⟨hnumber, ?_, ?_, ?_, ?_, ?_, ?_, by simp⟩
  · rw [hfailure]
    exact fun hf => hf
  · rw [hended]
    exact fun he => he
  · rw [hreset]
    exact fun hr => hr
  · rw [hdone]
    exact fun hd => hd
  · rw [hallowance]
    exact fun _ => Nat.le_refl _
  · rw [hgranted]
    exact fun _ => Nat.le_refl _

theorem Turn.same {c c' : Channel} (hnumber : c'.number = c.number)
    (hfailure : c'.failure = c.failure) (hended : c'.endQueued = c.endQueued)
    (hreset : c'.resetHanded = c.resetHanded) (hdone : c'.done = c.done)
    (hallowance : c'.allowance = c.allowance) (hgranted : c'.granted = c.granted)
    (hsettled : Settled c → Settled c') : Turn c c' 0 [] :=
  ⟨.same hnumber hfailure hended hreset hdone hallowance hgranted, hsettled⟩

/-- A channel that has failed is given up, with the credit of its messages. -/
theorem Turn.of_failed {c : Channel} (h : c.failure.isSome = true) (got : Nat) : Turn c c got [] :=
  ⟨⟨rfl, id, id, id, id, fun hf => absurd (h.symm.trans hf) (by decide), fun _ => Nat.le_refl _,
    by simp⟩, id⟩

theorem Turn.trans {c c' c'' : Channel} {got got' : Nat} {fs gs : List Envelope}
    (h : Turn c c' got fs) (hkeeps : Keeps c c') (k : Turn c' c'' got' gs) :
    Turn c c'' (got + got') (fs ++ gs) :=
  ⟨h.toAccounts.trans hkeeps k.toAccounts, fun hs => k.settled (h.settled hs)⟩

namespace Channel

variable (c : Channel)

/-! ### Methods that give and take no credit -/

theorem markAccepted_turn : Turn c c.markAccepted 0 [] :=
  .same rfl rfl rfl rfl rfl rfl rfl fun hs => ⟨hs.chunks, hs.granted, hs.waits⟩

theorem updateStall_turn (unsentBytes : Nat) : Turn c (c.updateStall unsentBytes) 0 [] :=
  .same rfl rfl rfl rfl rfl rfl rfl fun hs => ⟨hs.chunks, hs.granted, hs.waits⟩

theorem onItemWritten_turn (unsentBytes : Nat) : Turn c (c.onItemWritten unsentBytes) 0 [] :=
  .same rfl rfl rfl rfl rfl rfl rfl fun hs => ⟨hs.chunks, hs.granted, hs.waits⟩

theorem onOpenHanded_turn : Turn c c.onOpenHanded.1 0 (frames c.onOpenHanded.2) := by
  have hquiet : frames c.onOpenHanded.2 = [] := by
    unfold onOpenHanded
    dsimp only
    split <;> rfl
  rw [hquiet]
  exact .same rfl rfl rfl rfl rfl rfl rfl fun hs => ⟨hs.chunks, hs.granted, hs.waits⟩

theorem checkDone_turn : Turn c c.checkDone.1 0 (frames c.checkDone.2) := by
  unfold checkDone
  split
  · exact .refl c
  · split
    · exact .refl c
    · exact ⟨⟨rfl, fun hf => hf, fun he => he, fun hr => hr, fun _ => rfl,
        fun _ => Nat.le_refl _, fun _ => Nat.le_refl _, by simp [frames]⟩,
        fun hs => ⟨hs.chunks, hs.granted, hs.waits⟩⟩

/-- The check for the channel's end, after a method that gave and took no credit. -/
theorem checkDone_after {c c' : Channel} {got : Nat} {fs : List Envelope} (h : Turn c c' got fs)
    (hkeeps : Keeps c c') : Turn c c'.checkDone.1 got (fs ++ frames c'.checkDone.2) :=
  h.trans hkeeps c'.checkDone_turn

theorem failed_settled (error : LinkChannelError) : Settled (c.failed error) :=
  ⟨by simp [failed], fun hf => by simp [failed] at hf, fun hf => by simp [failed] at hf⟩

/-- A failed channel gives no more credit; what it took does not matter. -/
theorem failed_turn (error : LinkChannelError) (got : Nat) : Turn c (c.failed error) got [] :=
  ⟨⟨rfl, fun _ => rfl, fun he => he, fun hr => hr, fun hd => hd,
    fun hf => by simp [failed] at hf, fun _ => Nat.le_refl _, by simp⟩,
    fun _ => c.failed_settled error⟩

theorem failedReset_turn (error : LinkChannelError) (reason : ResetReason) (got : Nat) :
    Turn c { c.failed error with resetQueued := true } got [encodeReset c.number reason] := by
  refine ⟨⟨rfl, fun _ => rfl, fun he => he, fun hr => hr, fun hd => hd,
    fun hf => by simp [failed] at hf, fun _ => Nat.le_add_right _ _, by simp [encodeReset]⟩,
    fun _ => ?_⟩
  have hs := c.failed_settled error
  exact ⟨hs.chunks, hs.granted, hs.waits⟩

/-- A channel fails, whatever the message brought. -/
theorem fail_turn (error : LinkChannelError) (send : Option ResetReason) (got : Nat) :
    Turn c (c.fail error send).1 got (frames (c.fail error send).2) := by
  unfold fail
  split
  · rename_i hf
    exact .of_failed hf got
  · have hfailed := checkDone_after (c.failed_turn error got) (c.failed_sheds error).keeps
    split
    · exact hfailed
    · rename_i reason
      split
      · exact hfailed
      · have hkeeps : Sheds c { c.failed error with resetQueued := true } :=
          ⟨rfl, rfl, rfl, rfl, Nat.zero_le _⟩
        exact checkDone_after (c.failedReset_turn error reason got) hkeeps.keeps

theorem invalid_turn (rule : String) (got : Nat) :
    Turn c (c.invalid rule).1 got (frames (c.invalid rule).2) := c.fail_turn _ _ got

theorem closeWith_turn (error : LinkChannelError) : Turn c (c.closeWith error).1 0 [] := by
  unfold closeWith
  have hdone : Turn c { c with resetQueued := true, done := true } 0 [] :=
    ⟨⟨rfl, fun hf => hf, fun he => he, fun hr => hr, fun _ => rfl, fun _ => Nat.le_refl _,
      fun _ => Nat.le_refl _, by simp⟩, fun hs => ⟨hs.chunks, hs.granted, hs.waits⟩⟩
  have hkeeps : Sheds c { c with resetQueued := true, done := true } :=
    ⟨rfl, rfl, rfl, rfl, Nat.le_refl _⟩
  have hfail := hdone.trans hkeeps.keeps
    (fail_turn { c with resetQueued := true, done := true } error none 0)
  have hquiet : frames (fail { c with resetQueued := true, done := true } error none).2 = [] := by
    unfold fail
    split
    · rfl
    · simp [checkDone, failed, failOutgoing, frames]
  rw [hquiet] at hfail
  exact hfail

theorem acceptTimeout_turn : Turn c c.acceptTimeout.1 0 (frames c.acceptTimeout.2) := by
  unfold acceptTimeout
  split
  · have hfired : Turn c { c with acceptTimer := false } 0 [] :=
      .same rfl rfl rfl rfl rfl rfl rfl fun hs => ⟨hs.chunks, hs.granted, hs.waits⟩
    have hkeeps : Sheds c { c with acceptTimer := false } := ⟨rfl, rfl, rfl, rfl, Nat.le_refl _⟩
    exact hfired.trans hkeeps.keeps (fail_turn _ _ _ 0)
  · exact .refl c

theorem stallTimeout_turn : Turn c c.stallTimeout.1 0 (frames c.stallTimeout.2) := by
  unfold stallTimeout
  split
  · have hfired : Turn c { c with stallTimer := false } 0 [] :=
      .same rfl rfl rfl rfl rfl rfl rfl fun hs => ⟨hs.chunks, hs.granted, hs.waits⟩
    have hkeeps : Sheds c { c with stallTimer := false } := ⟨rfl, rfl, rfl, rfl, Nat.le_refl _⟩
    exact hfired.trans hkeeps.keeps (fail_turn _ _ _ 0)
  · exact .refl c

theorem onResetHanded_turn : Turn c c.onResetHanded.1 0 (frames c.onResetHanded.2) := by
  unfold onResetHanded
  have hhanded : Turn c { c with resetHanded := true } 0 [] :=
    ⟨⟨rfl, fun hf => hf, fun he => he, fun _ => rfl, fun hd => hd, fun _ => Nat.le_refl _,
      fun _ => Nat.le_refl _, by simp⟩, fun hs => ⟨hs.chunks, hs.granted, hs.waits⟩⟩
  have hkeeps : Sheds c { c with resetHanded := true } := ⟨rfl, rfl, rfl, rfl, Nat.le_refl _⟩
  exact checkDone_after hhanded hkeeps.keeps

/-- What is handed over was queued before, so no room appears. -/
theorem onItemHanded_turn (item : QueueItem) (unsentBytes : Nat) :
    Turn c (c.onItemHanded item unsentBytes).1 0 (frames (c.onItemHanded item unsentBytes).2) := by
  unfold onItemHanded
  split
  · have hhanded : Turn c { c with endHanded := true } 0 [] :=
      .same rfl rfl rfl rfl rfl rfl rfl fun hs => ⟨hs.chunks, hs.granted, hs.waits⟩
    have hkeeps : Sheds c { c with endHanded := true } := ⟨rfl, rfl, rfl, rfl, Nat.le_refl _⟩
    exact checkDone_after hhanded hkeeps.keeps
  · refine .same rfl rfl rfl rfl rfl rfl rfl
      fun hs => ⟨hs.chunks, hs.granted, fun hf he hw => ?_⟩
    have hle := hs.waits hf he hw
    change c.allowance ≤ c.handed + item.payload + (c.queuedBytes - item.payload)
    omega

theorem onStop_turn : Turn c c.onStop.1 0 (frames c.onStop.2) := by
  have hdropped : frames c.dropQueuedData.2 = [] := by
    unfold dropQueuedData
    dsimp only
    split <;> rfl
  unfold onStop
  split
  · exact .refl c
  · split
    · exact c.invalid_turn _ 0
    · dsimp only
      split
      · -- the direction has ended, so who waits does not matter
        rename_i hend
        rw [hdropped]
        exact .same rfl rfl rfl rfl rfl rfl rfl fun hs =>
          ⟨hs.chunks, hs.granted, fun _ he => absurd (hend.symm.trans he) (by decide)⟩
      · have hqueued : frames ({ c.dropQueuedData.1 with stoppedByPeer := true }.queueEnd).2 =
            [] := by
          unfold queueEnd
          dsimp only
          split <;> rfl
        rw [frames_append, hdropped, hqueued]
        exact ⟨⟨rfl, fun hf => hf, fun _ => rfl, fun hr => hr, fun hd => hd,
          fun _ => Nat.le_refl _, fun _ => Nat.le_refl _, by simp⟩,
          fun hs => ⟨hs.chunks, hs.granted, fun _ he => by simp [failOutgoing, queueEnd] at he⟩⟩

theorem onReset_turn (reason : Option ResetReason) :
    Turn c (c.onReset reason).1 0 (frames (c.onReset reason).2) := by
  have hreceived : Turn c { c with resetReceived := true } 0 [] :=
    .same rfl rfl rfl rfl rfl rfl rfl fun hs => ⟨hs.chunks, hs.granted, hs.waits⟩
  have hkeeps : Sheds c { c with resetReceived := true } := ⟨rfl, rfl, rfl, rfl, Nat.le_refl _⟩
  unfold onReset
  dsimp only
  rw [frames_append]
  refine checkDone_after ?_ (hkeeps.trans (fail_sheds _ _ _)).keeps
  exact hreceived.trans hkeeps.keeps (fail_turn _ _ _ 0)

theorem cancel_turn : Turn c c.cancel.1 0 (frames c.cancel.2) := by
  unfold cancel
  split
  · unfold cancelReadable
    split
    · exact .same rfl rfl rfl rfl rfl rfl rfl fun hs => ⟨hs.chunks, hs.granted, hs.waits⟩
    · dsimp only
      split
      · rename_i hend
        exact .same rfl rfl rfl rfl rfl rfl rfl fun hs =>
          ⟨by simp, fun _ _ he => absurd (hend.symm.trans he) (by decide), hs.waits⟩
      · exact ⟨⟨rfl, fun hf => hf, fun he => he, fun hr => hr, fun hd => hd,
          fun _ => Nat.le_refl _, fun _ => Nat.le_add_right _ _, by simp [frames]⟩,
          fun hs => ⟨by simp, fun _ hstop => by simp at hstop, hs.waits⟩⟩
  · exact .refl c

/-! ### The writer -/

theorem write_turn (chunk : Bytes) : Turn c (c.write chunk) 0 [] := by
  unfold write
  split <;> exact .same rfl rfl rfl rfl rfl rfl rfl fun hs => ⟨hs.chunks, hs.granted, hs.waits⟩

theorem close_turn : Turn c c.close 0 [] := by
  unfold close
  split <;> exact .same rfl rfl rfl rfl rfl rfl rfl fun hs => ⟨hs.chunks, hs.granted, hs.waits⟩

theorem abortWritable_turn : Turn c c.abortWritable 0 [] := by
  unfold abortWritable
  split <;> exact .same rfl rfl rfl rfl rfl rfl rfl fun hs => ⟨hs.chunks, hs.granted, hs.waits⟩

/-- A channel that runs and has no credit has handed over or queued all it may. -/
theorem full_of_credit_eq_zero {c : Channel} (hf : c.failure.isSome = false)
    (he : c.endQueued = false) (hs : c.stoppedByPeer = false) (h : c.credit = 0) :
    c.allowance ≤ c.handed + c.queuedBytes := by
  unfold credit at h
  rw [hf, he, hs] at h
  simp only [Bool.or_self, Bool.false_eq_true, if_false] at h
  omega

theorem whenCredit_turn (unsentBytes : Nat) : Turn c (c.whenCredit unsentBytes) 0 [] := by
  unfold whenCredit
  split
  · exact .refl c
  · rename_i hnone
    simp only [Bool.or_eq_true, decide_eq_true_eq, not_or, Bool.not_eq_true] at hnone
    obtain ⟨⟨⟨hf, hs⟩, he⟩, hcredit⟩ := hnone
    have hfull := full_of_credit_eq_zero hf he hs (Nat.eq_zero_of_not_pos hcredit)
    exact .same rfl rfl rfl rfl rfl rfl rfl fun hs' =>
      ⟨hs'.chunks, hs'.granted, fun _ _ _ => hfull⟩

theorem take_turn (chunk : Bytes) : Turn c (c.take chunk).1 0 (frames (c.take chunk).2) := by
  have hquiet : frames (c.take chunk).2 = [] := by
    unfold take
    dsimp only
    split <;> rfl
  rw [hquiet]
  refine .same rfl rfl rfl rfl rfl rfl rfl
    fun hs => ⟨hs.chunks, hs.granted, fun hf he hw => ?_⟩
  exact (hs.waits hf he hw).trans (Nat.add_le_add_left (Nat.le_add_right _ _) _)

theorem writing_turn (writing : Option Bytes) : Turn c { c with writing := writing } 0 [] :=
  .same rfl rfl rfl rfl rfl rfl rfl fun hs => ⟨hs.chunks, hs.granted, hs.waits⟩

/-- A write waits only when its channel has no credit left. -/
theorem writeLoop_turn (unsentBytes : Nat) : ∀ (fuel : Nat) (c : Channel),
    Turn c (writeLoop fuel c unsentBytes).1 0 (frames (writeLoop fuel c unsentBytes).2)
  | 0, c => .refl c
  | fuel + 1, c => by
    unfold writeLoop
    split
    · exact .refl c
    · rename_i rest hrest
      split
      · exact c.writing_turn none
      · rename_i hmore
        split
        · exact c.writing_turn none
        · rename_i hruns
          simp only [Bool.or_eq_true, not_or, Bool.not_eq_true] at hruns
          dsimp only
          split
          · have hwriting : ∀ n, Sheds c { c with writing := some (rest.drop n) } :=
              fun n => ⟨rfl, rfl, rfl, rfl, Nat.le_refl _⟩
            have htaken : ∀ n, Sheds c ({ c with writing := some (rest.drop n) }.take
                (rest.take n)).1 := fun n => ⟨rfl, rfl, rfl, rfl, Nat.le_refl _⟩
            rw [frames_append]
            have hfirst := fun n => (c.writing_turn (some (rest.drop n))).trans (hwriting n).keeps
              (take_turn { c with writing := some (rest.drop n) } (rest.take n))
            exact (hfirst _).trans (htaken _).keeps (writeLoop_turn unsentBytes fuel _)
          · rename_i hnone
            have hcredit : c.credit = 0 := by
              have hpos : 0 < rest.length := by
                cases rest with
                | nil => simp at hmore
                | cons b rest => exact Nat.succ_pos _
              omega
            exact .same rfl rfl rfl rfl rfl rfl rfl fun hs => ⟨hs.chunks, hs.granted,
              fun _ he _ => full_of_credit_eq_zero hruns.1 he hruns.2 hcredit⟩

theorem resumeWrite_turn (unsentBytes : Nat) :
    Turn c (c.resumeWrite unsentBytes).1 0 (frames (c.resumeWrite unsentBytes).2) := by
  unfold resumeWrite
  split
  · exact .refl c
  · exact writeLoop_turn _ _ _

theorem closeSink_turn (unsentBytes : Nat) :
    Turn c (c.closeSink unsentBytes).1 0 (frames (c.closeSink unsentBytes).2) := by
  unfold closeSink
  split
  · exact .same rfl rfl rfl rfl rfl rfl rfl fun hs => ⟨hs.chunks, hs.granted, hs.waits⟩
  · split
    · exact .same rfl rfl rfl rfl rfl rfl rfl fun hs => ⟨hs.chunks, hs.granted, hs.waits⟩
    · have hqueued : frames c.queueEnd.2 = [] := by
        unfold queueEnd
        dsimp only
        split <;> rfl
      dsimp only
      rw [hqueued]
      exact ⟨⟨rfl, fun hf => hf, fun _ => rfl, fun hr => hr, fun hd => hd,
        fun _ => Nat.le_refl _, fun _ => Nat.le_refl _, by simp⟩,
        fun hs => ⟨hs.chunks, hs.granted, fun _ he => by simp [queueEnd, updateStall] at he⟩⟩

theorem sinkNext_turn (unsentBytes : Nat) :
    Turn c (c.sinkNext unsentBytes).1 0 (frames (c.sinkNext unsentBytes).2) := by
  unfold sinkNext
  split
  · exact .refl c
  · split
    · rename_i chunk rest hqueue
      have hnext : Turn c { c with writeQueue := rest, writing := some chunk } 0 [] :=
        .same rfl rfl rfl rfl rfl rfl rfl fun hs => ⟨hs.chunks, hs.granted, hs.waits⟩
      have hkeeps : Sheds c { c with writeQueue := rest, writing := some chunk } :=
        ⟨rfl, rfl, rfl, rfl, Nat.le_refl _⟩
      exact hnext.trans hkeeps.keeps (writeLoop_turn _ _ _)
    · split
      · exact c.closeSink_turn unsentBytes
      · exact .refl c

/-- Credit that arrives is added, or the channel fails over it. -/
theorem onCredit_turn (payload : Bytes) (unsentBytes : Nat) :
    Turn c (c.onCredit (parseCredit payload) unsentBytes).1 (getUint32 payload)
      (frames (c.onCredit (parseCredit payload) unsentBytes).2) := by
  unfold onCredit
  split
  · rename_i hf
    exact .of_failed hf _
  · split
    · exact c.invalid_turn _ _
    · rename_i amount hparsed
      have hamount : amount = getUint32 payload := by
        unfold parseCredit at hparsed
        split at hparsed <;> simp_all
      split
      · exact c.invalid_turn _ _
      · split
        · exact c.invalid_turn _ _
        · rw [← hamount]
          exact ⟨⟨rfl, fun hf => hf, fun he => he, fun hr => hr, fun hd => hd,
            fun _ => Nat.le_refl _, fun _ => Nat.le_refl _, by simp [frames]⟩,
            fun hs => ⟨hs.chunks, hs.granted, fun _ _ hw => by
              simp [wakeWriters, updateStall] at hw⟩⟩

/-! ### The reader -/

/-- The packing of `#store` makes no empty chunk, and takes nothing out. -/
theorem storeLoop_chunks : ∀ (fuel : Nat) (payload : Bytes) (inQueue : List Bytes) (inTail : Bytes),
    (∀ chunk ∈ inQueue, chunk ≠ []) →
    (∀ chunk ∈ (storeLoop fuel payload inQueue inTail).1, chunk ≠ []) ∧
      ((storeLoop fuel payload inQueue inTail).1 = [] →
        (storeLoop fuel payload inQueue inTail).2 = [] → inQueue = [] ∧ inTail = [])
  | 0, _, inQueue, inTail, h => ⟨h, fun hqueue htail => ⟨hqueue, htail⟩⟩
  | _ + 1, [], inQueue, inTail, h => ⟨h, fun hqueue htail => ⟨hqueue, htail⟩⟩
  | fuel + 1, b :: payload, inQueue, inTail, h => by
    rw [storeLoop]
    swap
    · simp
    generalize min (maxDataBytes - inTail.length) (b :: payload).length = room
    split
    · rename_i hfull
      have htail : inTail ++ (b :: payload).take room ≠ [] := by
        intro hnil
        rw [hnil] at hfull
        exact absurd hfull (by decide)
      have hqueue : ∀ chunk ∈ inQueue ++ [inTail ++ (b :: payload).take room], chunk ≠ [] :=
        List.forall_mem_append.mpr ⟨h, by simpa using htail⟩
      have ih := storeLoop_chunks fuel ((b :: payload).drop room) _ [] hqueue
      refine ⟨ih.1, fun hnone htail' => ?_⟩
      exact absurd (ih.2 hnone htail').1 (by simp)
    · have ih := storeLoop_chunks fuel ((b :: payload).drop room) inQueue
        (inTail ++ (b :: payload).take room) h
      refine ⟨ih.1, fun hnone htail' => ?_⟩
      obtain ⟨hq, ht⟩ := ih.2 hnone htail'
      exact ⟨hq, (List.append_eq_nil_iff.mp ht).1⟩

theorem store_turn {payload : Bytes} (hpayload : payload ≠ []) : Turn c (c.store payload) 0 [] := by
  unfold store
  split
  · refine .same rfl rfl rfl rfl rfl rfl rfl fun hs => ⟨?_, fun _ _ _ hqueue => ?_, hs.waits⟩
    · exact List.forall_mem_append.mpr ⟨hs.chunks, by simpa using hpayload⟩
    · simp at hqueue
  · refine .same rfl rfl rfl rfl rfl rfl rfl fun hs => ?_
    obtain ⟨hchunks, hnone⟩ := storeLoop_chunks payload.length payload c.inQueue c.inTail hs.chunks
    refine ⟨hchunks, fun hf hstop hend hqueue htail => ?_, hs.waits⟩
    obtain ⟨hq, ht⟩ := hnone hqueue htail
    exact hs.granted hf hstop hend hq ht

/-- Only what the channel holds changes when its next chunk is taken. -/
theorem nextChunk_same {chunk : Bytes} {rest : Channel} (h : c.nextChunk = some (chunk, rest)) :
    ∃ inQueue inTail, rest = { c with inQueue := inQueue, inTail := inTail } ∧
      ∀ x ∈ inQueue, x ∈ c.inQueue := by
  unfold nextChunk at h
  split at h
  · rename_i queue hqueue
    cases h
    refine ⟨_, _, rfl, ?_⟩
    rw [hqueue]
    exact fun x hx => List.mem_cons_of_mem _ hx
  · split at h
    · cases h
    · cases h
      exact ⟨_, _, rfl, fun x hx => hx⟩

theorem deliverOne_accounts : Accounts c c.deliverOne.1 0 [] := by
  unfold deliverOne
  split
  · exact .refl c
  · split
    · rename_i chunk rest hnext
      obtain ⟨inQueue, inTail, rfl, -⟩ := c.nextChunk_same hnext
      exact .same rfl rfl rfl rfl rfl rfl rfl
    · split
      · exact .same rfl rfl rfl rfl rfl rfl rfl
      · exact .refl c

theorem deliverOne_reading (h : Reading c) : Reading c.deliverOne.1 := by
  unfold deliverOne
  split
  · exact h
  · split
    · rename_i chunk rest hnext
      obtain ⟨inQueue, inTail, rfl, hsub⟩ := c.nextChunk_same hnext
      exact ⟨fun x hx => h.chunks x (hsub x hx), h.waits⟩
    · split
      · exact ⟨h.chunks, h.waits⟩
      · exact h

/-- A turn of the delivery that hands nothing on leaves what was granted and read. -/
theorem deliverOne_settled (h : Settled c) (hnone : c.deliverOne.2 = false) :
    Settled c.deliverOne.1 := by
  revert hnone
  unfold deliverOne
  split
  · exact fun _ => h
  · split
    · exact fun hnone => by cases hnone
    · split
      · exact fun _ => ⟨h.chunks, h.granted, h.waits⟩
      · exact fun _ => h

/-- What is granted is what was read and not granted before: a `CREDIT` can carry it. -/
theorem grant_accounts : Accounts c c.grant.1 0 (frames c.grant.2) := by
  unfold grant
  dsimp only
  split
  · exact .refl c
  · split
    · exact .refl c
    · refine ⟨rfl, fun hf => hf, fun he => he, fun hr => hr, fun hd => hd, fun _ => Nat.le_refl _,
        fun hw => ?_, by simp [frames, encodeCredit]⟩
      have hunread : c.readTotal - c.granted < 2 ^ 32 := by
        have hheld := hw.held
        have hwindow := hw.window
        simp only [channelWindow, KIB] at hwindow
        omega
      have hcredit := getUint32_setUint32 (c.readTotal - c.granted) hunread []
      rw [List.append_nil] at hcredit
      change c.granted + (c.readTotal - c.granted) ≤
        c.granted + credits [encodeCredit c.number (c.readTotal - c.granted)]
      simp [credits, encodeCredit, hcredit]

/-- Once it has granted, an empty receiver has granted everything that was read. -/
theorem grant_settled (h : Reading c) : Settled c.grant.1 := by
  unfold grant
  dsimp only
  split
  · rename_i hnothing
    refine ⟨h.chunks, fun _ _ hend _ _ => ?_, h.waits⟩
    rcases Bool.or_eq_true_iff.mp hnothing with hzero | hin
    · exact Nat.le_of_sub_eq_zero (of_decide_eq_true hzero)
    · exact absurd (hin.symm.trans hend) (by decide)
  · split
    · rename_i hmore
      refine ⟨h.chunks, fun _ _ _ hqueue htail => ?_, h.waits⟩
      have hq : c.inQueue = [] := hqueue
      have ht : c.inTail = [] := htail
      simp [hq, ht] at hmore
    · refine ⟨h.chunks, fun _ _ _ _ _ => ?_, h.waits⟩
      change c.readTotal ≤ c.granted + (c.readTotal - c.granted)
      omega

theorem deliver_accounts : ∀ (again : Nat) (c : Channel),
    Accounts c (deliver again c).1 0 (frames (deliver again c).2)
  | 0, c => by
    unfold deliver
    dsimp only
    split
    · exact c.deliverOne_accounts.trans c.deliverOne_keeps (grant_accounts _)
    · exact c.deliverOne_accounts
  | again + 1, c => by
    unfold deliver
    dsimp only
    split
    · have hwant : Accounts c.deliverOne.1 { c.deliverOne.1 with wantRead := true } 0 [] :=
        .same rfl rfl rfl rfl rfl rfl rfl
      have hkeeps : Sheds c.deliverOne.1 { c.deliverOne.1 with wantRead := true } :=
        ⟨rfl, rfl, rfl, rfl, Nat.le_refl _⟩
      have hstart := c.deliverOne_keeps.trans hkeeps.keeps
      have hinner := (c.deliverOne_accounts.trans c.deliverOne_keeps hwant).trans hstart
        (deliver_accounts again _)
      rw [frames_append]
      exact hinner.trans (hstart.trans (deliver_keeps again _)) (grant_accounts _)
    · exact c.deliverOne_accounts

theorem deliver_reading : ∀ (again : Nat) (c : Channel), Reading c → Reading (deliver again c).1
  | 0, c, h => by
    unfold deliver
    dsimp only
    split
    · exact (grant_settled _ (c.deliverOne_reading h)).reading
    · exact c.deliverOne_reading h
  | again + 1, c, h => by
    unfold deliver
    dsimp only
    split
    · have hone := c.deliverOne_reading h
      have hwant : Reading { c.deliverOne.1 with wantRead := true } := ⟨hone.chunks, hone.waits⟩
      exact (grant_settled _ (deliver_reading again _ hwant)).reading
    · exact c.deliverOne_reading h

/-- Every delivery ends with the grant for what it handed on. -/
theorem deliver_turn (again : Nat) :
    Turn c (deliver again c).1 0 (frames (deliver again c).2) := by
  refine ⟨deliver_accounts again c, fun hs => ?_⟩
  have hone := c.deliverOne_reading hs.reading
  cases again with
  | zero =>
    unfold deliver
    dsimp only
    split
    · exact grant_settled _ hone
    · rename_i hnone
      exact c.deliverOne_settled hs (by simpa using hnone)
  | succ again =>
    unfold deliver
    dsimp only
    split
    · have hwant : Reading { c.deliverOne.1 with wantRead := true } := ⟨hone.chunks, hone.waits⟩
      exact grant_settled _ (deliver_reading again _ hwant)
    · rename_i hnone
      exact c.deliverOne_settled hs (by simpa using hnone)

theorem pull_turn (again : Nat) : Turn c (c.pull again).1 0 (frames (c.pull again).2) := by
  unfold pull
  split
  · have hwant : Turn c { c with wantRead := true } 0 [] :=
      .same rfl rfl rfl rfl rfl rfl rfl fun hs => ⟨hs.chunks, hs.granted, hs.waits⟩
    have hkeeps : Sheds c { c with wantRead := true } := ⟨rfl, rfl, rfl, rfl, Nat.le_refl _⟩
    exact hwant.trans hkeeps.keeps (deliver_turn _ again)
  · exact .refl c

theorem onData_turn (payload : Bytes) (again : Nat) :
    Turn c (c.onData payload again).1 0 (frames (c.onData payload again).2) := by
  unfold onData
  split
  · exact .refl c
  · split
    · exact c.invalid_turn _ 0
    · split
      · exact .refl c
      · split
        · exact c.invalid_turn _ 0
        · split
          · exact c.invalid_turn _ 0
          · rename_i hroom
            split
            · exact .refl c
            · rename_i hpayload
              have hreceived : Turn c { c with received := c.received + payload.length } 0 [] :=
                .same rfl rfl rfl rfl rfl rfl rfl fun hs => ⟨hs.chunks, hs.granted, hs.waits⟩
              have hkeeps : Keeps c { c with received := c.received + payload.length } := by
                refine ⟨rfl, fun hw => ⟨hw.granted, Nat.le_of_not_lt hroom, ?_⟩⟩
                exact hw.held.trans (Nat.le_add_right _ _)
              have hstored := hreceived.trans hkeeps (store_turn _ (by simpa using hpayload))
              exact hstored.trans (c.stored_keeps hroom) (deliver_turn _ again)

theorem onEnd_turn (again : Nat) : Turn c (c.onEnd again).1 0 (frames (c.onEnd again).2) := by
  have hended : Turn c { c with inEnded := true } 0 [] :=
    .same rfl rfl rfl rfl rfl rfl rfl fun hs =>
      ⟨hs.chunks, fun _ _ hend => by simp at hend, hs.waits⟩
  have hkeeps : Sheds c { c with inEnded := true } := ⟨rfl, rfl, rfl, rfl, Nat.le_refl _⟩
  unfold onEnd
  split
  · exact checkDone_after hended hkeeps.keeps
  · split
    · exact c.invalid_turn _ 0
    · dsimp only
      rw [frames_append]
      refine checkDone_after ?_ (hkeeps.keeps.trans (deliver_keeps again _))
      exact hended.trans hkeeps.keeps (deliver_turn _ again)

/-- A message of the peer, with the credit it brings. -/
theorem receive_turn (e : Envelope) (again unsentBytes : Nat) :
    Turn c (c.receive e again unsentBytes).1 (credits [e])
      (frames (c.receive e again unsentBytes).2) := by
  unfold receive
  cases htype : e.type with
  | OPEN => simpa [credits, htype, frames] using Turn.refl c
  | DATA => simpa [credits, htype] using c.onData_turn e.payload again
  | END => simpa [credits, htype] using c.onEnd_turn again
  | STOP => simpa [credits, htype] using c.onStop_turn
  | CREDIT => simpa [credits, htype] using c.onCredit_turn e.payload unsentBytes
  | RESET => simpa [credits, htype] using c.onReset_turn (parseResetReason e.payload)

theorem receive_keeps (e : Envelope) (again unsentBytes : Nat) :
    Keeps c (c.receive e again unsentBytes).1 := by
  unfold receive
  cases e.type with
  | OPEN => exact .refl c
  | DATA => exact c.onData_keeps e.payload again
  | END => exact c.onEnd_keeps again
  | STOP => exact c.onStop_sheds.keeps
  | CREDIT => exact (c.onCredit_sheds _ _).keeps
  | RESET => exact (c.onReset_sheds _).keeps

theorem new_settled (number : Nat) (id : String) (ownedByUs : Bool) :
    Settled (new number id ownedByUs) :=
  ⟨by simp [new], fun _ _ _ _ _ => Nat.le_refl _, fun _ _ hw => by simp [new] at hw⟩

end Channel

end Simlock.Link
