import Simlock.Link.End

/-! One direction of a channel, seen across both ends.

    What the sender of a direction does is a change of `Snd`, what its receiver does a change of
    `Rcv`; `W` is what the sender has handed to the transport and the receiver has not got, and
    `back` what the receiver has queued or sent the other way. `Half` ties the four together:

        Snd ──── W ────▶ Rcv          handed, queued ≤ allowance ≤ window + granted
         ◀──── back ──────            granted ≤ read ≤ received ≤ handed

    A step of either end is first shown to be one of a few changes of its half (`SndLocal`,
    `RcvLocal`, a hand-over or a receipt); that the direction stays sound is then proved once for
    each change and not once for each method of the source. -/

namespace Simlock.Link

/-- The part of a channel that its sending direction rests on. -/
structure Snd where
  queue : List QueueItem
  queuedBytes : Nat
  allowance : Nat
  handed : Nat
  endQueued : Bool
  endHanded : Bool
  stopped : Bool
  failed : Bool
  writable : WritableState
  pending : Bytes
  written : Bytes
  resetHanded : Bool

/-- The part of a channel that its receiving direction rests on. -/
structure Rcv where
  received : Nat
  granted : Nat
  readTotal : Nat
  held : Bytes
  inEnded : Bool
  stopSent : Bool
  failed : Bool
  readable : ReadableState
  given : Bytes
  resetReceived : Bool

def Channel.snd (c : Channel) : Snd where
  queue := c.queue
  queuedBytes := c.queuedBytes
  allowance := c.allowance
  handed := c.handed
  endQueued := c.endQueued
  endHanded := c.endHanded
  stopped := c.stoppedByPeer
  failed := c.failure.isSome
  writable := c.writable
  pending := c.writing.getD [] ++ c.writeQueue.flatten
  written := c.written
  resetHanded := c.resetHanded

def Channel.rcv (c : Channel) : Rcv where
  received := c.received
  granted := c.granted
  readTotal := c.readTotal
  held := c.inQueue.flatten ++ c.inTail
  inEnded := c.inEnded
  stopSent := c.stopSent
  failed := c.failure.isSome
  readable := c.readable
  given := c.given.flatten
  resetReceived := c.resetReceived

def Snd.ours (S : Snd) : Bool := S.resetHanded || S.endHanded

def Rcv.theirs (R : Rcv) : Bool := R.resetReceived || R.inEnded

/-! ### Frames -/

def Envelope.isBulk (e : Envelope) : Bool := e.type = .DATA || e.type = .END

/-- The message that ends its sender's direction for good. -/
def Envelope.isFinal (e : Envelope) : Bool := e.type = .END || e.type = .RESET

/-- A message a conforming end may send. -/
def Envelope.Ok (e : Envelope) : Prop :=
  match e.type with
  | .DATA => 0 < e.payload.length ∧ e.payload.length ≤ maxDataBytes
  | .CREDIT => ∃ a, 1 ≤ a ∧ a < 2 ^ 32 ∧ e.payload = setUint32 a
  | .RESET => ∃ r, r ≠ ResetReason.invalid ∧ e.payload = [r.code]
  | _ => True

def dataBytes : List Envelope → Bytes
  | [] => []
  | e :: es => (if e.type = .DATA then e.payload else []) ++ dataBytes es

def credits : List Envelope → Nat
  | [] => 0
  | e :: es => (if e.type = .CREDIT then getUint32 e.payload else 0) + credits es

def stops (fs : List Envelope) : Nat := fs.countP (fun e => e.type = .STOP)

def queueBytes (queue : List QueueItem) : Bytes := dataBytes (queue.map QueueItem.envelope)

@[simp] theorem dataBytes_append (es fs : List Envelope) :
    dataBytes (es ++ fs) = dataBytes es ++ dataBytes fs := by
  induction es with
  | nil => rfl
  | cons e es ih => simp [dataBytes, ih]

@[simp] theorem credits_append (es fs : List Envelope) :
    credits (es ++ fs) = credits es + credits fs := by
  induction es with
  | nil => simp [credits]
  | cons e es ih => simp [credits, ih, Nat.add_assoc]

@[simp] theorem stops_append (es fs : List Envelope) : stops (es ++ fs) = stops es + stops fs := by
  simp [stops]

@[simp] theorem queueBytes_append (p q : List QueueItem) :
    queueBytes (p ++ q) = queueBytes p ++ queueBytes q := by
  simp [queueBytes]

theorem dataBytes_eq_nil {es : List Envelope} (h : ∀ e ∈ es, e.isBulk = false) :
    dataBytes es = [] := by
  induction es with
  | nil => rfl
  | cons e es ih =>
    have he := h e List.mem_cons_self
    simp only [Envelope.isBulk, Bool.or_eq_false_iff, decide_eq_false_iff_not] at he
    simp [dataBytes, he.1, ih (fun f hf => h f (List.mem_cons_of_mem _ hf))]

/-! ### The halves by themselves -/

/-- A queue item as `#take` and `#queueEnd` make them. -/
def QueueItem.Ok (i : QueueItem) : Prop :=
  (i.isEnd = false ∧ i.envelope.type = .DATA ∧ i.payload = i.envelope.payload.length ∧
    i.envelope.Ok) ∨ (i.isEnd = true ∧ i.envelope.type = .END ∧ i.payload = 0)

structure SndOk (S : Snd) : Prop where
  items : ∀ i ∈ S.queue, i.Ok
  endLast : S.queue.Pairwise (fun i _ => i.isEnd = false)
  endItem : ∀ i ∈ S.queue, i.isEnd = true → S.endQueued = true
  endGone : S.endHanded = true → S.queue = [] ∧ S.endQueued = true
  sum : S.queuedBytes = (S.queue.map QueueItem.payload).sum
  window : S.handed + S.queuedBytes ≤ S.allowance
  failed : S.failed = true → S.queue = []
  stopped : S.stopped = true → S.endQueued = true
  closed : S.endQueued = true → S.stopped = false → S.writable = .closed
  drained : S.writable = .closed → S.pending = []

structure RcvOk (R : Rcv) : Prop where
  granted : R.granted ≤ R.readTotal
  read : R.readTotal + R.held.length ≤ R.received
  window : R.received ≤ channelWindow + R.granted
  readable : R.readable = .readable → R.failed = false ∧ R.stopSent = false
  reset : R.resetReceived = true → R.failed = true
  stop : R.stopSent = true → R.readable = .cancelled

/-- What a writer still has to pass on, and that nothing else is missing from the direction. -/
def Snd.Owes (S : Snd) (rest : Bytes) : Prop :=
  S.stopped = false → S.failed = false ∨ S.endHanded = true →
    ∃ tail, rest = S.pending ++ tail ∧ (S.writable ≠ .errored → tail = [])

/-! ### The two halves together -/

structure Half (S : Snd) (R : Rcv) (W back : List Envelope) : Prop where
  snd : SndOk S
  rcv : RcvOk R
  sent : ∀ e ∈ W, e.Ok
  backOk : ∀ e ∈ back, e.Ok
  received : R.received + (dataBytes W).length ≤ S.handed
  credit : S.allowance + credits back ≤ channelWindow + R.granted
  endLast : W.Pairwise (fun e f => e.type = .END → f.isBulk = false)
  endSent : (∃ e ∈ W, e.type = .END) ∨ R.inEnded = true → S.endHanded = true
  ended : R.inEnded = true → ∀ e ∈ W, e.isBulk = false
  stop : stops back ≤ if R.stopSent then 1 else 0
  stopped : S.stopped = true → R.stopSent = true ∧ stops back = 0
  final : S.ours = true → (∃ e ∈ W, e.isFinal = true) ∨ R.theirs = true
  resetSent : (∃ e ∈ W, e.type = .RESET) ∨ R.resetReceived = true → S.resetHanded = true
  bytes : R.readable = .readable → ∃ rest,
    R.given ++ R.held ++ dataBytes W ++ queueBytes S.queue ++ rest = S.written ∧ S.Owes rest
  given : R.given <+: S.written
  closed : R.readable = .closed → R.given = S.written ∧ S.writable = .closed

/-! ### Changes an end makes by itself -/

/-- The sender takes, queues or drops, and hands nothing over. -/
structure SndLocal (S S' : Snd) : Prop where
  ok : SndOk S → SndOk S'
  handed : S'.handed = S.handed
  allowance : S'.allowance = S.allowance
  endHanded : S'.endHanded = S.endHanded
  resetHanded : S'.resetHanded = S.resetHanded
  stopped : S'.stopped = S.stopped
  closed : S.writable = .closed → S'.writable = .closed ∧ S'.written = S.written
  bytes : ∃ ext, S'.written = S.written ++ ext ∧
    ∀ rest, SndOk S → S.Owes rest →
      ∃ rest', queueBytes S'.queue ++ rest' = queueBytes S.queue ++ rest ++ ext ∧ S'.Owes rest'

/-- The receiver reads, grants, stops or fails, and queues `fs` for the sender. -/
structure RcvLocal (R R' : Rcv) (fs : List Envelope) : Prop where
  ok : RcvOk R → RcvOk R'
  received : R'.received = R.received
  inEnded : R'.inEnded = R.inEnded
  resetReceived : R'.resetReceived = R.resetReceived
  granted : RcvOk R → R'.granted = R.granted + credits fs
  frames : RcvOk R → ∀ e ∈ fs, e.Ok
  stop : (R'.stopSent = R.stopSent ∧ stops fs = 0) ∨
    (R.stopSent = false ∧ R'.stopSent = true ∧ stops fs = 1)
  bytes : R'.readable = .readable →
    R.readable = .readable ∧ R'.given ++ R'.held = R.given ++ R.held
  given : R'.given = R.given ∨ (R.readable = .readable ∧ R'.given <+: R.given ++ R.held)
  closed : R'.readable = .closed → (R.readable = .closed ∧ R'.given = R.given) ∨
    (R.readable = .readable ∧ R.inEnded = true ∧ R.stopSent = false ∧
      R'.given = R.given ++ R.held)

theorem SndLocal.refl (S : Snd) : SndLocal S S :=
  ⟨id, rfl, rfl, rfl, rfl, rfl, fun h => ⟨h, rfl⟩, [], by simp, fun rest _ h => ⟨rest, by simp, h⟩⟩

theorem SndLocal.trans {S S' S'' : Snd} (h : SndLocal S S') (k : SndLocal S' S'') :
    SndLocal S S'' := by
  obtain ⟨ext, hw, hb⟩ := h.bytes
  obtain ⟨ext', kw, kb⟩ := k.bytes
  refine ⟨fun ok => k.ok (h.ok ok), k.handed.trans h.handed, k.allowance.trans h.allowance,
    k.endHanded.trans h.endHanded, k.resetHanded.trans h.resetHanded, k.stopped.trans h.stopped,
    ?_, ext ++ ext', by rw [kw, hw, List.append_assoc], ?_⟩
  · intro hc
    obtain ⟨hc', hw'⟩ := h.closed hc
    exact ⟨(k.closed hc').1, (k.closed hc').2.trans hw'⟩
  · intro rest ok owes
    obtain ⟨rest', hq, owes'⟩ := hb rest ok owes
    obtain ⟨rest'', kq, owes''⟩ := kb rest' (h.ok ok) owes'
    exact ⟨rest'', by rw [kq, hq]; simp only [List.append_assoc], owes''⟩

theorem RcvLocal.refl (R : Rcv) : RcvLocal R R [] :=
  ⟨id, rfl, rfl, rfl, fun _ => rfl, by simp, .inl ⟨rfl, rfl⟩, fun h => ⟨h, rfl⟩, .inl rfl,
    fun h => .inl ⟨h, rfl⟩⟩

theorem RcvLocal.trans {R R' R'' : Rcv} {fs gs : List Envelope} (h : RcvLocal R R' fs)
    (k : RcvLocal R' R'' gs) : RcvLocal R R'' (fs ++ gs) := by
  refine ⟨fun ok => k.ok (h.ok ok), k.received.trans h.received, k.inEnded.trans h.inEnded,
    k.resetReceived.trans h.resetReceived, ?_, ?_, ?_, ?_, ?_, ?_⟩
  · intro ok
    rw [k.granted (h.ok ok), h.granted ok, credits_append, Nat.add_assoc]
  · intro ok e he
    rcases List.mem_append.mp he with he | he
    · exact h.frames ok e he
    · exact k.frames (h.ok ok) e he
  · rw [stops_append]
    rcases h.stop with ⟨h1, h2⟩ | ⟨h1, h2, h3⟩ <;> rcases k.stop with ⟨k1, k2⟩ | ⟨k1, k2, k3⟩
    · exact .inl ⟨k1.trans h1, by omega⟩
    · exact .inr ⟨h1 ▸ k1, k2, by omega⟩
    · exact .inr ⟨h1, k1.trans h2, by omega⟩
    · rw [h2] at k1; cases k1
  · intro hr
    obtain ⟨hr', hb'⟩ := k.bytes hr
    obtain ⟨hr0, hb0⟩ := h.bytes hr'
    exact ⟨hr0, hb'.trans hb0⟩
  · rcases k.given with k1 | ⟨k1, k2⟩
    · rcases h.given with h1 | ⟨h1, h2⟩
      · exact .inl (k1.trans h1)
      · exact .inr ⟨h1, k1 ▸ h2⟩
    · obtain ⟨h1, h2⟩ := h.bytes k1
      exact .inr ⟨h1, h2 ▸ k2⟩
  · intro hc
    rcases k.closed hc with ⟨k1, k2⟩ | ⟨k1, k2, k3, k4⟩
    · rcases h.closed k1 with ⟨h1, h2⟩ | ⟨h1, h2, h3, h4⟩
      · exact .inl ⟨h1, k2.trans h2⟩
      · exact .inr ⟨h1, h2, h3, k2.trans h4⟩
    · obtain ⟨h1, h2⟩ := h.bytes k1
      refine .inr ⟨h1, h.inEnded ▸ k2, ?_, k4.trans h2⟩
      rcases h.stop with ⟨h3, -⟩ | ⟨h3, -, -⟩
      · exact h3 ▸ k3
      · exact h3

section
variable {S S' : Snd} {R R' : Rcv} {W back fs : List Envelope} {e : Envelope}

theorem Half.sndLocal (h : Half S R W back) (l : SndLocal S S') : Half S' R W back := by
  obtain ⟨ext, hw, hb⟩ := l.bytes
  refine ⟨l.ok h.snd, h.rcv, h.sent, h.backOk, ?_, ?_, h.endLast, ?_, h.ended, h.stop, ?_, ?_, ?_,
    ?_, ?_, ?_⟩
  · rw [l.handed]; exact h.received
  · rw [l.allowance]; exact h.credit
  · rw [l.endHanded]; exact h.endSent
  · rw [l.stopped]; exact h.stopped
  · rw [Snd.ours, l.endHanded, l.resetHanded]; exact h.final
  · rw [l.resetHanded]; exact h.resetSent
  · intro hr
    obtain ⟨rest, hrest, owes⟩ := h.bytes hr
    obtain ⟨rest', hq, owes'⟩ := hb rest h.snd owes
    refine ⟨rest', ?_, owes'⟩
    rw [List.append_assoc, hq, hw, ← hrest]
    simp only [List.append_assoc]
  · rw [hw]; exact h.given.trans (List.prefix_append _ _)
  · intro hc
    obtain ⟨hg, hwr⟩ := h.closed hc
    exact ⟨hg.trans (l.closed hwr).2.symm, (l.closed hwr).1⟩

/-- The normal close of the reader: everything the writer wrote has been given. -/
theorem Half.given_all (h : Half S R W back) (hr : R.readable = .readable)
    (hend : R.inEnded = true) (hstop : R.stopSent = false) :
    R.given ++ R.held = S.written ∧ S.writable = .closed := by
  have hhanded := h.endSent (.inr hend)
  obtain ⟨hq, hendq⟩ := h.snd.endGone hhanded
  have hnot : S.stopped = false := by
    cases hs : S.stopped with
    | false => rfl
    | true => rw [(h.stopped hs).1] at hstop; cases hstop
  have hwr := h.snd.closed hendq hnot
  obtain ⟨rest, hrest, owes⟩ := h.bytes hr
  obtain ⟨tail, htail, hnil⟩ := owes hnot (.inr hhanded)
  rw [hnil (by rw [hwr]; decide), h.snd.drained hwr] at htail
  rw [dataBytes_eq_nil (h.ended hend), hq, htail] at hrest
  exact ⟨by simpa [queueBytes, dataBytes] using hrest, hwr⟩

theorem Half.rcvLocal (h : Half S R W back) (l : RcvLocal R R' fs) :
    Half S R' W (back ++ fs) := by
  refine ⟨h.snd, l.ok h.rcv, h.sent, ?_, ?_, ?_, h.endLast, ?_, ?_, ?_, ?_, ?_, ?_, ?_, ?_, ?_⟩
  · intro e he
    rcases List.mem_append.mp he with he | he
    · exact h.backOk e he
    · exact l.frames h.rcv e he
  · rw [l.received]; exact h.received
  · have := h.credit
    rw [credits_append, l.granted h.rcv]; omega
  · rw [l.inEnded]; exact h.endSent
  · rw [l.inEnded]; exact h.ended
  · have hs := h.stop
    rw [stops_append]
    rcases l.stop with ⟨h1, h2⟩ | ⟨h1, h2, h3⟩
    · rw [h1, h2]; exact hs
    · rw [h1] at hs
      rw [h2, h3]
      simp at hs ⊢
      omega
  · intro hs
    obtain ⟨h1, h2⟩ := h.stopped hs
    rcases l.stop with ⟨h3, h4⟩ | ⟨h3, -, -⟩
    · exact ⟨h3.trans h1, by rw [stops_append]; omega⟩
    · rw [h1] at h3; cases h3
  · rw [Rcv.theirs, l.inEnded, l.resetReceived]; exact h.final
  · rw [l.resetReceived]; exact h.resetSent
  · intro hr
    obtain ⟨h1, h2⟩ := l.bytes hr
    rw [h2]
    exact h.bytes h1
  · rcases l.given with h1 | ⟨h1, h2⟩
    · rw [h1]; exact h.given
    · obtain ⟨rest, hrest, -⟩ := h.bytes h1
      rw [← hrest]
      simp only [List.append_assoc] at h2 ⊢
      exact h2.trans (by rw [← List.append_assoc]; exact List.prefix_append _ _)
  · intro hc
    rcases l.closed hc with ⟨h1, h2⟩ | ⟨h1, h2, h3, h4⟩
    · rw [h2]; exact h.closed h1
    · rw [h4]; exact h.given_all h1 h2 h3

/-! ### Handing over to the transport -/

theorem Half.endHanded_of_queue (h : Half S R W back) (hq : S.queue ≠ []) :
    S.endHanded = false := by
  cases he : S.endHanded with
  | false => rfl
  | true => exact absurd (h.snd.endGone he).1 hq

theorem Half.noEnd (h : Half S R W back) (hnot : S.endHanded = false) :
    (∀ f ∈ W, f.type ≠ .END) ∧ R.inEnded = false := by
  refine ⟨?_, ?_⟩
  · intro f hf hft
    have := h.endSent (.inl ⟨f, hf, hft⟩)
    rw [hnot] at this; cases this
  · cases hend : R.inEnded with
    | false => rfl
    | true =>
      have := h.endSent (.inr hend)
      rw [hnot] at this; cases this

theorem Half.handData (h : Half S R W back) {i : QueueItem} {q : List QueueItem}
    (hq : S.queue = i :: q) (hi : i.isEnd = false) :
    Half { S with
        queue := q
        queuedBytes := S.queuedBytes - i.payload
        handed := S.handed + i.payload } R (W ++ [i.envelope]) back := by
  have hitems := h.snd.items
  rw [hq, List.forall_mem_cons] at hitems
  obtain ⟨-, htype, hlen, hiok⟩ | ⟨hend, -, -⟩ := hitems.1
  swap
  · rw [hi] at hend; cases hend
  have hsum := h.snd.sum
  rw [hq, List.map_cons, List.sum_cons] at hsum
  have hwin := h.snd.window
  have hnot := h.endHanded_of_queue (by rw [hq]; simp)
  obtain ⟨hnoEnd, hinEnd⟩ := h.noEnd hnot
  have hlast := h.snd.endLast
  rw [hq] at hlast
  have hqend := h.snd.endItem
  rw [hq, List.forall_mem_cons] at hqend
  have hnf : S.failed = false := by
    cases hf : S.failed with
    | false => rfl
    | true => have := h.snd.failed hf; rw [hq] at this; cases this
  have hsnd : SndOk { S with
      queue := q
      queuedBytes := S.queuedBytes - i.payload
      handed := S.handed + i.payload } := by
    refine ⟨hitems.2, hlast.of_cons, hqend.2, fun he => absurd (hnot.symm.trans he) (by decide), ?_,
      ?_, fun hf => absurd (hnf.symm.trans hf) (by decide), h.snd.stopped, h.snd.closed, h.snd.drained⟩
    · dsimp only; omega
    · dsimp only; omega
  refine ⟨hsnd, h.rcv, ?_, h.backOk, ?_, h.credit, ?_, ?_, ?_, h.stop, h.stopped, ?_, ?_, ?_,
    h.given, h.closed⟩
  · exact List.forall_mem_append.mpr ⟨h.sent, by simpa using hiok⟩
  · have := h.received
    simp only [dataBytes_append, List.length_append, dataBytes, htype, if_true, List.append_nil]
    omega
  · exact List.pairwise_append.mpr ⟨h.endLast, List.pairwise_singleton _ _,
      fun f hf _ _ hft => absurd hft (hnoEnd f hf)⟩
  · rintro (⟨f, hf, hft⟩ | hend)
    · rcases List.mem_append.mp hf with hf | hf
      · exact absurd hft (hnoEnd f hf)
      · rw [List.mem_singleton.mp hf, htype] at hft; cases hft
    · rw [hinEnd] at hend; cases hend
  · intro hend
    rw [hinEnd] at hend; cases hend
  · intro hours
    rcases h.final hours with ⟨f, hf, hff⟩ | ht
    · exact .inl ⟨f, List.mem_append_left _ hf, hff⟩
    · exact .inr ht
  · rintro (⟨f, hf, hft⟩ | hr)
    · rcases List.mem_append.mp hf with hf | hf
      · exact h.resetSent (.inl ⟨f, hf, hft⟩)
      · rw [List.mem_singleton.mp hf, htype] at hft; cases hft
    · exact h.resetSent (.inr hr)
  · intro hr
    obtain ⟨rest, hrest, owes⟩ := h.bytes hr
    refine ⟨rest, ?_, owes⟩
    rw [← hrest, hq]
    simp [queueBytes, dataBytes, htype]

theorem Half.handEnd (h : Half S R W back) {i : QueueItem} {q : List QueueItem}
    (hq : S.queue = i :: q) (hi : i.isEnd = true) :
    Half { S with queue := q, endHanded := true } R (W ++ [i.envelope]) back := by
  have hitems := h.snd.items
  rw [hq, List.forall_mem_cons] at hitems
  obtain ⟨hend, -, -, -⟩ | ⟨-, htype, hpay⟩ := hitems.1
  · rw [hi] at hend; cases hend
  have hqnil : q = [] := by
    have hlast := h.snd.endLast
    rw [hq, List.pairwise_cons] at hlast
    cases q with
    | nil => rfl
    | cons j q =>
      have := hlast.1 j List.mem_cons_self
      rw [hi] at this; cases this
  subst hqnil
  have hendq := h.snd.endItem i (by rw [hq]; exact List.mem_cons_self) hi
  have hnot := h.endHanded_of_queue (by rw [hq]; simp)
  obtain ⟨hnoEnd, hinEnd⟩ := h.noEnd hnot
  have hsum := h.snd.sum
  rw [hq] at hsum
  have hnodata : dataBytes [i.envelope] = [] := by simp [dataBytes, htype]
  have hsnd : SndOk { S with queue := [], endHanded := true } :=
    ⟨by simp, List.Pairwise.nil, by simp, fun _ => ⟨rfl, hendq⟩, by simpa [hpay] using hsum,
      h.snd.window, fun _ => rfl, h.snd.stopped, h.snd.closed, h.snd.drained⟩
  refine ⟨hsnd, h.rcv, ?_, h.backOk, ?_, h.credit, ?_, fun _ => rfl, ?_, h.stop, h.stopped, ?_, ?_,
    ?_, h.given, h.closed⟩
  · exact List.forall_mem_append.mpr ⟨h.sent, by simp [Envelope.Ok, htype]⟩
  · rw [dataBytes_append, hnodata, List.append_nil]; exact h.received
  · exact List.pairwise_append.mpr ⟨h.endLast, List.pairwise_singleton _ _,
      fun f hf _ _ hft => absurd hft (hnoEnd f hf)⟩
  · intro hend
    rw [hinEnd] at hend; cases hend
  · exact fun _ => .inl ⟨i.envelope, by simp, by simp [Envelope.isFinal, htype]⟩
  · rintro (⟨f, hf, hft⟩ | hr)
    · rcases List.mem_append.mp hf with hf | hf
      · exact h.resetSent (.inl ⟨f, hf, hft⟩)
      · rw [List.mem_singleton.mp hf, htype] at hft; cases hft
    · exact h.resetSent (.inr hr)
  · intro hr
    obtain ⟨rest, hrest, owes⟩ := h.bytes hr
    refine ⟨rest, ?_, fun hs _ => owes hs (.inl ?_)⟩
    · rw [← hrest, hq]
      simp [queueBytes, dataBytes, htype]
    · -- a failed sender has no queue left, so this one has not failed
      cases hf : S.failed with
      | false => rfl
      | true => have := h.snd.failed hf; rw [hq] at this; cases this

/-- A priority message joins the wire; a `RESET` is recorded by its sender. -/
theorem Half.handLane (h : Half S R W back) (hok : e.Ok) (hb : e.isBulk = false) :
    Half { S with resetHanded := S.resetHanded || decide (e.type = .RESET) } R (W ++ [e]) back := by
  have hbulk := hb
  simp only [Envelope.isBulk, Bool.or_eq_false_iff, decide_eq_false_iff_not] at hb
  have hnodata : dataBytes [e] = [] := by simp [dataBytes, hb.1]
  refine ⟨⟨h.snd.items, h.snd.endLast, h.snd.endItem, h.snd.endGone, h.snd.sum, h.snd.window,
    h.snd.failed, h.snd.stopped, h.snd.closed, h.snd.drained⟩, h.rcv, ?_, h.backOk, ?_, h.credit, ?_, ?_, ?_,
    h.stop, h.stopped, ?_, ?_, ?_, h.given, h.closed⟩
  · exact List.forall_mem_append.mpr ⟨h.sent, by simpa using hok⟩
  · rw [dataBytes_append, hnodata, List.append_nil]; exact h.received
  · exact List.pairwise_append.mpr ⟨h.endLast, List.pairwise_singleton _ _,
      fun _ _ f hf _ => List.mem_singleton.mp hf ▸ hbulk⟩
  · rintro (⟨f, hf, hft⟩ | hend)
    · rcases List.mem_append.mp hf with hf | hf
      · exact h.endSent (.inl ⟨f, hf, hft⟩)
      · rw [List.mem_singleton.mp hf] at hft; exact absurd hft hb.2
    · exact h.endSent (.inr hend)
  · exact fun hend => List.forall_mem_append.mpr ⟨h.ended hend, by simpa using hbulk⟩
  · intro hours
    by_cases hr : e.type = .RESET
    · exact .inl ⟨e, by simp, by simp [Envelope.isFinal, hr]⟩
    · rcases h.final (by simpa [Snd.ours, hr] using hours) with ⟨f, hf, hff⟩ | ht
      · exact .inl ⟨f, List.mem_append_left _ hf, hff⟩
      · exact .inr ht
  · rintro (⟨f, hf, hft⟩ | hres)
    · rcases List.mem_append.mp hf with hf | hf
      · simp [h.resetSent (.inl ⟨f, hf, hft⟩)]
      · rw [List.mem_singleton.mp hf] at hft; simp [hft]
    · simp [h.resetSent (.inr hres)]
  · intro hread
    obtain ⟨rest, hrest, owes⟩ := h.bytes hread
    exact ⟨rest, by rw [dataBytes_append, hnodata, List.append_nil]; exact hrest, owes⟩

/-! ### Receiving -/

/-- The receiver ignores the next message. -/
theorem Half.drop (h : Half S R (e :: W) back) (hd : e.type = .DATA → R.readable ≠ .readable)
    (hf : e.isFinal = true → R.theirs = true) : Half S R W back := by
  refine ⟨h.snd, h.rcv, fun f hf => h.sent f (List.mem_cons_of_mem _ hf), h.backOk, ?_, h.credit,
    h.endLast.of_cons, ?_, ?_, h.stop, h.stopped, ?_, ?_, ?_, h.given, h.closed⟩
  · have := h.received
    simp only [dataBytes, List.length_append] at this
    omega
  · rintro (⟨f, hf, hft⟩ | hend)
    · exact h.endSent (.inl ⟨f, List.mem_cons_of_mem _ hf, hft⟩)
    · exact h.endSent (.inr hend)
  · exact fun hend f hf => h.ended hend f (List.mem_cons_of_mem _ hf)
  · intro hours
    rcases h.final hours with ⟨f, hmem, hff⟩ | ht
    · rcases List.mem_cons.mp hmem with rfl | hmem
      · exact .inr (hf hff)
      · exact .inl ⟨f, hmem, hff⟩
    · exact .inr ht
  · rintro (⟨f, hf, hft⟩ | hr)
    · exact h.resetSent (.inl ⟨f, List.mem_cons_of_mem _ hf, hft⟩)
    · exact h.resetSent (.inr hr)
  · intro hr
    obtain ⟨rest, hrest, owes⟩ := h.bytes hr
    have hnot : e.type ≠ .DATA := fun ht => hd ht hr
    exact ⟨rest, by simpa [dataBytes, hnot] using hrest, owes⟩

/-- The room a `DATA` needs is always there. -/
theorem Half.room (h : Half S R (e :: W) back) (he : e.type = .DATA) :
    R.received + e.payload.length ≤ channelWindow + R.granted := by
  have h1 := h.received
  have h2 := h.credit
  have h3 := h.snd.window
  simp only [dataBytes, he, if_true, List.length_append] at h1
  omega

theorem Half.recvData (h : Half S R (e :: W) back) (he : e.type = .DATA) :
    Half S { R with received := R.received + e.payload.length, held := R.held ++ e.payload } W
      back := by
  have hroom := h.room he
  have hread := h.rcv.read
  have hrecv := h.received
  simp only [dataBytes, he, if_true, List.length_append] at hrecv
  have hnf : e.isFinal = false := by simp [Envelope.isFinal, he]
  have hrcv : RcvOk { R with
      received := R.received + e.payload.length, held := R.held ++ e.payload } :=
    ⟨h.rcv.granted, by simp only [List.length_append]; omega, hroom, h.rcv.readable, h.rcv.reset,
      h.rcv.stop⟩
  refine ⟨h.snd, hrcv, fun f hf => h.sent f (List.mem_cons_of_mem _ hf), h.backOk, ?_, h.credit,
    h.endLast.of_cons, ?_, ?_, h.stop, h.stopped, ?_, ?_, ?_, h.given, h.closed⟩
  · dsimp only; omega
  · rintro (⟨f, hf, hft⟩ | hend)
    · exact h.endSent (.inl ⟨f, List.mem_cons_of_mem _ hf, hft⟩)
    · exact h.endSent (.inr hend)
  · exact fun hend f hf => h.ended hend f (List.mem_cons_of_mem _ hf)
  · intro hours
    rcases h.final hours with ⟨f, hmem, hff⟩ | ht
    · rcases List.mem_cons.mp hmem with rfl | hmem
      · rw [hnf] at hff; cases hff
      · exact .inl ⟨f, hmem, hff⟩
    · exact .inr ht
  · rintro (⟨f, hf, hft⟩ | hr)
    · exact h.resetSent (.inl ⟨f, List.mem_cons_of_mem _ hf, hft⟩)
    · exact h.resetSent (.inr hr)
  · intro hr
    obtain ⟨rest, hrest, owes⟩ := h.bytes hr
    refine ⟨rest, ?_, owes⟩
    rw [← hrest]
    simp [dataBytes, he]

theorem Half.recvEnd (h : Half S R (e :: W) back) (he : e.type = .END) :
    R.inEnded = false ∧ Half S { R with inEnded := true } W back := by
  have hnot : R.inEnded = false := by
    cases hend : R.inEnded with
    | false => rfl
    | true =>
      have := h.ended hend e List.mem_cons_self
      simp [Envelope.isBulk, he] at this
  have hhanded := h.endSent (.inl ⟨e, List.mem_cons_self, he⟩)
  refine ⟨hnot, h.snd, ⟨h.rcv.granted, h.rcv.read, h.rcv.window, h.rcv.readable, h.rcv.reset,
    h.rcv.stop⟩, fun f hf => h.sent f (List.mem_cons_of_mem _ hf), h.backOk, ?_, h.credit,
    h.endLast.of_cons, fun _ => hhanded, ?_, h.stop, h.stopped, ?_, ?_, ?_, h.given, h.closed⟩
  · have := h.received
    simp only [dataBytes, List.length_append] at this
    dsimp only; omega
  · exact fun _ f hf => (List.pairwise_cons.mp h.endLast).1 f hf he
  · exact fun _ => .inr (by simp [Rcv.theirs])
  · rintro (⟨f, hf, hft⟩ | hr)
    · exact h.resetSent (.inl ⟨f, List.mem_cons_of_mem _ hf, hft⟩)
    · exact h.resetSent (.inr hr)
  · intro hr
    obtain ⟨rest, hrest, owes⟩ := h.bytes hr
    exact ⟨rest, by simpa [dataBytes, he] using hrest, owes⟩

/-- A failed receiver gets the `RESET`. -/
theorem Half.recvReset (h : Half S R (e :: W) back) (he : e.type = .RESET)
    (hf : R.failed = true) : Half S { R with resetReceived := true } W back := by
  have hhanded := h.resetSent (.inl ⟨e, List.mem_cons_self, he⟩)
  refine ⟨h.snd, ⟨h.rcv.granted, h.rcv.read, h.rcv.window, h.rcv.readable, fun _ => hf,
    h.rcv.stop⟩, fun f hf => h.sent f (List.mem_cons_of_mem _ hf), h.backOk, ?_, h.credit,
    h.endLast.of_cons, ?_, ?_, h.stop, h.stopped, ?_, fun _ => hhanded, ?_, h.given, h.closed⟩
  · have := h.received
    simp only [dataBytes, List.length_append] at this
    dsimp only; omega
  · rintro (⟨f, hf, hft⟩ | hend)
    · exact h.endSent (.inl ⟨f, List.mem_cons_of_mem _ hf, hft⟩)
    · exact h.endSent (.inr hend)
  · exact fun hend f hf => h.ended hend f (List.mem_cons_of_mem _ hf)
  · exact fun _ => .inr (by simp [Rcv.theirs])
  · intro hr
    obtain ⟨rest, hrest, owes⟩ := h.bytes hr
    exact ⟨rest, by simpa [dataBytes, he] using hrest, owes⟩

/-! ### The sender gets what came back -/

theorem Half.dropBack (h : Half S R W (e :: back)) : Half S R W back := by
  have hstop := h.stop
  have hcred := h.credit
  simp only [credits] at hcred
  simp only [stops, List.countP_cons] at hstop
  refine ⟨h.snd, h.rcv, h.sent, fun f hf => h.backOk f (List.mem_cons_of_mem _ hf), h.received,
    by omega, h.endLast, h.endSent, h.ended, by simp only [stops]; omega, ?_, h.final, h.resetSent,
    h.bytes, h.given, h.closed⟩
  intro hs
  obtain ⟨h1, h2⟩ := h.stopped hs
  simp only [stops, List.countP_cons] at h2
  exact ⟨h1, by simp only [stops]; omega⟩

/-- Credit that comes back never passes what the sender accepts. -/
theorem Half.recvCredit (h : Half S R W (e :: back)) (he : e.type = .CREDIT) :
    ∃ a, parseCredit e.payload = some a ∧ 1 ≤ a ∧ S.allowance + a ≤ S.handed + channelWindow ∧
      Half { S with allowance := S.allowance + a } R W back := by
  obtain ⟨a, ha1, ha2, hpay⟩ : ∃ a, 1 ≤ a ∧ a < 2 ^ 32 ∧ e.payload = setUint32 a := by
    have := h.backOk e List.mem_cons_self
    simpa [Envelope.Ok, he] using this
  have hget : getUint32 e.payload = a := by
    have := getUint32_setUint32 a ha2 []
    rw [List.append_nil] at this
    rw [hpay, this]
  have hcred := h.credit
  simp only [credits, he, if_true, hget] at hcred
  have hrecv := h.received
  have hgrant := h.rcv.granted
  have hread := h.rcv.read
  have hdrop := h.dropBack
  refine ⟨a, by rw [hpay]; exact parseCredit_setUint32 a ha2, ha1, by omega, ?_⟩
  have hsnd : SndOk { S with allowance := S.allowance + a } :=
    ⟨h.snd.items, h.snd.endLast, h.snd.endItem, h.snd.endGone, h.snd.sum,
      by have := h.snd.window; dsimp only; omega, h.snd.failed, h.snd.stopped, h.snd.closed, h.snd.drained⟩
  exact ⟨hsnd, h.rcv, h.sent, hdrop.backOk, h.received, by dsimp only; omega, h.endLast, h.endSent,
    h.ended, hdrop.stop, hdrop.stopped, h.final, h.resetSent, h.bytes, h.given, h.closed⟩

/-- A `STOP` comes back at most once, and then the receiver reads nothing more. -/
theorem Half.stop_once (h : Half S R W (e :: back)) (he : e.type = .STOP) :
    S.stopped = false ∧ R.stopSent = true ∧ R.readable = .cancelled := by
  have hpos : 1 ≤ stops (e :: back) := by simp [stops, he]
  have hsent : R.stopSent = true := by
    cases hs : R.stopSent with
    | true => rfl
    | false =>
      have hstop := h.stop
      simp only [hs, Bool.false_eq_true, if_false] at hstop
      omega
  refine ⟨?_, hsent, h.rcv.stop hsent⟩
  cases hs : S.stopped with
  | false => rfl
  | true => have := (h.stopped hs).2; omega

/-- What the sender may do when it is stopped: it drops its data, and ends the direction. -/
theorem Half.recvStop (h : Half S R W (e :: back)) (he : e.type = .STOP) (hok : SndOk S')
    (hhanded : S'.handed = S.handed) (hall : S'.allowance = S.allowance)
    (hend : S'.endHanded = S.endHanded) (hreset : S'.resetHanded = S.resetHanded)
    (hwritten : S'.written = S.written) : Half S' R W back := by
  obtain ⟨-, hsent, hcan⟩ := h.stop_once he
  have hstops : stops back = 0 := by
    have hstop := h.stop
    simp only [hsent, if_true, stops, List.countP_cons, he, decide_true] at hstop
    simp only [stops]; omega
  have hdrop := h.dropBack
  refine ⟨hok, h.rcv, h.sent, hdrop.backOk, by rw [hhanded]; exact h.received,
    by rw [hall]; exact hdrop.credit, h.endLast, by rw [hend]; exact h.endSent, h.ended, hdrop.stop,
    fun _ => ⟨hsent, hstops⟩, ?_, by rw [hreset]; exact h.resetSent, ?_,
    by rw [hwritten]; exact h.given, ?_⟩
  · rw [Snd.ours, hend, hreset]; exact h.final
  · intro hr; rw [hcan] at hr; cases hr
  · intro hr; rw [hcan] at hr; cases hr

end

end Simlock.Link
