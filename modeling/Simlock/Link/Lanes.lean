import Simlock.Link.ReceiverBounds

/-! What a channel asks of the ring, whatever the peer does.

    A channel waits in the ring of its end while its `OPEN` is handed and its queue is not empty.
    `Sends` is what its lane, the fields this rests on, keeps, and `LaneStep` what a method may ask:

        waits before ─▶ addBulk, removeBulk ─▶ waits after

    There is at most one `END` in the queue, behind the data, and nothing once the channel failed or
    its `END` was handed. -/

namespace Simlock.Link

/-! ### Lanes -/

structure Lane where
  number : Nat
  opened : Bool
  queue : List QueueItem
  endQueued : Bool
  endHanded : Bool
  failed : Bool
  resetHanded : Bool
  done : Bool

def Channel.lane (c : Channel) : Lane :=
  ⟨c.number, c.openHanded, c.queue, c.endQueued, c.endHanded, c.failure.isSome, c.resetHanded,
    c.done⟩

/-- The pump may take a message. -/
def Lane.waits (a : Lane) : Bool := a.opened && !a.queue.isEmpty

namespace HostCall

/-- Whether the channel is in the ring after the call. -/
def inRing (before : Bool) : HostCall → Bool
  | .addBulk => true
  | .removeBulk => false
  | _ => before

/-- A call that leaves the ring alone and resets nothing. -/
def isQuiet : HostCall → Bool
  | .binary e => e.type ≠ .RESET && !e.isBulk
  | .warn _ => true
  | _ => false

end HostCall

structure Sends (a : Lane) : Prop where
  items : ∀ i ∈ a.queue, i.envelope.isBulk = true ∧ i.envelope.number = a.number
  endLast : a.queue.Pairwise (fun i _ => i.isEnd = false)
  endItem : ∀ i ∈ a.queue, i.isEnd = true → a.endQueued = true
  endGone : a.endHanded = true → a.queue = [] ∧ a.endQueued = true
  failed : a.failed = true → a.queue = []
  reset : a.resetHanded = true → a.failed = true
  done : a.done = true → a.failed = true ∨ a.endHanded = true

/-- A method made `b` of the lane `a` with `calls`. Only where the peer stops the channel, `s`, may
    it leave the ring and wait again. -/
structure LaneStep (s : Bool) (a b : Lane) (calls : List HostCall) : Prop where
  sends : Sends b
  number : b.number = a.number
  failed : a.failed = true → b.failed = true
  done : a.done = true → b.done = true
  waits : calls.foldl HostCall.inRing a.waits = b.waits
  removes : .removeBulk ∈ calls → s = true ∨ b.failed = true ∨ b.done = true
  binary : ∀ e, .binary e ∈ calls → e.isBulk = false ∧
    (e.type = .RESET → e.number = a.number ∧ b.failed = true)
  ends : .channelDone ∈ calls → b.done = true

section
variable {s : Bool} {a b d : Lane} {as bs calls : List HostCall}

theorem Sends.queue_of_done (h : Sends a) (hdone : a.done = true) : a.queue = [] :=
  (h.done hdone).elim h.failed fun hended => (h.endGone hended).1

theorem waits_of_queue (h : a.queue = []) : a.waits = false := by simp [Lane.waits, h]

theorem LaneStep.trans (h : LaneStep s a b as) (k : LaneStep s b d bs) :
    LaneStep s a d (as ++ bs) := by
  refine ⟨k.sends, k.number.trans h.number, fun hf => k.failed (h.failed hf),
    fun hd => k.done (h.done hd), ?_, fun hr => ?_, fun e he => ?_, fun he => ?_⟩
  · rw [List.foldl_append, h.waits, k.waits]
  · rcases List.mem_append.mp hr with hr | hr
    · exact (h.removes hr).imp id (.imp k.failed k.done)
    · exact k.removes hr
  · rcases List.mem_append.mp he with he | he
    · exact ⟨(h.binary e he).1, fun ht => ((h.binary e he).2 ht).imp_right k.failed⟩
    · exact ⟨(k.binary e he).1, fun ht => ((k.binary e he).2 ht).imp_left (·.trans h.number)⟩
  · rcases List.mem_append.mp he with he | he
    · exact k.done (h.ends he)
    · exact k.ends he

theorem foldl_inRing (hcalls : ∀ x ∈ calls, x.isQuiet = true) (before : Bool) :
    calls.foldl HostCall.inRing before = before := by
  induction calls generalizing before with
  | nil => rfl
  | cons x calls ih =>
    have hx := hcalls x List.mem_cons_self
    rw [List.foldl_cons, ih fun y hy => hcalls y (List.mem_cons_of_mem x hy)]
    cases x <;> first | rfl | cases hx

theorem LaneStep.quiet (h : Sends a) (hcalls : ∀ x ∈ calls, x.isQuiet = true) :
    LaneStep s a a calls := by
  refine ⟨h, rfl, id, id, foldl_inRing hcalls _, fun hr => ?_, fun e he => ?_, fun he => ?_⟩
  · cases hcalls _ hr
  · have hquiet := hcalls _ he
    simp only [HostCall.isQuiet, Bool.and_eq_true, decide_eq_true_eq, Bool.not_eq_true'] at hquiet
    exact ⟨hquiet.2, fun ht => absurd ht hquiet.1⟩
  · cases hcalls _ he

theorem LaneStep.stay (h : Sends a) : LaneStep s a a [] := .quiet h (by simp)

/-- A failed channel leaves the ring, whether it sends a `RESET` or not. -/
theorem LaneStep.fails (h : Sends a)
    (hcalls : calls = [] ∨ ∃ r, calls = [.binary (encodeReset a.number r)]) :
    LaneStep s a { a with queue := [], failed := true } (.removeBulk :: calls) := by
  refine ⟨⟨by simp, .nil, by simp, fun he => ⟨rfl, (h.endGone he).2⟩, fun _ => rfl, fun _ => rfl,
    fun _ => .inl rfl⟩, rfl, fun _ => rfl, id, ?_, fun _ => .inr (.inl rfl), ?_, ?_⟩ <;>
    rcases hcalls with rfl | ⟨r, rfl⟩ <;>
      simp [HostCall.inRing, Lane.waits, encodeReset, Envelope.isBulk]

/-- The queue of a channel that still sends grows. -/
theorem LaneStep.queues (h : Sends a) (items : List QueueItem) (ended : Bool)
    (hend : a.endQueued = false) (hfailed : a.failed = false) (hitems : items ≠ [])
    (hnew : ∀ i ∈ items, i.isEnd = ended ∧ i.envelope.isBulk = true ∧ i.envelope.number = a.number)
    (hlast : items.Pairwise (fun i _ => i.isEnd = false)) :
    LaneStep s a { a with queue := a.queue ++ items, endQueued := ended }
      (if a.opened then [.addBulk] else []) := by
  have hdata : ∀ i ∈ a.queue, i.isEnd = false := fun i hi =>
    Bool.eq_false_iff.mpr fun hie => by cases (h.endItem i hi hie).symm.trans hend
  have hhanded : a.endHanded = false :=
    Bool.eq_false_iff.mpr fun hh => by cases (h.endGone hh).2.symm.trans hend
  refine ⟨⟨List.forall_mem_append.mpr ⟨h.items, fun i hi => (hnew i hi).2⟩,
    List.pairwise_append.mpr ⟨h.endLast, hlast, fun i hi _ _ => hdata i hi⟩, fun i hi hie => ?_,
    fun he => ?_, fun hf => ?_, h.reset, h.done⟩, rfl, id, id, ?_, ?_, ?_, ?_⟩
  · rcases List.mem_append.mp hi with hi | hi
    · cases (hdata i hi).symm.trans hie
    · exact (hnew i hi).1.symm.trans hie
  · cases hhanded.symm.trans he
  · cases hfailed.symm.trans hf
  all_goals cases hopened : a.opened <;> simp [Lane.waits, HostCall.inRing, hopened, hitems]

end

/-! ### The methods of a channel -/

/-- A method of `c` gave `r`. -/
abbrev Channel.Asks (c : Channel) (s : Bool) (r : Channel × List HostCall) : Prop :=
  LaneStep s c.lane r.1.lane r.2

section
variable {s : Bool} {c : Channel}

theorem checkDone_lane (h : Sends c.lane) : c.Asks s c.checkDone := by
  unfold Channel.checkDone
  split
  · exact .stay h
  · split
    · exact .stay h
    · rename_i hours
      have hover : c.lane.failed = true ∨ c.lane.endHanded = true := by
        simp only [Channel.ours, Bool.or_eq_true, Bool.not_eq_true', not_or, Bool.not_eq_false]
          at hours
        exact hours.1.imp h.reset id
      have hqueue : c.lane.queue = [] := hover.elim h.failed fun he => (h.endGone he).1
      exact ⟨⟨h.items, h.endLast, h.endItem, h.endGone, h.failed, h.reset, fun _ => hover⟩, rfl, id,
        fun _ => rfl, (waits_of_queue hqueue).symm, fun _ => .inr (.inr rfl), by simp, fun _ => rfl⟩

theorem fail_lane (h : Sends c.lane) (error : LinkChannelError) (send : Option ResetReason) :
    c.Asks s (c.fail error send) := by
  unfold Channel.fail
  have hquiet : LaneStep s c.lane (c.failed error).lane [.removeBulk] := .fails h (.inl rfl)
  split
  · exact .stay h
  · split
    · exact hquiet.trans (checkDone_lane hquiet.sends)
    · rename_i reason
      split
      · exact hquiet.trans (checkDone_lane hquiet.sends)
      · have hreset : LaneStep s c.lane ({ c.failed error with resetQueued := true } : Channel).lane
            [.removeBulk, .binary (encodeReset c.number reason)] := .fails h (.inr ⟨reason, rfl⟩)
        exact hreset.trans (checkDone_lane hreset.sends)

theorem invalid_lane (h : Sends c.lane) (rule : String) :
    c.Asks s (c.invalid rule) :=
  have hwarned : LaneStep s c.lane c.lane [.warn s!"link: channel {c.id} broke a rule: {rule}"] :=
    .quiet h (by simp [HostCall.isQuiet])
  hwarned.trans (fail_lane h _ _)

theorem deliverOne_lane (c : Channel) : c.deliverOne.1.lane = c.lane := by
  unfold Channel.deliverOne
  split
  · rfl
  · split
    · rename_i hnext
      unfold Channel.nextChunk at hnext
      split at hnext
      · cases hnext
        rfl
      · split at hnext <;> cases hnext
        rfl
    · split <;> rfl

theorem grant_lane (h : Sends c.lane) : c.Asks s c.grant := by
  unfold Channel.grant
  dsimp only
  split
  · exact .stay h
  · split
    · exact .stay h
    · exact .quiet h (by simp [HostCall.isQuiet, encodeCredit, Envelope.isBulk])

theorem deliver_lane : ∀ (again : Nat) {c : Channel}, Sends c.lane →
    c.Asks s (Channel.deliver again c)
  | 0, c, h => by
    have hone := deliverOne_lane c
    unfold Channel.deliver Channel.Asks
    dsimp only
    rw [← hone] at h ⊢
    split
    · exact grant_lane h
    · exact .stay h
  | again + 1, c, h => by
    have hone := deliverOne_lane c
    unfold Channel.deliver Channel.Asks
    dsimp only
    rw [← hone] at h ⊢
    split
    · have hinner : LaneStep s c.deliverOne.1.lane _ _ :=
        deliver_lane again (c := { c.deliverOne.1 with wantRead := true }) h
      exact hinner.trans (grant_lane hinner.sends)
    · exact .stay h

theorem onData_lane (h : Sends c.lane) (payload : Bytes) (again : Nat) :
    c.Asks s (c.onData payload again) := by
  unfold Channel.onData
  split
  · exact .stay h
  · split
    · exact invalid_lane h _
    · split
      · exact .stay h
      · split
        · exact invalid_lane h _
        · split
          · exact invalid_lane h _
          · split
            · exact .stay h
            · have hstored : ({ c with received := c.received + payload.length }.store
                  payload).lane = c.lane := by
                unfold Channel.store
                split <;> rfl
              unfold Channel.Asks
              rw [← hstored] at h ⊢
              exact deliver_lane again h

theorem onEnd_lane (h : Sends c.lane) (again : Nat) :
    c.Asks s (c.onEnd again) := by
  unfold Channel.onEnd
  split
  · exact checkDone_lane (c := { c with inEnded := true }) h
  · split
    · exact invalid_lane h _
    · have hgiven : LaneStep s c.lane _ _ := deliver_lane again (c := { c with inEnded := true }) h
      exact hgiven.trans (checkDone_lane hgiven.sends)

theorem onReset_lane (h : Sends c.lane) (reason : Option ResetReason) :
    c.Asks s (c.onReset reason) := by
  have hfailed : LaneStep s c.lane _ _ := fail_lane (c := { c with resetReceived := true }) h
    ⟨(reason.getD .aborted).toErrorReason, none⟩ (if c.resetQueued then none else some .aborted)
  exact hfailed.trans (checkDone_lane hfailed.sends)

theorem onCredit_lane (h : Sends c.lane) (amount : Option Nat) (unsentBytes : Nat) :
    c.Asks s (c.onCredit amount unsentBytes) := by
  unfold Channel.onCredit
  split
  · exact .stay h
  · split
    · exact invalid_lane h _
    · split
      · exact invalid_lane h _
      · split
        · exact invalid_lane h _
        · exact .stay h

theorem queueEnd_lane (h : Sends c.lane) (hend : c.endQueued = false)
    (hfailed : c.failure.isSome = false) :
    c.Asks s c.queueEnd :=
  .queues h [c.endItem] true hend hfailed (by simp)
    (by simp [Channel.endItem, Envelope.isBulk, Channel.lane]) (.cons (by simp) .nil)

theorem take_lane (h : Sends c.lane) {chunk : Bytes} (hchunk : chunk ≠ [])
    (hend : c.endQueued = false) (hfailed : c.failure.isSome = false) :
    c.Asks s (c.take chunk) := by
  have hpieces : Channel.pieces chunk.length chunk ≠ [] := by
    cases chunk with
    | nil => exact absurd rfl hchunk
    | cons b rest => simp [Channel.pieces]
  have hnew : ∀ i ∈ (Channel.pieces chunk.length chunk).map c.dataItem,
      i.isEnd = c.endQueued ∧ i.envelope.isBulk = true ∧ i.envelope.number = c.number := by
    intro i hi
    obtain ⟨piece, -, rfl⟩ := List.mem_map.mp hi
    exact ⟨hend.symm, rfl, rfl⟩
  exact .queues h _ c.endQueued hend hfailed (by simpa using hpieces) hnew
    (List.pairwise_of_forall_mem_list fun i hi _ _ => (hnew i hi).1.trans hend)

theorem writeLoop_lane (unsentBytes : Nat) : ∀ (fuel : Nat) {c : Channel}, Sends c.lane →
    c.Asks s (Channel.writeLoop fuel c unsentBytes)
  | 0, _, h => .stay h
  | fuel + 1, c, h => by
    unfold Channel.writeLoop
    split
    · exact .stay h
    · rename_i rest hrest
      split
      · exact .stay h
      · rename_i hmore
        split
        · exact .stay h
        · rename_i hruns
          dsimp only
          split
          · rename_i hn
            have hend : c.endQueued = false := Bool.eq_false_iff.mpr fun he => by
              simp [Channel.credit, he] at hn
            have hchunk : rest.take (min c.credit rest.length) ≠ [] := fun hnil => by
              rw [List.take_eq_nil_iff] at hnil
              rcases hnil with hzero | rfl
              · omega
              · exact hmore rfl
            simp only [Bool.or_eq_true, not_or, Bool.not_eq_true] at hruns
            have htaken : LaneStep s c.lane _ _ := take_lane (c := { c with
              writing := some (rest.drop (min c.credit rest.length)) }) h hchunk hend hruns.1
            exact htaken.trans (writeLoop_lane unsentBytes fuel htaken.sends)
          · exact .stay h

theorem sinkNext_lane (h : Sends c.lane) (unsentBytes : Nat) :
    c.Asks s (c.sinkNext unsentBytes) := by
  unfold Channel.sinkNext
  split
  · exact .stay h
  · split
    · rename_i chunk rest hqueue
      exact writeLoop_lane unsentBytes _ (c := { c with
        writeQueue := rest, writing := some chunk }) h
    · split
      · unfold Channel.closeSink
        split
        · exact .stay h
        · rename_i hfailed
          split
          · exact .stay h
          · rename_i hend
            exact queueEnd_lane h (Bool.eq_false_iff.mpr hend) (Bool.eq_false_iff.mpr hfailed)
      · exact .stay h

/-- A `STOP` drops the data and leaves at most an `END`. -/
theorem onStop_lane (h : Sends c.lane) : c.Asks true c.onStop := by
  unfold Channel.onStop
  split
  · exact .stay h
  · rename_i hfailed
    split
    · exact invalid_lane h _
    · have hdrop : c.Asks true c.dropQueuedData := by
        have hkept : ∀ i ∈ c.queue.filter (·.isEnd), i ∈ c.queue := fun i => List.mem_of_mem_filter
        have hnone : c.queue = [] → c.queue.filter (·.isEnd) = [] := fun hnil => by rw [hnil]; rfl
        refine ⟨⟨fun i hi => h.items i (hkept i hi), h.endLast.filter _,
          fun i hi => h.endItem i (hkept i hi), fun he => ⟨?_, (h.endGone he).2⟩, fun hf => ?_,
          h.reset, h.done⟩, rfl, id, id, ?_, fun _ => .inl rfl, ?_, ?_⟩
        · exact hnone (h.endGone he).1
        · exact hnone (h.failed hf)
        · cases hfilter : c.queue.filter (·.isEnd) with
          | nil => simp [Channel.dropQueuedData, Channel.lane, Lane.waits, hfilter, HostCall.inRing]
          | cons i rest =>
            have hqueue : c.queue ≠ [] := fun hnil => by simp [hnil] at hfilter
            simp [Channel.dropQueuedData, Channel.lane, Lane.waits, hfilter, hqueue]
        · simp only [Channel.dropQueuedData]
          split <;> simp
        · simp only [Channel.dropQueuedData]
          split <;> simp
      dsimp only
      split
      · exact hdrop
      · rename_i hend
        exact hdrop.trans (queueEnd_lane (c := { c.dropQueuedData.1 with stoppedByPeer := true })
          hdrop.sends (Bool.eq_false_iff.mpr hend) (Bool.eq_false_iff.mpr hfailed))

/-! ### Callbacks, timers and the application -/

theorem onOpenHanded_lane (h : Sends c.lane) :
    c.Asks s c.onOpenHanded := by
  refine ⟨⟨h.items, h.endLast, h.endItem, h.endGone, h.failed, h.reset, h.done⟩, rfl, id, id, ?_,
    ?_, ?_, ?_⟩ <;> cases hqueue : c.queue <;>
      simp [Channel.onOpenHanded, Channel.hasNext, Channel.lane, Lane.waits, HostCall.inRing,
        hqueue]

theorem onResetHanded_lane (h : Sends c.lane) (hfailed : c.lane.failed = true) :
    c.Asks s c.onResetHanded := by
  have hhanded : LaneStep s c.lane ({ c with resetHanded := true } : Channel).lane [] :=
    ⟨⟨h.items, h.endLast, h.endItem, h.endGone, h.failed, fun _ => hfailed, h.done⟩, rfl, id, id,
      rfl, by simp, by simp, by simp⟩
  exact hhanded.trans (checkDone_lane hhanded.sends)

/-- The pump took `item` from the head of the queue; an `END` was the last. -/
theorem onItemHanded_lane {item : QueueItem} {queue : List QueueItem} (h : Sends c.lane)
    (hqueue : c.queue = item :: queue) (unsentBytes : Nat) :
    Sends ({ c with queue := queue } : Channel).lane ∧
      LaneStep s ({ c with queue := queue } : Channel).lane
        (({ c with queue := queue } : Channel).onItemHanded item unsentBytes).1.lane
        (({ c with queue := queue } : Channel).onItemHanded item unsentBytes).2 := by
  have hlast : c.queue.Pairwise (fun i _ => i.isEnd = false) := h.endLast
  rw [hqueue, List.pairwise_cons] at hlast
  have hmem : ∀ i ∈ queue, i ∈ c.queue := fun i hi => hqueue ▸ List.mem_cons_of_mem item hi
  have hnil : ∀ {p : Prop}, c.queue = [] → p := fun hn => by simp [hqueue] at hn
  have htaken : Sends ({ c with queue := queue } : Channel).lane :=
    ⟨fun i hi => h.items i (hmem i hi), hlast.2, fun i hi => h.endItem i (hmem i hi),
      fun he => hnil (h.endGone he).1, fun hf => hnil (h.failed hf), h.reset, h.done⟩
  refine ⟨htaken, ?_⟩
  unfold Channel.onItemHanded
  split
  · rename_i hend
    have hrest : queue = [] := List.eq_nil_iff_forall_not_mem.mpr fun i hi => by
      cases (hlast.1 i hi).symm.trans hend
    subst hrest
    have hitem := h.endItem item (hqueue ▸ List.mem_cons_self : item ∈ c.queue) hend
    have hhanded : LaneStep s ({ c with queue := [] } : Channel).lane
        ({ c with queue := [], endHanded := true } : Channel).lane [] :=
      ⟨⟨by simp [Channel.lane], .nil, by simp [Channel.lane], fun _ => ⟨rfl, hitem⟩, fun _ => rfl,
        htaken.reset, fun _ => .inr rfl⟩, rfl, id, id, rfl, by simp, by simp, by simp⟩
    exact hhanded.trans (checkDone_lane hhanded.sends)
  · exact .stay htaken

theorem acceptTimeout_lane (h : Sends c.lane) :
    c.Asks s c.acceptTimeout := by
  unfold Channel.acceptTimeout
  split
  · exact fail_lane (c := { c with acceptTimer := false }) h _ _
  · exact .stay h

theorem stallTimeout_lane (h : Sends c.lane) :
    c.Asks s c.stallTimeout := by
  unfold Channel.stallTimeout
  split
  · exact fail_lane (c := { c with stallTimer := false }) h _ _
  · exact .stay h

theorem cancel_lane (h : Sends c.lane) : c.Asks s c.cancel := by
  unfold Channel.cancel
  split
  · unfold Channel.cancelReadable
    split
    · exact .stay h
    · dsimp only
      split
      · exact .stay h
      · exact .quiet h (by simp [HostCall.isQuiet, Envelope.isBulk])
  · exact .stay h

theorem appCall_lane (h : Sends c.lane) (unsentBytes : Nat) (call : AppCall) :
    c.Asks s (Link.appCall unsentBytes call c) := by
  cases call with
  | read again =>
    simp only [Link.appCall, Channel.pull]
    split
    · exact deliver_lane again (c := { c with wantRead := true }) h
    · exact .stay h
  | cancel => exact cancel_lane h
  | abort reason => exact fail_lane h _ _
  | _ =>
    simp only [Link.appCall, Channel.write, Channel.close, Channel.abortWritable,
      Channel.whenCredit]
    split <;> exact .stay h

/-- The link closed. -/
theorem closeWith_lane (h : Sends c.lane) (error : LinkChannelError) :
    (c.closeWith error).1.lane = { c.lane with queue := [], failed := true, done := true } := by
  unfold Channel.closeWith Channel.fail
  split
  · rename_i hfailed
    have hqueue := h.failed hfailed
    simp only [Channel.lane] at hqueue ⊢
    rw [hqueue]
    simpa using hfailed
  · rfl

end

end Simlock.Link
