import Simlock.Link.Safety

/-! What a receiver holds for a peer, whatever the peer sends.

    Nothing is assumed of the peer: its messages are arbitrary bytes in any order, between any steps
    of the end that receives them. `Within` is what a channel keeps of its receiving direction,

        read + held ≤ received ≤ window + granted      granted ≤ read

    and `TableOk` ties the counter of the peer's channels to the table. Both are kept by every method
    of a channel and every call to its host, so by every step. -/

namespace Simlock.Link

open Simlock.Lib

namespace Channel

/-- The bytes received that the reader was not handed. -/
def heldBytes (c : Channel) : Nat := (c.inQueue.map List.length).sum + c.inTail.length

end Channel

structure Within (c : Channel) : Prop where
  granted : c.granted ≤ c.readTotal
  window : c.received ≤ channelWindow + c.granted
  held : c.readTotal + c.heldBytes ≤ c.received

/-- The receiving direction is as it was, or holds less. -/
structure Sheds (c c' : Channel) : Prop where
  ownedByUs : c'.ownedByUs = c.ownedByUs
  granted : c'.granted = c.granted
  received : c'.received = c.received
  readTotal : c'.readTotal = c.readTotal
  held : c'.heldBytes ≤ c.heldBytes

/-- A method keeps what it has to keep of a channel. -/
structure Keeps (c c' : Channel) : Prop where
  ownedByUs : c'.ownedByUs = c.ownedByUs
  within : Within c → Within c'

theorem Sheds.refl (c : Channel) : Sheds c c := ⟨rfl, rfl, rfl, rfl, Nat.le_refl _⟩

theorem Sheds.trans {c c' c'' : Channel} (h : Sheds c c') (k : Sheds c' c'') : Sheds c c'' :=
  ⟨k.ownedByUs.trans h.ownedByUs, k.granted.trans h.granted, k.received.trans h.received,
    k.readTotal.trans h.readTotal, k.held.trans h.held⟩

theorem Sheds.keeps {c c' : Channel} (h : Sheds c c') : Keeps c c' := by
  refine ⟨h.ownedByUs, fun hw => ⟨?_, ?_, ?_⟩⟩
  · rw [h.granted, h.readTotal]
    exact hw.granted
  · rw [h.granted, h.received]
    exact hw.window
  · rw [h.received, h.readTotal]
    exact (Nat.add_le_add_left h.held _).trans hw.held

theorem Keeps.refl (c : Channel) : Keeps c c := ⟨rfl, id⟩

theorem Keeps.trans {c c' c'' : Channel} (h : Keeps c c') (k : Keeps c' c'') : Keeps c c'' :=
  ⟨k.ownedByUs.trans h.ownedByUs, fun hw => k.within (h.within hw)⟩

namespace Channel

variable (c : Channel)

/-! ### Methods that receive nothing -/

theorem checkDone_sheds : Sheds c c.checkDone.1 := by
  unfold checkDone
  split
  · exact .refl c
  · split
    · exact .refl c
    · exact ⟨rfl, rfl, rfl, rfl, Nat.le_refl _⟩

theorem failed_sheds (error : LinkChannelError) : Sheds c (c.failed error) :=
  ⟨rfl, rfl, rfl, rfl, Nat.zero_le _⟩

theorem fail_sheds (error : LinkChannelError) (send : Option ResetReason) :
    Sheds c (c.fail error send).1 := by
  unfold fail
  split
  · exact .refl c
  · have hfailed := (c.failed_sheds error).trans (checkDone_sheds _)
    split
    · exact hfailed
    · split
      · exact hfailed
      · have hqueued : Sheds c { c.failed error with resetQueued := true } :=
          ⟨rfl, rfl, rfl, rfl, Nat.zero_le _⟩
        exact hqueued.trans (checkDone_sheds _)

theorem invalid_sheds (rule : String) : Sheds c (c.invalid rule).1 := c.fail_sheds _ _

theorem updateStall_sheds (unsentBytes : Nat) : Sheds c (c.updateStall unsentBytes) :=
  ⟨rfl, rfl, rfl, rfl, Nat.le_refl _⟩

theorem onStop_sheds : Sheds c c.onStop.1 := by
  unfold onStop
  split
  · exact .refl c
  · split
    · exact c.invalid_sheds _
    · dsimp only
      split
      · exact ⟨rfl, rfl, rfl, rfl, Nat.le_refl _⟩
      · exact ⟨rfl, rfl, rfl, rfl, Nat.le_refl _⟩

theorem onCredit_sheds (amount : Option Nat) (unsentBytes : Nat) :
    Sheds c (c.onCredit amount unsentBytes).1 := by
  unfold onCredit
  split
  · exact .refl c
  · split
    · exact c.invalid_sheds _
    · split
      · exact c.invalid_sheds _
      · split
        · exact c.invalid_sheds _
        · exact ⟨rfl, rfl, rfl, rfl, Nat.le_refl _⟩

theorem onReset_sheds (reason : Option ResetReason) : Sheds c (c.onReset reason).1 := by
  have hreceived : Sheds c { c with resetReceived := true } := ⟨rfl, rfl, rfl, rfl, Nat.le_refl _⟩
  exact (hreceived.trans (fail_sheds _ _ _)).trans (checkDone_sheds _)

theorem closeWith_sheds (error : LinkChannelError) : Sheds c (c.closeWith error).1 := by
  have hdone : Sheds c { c with resetQueued := true, done := true } :=
    ⟨rfl, rfl, rfl, rfl, Nat.le_refl _⟩
  exact hdone.trans (fail_sheds _ _ _)

theorem acceptTimeout_sheds : Sheds c c.acceptTimeout.1 := by
  unfold acceptTimeout
  split
  · have hfired : Sheds c { c with acceptTimer := false } := ⟨rfl, rfl, rfl, rfl, Nat.le_refl _⟩
    exact hfired.trans (fail_sheds _ _ _)
  · exact .refl c

theorem stallTimeout_sheds : Sheds c c.stallTimeout.1 := by
  unfold stallTimeout
  split
  · have hfired : Sheds c { c with stallTimer := false } := ⟨rfl, rfl, rfl, rfl, Nat.le_refl _⟩
    exact hfired.trans (fail_sheds _ _ _)
  · exact .refl c

theorem onResetHanded_sheds : Sheds c c.onResetHanded.1 := by
  have hhanded : Sheds c { c with resetHanded := true } := ⟨rfl, rfl, rfl, rfl, Nat.le_refl _⟩
  exact hhanded.trans (checkDone_sheds _)

theorem onItemHanded_sheds (item : QueueItem) (unsentBytes : Nat) :
    Sheds c (c.onItemHanded item unsentBytes).1 := by
  unfold onItemHanded
  split
  · have hhanded : Sheds c { c with endHanded := true } := ⟨rfl, rfl, rfl, rfl, Nat.le_refl _⟩
    exact hhanded.trans (checkDone_sheds _)
  · exact ⟨rfl, rfl, rfl, rfl, Nat.le_refl _⟩

theorem cancel_sheds : Sheds c c.cancel.1 := by
  unfold cancel
  split
  · unfold cancelReadable
    split
    · exact ⟨rfl, rfl, rfl, rfl, Nat.le_refl _⟩
    · dsimp only
      split
      · exact ⟨rfl, rfl, rfl, rfl, Nat.zero_le _⟩
      · exact ⟨rfl, rfl, rfl, rfl, Nat.zero_le _⟩
  · exact .refl c

theorem write_sheds (chunk : Bytes) : Sheds c (c.write chunk) := by
  unfold write
  split <;> exact ⟨rfl, rfl, rfl, rfl, Nat.le_refl _⟩

theorem close_sheds : Sheds c c.close := by
  unfold close
  split <;> exact ⟨rfl, rfl, rfl, rfl, Nat.le_refl _⟩

theorem abortWritable_sheds : Sheds c c.abortWritable := by
  unfold abortWritable
  split <;> exact ⟨rfl, rfl, rfl, rfl, Nat.le_refl _⟩

theorem whenCredit_sheds (unsentBytes : Nat) : Sheds c (c.whenCredit unsentBytes) := by
  unfold whenCredit
  split <;> exact ⟨rfl, rfl, rfl, rfl, Nat.le_refl _⟩

theorem writeLoop_sheds (unsentBytes : Nat) : ∀ (fuel : Nat) (c : Channel),
    Sheds c (writeLoop fuel c unsentBytes).1
  | 0, c => .refl c
  | fuel + 1, c => by
    unfold writeLoop
    split
    · exact .refl c
    · rename_i rest hrest
      split
      · exact ⟨rfl, rfl, rfl, rfl, Nat.le_refl _⟩
      · split
        · exact ⟨rfl, rfl, rfl, rfl, Nat.le_refl _⟩
        · dsimp only
          split
          · have htaken : ∀ n, Sheds c ({ c with writing := some (rest.drop n) }.take
                (rest.take n)).1 := fun n => ⟨rfl, rfl, rfl, rfl, Nat.le_refl _⟩
            exact (htaken _).trans (writeLoop_sheds unsentBytes fuel _)
          · exact ⟨rfl, rfl, rfl, rfl, Nat.le_refl _⟩

theorem resumeWrite_sheds (unsentBytes : Nat) : Sheds c (c.resumeWrite unsentBytes).1 := by
  unfold resumeWrite
  split
  · exact .refl c
  · exact writeLoop_sheds _ _ _

theorem sinkNext_sheds (unsentBytes : Nat) : Sheds c (c.sinkNext unsentBytes).1 := by
  unfold sinkNext
  split
  · exact .refl c
  · split
    · rename_i chunk rest hqueue
      have hnext : Sheds c { c with writeQueue := rest, writing := some chunk } :=
        ⟨rfl, rfl, rfl, rfl, Nat.le_refl _⟩
      exact hnext.trans (writeLoop_sheds _ _ _)
    · split
      · unfold closeSink
        split
        · exact ⟨rfl, rfl, rfl, rfl, Nat.le_refl _⟩
        · split <;> exact ⟨rfl, rfl, rfl, rfl, Nat.le_refl _⟩
      · exact .refl c

/-! ### Methods that receive or hand on -/

theorem storeLoop_held : ∀ (fuel : Nat) (payload : Bytes) (inQueue : List Bytes) (inTail : Bytes),
    ((storeLoop fuel payload inQueue inTail).1.map List.length).sum +
      (storeLoop fuel payload inQueue inTail).2.length ≤
        (inQueue.map List.length).sum + inTail.length + payload.length
  | 0, payload, inQueue, inTail => by
    rw [storeLoop]
    exact Nat.le_add_right _ _
  | fuel + 1, [], inQueue, inTail => by
    rw [storeLoop]
    exact Nat.le_add_right _ _
  | fuel + 1, b :: payload, inQueue, inTail => by
    rw [storeLoop]
    swap
    · simp
    generalize hroom : min (maxDataBytes - inTail.length) (b :: payload).length = room
    have hle : room ≤ (b :: payload).length := by omega
    have hlen : (inTail ++ (b :: payload).take room).length = inTail.length + room := by
      rw [List.length_append, List.length_take, Nat.min_eq_left hle]
    have hrest : ((b :: payload).drop room).length = (b :: payload).length - room := by
      rw [List.length_drop]
    split
    · have ih := storeLoop_held fuel ((b :: payload).drop room)
        (inQueue ++ [inTail ++ (b :: payload).take room]) []
      rw [List.map_append, List.sum_append, List.map_singleton, List.sum_singleton, hlen, hrest,
        List.length_nil] at ih
      omega
    · have ih := storeLoop_held fuel ((b :: payload).drop room) inQueue
        (inTail ++ (b :: payload).take room)
      rw [hlen, hrest] at ih
      omega

theorem store_held (payload : Bytes) :
    (c.store payload).heldBytes ≤ c.heldBytes + payload.length := by
  unfold store
  split
  · simp only [heldBytes, List.map_append, List.sum_append, List.map_singleton, List.sum_singleton]
    omega
  · exact storeLoop_held _ _ _ _

theorem store_fields (payload : Bytes) : (c.store payload).ownedByUs = c.ownedByUs ∧
    (c.store payload).granted = c.granted ∧ (c.store payload).received = c.received ∧
      (c.store payload).readTotal = c.readTotal := by
  unfold store
  split <;> exact ⟨rfl, rfl, rfl, rfl⟩

theorem nextChunk_held {chunk : Bytes} {rest : Channel} (h : c.nextChunk = some (chunk, rest)) :
    chunk.length + rest.heldBytes = c.heldBytes ∧ rest.ownedByUs = c.ownedByUs ∧
      rest.granted = c.granted ∧ rest.received = c.received ∧ rest.readTotal = c.readTotal := by
  unfold nextChunk at h
  split at h
  · rename_i chunk' queue hqueue
    cases h
    refine ⟨?_, rfl, rfl, rfl, rfl⟩
    simp only [heldBytes, hqueue, List.map_cons, List.sum_cons]
    omega
  · rename_i hqueue
    split at h
    · cases h
    · cases h
      refine ⟨?_, rfl, rfl, rfl, rfl⟩
      simp [heldBytes, hqueue]

theorem deliverOne_keeps : Keeps c c.deliverOne.1 := by
  unfold deliverOne
  split
  · exact .refl c
  · split
    · rename_i chunk rest hnext
      obtain ⟨hheld, howned, hgranted, hreceived, hread⟩ := c.nextChunk_held hnext
      refine ⟨howned, fun hw => ⟨?_, ?_, ?_⟩⟩
      · change rest.granted ≤ rest.readTotal + chunk.length
        have hle := hw.granted
        omega
      · change rest.received ≤ channelWindow + rest.granted
        rw [hgranted, hreceived]
        exact hw.window
      · -- what is handed on is held no more
        change rest.readTotal + chunk.length + rest.heldBytes ≤ rest.received
        have hle := hw.held
        omega
    · split
      · have hclosed : Sheds c { c with wantRead := false, readable := .closed } :=
          ⟨rfl, rfl, rfl, rfl, Nat.le_refl _⟩
        exact hclosed.keeps
      · exact .refl c

theorem grant_keeps : Keeps c c.grant.1 := by
  unfold grant
  dsimp only
  split
  · exact .refl c
  · split
    · exact .refl c
    · refine ⟨rfl, fun hw => ⟨?_, ?_, hw.held⟩⟩
      · change c.granted + (c.readTotal - c.granted) ≤ c.readTotal
        have hle := hw.granted
        omega
      · change c.received ≤ channelWindow + (c.granted + (c.readTotal - c.granted))
        have hle := hw.window
        omega

theorem deliver_keeps : ∀ (again : Nat) (c : Channel), Keeps c (deliver again c).1
  | 0, c => by
    unfold deliver
    dsimp only
    split
    · exact c.deliverOne_keeps.trans (grant_keeps _)
    · exact c.deliverOne_keeps
  | again + 1, c => by
    unfold deliver
    dsimp only
    split
    · have hwant : Sheds c.deliverOne.1 { c.deliverOne.1 with wantRead := true } :=
        ⟨rfl, rfl, rfl, rfl, Nat.le_refl _⟩
      have hinner := (c.deliverOne_keeps.trans hwant.keeps).trans (deliver_keeps again _)
      exact hinner.trans (grant_keeps _)
    · exact c.deliverOne_keeps

/-- A payload that fits the window is taken in. -/
theorem stored_keeps {payload : Bytes}
    (hroom : ¬ channelWindow + c.granted < c.received + payload.length) :
    Keeps c ({ c with received := c.received + payload.length }.store payload) := by
  obtain ⟨howned, hgranted, hreceived, hread⟩ := store_fields
    { c with received := c.received + payload.length } payload
  refine ⟨howned, fun hw => ⟨?_, ?_, ?_⟩⟩
  · rw [hgranted, hread]
    exact hw.granted
  · rw [hgranted, hreceived]
    exact Nat.le_of_not_lt hroom
  · have hstored := store_held { c with received := c.received + payload.length } payload
    have hsame : ({ c with received := c.received + payload.length } : Channel).heldBytes =
        c.heldBytes := rfl
    have hle := hw.held
    rw [hread, hreceived]
    change c.readTotal + _ ≤ c.received + payload.length
    omega

theorem onData_keeps (payload : Bytes) (again : Nat) : Keeps c (c.onData payload again).1 := by
  unfold onData
  split
  · exact .refl c
  · split
    · exact (c.invalid_sheds _).keeps
    · split
      · exact .refl c
      · split
        · exact (c.invalid_sheds _).keeps
        · split
          · exact (c.invalid_sheds _).keeps
          · rename_i hroom
            split
            · exact .refl c
            · exact (c.stored_keeps hroom).trans (deliver_keeps again _)

theorem onEnd_keeps (again : Nat) : Keeps c (c.onEnd again).1 := by
  have hended : Sheds c { c with inEnded := true } := ⟨rfl, rfl, rfl, rfl, Nat.le_refl _⟩
  unfold onEnd
  split
  · exact (hended.trans (checkDone_sheds _)).keeps
  · split
    · exact (c.invalid_sheds _).keeps
    · exact (hended.keeps.trans (deliver_keeps again _)).trans (checkDone_sheds _).keeps

theorem pull_keeps (again : Nat) : Keeps c (c.pull again).1 := by
  unfold pull
  split
  · have hwant : Sheds c { c with wantRead := true } := ⟨rfl, rfl, rfl, rfl, Nat.le_refl _⟩
    exact hwant.keeps.trans (deliver_keeps again _)
  · exact .refl c

theorem checkDone_failure : c.checkDone.1.failure = c.failure := by
  unfold checkDone
  split
  · rfl
  · split <;> rfl

/-- A rule that is broken ends a channel that runs. -/
theorem invalid_fails (rule : String) (h : c.failure.isSome = false) :
    (c.invalid rule).1.failure.isSome = true := by
  unfold invalid fail
  rw [h]
  dsimp only
  split
  · contradiction
  · split
    · rw [checkDone_failure]
      rfl
    · rw [checkDone_failure]
      rfl

/-- A `DATA` that would leave more than the window unread is dropped, or ends the channel. -/
theorem onData_beyond (h : Within c) {payload : Bytes} (again : Nat)
    (hbeyond : c.readTotal + channelWindow < c.received + payload.length) :
    (c.onData payload again).1 = c ∨ (c.onData payload again).1.failure.isSome = true := by
  unfold onData
  split
  · exact .inl rfl
  · rename_i hfailure
    have hruns : c.failure.isSome = false := by simpa using hfailure
    split
    · exact .inr (c.invalid_fails _ hruns)
    · split
      · exact .inl rfl
      · split
        · exact .inr (c.invalid_fails _ hruns)
        · split
          · exact .inr (c.invalid_fails _ hruns)
          · rename_i hroom
            have hgranted := h.granted
            omega

end Channel

/-! ### The table of channels -/

/-- What an end knows of its channels, whatever its peer sends. -/
structure TableOk (l : Link) : Prop where
  nodup : l.channels.Nodup
  known : ∀ n ∈ l.channels, ∃ c, l.objects n = some c
  nextOwn : l.nextOwn % 2 = l.ownParity
  owned : ∀ n c, l.objects n = some c → (c.ownedByUs = true ↔ n % 2 = l.ownParity)
  own : ∀ n c, l.objects n = some c → n % 2 = l.ownParity → n < l.nextOwn
  peer : ∀ n c, l.objects n = some c → n % 2 ≠ l.ownParity → n ≤ l.highestPeer
  peerOpen : (l.channels.countP (fun n => n % 2 ≠ l.ownParity) : Int) ≤ l.peerOpen
  limit : l.peerOpen ≤ openLimit
  within : ∀ n c, l.objects n = some c → Within c

/-- Two ends with the same channels. -/
structure SameChannels (l l' : Link) : Prop where
  worker : l'.worker = l.worker
  channels : l'.channels = l.channels
  objects : l'.objects = l.objects
  nextOwn : l'.nextOwn = l.nextOwn
  highestPeer : l'.highestPeer = l.highestPeer
  peerOpen : l'.peerOpen = l.peerOpen

theorem SameChannels.refl (l : Link) : SameChannels l l := ⟨rfl, rfl, rfl, rfl, rfl, rfl⟩

theorem TableOk.same {l l' : Link} (h : TableOk l) (t : SameChannels l l') : TableOk l' := by
  have hparity : l'.ownParity = l.ownParity := by rw [Link.ownParity, Link.ownParity, t.worker]
  refine ⟨?_, ?_, ?_, ?_, ?_, ?_, ?_, ?_, ?_⟩
  · rw [t.channels]
    exact h.nodup
  · rw [t.channels, t.objects]
    exact h.known
  · rw [t.nextOwn, hparity]
    exact h.nextOwn
  · rw [t.objects, hparity]
    exact h.owned
  · rw [t.objects, hparity, t.nextOwn]
    exact h.own
  · rw [t.objects, hparity, t.highestPeer]
    exact h.peer
  · rw [t.channels, hparity, t.peerOpen]
    exact h.peerOpen
  · rw [t.peerOpen]
    exact h.limit
  · rw [t.objects]
    exact h.within

/-! ### What an end does to its table -/

section
variable {l : Link}

theorem TableOk.create (worker : Bool) : TableOk (Link.create worker) := by
  have hnone : ∀ n c, (Link.create worker).objects n ≠ some c := by
    intro n c hc
    change (none : Option Channel) = some c at hc
    cases hc
  refine ⟨List.nodup_nil, fun n hn => absurd hn List.not_mem_nil, ?_,
    fun n c hc => absurd hc (hnone n c), fun n c hc => absurd hc (hnone n c),
    fun n c hc => absurd hc (hnone n c), le_refl (0 : Int), Int.natCast_nonneg _,
    fun n c hc => absurd hc (hnone n c)⟩
  cases worker <;> rfl

/-- Channel objects are replaced, by objects their own methods made. -/
theorem TableOk.replace {objects : Nat → Option Channel} (h : TableOk l)
    (hback : ∀ n c', objects n = some c' → ∃ c, l.objects n = some c ∧ Keeps c c')
    (hon : ∀ n c, l.objects n = some c → ∃ c', objects n = some c') :
    TableOk { l with objects := objects } := by
  refine ⟨h.nodup, fun n hn => ?_, h.nextOwn, ?_, ?_, ?_, h.peerOpen, h.limit, ?_⟩
  · obtain ⟨c, hc⟩ := h.known n hn
    exact hon n c hc
  · intro n c' hc'
    obtain ⟨c, hc, hkeeps⟩ := hback n c' hc'
    rw [hkeeps.ownedByUs]
    exact h.owned n c hc
  · intro n c' hc'
    obtain ⟨c, hc, -⟩ := hback n c' hc'
    exact h.own n c hc
  · intro n c' hc'
    obtain ⟨c, hc, -⟩ := hback n c' hc'
    exact h.peer n c hc
  · intro n c' hc'
    obtain ⟨c, hc, hkeeps⟩ := hback n c' hc'
    exact hkeeps.within (h.within n c hc)

theorem TableOk.put {n : Nat} {c b : Channel} (h : TableOk l) (hc : l.objects n = some c)
    (hkeeps : Keeps c b) : TableOk (l.put n b) := by
  refine h.replace (fun k d hd => ?_) (fun k d hd => ?_)
  · by_cases hk : k = n
    · subst hk
      rw [Function.update_self] at hd
      cases hd
      exact ⟨c, hc, hkeeps⟩
    · rw [Function.update_of_ne hk] at hd
      exact ⟨d, hd, .refl d⟩
  · by_cases hk : k = n
    · subst hk
      exact ⟨b, Function.update_self _ _ _⟩
    · exact ⟨d, by rw [Function.update_of_ne hk]; exact hd⟩

/-- A channel under a number that no channel had. -/
theorem TableOk.unused_own (h : TableOk l) : l.objects l.nextOwn = none := by
  cases hobject : l.objects l.nextOwn with
  | none => rfl
  | some c => exact absurd (h.own _ c hobject h.nextOwn) (Nat.lt_irrefl _)

theorem TableOk.unused_peer (h : TableOk l) {n : Nat} (hparity : n % 2 ≠ l.ownParity)
    (hhigh : l.highestPeer < n) : l.objects n = none := by
  cases hobject : l.objects n with
  | none => rfl
  | some c => exact absurd (h.peer _ c hobject hparity) (Nat.not_le_of_lt hhigh)

theorem new_within (number : Nat) (id : String) (ownedByUs : Bool) :
    Within (Channel.new number id ownedByUs) :=
  ⟨Nat.le_refl _, Nat.zero_le _, Nat.le_refl _⟩

theorem TableOk.not_mem {n : Nat} (h : TableOk l) (hnone : l.objects n = none) :
    n ∉ l.channels := by
  intro hmem
  obtain ⟨c, hc⟩ := h.known n hmem
  rw [hnone] at hc
  cases hc

/-- The table with one more channel, under a number that no channel had. -/
theorem TableOk.insert {l' : Link} {n : Nat} {c : Channel} (h : TableOk l)
    (hnone : l.objects n = none) (hworker : l'.worker = l.worker)
    (hchannels : l'.channels = l.channels ++ [n])
    (hobjects : l'.objects = Function.update l.objects n (some c))
    (hnext : l'.nextOwn % 2 = l.ownParity) (hnextOwn : l.nextOwn ≤ l'.nextOwn)
    (hhigh : l.highestPeer ≤ l'.highestPeer)
    (howned : c.ownedByUs = true ↔ n % 2 = l.ownParity)
    (hown : n % 2 = l.ownParity → n < l'.nextOwn) (hpeer : n % 2 ≠ l.ownParity → n ≤ l'.highestPeer)
    (hopen : ((l.channels ++ [n]).countP (fun n => n % 2 ≠ l.ownParity) : Int) ≤ l'.peerOpen)
    (hlimit : l'.peerOpen ≤ openLimit) (hwithin : Within c) : TableOk l' := by
  have hparity : l'.ownParity = l.ownParity := by rw [Link.ownParity, Link.ownParity, hworker]
  have hof : ∀ k d, l'.objects k = some d → k = n ∧ d = c ∨ l.objects k = some d := by
    intro k d hd
    rw [hobjects] at hd
    by_cases hk : k = n
    · subst hk
      rw [Function.update_self] at hd
      exact .inl ⟨rfl, (Option.some.inj hd).symm⟩
    · rw [Function.update_of_ne hk] at hd
      exact .inr hd
  refine ⟨?_, ?_, ?_, ?_, ?_, ?_, ?_, hlimit, ?_⟩
  · rw [hchannels]
    refine List.nodup_append.mpr ⟨h.nodup, by simp, fun x hx y hy hxy => ?_⟩
    rw [List.mem_singleton.mp hy] at hxy
    exact h.not_mem hnone (hxy ▸ hx)
  · intro k hk
    rw [hchannels] at hk
    rw [hobjects]
    by_cases hkn : k = n
    · subst hkn
      exact ⟨c, Function.update_self _ _ _⟩
    · rcases List.mem_append.mp hk with hold | hnew
      · obtain ⟨d, hd⟩ := h.known k hold
        exact ⟨d, by rw [Function.update_of_ne hkn]; exact hd⟩
      · exact absurd (List.mem_singleton.mp hnew) hkn
  · rw [hparity]
    exact hnext
  · intro k d hd
    rw [hparity]
    rcases hof k d hd with ⟨rfl, rfl⟩ | hold
    · exact howned
    · exact h.owned k d hold
  · intro k d hd hk
    rw [hparity] at hk
    rcases hof k d hd with ⟨rfl, rfl⟩ | hold
    · exact hown hk
    · exact (h.own k d hold hk).trans_le hnextOwn
  · intro k d hd hk
    rw [hparity] at hk
    rcases hof k d hd with ⟨rfl, rfl⟩ | hold
    · exact hpeer hk
    · exact (h.peer k d hold hk).trans hhigh
  · rw [hchannels, hparity]
    exact hopen
  · intro k d hd
    rcases hof k d hd with ⟨rfl, rfl⟩ | hold
    · exact hwithin
    · exact h.within k d hold

/-- The table is still in order, and every channel object is still the one it was. -/
structure Grows (l l' : Link) : Prop where
  table : TableOk l'
  objects : ∀ n c, l.objects n = some c → l'.objects n = some c

theorem Grows.trans {l l' l'' : Link} (h : Grows l l') (k : Grows l' l'') : Grows l l'' :=
  ⟨k.table, fun n c hc => k.objects n c (h.objects n c hc)⟩

theorem TableOk.grows {l' : Link} (h : TableOk l) (t : SameChannels l l') : Grows l l' :=
  ⟨h.same t, fun n c hc => by rw [t.objects]; exact hc⟩

theorem warn_same (w : Warning) : SameChannels l (l.warn w) := ⟨rfl, rfl, rfl, rfl, rfl, rfl⟩

theorem binary_same (e : Envelope) : SameChannels l (l.binary e) := by
  unfold Link.binary
  split
  · exact .refl l
  · exact ⟨rfl, rfl, rfl, rfl, rfl, rfl⟩

theorem text_same (text : String) : SameChannels l (l.text text) := by
  unfold Link.text
  split
  · exact .refl l
  · exact ⟨rfl, rfl, rfl, rfl, rfl, rfl⟩

theorem addBulk_same (n : Nat) : SameChannels l (l.addBulk n) := by
  unfold Link.addBulk
  split
  · exact .refl l
  · exact ⟨rfl, rfl, rfl, rfl, rfl, rfl⟩

theorem removeBulk_same (n : Nat) : SameChannels l (l.removeBulk n) := by
  unfold Link.removeBulk
  split
  · exact ⟨rfl, rfl, rfl, rfl, rfl, rfl⟩
  · exact .refl l

theorem rotate_same (n : Nat) (rest : List Nat) (more : Bool) :
    SameChannels l (l.rotate n rest more) := by
  unfold Link.rotate
  split <;> exact ⟨rfl, rfl, rfl, rfl, rfl, rfl⟩

theorem TableOk.openOwn (h : TableOk l) (hcl : l.closed = false) : Grows l l.openOwn.1 := by
  rcases openOwn_spec hcl with ⟨ws, ids, heq, -⟩ | ⟨id, rest, -, -, -, heq⟩
  · rw [heq]
    exact h.grows ⟨rfl, rfl, rfl, rfl, rfl, rfl⟩
  · rw [heq]
    have hnone := h.unused_own
    refine ⟨?_, fun n c hc => ?_⟩
    · refine h.insert hnone rfl rfl rfl ?_ (Nat.le_add_right _ _) (Nat.le_refl _) ?_
        (fun _ => Nat.lt_add_of_pos_right (by decide)) (fun hne => absurd h.nextOwn hne) ?_ h.limit
        (new_within _ _ _)
      · change (l.nextOwn + 2) % 2 = l.ownParity
        rw [Nat.add_mod_right]
        exact h.nextOwn
      · simp only [Channel.new, h.nextOwn]
      · change _ ≤ l.peerOpen
        simpa [List.countP_append, h.nextOwn] using h.peerOpen
    · have hne : n ≠ l.nextOwn := by
        rintro rfl
        rw [hnone] at hc
        cases hc
      change Function.update l.objects l.nextOwn _ n = some c
      rw [Function.update_of_ne hne]
      exact hc

theorem TableOk.drainWaiters (ws : List Nat) (h : TableOk l) : Grows l (Link.drainWaiters ws l) := by
  refine drainWaiters_induct (P := fun l' => Grows l l') (fun l' waiters hl' => ?_)
    (fun l' hl' hcl _ => hl'.trans (hl'.table.openOwn hcl)) ws l ⟨h, fun _ _ hc => hc⟩
  exact hl'.trans (hl'.table.grows ⟨rfl, rfl, rfl, rfl, rfl, rfl⟩)

/-- A channel leaves the table; the counter goes down by one exactly when the peer opened it. -/
theorem TableOk.forget {n : Nat} (h : TableOk l) (hn : n ∈ l.channels) : Grows l (l.forget n) := by
  obtain ⟨c, hc⟩ := h.known n hn
  have howned := h.owned n c hc
  have hmem : ∀ k ∈ l.channels.erase n, k ∈ l.channels := fun k hk => List.mem_of_mem_erase hk
  have hcount := (List.perm_cons_erase hn).countP_eq (fun n => decide (n % 2 ≠ l.ownParity))
  rw [List.countP_cons] at hcount
  have hopen := h.peerOpen
  have hlimit := h.limit
  unfold Link.forget
  rw [hc]
  dsimp only
  split
  · rename_i hours
    have hparity := howned.mp hours
    refine ⟨⟨h.nodup.erase n, fun k hk => h.known k (hmem k hk), h.nextOwn, h.owned, h.own, h.peer,
      ?_, hlimit, h.within⟩, fun _ _ hk => hk⟩
    rw [if_neg (by simpa using hparity)] at hcount
    change ((l.channels.erase n).countP (fun n => n % 2 ≠ l.ownParity) : Int) ≤ l.peerOpen
    omega
  · rename_i htheirs
    have hparity : n % 2 ≠ l.ownParity := fun hpar => htheirs (howned.mpr hpar)
    rw [if_pos (by simpa using hparity)] at hcount
    refine ⟨⟨h.nodup.erase n, fun k hk => h.known k (hmem k hk), h.nextOwn, h.owned, h.own, h.peer,
      ?_, ?_, h.within⟩, fun _ _ hk => hk⟩
    · change ((l.channels.erase n).countP (fun n => n % 2 ≠ l.ownParity) : Int) ≤ l.peerOpen - 1
      omega
    · change l.peerOpen - 1 ≤ openLimit
      omega

theorem TableOk.channelDone (n : Nat) (h : TableOk l) : Grows l (l.channelDone n) := by
  unfold Link.channelDone
  split
  · rename_i hn
    exact (h.forget hn).trans ((h.forget hn).table.drainWaiters _)
  · exact ⟨h, fun _ _ hc => hc⟩

theorem TableOk.perform (n : Nat) (call : HostCall) (h : TableOk l) :
    Grows l (l.perform n call) := by
  cases call with
  | binary e => exact h.grows (binary_same e)
  | addBulk => exact h.grows (addBulk_same n)
  | removeBulk => exact h.grows (removeBulk_same n)
  | channelDone => exact h.channelDone n
  | warn message => exact h.grows (warn_same _)

theorem TableOk.performs (n : Nat) : ∀ (calls : List HostCall) {l : Link}, TableOk l →
    Grows l (calls.foldl (Link.perform n) l)
  | [], _, h => ⟨h, fun _ _ hc => hc⟩
  | call :: calls, _, h =>
    (h.perform n call).trans (TableOk.performs n calls (h.perform n call).table)

/-- A method runs on a channel, and the host its calls. -/
theorem TableOk.on (n : Nat) {op : Channel → Channel × List HostCall} (h : TableOk l)
    (hop : ∀ c, l.objects n = some c → Keeps c (op c).1) : TableOk (l.on n op) := by
  unfold Link.on
  split
  · exact h
  · rename_i c hc
    exact (TableOk.performs n _ (h.put hc (hop c hc))).table

/-- The channel the method ran on is as the method left it. -/
theorem TableOk.on_object {n : Nat} {op : Channel → Channel × List HostCall} (h : TableOk l)
    {c : Channel} (hc : l.objects n = some c) (hop : Keeps c (op c).1) :
    (l.on n op).objects n = some (op c).1 := by
  unfold Link.on
  rw [hc]
  exact (TableOk.performs n _ (h.put hc hop)).objects n _ (Function.update_self _ _ _)

/-! ### What an end does by itself -/

theorem appCall_keeps (unsentBytes : Nat) (call : AppCall) (c : Channel) :
    Keeps c (appCall unsentBytes call c).1 := by
  cases call with
  | write chunk => exact (c.write_sheds chunk).keeps
  | close => exact c.close_sheds.keeps
  | abortWritable => exact c.abortWritable_sheds.keeps
  | read again => exact c.pull_keeps again
  | cancel => exact c.cancel_sheds.keeps
  | abort reason => exact (c.fail_sheds _ _).keeps
  | whenCredit => exact (c.whenCredit_sheds unsentBytes).keeps

/-- The channels in the table are replaced, each by what a method made of it. -/
theorem TableOk.replaceLive (h : TableOk l) (op : Channel → Channel)
    (hop : ∀ c, Keeps c (op c)) :
    TableOk { l with objects := fun n =>
      if n ∈ l.channels then (l.objects n).map op else l.objects n } := by
  refine h.replace (fun n c' hc' => ?_) (fun n c hc => ?_)
  · split at hc'
    · obtain ⟨c, hc, rfl⟩ := Option.map_eq_some_iff.mp hc'
      exact ⟨c, hc, hop c⟩
    · exact ⟨c', hc', .refl c'⟩
  · split
    · exact ⟨op c, by rw [hc]; rfl⟩
    · exact ⟨c, hc⟩

theorem TableOk.onTransportClosed (h : TableOk l) : TableOk l.onTransportClosed := by
  unfold Link.onTransportClosed
  split
  · exact h
  · have hclosed := h.replaceLive (fun c => (c.closeWith ⟨.closed, none⟩).1)
      (fun c => (c.closeWith_sheds _).keeps)
    have hnone : (0 : Int) ≤ l.peerOpen := (Int.natCast_nonneg _).trans h.peerOpen
    exact ⟨List.nodup_nil, fun n hn => absurd hn List.not_mem_nil, h.nextOwn, hclosed.owned,
      hclosed.own, hclosed.peer, hnone, h.limit, hclosed.within⟩

theorem TableOk.localStep (a : LocalAction) (h : TableOk l) : TableOk (l.localStep a) := by
  cases a with
  | openChannel w =>
    change TableOk (l.openChannel w)
    unfold Link.openChannel
    split
    · exact h
    · rename_i hcl
      split
      · exact (h.openOwn (by simpa using hcl)).table
      · exact h.same ⟨rfl, rfl, rfl, rfl, rfl, rfl⟩
  | abortWaiter w => exact h.same ⟨rfl, rfl, rfl, rfl, rfl, rfl⟩
  | acceptChannel id =>
    change TableOk (l.acceptChannel id)
    unfold Link.acceptChannel
    split
    · exact h
    · refine TableOk.on _ (h.same ⟨rfl, rfl, rfl, rfl, rfl, rfl⟩) (fun c _ => ?_)
      exact ⟨rfl, fun hw => ⟨hw.granted, hw.window, hw.held⟩⟩
  | app n call =>
    refine h.on n (fun c _ => ?_)
    split
    · exact appCall_keeps _ call c
    · exact .refl c
  | sink n => exact h.on n (fun c _ => (c.sinkNext_sheds _).keeps)
  | resume n => exact h.on n (fun c _ => (c.resumeWrite_sheds _).keeps)
  | written n =>
    exact h.on n (fun c _ => ⟨rfl, fun hw => ⟨hw.granted, hw.window, hw.held⟩⟩)
  | acceptTimeout n => exact h.on n (fun c _ => c.acceptTimeout_sheds.keeps)
  | stallTimeout n => exact h.on n (fun c _ => c.stallTimeout_sheds.keeps)
  | sent unsentBytes =>
    exact (h.replaceLive _ (fun c => (c.updateStall_sheds unsentBytes).keeps)).same
      ⟨rfl, rfl, rfl, rfl, rfl, rfl⟩
  | sendText t => exact h.same (text_same t)
  | generate ids => exact h.same ⟨rfl, rfl, rfl, rfl, rfl, rfl⟩
  | close => exact h.onTransportClosed

theorem TableOk.onPriorityHanded (e : Envelope) (h : TableOk l) :
    TableOk (l.onPriorityHanded e) := by
  unfold Link.onPriorityHanded
  split
  · exact h.on _ (fun c _ => ⟨rfl, fun hw => ⟨hw.granted, hw.window, hw.held⟩⟩)
  · exact h.on _ (fun c _ => c.onResetHanded_sheds.keeps)
  · exact h

theorem TableOk.pump (h : TableOk l) : TableOk l.pump.1 := by
  unfold Link.pump
  split
  · exact h
  · dsimp only
    split
    · unfold Link.sendPriority
      split
      · exact h
      · exact h.same ⟨rfl, rfl, rfl, rfl, rfl, rfl⟩
      · exact TableOk.onPriorityHanded _ (h.same ⟨rfl, rfl, rfl, rfl, rfl, rfl⟩)
    · split
      · unfold Link.sendBulk
        split
        · exact h
        · split
          · exact TableOk.same h (rotate_same _ _ false)
          · rename_i c hc
            split
            · exact TableOk.same h (rotate_same _ _ false)
            · rename_i item queue hqueue
              have hput := h.put hc (b := { c with queue := queue })
                ⟨rfl, fun hw => ⟨hw.granted, hw.window, hw.held⟩⟩
              refine TableOk.on _ ((hput.same (rotate_same _ _ _)).same
                ⟨rfl, rfl, rfl, rfl, rfl, rfl⟩) (fun d _ => ?_)
              exact (d.onItemHanded_sheds item _).keeps
      · exact h

/-! ### What an end receives -/

/-- Every `OPEN`, also one that no conforming peer sends. -/
theorem TableOk.onOpen (number : Nat) (payload : Bytes) (h : TableOk l) :
    TableOk (l.onOpen number payload) := by
  unfold Link.onOpen
  split
  · exact h.same (warn_same _)
  · rename_i hparity
    have hpar : number % 2 ≠ l.ownParity := by
      simp only [Bool.or_eq_true, decide_eq_true_eq, not_or] at hparity
      exact hparity.1
    split
    · exact h.same (warn_same _)
    · rename_i hhigh
      split
      · exact h.same (warn_same _)
      · rename_i hroom
        split
        · exact h.same (warn_same _)
        · split
          · exact h.same (warn_same _)
          · have hnone := h.unused_peer hpar (Nat.lt_of_not_le hhigh)
            refine h.insert hnone rfl rfl rfl h.nextOwn (Nat.le_refl _)
              (Nat.le_of_not_le hhigh) ?_ (fun heq => absurd heq hpar) (fun _ => Nat.le_refl _)
              ?_ ?_ (new_within _ _ _)
            · simp [Channel.new, hpar]
            · change _ ≤ l.peerOpen + 1
              rw [List.countP_append]
              have hopen := h.peerOpen
              rw [List.countP_singleton, if_pos (by simpa using hpar)]
              push_cast
              omega
            · change l.peerOpen + 1 ≤ openLimit
              omega

/-- Every byte sequence, also one that is no message. -/
theorem TableOk.onBinary (bytes : Bytes) (again : Nat) (h : TableOk l) :
    TableOk (l.onBinary bytes again) := by
  unfold Link.onBinary
  split
  · exact h.same (warn_same _)
  · rename_i e he
    split
    · exact h.same (warn_same _)
    · exact h.onOpen _ _
    · rename_i type _ htype
      split
      · cases type with
        | OPEN => exact h
        | DATA => exact h.on _ (fun c _ => c.onData_keeps _ again)
        | END => exact h.on _ (fun c _ => c.onEnd_keeps again)
        | STOP => exact h.on _ (fun c _ => c.onStop_sheds.keeps)
        | CREDIT => exact h.on _ (fun c _ => (c.onCredit_sheds _ _).keeps)
        | RESET => exact h.on _ (fun c _ => (c.onReset_sheds _).keeps)
      · split
        · exact h
        · exact h.same (warn_same _)

/-- An `OPEN` that finds every slot taken is dropped. -/
theorem onOpen_full (hfull : openLimit ≤ l.peerOpen) (number : Nat) (payload : Bytes) :
    SameChannels l (l.onOpen number payload) := by
  unfold Link.onOpen
  split
  · exact warn_same _
  · split
    · exact warn_same _
    · exact warn_same _

/-- What a `DATA` message makes of the channel it names. -/
theorem TableOk.onBinary_data (h : TableOk l) {bytes : Bytes} (again : Nat) {e : ParsedEnvelope}
    (he : parseEnvelope bytes = some e) (htype : isEnvelopeType e.type = some .DATA) {c : Channel}
    (hc : l.objects e.number = some c) :
    (l.onBinary bytes again).objects e.number = some c ∨
      (l.onBinary bytes again).objects e.number = some (c.onData e.payload again).1 := by
  unfold Link.onBinary
  rw [he]
  dsimp only
  rw [htype]
  dsimp only
  split
  · exact .inr (h.on_object hc (c.onData_keeps _ again))
  · split
    · exact .inl hc
    · exact .inl hc

end

/-! ### Runs against an arbitrary peer -/

/-- A step of an end whose peer may send anything at any moment. -/
inductive AnyPeerAction where
  | act (a : LocalAction)
  | pump
  | receiveText (text : String)
  | receive (bytes : Bytes) (again : Nat)
  deriving DecidableEq, Repr

def anyPeerStep (l : Link) : AnyPeerAction → Link
  | .act a => l.localStep a
  | .pump => l.pump.1
  | .receiveText text => l.onMessage 0 (.text text)
  | .receive bytes again => l.onBinary bytes again

theorem TableOk.anyPeerStep {l : Link} (a : AnyPeerAction) (h : TableOk l) :
    TableOk (anyPeerStep l a) := by
  cases a with
  | act a => exact h.localStep a
  | pump => exact h.pump
  | receiveText text => exact h.same ⟨rfl, rfl, rfl, rfl, rfl, rfl⟩
  | receive bytes again => exact h.onBinary bytes again

theorem TableOk.run (worker : Bool) (acts : List AnyPeerAction) :
    TableOk (Lib.run Link.anyPeerStep (Link.create worker) acts) :=
  run_invariant (fun _ a h => h.anyPeerStep a) acts _ (.create worker)

theorem TableOk.livePeer_le {l : Link} (h : TableOk l) : (livePeer l : Int) ≤ l.peerOpen := by
  refine le_of_eq_of_le ?_ h.peerOpen
  rw [livePeer]
  congr 1
  refine List.countP_congr fun n hn => ?_
  obtain ⟨c, hc⟩ := h.known n hn
  have howned := h.owned n c hc
  simp only [hc, Option.any_some, Bool.not_eq_true', decide_eq_true_eq, ne_eq]
  rw [← howned, Bool.not_eq_true]

/-- What a peer can make an end hold, and what becomes of a message that would break a bound. -/
structure Bounded (l : Link) : Prop where
  channels : livePeer l ≤ openLimit
  unread : ∀ n c, l.objects n = some c →
    c.received ≤ c.readTotal + channelWindow ∧ c.heldBytes ≤ channelWindow
  dropsOpen : livePeer l = openLimit → ∀ bytes again e, parseEnvelope bytes = some e →
    isEnvelopeType e.type = some .OPEN → SameChannels l (l.onBinary bytes again)
  endsOnData : ∀ bytes again e, parseEnvelope bytes = some e →
    isEnvelopeType e.type = some .DATA → ∀ c, l.objects e.number = some c →
      c.readTotal + channelWindow < c.received + e.payload.length →
        ∃ c', (l.onBinary bytes again).objects e.number = some c' ∧
          (c' = c ∨ c'.failure.isSome = true)

theorem TableOk.bounded {l : Link} (h : TableOk l) : Bounded l := by
  have hlive := h.livePeer_le
  have hlimit := h.limit
  refine ⟨?_, fun n c hc => ?_, fun hfull bytes again e he htype => ?_,
    fun bytes again e he htype c hc hbeyond => ?_⟩
  · omega
  · have hw := h.within n c hc
    have hgranted := hw.granted
    have hwindow := hw.window
    have hheld := hw.held
    constructor <;> omega
  · unfold Link.onBinary
    rw [he]
    dsimp only
    rw [htype]
    refine onOpen_full ?_ _ _
    omega
  · rcases h.onBinary_data again he htype hc with hsame | hdata
    · exact ⟨c, hsame, .inl rfl⟩
    · exact ⟨_, hdata, c.onData_beyond (h.within _ c hc) again hbeyond⟩

/-- Receiver memory is bounded against any peer. -/
theorem receiver_memory_bounded (worker : Bool) (acts : List AnyPeerAction) :
    Bounded (Lib.run Link.anyPeerStep (Link.create worker) acts) := (TableOk.run worker acts).bounded

end Simlock.Link
