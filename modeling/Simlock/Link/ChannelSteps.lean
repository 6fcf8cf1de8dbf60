import Simlock.Link.Direction

/-! What each method of a channel changes, in the terms of its two directions.

    A method that neither hands a message over nor receives one is a `LocalStep`: a local change of
    both halves, with messages for the priority lane that a conforming end may send. The methods
    that receive or hand over are described by the change of `Snd` and `Rcv` they make. -/

namespace Simlock.Link

/-- The messages among a channel's host calls. -/
def frames (calls : List HostCall) : List Envelope :=
  calls.filterMap (fun | .binary e => some e | _ => none)

@[simp] theorem frames_append (as bs : List HostCall) : frames (as ++ bs) = frames as ++ frames bs := by
  simp [frames]

/-- What holds of a channel object by itself. -/
structure ChanOk (c : Channel) : Prop where
  tail : c.inTail.length < maxDataBytes
  want : c.wantRead = true → c.readable = .readable
  valid : ∀ f, c.failure = some f → f.reason ≠ .invalid
  items : ∀ i ∈ c.queue, i.envelope.number = c.number

/-- A call of channel `c` that a conforming end may make while the channel stays live. -/
def CallOk (c : Channel) : HostCall → Prop
  | .binary e => e.number = c.number ∧ e.isBulk = false ∧ e.type ≠ .OPEN
  | .addBulk => c.openHanded = true
  | .removeBulk => True
  | .channelDone => False
  | .warn _ => False

structure LocalStep (c c' : Channel) (calls : List HostCall) : Prop where
  snd : SndLocal c.snd c'.snd
  rcv : RcvLocal c.rcv c'.rcv (frames calls)
  ok : ChanOk c → ChanOk c'
  number : c'.number = c.number
  id : c'.id = c.id
  owned : c'.ownedByUs = c.ownedByUs
  opened : c'.openHanded = c.openHanded
  done : c'.done = c.done
  failed : c.failure.isSome = true → c'.failure.isSome = true
  calls : ∀ x ∈ calls, CallOk c x

theorem LocalStep.refl (c : Channel) : LocalStep c c [] :=
  ⟨.refl _, .refl _, fun ok => ok, rfl, rfl, rfl, rfl, rfl, fun h => h, by simp⟩

theorem LocalStep.trans {c c' c'' : Channel} {as bs : List HostCall} (h : LocalStep c c' as)
    (k : LocalStep c' c'' bs) : LocalStep c c'' (as ++ bs) := by
  refine ⟨h.snd.trans k.snd, frames_append as bs ▸ h.rcv.trans k.rcv, fun ok => k.ok (h.ok ok),
    k.number.trans h.number, k.id.trans h.id, k.owned.trans h.owned, k.opened.trans h.opened,
    k.done.trans h.done, fun hf => k.failed (h.failed hf), ?_⟩
  intro x hx
  rcases List.mem_append.mp hx with hx | hx
  · exact h.calls x hx
  · have := k.calls x hx
    cases x with
    | binary e => exact ⟨this.1.trans h.number, this.2⟩
    | addBulk => exact h.opened.symm.trans this
    | removeBulk => trivial
    | channelDone => exact this
    | warn m => exact this

/-! ### Cutting and packing bytes -/

theorem pieces_flatten : ∀ (fuel : Nat) (chunk : Bytes), chunk.length ≤ fuel →
    (Channel.pieces fuel chunk).flatten = chunk
  | 0, chunk, h => by
    have : chunk = [] := List.length_eq_zero_iff.mp (by omega)
    simp [Channel.pieces, this]
  | fuel + 1, [], _ => rfl
  | fuel + 1, b :: chunk, h => by
    have hlen : ((b :: chunk).drop maxDataBytes).length ≤ fuel := by
      simp only [List.length_drop, List.length_cons, maxDataBytes, KIB] at h ⊢
      omega
    rw [Channel.pieces, List.flatten_cons, pieces_flatten fuel _ hlen, List.take_append_drop]
    simp

theorem pieces_length : ∀ (fuel : Nat) (chunk piece : Bytes), piece ∈ Channel.pieces fuel chunk →
    0 < piece.length ∧ piece.length ≤ maxDataBytes
  | 0, _, _, h => by simp [Channel.pieces] at h
  | _ + 1, [], _, h => by simp [Channel.pieces] at h
  | fuel + 1, b :: chunk, piece, h => by
    rw [Channel.pieces] at h
    rcases List.mem_cons.mp h with rfl | h
    · simp only [List.length_take, List.length_cons, maxDataBytes, KIB]
      omega
    · exact pieces_length fuel _ piece h
    · simp

theorem storeLoop_spec : ∀ (fuel : Nat) (payload : Bytes) (q : List Bytes) (t : Bytes),
    payload.length ≤ fuel → t.length < maxDataBytes →
    (Channel.storeLoop fuel payload q t).1.flatten ++ (Channel.storeLoop fuel payload q t).2 =
      q.flatten ++ t ++ payload ∧ (Channel.storeLoop fuel payload q t).2.length < maxDataBytes
  | 0, payload, q, t, h, ht => by
    have : payload = [] := List.length_eq_zero_iff.mp (by omega)
    simp [Channel.storeLoop, this, ht]
  | fuel + 1, [], q, t, _, ht => by simp [Channel.storeLoop, ht]
  | fuel + 1, b :: payload, q, t, h, ht => by
    rw [Channel.storeLoop]
    swap
    · simp
    generalize hroom : min (maxDataBytes - t.length) (b :: payload).length = room
    have hpos : 0 < room := by simp only [List.length_cons] at hroom; omega
    have hle : room ≤ maxDataBytes - t.length := by omega
    have hrest : ((b :: payload).drop room).length ≤ fuel := by
      simp only [List.length_drop, List.length_cons] at h ⊢; omega
    split
    · have ih := storeLoop_spec fuel ((b :: payload).drop room)
        (q ++ [t ++ (b :: payload).take room]) [] hrest (by simp [maxDataBytes, KIB])
      refine ⟨?_, ih.2⟩
      rw [ih.1]
      simp [List.append_assoc]
    · next hne =>
      have hlt : (t ++ (b :: payload).take room).length < maxDataBytes := by
        simp only [List.length_append, List.length_take] at hne ⊢; omega
      have ih := storeLoop_spec fuel ((b :: payload).drop room) q (t ++ (b :: payload).take room)
        hrest hlt
      refine ⟨?_, ih.2⟩
      rw [ih.1]
      simp [List.append_assoc]

namespace Channel

variable {c : Channel}

/-- A step that touches nothing the directions rest on. -/
theorem localStep_of_eq {c' : Channel} (hsnd : c'.snd = c.snd) (hrcv : c'.rcv = c.rcv)
    (hok : ChanOk c → ChanOk c') (hn : c'.number = c.number) (hid : c'.id = c.id)
    (how : c'.ownedByUs = c.ownedByUs) (hop : c'.openHanded = c.openHanded)
    (hd : c'.done = c.done) : LocalStep c c' [] :=
  ⟨hsnd ▸ .refl _, hrcv ▸ .refl _, hok, hn, hid, how, hop, hd,
    fun hf => (congrArg Rcv.failed hrcv).trans hf, by simp⟩

theorem updateStall_step (u : Nat) : LocalStep c (c.updateStall u) [] :=
  localStep_of_eq rfl rfl (fun h => ⟨h.tail, h.want, h.valid, h.items⟩) rfl rfl rfl rfl rfl

theorem markAccepted_step : LocalStep c c.markAccepted [] :=
  localStep_of_eq rfl rfl (fun h => ⟨h.tail, h.want, h.valid, h.items⟩) rfl rfl rfl rfl rfl

theorem onItemWritten_step (u : Nat) : LocalStep c (c.onItemWritten u) [] :=
  localStep_of_eq rfl rfl (fun h => ⟨h.tail, h.want, h.valid, h.items⟩) rfl rfl rfl rfl rfl

theorem whenCredit_step (u : Nat) : LocalStep c (c.whenCredit u) [] := by
  unfold whenCredit
  split
  · exact .refl c
  · exact localStep_of_eq rfl rfl (fun h => ⟨h.tail, h.want, h.valid, h.items⟩) rfl rfl rfl rfl rfl

/-! ### Failing -/

theorem checkDone_of_done (h : c.done = (c.ours && c.theirs)) : c.checkDone = (c, []) := by
  unfold checkDone
  cases hd : c.done with
  | true => simp
  | false =>
    rw [hd] at h
    cases ho : c.ours <;> cases ht : c.theirs <;> simp_all

theorem failed_snd (error : LinkChannelError) : SndLocal c.snd (c.failed error).snd := by
  have hdrain : ∀ ok : SndOk c.snd, c.writable = .closed → c.writing.getD [] = [] ∧
      c.writeQueue.flatten = [] := fun ok h => List.append_eq_nil_iff.mp (ok.drained h)
  refine ⟨?_, rfl, rfl, rfl, rfl, rfl, ?_, [], by simp [failed, snd, failOutgoing], ?_⟩
  · intro ok
    refine ⟨by simp [failed, snd], by simp [failed, snd], by simp [failed, snd],
      fun h => ⟨rfl, (ok.endGone h).2⟩, rfl, ?_, fun _ => rfl, ok.stopped, ?_, ?_⟩
    · exact le_trans (Nat.le_add_right _ _) ok.window
    · intro he hs
      have := ok.closed he hs
      simp [failed, snd, failOutgoing, show c.writable = .closed from this]
    · intro hc
      have hwr : c.writable = .closed := by
        by_contra hne
        simp [failed, snd, failOutgoing, hne] at hc
      simp [failed, snd, failOutgoing, (hdrain ok hwr).1]
  · intro h
    exact ⟨by simp [failed, snd, failOutgoing, show c.writable = .closed from h], rfl⟩
  · intro rest ok owes
    refine ⟨queueBytes c.queue ++ rest, by simp [failed, snd, queueBytes, dataBytes], ?_⟩
    rintro hs (hf | he)
    · simp [failed, snd] at hf
    -- the END is out, so nothing of the queue is dropped
    have hq : c.queue = [] := (ok.endGone he).1
    obtain ⟨tail, htail, hnil⟩ := owes hs (.inr he)
    refine ⟨c.writeQueue.flatten ++ tail, ?_, ?_⟩
    · rw [htail, hq]
      simp [failed, snd, failOutgoing, queueBytes, dataBytes]
    · intro hne
      have hwr : c.writable = .closed := by
        by_contra hnc
        simp [failed, snd, failOutgoing, hnc] at hne
      rw [(hdrain ok hwr).2, hnil (by rw [show c.snd.writable = .closed from hwr]; decide)]
      rfl

theorem failed_rcv (error : LinkChannelError) {fs : List Envelope} (hok : ∀ e ∈ fs, e.Ok)
    (hcred : credits fs = 0) (hstop : stops fs = 0) :
    RcvLocal c.rcv (c.failed error).rcv fs := by
  refine ⟨?_, rfl, rfl, rfl, fun _ => by rw [hcred]; rfl, fun _ => hok, .inl ⟨rfl, hstop⟩, ?_, .inl rfl, ?_⟩
  · intro ok
    refine ⟨ok.granted, ?_, ok.window, ?_, fun _ => rfl, ?_⟩
    · exact le_trans (Nat.add_le_add_left (by simp [failed, rcv]) _) ok.read
    · intro h
      exfalso
      revert h
      simp only [failed, rcv]
      split <;> simp_all
    · intro h
      have hcan : c.readable = .cancelled := ok.stop h
      simp [failed, rcv, hcan]
  · intro h
    exfalso
    revert h
    simp only [failed, rcv]
    split <;> simp_all
  · intro h
    refine .inl ⟨?_, rfl⟩
    revert h
    simp only [failed, rcv]
    split <;> simp_all

theorem resetFrame_ok {n : Nat} {r : ResetReason} (hr : r ≠ .invalid) : (encodeReset n r).Ok :=
  ⟨r, hr, rfl⟩

theorem failed_ok {error : LinkChannelError} (herr : error.reason ≠ .invalid) :
    ChanOk (c.failed error) := by
  refine ⟨by simp [failed, maxDataBytes, KIB], by simp [failed], ?_, by simp [failed]⟩
  intro f hf
  simp only [failed, Option.some.injEq] at hf
  exact hf ▸ herr

theorem failed_step {error : LinkChannelError} (herr : error.reason ≠ .invalid) :
    LocalStep c (c.failed error) [.removeBulk] :=
  ⟨failed_snd error, failed_rcv error (by simp [frames]) rfl rfl, fun _ => failed_ok herr, rfl, rfl,
    rfl, rfl, rfl, fun _ => rfl, by simp [CallOk]⟩

theorem failedReset_step {error : LinkChannelError} {r : ResetReason}
    (herr : error.reason ≠ .invalid) (hr : r ≠ .invalid) :
    LocalStep c { c.failed error with resetQueued := true }
      [.removeBulk, .binary (encodeReset c.number r)] := by
  have hok := failed_ok (c := c) herr
  refine ⟨failed_snd error, failed_rcv error ?_ rfl rfl, fun _ => ⟨hok.tail, hok.want, hok.valid, hok.items⟩,
    rfl, rfl, rfl, rfl, rfl, fun _ => rfl, ?_⟩
  · simpa [frames] using resetFrame_ok hr
  · simp [CallOk, encodeReset, Envelope.isBulk]

theorem fail_quiet {error : LinkChannelError} (hf : c.failure.isSome = false) :
    c.fail error none = ((c.failed error).checkDone.1, .removeBulk :: (c.failed error).checkDone.2) := by
  simp [fail, hf]

theorem fail_reset {error : LinkChannelError} {r : ResetReason} (hf : c.failure.isSome = false)
    (hq : c.resetQueued = false) :
    c.fail error (some r) = (({ c.failed error with resetQueued := true } : Channel).checkDone.1,
      [.removeBulk, .binary (encodeReset c.number r)] ++
        ({ c.failed error with resetQueued := true } : Channel).checkDone.2) := by
  simp [fail, hf, hq]

/-- `#fail` of a channel whose end state is up to date. -/
theorem fail_step {error : LinkChannelError} {send : Option ResetReason}
    (hd : c.failure.isSome = false → c.done = (c.ours && c.theirs))
    (herr : error.reason ≠ .invalid) (hsend : ∀ r, send = some r → r ≠ .invalid) :
    LocalStep c (c.fail error send).1 (c.fail error send).2 := by
  have hnone := failed_step (c := c) herr
  unfold fail
  split
  · exact .refl c
  · next hf =>
    have hd' : (c.failed error).done = ((c.failed error).ours && (c.failed error).theirs) :=
      hd (by simpa using hf)
    cases hs : send with
    | none => simpa [checkDone_of_done hd'] using hnone
    | some r =>
      dsimp only
      split
      · simpa [checkDone_of_done hd'] using hnone
      · have hdone := checkDone_of_done (c := { c.failed error with resetQueued := true }) hd'
        rw [hdone]
        exact failedReset_step herr (hsend r hs)

theorem abort_step (reason : Option String)
    (hd : c.failure.isSome = false → c.done = (c.ours && c.theirs)) :
    LocalStep c (c.abort reason).1 (c.abort reason).2 :=
  fail_step hd (by simp) (by simp)

theorem acceptTimeout_step (hd : c.failure.isSome = false → c.done = (c.ours && c.theirs)) :
    LocalStep c c.acceptTimeout.1 c.acceptTimeout.2 := by
  unfold acceptTimeout
  split
  · have hpre : LocalStep c { c with acceptTimer := false } [] :=
      localStep_of_eq rfl rfl (fun h => ⟨h.tail, h.want, h.valid, h.items⟩) rfl rfl rfl rfl rfl
    exact hpre.trans (fail_step hd (by simp) (by simp))
  · exact .refl c

theorem stallTimeout_step (hd : c.failure.isSome = false → c.done = (c.ours && c.theirs)) :
    LocalStep c c.stallTimeout.1 c.stallTimeout.2 := by
  unfold stallTimeout
  split
  · have hpre : LocalStep c { c with stallTimer := false } [] :=
      localStep_of_eq rfl rfl (fun h => ⟨h.tail, h.want, h.valid, h.items⟩) rfl rfl rfl rfl rfl
    exact hpre.trans (fail_step hd (by simp) (by simp))
  · exact .refl c

/-! ### Writing -/

/-- A step of the sending half alone. -/
theorem localStep_of_snd {c' : Channel} {calls : List HostCall} (hsnd : SndLocal c.snd c'.snd)
    (hrcv : c'.rcv = c.rcv) (hok : ChanOk c → ChanOk c') (hn : c'.number = c.number)
    (hid : c'.id = c.id) (how : c'.ownedByUs = c.ownedByUs) (hop : c'.openHanded = c.openHanded)
    (hd : c'.done = c.done) (hcalls : ∀ x ∈ calls, x = .addBulk ∧ c.openHanded = true) :
    LocalStep c c' calls := by
  have hframes : frames calls = [] := by
    simp only [frames, List.filterMap_eq_nil_iff]
    intro x hx
    rw [(hcalls x hx).1]
  refine ⟨hsnd, by rw [hrcv, hframes]; exact .refl _, hok, hn, hid, how, hop, hd,
    fun hf => (congrArg Rcv.failed hrcv).trans hf, ?_⟩
  intro x hx
  rw [(hcalls x hx).1]
  exact (hcalls x hx).2

theorem write_step (chunk : Bytes) : LocalStep c (c.write chunk) [] := by
  unfold write
  split
  · next hw =>
    refine localStep_of_snd ?_ rfl (fun h => ⟨h.tail, h.want, h.valid, h.items⟩) rfl rfl rfl rfl rfl (by simp)
    have hne : c.snd.writable ≠ .closed := by rw [show c.snd.writable = .writable from hw]; decide
    refine ⟨fun ok => ⟨ok.items, ok.endLast, ok.endItem, ok.endGone, ok.sum, ok.window, ok.failed,
      ok.stopped, ok.closed, fun h => absurd h hne⟩, rfl, rfl, rfl, rfl, rfl,
      fun h => absurd h hne, chunk, rfl, ?_⟩
    intro rest ok owes
    refine ⟨rest ++ chunk, by simp [snd], ?_⟩
    intro hs hcase
    obtain ⟨tail, htail, hnil⟩ := owes hs hcase
    have : tail = [] := hnil (by rw [show c.snd.writable = .writable from hw]; decide)
    refine ⟨[], ?_, fun _ => rfl⟩
    rw [htail, this]
    simp [snd]
  · exact .refl c

theorem close_step : LocalStep c c.close [] := by
  unfold close
  split
  · next hw =>
    refine localStep_of_snd ?_ rfl (fun h => ⟨h.tail, h.want, h.valid, h.items⟩) rfl rfl rfl rfl rfl (by simp)
    have hne : c.snd.writable ≠ .closed := by rw [show c.snd.writable = .writable from hw]; decide
    refine ⟨fun ok => ⟨ok.items, ok.endLast, ok.endItem, ok.endGone, ok.sum, ok.window, ok.failed,
      ok.stopped, fun he hs => absurd (ok.closed he hs) hne, by simp [snd]⟩, rfl, rfl, rfl, rfl, rfl,
      fun h => absurd h hne, [], by simp [snd], ?_⟩
    intro rest ok owes
    refine ⟨rest, by simp [snd], fun hs hcase => ?_⟩
    obtain ⟨tail, htail, hnil⟩ := owes hs hcase
    exact ⟨tail, htail, fun _ => hnil (by rw [show c.snd.writable = .writable from hw]; decide)⟩
  · exact .refl c

theorem abortWritable_step : LocalStep c c.abortWritable [] := by
  unfold abortWritable
  split
  · exact .refl c
  · next hw =>
    refine localStep_of_snd ?_ rfl (fun h => ⟨h.tail, h.want, h.valid, h.items⟩) rfl rfl rfl rfl rfl (by simp)
    refine ⟨fun ok => ⟨ok.items, ok.endLast, ok.endItem, ok.endGone, ok.sum, ok.window, ok.failed,
      ok.stopped, fun he hs => absurd (ok.closed he hs) hw, by simp [snd]⟩, rfl, rfl, rfl, rfl, rfl,
      fun h => absurd h hw, [], by simp [snd], ?_⟩
    intro rest ok owes
    refine ⟨rest, by simp [snd], fun hs hcase => ?_⟩
    obtain ⟨tail, htail, -⟩ := owes hs hcase
    exact ⟨c.writeQueue.flatten ++ tail, by rw [htail]; simp [snd], fun h => absurd rfl h⟩

theorem queueBytes_dataItems (cut : List Bytes) :
    queueBytes (cut.map c.dataItem) = cut.flatten := by
  induction cut with
  | nil => rfl
  | cons b cut ih =>
    simp only [queueBytes, List.map_cons, dataBytes, dataItem, if_true, List.flatten_cons] at ih ⊢
    rw [ih]

/-- `#take` of the next `n` bytes of the write in progress, within the credit. -/
theorem take_step {rest : Bytes} {n : Nat} (hw : c.writing = some rest) (hn : n ≤ c.credit)
    (hpos : 0 < n) (hf : c.failure.isSome = false) :
    LocalStep c ({ c with writing := some (rest.drop n) }.take (rest.take n)).1
      ({ c with writing := some (rest.drop n) }.take (rest.take n)).2 := by
  have hcred : c.endQueued = false ∧ c.stoppedByPeer = false ∧
      c.handed + c.queuedBytes + n ≤ c.allowance := by
    unfold credit at hn
    split at hn
    · omega
    · next h =>
      simp only [Bool.or_eq_true, not_or, Bool.not_eq_true] at h
      exact ⟨h.1.2, h.2, by omega⟩
  have hflat := pieces_flatten (rest.take n).length (rest.take n) (le_refl _)
  have hlen : ((pieces (rest.take n).length (rest.take n)).map List.length).sum ≤ n := by
    rw [← List.length_flatten, hflat, List.length_take]; omega
  refine localStep_of_snd ?_ rfl (fun h => ⟨h.tail, h.want, h.valid, ?_⟩) rfl rfl rfl rfl rfl ?_
  rotate_left
  · refine List.forall_mem_append.mpr ⟨h.items, fun i hi => ?_⟩
    obtain ⟨b, -, rfl⟩ := List.mem_map.mp hi
    rfl
  · intro x hx
    simp only [take] at hx
    split at hx
    · next ho => exact ⟨by simpa using hx, ho⟩
    · simp at hx
  refine ⟨fun ok => ?_, rfl, rfl, rfl, rfl, rfl, ?_, [], by simp [take, snd], ?_⟩
  · have hnew : ∀ i ∈ (pieces (rest.take n).length (rest.take n)).map c.dataItem,
        i.Ok ∧ i.isEnd = false := by
      intro i hi
      obtain ⟨b, hb, rfl⟩ := List.mem_map.mp hi
      exact ⟨.inl ⟨rfl, rfl, rfl, pieces_length _ _ b hb⟩, rfl⟩
    have hold : ∀ i ∈ c.queue, i.isEnd = false := by
      intro i hi
      cases he : i.isEnd with
      | false => rfl
      | true =>
        have := ok.endItem i hi he
        rw [show c.snd.endQueued = false from hcred.1] at this; cases this
    refine ⟨?_, ?_, ?_, ?_, ?_, ?_, ?_, ok.stopped, ?_, ?_⟩
    · exact List.forall_mem_append.mpr ⟨ok.items, fun i hi => (hnew i hi).1⟩
    · exact List.pairwise_append.mpr ⟨ok.endLast,
        List.Pairwise.imp_of_mem (fun hi _ _ => (hnew _ hi).2) (List.pairwise_of_forall fun _ _ => trivial),
        fun i hi _ _ => hold i hi⟩
    · intro i hi he
      rcases List.mem_append.mp hi with hi | hi
      · exact ok.endItem i hi he
      · rw [(hnew i hi).2] at he; cases he
    · intro he
      have := (ok.endGone he).2
      rw [show c.snd.endQueued = false from hcred.1] at this; cases this
    · have := ok.sum
      simp only [snd, take, List.map_append, List.sum_append, List.map_map] at this ⊢
      rw [this]
      rfl
    · simp only [snd, take]
      omega
    · exact fun h => absurd (hf.symm.trans h) (by decide)
    · exact fun he _ => absurd (hcred.1.symm.trans he) (by decide)
    · intro hc
      have := ok.drained hc
      simp only [snd, hw, Option.getD_some, List.append_eq_nil_iff] at this
      simp [snd, take, this.1, this.2]
  · exact fun h => ⟨h, rfl⟩
  · intro owed ok owes
    obtain ⟨tail, htail, hnil⟩ := owes hcred.2.1 (.inl hf)
    refine ⟨rest.drop n ++ c.writeQueue.flatten ++ tail, ?_, ?_⟩
    · rw [htail]
      simp only [snd, take, queueBytes_append, hw, Option.getD_some]
      rw [show queueBytes ((pieces (rest.take n).length (rest.take n)).map
        ({ c with writing := some (rest.drop n) } : Channel).dataItem) = rest.take n from by
          rw [queueBytes_dataItems, hflat]]
      simp only [List.append_assoc, List.append_nil]
      rw [← List.append_assoc (rest.take n), List.take_append_drop]
    · exact fun _ _ => ⟨tail, rfl, hnil⟩

/-- `#write` returns, or throws because the direction is over. -/
theorem endWriting_step (hw : c.writing.getD [] = [] ∨ c.failure.isSome = true ∨
    c.stoppedByPeer = true) : LocalStep c { c with writing := none } [] := by
  refine localStep_of_snd ?_ rfl (fun h => ⟨h.tail, h.want, h.valid, h.items⟩) rfl rfl rfl rfl rfl (by simp)
  refine ⟨fun ok => ⟨ok.items, ok.endLast, ok.endItem, ok.endGone, ok.sum, ok.window, ok.failed,
    ok.stopped, ok.closed, fun h => ?_⟩, rfl, rfl, rfl, rfl, rfl, fun h => ⟨h, rfl⟩, [],
    by simp [snd], ?_⟩
  · simpa [snd] using (List.append_eq_nil_iff.mp (ok.drained h)).2
  · intro rest ok owes
    refine ⟨rest, by simp [snd], fun hs hcase => ?_⟩
    obtain ⟨tail, htail, hnil⟩ := owes hs hcase
    refine ⟨tail, ?_, hnil⟩
    have hnone : c.writing.getD [] = [] := by
      rcases hw with hw | hw | hw
      · exact hw
      · -- a failed sender still owes only if its END is out, and then nothing is left
        have he : c.endHanded = true := by
          rcases hcase with hf | he
          · exact absurd (hw.symm.trans hf) (by decide)
          · exact he
        have hclosed := ok.closed (ok.endGone he).2 hs
        exact (List.append_eq_nil_iff.mp (ok.drained hclosed)).1
      · exact absurd (hw.symm.trans hs) (by decide)
    rw [htail]
    simp [snd, hnone]

theorem waitForCredit_step (u : Nat) :
    LocalStep c ({ c with pendingWrite := true }.updateStall u) [] :=
  localStep_of_eq rfl rfl (fun h => ⟨h.tail, h.want, h.valid, h.items⟩) rfl rfl rfl rfl rfl

theorem writeLoop_step (u : Nat) : ∀ (fuel : Nat) (c : Channel),
    LocalStep c (writeLoop fuel c u).1 (writeLoop fuel c u).2
  | 0, c => .refl c
  | fuel + 1, c => by
    unfold writeLoop
    cases hw : c.writing with
    | none => exact .refl c
    | some rest =>
      dsimp only
      split
      · next hempty => exact endWriting_step (.inl (by simpa [hw] using hempty))
      split
      · next hover =>
        rw [Bool.or_eq_true] at hover
        exact endWriting_step (.inr hover)
      · next hover =>
        simp only [Bool.or_eq_true, not_or, Bool.not_eq_true] at hover
        split
        · next hpos =>
          exact (take_step hw (Nat.min_le_left _ _) hpos hover.1).trans (writeLoop_step u fuel _)
        · rw [← hw]
          exact waitForCredit_step u

theorem resumeWrite_step (u : Nat) : LocalStep c (c.resumeWrite u).1 (c.resumeWrite u).2 := by
  unfold resumeWrite
  split
  · exact .refl c
  · exact writeLoop_step u _ c

/-- The sink's `close`, with every chunk passed on. -/
theorem closeSink_step (u : Nat) (hw : c.writable = .closing) (hp : c.snd.pending = []) :
    LocalStep c (c.closeSink u).1 (c.closeSink u).2 := by
  have hne : c.snd.writable ≠ .closed := by rw [show c.snd.writable = .closing from hw]; decide
  have hrun : c.snd.writable ≠ .errored := by rw [show c.snd.writable = .closing from hw]; decide
  unfold closeSink
  split
  · next hf =>
    refine localStep_of_snd ?_ rfl (fun h => ⟨h.tail, h.want, h.valid, h.items⟩) rfl rfl rfl rfl rfl (by simp)
    refine ⟨fun ok => ⟨ok.items, ok.endLast, ok.endItem, ok.endGone, ok.sum, ok.window, ok.failed,
      ok.stopped, fun he hs => absurd (ok.closed he hs) hne, by simp [snd]⟩, rfl, rfl, rfl, rfl, rfl,
      fun h => absurd h hne, [], by simp [snd], fun rest ok owes => ⟨rest, by simp [snd], ?_⟩⟩
    intro hs hcase
    obtain ⟨tail, htail, -⟩ := owes hs hcase
    exact ⟨tail, htail, fun h => absurd rfl h⟩
  split
  · refine localStep_of_snd ?_ rfl (fun h => ⟨h.tail, h.want, h.valid, h.items⟩) rfl rfl rfl rfl rfl (by simp)
    refine ⟨fun ok => ⟨ok.items, ok.endLast, ok.endItem, ok.endGone, ok.sum, ok.window, ok.failed,
      ok.stopped, fun _ _ => rfl, fun _ => hp⟩, rfl, rfl, rfl, rfl, rfl,
      fun h => absurd h hne, [], by simp [snd], fun rest ok owes => ⟨rest, by simp [snd], ?_⟩⟩
    intro hs hcase
    obtain ⟨tail, htail, hnil⟩ := owes hs hcase
    exact ⟨tail, htail, fun _ => hnil hrun⟩
  · next hf he =>
    refine localStep_of_snd ?_ rfl (fun h => ⟨h.tail, h.want, h.valid, ?_⟩) rfl rfl rfl rfl rfl ?_
    rotate_left
    · exact List.forall_mem_append.mpr ⟨h.items, fun i hi => List.mem_singleton.mp hi ▸ rfl⟩
    · intro x hx
      simp only [queueEnd] at hx
      split at hx
      · next ho => exact ⟨by simpa using hx, ho⟩
      · simp at hx
    refine ⟨fun ok => ?_, rfl, rfl, rfl, rfl, rfl, fun h => absurd h hne, [],
      by simp [snd, queueEnd, updateStall], fun rest ok owes => ⟨rest, ?_, ?_⟩⟩
    · have hold : ∀ i ∈ c.queue, i.isEnd = false := by
        intro i hi
        cases hend : i.isEnd with
        | false => rfl
        | true => exact absurd (ok.endItem i hi hend) he
      refine ⟨?_, ?_, fun _ _ _ => rfl, ?_, ?_, ok.window, ?_, fun _ => rfl, fun _ _ => rfl,
        fun _ => hp⟩
      · exact List.forall_mem_append.mpr ⟨ok.items, by simp [endItem, QueueItem.Ok]⟩
      · exact List.pairwise_append.mpr ⟨ok.endLast, List.pairwise_singleton _ _,
          fun i hi _ _ => hold i hi⟩
      · intro hh
        exact absurd (ok.endGone hh).2 he
      · have := ok.sum
        simp only [snd, queueEnd, updateStall, endItem, List.map_append, List.sum_append] at this ⊢
        simpa using this
      · exact fun h => absurd h hf
    · simp [snd, queueEnd, updateStall, queueBytes, dataBytes, endItem]
    · intro hs hcase
      obtain ⟨tail, htail, hnil⟩ := owes hs (.inl (by simpa [snd] using hf))
      exact ⟨tail, htail, fun _ => hnil hrun⟩

theorem sinkNext_step (u : Nat) : LocalStep c (c.sinkNext u).1 (c.sinkNext u).2 := by
  unfold sinkNext
  split
  · exact .refl c
  · next hw =>
    have hnone : c.writing = none := by simpa using hw
    cases hq : c.writeQueue with
    | nil =>
      dsimp only
      split
      · next hc => exact closeSink_step u hc (by simp [snd, hnone, hq])
      · exact .refl c
    | cons chunk rest =>
      have hpre : LocalStep c { c with writeQueue := rest, writing := some chunk } [] := by
        refine localStep_of_eq ?_ rfl (fun h => ⟨h.tail, h.want, h.valid, h.items⟩) rfl rfl rfl rfl rfl
        simp [snd, hnone, hq]
      exact hpre.trans (writeLoop_step u _ _)

/-! ### Reading -/

/-- A step of the receiving half alone. -/
theorem localStep_of_rcv {c' : Channel} {calls : List HostCall} (hsnd : c'.snd = c.snd)
    (hrcv : RcvLocal c.rcv c'.rcv (frames calls)) (hok : ChanOk c → ChanOk c')
    (hn : c'.number = c.number) (hid : c'.id = c.id) (how : c'.ownedByUs = c.ownedByUs)
    (hop : c'.openHanded = c.openHanded) (hd : c'.done = c.done)
    (hcalls : ∀ x ∈ calls, CallOk c x) : LocalStep c c' calls :=
  ⟨hsnd ▸ .refl _, hrcv, hok, hn, hid, how, hop, hd,
    fun hf => (congrArg Snd.failed hsnd).trans hf, hcalls⟩

theorem nextChunk_spec {chunk : Bytes} {c' : Channel} (h : c.nextChunk = some (chunk, c')) :
    chunk ++ (c'.inQueue.flatten ++ c'.inTail) = c.inQueue.flatten ++ c.inTail ∧
      c'.inTail.length ≤ c.inTail.length ∧
      c' = { c with inQueue := c'.inQueue, inTail := c'.inTail } := by
  unfold nextChunk at h
  cases hq : c.inQueue with
  | cons b rest =>
    simp only [hq, Option.some.injEq, Prod.mk.injEq] at h
    obtain ⟨rfl, rfl⟩ := h
    exact ⟨by simp, le_refl _, rfl⟩
  | nil =>
    simp only [hq] at h
    split at h
    · cases h
    · simp only [Option.some.injEq, Prod.mk.injEq] at h
      obtain ⟨rfl, rfl⟩ := h
      exact ⟨by simp, by simp, rfl⟩

theorem nextChunk_none (h : c.nextChunk = none) : c.inQueue.flatten ++ c.inTail = [] := by
  unfold nextChunk at h
  cases hq : c.inQueue with
  | cons b rest => simp [hq] at h
  | nil =>
    simp only [hq] at h
    split at h
    · next he => simpa using he
    · cases h

theorem grant_step : LocalStep c c.grant.1 c.grant.2 := by
  unfold grant
  dsimp only
  split
  · exact .refl c
  split
  · exact .refl c
  · next hpos _ =>
    simp only [Bool.or_eq_true, decide_eq_true_eq, not_or] at hpos
    have hget : ∀ ok : RcvOk c.rcv, c.readTotal - c.granted < 2 ^ 32 := by
      intro ok
      have h1 : c.readTotal + _ ≤ c.received := ok.read
      have h2 : c.received ≤ channelWindow + c.granted := ok.window
      simp only [channelWindow, KIB] at h2
      omega
    refine localStep_of_rcv rfl ⟨fun ok => ⟨?_, ok.read, ?_, ok.readable, ok.reset, ok.stop⟩, rfl,
      rfl, rfl, fun ok => ?_, fun ok => ?_, .inl ⟨rfl, rfl⟩, fun h => ⟨h, rfl⟩, .inl rfl,
      fun h => .inl ⟨h, rfl⟩⟩ (fun h => ⟨h.tail, h.want, h.valid, h.items⟩) rfl rfl rfl rfl rfl ?_
    · have h1 : c.granted ≤ c.readTotal := ok.granted
      simp only [rcv]; omega
    · have h2 : c.received ≤ channelWindow + c.granted := ok.window
      simp only [rcv]; omega
    · have := getUint32_setUint32 _ (hget ok) []
      rw [List.append_nil] at this
      simp [rcv, frames, credits, encodeCredit, this]
    · simp only [frames, List.filterMap_cons, List.filterMap_nil, List.mem_singleton]
      rintro e rfl
      exact ⟨_, by omega, hget ok, rfl⟩
    · simp [CallOk, encodeCredit, Envelope.isBulk]

theorem deliverOne_step (ok : ChanOk c) : LocalStep c c.deliverOne.1 [] ∧
    (c.deliverOne.2 = true → c.deliverOne.1.readable = .readable) := by
  unfold deliverOne
  split
  · exact ⟨.refl c, by simp⟩
  · next hw =>
    simp only [Bool.or_eq_true, Bool.not_eq_true', not_or, Bool.not_eq_false,
      Bool.not_eq_true] at hw
    have hread := ok.want hw.1
    cases hn : c.nextChunk with
    | some p =>
      obtain ⟨chunk, c'⟩ := p
      obtain ⟨hbytes, htail, hc'⟩ := nextChunk_spec hn
      have hlen := congrArg List.length hbytes
      simp only [List.length_append] at hlen
      dsimp only
      have hread' : c'.readable = .readable := by rw [hc']; exact hread
      refine ⟨localStep_of_rcv ?_ ⟨fun okr => ?_, ?_, ?_, ?_, fun _ => ?_, by simp [frames],
        .inl ⟨?_, rfl⟩, fun _ => ⟨hread, ?_⟩, .inr ⟨hread, ?_⟩, ?_⟩ (fun _ => ?_) ?_ ?_ ?_ ?_ ?_
        (by simp), fun _ => hread'⟩
      case refine_1 => rw [hc']; rfl
      case refine_2 =>
        have h1 : c.granted ≤ c.readTotal := okr.granted
        have h2 : c.readTotal + (c.inQueue.flatten ++ c.inTail).length ≤ c.received := okr.read
        simp only [List.length_append] at h2
        refine ⟨?_, ?_, ?_, ?_, ?_, ?_⟩
        · rw [hc']; simp only [enqueue, rcv]; omega
        · simp only [enqueue, rcv, List.length_append]
          rw [hc']
          simp only
          omega
        · rw [hc']; exact okr.window
        · rw [hc']; exact okr.readable
        · rw [hc']; exact okr.reset
        · rw [hc']; exact okr.stop
      case refine_3 => rw [hc']; rfl
      case refine_4 => rw [hc']; rfl
      case refine_5 => rw [hc']; rfl
      case refine_6 => rw [hc']; rfl
      case refine_7 => rw [hc']; rfl
      case refine_8 =>
        show (c'.given ++ [chunk]).flatten ++ (c'.inQueue.flatten ++ c'.inTail) = _
        rw [hc']
        simp only [rcv, List.flatten_append, List.flatten_cons, List.flatten_nil, List.append_nil,
          List.append_assoc]
        rw [hbytes]
      case refine_9 =>
        show (c'.given ++ [chunk]).flatten <+: _
        rw [hc']
        simp only [rcv, List.flatten_append, List.flatten_cons, List.flatten_nil, List.append_nil]
        rw [← hbytes, ← List.append_assoc]
        exact List.prefix_append _ _
      case refine_10 =>
        intro hcl
        have : c'.readable = .closed := hcl
        rw [hread'] at this; cases this
      case refine_11 =>
        exact ⟨lt_of_le_of_lt htail ok.tail, by simp [enqueue], by rw [hc']; exact ok.valid,
          by rw [hc']; exact ok.items⟩
      case refine_12 => rw [hc']; rfl
      case refine_13 => rw [hc']; rfl
      case refine_14 => rw [hc']; rfl
      case refine_15 => rw [hc']; rfl
      case refine_16 => rw [hc']; rfl
    | none =>
      have hheld := nextChunk_none hn
      dsimp only
      split
      · next hend =>
        refine ⟨localStep_of_rcv rfl ⟨fun okr => ⟨okr.granted, okr.read, okr.window, by simp [rcv],
          okr.reset, ?_⟩, rfl, rfl, rfl, fun _ => rfl, by simp [frames], .inl ⟨rfl, rfl⟩,
          by simp [rcv], .inl rfl, fun _ => .inr ⟨hread, hend, hw.2, ?_⟩⟩
          (fun h => ⟨h.tail, by simp, h.valid, h.items⟩) rfl rfl rfl rfl rfl (by simp), by simp⟩
        · exact fun h => absurd (hw.2.symm.trans h) (by decide)
        · simp only [rcv, hheld, List.append_nil]
      · exact ⟨.refl c, by simp⟩

theorem deliver_step : ∀ (again : Nat) (c : Channel), ChanOk c →
    LocalStep c (deliver again c).1 (deliver again c).2
  | 0, c, ok => by
    obtain ⟨h, -⟩ := deliverOne_step ok
    unfold deliver
    dsimp only
    split
    · exact h.trans grant_step
    · exact h
  | again + 1, c, ok => by
    obtain ⟨h, hread⟩ := deliverOne_step ok
    unfold deliver
    dsimp only
    split
    · next hgave =>
      have hok := h.ok ok
      have hwant : LocalStep c.deliverOne.1 { c.deliverOne.1 with wantRead := true } [] :=
        localStep_of_eq rfl rfl (fun h => ⟨h.tail, fun _ => hread hgave, h.valid, h.items⟩) rfl rfl rfl rfl rfl
      have hinner := deliver_step again { c.deliverOne.1 with wantRead := true } (hwant.ok hok)
      exact ((h.trans hwant).trans hinner).trans grant_step
    · exact h

theorem pull_step (again : Nat) (ok : ChanOk c) :
    LocalStep c (c.pull again).1 (c.pull again).2 := by
  unfold pull
  split
  · next hr =>
    have hwant : LocalStep c { c with wantRead := true } [] :=
      localStep_of_eq rfl rfl (fun h => ⟨h.tail, fun _ => hr, h.valid, h.items⟩) rfl rfl rfl rfl rfl
    exact hwant.trans (deliver_step again _ (hwant.ok ok))
  · exact .refl c

theorem cancel_step (okr : RcvOk c.rcv) : LocalStep c c.cancel.1 c.cancel.2 := by
  unfold cancel
  split
  swap
  · exact .refl c
  next hr =>
  unfold cancelReadable
  dsimp only
  split
  · next hover =>
    -- a readable stream that runs has neither failed nor stopped
    obtain ⟨h1, h2⟩ := okr.readable hr
    simp [show c.failure.isSome = false from h1, show c.stopSent = false from h2] at hover
  · next hrun =>
    simp only [Bool.or_eq_true, not_or, Bool.not_eq_true] at hrun
    have hread : ∀ ok : RcvOk c.rcv, c.readTotal ≤ c.received := fun ok =>
      le_trans (Nat.le_add_right _ _) ok.read
    split
    · exact localStep_of_rcv rfl ⟨fun ok => ⟨ok.granted, by simpa [rcv] using hread ok, ok.window,
        by simp [rcv], ok.reset, fun _ => rfl⟩, rfl, rfl, rfl, fun _ => rfl, by simp [frames],
        .inl ⟨rfl, rfl⟩, by simp [rcv], .inl rfl, by simp [rcv]⟩
        (fun h => ⟨by simp [maxDataBytes, KIB], by simp, h.valid, h.items⟩) rfl rfl rfl rfl rfl (by simp)
    · exact localStep_of_rcv rfl ⟨fun ok => ⟨ok.granted, by simpa [rcv] using hread ok, ok.window,
        by simp [rcv], ok.reset, fun _ => rfl⟩, rfl, rfl, rfl, fun _ => rfl,
        by simp [frames, Envelope.Ok], .inr ⟨hrun.1, rfl, rfl⟩, by simp [rcv], .inl rfl,
        by simp [rcv]⟩
        (fun h => ⟨by simp [maxDataBytes, KIB], by simp, h.valid, h.items⟩) rfl rfl rfl rfl rfl
        (by simp [CallOk, Envelope.isBulk])

end Channel

/-! ### Steps that may end a channel -/

/-- What the rest of the link may rely on through any step of a channel. -/
structure ObjStep (c c' : Channel) : Prop where
  ok : ChanOk c'
  number : c'.number = c.number
  id : c'.id = c.id
  owned : c'.ownedByUs = c.ownedByUs
  opened : c.openHanded = true → c'.openHanded = true
  ours : c.ours = true → c'.ours = true

/-- What any step of a channel keeps, and that `channelDone` is called once, last, when the channel
    comes to its end. -/
structure ChanStep (c c' : Channel) (calls : List HostCall) : Prop extends ObjStep c c' where
  done : c'.done = (c'.ours && c'.theirs)
  calls : ((∀ x ∈ calls, CallOk c' x) ∧ c'.done = c.done) ∨
    (∃ pre, calls = pre ++ [.channelDone] ∧ (∀ x ∈ pre, CallOk c' x) ∧ c.done = false ∧
      c'.done = true)

theorem LocalStep.ours {c c' : Channel} {calls : List HostCall} (h : LocalStep c c' calls) :
    c'.ours = c.ours := by
  have h1 : c'.resetHanded = c.resetHanded := h.snd.resetHanded
  have h2 : c'.endHanded = c.endHanded := h.snd.endHanded
  rw [Channel.ours, Channel.ours, h1, h2]

theorem LocalStep.theirs {c c' : Channel} {calls : List HostCall} (h : LocalStep c c' calls) :
    c'.theirs = c.theirs := by
  have h1 : c'.resetReceived = c.resetReceived := h.rcv.resetReceived
  have h2 : c'.inEnded = c.inEnded := h.rcv.inEnded
  rw [Channel.theirs, Channel.theirs, h1, h2]

theorem CallOk.of_eq {c c' : Channel} {x : HostCall} (h : CallOk c x) (hn : c'.number = c.number)
    (ho : c.openHanded = true → c'.openHanded = true) : CallOk c' x := by
  cases x with
  | binary e => exact ⟨h.1.trans hn.symm, h.2⟩
  | addBulk => exact ho h
  | removeBulk => trivial
  | channelDone => exact h
  | warn m => exact h

theorem LocalStep.obj {c c' : Channel} {calls : List HostCall} (h : LocalStep c c' calls)
    (ok : ChanOk c) : ObjStep c c' :=
  ⟨h.ok ok, h.number, h.id, h.owned, fun ho => h.opened.trans ho, fun ho => h.ours.trans ho⟩

theorem LocalStep.chan {c c' : Channel} {calls : List HostCall} (h : LocalStep c c' calls)
    (ok : ChanOk c) (hd : c.done = (c.ours && c.theirs)) : ChanStep c c' calls :=
  ⟨h.obj ok, by rw [h.ours, h.theirs, h.done]; exact hd,
    .inl ⟨fun x hx => (h.calls x hx).of_eq h.number (fun ho => h.opened.trans ho), h.done⟩⟩

/-- Moving the start of a step back over a change the host does not see. -/
theorem ChanStep.of_pre {c c₁ c' : Channel} {calls : List HostCall} (h : ChanStep c₁ c' calls)
    (hn : c₁.number = c.number) (hid : c₁.id = c.id) (how : c₁.ownedByUs = c.ownedByUs)
    (hop : c₁.openHanded = c.openHanded) (hd : c₁.done = c.done) (hours : c₁.ours = c.ours) :
    ChanStep c c' calls :=
  ⟨⟨h.ok, h.number.trans hn, h.id.trans hid, h.owned.trans how, fun ho => h.opened (hop.trans ho),
    fun ho => h.ours (hours.trans ho)⟩, h.done, by rw [← hd]; exact h.calls⟩

namespace Channel

variable {c : Channel}

/-- `#checkDone` after a step that left `done` behind. -/
theorem checkDone_spec (h : c.done = true → (c.ours && c.theirs) = true) :
    c.checkDone.1.done = (c.ours && c.theirs) ∧ c.checkDone.1.snd = c.snd ∧
      c.checkDone.1.rcv = c.rcv ∧ (ChanOk c → ChanOk c.checkDone.1) ∧
      c.checkDone.1.number = c.number ∧ c.checkDone.1.id = c.id ∧
      c.checkDone.1.ownedByUs = c.ownedByUs ∧ c.checkDone.1.openHanded = c.openHanded ∧
      ((c.checkDone.2 = [] ∧ c.checkDone.1.done = c.done) ∨
        (c.checkDone.2 = [.removeBulk, .channelDone] ∧ c.done = false ∧
          c.checkDone.1.done = true)) := by
  unfold checkDone
  cases hd : c.done with
  | true =>
    rw [if_pos rfl]
    exact ⟨hd.trans (h hd).symm, rfl, rfl, fun ok => ok, rfl, rfl, rfl, rfl, .inl ⟨rfl, hd⟩⟩
  | false =>
    rw [if_neg (by simp)]
    by_cases hot : (!c.ours || !c.theirs) = true
    · rw [if_pos hot]
      refine ⟨?_, rfl, rfl, fun ok => ok, rfl, rfl, rfl, rfl, .inl ⟨rfl, hd⟩⟩
      rw [hd]
      cases ho : c.ours <;> cases ht : c.theirs <;> simp_all
    · rw [if_neg hot]
      refine ⟨?_, rfl, rfl, fun ok => ⟨ok.tail, ok.want, ok.valid, ok.items⟩, rfl, rfl, rfl, rfl,
        .inr ⟨rfl, rfl, rfl⟩⟩
      cases ho : c.ours <;> cases ht : c.theirs <;> simp_all

/-- A step that sets a mark of the end (`c₁`), goes on locally and then checks for the end. -/
theorem checkDone_chan {c₁ c₂ : Channel} {calls : List HostCall} (hl : LocalStep c₁ c₂ calls)
    (ok : ChanOk c₁) (hd : c.done = (c.ours && c.theirs)) (hdone : c₁.done = c.done)
    (hours : c.ours = true → c₁.ours = true) (htheirs : c.theirs = true → c₁.theirs = true)
    (hn : c₁.number = c.number) (hid : c₁.id = c.id) (how : c₁.ownedByUs = c.ownedByUs)
    (hop : c₁.openHanded = c.openHanded) :
    ChanStep c c₂.checkDone.1 (calls ++ c₂.checkDone.2) := by
  have hpre : c₂.done = true → (c₂.ours && c₂.theirs) = true := by
    intro h
    rw [hl.done, hdone, hd, Bool.and_eq_true] at h
    rw [hl.ours, hl.theirs, hours h.1, htheirs h.2]
    rfl
  obtain ⟨h1, h2, h3, h4, h5, h6, h7, h8, h9⟩ := checkDone_spec hpre
  have hopen : c₁.openHanded = true → c₂.checkDone.1.openHanded = true := by
    rw [h8, hl.opened]; exact fun ho => ho
  have hcalls : ∀ x ∈ calls, CallOk c₂.checkDone.1 x := fun x hx =>
    (hl.calls x hx).of_eq (h5.trans hl.number) hopen
  have hours₂ : c₂.checkDone.1.ours = c₂.ours := congrArg Snd.ours h2
  have htheirs₂ : c₂.checkDone.1.theirs = c₂.theirs := congrArg Rcv.theirs h3
  refine ⟨⟨h4 (hl.ok ok), (h5.trans hl.number).trans hn, (h6.trans hl.id).trans hid,
    (h7.trans hl.owned).trans how, fun ho => hopen (hop.trans ho),
    fun ho => by rw [hours₂, hl.ours]; exact hours ho⟩, by rw [h1, hours₂, htheirs₂], ?_⟩
  rcases h9 with ⟨ha, hb⟩ | ⟨ha, hb, hc⟩
  · rw [ha, List.append_nil]
    exact .inl ⟨hcalls, (hb.trans hl.done).trans hdone⟩
  · rw [ha]
    refine .inr ⟨calls ++ [.removeBulk], by simp, ?_, (hl.done.trans hdone).symm.trans hb, hc⟩
    exact List.forall_mem_append.mpr ⟨hcalls, by simp [CallOk]⟩

end Channel

end Simlock.Link
