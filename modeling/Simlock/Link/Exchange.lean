import Simlock.Link.ChannelSteps

/-! One channel across both ends: its two directions, and the messages of both ends on their way.

    `a` is the channel at this end and `b` at the other; `wa` is what this end has on the wire for
    the channel and `la` what waits in its priority lane, `wb` and `lb` the same of the other end.
    `Exchange` says that both directions are sound. It survives everything one end can do with the
    channel: a local step, handing over a queue item or a priority message, and receiving the first
    message of the other end's wire. -/

namespace Simlock.Link

structure Exchange (a b : Channel) (wa la wb lb : List Envelope) : Prop where
  out : Half a.snd b.rcv wa (wb ++ lb)
  into : Half b.snd a.rcv wb (wa ++ la)
  lane : ∀ e ∈ la, e.isBulk = false
  laneOther : ∀ e ∈ lb, e.isBulk = false

theorem Exchange.swap {a b : Channel} {wa la wb lb : List Envelope}
    (h : Exchange a b wa la wb lb) : Exchange b a wb lb wa la :=
  ⟨h.into, h.out, h.laneOther, h.lane⟩

theorem frames_bulk {c : Channel} {calls : List HostCall} (h : ∀ x ∈ calls, CallOk c x) :
    ∀ e ∈ frames calls, e.isBulk = false ∧ e.number = c.number ∧ e.type ≠ .OPEN := by
  intro e he
  simp only [frames, List.mem_filterMap] at he
  obtain ⟨x, hx, hxe⟩ := he
  cases x with
  | binary f =>
    simp only [Option.some.injEq] at hxe
    obtain ⟨h1, h2, h3⟩ := h _ hx
    exact hxe ▸ ⟨h2, h1, h3⟩
  | addBulk => cases hxe
  | removeBulk => cases hxe
  | channelDone => cases hxe
  | warn m => cases hxe

section
variable {a a' b : Channel} {wa la wb lb : List Envelope} {calls : List HostCall}

theorem Exchange.local (h : Exchange a b wa la wb lb) (l : LocalStep a a' calls) :
    Exchange a' b wa (la ++ frames calls) wb lb := by
  refine ⟨h.out.sndLocal l.snd, ?_, ?_, h.laneOther⟩
  · rw [← List.append_assoc]
    exact h.into.rcvLocal l.rcv
  · exact List.forall_mem_append.mpr ⟨h.lane, fun e he => (frames_bulk l.calls e he).1⟩

/-- A message that is neither credit nor stop passes the sender of the other direction by. -/
theorem Half.backInsert {S : Snd} {R : Rcv} {W x y : List Envelope} {e : Envelope}
    (h : Half S R W (x ++ y)) (hok : e.Ok) (hb : e.isBulk = true) :
    Half S R W (x ++ [e] ++ y) := by
  have htype : e.type ≠ .CREDIT ∧ e.type ≠ .STOP := by
    simp only [Envelope.isBulk, Bool.or_eq_true, decide_eq_true_eq] at hb
    rcases hb with hb | hb <;> simp [hb]
  have hcred : credits (x ++ [e] ++ y) = credits (x ++ y) := by
    simp [credits, htype.1]
  have hstop : stops (x ++ [e] ++ y) = stops (x ++ y) := by
    simp [stops, htype.2]
  refine ⟨h.snd, h.rcv, h.sent, ?_, h.received, by rw [hcred]; exact h.credit, h.endLast, h.endSent,
    h.ended, by rw [hstop]; exact h.stop, by rw [hstop]; exact h.stopped, h.final, h.resetSent,
    h.bytes, h.given, h.closed⟩
  intro f hf
  simp only [List.append_assoc, List.mem_append, List.mem_singleton] at hf
  rcases hf with hf | rfl | hf
  · exact h.backOk f (List.mem_append_left _ hf)
  · exact hok
  · exact h.backOk f (List.mem_append_right _ hf)

/-- The next queue item of `a` joins the wire. -/
theorem Exchange.handItem (h : Exchange a b wa la wb lb) (ok : ChanOk a)
    (hd : a.done = (a.ours && a.theirs)) {i : QueueItem} {q : List QueueItem}
    (hq : a.queue = i :: q) (u : Nat) :
    Exchange ({ a with queue := q }.onItemHanded i u).1 b (wa ++ [i.envelope]) la wb lb ∧
      ChanStep a ({ a with queue := q }.onItemHanded i u).1
        ({ a with queue := q }.onItemHanded i u).2 ∧
      frames ({ a with queue := q }.onItemHanded i u).2 = [] := by
  have hq' : a.snd.queue = i :: q := hq
  have hitem : i.envelope.isBulk = true ∧ i.envelope.Ok := by
    rcases h.out.snd.items i (by rw [hq']; exact List.mem_cons_self) with
      ⟨-, ht, -, hok⟩ | ⟨-, ht, -⟩
    · exact ⟨by simp [Envelope.isBulk, ht], hok⟩
    · exact ⟨by simp [Envelope.isBulk, ht], by simp [Envelope.Ok, ht]⟩
  have hinto := Half.backInsert h.into hitem.2 hitem.1
  have hitems : ∀ j ∈ q, j.envelope.number = a.number := fun j hj =>
    ok.items j (by rw [hq]; exact List.mem_cons_of_mem _ hj)
  unfold Channel.onItemHanded
  split
  · next hend =>
    have hout := h.out.handEnd hq' hend
    let c₁ : Channel := { a with queue := q, endHanded := true }
    have hours₁ : c₁.ours = true := by simp [c₁, Channel.ours]
    have hc₁ : c₁.done = true → (c₁.ours && c₁.theirs) = true := by
      intro hdone
      rw [show a.done = true from hdone, eq_comm, Bool.and_eq_true] at hd
      simp [hours₁, show c₁.theirs = true from hd.2]
    obtain ⟨-, h2, h3, -, -, -, -, -, h9⟩ := Channel.checkDone_spec hc₁
    have hok₁ : ChanOk c₁ := ⟨ok.tail, ok.want, ok.valid, hitems⟩
    have hstep := Channel.checkDone_chan (.refl c₁) hok₁ hd rfl (fun _ => hours₁) (fun ht => ht) rfl
      rfl rfl rfl
    refine ⟨⟨?_, ?_, h.lane, h.laneOther⟩, hstep, ?_⟩
    · rw [show (c₁.checkDone.1).snd = _ from h2]; exact hout
    · rw [show (c₁.checkDone.1).rcv = _ from h3]; exact hinto
    · rcases h9 with ⟨h9, -⟩ | ⟨h9, -, -⟩ <;> rw [show c₁.checkDone.2 = _ from h9] <;> rfl
  · next hend =>
    have hout := h.out.handData hq' (by simpa using hend)
    refine ⟨⟨hout, hinto, h.lane, h.laneOther⟩, ⟨⟨⟨ok.tail, ok.want, ok.valid, hitems⟩, rfl, rfl, rfl,
      fun ho => ho, fun ho => ho⟩, hd, .inl ⟨by simp, rfl⟩⟩, rfl⟩

theorem Exchange.of_eq {c : Channel} (h : Exchange a b wa la wb lb) (hs : c.snd = a.snd)
    (hr : c.rcv = a.rcv) : Exchange c b wa la wb lb :=
  ⟨hs ▸ h.out, hr ▸ h.into, h.lane, h.laneOther⟩

/-- The next priority message of `a` joins the wire. -/
theorem Exchange.handLane {e : Envelope} (h : Exchange a b wa (e :: la) wb lb) :
    Exchange { a with resetHanded := a.resetHanded || decide (e.type = .RESET) } b (wa ++ [e]) la
      wb lb := by
  have hlane := List.forall_mem_cons.mp h.lane
  have heok : e.Ok := h.into.backOk e (by simp)
  refine ⟨h.out.handLane heok hlane.1, ?_, hlane.2, h.laneOther⟩
  rw [List.append_assoc]
  exact h.into

theorem Exchange.handQuiet {e : Envelope} (h : Exchange a b wa (e :: la) wb lb)
    (hr : e.type ≠ .RESET) : Exchange a b (wa ++ [e]) la wb lb :=
  h.handLane.of_eq (by simp [Channel.snd, hr]) rfl

theorem Exchange.handOpen {e : Envelope} (h : Exchange a b wa (e :: la) wb lb) (ok : ChanOk a)
    (hd : a.done = (a.ours && a.theirs)) (he : e.type = .OPEN) :
    Exchange a.onOpenHanded.1 b (wa ++ [e]) la wb lb ∧
      ChanStep a a.onOpenHanded.1 a.onOpenHanded.2 ∧ frames a.onOpenHanded.2 = [] := by
  refine ⟨(h.handQuiet (by simp [he])).of_eq rfl rfl,
    ⟨⟨⟨ok.tail, ok.want, ok.valid, ok.items⟩, rfl, rfl, rfl, fun _ => rfl, fun ho => ho⟩, hd,
      .inl ⟨?_, rfl⟩⟩, ?_⟩
  · intro x hx
    simp only [Channel.onOpenHanded] at hx
    split at hx
    · rw [List.mem_singleton.mp hx]; rfl
    · simp at hx
  · simp only [Channel.onOpenHanded]
    split <;> rfl

theorem Exchange.handReset {e : Envelope} (h : Exchange a b wa (e :: la) wb lb) (ok : ChanOk a)
    (hd : a.done = (a.ours && a.theirs)) (he : e.type = .RESET) :
    Exchange a.onResetHanded.1 b (wa ++ [e]) la wb lb ∧
      ChanStep a a.onResetHanded.1 a.onResetHanded.2 ∧ frames a.onResetHanded.2 = [] := by
  let c₁ : Channel := { a with resetHanded := true }
  have hours₁ : c₁.ours = true := by simp [c₁, Channel.ours]
  have hc₁ : c₁.done = true → (c₁.ours && c₁.theirs) = true := by
    intro hdone
    rw [show a.done = true from hdone, eq_comm, Bool.and_eq_true] at hd
    simp [hours₁, show c₁.theirs = true from hd.2]
  obtain ⟨-, h2, h3, -, -, -, -, -, h9⟩ := Channel.checkDone_spec hc₁
  have hok₁ : ChanOk c₁ := ⟨ok.tail, ok.want, ok.valid, ok.items⟩
  refine ⟨h.handLane.of_eq ?_ ?_,
    Channel.checkDone_chan (.refl c₁) hok₁ hd rfl (fun _ => hours₁) (fun ht => ht) rfl rfl rfl rfl,
    ?_⟩
  · rw [show a.onResetHanded.1.snd = _ from h2]; simp [c₁, Channel.snd, he]
  · rw [show a.onResetHanded.1.rcv = _ from h3]; rfl
  · rcases h9 with ⟨h9, -⟩ | ⟨h9, -, -⟩ <;> rw [show a.onResetHanded.2 = _ from h9] <;> rfl

/-! ### Receiving -/

/-- What `#dispatch` has a live channel do with a message. -/
def Channel.receive (c : Channel) (e : Envelope) (again u : Nat) : Channel × List HostCall :=
  match e.type with
  | .OPEN => (c, [])
  | .DATA => c.onData e.payload again
  | .END => c.onEnd again
  | .STOP => c.onStop
  | .CREDIT => c.onCredit (parseCredit e.payload) u
  | .RESET => c.onReset (parseResetReason e.payload)

/-- The outcome of the receipt of `e` at `a`: the exchange goes on, the channel broke no rule, and
    a final message is noted. -/
structure Received (a b : Channel) (wa la wb lb : List Envelope) (e : Envelope)
    (r : Channel × List HostCall) : Prop where
  exchange : Exchange r.1 b wa (la ++ frames r.2) wb lb
  step : ChanStep a r.1 r.2
  final : e.isFinal = true → r.1.theirs = true

theorem Received.ignored (hout : Half a.snd b.rcv wa (wb ++ lb))
    (hinto : Half b.snd a.rcv wb (wa ++ la)) (h1 : ∀ e ∈ la, e.isBulk = false)
    (h2 : ∀ e ∈ lb, e.isBulk = false) (ok : ChanOk a) (hd : a.done = (a.ours && a.theirs))
    {e : Envelope} (hf : e.isFinal = false) : Received a b wa la wb lb e (a, []) := by
  refine ⟨⟨hout, ?_, ?_, h2⟩, (LocalStep.refl a).chan ok hd, by simp [hf]⟩
  · simpa [frames] using hinto
  · simpa [frames] using h1

/-- A receipt that ends with the check for the channel's end. -/
theorem Received.finish {e : Envelope} {c₁ c₂ : Channel} (hl : LocalStep c₁ c₂ calls)
    (hex : Exchange c₂ b wa (la ++ frames calls) wb lb) (ok : ChanOk c₁)
    (hd : a.done = (a.ours && a.theirs)) (hdone : c₁.done = a.done)
    (hours : a.ours = true → c₁.ours = true) (htheirs : c₁.theirs = true)
    (hn : c₁.number = a.number) (hid : c₁.id = a.id) (how : c₁.ownedByUs = a.ownedByUs)
    (hop : c₁.openHanded = a.openHanded) :
    Received a b wa la wb lb e (c₂.checkDone.1, calls ++ c₂.checkDone.2) := by
  have hpre : c₂.done = true → (c₂.ours && c₂.theirs) = true := by
    intro h
    rw [hl.done, hdone, hd, Bool.and_eq_true] at h
    rw [hl.ours, hl.theirs, hours h.1, htheirs]
    rfl
  obtain ⟨-, h2, h3, -, -, -, -, -, h9⟩ := Channel.checkDone_spec hpre
  have htheirs₂ : c₂.checkDone.1.theirs = c₂.theirs := congrArg Rcv.theirs h3
  refine ⟨?_, Channel.checkDone_chan hl ok hd hdone hours (fun _ => htheirs) hn hid how hop,
    fun _ => by rw [htheirs₂, hl.theirs]; exact htheirs⟩
  have hframes : frames c₂.checkDone.2 = [] := by
    rcases h9 with ⟨h9, -⟩ | ⟨h9, -, -⟩ <;> rw [h9] <;> rfl
  rw [frames_append, hframes, List.append_nil]
  exact hex.of_eq h2 h3

theorem store_rcv {c : Channel} (payload : Bytes) (ok : ChanOk c) :
    (c.store payload).rcv = { c.rcv with held := c.rcv.held ++ payload } ∧
      (c.store payload).snd = c.snd ∧ ChanOk (c.store payload) := by
  unfold Channel.store
  split
  · next hempty =>
    simp only [Bool.and_eq_true, List.isEmpty_iff] at hempty
    refine ⟨?_, rfl, ok.tail, ok.want, ok.valid, ok.items⟩
    simp [Channel.rcv, hempty.1.1, hempty.1.2]
  · obtain ⟨h1, h2⟩ := storeLoop_spec payload.length payload c.inQueue c.inTail (le_refl _) ok.tail
    refine ⟨?_, rfl, h2, ok.want, ok.valid, ok.items⟩
    simp only [Channel.rcv]
    rw [h1]

theorem Exchange.onData {e : Envelope} (h : Exchange a b wa la (e :: wb) lb) (ok : ChanOk a)
    (hd : a.done = (a.ours && a.theirs)) (he : e.type = .DATA) (again : Nat) :
    Received a b wa la wb lb e (a.onData e.payload again) := by
  have hout : Half a.snd b.rcv wa (wb ++ lb) := Half.dropBack h.out
  have hfinal : e.isFinal = false := by simp [Envelope.isFinal, he]
  have hlen := h.into.sent e List.mem_cons_self
  simp only [Envelope.Ok, he] at hlen
  have hroom : a.received + e.payload.length ≤ channelWindow + a.granted := h.into.room he
  have hignored : a.readable ≠ .readable → Received a b wa la wb lb e (a, []) := fun hr =>
    .ignored hout (h.into.drop (fun _ => hr) (by simp [hfinal])) h.lane h.laneOther ok hd hfinal
  unfold Channel.onData
  split
  · next hf =>
    exact hignored (fun hr => absurd ((h.into.rcv.readable hr).1.symm.trans hf) (by decide))
  split
  · next hend =>
    have := h.into.ended hend e List.mem_cons_self
    simp [Envelope.isBulk, he] at this
  split
  · next hs =>
    exact hignored (fun hr => absurd ((h.into.rcv.readable hr).2.symm.trans hs) (by decide))
  rw [if_neg (by omega), if_neg (by omega), if_neg (by
    intro hnil
    rw [List.isEmpty_iff] at hnil
    rw [hnil] at hlen
    exact absurd hlen.1 (by simp))]
  -- the bytes are stored, then as much is delivered as the reader asks for
  let c₁ : Channel := { a with received := a.received + e.payload.length }
  have hok₁ : ChanOk c₁ := ⟨ok.tail, ok.want, ok.valid, ok.items⟩
  obtain ⟨hrcv, hsnd, hok⟩ := store_rcv e.payload hok₁
  have hsame : (c₁.store e.payload).number = a.number ∧ (c₁.store e.payload).id = a.id ∧
      (c₁.store e.payload).ownedByUs = a.ownedByUs ∧
      (c₁.store e.payload).openHanded = a.openHanded ∧ (c₁.store e.payload).done = a.done := by
    unfold Channel.store
    split <;> exact ⟨rfl, rfl, rfl, rfl, rfl⟩
  have hl := Channel.deliver_step again (c₁.store e.payload) hok
  have hex : Exchange (c₁.store e.payload) b wa la wb lb :=
    ⟨hsnd ▸ hout, hrcv ▸ h.into.recvData he, h.lane, h.laneOther⟩
  have hours : (c₁.store e.payload).ours = a.ours := congrArg Snd.ours hsnd
  have htheirs : (c₁.store e.payload).theirs = a.theirs := congrArg Rcv.theirs hrcv
  have hd₁ : (c₁.store e.payload).done =
      ((c₁.store e.payload).ours && (c₁.store e.payload).theirs) := by
    rw [hours, htheirs, hsame.2.2.2.2]; exact hd
  obtain ⟨hn, hid, how, hop, hdone⟩ := hsame
  exact ⟨hex.local hl, (hl.chan hok hd₁).of_pre hn hid how hop hdone hours, by simp [hfinal]⟩

theorem Exchange.onEnd {e : Envelope} (h : Exchange a b wa la (e :: wb) lb) (ok : ChanOk a)
    (hd : a.done = (a.ours && a.theirs)) (he : e.type = .END) (again : Nat) :
    Received a b wa la wb lb e (a.onEnd again) := by
  have hout : Half a.snd b.rcv wa (wb ++ lb) := Half.dropBack h.out
  obtain ⟨hnot, hinto⟩ := h.into.recvEnd he
  let c₁ : Channel := { a with inEnded := true }
  have hok₁ : ChanOk c₁ := ⟨ok.tail, ok.want, ok.valid, ok.items⟩
  have hex : Exchange c₁ b wa la wb lb := ⟨hout, hinto, h.lane, h.laneOther⟩
  have htheirs₁ : c₁.theirs = true := by simp [c₁, Channel.theirs]
  have hlast : ∀ (c₂ : Channel) (calls : List HostCall), LocalStep c₁ c₂ calls →
      Received a b wa la wb lb e (c₂.checkDone.1, calls ++ c₂.checkDone.2) := fun c₂ calls hl =>
    .finish hl (hex.local hl) hok₁ hd rfl (fun ho => ho) htheirs₁ rfl rfl rfl rfl
  unfold Channel.onEnd
  split
  · exact hlast c₁ [] (.refl c₁)
  split
  · next hend => exact absurd (hnot.symm.trans hend) (by decide)
  · exact hlast _ _ (Channel.deliver_step again c₁ hok₁)

/-- What is left of a queue when its data is dropped. -/
theorem SndOk.dropData {S : Snd} (ok : SndOk S) :
    SndOk { S with queue := S.queue.filter (·.isEnd), queuedBytes := 0 } := by
  have hpay : ∀ i ∈ S.queue.filter (·.isEnd), i.payload = 0 := by
    intro i hi
    obtain ⟨hmem, hend⟩ := List.mem_filter.mp hi
    rcases ok.items i hmem with ⟨h, -⟩ | ⟨-, -, h⟩
    · exact absurd (h.symm.trans hend) (by decide)
    · exact h
  refine ⟨fun i hi => ok.items i (List.mem_filter.mp hi).1, ok.endLast.filter _,
    fun i hi => ok.endItem i (List.mem_filter.mp hi).1, ?_, ?_,
    le_trans (Nat.le_add_right _ _) ok.window, ?_, ok.stopped, ok.closed, ok.drained⟩
  · intro he
    exact ⟨by simp [(ok.endGone he).1], (ok.endGone he).2⟩
  · rw [List.map_congr_left hpay]
    simp
  · intro hf
    simp [ok.failed hf]

theorem Exchange.onStop {e : Envelope} (h : Exchange a b wa la (e :: wb) lb) (ok : ChanOk a)
    (hd : a.done = (a.ours && a.theirs)) (he : e.type = .STOP) :
    Received a b wa la wb lb e a.onStop := by
  have hfinal : e.isFinal = false := by simp [Envelope.isFinal, he]
  have hinto : Half b.snd a.rcv wb (wa ++ la) :=
    h.into.drop (by simp [he]) (by simp [Envelope.isFinal, he])
  have hfirst := h.out.stop_once he
  have hsnd := h.out.snd
  unfold Channel.onStop
  split
  · exact .ignored (Half.dropBack h.out) hinto h.lane h.laneOther ok hd hfinal
  split
  · next hs => exact absurd (hfirst.1.symm.trans hs) (by decide)
  dsimp only
  have hnil : frames a.dropQueuedData.2 = [] := by
    simp only [Channel.dropQueuedData]
    split <;> rfl
  have hitems : ∀ i ∈ a.queue.filter (·.isEnd), i.envelope.number = a.number := fun i hi =>
    ok.items i (List.mem_filter.mp hi).1
  have hdrop : ∀ x ∈ a.dropQueuedData.2, x = .removeBulk := by
    intro x hx
    simp only [Channel.dropQueuedData] at hx
    split at hx
    · simpa using hx
    · simp at hx
  split
  · next hend =>
    refine ⟨⟨h.out.recvStop he hsnd.dropData rfl rfl rfl rfl rfl, ?_, ?_, h.laneOther⟩,
      ⟨⟨⟨ok.tail, ok.want, ok.valid, hitems⟩, rfl, rfl, rfl, fun ho => ho, fun ho => ho⟩, hd,
        .inl ⟨?_, rfl⟩⟩, by simp [hfinal]⟩
    · rw [hnil, List.append_nil]; exact hinto
    · rw [hnil, List.append_nil]; exact h.lane
    · intro x hx
      rw [hdrop x hx]; trivial
  · next hf _ hend =>
    -- no END was queued, so only the new one is left
    have hempty : a.queue.filter (·.isEnd) = [] := by
      rw [List.filter_eq_nil_iff]
      intro i hi hi'
      exact hend (hsnd.endItem i hi hi')
    have hS : SndOk (({ a.dropQueuedData.1 with stoppedByPeer := true }.queueEnd).1.failOutgoing).snd := by
      simp only [Channel.dropQueuedData, Channel.queueEnd, Channel.failOutgoing, Channel.snd,
        hempty, List.nil_append]
      refine ⟨by simp [Channel.endItem, QueueItem.Ok], List.pairwise_singleton _ _, fun _ _ _ => rfl,
        fun hh => absurd (hsnd.endGone hh).2 hend, by simp [Channel.endItem],
        le_trans (Nat.le_add_right _ _) hsnd.window, fun hh => absurd hh hf, fun _ => rfl,
        fun _ hh => absurd hh (by simp), ?_⟩
      intro hc
      have hwr : a.writable = .closed := by
        by_contra hne
        simp [hne] at hc
      have := hsnd.drained hwr
      simp only [Channel.snd, List.append_eq_nil_iff] at this
      simp [this.1]
    have hend' : frames ({ a.dropQueuedData.1 with stoppedByPeer := true }.queueEnd).2 = [] := by
      simp only [Channel.queueEnd]
      split <;> rfl
    refine ⟨⟨h.out.recvStop he hS rfl rfl rfl rfl rfl, ?_, ?_, h.laneOther⟩,
      ⟨⟨⟨ok.tail, ok.want, ok.valid, List.forall_mem_append.mpr ⟨hitems, fun i hi =>
        List.mem_singleton.mp hi ▸ rfl⟩⟩, rfl, rfl, rfl, fun ho => ho, fun ho => ho⟩, hd,
        .inl ⟨?_, rfl⟩⟩, by simp [hfinal]⟩
    · rw [frames_append, hnil, hend', List.append_nil, List.append_nil]; exact hinto
    · rw [frames_append, hnil, hend', List.append_nil, List.append_nil]; exact h.lane
    · intro x hx
      rcases List.mem_append.mp hx with hx | hx
      · rw [hdrop x hx]; trivial
      · simp only [Channel.queueEnd] at hx
        split at hx
        · next ho => rw [List.mem_singleton.mp hx]; exact ho
        · simp at hx

theorem Exchange.onCredit {e : Envelope} (h : Exchange a b wa la (e :: wb) lb) (ok : ChanOk a)
    (hd : a.done = (a.ours && a.theirs)) (he : e.type = .CREDIT) (u : Nat) :
    Received a b wa la wb lb e (a.onCredit (parseCredit e.payload) u) := by
  have hfinal : e.isFinal = false := by simp [Envelope.isFinal, he]
  have hinto : Half b.snd a.rcv wb (wa ++ la) :=
    h.into.drop (by simp [he]) (by simp [Envelope.isFinal, he])
  obtain ⟨n, hparse, hpos, hroom, hout⟩ := h.out.recvCredit he
  have hroom' : a.allowance + n ≤ a.handed + channelWindow := hroom
  unfold Channel.onCredit
  split
  · exact .ignored (Half.dropBack h.out) hinto h.lane h.laneOther ok hd hfinal
  · rw [hparse]
    dsimp only
    rw [if_neg (by omega), if_neg (by omega)]
    refine ⟨⟨hout, ?_, ?_, h.laneOther⟩, ⟨⟨⟨ok.tail, ok.want, ok.valid, ok.items⟩, rfl, rfl, rfl, fun ho => ho,
      fun ho => ho⟩, hd, .inl ⟨by simp, rfl⟩⟩, by simp [hfinal]⟩
    · rw [show frames ([] : List HostCall) = [] from rfl, List.append_nil]; exact hinto
    · rw [show frames ([] : List HostCall) = [] from rfl, List.append_nil]; exact h.lane

theorem Exchange.onReset {e : Envelope} (h : Exchange a b wa la (e :: wb) lb) (ok : ChanOk a)
    (hd : a.done = (a.ours && a.theirs)) (he : e.type = .RESET) :
    Received a b wa la wb lb e (a.onReset (parseResetReason e.payload)) := by
  have hout : Half a.snd b.rcv wa (wb ++ lb) := Half.dropBack h.out
  obtain ⟨r, hr, hpay⟩ : ∃ r, r ≠ ResetReason.invalid ∧ e.payload = [r.code] := by
    have := h.into.sent e List.mem_cons_self
    simpa [Envelope.Ok, he] using this
  rw [hpay, parseResetReason_code]
  let c₁ : Channel := { a with resetReceived := true }
  have hok₁ : ChanOk c₁ := ⟨ok.tail, ok.want, ok.valid, ok.items⟩
  have htheirs₁ : c₁.theirs = true := by simp [c₁, Channel.theirs]
  have herr : r.toErrorReason ≠ .invalid := by cases r <;> simp_all [ResetReason.toErrorReason]
  -- a second look at a channel whose end was just checked changes nothing
  have htwice : ∀ c₂ : Channel, (c₂.done = true → (c₂.ours && c₂.theirs) = true) →
      c₂.checkDone.1.checkDone = (c₂.checkDone.1, []) := by
    intro c₂ hc
    obtain ⟨h1, h2, h3, -⟩ := Channel.checkDone_spec hc
    refine Channel.checkDone_of_done ?_
    rw [h1, show c₂.checkDone.1.ours = c₂.ours from congrArg Snd.ours h2,
      show c₂.checkDone.1.theirs = c₂.theirs from congrArg Rcv.theirs h3]
  have hpre : c₁.done = true → (c₁.ours && c₁.theirs) = true := by
    intro hdone
    rw [show a.done = true from hdone, eq_comm, Bool.and_eq_true] at hd
    simp [htheirs₁, show c₁.ours = true from hd.1]
  let error : LinkChannelError := ⟨r.toErrorReason, none⟩
  have hfail : ∀ fs : List Envelope, (∀ e ∈ fs, e.Ok) → credits fs = 0 → stops fs = 0 →
      (∀ e ∈ fs, e.isBulk = false) → Exchange (c₁.failed error) b wa (la ++ fs) wb lb := by
    intro fs hfs hcred hstop hbulk
    refine ⟨hout.sndLocal (Channel.failed_snd error), ?_, ?_, h.laneOther⟩
    · have := h.into.rcvLocal (Channel.failed_rcv error hfs hcred hstop)
      rw [← List.append_assoc]
      exact this.recvReset he rfl
    · exact List.forall_mem_append.mpr ⟨h.lane, hbulk⟩
  show Received a b wa la wb lb e
    ((c₁.fail error (if a.resetQueued then none else some .aborted)).1.checkDone.1,
      (c₁.fail error (if a.resetQueued then none else some .aborted)).2 ++
        (c₁.fail error (if a.resetQueued then none else some .aborted)).1.checkDone.2)
  by_cases hf : a.failure.isSome = true
  · have hsame : ∀ send, c₁.fail error send = (c₁, []) := fun send => if_pos hf
    rw [hsame]
    have hex : Exchange c₁ b wa (la ++ frames []) wb lb := by
      rw [show frames ([] : List HostCall) = [] from rfl, List.append_nil]
      exact ⟨hout, h.into.recvReset he hf, h.lane, h.laneOther⟩
    exact .finish (.refl c₁) hex hok₁ hd rfl (fun ho => ho) htheirs₁ rfl rfl rfl rfl
  have hf' : c₁.failure.isSome = false := by simpa [c₁] using hf
  by_cases hq : a.resetQueued = true
  · rw [if_pos hq, Channel.fail_quiet hf']
    dsimp only
    rw [htwice (c₁.failed error) hpre, List.append_nil]
    exact .finish (Channel.failed_step herr) (hfail [] (by simp) rfl rfl (by simp)) hok₁ hd rfl
      (fun ho => ho) htheirs₁ rfl rfl rfl rfl
  · rw [if_neg hq, Channel.fail_reset hf' (by simpa [c₁] using hq)]
    dsimp only
    rw [htwice { c₁.failed error with resetQueued := true } hpre, List.append_nil]
    have habort : ResetReason.aborted ≠ .invalid := by decide
    refine .finish (Channel.failedReset_step (c := c₁) herr habort) ?_ hok₁ hd rfl (fun ho => ho)
      htheirs₁ rfl rfl rfl rfl
    have hex := hfail [encodeReset c₁.number .aborted]
      (by simpa using Channel.resetFrame_ok habort) rfl rfl (by simp [encodeReset, Envelope.isBulk])
    exact hex.of_eq rfl rfl

/-- A live channel of a conforming peer takes any message but an `OPEN` without fault. -/
theorem Exchange.receive {e : Envelope} (h : Exchange a b wa la (e :: wb) lb) (ok : ChanOk a)
    (hd : a.done = (a.ours && a.theirs)) (hopen : e.type ≠ .OPEN) (again u : Nat) :
    Received a b wa la wb lb e (a.receive e again u) := by
  unfold Channel.receive
  cases he : e.type with
  | OPEN => exact absurd he hopen
  | DATA => exact h.onData ok hd he again
  | END => exact h.onEnd ok hd he again
  | STOP => exact h.onStop ok hd he
  | CREDIT => exact h.onCredit ok hd he u
  | RESET => exact h.onReset ok hd he

/-- A message for a channel that has ended here is dropped, and misses nothing. -/
theorem Exchange.late {e : Envelope} (h : Exchange a b wa la (e :: wb) lb)
    (htheirs : a.theirs = true) : Exchange a b wa la wb lb := by
  refine ⟨Half.dropBack h.out, h.into.drop ?_ (fun _ => htheirs), h.lane, h.laneOther⟩
  intro hdata hread
  -- after the END nothing but control messages comes, and after a RESET the reader has failed
  rcases Bool.or_eq_true_iff.mp htheirs with hr | hend
  · exact absurd ((h.into.rcv.readable hread).1.symm.trans (h.into.rcv.reset hr)) (by decide)
  · have := h.into.ended hend e List.mem_cons_self
    simp [Envelope.isBulk, hdata] at this

end

end Simlock.Link
