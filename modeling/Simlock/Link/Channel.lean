import Simlock.Link.Envelope

/-! One end of a channel.

    A channel has two directions. The sending half cuts what the application writes into `DATA`
    items of at most 64 KiB, keeps them in `queue` and may hand at most `allowance` bytes to the
    transport; the receiving half packs what arrives into `inQueue` and `inTail` until the reader
    asks for it, and grants credit for what was read.

        writeQueue ─▶ writing ─▶ queue ─▶ (link) ─▶ inQueue, inTail ─▶ given

    A method changes the channel and calls its host (the link and its scheduler). It is modelled as
    a function to the new channel and the host calls it makes, in order. The web streams around a
    channel are kept as the little state that matters here: what the writer has not passed to the
    sink yet, what was given to the reader, and whether each stream still runs. `written` is all the
    application ever wrote, for the statements. -/

namespace Simlock.Link

inductive LinkChannelErrorReason where
  | aborted | invalid | notAccepted | stalled | closed | stopped
  deriving DecidableEq, Repr

structure LinkChannelError where
  reason : LinkChannelErrorReason
  message : Option String
  deriving DecidableEq, Repr

def ResetReason.toErrorReason : ResetReason → LinkChannelErrorReason
  | .aborted => .aborted
  | .stalled => .stalled
  | .notAccepted => .notAccepted
  | .invalid => .invalid

structure QueueItem where
  envelope : Envelope
  payload : Nat
  isEnd : Bool
  deriving DecidableEq, Repr

inductive ReadableState where
  | readable | closed | errored | cancelled
  deriving DecidableEq, Repr

/-- `closing`: the writer asked for the close and earlier writes are still with the sink. -/
inductive WritableState where
  | writable | closing | closed | errored
  deriving DecidableEq, Repr

structure Channel where
  number : Nat
  id : String
  ownedByUs : Bool
  accepted : Bool
  failure : Option LinkChannelError
  done : Bool
  openHanded : Bool
  queue : List QueueItem
  queuedBytes : Nat
  allowance : Nat
  handed : Nat
  inFlight : Nat
  endQueued : Bool
  endHanded : Bool
  stoppedByPeer : Bool
  pendingWrite : Bool
  creditWaiters : Nat
  stallTimer : Bool
  acceptTimer : Bool
  received : Nat
  granted : Nat
  readTotal : Nat
  inQueue : List Bytes
  inTail : Bytes
  inEnded : Bool
  stopSent : Bool
  wantRead : Bool
  resetQueued : Bool
  resetHanded : Bool
  resetReceived : Bool
  readable : ReadableState
  given : List Bytes
  writable : WritableState
  writeQueue : List Bytes
  writing : Option Bytes
  written : Bytes
  deriving DecidableEq, Repr

/-- What a channel asks of its host. -/
inductive HostCall where
  | binary (e : Envelope)
  | addBulk
  | removeBulk
  | channelDone
  | warn (message : String)
  deriving DecidableEq, Repr

namespace Channel

/-- The constructor, less the `OPEN` it hands to the scheduler. -/
def new (number : Nat) (id : String) (ownedByUs : Bool) : Channel where
  number := number
  id := id
  ownedByUs := ownedByUs
  accepted := ownedByUs
  failure := none
  done := false
  openHanded := !ownedByUs
  queue := []
  queuedBytes := 0
  allowance := channelWindow
  handed := 0
  inFlight := 0
  endQueued := false
  endHanded := false
  stoppedByPeer := false
  pendingWrite := false
  creditWaiters := 0
  stallTimer := false
  acceptTimer := !ownedByUs
  received := 0
  granted := 0
  readTotal := 0
  inQueue := []
  inTail := []
  inEnded := false
  stopSent := false
  wantRead := false
  resetQueued := false
  resetHanded := false
  resetReceived := false
  readable := .readable
  given := []
  writable := .writable
  writeQueue := []
  writing := none
  written := []

variable (c : Channel)

def hasNext : Bool := !c.queue.isEmpty

def credit : Nat :=
  if c.failure.isSome || c.endQueued || c.stoppedByPeer then 0
  else c.allowance - c.handed - c.queuedBytes

def markAccepted : Channel := { c with accepted := true, acceptTimer := false }

/-- `#updateStall`: the timer runs while a writer waits and the peer holds every byte it was sent.
    `unsentBytes` is the transport's own count. -/
def updateStall (unsentBytes : Nat) : Channel :=
  { c with
    stallTimer := (c.pendingWrite || 0 < c.creditWaiters) &&
      (c.queuedBytes == 0 && (unsentBytes == 0 || c.inFlight == 0)) && c.failure.isNone }

def ours : Bool := c.resetHanded || c.endHanded

def theirs : Bool := c.resetReceived || c.inEnded

def checkDone : Channel × List HostCall :=
  if c.done then (c, [])
  else if !c.ours || !c.theirs then (c, [])
  else ({ c with done := true, stallTimer := false, acceptTimer := false },
    [.removeBulk, .channelDone])

def failOutgoing : Channel :=
  { c with
    stallTimer := false
    pendingWrite := false
    creditWaiters := 0
    writable := if c.writable = .closed then .closed else .errored
    writeQueue := [] }

/-- The state change of `#fail`, before it decides about the `RESET`. -/
def failed (error : LinkChannelError) : Channel :=
  { c.failOutgoing with
    failure := some error
    acceptTimer := false
    queue := []
    queuedBytes := 0
    inQueue := []
    inTail := []
    wantRead := false
    readable := if c.readable = .readable then .errored else c.readable }

def fail (error : LinkChannelError) (send : Option ResetReason) : Channel × List HostCall :=
  if c.failure.isSome then (c, [])
  else
    match send with
    | none =>
      let r := (c.failed error).checkDone
      (r.1, .removeBulk :: r.2)
    | some reason =>
      if c.resetQueued then
        let r := (c.failed error).checkDone
        (r.1, .removeBulk :: r.2)
      else
        let r := ({ c.failed error with resetQueued := true }).checkDone
        (r.1, .removeBulk :: .binary (encodeReset c.number reason) :: r.2)

def invalid (rule : String) : Channel × List HostCall :=
  let r := c.fail ⟨.invalid, some rule⟩ (some .invalid)
  (r.1, .warn s!"link: channel {c.id} broke a rule: {rule}" :: r.2)

def dropQueuedData : Channel × List HostCall :=
  let queue := c.queue.filter (·.isEnd)
  ({ c with queue := queue, queuedBytes := 0 }, if queue.isEmpty then [.removeBulk] else [])

def endItem : QueueItem := ⟨⟨.END, c.number, []⟩, 0, true⟩

def dataItem (piece : Bytes) : QueueItem := ⟨⟨.DATA, c.number, piece⟩, piece.length, false⟩

def queueEnd : Channel × List HostCall :=
  ({ c with endQueued := true, queue := c.queue ++ [c.endItem] },
    if c.openHanded then [.addBulk] else [])

/-- The pieces `#take` cuts a chunk into; `fuel` is the chunk's length. -/
def pieces : Nat → Bytes → List Bytes
  | 0, _ => []
  | _ + 1, [] => []
  | fuel + 1, chunk => chunk.take maxDataBytes :: pieces fuel (chunk.drop maxDataBytes)

def take (chunk : Bytes) : Channel × List HostCall :=
  let cut := pieces chunk.length chunk
  ({ c with
      queue := c.queue ++ cut.map c.dataItem
      queuedBytes := c.queuedBytes + (cut.map List.length).sum },
    if c.openHanded then [.addBulk] else [])

def wakeWriters (unsentBytes : Nat) : Channel :=
  { c with pendingWrite := false, creditWaiters := 0 }.updateStall unsentBytes

/-! ### The receiving half -/

/-- The packing loop of `#store`: fill the tail, move it to the queue when it is full. -/
def storeLoop : Nat → Bytes → List Bytes → Bytes → List Bytes × Bytes
  | 0, _, inQueue, inTail => (inQueue, inTail)
  | _ + 1, [], inQueue, inTail => (inQueue, inTail)
  | fuel + 1, payload, inQueue, inTail =>
    let room := min (maxDataBytes - inTail.length) payload.length
    let tail := inTail ++ payload.take room
    if tail.length = maxDataBytes then storeLoop fuel (payload.drop room) (inQueue ++ [tail]) []
    else storeLoop fuel (payload.drop room) inQueue tail

def store (payload : Bytes) : Channel :=
  if c.inQueue.isEmpty && c.inTail.isEmpty && c.wantRead then
    { c with inQueue := c.inQueue ++ [payload] }
  else
    let r := storeLoop payload.length payload c.inQueue c.inTail
    { c with inQueue := r.1, inTail := r.2 }

/-- `this.#inQueue.shift() ?? this.#takeTail()`. -/
def nextChunk : Option (Bytes × Channel) :=
  match c.inQueue with
  | chunk :: rest => some (chunk, { c with inQueue := rest })
  | [] => if c.inTail.isEmpty then none else some (c.inTail, { c with inTail := [] })

def grant : Channel × List HostCall :=
  let unread := c.readTotal - c.granted
  if unread = 0 || c.inEnded then (c, [])
  else if unread < 64 * KIB && (!c.inQueue.isEmpty || !c.inTail.isEmpty) then (c, [])
  else ({ c with granted := c.granted + unread }, [.binary (encodeCredit c.number unread)])

/-- What `controller.enqueue(chunk)` and the lines before it do. -/
def enqueue (chunk : Bytes) : Channel :=
  { c with
    wantRead := false
    readTotal := c.readTotal + chunk.length
    given := c.given ++ [chunk] }

/-- The part of `#deliver` before it grants, and whether a chunk was given to the reader. -/
def deliverOne : Channel × Bool :=
  if !c.wantRead || c.stopSent then (c, false)
  else
    match c.nextChunk with
    | some (chunk, rest) => (rest.enqueue chunk, true)
    | none =>
      if c.inEnded then ({ c with wantRead := false, readable := .closed }, false) else (c, false)

/-- `#deliver`. While `again` further reads wait, the stream pulls again inside `enqueue`, so the
    next delivery runs before this one grants. -/
def deliver : Nat → Channel → Channel × List HostCall
  | 0, c =>
    let r := c.deliverOne
    if r.2 then r.1.grant else (r.1, [])
  | again + 1, c =>
    let r := c.deliverOne
    if r.2 then
      let inner := deliver again { r.1 with wantRead := true }
      let g := inner.1.grant
      (g.1, inner.2 ++ g.2)
    else (r.1, [])

def onData (payload : Bytes) (again : Nat) : Channel × List HostCall :=
  if c.failure.isSome then (c, [])
  else if c.inEnded then c.invalid "DATA after the direction ended"
  else if c.stopSent then (c, [])
  else if maxDataBytes < payload.length then c.invalid "DATA over 64 KiB"
  else if channelWindow + c.granted < c.received + payload.length then
    c.invalid "DATA past the allowed bytes"
  else if payload.isEmpty then (c, [])
  else deliver again ({ c with received := c.received + payload.length }.store payload)

def onEnd (again : Nat) : Channel × List HostCall :=
  if c.failure.isSome then { c with inEnded := true }.checkDone
  else if c.inEnded then c.invalid "END after the direction ended"
  else
    let r := deliver again { c with inEnded := true }
    let d := r.1.checkDone
    (d.1, r.2 ++ d.2)

def onStop : Channel × List HostCall :=
  if c.failure.isSome then (c, [])
  else if c.stoppedByPeer then c.invalid "a second STOP for one direction"
  else
    let r := c.dropQueuedData
    if c.endQueued then r
    else
      let e := { r.1 with stoppedByPeer := true }.queueEnd
      (e.1.failOutgoing, r.2 ++ e.2)

def onCredit (amount : Option Nat) (unsentBytes : Nat) : Channel × List HostCall :=
  if c.failure.isSome then (c, [])
  else
    match amount with
    | none => c.invalid "a CREDIT of 0"
    | some amount =>
      if amount < 1 then c.invalid "a CREDIT of 0"
      else if c.handed + channelWindow < c.allowance + amount then
        c.invalid "credit beyond 4 MiB outstanding"
      else ({ c with allowance := c.allowance + amount }.wakeWriters unsentBytes, [])

def onReset (reason : Option ResetReason) : Channel × List HostCall :=
  let c := { c with resetReceived := true }
  let r := c.fail ⟨(reason.getD .aborted).toErrorReason, none⟩
    (if c.resetQueued then none else some .aborted)
  let d := r.1.checkDone
  (d.1, r.2 ++ d.2)

def closeWith (error : LinkChannelError) : Channel × List HostCall :=
  { c with resetQueued := true, done := true }.fail error none

def abort (reason : Option String) : Channel × List HostCall :=
  c.fail ⟨.aborted, reason⟩ (some .aborted)

/-- The accept timer of a channel the peer opened. -/
def acceptTimeout : Channel × List HostCall :=
  if c.acceptTimer then
    { c with acceptTimer := false }.fail ⟨.notAccepted, none⟩ (some .notAccepted)
  else (c, [])

def stallTimeout : Channel × List HostCall :=
  if c.stallTimer then { c with stallTimer := false }.fail ⟨.stalled, none⟩ (some .stalled)
  else (c, [])

/-- The `onHanded` of the `OPEN`. -/
def onOpenHanded : Channel × List HostCall :=
  ({ c with openHanded := true }, if c.hasNext then [.addBulk] else [])

/-- The `onHanded` of a `RESET`. -/
def onResetHanded : Channel × List HostCall := { c with resetHanded := true }.checkDone

/-- The `onHanded` of a message taken from the queue. -/
def onItemHanded (item : QueueItem) (unsentBytes : Nat) : Channel × List HostCall :=
  if item.isEnd then { c with endHanded := true }.checkDone
  else
    ({ c with
        queuedBytes := c.queuedBytes - item.payload
        handed := c.handed + item.payload
        inFlight := c.inFlight + 1 }.updateStall unsentBytes, [])

/-- The `onWritten` of a `DATA` message. -/
def onItemWritten (unsentBytes : Nat) : Channel :=
  { c with inFlight := c.inFlight - 1 }.updateStall unsentBytes

/-! ### The streams -/

/-- `pull`, called while the readable stream runs. -/
def pull (again : Nat) : Channel × List HostCall :=
  if c.readable = .readable then deliver again { c with wantRead := true } else (c, [])

def cancelReadable : Channel × List HostCall :=
  if c.stopSent || c.failure.isSome then (c, [])
  else
    let c := { c with inQueue := [], inTail := [], wantRead := false }
    if c.inEnded then (c, [])
    else ({ c with stopSent := true }, [.binary ⟨.STOP, c.number, []⟩])

/-- `readable.cancel()`; a closed or errored stream is not cancelled. -/
def cancel : Channel × List HostCall :=
  if c.readable = .readable then { c with readable := .cancelled }.cancelReadable else (c, [])

/-- The application writes `chunk`; the stream keeps it for the sink. -/
def write (chunk : Bytes) : Channel :=
  if c.writable = .writable then
    { c with writeQueue := c.writeQueue ++ [chunk], written := c.written ++ chunk }
  else c

/-- The application closes the writable. -/
def close : Channel := if c.writable = .writable then { c with writable := .closing } else c

/-- The application aborts the writable: the stream drops what it holds, and calls `abort` once a
    write in progress has ended. -/
def abortWritable : Channel :=
  if c.writable = .closed then c else { c with writable := .errored, writeQueue := [] }

/-- The loop of `#write` over what is left of its chunk; `fuel` bounds its turns. -/
def writeLoop : Nat → Channel → Nat → Channel × List HostCall
  | 0, c, _ => (c, [])
  | fuel + 1, c, unsentBytes =>
    match c.writing with
    | none => (c, [])
    | some rest =>
      if rest.isEmpty then ({ c with writing := none }, [])
      else if c.failure.isSome || c.stoppedByPeer then ({ c with writing := none }, [])
      else
        let n := min c.credit rest.length
        if 0 < n then
          let r := { c with writing := some (rest.drop n) }.take (rest.take n)
          let s := writeLoop fuel r.1 unsentBytes
          (s.1, r.2 ++ s.2)
        else ({ c with pendingWrite := true }.updateStall unsentBytes, [])

/-- A `#write` that waited for credit goes on. -/
def resumeWrite (unsentBytes : Nat) : Channel × List HostCall :=
  if c.pendingWrite then (c, [])
  else writeLoop ((c.writing.getD []).length + 1) c unsentBytes

/-- The sink's `close`. -/
def closeSink (unsentBytes : Nat) : Channel × List HostCall :=
  if c.failure.isSome then ({ c with writable := .errored }, [])
  else if c.endQueued then ({ c with writable := .closed }, [])
  else
    let r := c.queueEnd
    ({ r.1 with creditWaiters := 0, writable := .closed }.updateStall unsentBytes, r.2)

/-- The writable stream passes its next chunk, or its close, to the sink. -/
def sinkNext (unsentBytes : Nat) : Channel × List HostCall :=
  if c.writing.isSome then (c, [])
  else
    match c.writeQueue with
    | chunk :: rest =>
      writeLoop (chunk.length + 1) { c with writeQueue := rest, writing := some chunk } unsentBytes
    | [] => if c.writable = .closing then c.closeSink unsentBytes else (c, [])

def whenCredit (unsentBytes : Nat) : Channel :=
  if c.failure.isSome || c.stoppedByPeer || c.endQueued || 0 < c.credit then c
  else { c with creditWaiters := c.creditWaiters + 1 }.updateStall unsentBytes

end Channel

end Simlock.Link
