import Simlock.Link.Channel

/-! One end of a link: the scheduler and the table of channels.

    The scheduler has two lanes. Texts, `OPEN`, `STOP`, `CREDIT` and `RESET` wait in the priority
    lane; `DATA` and `END` stay in their channel's queue, and the channels that have some wait in a
    ring. One turn of the pump hands one message to the transport.

    `channels` holds the keys of the link's map in insertion order. The channel objects themselves
    outlive their entry there (a reader may still empty a channel the link has forgotten), and so do
    the callbacks of messages on their way, so `objects` keeps every channel ever made; a number is
    never used twice on one connection. -/

namespace Simlock.Link

def unsentMark : Nat := 256 * KIB
def priorityShare : Nat := 64 * KIB
def openLimit : Nat := 64

/-- A message of the transport, and of the priority lane. -/
inductive Message where
  | text (text : String)
  | binary (e : Envelope)
  deriving DecidableEq, Repr

/-- What an end logs: messages of the peer it dropped, channels that broke a rule, and running out
    of channel numbers. -/
inductive Warning where
  | dropped (rule : String)
  | brokeRule (message : String)
  | noNumbersLeft
  deriving DecidableEq, Repr

end Simlock.Link

namespace Simlock

open Link in
structure Link where
  worker : Bool
  channels : List Nat
  objects : Nat → Option Channel
  unaccepted : List (String × Nat)
  waiters : List Nat
  nextOwn : Nat
  highestPeer : Nat
  ownOpen : Int
  peerOpen : Int
  closed : Bool
  priority : List Message
  ring : List Nat
  inRing : List Nat
  prioritySinceBulk : Nat
  unsentBytes : Nat
  generatedIds : List String
  warnings : List Warning
  pendingText : List String

namespace Link

def create (worker : Bool) : Link where
  worker := worker
  channels := []
  objects := fun _ => none
  unaccepted := []
  waiters := []
  nextOwn := if worker then 1 else 2
  highestPeer := 0
  ownOpen := 0
  peerOpen := 0
  closed := false
  priority := []
  ring := []
  inRing := []
  prioritySinceBulk := 0
  unsentBytes := 0
  generatedIds := []
  warnings := []
  pendingText := []

variable (l : Link)

def ownParity : Nat := if l.worker then 1 else 0

def put (n : Nat) (c : Channel) : Link := { l with objects := Function.update l.objects n (some c) }

def warn (w : Warning) : Link := { l with warnings := l.warnings ++ [w] }

/-! ### The scheduler -/

def text (text : String) : Link :=
  if l.closed then l else { l with priority := l.priority ++ [.text text] }

def binary (e : Envelope) : Link :=
  if l.closed then l else { l with priority := l.priority ++ [.binary e] }

def addBulk (n : Nat) : Link :=
  if n ∈ l.inRing then l else { l with inRing := l.inRing ++ [n], ring := l.ring ++ [n] }

def removeBulk (n : Nat) : Link :=
  if n ∈ l.inRing then { l with inRing := l.inRing.erase n, ring := l.ring.erase n } else l

/-! ### Opening and forgetting channels -/

/-- The ids of the channels in the map. -/
def liveIds : List String := l.channels.filterMap (fun n => (l.objects n).map Channel.id)

/-- The draw of `#open`: the first generated id that no live channel has. A generator that has
    nothing to give, or gives a malformed id, throws. -/
def newId (live : List String) : List String → Option String × List String
  | [] => (none, [])
  | id :: rest =>
    if !isChannelId id then (none, rest)
    else if id ∈ live then newId live rest
    else (some id, rest)

/-- `#open`; `none` when it throws. -/
def openOwn : Link × Option Nat :=
  if maxChannelNumber < l.nextOwn then (l.warn .noNumbersLeft, none)
  else
    match newId l.liveIds l.generatedIds with
    | (none, rest) => ({ l with generatedIds := rest }, none)
    | (some id, rest) =>
      let number := l.nextOwn
      let opened := ({ l with generatedIds := rest, nextOwn := number + 2 }.put number
        (Channel.new number id true)).binary ⟨.OPEN, number, encodeId id⟩
      ({ opened with channels := opened.channels ++ [number], ownOpen := opened.ownOpen + 1 },
        some number)

/-- `#drainWaiters`, over the waiters that are left. -/
def drainWaiters : List Nat → Link → Link
  | [], l => { l with waiters := [] }
  | w :: ws, l =>
    if l.ownOpen < openLimit && !l.closed then drainWaiters ws { l with waiters := ws }.openOwn.1
    else { l with waiters := w :: ws }

/-- `#forget`. -/
def forget (n : Nat) : Link :=
  match l.objects n with
  | none => l
  | some c =>
    let l := { l with
      channels := l.channels.erase n
      unaccepted := l.unaccepted.filter (fun p => p.2 ≠ n) }
    if c.ownedByUs then { l with ownOpen := l.ownOpen - 1 }
    else { l with peerOpen := l.peerOpen - 1 }

def channelDone (n : Nat) : Link :=
  if n ∈ l.channels then
    let l := l.forget n
    drainWaiters l.waiters l
  else l

/-- One call of channel `n` to its host. -/
def perform (n : Nat) (l : Link) : HostCall → Link
  | .binary e => l.binary e
  | .addBulk => l.addBulk n
  | .removeBulk => l.removeBulk n
  | .channelDone => l.channelDone n
  | .warn message => l.warn (.brokeRule message)

/-- Channel `n` runs `op`, and the host its calls. -/
def on (n : Nat) (op : Channel → Channel × List HostCall) : Link :=
  match l.objects n with
  | none => l
  | some c => (op c).2.foldl (perform n) (l.put n (op c).1)

def openChannel (waiter : Nat) : Link :=
  if l.closed then l
  else if l.ownOpen < openLimit && l.waiters.isEmpty then l.openOwn.1
  else { l with waiters := l.waiters ++ [waiter] }

/-- The signal of a waiting `openChannel` aborts. -/
def abortWaiter (waiter : Nat) : Link := { l with waiters := l.waiters.erase waiter }

def acceptChannel (id : String) : Link :=
  match l.unaccepted.find? (fun p => p.1 = id) with
  | none => l
  | some p =>
    { l with unaccepted := l.unaccepted.filter (fun q => q.1 ≠ id) }.on p.2
      (fun c => (c.markAccepted, []))

/-! ### The pump -/

/-- The `onHanded` of a priority message. -/
def onPriorityHanded (e : Envelope) : Link :=
  match e.type with
  | .OPEN => l.on e.number Channel.onOpenHanded
  | .RESET => l.on e.number Channel.onResetHanded
  | _ => l

def sendPriority : Link × Option Message :=
  match l.priority with
  | [] => (l, none)
  | .text t :: rest =>
    ({ l with priority := rest, prioritySinceBulk := l.prioritySinceBulk + utf8Length t },
      some (.text t))
  | .binary e :: rest =>
    ({ l with
        priority := rest
        prioritySinceBulk := l.prioritySinceBulk + e.bytes.length }.onPriorityHanded e,
      some (.binary e))

/-- The source at the head of the ring leaves it, and comes back last while it has more. -/
def rotate (n : Nat) (rest : List Nat) (more : Bool) : Link :=
  if more then { l with ring := rest ++ [n] }
  else { l with ring := rest, inRing := l.inRing.erase n }

def sendBulk : Link × Option Message :=
  match l.ring with
  | [] => (l, none)
  | n :: rest =>
    match l.objects n with
    | none => (l.rotate n rest false, none)
    | some c =>
      match c.queue with
      | [] => (l.rotate n rest false, none)
      | item :: queue =>
        let l := (l.put n { c with queue := queue }).rotate n rest (!queue.isEmpty)
        ({ l with prioritySinceBulk := 0 }.on n (fun c => c.onItemHanded item l.unsentBytes),
          some (.binary item.envelope))

/-- One turn of the loop of `#pump`, and the message it wrote to the transport. -/
def pump : Link × Option Message :=
  if l.closed then (l, none)
  else
    let canBulk := !l.ring.isEmpty && l.unsentBytes < unsentMark
    let bulkDue := canBulk && priorityShare ≤ l.prioritySinceBulk
    if !l.priority.isEmpty && !bulkDue then l.sendPriority
    else if canBulk then l.sendBulk
    else (l, none)

/-! ### Receiving -/

def isLate (number : Nat) : Bool :=
  if number < 1 then false
  else if number % 2 = l.ownParity then number < l.nextOwn
  else number ≤ l.highestPeer

def onOpen (number : Nat) (payload : Bytes) : Link :=
  if number % 2 = l.ownParity || number < 1 then
    l.warn (.dropped "an OPEN with the wrong parity")
  else if number ≤ l.highestPeer then
    l.warn (.dropped (if number ∈ l.channels then "an OPEN reusing a live number"
      else "an OPEN reusing an ended number"))
  else if openLimit ≤ l.peerOpen then l.warn (.dropped "a 65th OPEN from the peer")
  else
    match parseChannelId payload with
    | none => l.warn (.dropped "an OPEN with an id outside [A-Za-z0-9-]\x7b1,32\x7d")
    | some id =>
      if l.unaccepted.any (fun p => p.1 = id) then
        l.warn (.dropped "an OPEN reusing an id not yet accepted")
      else
        { l.put number (Channel.new number id false) with
          highestPeer := number
          channels := l.channels ++ [number]
          unaccepted := l.unaccepted ++ [(id, number)]
          peerOpen := l.peerOpen + 1 }

/-- `#dispatch`: the message of a live channel. -/
def dispatch (type : EnvelopeType) (number : Nat) (payload : Bytes) (again : Nat) : Link :=
  match type with
  | .OPEN => l
  | .DATA => l.on number (fun c => c.onData payload again)
  | .END => l.on number (fun c => c.onEnd again)
  | .STOP => l.on number Channel.onStop
  | .CREDIT => l.on number (fun c => c.onCredit (parseCredit payload) l.unsentBytes)
  | .RESET => l.on number (fun c => c.onReset (parseResetReason payload))

def onBinary (bytes : Bytes) (again : Nat) : Link :=
  match parseEnvelope bytes with
  | none => l.warn (.dropped "a message too short to read")
  | some e =>
    match isEnvelopeType e.type with
    | none => l.warn (.dropped "an unknown envelope type")
    | some .OPEN => l.onOpen e.number e.payload
    | some type =>
      if e.number ∈ l.channels then l.dispatch type e.number e.payload again
      else if l.isLate e.number then l
      else l.warn (.dropped "a channel number the peer never opened")

def onMessage (again : Nat) : Message → Link
  | .text t => { l with pendingText := l.pendingText ++ [t] }
  | .binary e => l.onBinary e.bytes again

/-- `#onTransportClosed`. -/
def onTransportClosed : Link :=
  if l.closed then l
  else
    { l with
      closed := true
      priority := []
      ring := []
      inRing := []
      waiters := []
      objects := fun n =>
        if n ∈ l.channels then (l.objects n).map (fun c => (c.closeWith ⟨.closed, none⟩).1)
        else l.objects n
      channels := []
      unaccepted := [] }

/-! ### What can happen at an end by itself -/

/-- What the application does with a channel it holds. -/
inductive AppCall where
  | write (chunk : Bytes)
  | close
  | abortWritable
  | read (again : Nat)
  | cancel
  | abort (reason : Option String)
  | whenCredit
  deriving DecidableEq, Repr

def appCall (unsentBytes : Nat) : AppCall → Channel → Channel × List HostCall
  | .write chunk, c => (c.write chunk, [])
  | .close, c => (c.close, [])
  | .abortWritable, c => (c.abortWritable, [])
  | .read again, c => c.pull again
  | .cancel, c => c.cancel
  | .abort reason, c => c.abort reason
  | .whenCredit, c => (c.whenCredit unsentBytes, [])

/-- Steps of one end that take nothing from the transport and give it nothing. `sink` and `resume`
    are the writable stream's own turns, `written` a write the transport finished, `sent` a new
    count of its unsent bytes, and `generate` what the id generator will return. -/
inductive LocalAction where
  | openChannel (waiter : Nat)
  | abortWaiter (waiter : Nat)
  | acceptChannel (id : String)
  | app (n : Nat) (call : AppCall)
  | sink (n : Nat)
  | resume (n : Nat)
  | written (n : Nat)
  | acceptTimeout (n : Nat)
  | stallTimeout (n : Nat)
  | sent (unsentBytes : Nat)
  | sendText (text : String)
  | generate (ids : List String)
  | close
  deriving DecidableEq, Repr

def localStep : LocalAction → Link
  | .openChannel w => l.openChannel w
  | .abortWaiter w => l.abortWaiter w
  | .acceptChannel id => l.acceptChannel id
  | .app n call => l.on n (fun c => if c.accepted then appCall l.unsentBytes call c else (c, []))
  | .sink n => l.on n (fun c => c.sinkNext l.unsentBytes)
  | .resume n => l.on n (fun c => c.resumeWrite l.unsentBytes)
  | .written n => l.on n (fun c => (c.onItemWritten l.unsentBytes, []))
  | .acceptTimeout n => l.on n Channel.acceptTimeout
  | .stallTimeout n => l.on n Channel.stallTimeout
  | .sent unsentBytes =>
    { l with
      unsentBytes := unsentBytes
      objects := fun n =>
        if n ∈ l.channels then (l.objects n).map (fun c => c.updateStall unsentBytes)
        else l.objects n }
  | .sendText t => l.text t
  | .generate ids => { l with generatedIds := l.generatedIds ++ ids }
  | .close => l.onTransportClosed

/-! ### Two ends and an ordered transport -/

inductive Side where
  | worker | gateway
  deriving DecidableEq, Repr

def Side.other : Side → Side
  | .worker => .gateway
  | .gateway => .worker

/-- `wire s` is what end `s` has written to the transport and the other end has not received. -/
structure Pair where
  ends : Side → Link
  wire : Side → List Message

namespace Pair

def create : Pair where
  ends := fun s => Link.create (s = .worker)
  wire := fun _ => []

inductive Action where
  | act (s : Side) (a : Link.LocalAction)
  | pump (s : Side)
  | receive (s : Side) (again : Nat)
  deriving DecidableEq, Repr

/-- One step of the connection. A closed end is given nothing more. -/
def step (p : Pair) : Action → Pair
  | .act s a => { p with ends := Function.update p.ends s ((p.ends s).localStep a) }
  | .pump s =>
    { ends := Function.update p.ends s (p.ends s).pump.1
      wire := Function.update p.wire s (p.wire s ++ (p.ends s).pump.2.toList) }
  | .receive s again =>
    if (p.ends s).closed then p
    else
      match p.wire s.other with
      | [] => p
      | m :: rest =>
        { ends := Function.update p.ends s ((p.ends s).onMessage again m)
          wire := Function.update p.wire s.other rest }

end Pair

end Link

end Simlock
