import Simlock.Lib.Run

/-! One relayed exchange of the gateway.

    A caller's request goes to a worker over a channel of its own, and the worker's response comes
    back over it; the head and the end of the call arrive beside the channel:

        open channel --> relay.request . request body ------------> END
                     \-> head --> response body of the worker ----> END
        timers       deadline (open, head)   silence (a file upload's body)   idle (response body)

    An action is an event the exchange reacts to or an await of it that goes on; anything else may
    happen in between. `upload` is a file upload, whose start deadline ends when the channel opens:
    from there its body is bounded by silence, and its head deadline counts from the body's end. -/

namespace Simlock.Relay

/-- What is known of the call at its start. Only a one-way relay is a file upload. -/
structure Call where
  twoWay : Bool
  hasBody : Bool
  upload : Bool
  headMethod : Bool
  oneWay : upload = true → twoWay = false

inductive LinkChannelErrorReason where
  | aborted | invalid | notAccepted | stalled | closed | stopped
  deriving DecidableEq, Repr

/-- What a stream of the exchange fails with. -/
inductive Failure where
  | channel (reason : LinkChannelErrorReason)
  | other
  deriving DecidableEq, Repr

inductive RelayError where
  | callerAborted | unreachable | pastDeadline | uploadStalled | silent | invalidResponse
  | notTaken | readerBehind | bodyNotRead | endedWithoutResponse | endedEarly
  | workerError | failed
  deriving DecidableEq, Repr

inductive Answer where
  | response
  | error (e : RelayError)
  deriving DecidableEq, Repr

/-- Where the upload of the request body stands; `closing` waits for the end it has sent. -/
inductive Upload where
  | unstarted | reading | writing | closing | finished
  deriving DecidableEq, Repr

/-- The one read of the worker's direction that is kept ahead. -/
inductive Ahead where
  | unread | pending | chunk | ended | failed
  deriving DecidableEq, Repr

/-- Who awaits that read: a one-way body's `pull`, a two-way one's `pump`, or `drain`. -/
inductive Consumer where
  | pull | pump | drain
  deriving DecidableEq, Repr

/-- A timer that is set, and what the exchange fails with when it fires. -/
structure Timer where
  id : Nat
  error : RelayError
  deriving DecidableEq, Repr

/-- `armed` holds the timers set and neither fired nor cancelled; `ownEnded` says the gateway's
    direction of the channel was closed or stopped by the worker, `reset` that either side aborted
    the channel. A call whose signal was aborted at the start is as good as `done`: nothing of it
    was set up. -/
structure Exchange where
  call : Call
  armed : List Timer
  nextTimer : Nat
  timer : Option Nat
  idleTimer : Option Nat
  silenceTimer : Option Nat
  opening : Bool
  opened : Bool
  ownEnded : Bool
  reset : Bool
  requestSent : Bool
  cancelSent : Bool
  cancels : Nat
  done : Bool
  headed : Bool
  answered : Bool
  peerAborted : Bool
  piped : Bool
  readEnded : Bool
  writeEnded : Bool
  upload : Upload
  bodyTaken : Bool
  bodyCancelled : Bool
  ahead : Ahead
  consumer : Option Consumer
  answers : List Answer

namespace Exchange

/-! ### Timers -/

def setTimer (s : Exchange) (error : RelayError) : Exchange :=
  { s with armed := ⟨s.nextTimer, error⟩ :: s.armed, nextTimer := s.nextTimer + 1 }

def cancelTimer (s : Exchange) (handle : Option Nat) : Exchange :=
  { s with armed := s.armed.filter fun t => handle ≠ some t.id }

def armDeadline (s : Exchange) : Exchange :=
  { s.setTimer .pastDeadline with timer := some s.nextTimer }

def armSilence (s : Exchange) : Exchange :=
  if s.call.upload then { s.setTimer .uploadStalled with silenceTimer := some s.nextTimer } else s

def disarmSilence (s : Exchange) : Exchange :=
  { s.cancelTimer s.silenceTimer with silenceTimer := none }

def disarmIdle (s : Exchange) : Exchange := { s.cancelTimer s.idleTimer with idleTimer := none }

def armIdle (s : Exchange) : Exchange :=
  if !s.headed || s.done then s
  else { (s.cancelTimer s.idleTimer).setTimer .silent with idleTimer := some s.nextTimer }

def endStartDeadlineOfUpload (s : Exchange) : Exchange :=
  if s.call.upload && s.timer.isSome then { s.cancelTimer s.timer with timer := none } else s

def armHeadDeadline (s : Exchange) : Exchange :=
  if !s.call.upload || s.done || s.headed then s else s.armDeadline

/-! ### The end -/

def finish (s : Exchange) : Exchange :=
  if s.done then s
  else
    { (((s.cancelTimer s.timer).cancelTimer s.idleTimer).disarmSilence) with
      done := true, bodyCancelled := s.bodyCancelled || s.bodyTaken }

def sendCancel (s : Exchange) : Exchange :=
  if !s.requestSent || s.cancelSent then s
  else { s with cancelSent := true, cancels := s.cancels + 1 }

/-- `channel?.abort()`. -/
def abortChannel (s : Exchange) : Exchange := { s with reset := s.reset || s.opened }

def fail (s : Exchange) (e : RelayError) : Exchange :=
  if s.done then s
  else
    let t := s.sendCancel.abortChannel
    { t with answers := if t.headed then t.answers else t.answers ++ [Answer.error e] }.finish

def abandon (s : Exchange) : Exchange :=
  if s.done then s else s.sendCancel.abortChannel.finish

def endedEarly (s : Exchange) : RelayError :=
  if s.headed then .endedEarly else .endedWithoutResponse

/-- A channel that fails is reset, whichever side it was; a worker's abort waits for the answer that
    says why. -/
def onChannelError (s : Exchange) (f : Failure) : Exchange :=
  if s.done then s
  else
    match f with
    | .other => s.fail .failed
    | .channel reason =>
      let t := { s with reset := true }
      match reason with
      | .aborted =>
        let u := { t with peerAborted := true }
        if u.answered then u.fail u.endedEarly else u
      | .closed => t.fail .unreachable
      | .notAccepted => t.fail .notTaken
      | .stalled => t.fail (if t.headed then .readerBehind else .bodyNotRead)
      | .invalid | .stopped => t.fail .invalidResponse

def maybeComplete (s : Exchange) : Exchange :=
  if s.readEnded && s.writeEnded then s.finish else s

/-! ### The request body -/

/-- `upload`, up to its first await. -/
def startUpload (s : Exchange) : Exchange :=
  if s.call.hasBody then { s.armSilence with bodyTaken := true, upload := .reading }
  else { s with ownEnded := true, upload := .closing }

def uploadFailed (s : Exchange) (f : Failure) : Exchange :=
  if s.done then s
  else
    match f with
    | .channel .stopped => { s with bodyCancelled := true, ownEnded := true }.armHeadDeadline
    | .channel reason => s.onChannelError (.channel reason)
    | .other => s.fail .failed

inductive Read where
  | chunk
  | ended
  | failed (f : Failure)
  deriving DecidableEq, Repr

inductive Written where
  | ok
  | failed (f : Failure)
  deriving DecidableEq, Repr

/-- The read of the caller's body goes on. -/
def bodyReads (s : Exchange) (r : Read) : Exchange :=
  if s.upload = .reading then
    match r with
    | .failed _ => { s with upload := .finished }.uploadFailed .other
    | .chunk =>
      let t := s.disarmSilence
      if t.done then { t with upload := .finished } else { t with upload := .writing }
    | .ended =>
      let t := s.disarmSilence
      if t.done then { t with upload := .finished }
      else { t with upload := .closing, ownEnded := true }
  else s

/-- The write to the channel goes on: it asks nothing before the next read. -/
def writeSettles (s : Exchange) (w : Written) : Exchange :=
  if s.upload = .writing then
    match w with
    | .ok => { s.armSilence with upload := .reading }
    | .failed f => { s with upload := .finished }.uploadFailed f
  else s

/-- The close of the gateway's direction goes on; without a body its failure is dropped. -/
def closeSettles (s : Exchange) (w : Written) : Exchange :=
  if s.upload = .closing then
    match w with
    | .ok => { s with upload := .finished }.armHeadDeadline
    | .failed f =>
      if s.call.hasBody then { s with upload := .finished }.uploadFailed f
      else { s with upload := .finished }.armHeadDeadline
  else s

/-! ### The worker's direction -/

def look (s : Exchange) : Exchange :=
  if s.ahead = .unread then { s with ahead := .pending } else s

/-- The read kept ahead settles. -/
def readSettles (s : Exchange) (r : Read) : Exchange :=
  if s.ahead = .pending then
    match r with
    | .chunk => { s with ahead := .chunk }.armIdle
    | .ended => { s with ahead := .ended }
    | .failed f => { s with ahead := .failed }.onChannelError f
  else s

/-- The caller's body asks for more. -/
def pull (s : Exchange) : Exchange :=
  if s.headed && s.consumer.isNone then
    if s.piped then { s.armIdle.look with consumer := some .pump }
    else { s.look with consumer := some .pull }
  else s

/-- Who awaits the read goes on with it; `full` says the reader's queue has no room left. -/
def resume (s : Exchange) (full : Bool) : Exchange :=
  match s.consumer, s.ahead with
  | some _, .failed => { s with consumer := none }
  | some c, .chunk =>
    let t := { s with ahead := .unread }
    if t.done then { t with consumer := none }
    else
      match c with
      | .pull => { t with consumer := none }
      | .pump =>
        let u := { t with consumer := none }
        if full then u.disarmIdle else u
      | .drain => t.look
  | some c, .ended =>
    let t := { s with ahead := .unread, consumer := none }
    if t.done then t
    else
      match c with
      | .pull | .drain => t.finish
      | .pump => { t.disarmIdle with readEnded := true }.maybeComplete
  | some _, .unread | some _, .pending | none, _ => s

/-! ### Head, answer and channel -/

def noBodyStatus (status : Nat) : Bool := status = 204 || status = 205 || status = 304

/-- The caller has its response. -/
def resolve (s : Exchange) : Exchange := { s with answers := s.answers ++ [.response] }

/-- A 2xx head of a two-way relay hands back both directions. -/
def openTwoWay (s : Exchange) : Exchange := { s with piped := true }.armIdle.resolve

/-- The response of any other relay; one without a body is read to the channel's end. -/
def respond (s : Exchange) (status : Nat) : Exchange :=
  let t := s.armIdle.resolve
  if t.call.headMethod || noBodyStatus status then { t.look with consumer := some .drain } else t

/-- A head with a status from 200 to 599; `accepted` says its headers are ones a caller can get. -/
def onHead (s : Exchange) (status : Nat) (accepted : Bool) : Exchange :=
  if s.done then s
  else if s.headed || !accepted then s.fail .invalidResponse
  else
    let t := ({ s with headed := true }.cancelTimer s.timer).disarmSilence
    if t.call.twoWay then
      if 200 ≤ status && status < 300 then t.openTwoWay
      else { t with ownEnded := true }.respond status
    else t.respond status

def onAnswer (s : Exchange) (cancelled : Bool) : Exchange :=
  if s.done then s
  else if s.peerAborted then s.fail s.endedEarly
  else if cancelled || !s.headed then s.fail .endedWithoutResponse
  else { s with answered := true }

/-- The channel opens. One that comes too late is aborted. -/
def opens (s : Exchange) : Exchange :=
  let t := { s with opening := false, opened := true }
  if t.done then { t with reset := true }
  else
    let u := { t.endStartDeadlineOfUpload.look with requestSent := true }
    if u.call.twoWay then u else u.startUpload

/-- A write of the module to a two-way relay. -/
def moduleWrite (s : Exchange) (w : Written) : Exchange :=
  match w with
  | .ok => s
  | .failed (.channel .stopped) => { s with ownEnded := true, writeEnded := true }.maybeComplete
  | .failed f => s.onChannelError f

def moduleClose (s : Exchange) (w : Written) : Exchange :=
  match w with
  | .ok | .failed (.channel .stopped) =>
    { s with ownEnded := true, writeEnded := true }.maybeComplete
  | .failed f => s.onChannelError f

def create (call : Call) : Exchange :=
  { call, armed := [], nextTimer := 0, timer := none, idleTimer := none, silenceTimer := none
    opening := false, opened := false, ownEnded := false, reset := false, requestSent := false
    cancelSent := false, cancels := 0, done := false, headed := false, answered := false
    peerAborted := false, piped := false, readEnded := false, writeEnded := false
    upload := .unstarted, bodyTaken := false, bodyCancelled := false, ahead := .unread
    consumer := none, answers := [] }

/-- Up to the first await. `aborted` is the caller's signal, `reachable` whether the worker has a
    live client. -/
def start (call : Call) (aborted reachable : Bool) : Exchange :=
  if aborted then { create call with done := true, answers := [.error .callerAborted] }
  else if reachable then { (create call).armDeadline with opening := true }
  else (create call).armDeadline.fail .unreachable

inductive Act where
  | opens
  | openFails
  | head (status : Nat) (accepted : Bool)
  | invalidPush
  | answer (cancelled : Bool)
  | callError
  | fires (id : Nat)
  | callerAborts
  | callerCancels
  | bodyReads (r : Read)
  | writeSettles (w : Written)
  | closeSettles (w : Written)
  | readSettles (r : Read)
  | pull
  | resume (full : Bool)
  | moduleWrite (w : Written)
  | moduleClose (w : Written)
  | workerStops
  deriving DecidableEq, Repr

/-- A timer fires: it fails the exchange. -/
def fires (s : Exchange) (id : Nat) : Exchange :=
  match s.armed.find? (·.id = id) with
  | some t => (s.cancelTimer (some id)).fail t.error
  | none => s

/-- One action; it does nothing where it cannot happen. -/
def step (s : Exchange) : Act → Exchange
  | .opens => if s.opening then s.opens else s
  | .openFails => if s.opening then { s with opening := false }.fail .unreachable else s
  | .head status accepted => if s.requestSent then s.onHead status accepted else s
  | .invalidPush => if s.requestSent then s.fail .invalidResponse else s
  | .answer cancelled => if s.requestSent then s.onAnswer cancelled else s
  | .callError => if s.requestSent then s.fail .workerError else s
  | .fires id => s.fires id
  | .callerAborts => s.fail .callerAborted
  | .callerCancels => if s.headed then s.abandon else s
  | .bodyReads r => s.bodyReads r
  | .writeSettles w => s.writeSettles w
  | .closeSettles w => s.closeSettles w
  | .readSettles r => s.readSettles r
  | .pull => s.pull
  | .resume full => s.resume full
  | .moduleWrite w => if s.piped then s.moduleWrite w else s
  | .moduleClose w => if s.piped then s.moduleClose w else s
  | .workerStops => if s.opened then { s with ownEnded := true } else s

end Exchange

end Simlock.Relay
