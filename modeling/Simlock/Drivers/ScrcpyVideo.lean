import Simlock.Lib.Chunks
import Simlock.Link.Envelope

/-! The video socket of a screen server, read in whatever chunks it comes.

    The stream is a codec id and then packets, each with a header of 12 bytes; a session packet is
    its header alone, a media packet names the size of the payload that follows it:

        codec id ─▶ header ──(session)──▶ header
                      │ ▲
              (media) ▼ │ (size bytes)
                    payload

    The chunks wait in a queue until what is read next is there in whole. The queue is a list of
    chunks and its bytes what they join to: reading depends on the bytes alone, so the events are
    those of the whole stream however it was cut. -/

namespace Simlock.Drivers

open Simlock.Lib
open Simlock.Link (Bytes getUint32)

/-! ### The queue -/

/-- The chunks and the number of their bytes. -/
structure ByteQueue where
  chunks : List Bytes
  length : Nat
  length_eq : length = chunks.flatten.length

namespace ByteQueue

def empty : ByteQueue := ⟨[], 0, rfl⟩

def bytes (q : ByteQueue) : Bytes := q.chunks.flatten

def push (chunk : Bytes) (q : ByteQueue) : ByteQueue :=
  if chunk.length = 0 then q
  else ⟨q.chunks ++ [chunk], q.length + chunk.length, by simp [q.length_eq]⟩

/-- The first `count` bytes of the chunks, and the chunks that are left. -/
def takeChunks : Nat → List Bytes → Bytes × List Bytes
  | 0, chunks => ([], chunks)
  | _ + 1, [] => ([], [])
  | count + 1, head :: chunks =>
    let used := min head.length (count + 1)
    if used = head.length then
      let (out, left) := takeChunks (count + 1 - used) chunks
      (head ++ out, left)
    else (head.take used, head.drop used :: chunks)

theorem takeChunks_spec (count : Nat) (chunks : List Bytes) :
    (takeChunks count chunks).1 = chunks.flatten.take count ∧
      (takeChunks count chunks).2.flatten = chunks.flatten.drop count := by
  induction chunks generalizing count with
  | nil => cases count <;> simp [takeChunks]
  | cons head chunks ih =>
    cases count with
    | zero => simp [takeChunks]
    | succ count =>
      rw [takeChunks]
      dsimp only
      split
      · rename_i hused
        have hle : head.length ≤ count + 1 := by omega
        obtain ⟨hout, hleft⟩ := ih (count + 1 - min head.length (count + 1))
        rw [hused] at hout hleft ⊢
        rw [List.flatten_cons, List.take_append, List.drop_append, List.take_of_length_le hle,
          List.drop_eq_nil_of_le hle]
        exact ⟨by rw [hout], by rw [hleft, List.nil_append]⟩
      · rename_i hused
        have hless : count + 1 < head.length := by omega
        have hmin : min head.length (count + 1) = count + 1 := by omega
        rw [hmin, List.flatten_cons, List.flatten_cons, List.take_append, List.drop_append]
        have hzero : count + 1 - head.length = 0 := by omega
        simp [hzero]

/-- The first bytes out of the queue; none past its end. -/
def take (count : Nat) (q : ByteQueue) : Option (Bytes × ByteQueue) :=
  if h : count ≤ q.length then
    some ((takeChunks count q.chunks).1,
      ⟨(takeChunks count q.chunks).2, q.length - count, by
        rw [(takeChunks_spec count q.chunks).2, List.length_drop, q.length_eq]⟩)
  else none

theorem push_bytes (chunk : Bytes) (q : ByteQueue) : (q.push chunk).bytes = q.bytes ++ chunk := by
  unfold push
  split
  · rename_i hempty
    rw [List.length_eq_zero_iff.1 hempty, List.append_nil]
  · simp [bytes]

theorem length_bytes (q : ByteQueue) : q.bytes.length = q.length := q.length_eq.symm

theorem take_bytes {count : Nat} {q : ByteQueue} (h : count ≤ q.length) :
    ∃ q', q.take count = some (q.bytes.take count, q') ∧ q'.bytes = q.bytes.drop count := by
  obtain ⟨hout, hleft⟩ := takeChunks_spec count q.chunks
  unfold take
  rw [dif_pos h, hout]
  exact ⟨_, rfl, hleft⟩

end ByteQueue

/-! ### The packets -/

def scrcpyCodecH264 : Nat := 0x68323634
def scrcpyStreamDisabled : Nat := 0
def scrcpyStreamConfigError : Nat := 1
def codecIdBytes : Nat := 4
def packetHeaderBytes : Nat := 12
def maxScrcpyPacketBytes : Nat := 8 * 1024 * 1024
def maxVideoSide : Nat := 16384

inductive ScrcpyVideoEvent
  | session (width height : UInt32)
  | media (config key : Bool) (pts : Nat) (payload : Bytes)
  deriving DecidableEq, Repr

/-- The header of a media packet whose payload is awaited. -/
structure Pending where
  config : Bool
  key : Bool
  pts : Nat
  size : Nat
  deriving DecidableEq, Repr

def hexadecimal (n : Nat) : String := String.ofList (Nat.toDigits 16 n)

def readCodec (id : Nat) : Except String Unit :=
  if id = scrcpyCodecH264 then .ok ()
  else if id = scrcpyStreamDisabled then
    .error "The screen server disabled its video stream"
  else if id = scrcpyStreamConfigError then
    .error "The screen server could not configure its video stream"
  else .error ("The screen server chose codec 0x" ++ hexadecimal id ++ ", not H.264")

/-- A packet's header: a session, or the pending header of a media packet. The flags are the top
    three bits of the first word, the rest of it the high part of the time stamp. -/
def readHeader (header : Bytes) : Except String (ScrcpyVideoEvent ⊕ Pending) :=
  let high := getUint32 header
  let second := getUint32 (header.drop 4)
  let third := getUint32 (header.drop 8)
  if high.testBit 31 then
    if second = 0 ∨ third = 0 ∨ maxVideoSide < second ∨ maxVideoSide < third then
      .error ("The screen server announced a " ++ toString second ++ "x" ++ toString third ++
        " picture")
    else .ok (.inl (.session (UInt32.ofNat second) (UInt32.ofNat third)))
  else if maxScrcpyPacketBytes < third then
    .error ("The screen server sent a " ++ toString third ++ "-byte packet")
  else
    .ok (.inr ⟨high.testBit 30, high.testBit 29, high % 2 ^ 29 * 2 ^ 32 + second, third⟩)

/-! ### The parser -/

/-- What the parser keeps between reads, its queue apart. -/
structure Awaited where
  codecRead : Bool
  pending : Option Pending
  deriving DecidableEq, Repr

/-- How many bytes the next read takes. -/
def Awaited.wanted (awaited : Awaited) : Nat :=
  if awaited.codecRead then
    match awaited.pending with
    | some pending => pending.size
    | none => packetHeaderBytes
  else codecIdBytes

/-- A read of the bytes wanted: the events it gives and what is awaited after it. -/
def Awaited.read (awaited : Awaited) (bytes : Bytes) :
    Except String (List ScrcpyVideoEvent × Awaited) :=
  if awaited.codecRead then
    match awaited.pending with
    | some pending =>
      .ok ([.media pending.config pending.key pending.pts bytes], { awaited with pending := none })
    | none =>
      match readHeader bytes with
      | .error message => .error message
      | .ok (.inl session) => .ok ([session], awaited)
      | .ok (.inr pending) => .ok ([], { awaited with pending := some pending })
  else
    match readCodec (getUint32 bytes) with
    | .error message => .error message
    | .ok () => .ok ([], { awaited with codecRead := true })

structure ScrcpyVideoParser where
  queue : ByteQueue
  awaited : Awaited

namespace ScrcpyVideoParser

def start : ScrcpyVideoParser := ⟨.empty, ⟨false, none⟩⟩

/-- `#next`: nothing until the bytes wanted are there. A header read without an event is read on at
    once, as by the push loop. -/
def next (p : ScrcpyVideoParser) :
    Except String (Option (List ScrcpyVideoEvent × ScrcpyVideoParser)) :=
  if p.queue.length < p.awaited.wanted then .ok none
  else
    match p.queue.take p.awaited.wanted with
    | none => .error "ByteQueue.take past its end"
    | some (bytes, queue) =>
      match p.awaited.read bytes with
      | .error message => .error message
      | .ok (events, awaited) => .ok (some (events, ⟨queue, awaited⟩))

/-- Reads use up bytes or a pending header. -/
def readsLeft (length : Nat) (awaited : Awaited) : Nat :=
  2 * length + if awaited.pending.isSome then 1 else 0

def push (chunk : Bytes) (p : ScrcpyVideoParser) :
    Except String (List ScrcpyVideoEvent × ScrcpyVideoParser) :=
  let p := { p with queue := p.queue.push chunk }
  drain next (readsLeft p.queue.length p.awaited + 1) p

/-- The chunks of a stream pushed one after the other, until one fails. -/
def pushAll (p : ScrcpyVideoParser) : List Bytes →
    Except String (List ScrcpyVideoEvent × ScrcpyVideoParser)
  | [] => .ok ([], p)
  | chunk :: chunks =>
    match p.push chunk with
    | .error message => .error message
    | .ok (events, p') =>
      match p'.pushAll chunks with
      | .error message => .error message
      | .ok (events', p'') => .ok (events ++ events', p'')

/-- What a stream in chunks is read as: its events, or why it failed. -/
def events (chunks : List Bytes) : Except String (List ScrcpyVideoEvent) :=
  (start.pushAll chunks).map Prod.fst

end ScrcpyVideoParser

/-! ### The parser on the bytes -/

/-- The same parser with its bytes in one piece. -/
structure VideoReader where
  bytes : Bytes
  awaited : Awaited

namespace VideoReader

def next (r : VideoReader) : Except String (Option (List ScrcpyVideoEvent × VideoReader)) :=
  if r.bytes.length < r.awaited.wanted then .ok none
  else
    match r.awaited.read (r.bytes.take r.awaited.wanted) with
    | .error message => .error message
    | .ok (events, awaited) => .ok (some (events, ⟨r.bytes.drop r.awaited.wanted, awaited⟩))

def feed (r : VideoReader) (more : Bytes) : VideoReader := { r with bytes := r.bytes ++ more }

def size (r : VideoReader) : Nat := ScrcpyVideoParser.readsLeft r.bytes.length r.awaited

/-- A read takes bytes, or leaves no header pending. -/
theorem read_pending {awaited awaited' : Awaited} {bytes : Bytes} {events : List ScrcpyVideoEvent}
    (h : awaited.read bytes = .ok (events, awaited')) :
    0 < awaited.wanted ∨ awaited.pending.isSome = true ∧ awaited'.pending = none := by
  obtain ⟨codecRead, pending⟩ := awaited
  cases codecRead with
  | false => exact .inl (by simp [Awaited.wanted, codecIdBytes])
  | true =>
    cases pending with
    | none => exact .inl (by simp [Awaited.wanted, packetHeaderBytes])
    | some pending =>
      refine .inr ⟨rfl, ?_⟩
      cases h
      rfl

theorem chunked : Chunked next feed size where
  shrinks r events r' hnext := by
    unfold next at hnext
    split at hnext
    · cases hnext
    · rename_i hthere
      split at hnext
      · cases hnext
      · rename_i events' awaited' hread
        cases hnext
        have hless := read_pending hread
        unfold size ScrcpyVideoParser.readsLeft
        dsimp only
        rw [List.length_drop]
        rcases hless with hpos | ⟨hsome, hnone⟩
        · split <;> split <;> omega
        · rw [hsome, hnone]
          simp only [if_true, Option.isSome_none, Bool.false_eq_true, if_false]
          omega
  reads r events r' more hnext := by
    unfold next at hnext ⊢
    split at hnext
    · cases hnext
    · rename_i hthere
      have hmore : ¬ (r.feed more).bytes.length < (r.feed more).awaited.wanted := by
        unfold feed
        rw [List.length_append]
        dsimp only
        omega
      have hle : r.awaited.wanted ≤ r.bytes.length := Nat.le_of_not_lt hthere
      have htake : (r.feed more).bytes.take (r.feed more).awaited.wanted =
          r.bytes.take r.awaited.wanted := List.take_append_of_le_length hle
      have hdrop : (r.feed more).bytes.drop (r.feed more).awaited.wanted =
          r.bytes.drop r.awaited.wanted ++ more := List.drop_append_of_le_length hle
      rw [if_neg hmore, htake, hdrop]
      split at hnext
      · cases hnext
      · rename_i hread
        cases hnext
        have hread' : (r.feed more).awaited.read (r.bytes.take r.awaited.wanted) = _ := hread
        rw [hread']
        rfl
  fails r message more hnext := by
    unfold next at hnext ⊢
    split at hnext
    · cases hnext
    · rename_i hthere
      have hmore : ¬ (r.feed more).bytes.length < (r.feed more).awaited.wanted := by
        unfold feed
        rw [List.length_append]
        dsimp only
        omega
      have hle : r.awaited.wanted ≤ r.bytes.length := Nat.le_of_not_lt hthere
      have htake : (r.feed more).bytes.take (r.feed more).awaited.wanted =
          r.bytes.take r.awaited.wanted := List.take_append_of_le_length hle
      rw [if_neg hmore, htake]
      split at hnext
      · rename_i hread
        cases hnext
        have hread' : (r.feed more).awaited.read (r.bytes.take r.awaited.wanted) = _ := hread
        rw [hread']
      · cases hnext
  feed_feed r more more' := by simp [feed]
  feed_nil r := by simp [feed]

end VideoReader

namespace ScrcpyVideoParser

def reader (p : ScrcpyVideoParser) : VideoReader := ⟨p.queue.bytes, p.awaited⟩

theorem next_reader (p : ScrcpyVideoParser) :
    (p.next).map (Option.map (Prod.map id reader)) = p.reader.next := by
  unfold next VideoReader.next
  have hlength : p.reader.bytes.length = p.queue.length := p.queue.length_bytes
  rw [hlength]
  split
  · rename_i hwaits
    rw [if_pos (by exact hwaits)]
    rfl
  · rename_i hthere
    obtain ⟨queue, htake, hrest⟩ := ByteQueue.take_bytes (Nat.le_of_not_lt hthere)
    rw [if_neg (by exact hthere), htake]
    dsimp only
    cases hread : p.awaited.read (p.queue.bytes.take p.awaited.wanted) with
    | error message =>
      have hread' : p.reader.awaited.read (p.reader.bytes.take p.reader.awaited.wanted) = _ := hread
      rw [hread']
      rfl
    | ok result =>
      have hread' : p.reader.awaited.read (p.reader.bytes.take p.reader.awaited.wanted) = _ := hread
      rw [hread']
      simp only [Except.map, Option.map_some, Prod.map_apply, id_eq, reader, hrest]

theorem push_reader (chunk : Bytes) (p : ScrcpyVideoParser) :
    (p.push chunk).map (Prod.map id reader) =
      Chunked.drainAll VideoReader.next VideoReader.size (p.reader.feed chunk) := by
  unfold push Chunked.drainAll
  dsimp only
  rw [drain_map reader next_reader]
  have hfed : reader { p with queue := p.queue.push chunk } = p.reader.feed chunk := by
    unfold reader VideoReader.feed
    dsimp only
    rw [ByteQueue.push_bytes]
  have hsize : readsLeft (p.queue.push chunk).length p.awaited =
      VideoReader.size (p.reader.feed chunk) := by
    rw [← hfed]
    unfold VideoReader.size reader
    dsimp only
    rw [ByteQueue.length_bytes]
  rw [hfed, hsize]

theorem pushAll_reader (p : ScrcpyVideoParser) (chunks : List Bytes) :
    (p.pushAll chunks).map (Prod.map id reader) =
      Chunked.pushAll VideoReader.next VideoReader.feed VideoReader.size p.reader chunks := by
  induction chunks generalizing p with
  | nil => rfl
  | cons chunk chunks ih =>
    rw [pushAll, Chunked.pushAll, ← push_reader]
    cases p.push chunk with
    | error message => rfl
    | ok result =>
      obtain ⟨events, p'⟩ := result
      simp only [Except.map, Prod.map_apply, id_eq]
      rw [← ih p']
      cases p'.pushAll chunks with
      | error message => rfl
      | ok result => rfl

/-- The events are those of the whole stream in one chunk. -/
theorem events_eq (chunks : List Bytes) :
    events chunks =
      (Chunked.drainAll VideoReader.next VideoReader.size
        (start.reader.feed chunks.flatten)).map Prod.fst := by
  have hall := pushAll_reader start chunks
  rw [VideoReader.chunked.pushAll_eq rfl] at hall
  unfold events
  rw [← hall]
  cases start.pushAll chunks with
  | error message => rfl
  | ok result => rfl

end ScrcpyVideoParser

end Simlock.Drivers
