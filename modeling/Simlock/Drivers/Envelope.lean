import Simlock.Drivers.H264
import Simlock.Drivers.ScrcpyVideo

/-! The frames a viewer reads, made from the packets of a screen server.

    A frame is its length, a tag and a payload. A session gives a meta frame; a config packet gives
    none, its parameter sets wait for the next picture:

        session ─▶ meta            (the sets of the last session are forgotten)
        config  ─▶                 (a description is due)
        picture ─▶ [description,] keyframe or delta -/

namespace Simlock.Drivers

open Simlock.Link (Bytes setUint32)

/-! ### Frames -/

/-- The tags of `SCREEN_FRAME_TAG` that the mapper writes. -/
inductive ScreenFrameTag
  | description | keyframe | delta | screenMeta
  deriving DecidableEq, Repr

def ScreenFrameTag.code : ScreenFrameTag → UInt8
  | .description => 0x01
  | .keyframe => 0x02
  | .delta => 0x03
  | .screenMeta => 0x05

def screenFrameHeaderBytes : Nat := 5

def encodeScreenFrame (tag : ScreenFrameTag) (payload : Bytes) : Bytes :=
  setUint32 (payload.length + 1) ++ tag.code :: payload

@[simp] theorem length_encodeScreenFrame (tag : ScreenFrameTag) (payload : Bytes) :
    (encodeScreenFrame tag payload).length = screenFrameHeaderBytes + payload.length := by
  simp [encodeScreenFrame, screenFrameHeaderBytes]
  omega

@[simp] theorem tag_encodeScreenFrame (tag : ScreenFrameTag) (payload : Bytes) :
    (encodeScreenFrame tag payload)[4]? = some tag.code := rfl

/-- What a viewer asks of a picture; its schema bounds the frames per second. -/
structure ScreenSettings where
  fps : Nat
  fps_range : 1 ≤ fps ∧ fps ≤ 60

/-- `JSON.stringify` of the meta of an H.264 stream, its fields in the order they are written. -/
def screenMetaJson (fps : Nat) (height width : UInt32) : String :=
  "\x7b\"codec\":\"h264\",\"fps\":" ++ toString fps ++ ",\"height\":" ++ toString height.toNat ++
    ",\"width\":" ++ toString width.toNat ++ "\x7d"

/-- `TextEncoder.encode` of ASCII text. -/
def encodeText (text : String) : Bytes := text.toList.map fun c => UInt8.ofNat c.toNat

def encodeScreenMeta (fps : Nat) (height width : UInt32) : Bytes :=
  encodeScreenFrame .screenMeta (encodeText (screenMetaJson fps height width))

/-! ### The mapper -/

def maxFrameBytes : Nat := 8 * 1024 * 1024

structure EnvelopeMapper where
  sps : List Bytes
  pps : List Bytes
  descriptionDue : Bool
  sessionSeen : Bool
  deriving DecidableEq, Repr

namespace EnvelopeMapper

def start : EnvelopeMapper := ⟨[], [], false, false⟩

/-- The sequence and picture parameter sets of a config packet replace those they name. -/
def learn (nals : List Bytes) (m : EnvelopeMapper) : EnvelopeMapper :=
  let sps := nals.filter (nalType · = NAL_TYPE_SPS)
  let pps := nals.filter (nalType · = NAL_TYPE_PPS)
  { m with
    sps := if sps.length > 0 then sps else m.sps
    pps := if pps.length > 0 then pps else m.pps
    descriptionDue := true }

/-- The frame of the parameter sets, where it is due. -/
def describe (m : EnvelopeMapper) : Except String (List Bytes) :=
  if m.descriptionDue then
    (avcDecoderConfiguration m.sps m.pps).map fun record => [encodeScreenFrame .description record]
  else if m.sps.length = 0 then
    .error "The screen server sent a picture before its parameter sets"
  else .ok []

def pictureTag (key : Bool) : ScreenFrameTag := if key then .keyframe else .delta

/-- The frame of a picture, refused where it is longer than a viewer reads. -/
def picture (key : Bool) (nals : List Bytes) : Except String Bytes :=
  let picture := encodeScreenFrame (pictureTag key) (toAvcc nals)
  if maxFrameBytes < picture.length then
    .error ("A " ++ toString picture.length ++ "-byte frame is past what a viewer reads")
  else .ok picture

def map (settings : ScreenSettings) (m : EnvelopeMapper) :
    ScrcpyVideoEvent → Except String (List Bytes × EnvelopeMapper)
  | .session width height =>
    .ok ([encodeScreenMeta settings.fps height width], ⟨[], [], false, true⟩)
  | .media config key _ payload =>
    if m.sessionSeen = false then
      .error "The screen server sent video before it named the picture's size"
    else
      match splitAnnexB payload with
      | .error message => .error message
      | .ok nals =>
        if config then .ok ([], m.learn nals)
        else
          match m.describe, picture key nals with
          | .error message, _ => .error message
          | .ok _, .error message => .error message
          | .ok described, .ok frame =>
            .ok (described ++ [frame], { m with descriptionDue := false })

/-- The frames of each event in turn, until one is refused. -/
def mapAll (settings : ScreenSettings) (m : EnvelopeMapper) :
    List ScrcpyVideoEvent → Except String (List (List Bytes))
  | [] => .ok []
  | event :: events =>
    match m.map settings event with
    | .error message => .error message
    | .ok (frames, m') =>
      match m'.mapAll settings events with
      | .error message => .error message
      | .ok more => .ok (frames :: more)

end EnvelopeMapper

/-! ### The meta frame is short -/

theorem length_encodeScreenMeta (settings : ScreenSettings) (height width : UInt32) :
    (encodeScreenMeta settings.fps height width).length ≤ maxFrameBytes := by
  have hfps : (toString settings.fps).length ≤ 2 :=
    (Nat.length_repr_le_iff (by decide)).2 (by have := settings.fps_range; omega)
  have hheight : (toString height.toNat).length ≤ 10 :=
    (Nat.length_repr_le_iff (by decide)).2 (by have := height.toNat_lt; omega)
  have hwidth : (toString width.toNat).length ≤ 10 :=
    (Nat.length_repr_le_iff (by decide)).2 (by have := width.toNat_lt; omega)
  unfold encodeScreenMeta encodeText screenMetaJson
  rw [length_encodeScreenFrame, List.length_map, String.length_toList]
  simp only [String.length_append]
  have hopen : "\x7b\"codec\":\"h264\",\"fps\":".length = 22 := rfl
  have hmiddle : ",\"height\":".length = 10 := rfl
  have hlast : ",\"width\":".length = 9 := rfl
  have hclose : "\x7d".length = 1 := rfl
  unfold maxFrameBytes screenFrameHeaderBytes
  omega

end Simlock.Drivers
