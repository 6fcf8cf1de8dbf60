import Simlock.Drivers.Envelope

/-! What a viewer gets of a screen server's stream.

    However the stream is cut, the parser reads the same events of it. The frames made of them open
    with a meta frame; every picture comes after the description of the parameter sets its session
    named last, and its units are those of its packet. A picture past what a viewer reads is
    refused, its description is not: the frames are short where, at every picture, the sets are. -/

namespace Simlock.Drivers

open Simlock.Link (Bytes)
open EnvelopeMapper (pictureTag mapAll)

/-! ### The purpose -/

structure ParameterSets where
  sps : List Bytes
  pps : List Bytes

def ParameterSets.none : ParameterSets := ⟨[], []⟩

/-- The sets a packet names, or those named before where it names none. -/
def named (type : UInt8) (nals before : List Bytes) : List Bytes :=
  if nals.filter (nalType · = type) = [] then before else nals.filter (nalType · = type)

/-- A session has no sets until its config packets name them. -/
def ParameterSets.after (sets : ParameterSets) : ScrcpyVideoEvent → ParameterSets
  | .session _ _ => .none
  | .media true _ _ payload =>
    match splitAnnexB payload with
    | .error _ => sets
    | .ok nals => ⟨named NAL_TYPE_SPS nals sets.sps, named NAL_TYPE_PPS nals sets.pps⟩
  | .media false _ _ _ => sets

def latestSets (events : List ScrcpyVideoEvent) : ParameterSets :=
  events.foldl ParameterSets.after .none

/-- The last description since the last meta frame. -/
def described (last : Option Bytes) (frame : Bytes) : Option Bytes :=
  if frame[4]? = some ScreenFrameTag.screenMeta.code then .none
  else if frame[4]? = some ScreenFrameTag.description.code then some frame
  else last

/-- A picture of the events, with the events before it. -/
def PictureAt (events front : List ScrcpyVideoEvent) (key : Bool) (payload : Bytes) : Prop :=
  ∃ pts back, events = front ++ .media false key pts payload :: back

/-- Frames of which a viewer decodes every picture; `frames` holds those of each event. -/
structure Decodable (settings : ScreenSettings) (events : List ScrcpyVideoEvent)
    (frames : List (List Bytes)) : Prop where
  opens : events ≠ [] → ∃ height width, frames.flatten.head? =
    some (encodeScreenMeta settings.fps height width)
  pictures : ∀ front key payload, PictureAt events front key payload →
    ∃ nals record before ahead after,
      splitAnnexB payload = .ok nals ∧
      avcDecoderConfiguration (latestSets front).sps (latestSets front).pps = .ok record ∧
      frames = before ++ (ahead ++ [encodeScreenFrame (pictureTag key) (toAvcc nals)]) :: after ∧
      before.length = front.length ∧
      (before.flatten ++ ahead).foldl described .none =
        some (encodeScreenFrame .description record) ∧
      readAvcc (toAvcc nals) = some nals
  short : ∀ frame ∈ frames.flatten, frame.length ≤ maxFrameBytes

/-- At every picture, the record of the sets named last fits a frame: its header of 5 bytes, 7 of
    its own, and each set behind two bytes. -/
def SetsFit (events : List ScrcpyVideoEvent) : Prop :=
  ∀ front key payload, PictureAt events front key payload →
    screenFrameHeaderBytes + (7 + setBytes (latestSets front).sps +
      setBytes (latestSets front).pps) ≤ maxFrameBytes

/-! ### One event -/

@[simp] theorem described_description (last : Option Bytes) (record : Bytes) :
    described last (encodeScreenFrame .description record) =
      some (encodeScreenFrame .description record) := by
  rw [described, tag_encodeScreenFrame, if_neg (by decide), if_pos rfl]

@[simp] theorem described_picture (last : Option Bytes) (key : Bool) (payload : Bytes) :
    described last (encodeScreenFrame (pictureTag key) payload) = last := by
  rw [described, tag_encodeScreenFrame]
  cases key with
  | false => rw [if_neg (by decide), if_neg (by decide)]
  | true => rw [if_neg (by decide), if_neg (by decide)]

/-- The mapper keeps the latest sets, and has described them unless a description is due. -/
structure Tracks (m : EnvelopeMapper) (sets : ParameterSets) (last : Option Bytes) : Prop where
  sps : m.sps = sets.sps
  pps : m.pps = sets.pps
  done : m.descriptionDue = false → m.sps ≠ [] →
    ∃ record, avcDecoderConfiguration sets.sps sets.pps = .ok record ∧
      last = some (encodeScreenFrame .description record)

theorem named_eq (type : UInt8) (nals before : List Bytes) :
    (if (nals.filter (nalType · = type)).length > 0 then nals.filter (nalType · = type)
      else before) = named type nals before := by
  unfold named
  cases nals.filter (nalType · = type) with
  | nil => rfl
  | cons nal more => rfl

/-- What a picture is turned into: the description where it is due, and the picture. -/
structure PictureFrames (sets : ParameterSets) (last : Option Bytes) (key : Bool) (payload : Bytes)
    (out : List Bytes) (nals : List Bytes) (record : Bytes) (ahead : List Bytes) : Prop where
  units : splitAnnexB payload = .ok nals
  record_eq : avcDecoderConfiguration sets.sps sets.pps = .ok record
  out_eq : out = ahead ++ [encodeScreenFrame (pictureTag key) (toAvcc nals)]
  ahead_eq : ahead = [] ∨ ahead = [encodeScreenFrame .description record]
  last_eq : ahead.foldl described last = some (encodeScreenFrame .description record)
  short : (encodeScreenFrame (pictureTag key) (toAvcc nals)).length ≤ maxFrameBytes

theorem Tracks.picture {settings : ScreenSettings} {m m' : EnvelopeMapper} {sets : ParameterSets}
    {last : Option Bytes} {key : Bool} {pts : Nat} {payload : Bytes} {out : List Bytes}
    (h : Tracks m sets last)
    (hmap : m.map settings (.media false key pts payload) = .ok (out, m')) :
    m' = { m with descriptionDue := false } ∧
      ∃ nals record ahead, PictureFrames sets last key payload out nals record ahead := by
  rw [EnvelopeMapper.map] at hmap
  split at hmap
  · cases hmap
  · cases hnals : splitAnnexB payload with
    | error message =>
      rw [hnals] at hmap
      cases hmap
    | ok nals =>
      rw [hnals] at hmap
      dsimp only at hmap
      rw [if_neg (by decide)] at hmap
      cases hdescribe : m.describe with
      | error message =>
        rw [hdescribe] at hmap
        cases hmap
      | ok ahead =>
        cases hpicture : EnvelopeMapper.picture key nals with
        | error message =>
          rw [hdescribe, hpicture] at hmap
          cases hmap
        | ok frame =>
          rw [hdescribe, hpicture] at hmap
          cases hmap
          have hframe : maxFrameBytes ≥ (encodeScreenFrame (pictureTag key) (toAvcc nals)).length ∧
              encodeScreenFrame (pictureTag key) (toAvcc nals) = frame := by
            unfold EnvelopeMapper.picture at hpicture
            dsimp only at hpicture
            split at hpicture
            · cases hpicture
            · rename_i hshort
              exact ⟨Nat.le_of_not_lt hshort, Except.ok.inj hpicture⟩
          refine ⟨rfl, nals, ?_⟩
          unfold EnvelopeMapper.describe at hdescribe
          split at hdescribe
          · rw [h.sps, h.pps] at hdescribe
            cases hrecord : avcDecoderConfiguration sets.sps sets.pps with
            | error message =>
              rw [hrecord] at hdescribe
              cases hdescribe
            | ok record =>
              rw [hrecord] at hdescribe
              cases hdescribe
              exact ⟨record, _, hnals, hrecord, by rw [hframe.2], .inr rfl,
                described_description last record, hframe.1⟩
          · rename_i hdue
            split at hdescribe
            · cases hdescribe
            · rename_i hsps
              cases hdescribe
              have hsome : m.sps ≠ [] := fun hnil => hsps (by rw [hnil]; rfl)
              obtain ⟨record, hrecord, hlast⟩ := h.done (Bool.eq_false_iff.2 hdue) hsome
              exact ⟨record, [], hnals, hrecord, by rw [hframe.2, List.nil_append], .inl rfl,
                hlast, hframe.1⟩

theorem Tracks.config {settings : ScreenSettings} {m m' : EnvelopeMapper} {sets : ParameterSets}
    {last : Option Bytes} {key : Bool} {pts : Nat} {payload : Bytes} {out : List Bytes}
    (h : Tracks m sets last) (hmap : m.map settings (.media true key pts payload) = .ok (out, m')) :
    out = [] ∧ Tracks m' (sets.after (.media true key pts payload)) last := by
  rw [EnvelopeMapper.map] at hmap
  split at hmap
  · cases hmap
  · rw [ParameterSets.after]
    cases hnals : splitAnnexB payload with
    | error message =>
      rw [hnals] at hmap
      cases hmap
    | ok nals =>
      rw [hnals] at hmap
      cases hmap
      refine ⟨rfl, ?_, ?_, nofun⟩
      · exact (named_eq NAL_TYPE_SPS nals m.sps).trans (by rw [h.sps])
      · exact (named_eq NAL_TYPE_PPS nals m.pps).trans (by rw [h.pps])

theorem Tracks.step {settings : ScreenSettings} {m m' : EnvelopeMapper} {sets : ParameterSets}
    {last : Option Bytes} {event : ScrcpyVideoEvent} {out : List Bytes} (h : Tracks m sets last)
    (hmap : m.map settings event = .ok (out, m')) :
    Tracks m' (sets.after event) (out.foldl described last) := by
  match event with
  | .session width height =>
    cases hmap
    exact ⟨rfl, rfl, fun _ hsome => absurd rfl hsome⟩
  | .media true key pts payload =>
    obtain ⟨rfl, htracks⟩ := h.config hmap
    exact htracks
  | .media false key pts payload =>
    obtain ⟨rfl, nals, record, ahead, hframes⟩ := h.picture hmap
    refine ⟨h.sps, h.pps, fun _ _ => ⟨record, hframes.record_eq, ?_⟩⟩
    rw [hframes.out_eq, List.foldl_append, hframes.last_eq]
    exact described_picture _ key _

/-! ### All events -/

/-- The mapper before an event of a sequence it accepts, and the frames of that event. -/
theorem mapAll_at {settings : ScreenSettings} {m : EnvelopeMapper} {sets : ParameterSets}
    {last : Option Bytes} {front back : List ScrcpyVideoEvent} {event : ScrcpyVideoEvent}
    {frames : List (List Bytes)} (h : Tracks m sets last)
    (hmap : m.mapAll settings (front ++ event :: back) = .ok frames) :
    ∃ before out after m₁ m₂, frames = before ++ out :: after ∧ before.length = front.length ∧
      m₁.map settings event = .ok (out, m₂) ∧
      Tracks m₁ (front.foldl ParameterSets.after sets) (before.flatten.foldl described last) := by
  induction front generalizing m sets last frames with
  | nil =>
    rw [List.nil_append, mapAll] at hmap
    cases hout : m.map settings event with
    | error message =>
      rw [hout] at hmap
      cases hmap
    | ok result =>
      rw [hout] at hmap
      dsimp only at hmap
      cases hmore : mapAll settings result.2 back with
      | error message =>
        rw [hmore] at hmap
        cases hmap
      | ok after =>
        rw [hmore] at hmap
        cases hmap
        exact ⟨[], result.1, after, m, result.2, rfl, rfl, hout, h⟩
  | cons first front ih =>
    rw [List.cons_append, mapAll] at hmap
    cases hout : m.map settings first with
    | error message =>
      rw [hout] at hmap
      cases hmap
    | ok result =>
      rw [hout] at hmap
      dsimp only at hmap
      cases hmore : mapAll settings result.2 (front ++ event :: back) with
      | error message =>
        rw [hmore] at hmap
        cases hmap
      | ok more =>
        rw [hmore] at hmap
        cases hmap
        obtain ⟨before, out, after, m₁, m₂, rfl, hlength, hevent, htracks⟩ :=
          ih (h.step hout) hmore
        refine ⟨result.1 :: before, out, after, m₁, m₂, rfl, by simp [hlength], hevent, ?_⟩
        rw [List.flatten_cons, List.foldl_append]
        exact htracks

theorem mapAll_length {settings : ScreenSettings} {m : EnvelopeMapper}
    {events : List ScrcpyVideoEvent} {frames : List (List Bytes)}
    (hmap : m.mapAll settings events = .ok frames) : frames.length = events.length := by
  induction events generalizing m frames with
  | nil =>
    cases hmap
    rfl
  | cons event events ih =>
    rw [mapAll] at hmap
    cases hout : m.map settings event with
    | error message =>
      rw [hout] at hmap
      cases hmap
    | ok result =>
      rw [hout] at hmap
      dsimp only at hmap
      cases hmore : mapAll settings result.2 events with
      | error message =>
        rw [hmore] at hmap
        cases hmap
      | ok more =>
        rw [hmore] at hmap
        cases hmap
        rw [List.length_cons, List.length_cons, ih hmore]

theorem tracks_start : Tracks .start .none .none := ⟨rfl, rfl, fun _ hsome => absurd rfl hsome⟩

/-- A picture of a sequence that is accepted, with its frames. -/
theorem mapAll_picture {settings : ScreenSettings} {events front : List ScrcpyVideoEvent}
    {key : Bool} {payload : Bytes} {frames : List (List Bytes)}
    (hmap : mapAll settings .start events = .ok frames) (hat : PictureAt events front key payload) :
    ∃ before out after, frames = before ++ out :: after ∧ before.length = front.length ∧
      ∃ nals record ahead, PictureFrames (latestSets front)
        (before.flatten.foldl described .none) key payload out nals record ahead := by
  obtain ⟨pts, back, rfl⟩ := hat
  obtain ⟨before, out, after, m₁, m₂, rfl, hlength, hevent, htracks⟩ := mapAll_at tracks_start hmap
  obtain ⟨-, hpicture⟩ := htracks.picture hevent
  exact ⟨before, out, after, rfl, hlength, hpicture⟩

/-- A frame is the meta frame of a session or one of a picture's. -/
theorem mapAll_frame {settings : ScreenSettings} {events : List ScrcpyVideoEvent}
    {frames : List (List Bytes)} (hmap : mapAll settings .start events = .ok frames)
    {frame : Bytes} (hframe : frame ∈ frames.flatten) :
    frame.length ≤ maxFrameBytes ∨
      ∃ front key payload record, PictureAt events front key payload ∧
        avcDecoderConfiguration (latestSets front).sps (latestSets front).pps = .ok record ∧
        frame = encodeScreenFrame .description record := by
  obtain ⟨out, hout, hmem⟩ := List.mem_flatten.1 hframe
  obtain ⟨i, hi, rfl⟩ := List.getElem_of_mem hout
  have hevents : i < events.length := by rw [← mapAll_length hmap]; exact hi
  have hcut : events = events.take i ++ events[i] :: events.drop (i + 1) := by
    rw [List.getElem_cons_drop, List.take_append_drop]
  rw [hcut] at hmap
  obtain ⟨before, out, after, m₁, m₂, rfl, hlength, hevent, htracks⟩ := mapAll_at tracks_start hmap
  have hbefore : before.length = i := by
    rw [hlength, List.length_take]
    omega
  have hthis : (before ++ out :: after)[i] = out := by simp [← hbefore]
  rw [hthis] at hmem
  cases hkind : events[i] with
  | session width height =>
    rw [hkind] at hevent
    cases hevent
    rw [List.mem_singleton.1 hmem]
    exact .inl (length_encodeScreenMeta settings height width)
  | media config key pts payload =>
    rw [hkind] at hevent hcut
    cases config with
    | true =>
      rw [(htracks.config hevent).1] at hmem
      cases hmem
    | false =>
      obtain ⟨-, nals, record, ahead, hframes⟩ := htracks.picture hevent
      rw [hframes.out_eq, List.mem_append, List.mem_singleton] at hmem
      rcases hmem with hahead | rfl
      · rcases hframes.ahead_eq with rfl | rfl
        · cases hahead
        · refine .inr ⟨_, key, payload, record, ⟨pts, _, hcut⟩, hframes.record_eq, ?_⟩
          exact List.mem_singleton.1 hahead
      · exact .inl hframes.short

theorem mapAll_opens {settings : ScreenSettings} {events : List ScrcpyVideoEvent}
    {frames : List (List Bytes)} (hmap : mapAll settings .start events = .ok frames)
    (hsome : events ≠ []) : ∃ height width,
      frames.flatten.head? = some (encodeScreenMeta settings.fps height width) := by
  match events with
  | [] => exact absurd rfl hsome
  | .media config key pts payload :: events => cases hmap
  | .session width height :: events =>
    rw [mapAll, EnvelopeMapper.map] at hmap
    dsimp only at hmap
    cases hmore : mapAll settings ⟨[], [], false, true⟩ events with
    | error message =>
      rw [hmore] at hmap
      cases hmap
    | ok more =>
      rw [hmore] at hmap
      cases hmap
      exact ⟨height, width, rfl⟩

/-- The record of a picture's sets and the frame it is sent in. -/
theorem length_description {sets : ParameterSets} {record : Bytes}
    (h : avcDecoderConfiguration sets.sps sets.pps = .ok record) :
    (encodeScreenFrame .description record).length =
      screenFrameHeaderBytes + (7 + setBytes sets.sps + setBytes sets.pps) := by
  rw [length_encodeScreenFrame, length_avcDecoderConfiguration h]

theorem described_mem {frames : List Bytes} {last : Option Bytes} {found : Bytes}
    (h : frames.foldl described last = some found) : found ∈ frames ∨ last = some found := by
  induction frames generalizing last with
  | nil => exact .inr h
  | cons first frames ih =>
    rcases ih h with hmem | hlast
    · exact .inl (List.mem_cons_of_mem _ hmem)
    · unfold described at hlast
      split at hlast
      · cases hlast
      · split at hlast
        · rw [Option.some.inj hlast]
          exact .inl List.mem_cons_self
        · exact .inr hlast

/-- A viewer decodes every picture of what is accepted exactly where the sets are short. -/
theorem decodable_iff {settings : ScreenSettings} {events : List ScrcpyVideoEvent}
    {frames : List (List Bytes)} (hmap : mapAll settings .start events = .ok frames) :
    Decodable settings events frames ↔ SetsFit events := by
  constructor
  · intro h front key payload hat
    obtain ⟨nals, record, before, ahead, after, -, hrecord, rfl, -, hlast, -⟩ :=
      h.pictures front key payload hat
    rw [← length_description hrecord]
    refine h.short _ ?_
    rcases described_mem hlast with hmem | hnone
    · rw [List.flatten_append, List.flatten_cons]
      rcases List.mem_append.1 hmem with hbefore | hahead
      · exact List.mem_append_left _ hbefore
      · exact List.mem_append_right _
          (List.mem_append_left _ (List.mem_append_left _ hahead))
    · cases hnone
  · intro hfit
    refine ⟨mapAll_opens hmap, ?_, ?_⟩
    · intro front key payload hat
      obtain ⟨before, out, after, rfl, hlength, nals, record, ahead, hframes⟩ :=
        mapAll_picture hmap hat
      have hunits : ∀ nal ∈ nals, nal.length < 2 ^ 32 := by
        intro nal hnal
        have hle := length_le_toAvcc hnal
        have hshort := hframes.short
        rw [length_encodeScreenFrame] at hshort
        unfold maxFrameBytes at hshort
        omega
      refine ⟨nals, record, before, ahead, after, hframes.units, hframes.record_eq, ?_, hlength, ?_,
        readAvcc_toAvcc hunits⟩
      · rw [hframes.out_eq]
      · rw [List.foldl_append]
        exact hframes.last_eq
    · intro frame hframe
      rcases mapAll_frame hmap hframe with hshort | ⟨front, key, payload, record, hat, hrecord, rfl⟩
      · exact hshort
      · rw [length_description hrecord]
        exact hfit front key payload hat

/-! ### The stream -/

/-- The parser reads a stream the same however it is cut; the units of a packet are those that were
    joined, where there are any; and what the mapper accepts is decodable exactly where, at every
    picture, the parameter sets fit a frame. -/
theorem screen_stream_exact {settings : ScreenSettings} {events : List ScrcpyVideoEvent}
    {frames : List (List Bytes)} (hmap : mapAll settings .start events = .ok frames) :
    (∀ chunks chunks' : List Bytes, chunks.flatten = chunks'.flatten →
      ScrcpyVideoParser.events chunks = ScrcpyVideoParser.events chunks') ∧
    (∀ units : List (Bool × Bytes), (∀ unit ∈ units, Delimited unit.2) →
      (splitAnnexB (joinAnnexB units) = .ok (units.map Prod.snd) ↔ units ≠ [])) ∧
    (Decodable settings events frames ↔ SetsFit events) := by
  refine ⟨?_, ?_, decodable_iff hmap⟩
  · intro chunks chunks' hsame
    rw [ScrcpyVideoParser.events_eq, ScrcpyVideoParser.events_eq, hsame]
  · intro units hunits
    constructor
    · rintro hsplit rfl
      cases hsplit
    · exact fun hsome => splitAnnexB_joinAnnexB hsome hunits

/-- Thirty frames a second. -/
def thirtyFps : ScreenSettings := ⟨30, by omega⟩

def cutStream : List Bytes :=
  [[0x68, 0x32], [0x36], [0x34, 0x80, 0, 0, 0, 0, 0], [0, 96, 0, 0, 0, 64]]

def sampleEvents : List ScrcpyVideoEvent :=
  [.session 96 64, .media true false 0 [0, 0, 0, 1, 0x67, 66, 0, 30, 0, 0, 1, 0x68, 206],
    .media false true 0 [0, 0, 0, 1, 0x65, 136]]

def sampleFrames : List (List Bytes) :=
  [[encodeScreenMeta 30 64 96], [],
    [encodeScreenFrame .description
      [1, 66, 0, 30, 0xff, 0xe1, 0, 4, 0x67, 66, 0, 30, 1, 0, 2, 0x68, 206],
     encodeScreenFrame .keyframe [0, 0, 0, 2, 0x65, 136]]]

theorem sampleEvents_fit : SetsFit sampleEvents := by
  intro front key payload hat
  obtain ⟨pts, back, hat⟩ := hat
  match front with
  | [] => cases hat
  | [_] => cases hat
  | [_, _] =>
    cases hat
    decide
  | [_, _, _] => cases hat
  | _ :: _ :: _ :: _ :: _ => cases hat

theorem screen_stream_exact_sample :
    ScrcpyVideoParser.events cutStream = ScrcpyVideoParser.events [cutStream.flatten] ∧
      splitAnnexB (joinAnnexB [(true, [0x65, 136]), (false, [0x41, 154])]) =
        .ok [[0x65, 136], [0x41, 154]] ∧
      Decodable thirtyFps sampleEvents sampleFrames := by
  have hmap : mapAll thirtyFps .start sampleEvents = .ok sampleFrames := rfl
  refine ⟨(screen_stream_exact hmap).1 _ _ rfl, ?_,
    (screen_stream_exact hmap).2.2.2 sampleEvents_fit⟩
  · refine ((screen_stream_exact hmap).2.1 [(true, [0x65, 136]), (false, [0x41, 154])] ?_).2 nofun
    intro unit hunit
    rcases List.mem_cons.1 hunit with rfl | hunit
    · exact ⟨by decide, by decide, by decide⟩
    · rw [List.mem_singleton.1 hunit]
      exact ⟨by decide, by decide, by decide⟩

/-! ### Sets that are too long together -/

theorem delimited_of_pos {unit : Bytes} (hsome : unit ≠ []) (h : ∀ b ∈ unit, b ≠ 0) :
    Delimited unit := by
  refine ⟨hsome, ?_, ?_⟩
  · intro hcode
    exact h 0 (hcode.subset List.mem_cons_self) rfl
  · intro hlast
    exact h 0 (List.mem_of_getLast? hlast) rfl

/-- A packet of one unit, many times. -/
def repeated (count : Nat) (unit : Bytes) : Bytes :=
  joinAnnexB (List.replicate count (true, unit))

theorem splitAnnexB_repeated {count : Nat} {unit : Bytes} (hcount : 0 < count)
    (h : Delimited unit) : splitAnnexB (repeated count unit) = .ok (List.replicate count unit) := by
  have hsome : List.replicate count (true, unit) ≠ [] := by
    intro hnil
    have hzero := congrArg List.length hnil
    rw [List.length_replicate] at hzero
    exact Nat.ne_of_gt hcount hzero
  unfold repeated
  rw [splitAnnexB_joinAnnexB hsome fun joined hjoined => by
    rw [List.eq_of_mem_replicate hjoined]; exact h, List.map_replicate]

theorem setBytes_replicate (count : Nat) (unit : Bytes) :
    setBytes (List.replicate count unit) = count * (2 + unit.length) := by
  rw [setBytes, List.map_replicate, List.sum_replicate_nat]

theorem learn_sps {count : Nat} {unit : Bytes} (h : nalType unit = NAL_TYPE_SPS)
    (m : EnvelopeMapper) : m.learn (List.replicate (count + 1) unit) =
      { m with sps := List.replicate (count + 1) unit, descriptionDue := true } := by
  simp [EnvelopeMapper.learn, h, NAL_TYPE_SPS, NAL_TYPE_PPS]

theorem learn_pps {count : Nat} {unit : Bytes} (h : nalType unit = NAL_TYPE_PPS)
    (m : EnvelopeMapper) : m.learn (List.replicate (count + 1) unit) =
      { m with pps := List.replicate (count + 1) unit, descriptionDue := true } := by
  simp [EnvelopeMapper.learn, h, NAL_TYPE_SPS, NAL_TYPE_PPS]

/-- A session whose sequence sets come in one packet and its picture sets in the next. -/
def setsInTwo (spsCount ppsCount : Nat) (sps pps : Bytes) : List ScrcpyVideoEvent :=
  [.session 96 64, .media true false 0 (repeated spsCount sps),
    .media true false 0 (repeated ppsCount pps), .media false true 0 [0, 0, 0, 1, 0x65]]

theorem mapAll_setsInTwo (spsCount ppsCount : Nat) {sps pps : Bytes}
    (hsps : Delimited sps) (hpps : Delimited pps) (htype : nalType sps = NAL_TYPE_SPS)
    (htype' : nalType pps = NAL_TYPE_PPS) (hlength : 4 ≤ sps.length ∧ sps.length ≤ 0xffff)
    (hlength' : pps.length ≤ 0xffff) (hcount : spsCount < maxSpsCount)
    (hcount' : ppsCount < maxPpsCount) :
    ∃ record,
      avcDecoderConfiguration (List.replicate (spsCount + 1) sps)
        (List.replicate (ppsCount + 1) pps) = .ok record ∧
      mapAll thirtyFps .start (setsInTwo (spsCount + 1) (ppsCount + 1) sps pps) =
        .ok [[encodeScreenMeta 30 64 96], [], [],
          [encodeScreenFrame .description record,
            encodeScreenFrame .keyframe [0, 0, 0, 1, 0x65]]] := by
  have hshort : ∀ (count : Nat) (unit : Bytes), unit.length ≤ 0xffff →
      ∀ nal ∈ List.replicate count unit, nal.length ≤ 0xffff := by
    intro count unit hle nal hnal
    rw [List.eq_of_mem_replicate hnal]
    exact hle
  have hcounts : (sps :: List.replicate spsCount sps).length ≤ maxSpsCount ∧
      (List.replicate (ppsCount + 1) pps).length ≤ maxPpsCount := by
    rw [List.length_cons, List.length_replicate, List.length_replicate]
    exact ⟨hcount, hcount'⟩
  have hsome : List.replicate (ppsCount + 1) pps ≠ [] := List.cons_ne_nil _ _
  obtain ⟨record, hrecord⟩ := avcDecoderConfiguration_ok hlength.1 hsome hcounts
    (hshort (spsCount + 1) sps hlength.2) (hshort (ppsCount + 1) pps hlength')
  have hpicture : splitAnnexB [0, 0, 0, 1, 0x65] = .ok [[0x65]] := rfl
  refine ⟨record, hrecord, ?_⟩
  rw [setsInTwo, mapAll, EnvelopeMapper.map]
  dsimp only
  rw [mapAll, EnvelopeMapper.map, splitAnnexB_repeated (Nat.succ_pos spsCount) hsps]
  dsimp only
  rw [if_neg nofun, if_pos rfl, learn_sps htype]
  dsimp only
  rw [mapAll, EnvelopeMapper.map, splitAnnexB_repeated (Nat.succ_pos ppsCount) hpps]
  dsimp only
  rw [if_neg nofun, if_pos rfl, learn_pps htype']
  dsimp only
  rw [mapAll, EnvelopeMapper.map, hpicture, EnvelopeMapper.describe]
  dsimp only
  rw [List.replicate_succ, hrecord]
  rfl

/-- A unit of the type's byte and ones, as long as a set may be. -/
def longUnit (type : UInt8) : Bytes := type :: List.replicate 65534 1

theorem delimited_longUnit {type : UInt8} (h : type ≠ 0) : Delimited (longUnit type) := by
  refine delimited_of_pos nofun fun b hb => ?_
  rcases List.mem_cons.1 hb with rfl | hb
  · exact h
  · rw [List.eq_of_mem_replicate hb]
    decide

theorem length_longUnit (type : UInt8) : (longUnit type).length = 65535 := by
  rw [longUnit, List.length_cons, List.length_replicate]

/-- 31 sequence sets and 127 picture sets of the greatest length fit a packet each, and not one
    description. -/
theorem screen_stream_not_exact :
    ¬ ∀ settings events frames, mapAll settings .start events = .ok frames →
      Decodable settings events frames := by
  intro h
  have hlong := length_longUnit 0x67
  have hlong' := length_longUnit 0x68
  obtain ⟨record, hrecord, hmap⟩ := mapAll_setsInTwo 30 126
    (delimited_longUnit (by decide : (0x67 : UInt8) ≠ 0))
    (delimited_longUnit (by decide : (0x68 : UInt8) ≠ 0)) rfl rfl (by omega) (by omega)
    (by decide) (by decide)
  have hshort := (h _ _ _ hmap).short (encodeScreenFrame .description record) (by simp)
  rw [length_encodeScreenFrame, length_avcDecoderConfiguration hrecord, setBytes_replicate,
    setBytes_replicate, hlong, hlong'] at hshort
  exact absurd hshort (by decide)

end Simlock.Drivers
