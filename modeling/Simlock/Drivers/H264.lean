import Mathlib.Data.List.DropRight
import Simlock.Link.Envelope

/-! The bytes of an H.264 packet.

    An encoder separates its NAL units by start codes, `00 00 01` with any number of zeros before
    it; a viewer is handed each unit behind its length instead. What tells a decoder how to read
    them is the avcC record of the sequence and picture parameter sets:

        00 00 00 01 unit 00 00 01 unit   ──splitAnnexB──▶   unit, unit   ──toAvcc──▶   4 unit 4 unit

    `splitAnnexB` inverts every join of units that hold no start code and do not end in a zero;
    `readAvcc` inverts `toAvcc`. -/

namespace Simlock.Drivers

open Simlock.Link (Bytes setUint32 getUint32 getUint32_setUint32)

def NAL_TYPE_SPS : UInt8 := 7
def NAL_TYPE_PPS : UInt8 := 8
def maxSpsCount : Nat := 31
def maxPpsCount : Nat := 255

def nalType (nal : Bytes) : UInt8 := nal.headD 0 &&& 0x1f

/-! ### Start codes -/

/-- The bytes before the first start code and those behind each one, up to the next. -/
def splitCodes : Bytes → Bytes × List Bytes
  | a :: b :: c :: rest =>
    if a = 0 ∧ b = 0 ∧ c = 1 then ([], (splitCodes rest).1 :: (splitCodes rest).2)
    else (a :: (splitCodes (b :: c :: rest)).1, (splitCodes (b :: c :: rest)).2)
  | rest => (rest, [])

/-- A unit without the zeros behind it. -/
def trimZeros (piece : Bytes) : Bytes := piece.rdropWhile (· == 0)

def splitAnnexB (bytes : Bytes) : Except String (List Bytes) :=
  let (before, pieces) := splitCodes bytes
  if pieces = [] ∨ ¬ before.all (· == 0) then
    .error "The encoder's packet does not start with an Annex-B start code"
  else .ok ((pieces.map trimZeros).filter (· ≠ []))

/-- A start code of four bytes or of three. -/
def startCode (four : Bool) : Bytes := if four then [0, 0, 0, 1] else [0, 0, 1]

/-- The units, each behind a start code. -/
def joinAnnexB (units : List (Bool × Bytes)) : Bytes :=
  units.flatMap fun unit => startCode unit.1 ++ unit.2

/-- A unit that a start code can end. -/
structure Delimited (unit : Bytes) : Prop where
  nonempty : unit ≠ []
  noCode : ¬ [0, 0, 1] <:+: unit
  noZero : unit.getLast? ≠ some 0

theorem splitCodes_cons {a : UInt8} {rest : Bytes} (h : ¬ [0, 0, 1] <+: a :: rest) :
    splitCodes (a :: rest) = (a :: (splitCodes rest).1, (splitCodes rest).2) := by
  match rest with
  | [] => rfl
  | [_] => rfl
  | b :: c :: rest =>
    have hcode : ¬ (a = 0 ∧ b = 0 ∧ c = 1) := by
      rintro ⟨rfl, rfl, rfl⟩
      exact h ⟨rest, rfl⟩
    rw [splitCodes, if_neg hcode]

/-- A start code lies in the unit or behind it. -/
theorem no_code_front {unit rest : Bytes} (hcode : ¬ [0, 0, 1] <:+: unit)
    (hzero : unit.getLast? ≠ some 0) (hsome : unit ≠ []) : ¬ [0, 0, 1] <+: unit ++ rest := by
  match unit with
  | [] => exact absurd rfl hsome
  | [a] =>
    intro hfront
    rw [List.singleton_append, List.cons_prefix_cons] at hfront
    exact hzero (by rw [← hfront.1]; rfl)
  | [a, b] =>
    intro hfront
    rw [List.cons_append, List.cons_prefix_cons, List.singleton_append,
      List.cons_prefix_cons] at hfront
    exact hzero (by rw [← hfront.2.1]; rfl)
  | a :: b :: c :: more =>
    intro hfront
    simp only [List.cons_append, List.cons_prefix_cons] at hfront
    obtain ⟨rfl, rfl, rfl, -⟩ := hfront
    exact hcode ⟨[], more, rfl⟩

theorem splitCodes_append {unit : Bytes} (hcode : ¬ [0, 0, 1] <:+: unit)
    (hzero : unit.getLast? ≠ some 0) (rest : Bytes) :
    splitCodes (unit ++ rest) = (unit ++ (splitCodes rest).1, (splitCodes rest).2) := by
  induction unit with
  | nil => rfl
  | cons a unit ih =>
    have hcode' : ¬ [0, 0, 1] <:+: unit :=
      fun h => hcode (h.trans (List.suffix_cons a unit).isInfix)
    have hzero' : unit.getLast? ≠ some 0 := by
      intro hlast
      cases unit with
      | nil => cases hlast
      | cons b unit => exact hzero (by rw [List.getLast?_cons_cons, hlast])
    have hfront : ¬ [0, 0, 1] <+: a :: (unit ++ rest) := no_code_front hcode hzero nofun
    rw [List.cons_append, splitCodes_cons hfront, ih hcode' hzero']
    rfl

/-- The zero of a four-byte code falls to the piece before it. -/
theorem splitCodes_startCode (four : Bool) (rest : Bytes) :
    splitCodes (startCode four ++ rest) =
      (if four then [0] else [], (splitCodes rest).1 :: (splitCodes rest).2) := by
  cases four with
  | false => rfl
  | true => rfl

theorem trimZeros_append {unit zeros : Bytes} (hzeros : zeros.all (· == 0) = true)
    (hlast : unit.getLast? ≠ some 0) : trimZeros (unit ++ zeros) = unit := by
  unfold trimZeros List.rdropWhile
  have hall : ∀ b ∈ zeros.reverse, (b == 0) = true := by simpa using hzeros
  rw [List.reverse_append, List.dropWhile_append_of_pos hall]
  have hkeep : (unit.reverse).dropWhile (· == 0) = unit.reverse := by
    rw [List.dropWhile_eq_self_iff]
    intro hpos hhead
    refine hlast ?_
    rw [List.getLast?_eq_head?_reverse, List.head?_eq_getElem?, List.getElem?_eq_getElem hpos]
    exact congrArg some (by simpa using hhead)
  rw [hkeep, List.reverse_reverse]

theorem splitCodes_joinAnnexB {units : List (Bool × Bytes)}
    (h : ∀ unit ∈ units, Delimited unit.2) :
    (splitCodes (joinAnnexB units)).1.all (· == 0) = true ∧
      (splitCodes (joinAnnexB units)).2.map trimZeros = units.map Prod.snd := by
  induction units with
  | nil => exact ⟨rfl, rfl⟩
  | cons unit units ih =>
    obtain ⟨hzeros, hunits⟩ := ih fun unit hunit => h unit (List.mem_cons_of_mem _ hunit)
    have hunit := h unit List.mem_cons_self
    have hjoin : joinAnnexB (unit :: units) =
        startCode unit.1 ++ (unit.2 ++ joinAnnexB units) := by simp [joinAnnexB]
    rw [hjoin, splitCodes_startCode, splitCodes_append hunit.noCode hunit.noZero]
    refine ⟨by dsimp only; split <;> rfl, ?_⟩
    rw [List.map_cons, List.map_cons, hunits, trimZeros_append hzeros hunit.noZero]

/-- The units of a packet are those an encoder joined, whichever start codes it chose. -/
theorem splitAnnexB_joinAnnexB {units : List (Bool × Bytes)} (hsome : units ≠ [])
    (h : ∀ unit ∈ units, Delimited unit.2) :
    splitAnnexB (joinAnnexB units) = .ok (units.map Prod.snd) := by
  obtain ⟨hzeros, hunits⟩ := splitCodes_joinAnnexB h
  have hpieces : (splitCodes (joinAnnexB units)).2 ≠ [] := by
    intro hnone
    rw [hnone, List.map_nil] at hunits
    exact hsome (List.map_eq_nil_iff.1 hunits.symm)
  have hkept : (units.map Prod.snd).filter (· ≠ []) = units.map Prod.snd := by
    rw [List.filter_eq_self]
    intro unit hunit
    obtain ⟨joined, hjoined, rfl⟩ := List.mem_map.1 hunit
    simpa using (h joined hjoined).nonempty
  unfold splitAnnexB
  dsimp only
  rw [if_neg (by simp [hpieces, hzeros]), hunits, hkept]

/-! ### Length prefixes -/

def toAvcc (nals : List Bytes) : Bytes := nals.flatMap fun nal => setUint32 nal.length ++ nal

/-- Reads units behind their lengths, as a decoder does. -/
def readAvcc (bytes : Bytes) : Option (List Bytes) :=
  if bytes = [] then some []
  else if bytes.length < 4 + getUint32 bytes then none
  else
    (readAvcc (bytes.drop (4 + getUint32 bytes))).map
      (((bytes.drop 4).take (getUint32 bytes)) :: ·)
termination_by bytes.length
decreasing_by
  rw [List.length_drop]
  omega

@[simp] theorem length_setUint32 (n : Nat) : (setUint32 n).length = 4 := rfl

theorem readAvcc_toAvcc {nals : List Bytes} (h : ∀ nal ∈ nals, nal.length < 2 ^ 32) :
    readAvcc (toAvcc nals) = some nals := by
  induction nals with
  | nil => rw [toAvcc, List.flatMap_nil, readAvcc, if_pos rfl]
  | cons nal nals ih =>
    have hrest := ih fun nal hnal => h nal (List.mem_cons_of_mem _ hnal)
    have hjoin : toAvcc (nal :: nals) = setUint32 nal.length ++ (nal ++ toAvcc nals) := by
      simp [toAvcc]
    have hlength : getUint32 (toAvcc (nal :: nals)) = nal.length := by
      rw [hjoin, getUint32_setUint32 _ (h nal List.mem_cons_self)]
    rw [readAvcc, hlength, hjoin]
    have hdrop : (setUint32 nal.length ++ (nal ++ toAvcc nals)).drop (4 + nal.length) =
        toAvcc nals := by
      rw [← List.drop_drop, List.drop_left' (length_setUint32 _), List.drop_left' rfl]
    rw [if_neg (by simp [setUint32]), if_neg (by simp), hdrop, hrest,
      List.drop_left' (length_setUint32 _), List.take_left' rfl]
    rfl

/-- A unit is no longer than all of them behind their lengths. -/
theorem length_le_toAvcc {nal : Bytes} {nals : List Bytes} (h : nal ∈ nals) :
    nal.length ≤ (toAvcc nals).length := by
  obtain ⟨front, back, rfl⟩ := List.append_of_mem h
  simp only [toAvcc, List.flatMap_append, List.flatMap_cons, List.length_append]
  omega

/-! ### The decoder configuration -/

/-- A length of two bytes and the set. -/
def writeParameterSet (nal : Bytes) : Except String Bytes :=
  if 0xffff < nal.length then .error "A parameter set is longer than avcC allows"
  else .ok (UInt8.ofNat (nal.length / 2 ^ 8) :: UInt8.ofNat nal.length :: nal)

def writeParameterSets : List Bytes → Except String Bytes
  | [] => .ok []
  | nal :: nals =>
    match writeParameterSet nal with
    | .error message => .error message
    | .ok set => (writeParameterSets nals).map (set ++ ·)

/-- The avcC record: the first sequence parameter set's profile, four-byte lengths, the sets. -/
def avcDecoderConfiguration (sps pps : List Bytes) : Except String Bytes :=
  match sps with
  | [] => .error "The encoder sent no sequence parameter set"
  | first :: _ =>
    if first.length < 4 then .error "The encoder sent no sequence parameter set"
    else if pps.length = 0 then .error "The encoder sent no picture parameter set"
    else if maxSpsCount < sps.length ∨ maxPpsCount < pps.length then
      .error "The encoder sent more parameter sets than an avcC record holds"
    else
      match writeParameterSets sps with
      | .error message => .error message
      | .ok sequence =>
        (writeParameterSets pps).map fun picture =>
          [1, first.getD 1 0, first.getD 2 0, first.getD 3 0, 0xff,
            0xe0 ||| UInt8.ofNat sps.length] ++ sequence ++ [UInt8.ofNat pps.length] ++ picture

/-- The bytes of the sets behind their lengths. -/
def setBytes (sets : List Bytes) : Nat := (sets.map fun nal => 2 + nal.length).sum

theorem length_writeParameterSets {sets : List Bytes} {bytes : Bytes}
    (h : writeParameterSets sets = .ok bytes) : bytes.length = setBytes sets := by
  induction sets generalizing bytes with
  | nil =>
    cases h
    rfl
  | cons nal sets ih =>
    rw [writeParameterSets] at h
    cases hset : writeParameterSet nal with
    | error message =>
      rw [hset] at h
      cases h
    | ok set =>
      cases hsets : writeParameterSets sets with
      | error message =>
        rw [hset, hsets] at h
        cases h
      | ok rest =>
        rw [hset, hsets] at h
        cases h
        unfold writeParameterSet at hset
        split at hset
        · cases hset
        · cases hset
          have hrest := ih hsets
          simp only [setBytes, List.map_cons, List.sum_cons, List.length_append,
            List.length_cons] at hrest ⊢
          omega

theorem length_avcDecoderConfiguration {sps pps : List Bytes} {record : Bytes}
    (h : avcDecoderConfiguration sps pps = .ok record) :
    record.length = 7 + setBytes sps + setBytes pps := by
  unfold avcDecoderConfiguration at h
  split at h
  · cases h
  · rename_i first others
    split at h
    · cases h
    · split at h
      · cases h
      · split at h
        · cases h
        · cases hsps : writeParameterSets (first :: others) with
          | error message =>
            rw [hsps] at h
            cases h
          | ok sequence =>
            cases hpps : writeParameterSets pps with
            | error message =>
              rw [hsps, hpps] at h
              cases h
            | ok picture =>
              rw [hsps, hpps] at h
              cases h
              have hsequence := length_writeParameterSets hsps
              have hpicture := length_writeParameterSets hpps
              simp only [List.length_append, List.length_cons, List.length_nil]
              omega

/-- Sets of a length that fits, in numbers that fit, have a record. -/
theorem avcDecoderConfiguration_ok {first : Bytes} {others pps : List Bytes}
    (hfirst : 4 ≤ first.length) (hpps : pps ≠ [])
    (hcount : (first :: others).length ≤ maxSpsCount ∧ pps.length ≤ maxPpsCount)
    (hsps : ∀ nal ∈ first :: others, nal.length ≤ 0xffff)
    (hset : ∀ nal ∈ pps, nal.length ≤ 0xffff) :
    ∃ record, avcDecoderConfiguration (first :: others) pps = .ok record := by
  have written : ∀ sets : List Bytes, (∀ nal ∈ sets, nal.length ≤ 0xffff) →
      ∃ bytes, writeParameterSets sets = .ok bytes := by
    intro sets
    induction sets with
    | nil => exact fun _ => ⟨[], rfl⟩
    | cons nal sets ih =>
      intro hshort
      obtain ⟨bytes, hbytes⟩ := ih fun nal hnal => hshort nal (List.mem_cons_of_mem _ hnal)
      have hnal := hshort nal List.mem_cons_self
      rw [writeParameterSets, writeParameterSet, if_neg (by omega), hbytes]
      exact ⟨_, rfl⟩
  obtain ⟨sequence, hsequence⟩ := written _ hsps
  obtain ⟨picture, hpicture⟩ := written _ hset
  have hsome : pps.length ≠ 0 := by simpa using hpps
  unfold avcDecoderConfiguration
  dsimp only
  rw [if_neg (by omega), if_neg hsome, if_neg (by omega), hsequence, hpicture]
  exact ⟨_, rfl⟩

end Simlock.Drivers
