import Mathlib.Data.Prod.Lex
import Mathlib.Data.Sum.Order
import Mathlib.Order.WithBot
import Simlock.Lib.Number
import Simlock.Lib.Places
import Simlock.Lib.Split

/-! Which of two versions is newer, for the update.

    A version is three numbers and, for a prerelease, identifiers after a hyphen. Precedence is read
    off in that order, a release being above its prereleases, a number below a word, and a shorter
    prerelease below a longer one that begins with it. The code splits a version at its hyphens and
    looks at the first two pieces, so what it ranks is the version cut at the first hyphen inside
    its prerelease, with its numbers as doubles. -/

namespace Simlock.Core

open Simlock.Lib

/-! ### Splitting and comparing -/

structure SplitVersion where
  core : List Number
  prerelease : List (List Char)

/-- Before the first hyphen, and between it and the second. -/
def splitVersion (version : List Char) : SplitVersion where
  core := (((version.splitOn '-')[0]?.getD []).splitOn '.').map Number.read
  prerelease := ((version.splitOn '-')[1]?.map (·.splitOn '.')).getD []

/-- `/^\\d+$/`. -/
def isDigits (text : List Char) : Bool := !text.isEmpty && text.all Char.isDigit

/-- What strings are compared by. -/
def codeUnits (text : List Char) : List Nat :=
  text.flatMap fun c =>
    if c.toNat < 0x10000 then [c.toNat]
    else [0xD800 + (c.toNat - 0x10000) / 0x400, 0xDC00 + (c.toNat - 0x10000) % 0x400]

/-- The sign of the result, which is NaN for two infinities. -/
def compareIdentifiers (left right : List Char) : Option Ordering :=
  if isDigits left && isDigits right then (Number.read left).against (Number.read right)
  else if isDigits left ≠ isDigits right then some (if isDigits left then .lt else .gt)
  else if codeUnits left < codeUnits right then some .lt
  else if codeUnits right < codeUnits left then some .gt
  else some .eq

def isNewerVersion (candidate running : String) : Bool :=
  let left := splitVersion candidate.toList
  let right := splitVersion running.toList
  let core := places Number.against (.finite 0) 3 left.core right.core
  if core ≠ some .eq then core = some .gt
  else if left.prerelease.length = 0 || right.prerelease.length = 0 then
    left.prerelease.length = 0 && right.prerelease.length > 0
  else
    let shared := places compareIdentifiers []
      (min left.prerelease.length right.prerelease.length) left.prerelease right.prerelease
    if shared ≠ some .eq then shared = some .gt
    else left.prerelease.length > right.prerelease.length

/-! ### Versions and their precedence -/

/-- An identifier of a prerelease, over the numbers it is read with. -/
inductive Identifier (ν : Type) where
  | numeric (n : ν)
  | word (text : List Char)

structure Release (ν : Type) where
  major : ν
  minor : ν
  patch : ν
  prerelease : List (Identifier ν)

section
variable {ν : Type} (cmp : ν → ν → Option Ordering)

/-- A number is below a word, and words are in the order of their characters. -/
def Identifier.rank : Identifier ν → Identifier ν → Option Ordering
  | .numeric m, .numeric n => cmp m n
  | .numeric _, .word _ => some .lt
  | .word _, .numeric _ => some .gt
  | .word s, .word t =>
    if s.map Char.toNat < t.map Char.toNat then some .lt
    else if t.map Char.toNat < s.map Char.toNat then some .gt
    else some .eq

/-- Identifier by identifier; the shorter one is below. -/
def rankIdentifiers : List (Identifier ν) → List (Identifier ν) → Option Ordering
  | [], [] => some .eq
  | [], _ :: _ => some .lt
  | _ :: _, [] => some .gt
  | x :: xs, y :: ys => orElseNext (x.rank cmp y) (rankIdentifiers xs ys)

/-- A release is above its prereleases. -/
def rankPrereleases : List (Identifier ν) → List (Identifier ν) → Option Ordering
  | [], [] => some .eq
  | [], _ :: _ => some .gt
  | _ :: _, [] => some .lt
  | x :: xs, y :: ys => rankIdentifiers cmp (x :: xs) (y :: ys)

def Release.rank (a b : Release ν) : Option Ordering :=
  orElseNext (cmp a.major b.major) <| orElseNext (cmp a.minor b.minor) <|
    orElseNext (cmp a.patch b.patch) <| rankPrereleases cmp a.prerelease b.prerelease

end

/-- `[0-9A-Za-z-]`. -/
def isIdentifierChar (c : Char) : Bool := c.isDigit || c.isAlpha || c = '-'

/-- A valid version without build metadata: a word is made of identifier characters, and one of them
    is no digit. -/
structure SemVer where
  release : Release Nat
  words : ∀ text, .word text ∈ release.prerelease →
    (∀ c ∈ text, isIdentifierChar c = true) ∧ ∃ c ∈ text, c.isDigit = false

/-- Without leading zeros. -/
def Identifier.chars : Identifier Nat → List Char
  | .numeric n => Nat.toDigits 10 n
  | .word text => text

def coreChars (r : Release Nat) : List Char :=
  ['.'].intercalate [Nat.toDigits 10 r.major, Nat.toDigits 10 r.minor, Nat.toDigits 10 r.patch]

def Release.chars (r : Release Nat) : List Char :=
  coreChars r ++ match r.prerelease with
    | [] => []
    | ids => '-' :: ['.'].intercalate (ids.map Identifier.chars)

def SemVer.text (v : SemVer) : String := String.ofList v.release.chars

/-- `a` is higher than `b`. -/
def SemVer.Above (a b : SemVer) : Prop :=
  a.release.rank (fun m n => some (compare m n)) b.release = some .gt

/-! ### What the code ranks -/

/-- What a piece of a word is read as. -/
def identifierOf (text : List Char) : Identifier Number :=
  if isDigits text then .numeric (Number.read text) else .word text

/-- The identifiers up to the first hyphen. -/
def cutIdentifiers : List (Identifier Nat) → List (Identifier Number)
  | [] => []
  | .numeric n :: rest => .numeric (Number.ofNat n) :: cutIdentifiers rest
  | .word text :: rest =>
    if '-' ∈ text then [identifierOf (text.takeWhile fun c => !(c == '-'))]
    else .word text :: cutIdentifiers rest

/-- A version cut at the first hyphen of its prerelease, its numbers as doubles. -/
def SemVer.cut (v : SemVer) : Release Number where
  major := .ofNat v.release.major
  minor := .ofNat v.release.minor
  patch := .ofNat v.release.patch
  prerelease := cutIdentifiers v.release.prerelease

/-! ### The pieces of a version's text -/

theorem isDigits_toDigits (n : Nat) : isDigits (Nat.toDigits 10 n) = true := by
  rw [isDigits, Bool.and_eq_true, Bool.not_eq_true', List.isEmpty_eq_false_iff, List.all_eq_true]
  exact ⟨Nat.toDigits_ne_nil, fun c hc => Nat.isDigit_of_mem_toDigits (by omega) (by omega) hc⟩

theorem toDigits_isDigit {n : Nat} {c : Char} (h : c ∈ Nat.toDigits 10 n) : c.isDigit = true :=
  Nat.isDigit_of_mem_toDigits (by omega) (by omega) h

theorem digit_ne {c d : Char} (h : c.isDigit = true) (hd : d.isDigit = false) : c ≠ d := by
  rintro rfl
  rw [h] at hd
  cases hd

theorem identifierOf_toDigits (n : Nat) :
    identifierOf (Nat.toDigits 10 n) = .numeric (Number.ofNat n) := by
  rw [identifierOf, if_pos (isDigits_toDigits n), Number.read_toDigits]

theorem identifierOf_word {text : List Char} (h : ∃ c ∈ text, c.isDigit = false) :
    identifierOf text = .word text := by
  obtain ⟨c, hc, hdigit⟩ := h
  have hall : text.all Char.isDigit = false := by
    rw [List.all_eq_false]
    exact ⟨c, hc, by rw [hdigit]; exact Bool.false_ne_true⟩
  have hdigits : isDigits text = false := by rw [isDigits, hall, Bool.and_false]
  rw [identifierOf, hdigits]
  rfl

/-- The identifiers of a valid version. -/
def ValidWords (ids : List (Identifier Nat)) : Prop :=
  ∀ text, .word text ∈ ids →
    (∀ c ∈ text, isIdentifierChar c = true) ∧ ∃ c ∈ text, c.isDigit = false

theorem ValidWords.tail {id : Identifier Nat} {ids : List (Identifier Nat)}
    (h : ValidWords (id :: ids)) : ValidWords ids :=
  fun text htext => h text (List.mem_cons_of_mem _ htext)

theorem ValidWords.char {id : Identifier Nat} {ids : List (Identifier Nat)} (h : ValidWords ids)
    (hid : id ∈ ids) {c : Char} (hc : c ∈ id.chars) : isIdentifierChar c = true := by
  cases id with
  | numeric n => simp [isIdentifierChar, toDigits_isDigit hc]
  | word text => exact (h text hid).1 c hc

theorem dot_not_identifierChar : isIdentifierChar '.' = false := by decide

theorem ValidWords.dot_not_mem {id : Identifier Nat} {ids : List (Identifier Nat)}
    (h : ValidWords ids) (hid : id ∈ ids) : '.' ∉ id.chars := fun hdot => by
  have hchar := h.char hid hdot
  rw [dot_not_identifierChar] at hchar
  cases hchar

theorem cutIdentifiers_cons {id : Identifier Nat} {ids : List (Identifier Nat)}
    (h : ValidWords (id :: ids)) :
    cutIdentifiers (id :: ids) =
      if '-' ∈ id.chars then [identifierOf (id.chars.takeWhile fun c => !(c == '-'))]
      else identifierOf id.chars :: cutIdentifiers ids := by
  cases id with
  | numeric n =>
    have hhyphen : '-' ∉ Nat.toDigits 10 n := fun hmem =>
      digit_ne (toDigits_isDigit hmem) (by decide) rfl
    rw [cutIdentifiers, Identifier.chars, if_neg hhyphen, identifierOf_toDigits]
  | word text =>
    rw [cutIdentifiers, Identifier.chars, identifierOf_word (h text List.mem_cons_self).2]

/-- What a word that is cut contributes: nothing after it is looked at. -/
theorem pieces_of_hyphen {text rest : List Char} (hdot : '.' ∉ text) (hhyphen : '-' ∈ text) :
    (((text ++ rest).takeWhile fun c => !(c == '-')).splitOn '.') =
      [text.takeWhile fun c => !(c == '-')] := by
  have hcut : (text.takeWhile fun c => !(c == '-')).length ≠ text.length := fun hlen => by
    have hall := List.takeWhile_eq_self_iff.1
      ((List.takeWhile_prefix fun c => !(c == '-')).eq_of_length hlen)
    simpa using hall '-' hhyphen
  rw [List.takeWhile_append, if_neg hcut]
  exact List.splitOn_eq_singleton fun hmem => hdot ((List.takeWhile_prefix _).subset hmem)

theorem takeWhile_no_hyphen {text : List Char} (h : '-' ∉ text) :
    ∀ c ∈ text, (!(c == '-')) = true := by
  intro c hc
  rw [Bool.not_eq_true', beq_eq_false_iff_ne]
  rintro rfl
  exact h hc

/-- The pieces up to the first hyphen are the identifiers up to it. -/
theorem pieces_eq_cut {id : Identifier Nat} {ids : List (Identifier Nat)}
    (h : ValidWords (id :: ids)) :
    (((['.'].intercalate ((id :: ids).map Identifier.chars)).takeWhile
      fun c => !(c == '-')).splitOn '.').map identifierOf = cutIdentifiers (id :: ids) := by
  induction ids generalizing id with
  | nil =>
    have hdot := h.dot_not_mem List.mem_cons_self
    rw [cutIdentifiers_cons h, List.map_singleton, List.intercalate_singleton]
    split
    · rename_i hhyphen
      rw [← List.append_nil id.chars, pieces_of_hyphen (by simpa using hdot)
        (by simpa using hhyphen)]
      simp
    · rename_i hhyphen
      rw [List.takeWhile_eq_self_iff.2 (takeWhile_no_hyphen hhyphen),
        List.splitOn_eq_singleton hdot]
      rfl
  | cons next rest ih =>
    have hdot := h.dot_not_mem List.mem_cons_self
    rw [cutIdentifiers_cons h, List.map_cons, List.map_cons, List.intercalate_cons_cons,
      List.append_assoc, List.singleton_append, ← List.map_cons]
    split
    · rename_i hhyphen
      rw [pieces_of_hyphen hdot hhyphen]
      rfl
    · rename_i hhyphen
      rw [takeWhile_append_cons (takeWhile_no_hyphen hhyphen) rfl,
        List.splitOn_append_cons_self_of_not_mem hdot, List.map_cons, ih h.tail]

/-! ### What is split off a valid version -/

theorem coreChars_no_hyphen (r : Release Nat) : '-' ∉ coreChars r := fun h => by
  rcases mem_intercalate h with h | ⟨digits, hdigits, hmem⟩
  · cases h
  · have hdigit : '-'.isDigit = true := by
      simp only [List.mem_cons, List.not_mem_nil, or_false] at hdigits
      rcases hdigits with rfl | rfl | rfl <;> exact toDigits_isDigit hmem
    cases hdigit

theorem core_of_coreChars (r : Release Nat) :
    ((coreChars r).splitOn '.').map Number.read =
      [Number.ofNat r.major, Number.ofNat r.minor, Number.ofNat r.patch] := by
  have hsplit : (coreChars r).splitOn '.' =
      [Nat.toDigits 10 r.major, Nat.toDigits 10 r.minor, Nat.toDigits 10 r.patch] := by
    refine List.splitOn_intercalate '.' (fun digits hdigits hdot => ?_) (List.cons_ne_nil _ _)
    simp only [List.mem_cons, List.not_mem_nil, or_false] at hdigits
    rcases hdigits with rfl | rfl | rfl <;> exact digit_ne (toDigits_isDigit hdot) (by decide) rfl
  rw [hsplit, List.map_cons, List.map_cons, List.map_singleton, Number.read_toDigits,
    Number.read_toDigits, Number.read_toDigits]

theorem splitVersion_core (r : Release Nat) :
    (splitVersion r.chars).core =
      [Number.ofNat r.major, Number.ofNat r.minor, Number.ofNat r.patch] := by
  rw [← core_of_coreChars, splitVersion, splitOn_head, Option.getD_some]
  unfold Release.chars
  split
  · rw [List.append_nil, List.takeWhile_eq_self_iff.2 (takeWhile_no_hyphen (coreChars_no_hyphen r))]
  · rw [List.takeWhile_append_of_pos (takeWhile_no_hyphen (coreChars_no_hyphen r))]
    simp

theorem splitVersion_release {r : Release Nat} (h : r.prerelease = []) :
    (splitVersion r.chars).prerelease = [] := by
  unfold splitVersion Release.chars
  rw [h, List.append_nil, List.splitOn_eq_singleton (coreChars_no_hyphen r)]
  rfl

theorem splitVersion_pieces {r : Release Nat} {id : Identifier Nat} {ids : List (Identifier Nat)}
    (h : r.prerelease = id :: ids) :
    (splitVersion r.chars).prerelease =
      ((['.'].intercalate ((id :: ids).map Identifier.chars)).takeWhile
        fun c => !(c == '-')).splitOn '.' := by
  unfold splitVersion Release.chars
  rw [h, List.splitOn_append_cons_self_of_not_mem (coreChars_no_hyphen r)]
  simp only [List.getElem?_cons_succ]
  rw [splitOn_head, Option.map_some, Option.getD_some]

theorem splitVersion_prerelease (v : SemVer) :
    (splitVersion v.release.chars).prerelease.map identifierOf = v.cut.prerelease := by
  unfold SemVer.cut
  match h : v.release.prerelease with
  | [] => rw [splitVersion_release h]; rfl
  | id :: ids =>
    rw [splitVersion_pieces h, pieces_eq_cut]
    intro text htext
    exact v.words text (h ▸ htext)

/-! ### The code ranks the cut versions -/

/-- Characters that are one code unit each. -/
def OneUnit (text : List Char) : Prop := ∀ c ∈ text, c.toNat < 0x10000

theorem OneUnit.codeUnits {text : List Char} (h : OneUnit text) :
    codeUnits text = text.map Char.toNat := by
  induction text with
  | nil => rfl
  | cons c rest ih =>
    have hrest := ih fun d hd => h d (List.mem_cons_of_mem _ hd)
    rw [Core.codeUnits, List.flatMap_cons, if_pos (h c List.mem_cons_self), List.map_cons,
      ← hrest]
    rfl

theorem identifierChar_lt {c : Char} (h : isIdentifierChar c = true) : c.toNat < 0x10000 := by
  delta isIdentifierChar Char.isAlpha Char.isUpper Char.isLower Char.isDigit at h
  simp only [Bool.or_eq_true, Bool.and_eq_true, decide_eq_true_eq] at h
  have htoNat : c.val.toNat = c.toNat := rfl
  rcases h with (h | h | h) | rfl
  · have := UInt32.le_iff_toNat_le.1 h.2
    simp at this
    omega
  · have := UInt32.le_iff_toNat_le.1 h.2
    simp at this
    omega
  · have := UInt32.le_iff_toNat_le.1 h.2
    simp at this
    omega
  · decide

/-- Every piece is part of the text of the prerelease. -/
theorem piece_oneUnit (v : SemVer) {piece : List Char}
    (h : piece ∈ (splitVersion v.release.chars).prerelease) : OneUnit piece := by
  intro c hc
  match hids : v.release.prerelease with
  | [] =>
    rw [splitVersion_release hids] at h
    cases h
  | id :: ids =>
    rw [splitVersion_pieces hids] at h
    have hmem := (List.takeWhile_prefix _).subset (mem_of_mem_splitOn h hc)
    rcases mem_intercalate hmem with rfl | ⟨chars, hchars, hmem⟩
    · decide
    · obtain ⟨id', hid', rfl⟩ := List.mem_map.1 hchars
      have hvalid : ValidWords (id :: ids) := fun text htext => v.words text (hids ▸ htext)
      exact identifierChar_lt (hvalid.char hid' hmem)

theorem compareIdentifiers_eq_rank {left right : List Char} (hl : OneUnit left)
    (hr : OneUnit right) :
    (identifierOf left).rank Number.against (identifierOf right) =
      compareIdentifiers left right := by
  unfold compareIdentifiers identifierOf
  rw [hl.codeUnits, hr.codeUnits]
  cases isDigits left <;> cases isDigits right <;> rfl

theorem identifierOf_nil : identifierOf [] = .word [] := rfl

section
variable {ν : Type} (cmp : ν → ν → Option Ordering)

/-- The shared identifiers first, then the lengths. -/
theorem rankIdentifiers_eq_places (z : Identifier ν) (xs ys : List (Identifier ν)) :
    rankIdentifiers cmp xs ys =
      orElseNext (places (Identifier.rank cmp) z (min xs.length ys.length) xs ys)
        (some (compare xs.length ys.length)) := by
  induction xs generalizing ys with
  | nil =>
    cases ys with
    | nil => rfl
    | cons y ys => simp [rankIdentifiers, places, compare_lt_iff_lt.2]
  | cons x xs ih =>
    cases ys with
    | nil => simp [rankIdentifiers, places, compare_gt_iff_gt.2]
    | cons y ys =>
      have hcompare : compare (xs.length + 1) (ys.length + 1) = compare xs.length ys.length := by
        simp [Nat.compare_eq_ite_lt]
      rw [rankIdentifiers, ih, List.length_cons, List.length_cons, Nat.add_min_add_right, places,
        orElseNext_assoc, hcompare]
      rfl

end

/-- What is left to decide once the numbers are equal. -/
def prereleaseNewer (left right : List (List Char)) : Bool :=
  if left.length = 0 || right.length = 0 then left.length = 0 && right.length > 0
  else
    let shared := places compareIdentifiers [] (min left.length right.length) left right
    if shared ≠ some .eq then shared = some .gt else left.length > right.length

theorem prereleaseNewer_iff {left right : List (List Char)} (hl : ∀ piece ∈ left, OneUnit piece)
    (hr : ∀ piece ∈ right, OneUnit piece) :
    prereleaseNewer left right = true ↔
      rankPrereleases Number.against (left.map identifierOf) (right.map identifierOf) =
        some .gt := by
  match left, right with
  | [], [] => simp [prereleaseNewer, rankPrereleases]
  | [], _ :: _ => simp [prereleaseNewer, rankPrereleases]
  | _ :: _, [] => simp [prereleaseNewer, rankPrereleases]
  | x :: xs, y :: ys =>
    have hshared := places_congr (c := Identifier.rank Number.against) (d := compareIdentifiers)
      (f := identifierOf) identifierOf_nil (min (x :: xs).length (y :: ys).length) (x :: xs)
      (y :: ys) fun l r hl' hr' => by
        refine compareIdentifiers_eq_rank ?_ ?_
        · rcases hl' with h | rfl
          · exact hl l h
          · exact fun c hc => by cases hc
        · rcases hr' with h | rfl
          · exact hr r h
          · exact fun c hc => by cases hc
    have hrank : rankPrereleases Number.against ((x :: xs).map identifierOf)
        ((y :: ys).map identifierOf) =
        orElseNext (places compareIdentifiers [] (min (x :: xs).length (y :: ys).length)
          (x :: xs) (y :: ys)) (some (compare (x :: xs).length (y :: ys).length)) := by
      rw [List.map_cons, List.map_cons, rankPrereleases, ← List.map_cons, ← List.map_cons,
        rankIdentifiers_eq_places _ (.word []), List.length_map, List.length_map, hshared]
    rw [hrank, orElseNext_eq_gt_iff, prereleaseNewer]
    simp only [List.length_cons, Nat.add_eq_zero_iff, Nat.one_ne_zero, and_false, decide_false,
      Bool.or_self, Bool.false_eq_true, if_false]
    split
    · simp
    · rw [decide_eq_true_eq, Option.some.injEq, compare_gt_iff_gt]

/-- The three numbers decide, or leave it to the prerelease. -/
theorem rank_eq_places (a b : Release Number) :
    a.rank Number.against b =
      orElseNext (places Number.against (.finite 0) 3 [a.major, a.minor, a.patch]
        [b.major, b.minor, b.patch])
        (rankPrereleases Number.against a.prerelease b.prerelease) := by
  simp only [Release.rank, places, List.headD_cons, List.tail_cons, orElseNext_eq_right,
    orElseNext_assoc]

/-- The code finds a version newer exactly when it ranks higher, both cut. -/
theorem isNewerVersion_iff (a b : SemVer) :
    isNewerVersion a.text b.text = true ↔ a.cut.rank Number.against b.cut = some .gt := by
  have hprerelease := prereleaseNewer_iff (fun _ => piece_oneUnit a) (fun _ => piece_oneUnit b)
  rw [splitVersion_prerelease, splitVersion_prerelease] at hprerelease
  rw [rank_eq_places, orElseNext_eq_gt_iff, ← hprerelease]
  unfold isNewerVersion
  simp only [SemVer.text, String.toList_ofList, splitVersion_core]
  rw [SemVer.cut, SemVer.cut]
  split
  · rw [decide_eq_true_eq]
  · rfl

/-! ### Precedence is a total order -/

/-- Numbers below words. -/
def Identifier.key : Identifier Nat → Lex (Nat ⊕ List Nat)
  | .numeric n => toLex (.inl n)
  | .word text => toLex (.inr (text.map Char.toNat))

/-- A release above everything. -/
def prereleaseKey : List (Identifier Nat) → WithTop (List (Lex (Nat ⊕ List Nat)))
  | [] => ⊤
  | id :: ids => ↑((id :: ids).map Identifier.key)

def Release.key (r : Release Nat) :
    Lex (Nat × Lex (Nat × Lex (Nat × WithTop (List (Lex (Nat ⊕ List Nat)))))) :=
  toLex (r.major, toLex (r.minor, toLex (r.patch, prereleaseKey r.prerelease)))

/-- What a comparison of integers finds. -/
abbrev natCompare (m n : Nat) : Option Ordering := some (compare m n)

/-- A comparison is that of the keys. -/
def Ranks {α : Type} [LT α] (found : Option Ordering) (x y : α) : Prop :=
  ∃ o, found = some o ∧ o.Compares x y

theorem ranks_nat (m n : Nat) : Ranks (natCompare m n) m n := by
  refine ⟨compare m n, rfl, ?_⟩
  rcases lt_trichotomy m n with h | rfl | h
  · rw [compare_lt_iff_lt.2 h]
    exact h
  · rw [compare_eq_iff_eq.2 rfl]
    exact rfl
  · rw [compare_gt_iff_gt.2 h]
    exact h

theorem Ranks.pair {α β : Type} [LinearOrder α] [LinearOrder β] {f g : Option Ordering} {x y : α}
    {x' y' : β} (hf : Ranks f x y) (hg : Ranks g x' y') :
    Ranks (orElseNext f g) (toLex (x, x')) (toLex (y, y')) := by
  obtain ⟨o, rfl, ho⟩ := hf
  obtain ⟨o', rfl, ho'⟩ := hg
  match o with
  | .lt => exact ⟨.lt, rfl, Prod.Lex.left _ _ ho⟩
  | .gt => exact ⟨.gt, rfl, Prod.Lex.left _ _ ho⟩
  | .eq =>
    obtain rfl : x = y := ho
    refine ⟨o', rfl, ?_⟩
    match o' with
    | .lt => exact Prod.Lex.right _ ho'
    | .gt => exact Prod.Lex.right _ ho'
    | .eq => exact congrArg (fun z => toLex (x, z)) ho'

theorem ranks_identifier (x y : Identifier Nat) : Ranks (x.rank natCompare y) x.key y.key := by
  match x, y with
  | .numeric m, .numeric n =>
    obtain ⟨o, ho, hcompares⟩ := ranks_nat m n
    refine ⟨o, ho, ?_⟩
    match o with
    | .lt => exact Sum.Lex.inl hcompares
    | .gt => exact Sum.Lex.inl hcompares
    | .eq => exact congrArg (fun n => toLex (Sum.inl n)) hcompares
  | .numeric _, .word _ => exact ⟨.lt, rfl, Sum.Lex.sep _ _⟩
  | .word _, .numeric _ => exact ⟨.gt, rfl, Sum.Lex.sep _ _⟩
  | .word s, .word t =>
    rw [Identifier.rank]
    split
    · rename_i h
      exact ⟨.lt, rfl, Sum.Lex.inr h⟩
    split
    · rename_i h
      exact ⟨.gt, rfl, Sum.Lex.inr h⟩
    · rename_i hst hts
      refine ⟨.eq, rfl, ?_⟩
      exact congrArg (fun l => toLex (Sum.inr l)) (le_antisymm (not_lt.1 hts) (not_lt.1 hst))

theorem ranks_identifiers (xs ys : List (Identifier Nat)) :
    Ranks (rankIdentifiers natCompare xs ys) (xs.map Identifier.key) (ys.map Identifier.key) := by
  induction xs generalizing ys with
  | nil =>
    cases ys with
    | nil => exact ⟨.eq, rfl, rfl⟩
    | cons y ys => exact ⟨.lt, rfl, List.Lex.nil⟩
  | cons x xs ih =>
    cases ys with
    | nil => exact ⟨.gt, rfl, List.Lex.nil⟩
    | cons y ys =>
      obtain ⟨o, ho, hcompares⟩ := ranks_identifier x y
      obtain ⟨o', ho', hcompares'⟩ := ih ys
      rw [rankIdentifiers, ho, ho', List.map_cons, List.map_cons]
      match o with
      | .lt => exact ⟨.lt, rfl, List.Lex.rel hcompares⟩
      | .gt => exact ⟨.gt, rfl, List.Lex.rel hcompares⟩
      | .eq =>
        rw [show x.key = y.key from hcompares]
        refine ⟨o', rfl, ?_⟩
        match o' with
        | .lt => exact List.Lex.cons hcompares'
        | .gt => exact List.Lex.cons hcompares'
        | .eq => exact congrArg (y.key :: ·) hcompares'

theorem ranks_prereleases (xs ys : List (Identifier Nat)) :
    Ranks (rankPrereleases natCompare xs ys) (prereleaseKey xs) (prereleaseKey ys) := by
  match xs, ys with
  | [], [] => exact ⟨.eq, rfl, rfl⟩
  | [], _ :: _ => exact ⟨.gt, rfl, WithTop.coe_lt_top _⟩
  | _ :: _, [] => exact ⟨.lt, rfl, WithTop.coe_lt_top _⟩
  | x :: xs, y :: ys =>
    obtain ⟨o, ho, hcompares⟩ := ranks_identifiers (x :: xs) (y :: ys)
    refine ⟨o, ho, ?_⟩
    match o with
    | .lt => exact WithTop.coe_lt_coe.2 hcompares
    | .gt => exact WithTop.coe_lt_coe.2 hcompares
    | .eq => exact congrArg WithTop.some hcompares

theorem ranks_release (a b : Release Nat) : Ranks (a.rank natCompare b) a.key b.key :=
  (ranks_nat _ _).pair ((ranks_nat _ _).pair ((ranks_nat _ _).pair (ranks_prereleases _ _)))

theorem above_iff (a b : SemVer) : a.Above b ↔ b.release.key < a.release.key := by
  obtain ⟨o, ho, hcompares⟩ := ranks_release a.release b.release
  rw [SemVer.Above, ho, Option.some.injEq, hcompares.eq_gt]

theorem identifierKey_injective : Function.Injective Identifier.key := by
  intro x y h
  match x, y with
  | .numeric m, .numeric n =>
    obtain rfl : m = n := Sum.inl.inj h
    rfl
  | .word s, .word t =>
    have hmap : s.map Char.toNat = t.map Char.toNat := Sum.inr.inj h
    rw [List.map_injective_iff.2 (fun _ _ => Char.toNat_inj.1) hmap]
  | .numeric _, .word _ => cases h
  | .word _, .numeric _ => cases h

theorem prereleaseKey_injective : Function.Injective prereleaseKey := by
  intro xs ys h
  match xs, ys with
  | [], [] => rfl
  | [], _ :: _ => cases h
  | _ :: _, [] => cases h
  | x :: xs, y :: ys =>
    exact List.map_injective_iff.2 identifierKey_injective (WithTop.coe_inj.1 h)

theorem releaseKey_injective : Function.Injective Release.key := by
  rintro ⟨a, b, c, xs⟩ ⟨a', b', c', ys⟩ h
  simp only [Release.key, toLex_inj, Prod.mk.injEq] at h
  obtain ⟨rfl, rfl, rfl, hkey⟩ := h
  rw [prereleaseKey_injective hkey]

/-- Higher precedence is a strict total order, up to equality of the versions. -/
structure StrictTotal : Prop where
  irrefl : ∀ a : SemVer, ¬ a.Above a
  trans : ∀ {a b c : SemVer}, a.Above b → b.Above c → a.Above c
  total : ∀ a b : SemVer, a.Above b ∨ a.release = b.release ∨ b.Above a

theorem strictTotal : StrictTotal where
  irrefl a h := lt_irrefl _ ((above_iff a a).1 h)
  trans {a b c} hab hbc := by
    rw [above_iff] at hab hbc ⊢
    exact hbc.trans hab
  total a b := by
    rw [above_iff, above_iff]
    rcases lt_trichotomy a.release.key b.release.key with h | h | h
    · exact Or.inr (Or.inr h)
    · exact Or.inr (Or.inl (releaseKey_injective h))
    · exact Or.inl h

/-! ### When the code keeps precedence -/

/-- Cutting both versions and reading their numbers as doubles keeps whether `a` is higher. -/
def KeepsRank (a b : SemVer) : Prop :=
  a.cut.rank Number.against b.cut = some .gt ↔ a.Above b

example : isNewerVersion "0.4.0-rc.10" "0.4.0-rc.2" = true := by decide +kernel

/-- `1.0.0-alpha-` and a last digit. -/
def alphaVersion (digit : Char) (h : digit = '1' ∨ digit = '2') : SemVer where
  release := ⟨1, 0, 0, [.word ("alpha-".toList ++ [digit])]⟩
  words text htext := by
    obtain rfl : text = "alpha-".toList ++ [digit] := by simpa using htext
    rcases h with rfl | rfl
    · exact ⟨List.all_eq_true.1 (by decide +kernel), 'a', by decide +kernel, by decide +kernel⟩
    · exact ⟨List.all_eq_true.1 (by decide +kernel), 'a', by decide +kernel, by decide +kernel⟩

end Simlock.Core
