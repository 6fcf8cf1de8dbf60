import Simlock.Core.OsRange
import Simlock.Lib.Places
import Simlock.Lib.Split

/-! What an OS range means.

    A range is written as comparators, and a comparator is about as many parts of a version as it
    names itself: `>=18` and `>18` look at the first part only. That is how it reads here; the code
    compares every part, with the bound of the comparator, which for `>` and `<=` is the next
    version of the same precision. The two agree as long as the parts of the comparators are integers that a
    double holds. -/

namespace Simlock.Core

open Simlock.Lib (Number orElseNext orElseNext_eq orElseNext_lt orElseNext_gt places fit mem_intercalate)

/-! ### Dotted integers -/

/-- One or more runs of decimal digits. -/
structure Dotted where
  runs : List (List Char)
  nonempty : runs ≠ []
  digits : ∀ run ∈ runs, run ≠ [] ∧ ∀ c ∈ run, c.isDigit = true

def Dotted.chars (version : Dotted) : List Char := ['.'].intercalate version.runs

def Dotted.text (version : Dotted) : String := String.ofList version.chars

def Dotted.parts (version : Dotted) : List Nat := version.runs.map Number.decimal

theorem Dotted.splitOn (version : Dotted) : version.chars.splitOn '.' = version.runs := by
  refine List.splitOn_intercalate '.' (fun run hrun hdot => ?_) version.nonempty
  exact absurd ((version.digits run hrun).2 '.' hdot) (by decide)

theorem Dotted.isVersion (version : Dotted) : isVersion version.chars = true := by
  simp only [Core.isVersion, version.splitOn, List.all_eq_true, Bool.and_eq_true]
  intro run hrun
  obtain ⟨hne, hdigits⟩ := version.digits run hrun
  exact ⟨by simp [hne], hdigits⟩

theorem Dotted.segments (version : Dotted) :
    segments version.chars = version.parts.map Number.ofNat := by
  rw [Core.segments, version.splitOn, Dotted.parts, List.map_map]
  refine List.map_congr_left fun run hrun => ?_
  obtain ⟨hne, hdigits⟩ := version.digits run hrun
  rw [Function.comp_apply, Number.read_digits hne hdigits]

/-- What the pattern takes. -/
theorem exists_dotted {text : List Char} (h : isVersion text = true) :
    ∃ version : Dotted, version.chars = text := by
  simp only [isVersion, List.all_eq_true, Bool.and_eq_true, Bool.not_eq_true',
    List.isEmpty_eq_false_iff] at h
  exact ⟨⟨text.splitOn '.', List.splitOn_ne_nil _ _, h⟩, List.intercalate_splitOn '.'⟩

/-! ### Comparators -/

structure Comparison where
  operator : Comparator
  version : Dotted

def Comparison.chars (c : Comparison) : List Char := c.operator.text ++ c.version.chars

def Comparison.bound (c : Comparison) : Bound :=
  comparatorBound c.operator (segments c.version.chars)

/-- The comparators a range is written as. -/
inductive Written : List Char → List Comparison → Prop where
  | hyphen (first last : Dotted) :
    Written (first.chars ++ [' ', '-', ' '] ++ last.chars) [⟨.atLeast, first⟩, ⟨.atMost, last⟩]
  | joined (cs : List Comparison) (h : cs ≠ []) : Written ([' '].intercalate (cs.map (·.chars))) cs

/-- The version, cut or filled up with zeros to the parts of the comparator, compared with it. -/
def Comparison.Holds (c : Comparison) (parts : List Nat) : Prop :=
  match c.operator with
  | .atLeast => c.version.parts ≤ fit 0 c.version.parts.length parts
  | .above => c.version.parts < fit 0 c.version.parts.length parts
  | .atMost => fit 0 c.version.parts.length parts ≤ c.version.parts
  | .below => fit 0 c.version.parts.length parts < c.version.parts

/-- Every part of the comparator is at most `Number.MAX_SAFE_INTEGER`. -/
def Comparison.Safe (c : Comparison) : Prop := ∀ n ∈ c.version.parts, n < 2 ^ 53

/-! ### What is compared -/

theorem segmentAt_zero (xs : List Number) : segmentAt xs 0 = xs.headD (.finite 0) := by
  cases xs <;> rfl

theorem segmentAt_succ (xs : List Number) (n : Nat) :
    segmentAt xs (n + 1) = segmentAt xs.tail n := by
  cases xs <;> rfl

/-- The sign of the first difference among the first `n`. -/
theorem sign_firstDifference (n : Nat) (left right : List Number) :
    (((((List.range n).map fun i => (segmentAt left i).sub (segmentAt right i)).find?
      fun difference => difference.sign ≠ some .eq).getD (.finite 0)).sign) =
      places Number.against (.finite 0) n left right := by
  induction n generalizing left right with
  | zero => rfl
  | succ n ih =>
    rw [List.range_succ_eq_map, List.map_cons, List.map_map, places, ← segmentAt_zero,
      ← segmentAt_zero, ← ih left.tail right.tail]
    simp only [Function.comp_def, Nat.succ_eq_add_one, segmentAt_succ]
    by_cases hzero : ((segmentAt left 0).sub (segmentAt right 0)).sign = some .eq
    · rw [List.find?_cons_of_neg (by simp [hzero]), Number.against, hzero, orElseNext_eq]
    · rw [List.find?_cons_of_pos (by simp [hzero]), Option.getD_some, Number.against]
      rcases h : ((segmentAt left 0).sub (segmentAt right 0)).sign with _ | (_ | _ | _)
      · rfl
      · rfl
      · exact absurd h hzero
      · rfl

theorem sign_compareSegments (left right : List Number) :
    (compareSegments left right).sign =
      places Number.against (.finite 0) (max left.length right.length) left right :=
  sign_firstDifference ..

theorem bump_singleton (x : Number) : bump [x] = [x.add (Number.ofNat 1)] := by
  simp [bump]

theorem bump_cons (x y : Number) (rest : List Number) :
    bump (x :: y :: rest) = x :: bump (y :: rest) := by
  simp [bump, List.mapIdx_cons]

theorem length_bump (xs : List Number) : (bump xs).length = xs.length := by
  simp [bump]

/-! ### As many parts as the comparator has -/

theorem headD_ofNat (v : List Nat) :
    (v.map Number.ofNat).headD (.finite 0) = Number.ofNat (v.headD 0) := by
  cases v with
  | nil => rw [List.map_nil, List.headD_nil, List.headD_nil, Number.ofNat_zero]
  | cons => rw [List.map_cons, List.headD_cons, List.headD_cons]

/-- What a version has beyond the parts of the comparator never takes it below. -/
theorem places_nil (n : Nat) (v : List Nat) :
    places Number.against (.finite 0) n (v.map Number.ofNat) [] = some .eq ∨
      places Number.against (.finite 0) n (v.map Number.ofNat) [] = some .gt := by
  induction n generalizing v with
  | zero => exact Or.inl rfl
  | succ n ih =>
    have hhead : Number.against (Number.ofNat (v.headD 0)) (.finite 0) =
        some (compare (v.headD 0) 0) := by
      rw [← Number.ofNat_zero]
      exact Number.against_ofNat _ (by omega)
    rw [places, headD_ofNat, List.headD_nil, hhead, ← List.map_tail, List.tail_nil]
    rcases Nat.eq_zero_or_pos (v.headD 0) with h | h
    · rw [h, compare_eq_iff_eq.2 rfl, orElseNext_eq]
      exact ih v.tail
    · rw [compare_gt_iff_gt.2 h, orElseNext_gt]
      exact Or.inr rfl

/-- Which side of a list of parts the version is on: it never has no order with it. -/
structure Sides (found : Option Ordering) (below : Prop) : Prop where
  below : found = some .lt ↔ below
  decided : found ≠ none

theorem Sides.of_eq_or_gt {found : Option Ordering} {below : Prop}
    (h : found = some .eq ∨ found = some .gt) (hbelow : ¬ below) : Sides found below := by
  rcases h with rfl | rfl
  · exact ⟨⟨nofun, fun h => absurd h hbelow⟩, nofun⟩
  · exact ⟨⟨nofun, fun h => absurd h hbelow⟩, nofun⟩

theorem Sides.of_lt {below : Prop} (h : below) : Sides (some .lt) below :=
  ⟨⟨fun _ => h, fun _ => rfl⟩, nofun⟩

theorem cons_le_cons_iff {m n : Nat} {xs ys : List Nat} :
    m :: xs ≤ n :: ys ↔ m < n ∨ m = n ∧ xs ≤ ys := by
  rw [← not_lt, List.cons_lt_cons_iff, ← not_lt]
  rcases lt_trichotomy m n with h | rfl | h
  · simp [h, h.ne', Nat.not_lt.2 h.le]
  · simp
  · simp [h, h.ne', Nat.not_lt.2 h.le]

/-- A first part that differs decides, one that is equal leaves it to the rest. -/
theorem Sides.cons {m n : Nat} {rest : Option Ordering} {xs ys : List Nat}
    (h : Sides rest (xs < ys)) :
    Sides (orElseNext (some (compare m n)) rest) (m :: xs < n :: ys) := by
  rcases lt_trichotomy m n with hmn | rfl | hmn
  · rw [compare_lt_iff_lt.2 hmn, orElseNext_lt]
    exact Sides.of_lt (List.Lex.rel hmn)
  · rw [compare_eq_iff_eq.2 rfl, orElseNext_eq]
    exact ⟨h.below.trans ⟨List.Lex.cons, fun hlt => by simpa using hlt⟩, h.decided⟩
  · rw [compare_gt_iff_gt.2 hmn, orElseNext_gt]
    refine Sides.of_eq_or_gt (Or.inr rfl) fun hlt => ?_
    exact lt_asymm hlt (List.Lex.rel hmn)

theorem Sides.cons_le {m n : Nat} {rest : Option Ordering} {xs ys : List Nat}
    (h : Sides rest (xs ≤ ys)) :
    Sides (orElseNext (some (compare m n)) rest) (m :: xs ≤ n :: ys) := by
  rcases lt_trichotomy m n with hmn | rfl | hmn
  · rw [compare_lt_iff_lt.2 hmn, orElseNext_lt]
    exact Sides.of_lt (le_of_lt (List.Lex.rel hmn))
  · rw [compare_eq_iff_eq.2 rfl, orElseNext_eq]
    exact ⟨h.below.trans (by simp [cons_le_cons_iff]), h.decided⟩
  · rw [compare_gt_iff_gt.2 hmn, orElseNext_gt]
    exact Sides.of_eq_or_gt (Or.inr rfl) (not_le_of_gt (List.Lex.rel hmn))

/-- The version against the comparator itself. -/
theorem sides_version {c : List Nat} (hc : ∀ n ∈ c, n < 2 ^ 53) (v : List Nat) {n : Nat}
    (hn : c.length ≤ n) :
    Sides (places Number.against (.finite 0) n (v.map Number.ofNat) (c.map Number.ofNat))
      (fit 0 c.length v < c) := by
  induction c generalizing v n with
  | nil => exact Sides.of_eq_or_gt (places_nil n v) (List.not_lt_nil _)
  | cons k c ih =>
    obtain ⟨n, rfl⟩ : ∃ n', n = n' + 1 := ⟨n - 1, by simp at hn; omega⟩
    have hhead : Number.against (Number.ofNat (v.headD 0)) (Number.ofNat k) =
        some (compare (v.headD 0) k) := Number.against_ofNat _ (hc k List.mem_cons_self)
    rw [places, headD_ofNat, List.map_cons, List.headD_cons, hhead, ← List.map_tail, List.tail_cons]
    exact (ih (fun n hn => hc n (List.mem_cons_of_mem _ hn)) v.tail (by simpa using hn)).cons

/-- A part below the next one is found to be. -/
theorem sign_sub_next {k m : Nat} (hk : k < 2 ^ 53) (hm : m < k + 1) :
    ((Number.ofNat m).sub (Number.ofNat (k + 1))).sign = some .lt := by
  rcases Nat.lt_or_eq_of_le (Nat.succ_le_of_lt hk) with hnext | hnext
  · rw [Number.sign_sub_ofNat m hnext, compare_lt_iff_lt.2 hm]
  · rw [Nat.succ_eq_add_one] at hnext
    rw [hnext] at hm ⊢
    rcases Number.sign_sub_two_pow m with h | ⟨hlt, -⟩
    · rw [h, compare_lt_iff_lt.2 hm]
    · omega

/-- One that is not is never found below it, though it may be found equal when it is above. -/
theorem sign_sub_next_of_le {k m : Nat} (hk : k < 2 ^ 53) (hm : k + 1 ≤ m) :
    ((Number.ofNat m).sub (Number.ofNat (k + 1))).sign = some .eq ∨
      ((Number.ofNat m).sub (Number.ofNat (k + 1))).sign = some .gt := by
  have hexact : compare m (k + 1) = .eq ∨ compare m (k + 1) = .gt := by
    rcases Nat.lt_or_eq_of_le hm with h | h
    · exact Or.inr (compare_gt_iff_gt.2 h)
    · exact Or.inl (compare_eq_iff_eq.2 h.symm)
  rcases Nat.lt_or_eq_of_le (Nat.succ_le_of_lt hk) with hnext | hnext
  · rw [Number.sign_sub_ofNat m hnext]
    exact hexact.imp (congrArg some) (congrArg some)
  · rw [Nat.succ_eq_add_one] at hnext
    rw [hnext] at hexact ⊢
    rcases Number.sign_sub_two_pow m with h | ⟨-, h⟩
    · rw [h]
      exact hexact.imp (congrArg some) (congrArg some)
    · exact Or.inl h

/-- The last part of the comparator: one below the next version is not above it. A version that a
    double rounds down to the next one is not below it either. -/
theorem sides_bump_last {k : Nat} (hk : k < 2 ^ 53) (v : List Nat) (n : Nat) :
    Sides (places Number.against (.finite 0) (n + 1) (v.map Number.ofNat)
      (bump ([k].map Number.ofNat))) (fit 0 [k].length v ≤ [k]) := by
  rw [List.map_singleton, bump_singleton, Number.ofNat_add_one hk, places, headD_ofNat,
    List.headD_cons, ← List.map_tail, List.tail_cons]
  have hle : fit 0 [k].length v ≤ [k] ↔ v.headD 0 ≤ k := by
    simp only [List.length_singleton, fit, cons_le_cons_iff, le_refl, and_true]
    omega
  rw [hle]
  have hrest := places_nil n v.tail
  rcases Nat.lt_or_ge (v.headD 0) (k + 1) with hv | hv
  · have hhead : Number.against (Number.ofNat (v.headD 0)) (Number.ofNat (k + 1)) = some .lt :=
      sign_sub_next hk hv
    rw [hhead, orElseNext_lt]
    exact Sides.of_lt (by omega)
  · refine Sides.of_eq_or_gt ?_ (by omega)
    rcases sign_sub_next_of_le hk hv with hhead | hhead
    · rw [Number.against, hhead, orElseNext_eq]
      exact hrest
    · rw [Number.against, hhead, orElseNext_gt]
      exact Or.inr rfl

/-- The version against the next one of the comparator's precision. -/
theorem sides_bump {c : List Nat} (hne : c ≠ []) (hc : ∀ n ∈ c, n < 2 ^ 53) (v : List Nat) {n : Nat}
    (hn : c.length ≤ n) :
    Sides (places Number.against (.finite 0) n (v.map Number.ofNat) (bump (c.map Number.ofNat)))
      (fit 0 c.length v ≤ c) := by
  induction c generalizing v n with
  | nil => exact absurd rfl hne
  | cons k c ih =>
    obtain ⟨n, rfl⟩ : ∃ n', n = n' + 1 := ⟨n - 1, by simp at hn; omega⟩
    have hk : k < 2 ^ 53 := hc k List.mem_cons_self
    cases c with
    | nil => exact sides_bump_last hk v n
    | cons k' c =>
      have hhead : Number.against (Number.ofNat (v.headD 0)) (Number.ofNat k) =
          some (compare (v.headD 0) k) := Number.against_ofNat _ hk
      rw [List.map_cons, List.map_cons, bump_cons, places, headD_ofNat, List.headD_cons, hhead,
        ← List.map_tail, List.tail_cons, ← List.map_cons]
      exact (ih (List.cons_ne_nil _ _) (fun n hn => hc n (List.mem_cons_of_mem _ hn)) v.tail
        (by simpa using hn)).cons_le

/-! ### A comparator takes the versions it holds of -/

theorem Sides.belowZero {x : Number} {below : Prop} (h : Sides x.sign below) :
    x.belowZero = true ↔ below := by
  rw [Number.belowZero_iff, h.below]

theorem Sides.notBelowZero {x : Number} {below : Prop} (h : Sides x.sign below) :
    x.notBelowZero = true ↔ ¬ below := by
  rw [← h.below, Number.notBelowZero_iff]
  match hsign : x.sign with
  | none => exact absurd hsign h.decided
  | some .lt => simp
  | some .eq => simp
  | some .gt => simp

theorem parts_ne_nil (version : Dotted) : version.parts ≠ [] := by
  simp [Dotted.parts, version.nonempty]

theorem Comparison.takes_iff {c : Comparison} (hc : c.Safe) (version : Dotted) :
    c.bound.takes (segments version.chars) = true ↔ c.Holds version.parts := by
  have hversion : Sides (compareSegments (segments version.chars) (segments c.version.chars)).sign
      (fit 0 c.version.parts.length version.parts < c.version.parts) := by
    rw [sign_compareSegments, version.segments, c.version.segments]
    exact sides_version hc _ (by simp)
  have hbump : Sides
      (compareSegments (segments version.chars) (bump (segments c.version.chars))).sign
      (fit 0 c.version.parts.length version.parts ≤ c.version.parts) := by
    rw [sign_compareSegments, version.segments, c.version.segments]
    exact sides_bump (parts_ne_nil _) hc _ (by simp [length_bump])
  unfold Comparison.Holds Comparison.bound Bound.takes
  match c.operator with
  | .atLeast =>
    simp only [comparatorBound, Option.all_some, Option.all_none, Bool.and_true]
    rw [hversion.notBelowZero, not_lt]
  | .above =>
    simp only [comparatorBound, Option.all_some, Option.all_none, Bool.and_true]
    rw [hbump.notBelowZero, not_le]
  | .atMost =>
    simp only [comparatorBound, Option.all_some, Option.all_none, Bool.true_and]
    rw [hbump.belowZero]
  | .below =>
    simp only [comparatorBound, Option.all_some, Option.all_none, Bool.true_and]
    rw [hversion.belowZero]

/-! ### What is accepted as a range -/

theorem Dotted.chars_mem (version : Dotted) {ch : Char} (h : ch ∈ version.chars) :
    ch.isDigit = true ∨ ch = '.' := by
  rcases mem_intercalate h with h | ⟨run, hrun, hmem⟩
  · exact Or.inr h
  · exact Or.inl ((version.digits run hrun).2 ch hmem)

theorem Dotted.not_mem (version : Dotted) {ch : Char} (hdigit : ch.isDigit = false)
    (hdot : ch ≠ '.') : ch ∉ version.chars := fun h => by
  rcases version.chars_mem h with h | h
  · rw [hdigit] at h
    cases h
  · exact hdot h

theorem Dotted.head_digit (version : Dotted) :
    ∃ ch rest, version.chars = ch :: rest ∧ ch.isDigit = true := by
  obtain ⟨run, runs, hruns⟩ := List.exists_cons_of_ne_nil version.nonempty
  obtain ⟨hne, hdigits⟩ := version.digits run (hruns ▸ List.mem_cons_self)
  obtain ⟨ch, rest, rfl⟩ := List.exists_cons_of_ne_nil hne
  unfold Dotted.chars
  rw [hruns]
  cases runs with
  | nil => exact ⟨ch, rest, List.intercalate_singleton, hdigits ch List.mem_cons_self⟩
  | cons next runs =>
    refine ⟨ch, rest ++ ['.'] ++ ['.'].intercalate (next :: runs), ?_,
      hdigits ch List.mem_cons_self⟩
    rw [List.intercalate_cons_cons, List.cons_append, List.cons_append]

/-- A comparator has no space, and it does not begin as a version does. -/
theorem Comparison.space_not_mem (c : Comparison) : ' ' ∉ c.chars := by
  have hversion : ' ' ∉ c.version.chars := c.version.not_mem (by decide) (by decide)
  unfold Comparison.chars
  cases c.operator <;> simp [Comparator.text, hversion]

theorem Comparison.head (c : Comparison) :
    ∃ ch rest, c.chars = ch :: rest ∧ (ch = '<' ∨ ch = '>') := by
  unfold Comparison.chars
  cases c.operator
  · exact ⟨'>', _, rfl, Or.inr rfl⟩
  · exact ⟨'>', _, rfl, Or.inr rfl⟩
  · exact ⟨'<', _, rfl, Or.inl rfl⟩
  · exact ⟨'<', _, rfl, Or.inl rfl⟩

/-- The operator is read whole: no digit is taken for a part of one. -/
theorem tokenBound_chars (c : Comparison) : tokenBound c.chars = some c.bound := by
  obtain ⟨ch, rest, hchars, hdigit⟩ := c.version.head_digit
  have hch : ch ≠ '=' := by
    rintro rfl
    exact absurd hdigit (by decide)
  have hversion := c.version.isVersion
  unfold tokenBound Comparison.chars Comparison.bound
  cases hop : c.operator <;> rw [hchars] at hversion ⊢ <;>
    simp [Comparator.text, List.isPrefixOf, hversion, Ne.symm hch]

theorem exists_comparison {token : List Char} {bound : Bound} (h : tokenBound token = some bound) :
    ∃ c : Comparison, c.chars = token ∧ c.bound = bound := by
  simp only [tokenBound, Option.bind_eq_bind, Option.bind_eq_some_iff] at h
  obtain ⟨operator, hfind, h⟩ := h
  split at h
  · rename_i hversion
    obtain ⟨version, hchars⟩ := exists_dotted hversion
    refine ⟨⟨operator, version⟩, ?_, ?_⟩
    · have hpre : operator.text.isPrefixOf token = true := by simpa using List.find?_some hfind
      obtain ⟨rest, hrest⟩ := List.isPrefixOf_iff_prefix.1 hpre
      rw [Comparison.chars, hchars, ← hrest, List.drop_left]
    · rw [Comparison.bound, hchars]
      exact Option.some.inj h
  · cases h

theorem mapM_tokenBound (cs : List Comparison) :
    (cs.map (·.chars)).mapM tokenBound = some (cs.map (·.bound)) := by
  induction cs with
  | nil => rfl
  | cons c cs ih => simp [tokenBound_chars, ih]

theorem exists_comparisons {tokens : List (List Char)} {bounds : List Bound}
    (h : tokens.mapM tokenBound = some bounds) :
    ∃ cs : List Comparison, cs.map (·.chars) = tokens ∧ cs.map (·.bound) = bounds := by
  induction tokens generalizing bounds with
  | nil => exact ⟨[], rfl, by simpa using h⟩
  | cons token tokens ih =>
    simp only [List.mapM_cons, Option.bind_eq_bind, Option.bind_eq_some_iff, Option.pure_def,
      Option.some.injEq] at h
    obtain ⟨bound, hbound, rest, hrest, rfl⟩ := h
    obtain ⟨c, rfl, rfl⟩ := exists_comparison hbound
    obtain ⟨cs, rfl, rfl⟩ := ih hrest
    exact ⟨c :: cs, rfl, rfl⟩

theorem splitOn_comparisons {cs : List Comparison} (h : cs ≠ []) :
    ([' '].intercalate (cs.map (·.chars))).splitOn ' ' = cs.map (·.chars) := by
  refine List.splitOn_intercalate ' ' (fun token htoken => ?_) (by simpa using h)
  obtain ⟨c, -, rfl⟩ := List.mem_map.1 htoken
  exact c.space_not_mem

theorem splitOn_hyphen (first last : Dotted) :
    (first.chars ++ [' ', '-', ' '] ++ last.chars).splitOn ' ' =
      [first.chars, ['-'], last.chars] := by
  have hjoined : first.chars ++ [' ', '-', ' '] ++ last.chars =
      [' '].intercalate [first.chars, ['-'], last.chars] := by
    simp [List.intercalate_cons_cons]
  rw [hjoined]
  refine List.splitOn_intercalate ' ' (fun token htoken => ?_) (List.cons_ne_nil _ _)
  simp only [List.mem_cons, List.not_mem_nil, or_false] at htoken
  rcases htoken with rfl | rfl | rfl
  · exact first.not_mem (by decide) (by decide)
  · decide
  · exact last.not_mem (by decide) (by decide)

/-- A comparator is no version: a hyphen range cannot begin with one. -/
theorem hyphenBounds_joined {cs : List Comparison} (h : cs ≠ []) :
    hyphenBounds ([' '].intercalate (cs.map (·.chars))) = none := by
  unfold hyphenBounds
  rw [splitOn_comparisons h]
  obtain ⟨c, rest, rfl⟩ := List.exists_cons_of_ne_nil h
  split
  · rename_i from_ last htokens
    rw [List.map_cons, List.cons.injEq] at htokens
    have hversion : isVersion from_ = false := by
      rw [← htokens.1]
      by_contra hversion
      obtain ⟨version, hchars⟩ := exists_dotted (Bool.of_not_eq_false hversion)
      obtain ⟨ch, digits, hhead, hdigit⟩ := version.head_digit
      obtain ⟨ch', rest', hhead', hop⟩ := c.head
      obtain rfl : ch = ch' := by
        rw [hchars, hhead', List.cons.injEq] at hhead
        exact hhead.1.symm
      rcases hop with rfl | rfl
      · exact absurd hdigit (by decide)
      · exact absurd hdigit (by decide)
    rw [hversion]
    rfl
  · rfl

theorem looksLikeRange_joined {cs : List Comparison} (h : cs ≠ []) :
    looksLikeRange ([' '].intercalate (cs.map (·.chars))) = true := by
  obtain ⟨c, rest, rfl⟩ := List.exists_cons_of_ne_nil h
  obtain ⟨ch, chars, hhead, hop⟩ := c.head
  have hfirst : ([' '].intercalate ((c :: rest).map (·.chars))).head? = some ch := by
    rw [List.map_cons, hhead]
    cases rest with
    | nil => rfl
    | cons => rfl
  rw [looksLikeRange, hfirst]
  rcases hop with rfl | rfl
  · simp
  · simp

/-- What is written as comparators is accepted, with their bounds. -/
theorem parse_written {text : String} {cs : List Comparison} (h : Written text.toList cs) :
    parseOsConstraint text = some (.range text (cs.map (·.bound))) := by
  have hne : text.toList ≠ [] := by
    intro hnil
    rw [hnil] at h
    generalize hchars : ([] : List Char) = chars at h
    cases h with
    | hyphen first last => simp at hchars
    | joined cs hcs =>
      have hrange := looksLikeRange_joined hcs
      rw [← hchars] at hrange
      exact absurd hrange (by decide)
  have htext : text ≠ "" := fun heq => hne (by rw [heq]; rfl)
  unfold parseOsConstraint
  rw [if_neg htext]
  generalize text.toList = chars at h
  cases h with
  | hyphen first last =>
    have hrange : looksLikeRange (first.chars ++ [' ', '-', ' '] ++ last.chars) = true := by
      have hinfix : [' ', '-', ' '] <:+: first.chars ++ [' ', '-', ' '] ++ last.chars :=
        ⟨first.chars, last.chars, rfl⟩
      rw [looksLikeRange, decide_eq_true hinfix]
      simp
    have hbounds : hyphenBounds (first.chars ++ [' ', '-', ' '] ++ last.chars) =
        some [(Comparison.mk .atLeast first).bound, (Comparison.mk .atMost last).bound] := by
      rw [hyphenBounds, splitOn_hyphen]
      simp [first.isVersion, last.isVersion, Comparison.bound]
    rw [hrange, hbounds]
    rfl
  | joined cs hcs =>
    rw [looksLikeRange_joined hcs, hyphenBounds_joined hcs, comparatorBounds,
      splitOn_comparisons hcs, mapM_tokenBound]
    rfl

/-- What is accepted as a range is written as comparators. -/
theorem exists_written {text t : String} {bounds : List Bound}
    (h : parseOsConstraint text = some (.range t bounds)) :
    t = text ∧ ∃ cs, Written text.toList cs ∧ bounds = cs.map (·.bound) := by
  unfold parseOsConstraint at h
  split at h
  · cases h
  split at h
  · cases h
  simp only [Option.map_eq_some_iff, OsConstraint.range.injEq] at h
  obtain ⟨bounds', hbounds, rfl, rfl⟩ := h
  refine ⟨rfl, ?_⟩
  rcases Option.or_eq_some_iff.1 hbounds with hyphen | ⟨-, hjoined⟩
  · unfold hyphenBounds at hyphen
    split at hyphen
    · rename_i from_ last hsplit
      split at hyphen
      · rename_i hversions
        rw [Bool.and_eq_true] at hversions
        obtain ⟨first, rfl⟩ := exists_dotted hversions.1
        obtain ⟨second, rfl⟩ := exists_dotted hversions.2
        refine ⟨[⟨.atLeast, first⟩, ⟨.atMost, second⟩], ?_, (Option.some.inj hyphen).symm⟩
        have hchars : [' '].intercalate (text.toList.splitOn ' ') = text.toList :=
          List.intercalate_splitOn ' '
        rw [hsplit] at hchars
        rw [← hchars]
        have hform : [' '].intercalate [first.chars, ['-'], second.chars] =
            first.chars ++ [' ', '-', ' '] ++ second.chars := by
          simp [List.intercalate_cons_cons]
        rw [hform]
        exact Written.hyphen first second
      · cases hyphen
    · cases hyphen
  · obtain ⟨cs, hchars, rfl⟩ := exists_comparisons hjoined
    refine ⟨cs, ?_, rfl⟩
    have hjoin : [' '].intercalate (text.toList.splitOn ' ') = text.toList :=
      List.intercalate_splitOn ' '
    rw [← hchars] at hjoin
    rw [← hjoin]
    refine Written.joined cs fun hnil => List.splitOn_ne_nil ' ' text.toList ?_
    rw [← hchars, hnil]
    rfl

/-! ### Versions are ordered -/

/-- No part is so long that a double holds it only as the infinity. -/
def Dotted.Finite (version : Dotted) : Prop :=
  ∀ n ∈ version.parts, ∃ units : Int, Number.ofNat n = .finite units

def unitsOf : Number → Int
  | .finite units => units
  | _ => 0

/-- What a version is compared by. -/
def Dotted.key (version : Dotted) : List Int := version.parts.map fun n => unitsOf (Number.ofNat n)

/-- `left` is as old as `right`, or older. -/
def NotNewer (left right : Dotted) : Prop :=
  (compareVersions left.text right.text).sign = some .lt ∨
    (compareVersions left.text right.text).sign = some .eq

theorem Dotted.Finite.segments {version : Dotted} (h : version.Finite) :
    Core.segments version.chars = version.key.map Number.finite := by
  rw [version.segments, Dotted.key, List.map_map]
  refine List.map_congr_left fun n hn => ?_
  obtain ⟨units, hunits⟩ := h n hn
  rw [Function.comp_apply, hunits, unitsOf]

theorem compareVersions_compares {left right : Dotted} (hleft : left.Finite) (hright : right.Finite)
    {n : Nat} (hl : left.key.length ≤ n) (hr : right.key.length ≤ n) :
    ∃ o, (compareVersions left.text right.text).sign = some o ∧
      o.Compares (fit 0 n left.key) (fit 0 n right.key) := by
  obtain ⟨o, ho, hcompares⟩ := Simlock.Lib.places_compares 0 n left.key right.key
  refine ⟨o, ?_, hcompares⟩
  rw [compareVersions, sign_compareSegments, Dotted.text, Dotted.text, String.toList_ofList,
    String.toList_ofList, hleft.segments, hright.segments, List.length_map, List.length_map, ← ho,
    Simlock.Lib.places_congr (f := Number.finite) (w := 0) rfl _ _ _
      fun x y _ _ => Number.sign_sub_finite x y]
  exact (Simlock.Lib.places_of_le (by simp) (max_le hl hr) (le_max_left ..) (le_max_right ..)).symm

theorem notNewer_iff {left right : Dotted} (hleft : left.Finite) (hright : right.Finite)
    {n : Nat} (hl : left.key.length ≤ n) (hr : right.key.length ≤ n) :
    NotNewer left right ↔ fit 0 n left.key ≤ fit 0 n right.key := by
  obtain ⟨o, ho, hcompares⟩ := compareVersions_compares hleft hright hl hr
  rw [NotNewer, ho, Option.some.injEq, Option.some.injEq, ← hcompares.ne_gt]
  cases o <;> simp

theorem compareVersions_eq_iff {left right : Dotted} (hleft : left.Finite) (hright : right.Finite)
    {n : Nat} (hl : left.key.length ≤ n) (hr : right.key.length ≤ n) :
    (compareVersions left.text right.text).sign = some .eq ↔
      fit 0 n left.key = fit 0 n right.key := by
  obtain ⟨o, ho, hcompares⟩ := compareVersions_compares hleft hright hl hr
  rw [ho, Option.some.injEq, hcompares.eq_eq]

/-- The comparison of versions is a total preorder that ignores zeros at the end. -/
structure VersionOrder : Prop where
  refl : ∀ {v : Dotted}, v.Finite → NotNewer v v
  total : ∀ {v w : Dotted}, v.Finite → w.Finite → NotNewer v w ∨ NotNewer w v
  trans : ∀ {u v w : Dotted}, u.Finite → v.Finite → w.Finite → NotNewer u v → NotNewer v w →
    NotNewer u w
  swap : ∀ {v w : Dotted}, v.Finite → w.Finite →
    ((compareVersions v.text w.text).sign = some .lt ↔
      (compareVersions w.text v.text).sign = some .gt)
  zeros : ∀ {v w : Dotted} {k : Nat}, v.Finite → w.parts = v.parts ++ List.replicate k 0 →
    (compareVersions v.text w.text).sign = some .eq

theorem Dotted.Finite.append_zeros {v w : Dotted} {k : Nat} (hv : v.Finite)
    (h : w.parts = v.parts ++ List.replicate k 0) : w.Finite := by
  intro n hn
  rw [h, List.mem_append] at hn
  rcases hn with hn | hn
  · exact hv n hn
  · rw [List.eq_of_mem_replicate hn, Number.ofNat_zero]
    exact ⟨0, rfl⟩

theorem versionOrder : VersionOrder where
  refl hv := (notNewer_iff hv hv le_rfl le_rfl).2 le_rfl
  total {v w} hv hw := by
    rw [notNewer_iff hv hw (le_max_left ..) (le_max_right ..),
      notNewer_iff hw hv (le_max_right ..) (le_max_left ..)]
    exact le_total _ _
  trans {u v w} hu hv hw huv hvw := by
    have hlu : u.key.length ≤ max u.key.length (max v.key.length w.key.length) := le_max_left ..
    have hlv : v.key.length ≤ max u.key.length (max v.key.length w.key.length) := by omega
    have hlw : w.key.length ≤ max u.key.length (max v.key.length w.key.length) := by omega
    rw [notNewer_iff hu hv hlu hlv] at huv
    rw [notNewer_iff hv hw hlv hlw] at hvw
    exact (notNewer_iff hu hw hlu hlw).2 (huv.trans hvw)
  swap {v w} hv hw := by
    obtain ⟨o, ho, hcompares⟩ :=
      compareVersions_compares hv hw (le_max_left ..) (le_max_right ..)
    obtain ⟨o', ho', hcompares'⟩ :=
      compareVersions_compares hw hv (le_max_right ..) (le_max_left ..)
    rw [ho, ho', Option.some.injEq, Option.some.injEq, hcompares.eq_lt, hcompares'.eq_gt]
  zeros {v w k} hv h := by
    have hkey : w.key = v.key ++ List.replicate k 0 := by
      rw [Dotted.key, Dotted.key, h, List.map_append, List.map_replicate, Number.ofNat_zero,
        unitsOf]
    rw [compareVersions_eq_iff hv (hv.append_zeros h) (le_max_left ..) (le_max_right ..), hkey,
      Simlock.Lib.fit_append_zeros]

/-! ### The meaning of a range -/

/-- An accepted range is written as comparators, and whatever comparators it is written as, it takes
    the versions all of them hold of; and the comparison of versions is an order. -/
theorem range_takes_where_comparators_hold {text t : String} {bounds : List Bound}
    (h : parseOsConstraint text = some (.range t bounds)) :
    (∃ cs, Written text.toList cs) ∧
      (∀ cs, Written text.toList cs → (∀ c ∈ cs, c.Safe) → ∀ version : Dotted,
        satisfies version.text (.range t bounds) = true ↔ ∀ c ∈ cs, c.Holds version.parts) ∧
      VersionOrder := by
  obtain ⟨rfl, cs, hwritten, rfl⟩ := exists_written h
  refine ⟨⟨cs, hwritten⟩, fun cs' hwritten' hsafe version => ?_, versionOrder⟩
  have hsame := parse_written hwritten'
  rw [h, Option.some.injEq, OsConstraint.range.injEq] at hsame
  rw [hsame.2, satisfies, List.all_eq_true, Dotted.text, String.toList_ofList]
  refine List.forall_mem_map.trans (forall₂_congr fun c hc => ?_)
  exact Comparison.takes_iff (hsafe c hc) version

theorem digits_of_all {runs : List (List Char)}
    (h : runs.all (fun run => run ≠ [] && run.all Char.isDigit) = true) :
    ∀ run ∈ runs, run ≠ [] ∧ ∀ c ∈ run, c.isDigit = true := by
  simpa using h

/-- Texts of one run of digits, `18.4` of two. -/
def dotted18 : Dotted := ⟨["18".toList], nofun, digits_of_all (by decide +kernel)⟩

def dotted18_4 : Dotted := ⟨["18".toList, "4".toList], nofun, digits_of_all (by decide +kernel)⟩

def dottedUnsafe : Dotted :=
  ⟨["9007199254740993".toList], nofun, digits_of_all (by decide +kernel)⟩

def dottedRounded : Dotted :=
  ⟨["9007199254740992".toList], nofun, digits_of_all (by decide +kernel)⟩

theorem range_takes_where_comparators_hold_eighteen :
    satisfies dotted18_4.text (.range ">=18" [⟨some [Number.ofNat 18], none⟩]) = true := by
  have hparse : parseOsConstraint ">=18" =
      some (.range ">=18" [⟨some [Number.ofNat 18], none⟩]) := by decide +kernel
  refine ((range_takes_where_comparators_hold hparse).2.1 [⟨.atLeast, dotted18⟩] ?_ ?_
    dotted18_4).2 ?_
  · exact Written.joined [⟨.atLeast, dotted18⟩] (List.cons_ne_nil _ _)
  · intro c hc n hn
    obtain rfl := List.mem_singleton.1 hc
    have hparts : dotted18.parts = [18] := by decide
    rw [hparts, List.mem_singleton] at hn
    omega
  · intro c hc
    obtain rfl := List.mem_singleton.1 hc
    exact le_of_eq (by decide)

/-- `2^53 + 1` reads as `2^53`. -/
theorem unsafe_comparator_rounded :
    (parseOsConstraint ">=9007199254740993").any (satisfies dottedRounded.text) = true ∧
      Written ">=9007199254740993".toList [⟨.atLeast, dottedUnsafe⟩] ∧
      ¬ (Comparison.mk .atLeast dottedUnsafe).Holds dottedRounded.parts := by
  refine ⟨by decide +kernel, Written.joined [⟨.atLeast, dottedUnsafe⟩] (List.cons_ne_nil _ _), ?_⟩
  have hlimit : dottedUnsafe.parts = [9007199254740993] := by decide +kernel
  have hrounded : dottedRounded.parts = [9007199254740992] := by decide +kernel
  simp only [Comparison.Holds]
  rw [hlimit, hrounded]
  decide

end Simlock.Core
