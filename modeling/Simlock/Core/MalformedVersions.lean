import Mathlib.Data.List.Forall2
import Simlock.Core.OsRangeMeaning

/-! Versions that are no dotted integers, against a range.

    A part that spells no number is NaN, and a comparison with NaN has no answer; so where such a
    part would decide, every bound refuses. It need not decide: an earlier part may, and a part may
    spell a number without being digits. What is left is that a range takes a version exactly when
    it takes every reading of it. -/

namespace Simlock.Core

open Simlock.Lib (Number orElseNext orElseNext_eq places)

/-- A way to read the parts of a version: a part that spells a number is that number, any other may
    be any number. -/
def Reading (parts xs : List Number) : Prop :=
  List.Forall₂ (fun part x => x ≠ .nan ∧ (part ≠ .nan → x = part)) parts xs

theorem against_nan (y : Number) : Number.against .nan y = none := rfl

/-- What decides is a number, and so the same in every reading. -/
theorem places_reading {n : Nat} {parts xs bound : List Number} {o : Ordering}
    (h : places Number.against (.finite 0) n parts bound = some o) (hxs : Reading parts xs) :
    places Number.against (.finite 0) n xs bound = some o := by
  induction n generalizing parts xs bound with
  | zero => exact h
  | succ n ih =>
    rw [places] at h ⊢
    have hhead : Number.against (parts.headD (.finite 0)) (bound.headD (.finite 0)) ≠ none := by
      intro hnone
      rw [hnone] at h
      cases h
    have hsame : xs.headD (.finite 0) = parts.headD (.finite 0) ∧ Reading parts.tail xs.tail := by
      cases hxs with
      | nil => exact ⟨rfl, List.Forall₂.nil⟩
      | cons hx hrest =>
        refine ⟨hx.2 fun hnan => hhead ?_, hrest⟩
        rw [List.headD_cons, hnan, against_nan]
    rw [hsame.1]
    rcases hc : Number.against (parts.headD (.finite 0)) (bound.headD (.finite 0)) with
      _ | (_ | _ | _)
    · exact absurd hc hhead
    · rw [hc] at h
      exact h
    · rw [hc, orElseNext_eq] at h
      exact ih h hsame.2
    · rw [hc] at h
      exact h

/-- The reading in which every part that is no number is `x`. -/
def fill (x : Number) (parts : List Number) : List Number :=
  parts.map fun part => if part = .nan then x else part

theorem reading_fill {x : Number} (hx : x ≠ .nan) (parts : List Number) :
    Reading parts (fill x parts) := by
  induction parts with
  | nil => exact List.Forall₂.nil
  | cons part rest ih =>
    refine List.Forall₂.cons ⟨?_, fun hpart => if_neg hpart⟩ ih
    dsimp only
    by_cases hpart : part = .nan
    · rw [if_pos hpart]
      exact hx
    · rw [if_neg hpart]
      exact hpart

/-- Where nothing decides, an `x` that is never equal to a part of the bound may. -/
theorem places_fill {x : Number} {o : Ordering}
    (hx : ∀ y, Number.against x y = none ∨ Number.against x y = some o) (ho : o ≠ .eq) {n : Nat}
    {parts bound : List Number} (h : places Number.against (.finite 0) n parts bound = none) :
    places Number.against (.finite 0) n (fill x parts) bound = none ∨
      places Number.against (.finite 0) n (fill x parts) bound = some o := by
  induction n generalizing parts bound with
  | zero => cases h
  | succ n ih =>
    rw [places] at h ⊢
    have hhead : (fill x parts).headD (.finite 0) =
        if parts.headD (.finite 0) = .nan then x else parts.headD (.finite 0) := by
      cases parts <;> rfl
    have htail : (fill x parts).tail = fill x parts.tail := by
      rw [fill, fill, List.map_tail]
    rw [hhead, htail]
    split
    · rcases hx (bound.headD (.finite 0)) with hnone | hsome
      · exact Or.inl (by rw [hnone]; rfl)
      · rw [hsome]
        cases o with
        | eq => exact absurd rfl ho
        | lt => exact Or.inr rfl
        | gt => exact Or.inr rfl
    · rcases hc : Number.against (parts.headD (.finite 0)) (bound.headD (.finite 0)) with
        _ | (_ | _ | _)
      · exact Or.inl rfl
      · rw [hc] at h
        cases h
      · rw [hc, orElseNext_eq] at h
        exact ih h
      · rw [hc] at h
        cases h

theorem against_negative (y : Number) :
    Number.against (.infinite true) y = none ∨ Number.against (.infinite true) y = some .lt := by
  match y with
  | .nan => exact Or.inl rfl
  | .infinite true => exact Or.inl rfl
  | .infinite false => exact Or.inr rfl
  | .finite _ => exact Or.inr rfl

theorem against_positive (y : Number) :
    Number.against (.infinite false) y = none ∨ Number.against (.infinite false) y = some .gt := by
  match y with
  | .nan => exact Or.inl rfl
  | .infinite true => exact Or.inr rfl
  | .infinite false => exact Or.inl rfl
  | .finite _ => exact Or.inr rfl

theorem length_reading {parts xs : List Number} (h : Reading parts xs) : xs.length = parts.length :=
  (List.Forall₂.length_eq h).symm

theorem sign_reading {parts xs bound : List Number} {o : Ordering} (hxs : Reading parts xs)
    (h : (compareSegments parts bound).sign = some o) :
    (compareSegments xs bound).sign = some o := by
  rw [sign_compareSegments] at h ⊢
  rw [length_reading hxs]
  exact places_reading h hxs

theorem sign_fill {x : Number} {o : Ordering} {parts bound : List Number}
    (hx : ∀ y, Number.against x y = none ∨ Number.against x y = some o) (ho : o ≠ .eq)
    (h : (compareSegments parts bound).sign = none) :
    (compareSegments (fill x parts) bound).sign = none ∨
      (compareSegments (fill x parts) bound).sign = some o := by
  rw [sign_compareSegments] at h ⊢
  rw [fill, List.length_map]
  exact places_fill hx ho h

/-- A bound that takes the parts takes every reading of them. -/
theorem takes_reading {bound : Bound} {parts xs : List Number} (hxs : Reading parts xs)
    (h : bound.takes parts = true) : bound.takes xs = true := by
  obtain ⟨from_, before⟩ := bound
  rw [Bound.takes, Bool.and_eq_true] at h ⊢
  refine ⟨?_, ?_⟩
  · cases from_ with
    | none => rfl
    | some from_ =>
      rw [Option.all_some, Number.notBelowZero_iff] at h ⊢
      exact h.1.imp (sign_reading hxs) (sign_reading hxs)
  · cases before with
    | none => rfl
    | some before =>
      rw [Option.all_some, Number.belowZero_iff] at h ⊢
      exact sign_reading hxs h.2

/-- One that does not refuses some reading: where a part that is no number would decide, the least
    or the greatest one. -/
theorem exists_reading_refused {bound : Bound} {parts : List Number}
    (h : bound.takes parts = false) : ∃ xs, Reading parts xs ∧ bound.takes xs = false := by
  obtain ⟨from_, before⟩ := bound
  rw [Bound.takes, Bool.and_eq_false_iff] at h
  rcases h with h | h
  · cases from_ with
    | none => cases h
    | some from_ =>
      have hxs := reading_fill (x := .infinite true) nofun parts
      refine ⟨_, hxs, ?_⟩
      rw [Option.all_some, ← Bool.not_eq_true, Number.notBelowZero_iff] at h
      rw [Bound.takes, Bool.and_eq_false_iff, Option.all_some, ← Bool.not_eq_true,
        Number.notBelowZero_iff]
      refine Or.inl ?_
      match hsign : (compareSegments parts from_).sign with
      | none => rcases sign_fill against_negative nofun hsign with hs | hs <;> simp [hs]
      | some .lt => simp [sign_reading hxs hsign]
      | some .eq => exact absurd (Or.inl hsign) h
      | some .gt => exact absurd (Or.inr hsign) h
  · cases before with
    | none => cases h
    | some before =>
      have hxs := reading_fill (x := .infinite false) nofun parts
      refine ⟨_, hxs, ?_⟩
      rw [Option.all_some, ← Bool.not_eq_true, Number.belowZero_iff] at h
      rw [Bound.takes, Bool.and_eq_false_iff, Option.all_some,
        ← Bool.not_eq_true (Number.belowZero _), Number.belowZero_iff]
      refine Or.inr ?_
      match hsign : (compareSegments parts before).sign with
      | none => rcases sign_fill against_positive nofun hsign with hs | hs <;> simp [hs]
      | some .lt => exact absurd hsign h
      | some .eq => simp [sign_reading hxs hsign]
      | some .gt => simp [sign_reading hxs hsign]

end Simlock.Core
