import Mathlib.Algebra.BigOperators.Group.List.Basic
import Mathlib.Algebra.Group.Pi.Basic
import Mathlib.Algebra.Group.Prod
import Mathlib.Algebra.Order.Field.Rat
import Mathlib.Algebra.Order.BigOperators.Group.LocallyFinite
import Mathlib.Data.Int.ConditionallyCompleteOrder
import Mathlib.Data.Int.Interval
import Mathlib.Data.Int.SuccPred
import Mathlib.Data.Rat.Init
import Mathlib.Order.WithBot
import Mathlib.Tactic.Linarith

/-! A step function of several values, with periods in which it is not known, and what it comes to
    over a window.

    A timeline has the periods that ended and the one that runs. What is measured of a period is a
    gauge: it depends on the levels and the length of the part inside the window, and lengths add up.
    So a window can be cut anywhere, and a change of the levels is felt only from its time on. -/

namespace Simlock.Lib

/-- How long `[s, e)` and `[a, b)` have in common. -/
def overlap (s e a b : ℚ) : ℚ := max 0 (min e b - max s a)

theorem overlap_nonneg (s e a b : ℚ) : 0 ≤ overlap s e a b := le_max_left ..

theorem overlap_split (s e : ℚ) {a b c : ℚ} (hab : a ≤ b) (hbc : b ≤ c) :
    overlap s e a c = overlap s e a b + overlap s e b c := by
  unfold overlap
  simp only [max_def, min_def]
  split_ifs <;> linarith

/-- Only what lies before the end of the window counts. -/
theorem overlap_until {e e' b : ℚ} (s a : ℚ) (he : b ≤ e) (he' : b ≤ e') :
    overlap s e a b = overlap s e' a b := by
  rw [overlap, overlap, min_eq_right he, min_eq_right he']

theorem overlap_of_ended {e a : ℚ} (s b : ℚ) (h : e ≤ a) : overlap s e a b = 0 := by
  unfold overlap
  refine max_eq_left ?_
  have h₁ : min e b ≤ e := min_le_left ..
  have h₂ : a ≤ max s a := le_max_right ..
  linarith

theorem overlap_of_later {s b : ℚ} (e a : ℚ) (h : b ≤ s) : overlap s e a b = 0 := by
  unfold overlap
  refine max_eq_left ?_
  have h₁ : min e b ≤ b := min_le_right ..
  have h₂ : s ≤ max s a := le_max_left ..
  linarith

theorem overlap_of_mem {s e a b : ℚ} (hs : s ≤ a) (hab : a ≤ b) (he : b ≤ e) :
    overlap s e a b = b - a := by
  rw [overlap, min_eq_right he, max_eq_right hs, max_eq_right (by linarith)]

/-! ### Gauges -/

abbrev Levels (ι : Type) := ι → Option ℚ

/-- What a length of time at some levels comes to. -/
structure Gauge (ι M : Type) [AddCommMonoid M] where
  of : Levels ι → ℚ → M
  zero : ∀ levels, of levels 0 = 0
  add : ∀ levels {x y : ℚ}, 0 ≤ x → 0 ≤ y → of levels (x + y) = of levels x + of levels y

/-- A level, or none, under the maximum. -/
def Peak : Type := WithBot ℚ

def Peak.of (level : Option ℚ) : Peak := level

instance : DecidableEq Peak := inferInstanceAs (DecidableEq (WithBot ℚ))

instance : Zero Peak := ⟨(⊥ : WithBot ℚ)⟩

instance : Add Peak := ⟨fun x y => max (α := WithBot ℚ) x y⟩

instance : AddCommMonoid Peak where
  add_assoc := max_assoc (α := WithBot ℚ)
  add_comm := max_comm (α := WithBot ℚ)
  zero_add x := bot_sup_eq (α := WithBot ℚ) x
  add_zero x := sup_bot_eq (α := WithBot ℚ) x
  nsmul := nsmulRec

/-- The time known and, for each value, its integral and its peak. -/
abbrev Summary (ι : Type) := ℚ × (ι → ℚ × Peak)

def peakOf (level : Option ℚ) (length : ℚ) : Peak := if 0 < length then Peak.of level else 0

theorem peakOf_pos (level : Option ℚ) {length : ℚ} (h : 0 < length) :
    peakOf level length = Peak.of level := if_pos h

theorem peakOf_zero (level : Option ℚ) : peakOf level 0 = 0 := if_neg (lt_irrefl _)

theorem peakOf_add (level : Option ℚ) {x y : ℚ} (hx : 0 ≤ x) (hy : 0 ≤ y) :
    peakOf level (x + y) = peakOf level x + peakOf level y := by
  have hself : ∀ p : Peak, p + p = p := max_self (α := WithBot ℚ)
  unfold peakOf
  rcases hx.eq_or_lt with rfl | hx
  · rw [zero_add, if_neg (lt_irrefl _), zero_add]
  rcases hy.eq_or_lt with rfl | hy
  · rw [add_zero, if_neg (lt_irrefl _), add_zero]
  · rw [if_pos (by linarith), if_pos hx, if_pos hy, hself]

def summaryGauge (ι : Type) : Gauge ι (Summary ι) where
  of levels length := (length, fun v => ((levels v).getD 0 * length, peakOf (levels v) length))
  zero levels := by
    refine Prod.ext rfl (funext fun v => Prod.ext (mul_zero _) ?_)
    exact peakOf_zero (levels v)
  add levels x y hx hy := by
    refine Prod.ext rfl (funext fun v => Prod.ext (mul_add _ _ _) ?_)
    exact peakOf_add _ hx hy

/-! ### Timelines -/

/-- A period that ended. -/
structure Period (ι : Type) where
  from_ : ℚ
  until_ : ℚ
  levels : Levels ι

structure Timeline (ι : Type) where
  past : List (Period ι)
  now : Option (ℚ × Levels ι)

namespace Timeline

variable {ι M : Type} [AddCommMonoid M] (g : Gauge ι M) (tl : Timeline ι)

def empty : Timeline ι := ⟨[], none⟩

/-- What the function comes to over `[a, b)`. -/
def total (a b : ℚ) : M :=
  (tl.past.map fun p => g.of p.levels (overlap p.from_ p.until_ a b)).sum +
    tl.now.elim 0 fun n => g.of n.2 (overlap n.1 b a b)

/-- From `t` on the levels are `next`, or not known. -/
def turn (t : ℚ) (next : Option (Levels ι)) : Timeline ι where
  past := tl.now.elim tl.past fun n => ⟨n.1, t, n.2⟩ :: tl.past
  now := next.map fun levels => (t, levels)

/-- A value takes a level; the others keep theirs. -/
def step [DecidableEq ι] (v : ι) (level t : ℚ) : Timeline ι :=
  match tl.now with
  | none => tl.turn t (some (Function.update (fun _ => none) v (some level)))
  | some (_, levels) =>
    if levels v = some level then tl
    else tl.turn t (some (Function.update levels v (some level)))

/-- The levels are known no longer. -/
def cut (t : ℚ) : Timeline ι := if tl.now.isSome then tl.turn t none else tl

/-- Everything that is over was over at `t`, and what runs had begun. -/
structure Ended (t : ℚ) : Prop where
  past : ∀ p ∈ tl.past, p.until_ ≤ t
  now : ∀ n ∈ tl.now, n.1 ≤ t

variable {g tl}

theorem Ended.mono {s t : ℚ} (h : tl.Ended s) (hst : s ≤ t) : tl.Ended t :=
  ⟨fun p hp => (h.past p hp).trans hst, fun n hn => (h.now n hn).trans hst⟩

theorem Ended.turn {s t : ℚ} (h : tl.Ended s) (hst : s ≤ t) (next : Option (Levels ι)) :
    (tl.turn t next).Ended t := by
  refine ⟨fun p hp => ?_, fun n hn => ?_⟩
  · unfold Timeline.turn at hp
    match hnow : tl.now with
    | none =>
      rw [hnow] at hp
      exact (h.past p hp).trans hst
    | some n =>
      rw [hnow] at hp
      rcases List.mem_cons.1 hp with rfl | hp
      · exact le_rfl
      · exact (h.past p hp).trans hst
  · obtain ⟨levels, -, rfl⟩ := Option.map_eq_some_iff.1 hn
    exact le_rfl

/-- A window can be cut anywhere. -/
theorem total_split {a b c : ℚ} (hab : a ≤ b) (hbc : b ≤ c) :
    tl.total g a c = tl.total g a b + tl.total g b c := by
  have hsplit : ∀ (levels : Levels ι) (s e : ℚ), g.of levels (overlap s e a c) =
      g.of levels (overlap s e a b) + g.of levels (overlap s e b c) := fun levels s e => by
    rw [overlap_split s e hab hbc, g.add levels (overlap_nonneg ..) (overlap_nonneg ..)]
  have hnow : (tl.now.elim 0 fun n => g.of n.2 (overlap n.1 c a c)) =
      (tl.now.elim 0 fun n => g.of n.2 (overlap n.1 b a b)) +
        tl.now.elim 0 fun n => g.of n.2 (overlap n.1 c b c) := by
    cases tl.now with
    | none => exact (add_zero 0).symm
    | some n =>
      simp only [Option.elim_some]
      rw [hsplit, overlap_until n.1 a hbc le_rfl]
  unfold total
  rw [hnow, List.map_congr_left fun p _ => hsplit p.levels p.from_ p.until_, List.sum_map_add]
  exact add_add_add_comm _ _ _ _

theorem total_self (a : ℚ) : tl.total g a a = 0 := by
  have hzero : ∀ (levels : Levels ι) (s e : ℚ), g.of levels (overlap s e a a) = 0 :=
    fun levels s e => by
      have hoverlap : overlap s e a a = 0 := by
        unfold overlap
        refine max_eq_left ?_
        have h₁ : min e a ≤ a := min_le_right ..
        have h₂ : a ≤ max s a := le_max_right ..
        linarith
      rw [hoverlap, g.zero]
  unfold total
  rw [List.map_congr_left fun p _ => hzero p.levels p.from_ p.until_]
  cases tl.now <;> simp [hzero]

/-- A turn is not felt before its time. -/
theorem total_turn_before {a b t : ℚ} (hb : b ≤ t) (next : Option (Levels ι)) :
    (tl.turn t next).total g a b = tl.total g a b := by
  have hnext : ((tl.turn t next).now.elim 0 fun n => g.of n.2 (overlap n.1 b a b)) = 0 := by
    unfold turn
    cases next with
    | none => rfl
    | some levels =>
      simp only [Option.map_some, Option.elim_some]
      rw [overlap_of_later _ _ hb, g.zero]
  unfold total
  rw [hnext, add_zero]
  unfold turn
  match hnow : tl.now with
  | none => simp
  | some n =>
    simp only [Option.elim_some, List.map_cons, List.sum_cons]
    rw [overlap_until n.1 a hb le_rfl, add_comm]

/-- From a time on at which nothing changes any more, only the levels that run count. -/
theorem total_of_ended {a b : ℚ} (h : tl.Ended a) (hab : a ≤ b) :
    tl.total g a b = tl.now.elim 0 fun n => g.of n.2 (b - a) := by
  have hpast : (tl.past.map fun p => g.of p.levels (overlap p.from_ p.until_ a b)).sum = 0 := by
    refine List.sum_eq_zero fun x hx => ?_
    obtain ⟨p, hp, rfl⟩ := List.mem_map.1 hx
    rw [overlap_of_ended _ _ (h.past p hp), g.zero]
  unfold total
  rw [hpast, zero_add]
  match hnow : tl.now with
  | none => rfl
  | some n =>
    simp only [Option.elim_some]
    rw [overlap_of_mem (h.now n hnow) hab le_rfl]

/-- Over a window with the turn in it: what was before, and the new levels for the rest. -/
theorem total_turn {s a b t : ℚ} (h : tl.Ended s) (hst : s ≤ t) (hat : a ≤ t) (htb : t ≤ b)
    (next : Option (Levels ι)) :
    (tl.turn t next).total g a b =
      tl.total g a t + next.elim 0 fun levels => g.of levels (b - t) := by
  rw [total_split hat htb, total_turn_before le_rfl, total_of_ended (h.turn hst next) htb]
  congr 1
  cases next <;> rfl

/-- A window cut at many places is the sum of its parts. -/
theorem total_parts (tl : Timeline ι) (p : ℤ → ℚ) (hp : ∀ i, p i ≤ p (i + 1)) {a b : ℤ} (hab : a ≤ b) :
    tl.total g (p a) (p b) = ∑ i ∈ Finset.Ico a b, tl.total g (p i) (p (i + 1)) := by
  have hmono : Monotone p := monotone_int_of_le_succ hp
  induction b, hab using Int.leInduction with
  | base => rw [Finset.Ico_self, Finset.sum_empty, total_self]
  | succ b hab ih =>
    rw [← Finset.sum_Ico_add_eq_sum_Ico_add_one hab, ← ih, total_split (hmono hab) (hp b)]

/-- The same window had nothing turned in it. -/
theorem total_running {a b t : ℚ} (h : tl.Ended t) (hat : a ≤ t) (htb : t ≤ b) :
    tl.total g a b = tl.total g a t + tl.now.elim 0 fun n => g.of n.2 (b - t) := by
  rw [total_split hat htb, total_of_ended h htb]

end Timeline

end Simlock.Lib
