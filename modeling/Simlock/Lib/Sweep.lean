import Mathlib.Algebra.Ring.Int.Defs
import Mathlib.Data.List.Sort
import Mathlib.Data.List.Induction
import Mathlib.Algebra.Order.BigOperators.Group.List
import Mathlib.Order.Bounds.Basic

/-! A sweep over edges: the highest level of a sum that changes at given times.

    An edge changes the level by its delta at its time. The sweep goes over the edges in the order of
    time, the falls of one time before its rises, and keeps the highest level it passes, at least 0.
    It never passes a level that is not the level of some time, because what falls at a time has
    fallen before anything rises. -/

namespace Simlock.Lib

structure Edge where
  time : Int
  delta : Int
  deriving DecidableEq, Repr

namespace Edge

/-- By time, and falls first. -/
def before (left right : Edge) : Prop :=
  left.time < right.time ∨ left.time = right.time ∧ left.delta ≤ right.delta

instance : DecidableRel before := fun left right =>
  inferInstanceAs (Decidable (left.time < right.time ∨ left.time = right.time ∧ _))

instance : Std.Total before := ⟨fun left right => by unfold before; omega⟩

instance : IsTrans Edge before := ⟨fun a b c hab hbc => by unfold before at *; omega⟩

end Edge

/-- The level and the peak after the edges, taken in order. -/
def sweepFrom (level peak : Int) (edges : List Edge) : Int × Int :=
  edges.foldl (fun s e => (s.1 + e.delta, max s.2 (s.1 + e.delta))) (level, peak)

/-- The level at a time: all that has changed by then. -/
def levelAt (edges : List Edge) (t : Int) : Int :=
  ((edges.filter fun e => e.time ≤ t).map Edge.delta).sum

def total (edges : List Edge) : Int := (edges.map Edge.delta).sum

theorem levelAt_perm {edges edges' : List Edge} (h : edges.Perm edges') (t : Int) :
    levelAt edges t = levelAt edges' t := ((h.filter _).map _).sum_eq

@[simp] theorem levelAt_append (edges edges' : List Edge) (t : Int) :
    levelAt (edges ++ edges') t = levelAt edges t + levelAt edges' t := by simp [levelAt]

/-! ### What a sweep passes -/

theorem sweepFrom_cons (level peak : Int) (e : Edge) (edges : List Edge) :
    sweepFrom level peak (e :: edges) =
      sweepFrom (level + e.delta) (max peak (level + e.delta)) edges := rfl

/-- It passes the level after each prefix. -/
theorem le_sweepFrom (level peak : Int) (edges : List Edge) :
    peak ≤ (sweepFrom level peak edges).2 ∧
      ∀ front, front <+: edges → front ≠ [] →
        level + total front ≤ (sweepFrom level peak edges).2 := by
  induction edges generalizing level peak with
  | nil =>
    refine ⟨le_refl _, fun front hfront hne => ?_⟩
    exact absurd (List.prefix_nil.1 hfront) hne
  | cons e edges ih =>
    obtain ⟨hpeak, hfronts⟩ := ih (level + e.delta) (max peak (level + e.delta))
    rw [sweepFrom_cons]
    refine ⟨le_trans (le_max_left _ _) hpeak, fun front hfront hne => ?_⟩
    cases front with
    | nil => exact absurd rfl hne
    | cons e' front =>
      obtain ⟨rfl, hrest⟩ := List.cons_prefix_cons.1 hfront
      by_cases hempty : front = []
      · rw [hempty]
        refine le_trans ?_ (le_trans (le_max_right peak _) hpeak)
        simp [total]
      · have hle := hfronts front hrest hempty
        simp only [total, List.map_cons, List.sum_cons] at hle ⊢
        omega

/-- It stays at its first peak, or ends on the level after some prefix. -/
theorem sweepFrom_attained (level peak : Int) (edges : List Edge) :
    (sweepFrom level peak edges).2 = peak ∨
      ∃ front, front <+: edges ∧ (sweepFrom level peak edges).2 = level + total front := by
  induction edges generalizing level peak with
  | nil => exact .inl rfl
  | cons e edges ih =>
    rw [sweepFrom_cons]
    rcases ih (level + e.delta) (max peak (level + e.delta)) with hpeak | ⟨front, hfront, hlevel⟩
    · rcases le_total peak (level + e.delta) with hle | hle
      · rw [max_eq_right hle] at hpeak ⊢
        refine .inr ⟨[e], ⟨edges, rfl⟩, ?_⟩
        simpa [total] using hpeak
      · rw [max_eq_left hle] at hpeak ⊢
        exact .inl hpeak
    · refine .inr ⟨e :: front, List.cons_prefix_cons.2 ⟨rfl, hfront⟩, ?_⟩
      rw [hlevel]
      simp only [total, List.map_cons, List.sum_cons]
      omega

/-! ### Sorted edges -/

section Sorted

variable {edges : List Edge}

/-- The edges up to a time come first. -/
theorem filter_front (h : edges.Pairwise Edge.before) (t : Int) :
    (edges.filter fun e => e.time ≤ t) <+: edges := by
  induction edges with
  | nil => exact List.prefix_refl _
  | cons e edges ih =>
    rw [List.pairwise_cons] at h
    by_cases hle : e.time ≤ t
    · rw [List.filter_cons_of_pos (by simpa using hle)]
      exact List.cons_prefix_cons.2 ⟨rfl, ih h.2⟩
    · have hnone : edges.filter (fun e => e.time ≤ t) = [] := by
        rw [List.filter_eq_nil_iff]
        intro e' hmem
        have hbefore := h.1 e' hmem
        unfold Edge.before at hbefore
        simp only [decide_eq_true_eq]
        omega
      rw [List.filter_cons_of_neg (by simpa using hle), hnone]
      exact List.nil_prefix

/-- The level after a prefix is at most 0, or at most the level at the time of some rise. -/
theorem total_prefix_le (h : edges.Pairwise Edge.before) (front : List Edge)
    (hfront : front <+: edges) :
    total front ≤ 0 ∨ ∃ e ∈ edges, 0 < e.delta ∧ total front ≤ levelAt edges e.time := by
  induction front using List.reverseRecOn with
  | nil => exact .inl (le_refl _)
  | append_singleton front e ih =>
    have hshort : front <+: edges := (List.prefix_append _ _).trans hfront
    have hsum : total (front ++ [e]) = total front + e.delta := by simp [total]
    by_cases hfall : e.delta ≤ 0
    · rcases ih hshort with hzero | ⟨e', hmem, hrise, hle⟩
      · exact .inl (by omega)
      · exact .inr ⟨e', hmem, hrise, by omega⟩
    · obtain ⟨back, rfl⟩ := hfront
      refine .inr ⟨e, by simp, by omega, ?_⟩
      rw [List.append_assoc, List.pairwise_append] at h
      have hbefore : ∀ e' ∈ front, e'.time ≤ e.time := by
        intro e' hmem
        have hpair := h.2.2 e' hmem e (by simp)
        unfold Edge.before at hpair
        omega
      have hback : 0 ≤ levelAt back e.time := by
        refine List.sum_nonneg fun delta hdelta => ?_
        obtain ⟨e', hmem, rfl⟩ := List.mem_map.1 hdelta
        obtain ⟨hmem, hle⟩ := List.mem_filter.1 hmem
        have hpair := (List.pairwise_cons.1 h.2.1).1 e' hmem
        unfold Edge.before at hpair
        simp only [decide_eq_true_eq] at hle
        omega
      have hwhole : levelAt front e.time = total front := by
        rw [levelAt, List.filter_eq_self.2 (by simpa using hbefore), total]
      have hself : levelAt [e] e.time = e.delta := by simp [levelAt]
      rw [levelAt_append, levelAt_append, hsum, hwhole, hself]
      omega

/-- The sweep's peak is the highest level there is, at a time of a rise or at any time where the
    level is not below 0. -/
theorem sweep_isGreatest (h : edges.Pairwise Edge.before) {times : Set Int} {floor : Int}
    (hfloor : floor ∈ times) (hrises : ∀ e ∈ edges, 0 < e.delta → e.time ∈ times)
    (hlevel : ∀ t ∈ times, 0 ≤ levelAt edges t) :
    IsGreatest (levelAt edges '' times) (sweepFrom 0 0 edges).2 := by
  obtain ⟨hpeak, hfronts⟩ := le_sweepFrom 0 0 edges
  have hbound : ∀ t ∈ times, levelAt edges t ≤ (sweepFrom 0 0 edges).2 := by
    intro t _
    by_cases hempty : (edges.filter fun e => e.time ≤ t) = []
    · rw [levelAt, hempty]
      exact hpeak
    · have hle := hfronts _ (filter_front h t) hempty
      rwa [zero_add] at hle
  refine ⟨?_, ?_⟩
  · rcases sweepFrom_attained 0 0 edges with hzero | ⟨front, hfront, hattained⟩
    · refine ⟨floor, hfloor, le_antisymm (hbound floor hfloor) ?_⟩
      rw [hzero]
      exact hlevel floor hfloor
    · rw [zero_add] at hattained
      rcases total_prefix_le h front hfront with hzero | ⟨e, hmem, hrise, hle⟩
      · refine ⟨floor, hfloor, le_antisymm (hbound floor hfloor) ?_⟩
        rw [hattained]
        exact le_trans hzero (hlevel floor hfloor)
      · have htime := hrises e hmem hrise
        refine ⟨e.time, htime, le_antisymm (hbound _ htime) ?_⟩
        rw [hattained]
        exact hle
  · rintro level ⟨t, ht, rfl⟩
    exact hbound t ht

end Sorted

end Simlock.Lib
