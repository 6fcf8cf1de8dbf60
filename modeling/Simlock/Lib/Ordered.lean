import Mathlib.Data.List.Sort

/-! Lists in the order of a key.

    A table that is read in the order of a key no two of its rows share has one such reading: what
    is left of the rows is read in the order it had, and the rows before one of them are a prefix. -/

namespace Simlock.Lib

variable {α κ : Type} [LinearOrder κ] (key : α → κ)

/-- The list in the order of the key. -/
def ordered (l : List α) : List α := l.insertionSort fun a b => key a ≤ key b

theorem ordered_perm (l : List α) : (ordered key l).Perm l := List.perm_insertionSort _ l

@[simp] theorem mem_ordered {l : List α} {x : α} : x ∈ ordered key l ↔ x ∈ l :=
  (ordered_perm key l).mem_iff

@[simp] theorem length_ordered (l : List α) : (ordered key l).length = l.length :=
  (ordered_perm key l).length_eq

/-- In the order of the key, and no two of one key. -/
abbrev Ascending (l : List α) : Prop := l.Pairwise fun a b => key a < key b

variable {key}

theorem ascending_ordered {l : List α} (h : (l.map key).Nodup) : Ascending key (ordered key l) := by
  have hsorted : (ordered key l).Pairwise fun a b => key a ≤ key b :=
    List.pairwise_insertionSort (fun a b => key a ≤ key b) l
  have hnodup : ((ordered key l).map key).Nodup := ((ordered_perm key l).map key).nodup_iff.2 h
  refine (hsorted.and (List.pairwise_map.1 hnodup)).imp fun h => ?_
  exact lt_of_le_of_ne h.1 h.2

/-- A list has one order. -/
theorem eq_of_ascending {l l' : List α} (hl : Ascending key l) (hl' : Ascending key l')
    (h : l.Perm l') : l = l' :=
  h.eq_of_pairwise (fun _ _ _ _ hab hba => absurd (hab.trans hba) (lt_irrefl _)) hl hl'

theorem ordered_filter {l : List α} (h : (l.map key).Nodup) (p : α → Bool) :
    ordered key (l.filter p) = (ordered key l).filter p := by
  refine eq_of_ascending (ascending_ordered ((List.filter_sublist.map key).nodup h))
    ((ascending_ordered h).filter p) ?_
  exact (ordered_perm key _).trans ((ordered_perm key l).symm.filter p)

/-- Without the keys of its first elements a list is what comes after them. -/
theorem filter_not_mem_take {β : Type} [DecidableEq β] {f : α → β} : ∀ {l : List α},
    (l.map f).Nodup → ∀ n : ℕ, (l.filter fun x => f x ∉ (l.take n).map f) = l.drop n
  | [], _, n => by simp
  | x :: l, h, 0 => by simp
  | x :: l, h, n + 1 => by
    rw [List.map_cons, List.nodup_cons] at h
    have ih := filter_not_mem_take h.2 n
    rw [List.take_succ_cons, List.drop_succ_cons, ← ih, List.filter_cons_of_neg (by simp)]
    refine List.filter_congr fun y hy => ?_
    have hne : f y ≠ f x := fun heq => h.1 (heq ▸ List.mem_map_of_mem hy)
    simp [hne]

/-- What stands before an element in the order is what is less. -/
theorem filter_lt_of_split {front back : List α} {x : α}
    (h : Ascending key (front ++ x :: back)) :
    ((front ++ x :: back).filter fun y => key y < key x) = front := by
  rw [Ascending, List.pairwise_append, List.pairwise_cons] at h
  obtain ⟨-, ⟨hback, -⟩, hfront⟩ := h
  rw [List.filter_append, List.filter_cons_of_neg (by simp)]
  have hkeep : (front.filter fun y => key y < key x) = front :=
    List.filter_eq_self.2 fun y hy => by simpa using hfront y hy x List.mem_cons_self
  have hdrop : (back.filter fun y => key y < key x) = [] :=
    List.filter_eq_nil_iff.2 fun y hy => by simpa using (hback y hy).le
  rw [hkeep, hdrop, List.append_nil]

end Simlock.Lib
