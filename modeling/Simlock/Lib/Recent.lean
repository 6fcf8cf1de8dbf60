import Mathlib.Data.Finset.Card
import Mathlib.Data.List.Basic
import Mathlib.Data.List.Nodup

/-! A bounded memory of the latest elements.

    `record n l x` puts a new element last and lets the first go when there are more than `n`. An
    element that is there keeps its place. What is new at most `n - 1` other elements can follow
    (`Recalls`), so it stays while fewer than `n` others are recorded; `foldl_record` says what a
    series of new elements leaves, the last `n` of all. -/

namespace Simlock.Lib

section Recent

variable {α : Type} [DecidableEq α] {n : Nat} {l : List α} {x y : α}

def record (n : Nat) (l : List α) (x : α) : List α :=
  let l := if x ∈ l then l else l ++ [x]
  if l.length ≤ n then l else l.tail

theorem record_of_mem (hl : l.length ≤ n) (hx : x ∈ l) : record n l x = l := by
  simp only [record, if_pos hx, if_pos hl]

theorem record_of_not_mem (hl : l.length ≤ n) (hx : x ∉ l) :
    record n l x = (l ++ [x]).drop (l.length + 1 - n) := by
  simp only [record, if_neg hx, List.length_append, List.length_singleton]
  split
  · rename_i hfits
    rw [Nat.sub_eq_zero_of_le hfits, List.drop_zero]
  · have hone : l.length + 1 - n = 1 := by omega
    rw [hone, List.drop_one]

theorem length_record (hl : l.length ≤ n) (x : α) : (record n l x).length ≤ n := by
  by_cases hx : x ∈ l
  · rw [record_of_mem hl hx]
    exact hl
  · rw [record_of_not_mem hl hx, List.length_drop, List.length_append, List.length_singleton]
    omega

theorem nodup_record (hl : l.Nodup) (hlen : l.length ≤ n) (x : α) : (record n l x).Nodup := by
  by_cases hx : x ∈ l
  · rw [record_of_mem hlen hx]
    exact hl
  · rw [record_of_not_mem hlen hx]
    exact (List.concat_eq_append ▸ hl.concat hx : (l ++ [x]).Nodup).sublist (List.drop_sublist _ _)

/-! ### What stays -/

/-- `x` is recorded, and everything recorded after it is in `later`. -/
structure Recalls (n : Nat) (x : α) (later : Finset α) (l : List α) : Prop where
  nodup : l.Nodup
  length : l.length ≤ n
  found : ∃ front back, l = front ++ x :: back ∧ ∀ y ∈ back, y ∈ later

omit [DecidableEq α] in
theorem Recalls.mem {later : Finset α} (h : Recalls n x later l) : x ∈ l := by
  obtain ⟨front, back, rfl, -⟩ := h.found
  simp

omit [DecidableEq α] in
theorem Recalls.mono {later later' : Finset α} (h : Recalls n x later l) (hsub : later ⊆ later') :
    Recalls n x later' l := by
  obtain ⟨front, back, hl, hback⟩ := h.found
  exact ⟨h.nodup, h.length, front, back, hl, fun y hy => hsub (hback y hy)⟩

theorem recalls_record (hl : l.Nodup) (hlen : l.length ≤ n) (hn : 0 < n)
    (hx : x ∉ l ∨ l.getLast? = some x) : Recalls n x ∅ (record n l x) := by
  refine ⟨nodup_record hl hlen x, length_record hlen x, ?_⟩
  rcases hx with hx | hx
  · rw [record_of_not_mem hlen hx]
    refine ⟨l.drop (l.length + 1 - n), [], ?_, nofun⟩
    exact List.drop_append_of_le_length (by omega)
  · rw [record_of_mem hlen (List.mem_of_getLast? hx)]
    obtain ⟨front, rfl⟩ := List.getLast?_eq_some_iff.mp hx
    exact ⟨front, [], rfl, nofun⟩

/-- Another element leaves `x` recorded, as long as fewer than `n` others came since. -/
theorem Recalls.record {later : Finset α} (h : Recalls n x later l)
    (hfew : (insert y later).card < n) : Recalls n x (insert y later) (record n l y) := by
  refine ⟨nodup_record h.nodup h.length y, length_record h.length y, ?_⟩
  obtain ⟨hnodup, hlength, front, back, rfl, hback⟩ := h
  have hback' : ∀ z ∈ back, z ∈ insert y later := fun z hz => Finset.mem_insert_of_mem (hback z hz)
  by_cases hmem : y ∈ front ++ x :: back
  · rw [record_of_mem hlength hmem]
    exact ⟨front, back, rfl, hback'⟩
  · have hnew : ∀ z ∈ back ++ [y], z ∈ insert y later := by
      intro z hz
      rcases List.mem_append.mp hz with hz | hz
      · exact hback' z hz
      · exact List.mem_singleton.mp hz ▸ Finset.mem_insert_self y later
    rw [record_of_not_mem hlength hmem]
    by_cases hfits : (front ++ x :: back).length + 1 ≤ n
    · rw [Nat.sub_eq_zero_of_le hfits]
      exact ⟨front, back ++ [y], by simp, hnew⟩
    · have hone : (front ++ x :: back).length + 1 - n = 1 := by omega
      rw [hone]
      cases front with
      | nil =>
        -- then all `n` elements after `x` are in `later`
        have hdistinct : (back ++ [y]).Nodup := by
          have hall : ([] ++ x :: back ++ [y]).Nodup := List.concat_eq_append ▸ hnodup.concat hmem
          exact (List.nodup_cons.mp hall).2
        have hcard : (back ++ [y]).length ≤ (insert y later).card := by
          rw [← List.toFinset_card_of_nodup hdistinct]
          exact Finset.card_le_card fun z hz => hnew z (List.mem_toFinset.mp hz)
        simp only [List.nil_append, List.length_cons, List.length_append] at *
        omega
      | cons z front => exact ⟨front, back ++ [y], by simp, hnew⟩

theorem Recalls.erase {later : Finset α} (h : Recalls n x later l) (hy : y ≠ x) :
    Recalls n x later (l.erase y) := by
  refine ⟨h.nodup.erase y, (List.erase_sublist.length_le).trans h.length, ?_⟩
  obtain ⟨front, back, rfl, hback⟩ := h.found
  rw [List.erase_append]
  split
  · exact ⟨front.erase y, back, rfl, hback⟩
  · refine ⟨front, back.erase y, ?_, fun z hz => hback z (List.mem_of_mem_erase hz)⟩
    rw [List.erase_cons_tail (by simpa using Ne.symm hy)]

/-! ### What goes -/

/-- New elements leave the last `n` of all. -/
theorem foldl_record (xs : List α) : ∀ {l : List α}, l.length ≤ n → (l ++ xs).Nodup →
    xs.foldl (record n) l = (l ++ xs).drop ((l ++ xs).length - n) := by
  induction xs with
  | nil =>
    intro l hl _
    have hnone : (l ++ []).length - n = 0 := by simpa using Nat.sub_eq_zero_of_le hl
    rw [hnone]
    simp
  | cons x xs ih =>
    intro l hl hnodup
    have hx : x ∉ l := by
      intro hmem
      exact (List.nodup_append.mp hnodup).2.2 x hmem x List.mem_cons_self rfl
    have happ : l ++ x :: xs = l ++ [x] ++ xs := by simp
    rw [happ] at hnodup ⊢
    have hlen : l.length + 1 - n ≤ (l ++ [x]).length := by
      simp only [List.length_append, List.length_singleton]
      omega
    have hleft : (l ++ [x]).drop (l.length + 1 - n) ++ xs =
        (l ++ [x] ++ xs).drop (l.length + 1 - n) := (List.drop_append_of_le_length hlen).symm
    rw [List.foldl_cons, record_of_not_mem hl hx, ih ?_ ?_, hleft, List.drop_drop]
    · congr 1
      simp only [List.length_drop, List.length_append, List.length_singleton]
      omega
    · rw [List.length_drop, List.length_append, List.length_singleton]
      omega
    · rw [hleft]
      exact hnodup.sublist (List.drop_sublist _ _)

/-- Enough new elements push `x` out. -/
theorem not_mem_foldl_record {front back xs : List α} (hl : (front ++ x :: back).length ≤ n)
    (hnodup : (front ++ x :: back ++ xs).Nodup) (hmany : n ≤ back.length + xs.length) :
    x ∉ xs.foldl (record n) (front ++ x :: back) := by
  rw [foldl_record xs hl hnodup]
  have hsplit : front ++ x :: back ++ xs = (front ++ [x]) ++ (back ++ xs) := by simp
  rw [hsplit] at hnodup ⊢
  have hpast : (front ++ [x]).length ≤ (front ++ [x] ++ (back ++ xs)).length - n := by
    simp only [List.length_append, List.length_singleton]
    omega
  rw [List.drop_append, List.drop_of_length_le hpast, List.nil_append]
  intro hmem
  have hx := List.mem_of_mem_drop hmem
  exact (List.nodup_append.mp hnodup).2.2 x (by simp) x hx rfl

end Recent

end Simlock.Lib
