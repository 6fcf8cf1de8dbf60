import Mathlib.Data.List.TakeWhile

/-! Texts joined with a separator and split at it again. -/

namespace Simlock.Lib

variable {α : Type}

theorem mem_intercalate {sep x : α} {ls : List (List α)} (h : x ∈ [sep].intercalate ls) :
    x = sep ∨ ∃ l ∈ ls, x ∈ l := by
  induction ls with
  | nil => simp at h
  | cons l rest ih =>
    cases rest with
    | nil => exact Or.inr ⟨l, List.mem_cons_self, by simpa using h⟩
    | cons l' rest =>
      rw [List.intercalate_cons_cons, List.mem_append, List.mem_append, List.mem_singleton] at h
      rcases h with (h | h) | h
      · exact Or.inr ⟨l, List.mem_cons_self, h⟩
      · exact Or.inl h
      · exact (ih h).imp_right fun ⟨l'', hl, hmem⟩ => ⟨l'', List.mem_cons_of_mem _ hl, hmem⟩

theorem mem_intercalate_of_mem {sep x : α} {l : List α} {ls : List (List α)} (hl : l ∈ ls)
    (hx : x ∈ l) : x ∈ [sep].intercalate ls := by
  induction ls with
  | nil => cases hl
  | cons l' rest ih =>
    cases rest with
    | nil =>
      obtain rfl := List.mem_singleton.1 hl
      simpa using hx
    | cons next rest =>
      rw [List.intercalate_cons_cons, List.mem_append, List.mem_append]
      rcases List.mem_cons.1 hl with rfl | hl
      · exact Or.inl (Or.inl hx)
      · exact Or.inr (ih hl)

/-- A piece has only what the whole has. -/
theorem mem_of_mem_splitOn [BEq α] [LawfulBEq α] {sep x : α} {xs l : List α} (hl : l ∈ xs.splitOn sep) (hx : x ∈ l) :
    x ∈ xs := by
  rw [← (List.intercalate_splitOn sep : [sep].intercalate (xs.splitOn sep) = xs)]
  exact mem_intercalate_of_mem hl hx

/-- The first piece is what stands before the first separator. -/
theorem splitOn_head [BEq α] (sep : α) (xs : List α) :
    (xs.splitOn sep)[0]? = some (xs.takeWhile fun x => !(x == sep)) := by
  induction xs with
  | nil => simp
  | cons x xs ih =>
    rw [List.splitOn_cons_eq_if_modifyHead]
    by_cases h : (x == sep) = true
    · simp [h]
    · rw [if_neg h]
      obtain ⟨piece, pieces, hsplit⟩ := List.exists_cons_of_ne_nil (List.splitOn_ne_nil sep xs)
      rw [hsplit] at ih ⊢
      simp only [List.getElem?_cons_zero, Option.some.injEq] at ih
      simp [h, ih]

theorem takeWhile_append_cons {p : α → Bool} {xs ys : List α} {y : α} (hxs : ∀ x ∈ xs, p x = true)
    (hy : p y = true) : (xs ++ y :: ys).takeWhile p = xs ++ y :: ys.takeWhile p := by
  rw [List.takeWhile_append_of_pos hxs, List.takeWhile_cons_of_pos hy]

end Simlock.Lib
