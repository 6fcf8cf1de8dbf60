import Mathlib.Algebra.Ring.Int.Defs
import Mathlib.Data.List.Basic

/-! Records numbered by their position in a list.

    A component numbers its records as it makes them: a new one goes to the end, and one is replaced
    in place. What is read of a record is a function of it (`f`), so the lemmas say what a read finds
    after a replacement or an addition. -/

namespace Simlock.Lib

section Indexed

variable {α β : Type} {l : List α} {n : Nat} {a a' : α}

theorem getElem?_set_of_getElem? (h : l[n]? = some a) : (l.set n a')[n]? = some a' := by
  obtain ⟨hlt, -⟩ := List.getElem?_eq_some_iff.mp h
  simp [hlt]

theorem getElem?_set_if (h : l[n]? = some a) (a' : α) (m : Nat) :
    (l.set n a')[m]? = if m = n then some a' else l[m]? := by
  obtain ⟨hlt, -⟩ := List.getElem?_eq_some_iff.mp h
  by_cases hm : m = n
  · simp [hm, hlt]
  · simp [hm, List.getElem?_set_ne (Ne.symm hm)]

theorem map_getElem?_set (h : l[n]? = some a) (f : α → β) (m : Nat) :
    (l.set n a')[m]?.map f = if m = n then some (f a') else l[m]?.map f := by
  obtain ⟨hlt, -⟩ := List.getElem?_eq_some_iff.mp h
  by_cases hm : m = n
  · simp [hm, hlt]
  · simp [hm, List.getElem?_set_ne (Ne.symm hm)]

variable (a') in
/-- A replacement that reads the same changes no read. -/
theorem map_getElem?_set_same (h : l[n]? = some a) {f : α → β} (hf : f a' = f a) (m : Nat) :
    (l.set n a')[m]?.map f = l[m]?.map f := by
  rw [map_getElem?_set h, hf]
  split
  · rename_i hm
    rw [hm, h]
    rfl
  · rfl

theorem getElem?_append_one (l : List α) (a : α) (m : Nat) :
    (l ++ [a])[m]? = if m = l.length then some a else l[m]? := by
  by_cases hm : m = l.length
  · simp [hm]
  · rw [if_neg hm, List.getElem?_append]
    split
    · rfl
    · rename_i hlt
      rw [List.getElem?_eq_none (Nat.le_of_not_lt hlt), List.getElem?_eq_none]
      exact Nat.succ_le_of_lt (Nat.sub_pos_of_lt (by omega))

theorem map_getElem?_append_one (l : List α) (a : α) (f : α → β) (m : Nat) :
    (l ++ [a])[m]?.map f = if m = l.length then some (f a) else l[m]?.map f := by
  rw [getElem?_append_one]
  split <;> rfl

variable (a') in
/-- How many records have a property, after one is replaced. -/
theorem countP_set_of_getElem? (h : l[n]? = some a) (q : α → Bool) :
    (l.set n a').countP q = l.countP q - (if q a then 1 else 0) + if q a' then 1 else 0 := by
  obtain ⟨hlt, rfl⟩ := List.getElem?_eq_some_iff.mp h
  exact List.countP_set hlt

/-- A sum over the records, after one is replaced. -/
theorem sum_map_set (h : l[n]? = some a) (f : α → Int) (a' : α) :
    ((l.set n a').map f).sum = (l.map f).sum - f a + f a' := by
  induction l generalizing n with
  | nil => cases h
  | cons b l ih =>
    cases n with
    | zero =>
      obtain rfl : b = a := by simpa using h
      simp
      omega
    | succ n =>
      have hrest := ih (n := n) (by simpa using h)
      simp only [List.set_cons_succ, List.map_cons, List.sum_cons, hrest]
      omega

theorem countP_pos_of_getElem? (h : l[n]? = some a) {q : α → Bool} (hq : q a = true) :
    0 < l.countP q := List.countP_pos_iff.mpr ⟨a, List.mem_of_getElem? h, hq⟩

/-- A property that no two positions have. -/
theorem countP_le_one {q : α → Bool}
    (h : ∀ (i j : Nat) (a b : α), l[i]? = some a → l[j]? = some b → q a = true → q b = true →
      i = j) :
    l.countP q ≤ 1 := by
  induction l with
  | nil => exact Nat.zero_le _
  | cons a l ih =>
    have htail := ih fun i j b c hb hc hqb hqc =>
      Nat.succ.inj (h (i + 1) (j + 1) b c hb hc hqb hqc)
    rw [List.countP_cons]
    split
    · rename_i hqa
      have hnone : l.countP q = 0 := by
        refine List.countP_eq_zero.mpr fun b hb hqb => ?_
        obtain ⟨j, hj⟩ := List.mem_iff_getElem?.mp hb
        cases h 0 (j + 1) a b rfl hj hqa hqb
      omega
    · exact htail

/-- An entry at another position stays when one is taken out. -/
theorem mem_eraseIdx_of_ne {m : Nat} {b : α} (h : l[m]? = some b) (hm : m ≠ n) :
    b ∈ l.eraseIdx n := by
  rcases Nat.lt_or_gt_of_ne hm with hlt | hgt
  · exact List.mem_of_getElem? ((List.getElem?_eraseIdx_of_lt hlt).trans h)
  · obtain ⟨k, rfl⟩ : ∃ k, m = k + 1 := ⟨m - 1, by omega⟩
    exact List.mem_of_getElem? ((List.getElem?_eraseIdx_of_ge (by omega)).trans h)

/-- An entry stays when another one is replaced. -/
theorem mem_set_of_ne {b : α} (h : l[n]? = some a) (hb : b ∈ l) (hne : b ≠ a) : b ∈ l.set n a' := by
  obtain ⟨m, hm⟩ := List.mem_iff_getElem?.mp hb
  refine List.mem_of_getElem? (i := m) ?_
  rw [getElem?_set_if h, if_neg, hm]
  rintro rfl
  exact hne (Option.some.inj (hm.symm.trans h))

/-- Taking an entry out takes one from its count. -/
theorem count_eraseIdx [DecidableEq α] (h : l[n]? = some a) (b : α) :
    (l.eraseIdx n).count b + (if b = a then 1 else 0) = l.count b := by
  induction l generalizing n with
  | nil => cases h
  | cons c l ih =>
    cases n with
    | zero =>
      obtain rfl : c = a := by simpa using h
      rw [List.eraseIdx_cons_zero, List.count_cons]
      by_cases hb : b = c
      · simp [hb]
      · simp [hb, Ne.symm hb]
    | succ n =>
      have hrest := ih (n := n) (by simpa using h)
      rw [List.eraseIdx_cons_succ, List.count_cons, List.count_cons]
      omega

/-- Under keys of their own, taking an entry out takes out its key. -/
theorem map_eraseIdx_of_nodup [DecidableEq β] {f : α → β} (hnodup : (l.map f).Nodup)
    (h : l[n]? = some a) : (l.eraseIdx n).map f = (l.map f).filter (· ≠ f a) := by
  induction l generalizing n with
  | nil => cases h
  | cons b l ih =>
    obtain ⟨hnot, hrest⟩ := List.nodup_cons.mp hnodup
    cases n with
    | zero =>
      obtain rfl : b = a := by simpa using h
      have hall : ∀ k ∈ l.map f, (decide (k ≠ f b)) = true := fun k hk =>
        decide_eq_true fun heq => hnot (heq ▸ hk)
      rw [List.eraseIdx_cons_zero, List.map_cons, List.filter_cons_of_neg (by simp),
        List.filter_eq_self.mpr hall]
    | succ n =>
      have ha : l[n]? = some a := by simpa using h
      have hne : f b ≠ f a := fun heq =>
        hnot (heq ▸ List.mem_map_of_mem (List.mem_of_getElem? ha))
      rw [List.eraseIdx_cons_succ, List.map_cons, ih hrest ha, List.map_cons,
        List.filter_cons_of_pos (by simpa using hne)]

/-! ### Order -/

/-- What precedes a member of a list that grows at its end preceded it before. -/
theorem pair_sublist_of_prefix {l l' : List α} {x y : α} (hstart : l <+: l')
    (hnodup : l'.Nodup) (hy : y ∈ l) (h : [x, y].Sublist l') : [x, y].Sublist l := by
  obtain ⟨ext, rfl⟩ := hstart
  obtain ⟨front, back, heq, hfront, hback⟩ := List.sublist_append_iff.mp h
  have hdisjoint := (List.nodup_append.mp hnodup).2.2
  have hnil : back = [] := by
    by_contra hne
    have hlast : back.getLast hne = y := by
      have := List.getLast_append_of_ne_nil (l := front) (by simp [hne]) hne
      simp only [← heq] at this
      simpa using this.symm
    exact hdisjoint y hy y (hback.subset (hlast ▸ List.getLast_mem hne)) rfl
  rw [hnil, List.append_nil] at heq
  exact heq ▸ hfront

end Indexed

end Simlock.Lib
