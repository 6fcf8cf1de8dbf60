import Mathlib.Data.List.Basic

/-! The first few elements of one sort taken out of a list.

    `withoutFirst p k` is the list without its first `k` elements that satisfy `p`, which is what a
    bounded list does that evicts its oldest evictable entries. Whatever does not satisfy `p` stays,
    in its order, and each element taken out satisfies it. -/

namespace Simlock.Lib

variable {α : Type} {p : α → Bool}

/-- The list without its first `k` elements that satisfy `p`. -/
def withoutFirst (p : α → Bool) : Nat → List α → List α
  | 0, l => l
  | _ + 1, [] => []
  | k + 1, a :: rest => if p a then withoutFirst p k rest else a :: withoutFirst p (k + 1) rest

@[simp] theorem withoutFirst_zero (l : List α) : withoutFirst p 0 l = l := by
  cases l <;> rfl

@[simp] theorem withoutFirst_nil (k : Nat) : withoutFirst p k [] = [] := by cases k <;> rfl

/-- One element more is the first one of those left. -/
theorem withoutFirst_succ (k : Nat) (l : List α) :
    withoutFirst p (k + 1) l = withoutFirst p k (l.eraseP p) := by
  induction l generalizing k with
  | nil => simp
  | cons a rest ih =>
    rw [withoutFirst]
    cases ha : p a with
    | true => rw [if_pos rfl, List.eraseP_cons_of_pos ha]
    | false =>
      rw [if_neg (by simp), List.eraseP_cons_of_neg (by simp [ha]), ih k]
      cases k with
      | zero => simp
      | succ k => rw [withoutFirst, ha, if_neg (by simp)]

/-- What `p` does not hold of stays, in its order. -/
theorem filter_not_withoutFirst (k : Nat) (l : List α) :
    (withoutFirst p k l).filter (fun a => !p a) = l.filter (fun a => !p a) := by
  induction l generalizing k with
  | nil => simp
  | cons a rest ih =>
    cases k with
    | zero => simp
    | succ k =>
      rw [withoutFirst]
      cases ha : p a with
      | true => simp [ha, ih k]
      | false => simp [ha, ih (k + 1)]

/-- Nothing is left to take out. -/
theorem withoutFirst_of_none {l : List α} (h : ∀ a ∈ l, p a = false) (k : Nat) :
    withoutFirst p k l = l := by
  induction l generalizing k with
  | nil => simp
  | cons a rest ih =>
    cases k with
    | zero => simp
    | succ k =>
      rw [withoutFirst, h a (.head _), if_neg (by simp),
        ih (fun b hb => h b (.tail _ hb)) (k + 1)]

theorem length_withoutFirst (k : Nat) (l : List α) :
    (withoutFirst p k l).length + min k (l.countP p) = l.length := by
  induction l generalizing k with
  | nil => simp
  | cons a rest ih =>
    cases k with
    | zero => simp
    | succ k =>
      rw [withoutFirst]
      cases ha : p a with
      | true =>
        have := ih k
        simp only [if_true, List.countP_cons_of_pos ha, List.length_cons]
        omega
      | false =>
        have := ih (k + 1)
        simp only [Bool.false_eq_true, if_false, List.length_cons,
          List.countP_cons_of_neg (show ¬ p a = true by simp [ha])]
        omega

end Simlock.Lib
