import Mathlib.Order.Lattice
import Mathlib.Data.List.Lex
import Mathlib.Order.Compare

/-! Two lists compared place by place, as versions are: a missing place is a zero, and the first
    place that differs decides.

    The comparison of two places may have no answer, and then the whole has none. Where it is that
    of a linear order the whole is too: that of the lists brought to one length, in the lexicographic
    order. -/

namespace Simlock.Lib

variable {α : Type}

/-- The second counts where the first found no difference. -/
def orElseNext : Option Ordering → Option Ordering → Option Ordering
  | some .eq, next => next
  | decided, _ => decided

/-- The first `n` places of two lists, compared. -/
def places (cmp : α → α → Option Ordering) (zero : α) : Nat → List α → List α → Option Ordering
  | 0, _, _ => some .eq
  | n + 1, xs, ys =>
    orElseNext (cmp (xs.headD zero) (ys.headD zero)) (places cmp zero n xs.tail ys.tail)

/-- The first `n` places of a list: cut there, or filled up with zeros. -/
def fit (zero : α) : Nat → List α → List α
  | 0, _ => []
  | n + 1, xs => xs.headD zero :: fit zero n xs.tail

@[simp] theorem orElseNext_eq (next : Option Ordering) : orElseNext (some .eq) next = next := rfl

theorem orElseNext_eq_right (found : Option Ordering) : orElseNext found (some .eq) = found := by
  match found with
  | none | some .lt | some .eq | some .gt => rfl

theorem orElseNext_assoc (a b c : Option Ordering) :
    orElseNext (orElseNext a b) c = orElseNext a (orElseNext b c) := by
  match a with
  | none | some .lt | some .eq | some .gt => rfl

/-- What the whole has found where the first found a difference, or none. -/
theorem orElseNext_eq_gt_iff {found next : Option Ordering} :
    orElseNext found next = some .gt ↔
      if found ≠ some .eq then found = some .gt else next = some .gt := by
  match found with
  | none | some .lt | some .gt => simp [orElseNext]
  | some .eq => simp

theorem orElseNext_lt (next : Option Ordering) : orElseNext (some .lt) next = some .lt := rfl

theorem orElseNext_gt (next : Option Ordering) : orElseNext (some .gt) next = some .gt := rfl

/-- Zeros at the end are what is missing anyway. -/
theorem fit_append_zeros (zero : α) (n k : Nat) (xs : List α) :
    fit zero n (xs ++ List.replicate k zero) = fit zero n xs := by
  induction n generalizing xs k with
  | zero => rfl
  | succ n ih =>
    cases xs with
    | cons x xs => simp [fit, ih]
    | nil =>
      cases k with
      | zero => rfl
      | succ k =>
        have htail := ih k []
        simp only [List.nil_append] at htail
        simp [fit, List.replicate_succ, htail]

/-! ### Under a linear order -/

section Linear
variable [LinearOrder α]

theorem compares_cons {x y : α} {xs ys : List α} {next : Ordering}
    (h : next.Compares xs ys) :
    ∃ o, orElseNext (some (compare x y)) (some next) = some o ∧
      o.Compares (x :: xs) (y :: ys) := by
  rcases lt_trichotomy x y with hxy | rfl | hxy
  · exact ⟨.lt, by rw [compare_lt_iff_lt.2 hxy, orElseNext_lt], List.Lex.rel hxy⟩
  · refine ⟨next, by rw [compare_eq_iff_eq.2 rfl, orElseNext_eq], ?_⟩
    cases next with
    | lt => exact List.Lex.cons h
    | eq => exact congrArg (x :: ·) h
    | gt => exact List.Lex.cons h
  · exact ⟨.gt, by rw [compare_gt_iff_gt.2 hxy, orElseNext_gt], List.Lex.rel hxy⟩

/-- In a linear order the places compare as the lists of one length do. -/
theorem places_compares (zero : α) (n : Nat) (xs ys : List α) :
    ∃ o, places (fun x y => some (compare x y)) zero n xs ys = some o ∧
      o.Compares (fit zero n xs) (fit zero n ys) := by
  induction n generalizing xs ys with
  | zero => exact ⟨.eq, rfl, rfl⟩
  | succ n ih =>
    obtain ⟨next, hplaces, hnext⟩ := ih xs.tail ys.tail
    obtain ⟨o, ho, hcompares⟩ := compares_cons (x := xs.headD zero) (y := ys.headD zero) hnext
    exact ⟨o, by rw [places, hplaces, ho], hcompares⟩

end Linear

/-! ### Other comparisons -/

/-- Two comparisons that agree at every place find the same. -/
theorem places_congr {β : Type} {c : α → α → Option Ordering} {d : β → β → Option Ordering}
    {zero : α} {f : β → α} {w : β} (hzero : f w = zero) (n : Nat) (xs ys : List β)
    (h : ∀ x y, (x ∈ xs ∨ x = w) → (y ∈ ys ∨ y = w) → c (f x) (f y) = d x y) :
    places c zero n (xs.map f) (ys.map f) = places d w n xs ys := by
  induction n generalizing xs ys with
  | zero => rfl
  | succ n ih =>
    have hhead : ∀ l : List β, (l.map f).headD zero = f (l.headD w) := by
      intro l
      cases l with
      | nil => exact hzero.symm
      | cons => rfl
    have hmem : ∀ l : List β, l.headD w ∈ l ∨ l.headD w = w := by
      intro l
      cases l with
      | nil => exact Or.inr rfl
      | cons => exact Or.inl List.mem_cons_self
    rw [places, places, hhead, hhead, h _ _ (hmem xs) (hmem ys), ← List.map_tail, ← List.map_tail,
      ih xs.tail ys.tail fun x y hx hy =>
        h x y (hx.imp_left List.mem_of_mem_tail) (hy.imp_left List.mem_of_mem_tail)]

/-- Places that both lists lack make no difference. -/
theorem places_of_le {cmp : α → α → Option Ordering} {zero : α} (hzero : cmp zero zero = some .eq)
    {n m : Nat} (hnm : n ≤ m) {xs ys : List α} (hx : xs.length ≤ n) (hy : ys.length ≤ n) :
    places cmp zero m xs ys = places cmp zero n xs ys := by
  induction m generalizing n xs ys with
  | zero =>
    have hn : n = 0 := by omega
    rw [hn]
  | succ m ih =>
    cases n with
    | zero =>
      obtain rfl : xs = [] := List.length_eq_zero_iff.1 (by omega)
      obtain rfl : ys = [] := List.length_eq_zero_iff.1 (by omega)
      have hrest : places cmp zero m [] [] = places cmp zero 0 [] [] :=
        ih (Nat.zero_le _) (Nat.le_refl 0) (Nat.le_refl 0)
      calc places cmp zero (m + 1) [] []
          = orElseNext (cmp zero zero) (places cmp zero m [] []) := rfl
        _ = places cmp zero 0 [] [] := by rw [hzero, orElseNext_eq, hrest]
    | succ n =>
      have htail : ∀ l : List α, l.length ≤ n + 1 → l.tail.length ≤ n := fun l hl => by
        rw [List.length_tail]
        omega
      rw [places, places, ih (by omega) (htail xs hx) (htail ys hy)]

end Simlock.Lib
