import Mathlib.Data.List.Basic

/-! Postconditions of programs that may fail.

    `Yields bad post x` says of the outcome of `x` that a result meets `post` and an error is one of
    `bad`. It composes along `>>=` and along loops, so a long program is proved one statement at a
    time. -/

namespace Simlock.Lib

variable {ε α β σ : Type}

/-- A result meets `post`, an error meets `bad`. -/
def Yields (bad : ε → Prop) (post : α → Prop) : Except ε α → Prop
  | .ok a => post a
  | .error e => bad e

namespace Yields

variable {bad : ε → Prop}

theorem weaken {bad' : ε → Prop} {post : α → Prop} {x : Except ε α} (h : Yields bad post x)
    (hb : ∀ e, bad e → bad' e) : Yields bad' post x := by
  cases x with
  | ok a => exact h
  | error e => exact hb e h

theorem mono {post post' : α → Prop} {x : Except ε α} (h : Yields bad post x)
    (hp : ∀ a, post a → post' a) : Yields bad post' x := by
  cases x with
  | ok a => exact hp a h
  | error e => exact h

theorem and {post post' : α → Prop} {x : Except ε α} (h : Yields bad post x)
    (h' : Yields bad post' x) : Yields bad (fun a => post a ∧ post' a) x := by
  cases x with
  | ok a => exact ⟨h, h'⟩
  | error e => exact h

theorem bind {post : α → Prop} {post' : β → Prop} {x : Except ε α} {f : α → Except ε β}
    (h : Yields bad post x) (hf : ∀ a, post a → Yields bad post' (f a)) :
    Yields bad post' (x >>= f) := by
  cases x with
  | ok a => exact hf a h
  | error e => exact h

/-- A loop, with what holds after each prefix of its list. -/
theorem foldlM (R : List α → σ → Prop) {step : σ → α → Except ε σ} (xs : List α) (s : σ)
    (hnil : R [] s) (hstep : ∀ pre x post s, xs = pre ++ x :: post → R pre s →
      Yields bad (R (pre ++ [x])) (step s x)) : Yields bad (R xs) (xs.foldlM step s) := by
  suffices hgen : ∀ post pre s, xs = pre ++ post → R pre s →
      Yields bad (R (pre ++ post)) (post.foldlM step s) from hgen xs [] s rfl hnil
  intro post
  induction post with
  | nil =>
    intro pre s _ h
    rw [List.append_nil]
    exact h
  | cons x post ih =>
    intro pre s hxs h
    rw [List.foldlM_cons]
    refine (hstep pre x post s hxs h).bind fun s' h' => ?_
    have hrest := ih (pre ++ [x]) s' (by rw [hxs, List.append_assoc]; rfl) h'
    rwa [List.append_assoc] at hrest

end Yields

/-- A loop of inserts into one table (`put` is the rest of the state around it), where no insert
    meets a key that is there. -/
theorem foldlM_insert {κ : Type} {insert : σ → α → Except ε σ} (put : List α → σ) (key : α → κ)
    (rows l : List α)
    (hinsert : ∀ r ∈ rows, ∀ l, key r ∉ l.map key → insert (put l) r = .ok (put (l ++ [r])))
    (hnew : ∀ r ∈ rows, key r ∉ l.map key) (hnodup : (rows.map key).Nodup) :
    rows.foldlM insert (put l) = .ok (put (l ++ rows)) := by
  induction rows generalizing l with
  | nil =>
    rw [List.append_nil]
    rfl
  | cons r rows ih =>
    rw [List.map_cons, List.nodup_cons] at hnodup
    rw [List.foldlM_cons, hinsert r List.mem_cons_self l (hnew r List.mem_cons_self)]
    have hrest : ∀ x ∈ rows, key x ∉ (l ++ [r]).map key := by
      intro x hx hmem
      rw [List.map_append, List.mem_append, List.map_singleton, List.mem_singleton] at hmem
      rcases hmem with hmem | hmem
      · exact hnew x (List.mem_cons_of_mem _ hx) hmem
      · exact hnodup.1 (hmem ▸ List.mem_map_of_mem hx)
    have hloop := ih (l ++ [r]) (fun x hx => hinsert x (List.mem_cons_of_mem _ hx)) hrest hnodup.2
    rw [List.append_assoc] at hloop
    exact hloop

/-- A loop of readers over written rows, each of which reads back. -/
theorem mapM_map_eq_ok {γ : Type} {read : β → Except ε γ} {write : α → β} {g : α → γ}
    (xs : List α) (h : ∀ x ∈ xs, read (write x) = .ok (g x)) :
    (xs.map write).mapM read = .ok (xs.map g) := by
  induction xs with
  | nil => rfl
  | cons x xs ih =>
    rw [List.map_cons, List.mapM_cons, h x List.mem_cons_self,
      ih fun y hy => h y (List.mem_cons_of_mem _ hy)]
    rfl

end Simlock.Lib
