import Mathlib.Data.List.Basic

/-! Runs of a deterministic transition function.

    A component is a total `step : σ → α → σ`: all its nondeterminism (which task moves next, what a
    driver answers, what time it is) sits in the action. A run is then a left fold over a list of
    actions, "any interleaving" is "any list", and a property of every reachable state is an
    invariant: true at the start, kept by one step, hence true after every fold.

    `AllSteps ok` restricts the runs to those whose every step meets `ok` in the state it is taken. -/

namespace Simlock.Lib

variable {σ α : Type}

/-- The state after the actions `acts`, taken in order from `s`. -/
def run (step : σ → α → σ) (s : σ) (acts : List α) : σ := acts.foldl step s

@[simp] theorem run_nil (step : σ → α → σ) (s : σ) : run step s [] = s := rfl

@[simp] theorem run_cons (step : σ → α → σ) (s : σ) (a : α) (acts : List α) :
    run step s (a :: acts) = run step (step s a) acts := rfl

theorem run_append (step : σ → α → σ) (s : σ) (as bs : List α) :
    run step s (as ++ bs) = run step (run step s as) bs := List.foldl_append

/-- Every action of the run meets `ok` in the state it is taken in. -/
def AllSteps (step : σ → α → σ) (ok : σ → α → Prop) : σ → List α → Prop
  | _, [] => True
  | s, a :: acts => ok s a ∧ AllSteps step ok (step s a) acts

instance AllSteps.decidable (step : σ → α → σ) (ok : σ → α → Prop) [∀ s a, Decidable (ok s a)] :
    ∀ (acts : List α) (s : σ), Decidable (AllSteps step ok s acts)
  | [], _ => .isTrue trivial
  | a :: acts, s => @instDecidableAnd _ _ _ (AllSteps.decidable step ok acts (step s a))

theorem AllSteps.mono {step : σ → α → σ} {ok ok' : σ → α → Prop} (h : ∀ s a, ok s a → ok' s a) :
    ∀ {acts : List α} {s : σ}, AllSteps step ok s acts → AllSteps step ok' s acts
  | [], _, _ => trivial
  | _ :: _, _, hall => ⟨h _ _ hall.1, hall.2.mono h⟩

theorem AllSteps.and {step : σ → α → σ} {ok ok' : σ → α → Prop} :
    ∀ {acts : List α} {s : σ}, AllSteps step ok s acts → AllSteps step ok' s acts →
      AllSteps step (fun s a => ok s a ∧ ok' s a) s acts
  | [], _, _, _ => trivial
  | _ :: _, _, h, h' => ⟨⟨h.1, h'.1⟩, h.2.and h'.2⟩

theorem AllSteps.append {step : σ → α → σ} {ok : σ → α → Prop} {bs : List α} :
    ∀ {as : List α} {s : σ}, AllSteps step ok s as → AllSteps step ok (run step s as) bs →
      AllSteps step ok s (as ++ bs)
  | [], _, _, hbs => hbs
  | _ :: _, _, has, hbs => ⟨has.1, has.2.append hbs⟩

/-- The invariant rule for conditioned runs. -/
theorem run_invariant_of_allSteps {step : σ → α → σ} {ok : σ → α → Prop} {I : σ → Prop}
    (hstep : ∀ s a, ok s a → I s → I (step s a)) :
    ∀ (acts : List α) (s : σ), I s → AllSteps step ok s acts → I (run step s acts)
  | [], _, hI, _ => hI
  | a :: acts, s, hI, hall =>
    run_invariant_of_allSteps hstep acts (step s a) (hstep s a hall.1 hI) hall.2

/-- What the invariant gives of each step holds of every step of a conditioned run. -/
theorem AllSteps.of_invariant {step : σ → α → σ} {ok P : σ → α → Prop} {I : σ → Prop}
    (hstep : ∀ s a, ok s a → I s → I (step s a)) (hP : ∀ s a, ok s a → I s → P s a) :
    ∀ (acts : List α) (s : σ), I s → AllSteps step ok s acts → AllSteps step P s acts
  | [], _, _, _ => trivial
  | a :: acts, s, hI, hall =>
    ⟨hP s a hall.1 hI, AllSteps.of_invariant hstep hP acts (step s a) (hstep s a hall.1 hI) hall.2⟩

theorem allSteps_true (step : σ → α → σ) :
    ∀ (acts : List α) (s : σ), AllSteps step (fun _ _ => True) s acts
  | [], _ => trivial
  | a :: acts, s => ⟨trivial, allSteps_true step acts (step s a)⟩

/-- The invariant rule: what one step keeps, every run keeps. -/
theorem run_invariant {step : σ → α → σ} {I : σ → Prop}
    (hstep : ∀ s a, I s → I (step s a)) (acts : List α) (s : σ) (hI : I s) :
    I (run step s acts) := by
  have hkeep : ∀ s a, (fun (_ : σ) (_ : α) => True) s a → I s → I (step s a) :=
    fun s a _ h => hstep s a h
  exact run_invariant_of_allSteps hkeep acts s hI (allSteps_true step acts s)

/-- Where a step keeps the invariant exactly when it meets `ok`, a run meets `ok` throughout exactly
    when the invariant holds throughout. -/
theorem allSteps_iff_invariant {step : σ → α → σ} {ok : σ → α → Prop} {I : σ → Prop}
    (hstep : ∀ s a, I s → (I (step s a) ↔ ok s a)) (acts : List α) (s : σ) (hI : I s) :
    AllSteps step ok s acts ↔ ∀ pre, pre <+: acts → I (run step s pre) := by
  induction acts generalizing s with
  | nil =>
    refine ⟨fun _ pre hpre => ?_, fun _ => trivial⟩
    rw [List.prefix_nil.mp hpre]
    exact hI
  | cons a acts ih =>
    constructor
    · rintro ⟨hok, hall⟩ pre hpre
      rcases List.prefix_cons_iff.mp hpre with rfl | ⟨pre', rfl, hpre'⟩
      · exact hI
      · exact (ih (step s a) ((hstep s a hI).mpr hok)).mp hall pre' hpre'
    · intro hpres
      have hnext : I (step s a) := hpres [a] ⟨acts, rfl⟩
      refine ⟨(hstep s a hI).mp hnext, (ih (step s a) hnext).mpr fun pre hpre => ?_⟩
      exact hpres (a :: pre) ((List.prefix_cons_inj a).mpr hpre)

end Simlock.Lib
