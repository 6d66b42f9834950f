/-
  RUNS of a step function, over arbitrary states and actions.

  `run step s actions` is the state after a list of actions.  A condition on a run is a condition on
  each of its steps, `All step C s actions`: `C` sees the state a step starts from and its action.

  A HISTORY is the list of what happened so far.  `Every P history` holds if `P` holds of each entry and
  what came before it; it grows with the history (`every_concat`).
-/
import Mathlib

namespace Bondry

variable {σ α : Type}

/-- The state after the actions. -/
def run (step : σ → α → σ) (s : σ) (actions : List α) : σ := actions.foldl step s

/-- Every step of the run meets `C`. -/
def All (step : σ → α → σ) (C : σ → α → Prop) : σ → List α → Prop
  | _, [] => True
  | s, a :: rest => C s a ∧ All step C (step s a) rest

instance All.decidable {step : σ → α → σ} {C : σ → α → Prop} [∀ s a, Decidable (C s a)] :
    ∀ (s : σ) (actions : List α), Decidable (All step C s actions)
  | _, [] => inferInstanceAs (Decidable True)
  | s, a :: rest => @instDecidableAnd _ _ _ (All.decidable (step s a) rest)

section

variable {step : σ → α → σ} {C D : σ → α → Prop} {s : σ}

@[simp] theorem run_nil : run step s [] = s := rfl

@[simp] theorem run_cons (a : α) (rest : List α) : run step s (a :: rest) = run step (step s a) rest := rfl

theorem run_append (xs ys : List α) : run step s (xs ++ ys) = run step (run step s xs) ys :=
  List.foldl_append

theorem All.append {xs ys : List α} :
    All step C s (xs ++ ys) ↔ All step C s xs ∧ All step C (run step s xs) ys := by
  induction xs generalizing s with
  | nil => simp [All]
  | cons a rest ih => simp [All, ih, and_assoc]

variable {actions : List α}

/-- **The invariant rule.** -/
theorem All.run (Inv : σ → Prop) (hstep : ∀ s a, Inv s → C s a → Inv (step s a)) (hinit : Inv s)
    (h : All step C s actions) : Inv (run step s actions) := by
  induction actions generalizing s with
  | nil => exact hinit
  | cons a rest ih => exact ih (hstep s a hinit h.1) h.2

theorem All.imp (Inv : σ → Prop) (hstep : ∀ s a, Inv s → C s a → Inv (step s a))
    (himp : ∀ s a, Inv s → C s a → D s a) (hinit : Inv s) (h : All step C s actions) :
    All step D s actions := by
  induction actions generalizing s with
  | nil => trivial
  | cons a rest ih =>
    exact ⟨himp s a hinit h.1, ih (hstep s a hinit h.1) h.2⟩

theorem All.always (h : ∀ s a, C s a) : All step C s actions := by
  induction actions generalizing s with
  | nil => trivial
  | cons a rest ih => exact ⟨h s a, ih⟩

theorem All.and (hC : All step C s actions) (hD : All step D s actions) :
    All step (fun s a => C s a ∧ D s a) s actions := by
  induction actions generalizing s with
  | nil => trivial
  | cons a rest ih => exact ⟨⟨hC.1, hD.1⟩, ih hC.2 hD.2⟩

theorem exists_step (E : σ → α → Prop) (s : σ) (actions : List α) : All step (fun s a => ¬ E s a) s actions ∨
      ∃ before a after_, actions = before ++ a :: after_ ∧ E (Bondry.run step s before) a := by
  induction actions generalizing s with
  | nil => exact .inl trivial
  | cons a rest ih =>
    by_cases ha : E s a
    · exact .inr ⟨[], a, rest, rfl, ha⟩
    · rcases ih (step s a) with hall | ⟨before, b, after_, rfl, hb⟩
      · exact .inl ⟨ha, hall⟩
      · exact .inr ⟨a :: before, b, after_, rfl, hb⟩

end

/-! ## Histories -/

/-- Each entry stands in `P` to the entries before it. -/
def Every (P : List α → α → Prop) (history : List α) : Prop :=
  ∀ before entry behind, history = before ++ entry :: behind → P before entry

theorem every_nil {P : List α → α → Prop} : Every P [] :=
  fun before entry behind h => absurd h.symm (by simp)

theorem every_concat {P : List α → α → Prop} {history : List α} {last : α} :
    Every P (history ++ [last]) ↔ Every P history ∧ P history last := by
  constructor
  · intro h
    refine ⟨fun before entry behind heq => ?_, h history last [] rfl⟩
    exact h before entry (behind ++ [last]) (by simp [heq])
  · rintro ⟨hbefore, hlast⟩ before entry behind heq
    rcases List.eq_nil_or_concat behind with rfl | ⟨rest, final, rfl⟩
    · obtain ⟨rfl, hentry⟩ := List.append_inj' heq rfl
      cases hentry
      exact hlast
    · have hsplit : history ++ [last] = (before ++ entry :: rest) ++ [final] := by simp [heq]
      exact hbefore before entry rest (List.append_inj' hsplit rfl).1

end Bondry
