/-
  FALLIBLE COMPUTATIONS: what a result of `Except` says about the steps that led to it.
-/
import Mathlib

namespace Bondry

variable {ε α β : Type} {x : Except ε α} {f : α → Except ε β} {b : β}

theorem bind_ok (h : x >>= f = .ok b) : ∃ a, x = .ok a ∧ f a = .ok b := by
  cases x with
  | error e => cases h
  | ok a => exact ⟨a, rfl, h⟩

theorem bind_eq_ok : (x >>= f) = .ok b ↔ ∃ a, x = .ok a ∧ f a = .ok b :=
  ⟨bind_ok, fun ⟨_, hx, hf⟩ => by rw [hx]; exact hf⟩

theorem map_eq_ok {f : α → β} : x.map f = .ok b ↔ ∃ a, x = .ok a ∧ f a = b := by
  rcases x with e | a
  · simp [Except.map]
  · simp [Except.map]

theorem bind_error {e : ε} (h : (x >>= f) = .error e) : x = .error e ∨ ∃ a, x = .ok a ∧ f a = .error e := by
  cases x with
  | error e' =>
    cases h
    exact .inl rfl
  | ok a => exact .inr ⟨a, rfl, h⟩

theorem mapM_error {e : ε} : ∀ {xs : List α}, xs.mapM f = .error e → ∃ x ∈ xs, f x = .error e
  | [], h => by cases h
  | x :: xs, h => by
      rw [List.mapM_cons] at h
      rcases bind_error h with hx | ⟨_, _, h⟩
      · exact ⟨x, List.mem_cons_self, hx⟩
      · rcases bind_error h with hxs | ⟨_, _, h⟩
        · obtain ⟨y, hy, hf⟩ := mapM_error hxs
          exact ⟨y, List.mem_cons_of_mem x hy, hf⟩
        · cases h

theorem mapM_ok : ∀ {xs : List α} {ys : List β},
    xs.mapM f = .ok ys → List.Forall₂ (fun x y => f x = .ok y) xs ys
  | [], ys, h => by
      cases h
      exact .nil
  | x :: xs, ys, h => by
      rw [List.mapM_cons] at h
      obtain ⟨y, hy, h⟩ := bind_ok h
      obtain ⟨rest, hrest, h⟩ := bind_ok h
      cases h
      exact .cons hy (mapM_ok hrest)

theorem mapM_congr {m : Type → Type} [Monad m] [LawfulMonad m] {f g : α → m β} {xs : List α}
    (h : ∀ x ∈ xs, f x = g x) : xs.mapM f = xs.mapM g := by
  induction xs with
  | nil => rfl
  | cons x xs ih =>
    rw [List.mapM_cons, List.mapM_cons, h x List.mem_cons_self,
      ih fun y hy => h y (List.mem_cons_of_mem x hy)]

theorem foldlM_congr {m : Type → Type} [Monad m] {f g : β → α → m β} {xs : List α}
    (h : ∀ b, ∀ x ∈ xs, f b x = g b x) : ∀ b, xs.foldlM f b = xs.foldlM g b := by
  induction xs with
  | nil => exact fun b => rfl
  | cons x xs ih =>
    intro b
    rw [List.foldlM_cons, List.foldlM_cons, h b x List.mem_cons_self]
    congr 1
    exact funext (ih fun c y hy => h c y (List.mem_cons_of_mem x hy))

end Bondry
