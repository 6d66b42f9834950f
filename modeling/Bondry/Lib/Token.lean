/-
  TOKENS AND LOCKS: flags that at most one of many processes holds.

  Each process stands at a program point; `holds` says at which points a process owns the token, and
  the flag `taken` says whether anybody does.  A step moves ONE process, so it keeps the token where it
  is, takes it while it is free, or gives it back: one lemma each.

  `Locks` is a family of tokens.  If every process takes its locks in the order of a RANK, then
  somebody can always go on: a process that waits for a lock waits for its owner, who waits for a
  lock of higher rank, if for any (`Locks.progress`).
-/
import Mathlib

namespace Bondry

variable {ι π : Type}

/-- At most one process holds the token, and `taken` says whether one does. -/
structure Token (holds : π → Bool) (points : ι → π) (taken : Bool) : Prop where
  unique : ∀ i j, holds (points i) = true → holds (points j) = true → i = j
  taken_iff : taken = true ↔ ∃ i, holds (points i) = true

namespace Token

variable {holds : π → Bool} {points : ι → π} {taken : Bool}

theorem free (h : ∀ i, holds (points i) = false) : Token holds points false := by
  constructor
  · intro j k hj
    rw [h] at hj
    cases hj
  · simp [h]

variable [DecidableEq ι] {i : ι} {point : π}

theorem keep (h : Token holds points taken) (hsame : holds point = holds (points i)) :
    Token holds (Function.update points i point) taken := by
  have hholds : ∀ j, holds (Function.update points i point j) = holds (points j) := by
    intro j
    rcases eq_or_ne j i with rfl | hne
    · rw [Function.update_self, hsame]
    · rw [Function.update_of_ne hne]
  constructor
  · intro j k
    rw [hholds, hholds]
    exact h.unique j k
  · simp only [hholds]
    exact h.taken_iff

theorem acquire (h : Token holds points false) (hpoint : holds point = true) :
    Token holds (Function.update points i point) true := by
  have hfree : ∀ j, holds (points j) = false := by
    intro j
    rw [← Bool.not_eq_true]
    intro hj
    exact absurd (h.taken_iff.mpr ⟨j, hj⟩) (by simp)
  have honly : ∀ j, holds (Function.update points i point j) = true → j = i := by
    intro j hj
    by_contra hne
    rw [Function.update_of_ne hne, hfree] at hj
    cases hj
  refine ⟨fun j k hj hk => (honly j hj).trans (honly k hk).symm, ?_⟩
  exact iff_of_true rfl ⟨i, by rwa [Function.update_self]⟩

theorem release (h : Token holds points taken) (hi : holds (points i) = true)
    (hpoint : holds point = false) : Token holds (Function.update points i point) false := by
  apply free
  intro j
  rcases eq_or_ne j i with rfl | hne
  · rwa [Function.update_self]
  · rw [Function.update_of_ne hne, ← Bool.not_eq_true]
    exact fun hj => hne (h.unique j i hj hi)

end Token

/-! ## Locks -/

variable {ℓ : Type}

/-- Every lock is a token of those who hold it. -/
def Locks (holds : ℓ → π → Bool) (points : ι → π) (locked : ℓ → Bool) : Prop :=
  ∀ lock, Token (holds lock) points (locked lock)

namespace Locks

variable {holds : ℓ → π → Bool} {points : ι → π} {locked : ℓ → Bool}

/-- **A lock hierarchy does not deadlock**: behind every process that waits for a lock there is one
    that holds a lock and waits for none that is taken. -/
theorem progress (h : Locks holds points locked) (wants : π → Option ℓ) (rank : ℓ → Nat)
    (bound : Nat) (hbound : ∀ lock, rank lock ≤ bound)
    (hordered : ∀ point lock other, wants point = some lock → holds other point = true →
      rank other < rank lock) {lock : ℓ} (htaken : locked lock = true) :
    ∃ i, (∃ held, holds held (points i) = true) ∧
      ∀ wanted, wants (points i) = some wanted → locked wanted = false := by
  -- induction on how far the lock is below the highest rank
  induction hdistance : bound - rank lock using Nat.strong_induction_on generalizing lock with
  | _ distance ih =>
    obtain ⟨i, hi⟩ := (h lock).taken_iff.mp htaken
    rcases hwants : wants (points i) with _ | wanted
    · exact ⟨i, ⟨lock, hi⟩, fun wanted hwanted => by rw [hwants] at hwanted; cases hwanted⟩
    by_cases hwaits : locked wanted = true
    · have hhigher := hordered _ _ _ hwants hi
      have := hbound wanted
      exact ih (bound - rank wanted) (by omega) hwaits rfl
    · refine ⟨i, ⟨lock, hi⟩, fun other hother => ?_⟩
      rw [hwants] at hother
      cases hother
      simpa using hwaits

variable [DecidableEq ι] {i : ι} {point : π}

theorem keep (h : Locks holds points locked) (hsame : ∀ lock, holds lock point = holds lock (points i)) :
    Locks holds (Function.update points i point) locked :=
  fun lock => (h lock).keep (hsame lock)

variable [DecidableEq ℓ]

theorem acquire (h : Locks holds points locked) {lock : ℓ} (hfree : locked lock = false)
    (htakes : holds lock point = true)
    (hsame : ∀ other, other ≠ lock → holds other point = holds other (points i)) :
    Locks holds (Function.update points i point) (Function.update locked lock true) := by
  intro other
  rcases eq_or_ne other lock with rfl | hne
  · have hfree' := h other
    rw [hfree] at hfree'
    rw [Function.update_self]
    exact hfree'.acquire htakes
  · rw [Function.update_of_ne hne]
    exact (h other).keep (hsame other hne)

theorem release (h : Locks holds points locked) {lock : ℓ}
    (hlocks : ∀ other, holds other (points i) = true ↔ holds other point = true ∨ other = lock)
    (hgives : holds lock point = false) :
    Locks holds (Function.update points i point) (Function.update locked lock false) := by
  intro other
  rcases eq_or_ne other lock with rfl | hne
  · rw [Function.update_self]
    exact (h other).release ((hlocks other).mpr (.inr rfl)) hgives
  · rw [Function.update_of_ne hne]
    refine (h other).keep ?_
    rw [Bool.eq_iff_iff, hlocks]
    simp [hne]

end Locks

end Bondry
