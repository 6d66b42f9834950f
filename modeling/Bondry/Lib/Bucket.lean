/-
  The EXACT TOKEN BUCKET, over any ordered field.

  A bucket of some capacity starts full, fills at a constant rate and loses one token at each take.
  `level takes t` is what it holds at time `t` when tokens were taken at the times `takes` (newest
  first): a closed form that knows nothing of WHEN anybody looked.  So

  * `level_advance` — looking in between changes nothing;
  * `level_take`    — a take costs one token;
  * `Paid.length_le` — **if every take found a token, any stretch of takes is at most the capacity plus
                       what flowed in between its first and its last.**
-/
import Mathlib

namespace Bondry.Bucket

variable {𝕜 : Type*} [Field 𝕜] [LinearOrder 𝕜]

/-- What the bucket holds at time `t`, with takes at the given times, newest first. -/
def level (capacity rate : 𝕜) : List 𝕜 → 𝕜 → 𝕜
  | [], _ => capacity
  | s :: earlier, t => min capacity (level capacity rate earlier s - 1 + rate * (t - s))

/-- Every take found a whole token. -/
def Paid (capacity rate : 𝕜) : List 𝕜 → Prop
  | [] => True
  | s :: earlier => 1 ≤ level capacity rate earlier s ∧ Paid capacity rate earlier

variable {capacity rate : 𝕜} {takes : List 𝕜} {s t : 𝕜}

theorem level_le : level capacity rate takes t ≤ capacity := by
  rcases takes with _ | ⟨s, earlier⟩
  · exact le_rfl
  · exact min_le_left _ _

theorem Paid.older {newer : List 𝕜} (h : Paid capacity rate (newer ++ takes)) : Paid capacity rate takes := by
  induction newer with
  | nil => exact h
  | cons s rest ih => exact ih h.2

variable [IsStrictOrderedRing 𝕜]

theorem level_advance (hrate : 0 ≤ rate) (hst : s ≤ t) :
    level capacity rate takes t = min capacity (level capacity rate takes s + rate * (t - s)) := by
  have hinflow : 0 ≤ rate * (t - s) := mul_nonneg hrate (sub_nonneg.mpr hst)
  rcases takes with _ | ⟨u, earlier⟩
  · exact (min_eq_left (le_add_of_nonneg_right hinflow)).symm
  · -- the cap at time `s` is absorbed by the cap at time `t`
    have hsplit : rate * (t - u) = rate * (s - u) + rate * (t - s) := by ring
    simp only [level]
    rw [min_add, ← min_assoc, min_eq_left (le_add_of_nonneg_right hinflow : capacity ≤ _), hsplit,
      add_assoc]

theorem level_take : level capacity rate (t :: takes) t = level capacity rate takes t - 1 := by
  have hle : level capacity rate takes t - 1 ≤ capacity :=
    (sub_le_self _ zero_le_one).trans level_le
  rw [level, sub_self, mul_zero, add_zero, min_eq_right hle]

/-- What is left after a stretch of takes from time `s` to time `t`. -/
theorem level_add_length (older : List 𝕜) (between : List 𝕜)
    (hlast : (t :: between).getLast (List.cons_ne_nil _ _) = s) :
    level capacity rate (t :: between ++ older) t + (t :: between).length ≤ capacity + rate * (t - s) := by
  induction between generalizing t with
  | nil =>
    have hts : t = s := hlast
    subst hts
    rw [List.singleton_append, level_take]
    have : level capacity rate older t ≤ capacity := level_le
    simp only [List.length_singleton, Nat.cast_one, sub_self, mul_zero, add_zero]
    linarith
  | cons u rest ih =>
    -- one more take: one token less, and at most the inflow since `u` more
    have hrest := ih (t := u) (by simpa using hlast)
    have hnext : level capacity rate (u :: rest ++ older) t
        ≤ level capacity rate (u :: rest ++ older) u + rate * (t - u) := by
      rw [List.cons_append, level_take]
      exact min_le_right _ _
    rw [List.cons_append, level_take]
    rw [List.length_cons, Nat.cast_add, Nat.cast_one]
    have hsplit : rate * (t - s) = rate * (t - u) + rate * (u - s) := by ring
    rw [hsplit]
    linarith

/-- **The burst bound.** -/
theorem Paid.length_le {newer older between : List 𝕜}
    (h : Paid capacity rate (newer ++ (t :: between ++ older)))
    (hlast : (t :: between).getLast (List.cons_ne_nil _ _) = s) :
    ((t :: between).length : 𝕜) ≤ capacity + rate * (t - s) := by
  have hpaid : 1 ≤ level capacity rate (between ++ older) t := h.older.1
  have hleft : level capacity rate (t :: between ++ older) t + _ ≤ _ :=
    level_add_length older between hlast
  rw [List.cons_append, level_take] at hleft
  linarith

end Bondry.Bucket
