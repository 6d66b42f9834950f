/-
  LEDGERS: a map of totals kept beside a map of entries.

  A counter for each group of entries is kept in a map of its own, and a group with nothing to count has
  NO entry in it.  `Posted idle expected book` says that the book is right: looking up a group gives its
  expected total, and nothing where that total is idle.

  The entries themselves are weighed by `weigh mark w`: the sum of a weight that only looks at an entry's
  `mark`.  An entry that is replaced by one with the same mark weighs the same, whatever else changed.
-/
import Bondry.Lib.BTreeMap

namespace Bondry

/-! ## Books -/

section Books

variable {γ τ : Type} [LinearOrder γ]

/-- The book has what is expected of each account, and nothing of idle ones. -/
def Posted (idle : τ → Bool) (expected : γ → τ) (book : BTreeMap γ τ) : Prop :=
  ∀ g : γ, book[g]? = if idle (expected g) then none else some (expected g)

variable {idle : τ → Bool} {expected expected' : γ → τ} {book : BTreeMap γ τ} {g₀ : γ}

theorem posted_empty (h : ∀ g, idle (expected g) = true) : Posted idle expected (∅ : BTreeMap γ τ) := by
  intro g
  rw [BTreeMap.find_empty, if_pos (h g)]

theorem Posted.find (h : Posted idle expected book) (hbusy : idle (expected g₀) = false) :
    book[g₀]? = some (expected g₀) := by
  rw [h g₀, hbusy]
  rfl

theorem Posted.find_idle (h : Posted idle expected book) (hidle : idle (expected g₀) = true) :
    book[g₀]? = none := by
  rw [h g₀, hidle]
  rfl

theorem Posted.congr (h : Posted idle expected book) (hsame : ∀ g, expected' g = expected g) :
    Posted idle expected' book := by
  intro g
  rw [hsame g]
  exact h g

theorem Posted.settle (h : Posted idle expected book) (hother : ∀ g, g₀ ≠ g → expected' g = expected g) :
    Posted idle expected' (if idle (expected' g₀) then book.erase g₀ else book.insert g₀ (expected' g₀)) := by
  intro g
  by_cases hg : g₀ = g
  · subst hg
    split
    · exact BTreeMap.find_erase_self book g₀
    · exact BTreeMap.find_insert_self book g₀ _
  · rw [hother g hg, ← h g]
    split
    · exact BTreeMap.find_erase_ne book hg
    · exact BTreeMap.find_insert_ne book _ hg

theorem Posted.insert (h : Posted idle expected book) (hbusy : idle (expected' g₀) = false)
    (hother : ∀ g, g₀ ≠ g → expected' g = expected g) :
    Posted idle expected' (book.insert g₀ (expected' g₀)) := by
  have hsettled := h.settle hother
  rw [hbusy] at hsettled
  exact hsettled

end Books

/-! ## Weighing entries -/

section Weighing

variable {κ ν μ : Type} [LinearOrder κ] (mark : ν → μ)

/-- The weight of all entries. -/
def weigh (m : BTreeMap κ ν) (w : μ → Nat) : Nat := BTreeMap.sumOf (fun _ v => w (mark v)) m

variable {mark} {m : BTreeMap κ ν} {k : κ} {v v' : ν}

theorem weigh_empty (w : μ → Nat) : weigh mark (∅ : BTreeMap κ ν) w = 0 :=
  BTreeMap.sumOf_empty _

theorem weigh_insert (h : m[k]? = none) (w : μ → Nat) :
    weigh mark (m.insert k v) w = weigh mark m w + w (mark v) :=
  BTreeMap.sumOf_insert_fresh _ v h

theorem weigh_replace (h : m[k]? = some v) (w : μ → Nat) :
    weigh mark (m.insert k v') w + w (mark v) = weigh mark m w + w (mark v') :=
  BTreeMap.sumOf_insert_replace _ v' h

theorem weigh_same (h : m[k]? = some v) (hmark : mark v' = mark v) (w : μ → Nat) :
    weigh mark (m.insert k v') w = weigh mark m w := by
  have hreplace : weigh mark (m.insert k v') w + w (mark v) = _ := weigh_replace h w
  rw [hmark] at hreplace
  exact Nat.add_right_cancel hreplace

theorem weigh_erase (h : m[k]? = some v) (w : μ → Nat) :
    weigh mark (m.erase k) w + w (mark v) = weigh mark m w :=
  BTreeMap.sumOf_erase _ h

theorem le_weigh (h : m[k]? = some v) (w : μ → Nat) : w (mark v) ≤ weigh mark m w :=
  BTreeMap.le_sumOf (fun _ v => w (mark v)) h

theorem weigh_mono {w w' : μ → Nat} (h : ∀ x, w x ≤ w' x) : weigh mark m w ≤ weigh mark m w' :=
  BTreeMap.sumOf_le_sumOf fun _ v _ => h (mark v)

end Weighing

end Bondry
