/-
  ORDERED MAPS with weighted sums over their entries.

  A `BTreeMap κ ν` is `Std.TreeMap` at the key type's own order: looking up, inserting, erasing
  and iterating in KEY ORDER all come from the standard library.  What a counter kept beside such
  a map needs, and the library does not have, is how a SUM over the entries moves when one entry
  is inserted, replaced or erased.  That is this file:

  * `find_insert`, `find_erase` — the two lookup laws, in the shape `if k = a then _ else _`;
  * `sumOf f m` — the sum of `f k v` over the entries of `m`, with one law for each way an entry
    can change (`sumOf_insert_fresh`, `sumOf_insert_replace`, `sumOf_erase`).
-/
import Mathlib

namespace Bondry

/-- An ordered map from `κ` to `ν`, iterated in the order of its keys. -/
abbrev BTreeMap (κ ν : Type) [LinearOrder κ] := Std.TreeMap κ ν compare

namespace BTreeMap

variable {κ ν : Type} [LinearOrder κ]

/-! ## The lookup laws -/

instance : Std.LawfulEqCmp (compare : κ → κ → Ordering) where
  compare_self := compare_eq_iff_eq.mpr rfl
  eq_of_compare h := compare_eq_iff_eq.mp h

@[simp] theorem find_empty (a : κ) : (∅ : BTreeMap κ ν)[a]? = none :=
  Std.TreeMap.getElem?_emptyc

theorem find_insert (m : BTreeMap κ ν) (k a : κ) (v : ν) :
    (m.insert k v)[a]? = if k = a then some v else m[a]? := by
  rw [Std.TreeMap.getElem?_insert]
  simp only [compare_eq_iff_eq]

@[simp] theorem find_insert_self (m : BTreeMap κ ν) (k : κ) (v : ν) : (m.insert k v)[k]? = some v := by
  rw [find_insert, if_pos rfl]

variable {k : κ}

theorem find_insert_ne (m : BTreeMap κ ν) {a : κ} (v : ν) (h : k ≠ a) : (m.insert k v)[a]? = m[a]? := by
  rw [find_insert, if_neg h]

theorem find_erase (m : BTreeMap κ ν) (k a : κ) : (m.erase k)[a]? = if k = a then none else m[a]? := by
  rw [Std.TreeMap.getElem?_erase]
  simp only [compare_eq_iff_eq]

@[simp] theorem find_erase_self (m : BTreeMap κ ν) (k : κ) : (m.erase k)[k]? = none := by
  rw [find_erase, if_pos rfl]

theorem find_erase_ne (m : BTreeMap κ ν) {a : κ} (h : k ≠ a) : (m.erase k)[a]? = m[a]? := by
  rw [find_erase, if_neg h]

theorem mem_toList (m : BTreeMap κ ν) (k : κ) (v : ν) : (k, v) ∈ m.toList ↔ m[k]? = some v :=
  Std.TreeMap.mem_toList_iff_getElem?_eq_some

theorem mem_keys (m : BTreeMap κ ν) (k : κ) : k ∈ m.keys ↔ ∃ v, m[k]? = some v := by
  rw [Std.TreeMap.mem_keys, Std.TreeMap.mem_iff_isSome_getElem?, Option.isSome_iff_exists]

/-! ## Iterating -/

theorem nodup_keys (m : BTreeMap κ ν) : m.keys.Nodup := by
  have hdistinct := Std.TreeMap.distinct_keys (t := m)
  refine hdistinct.imp fun hne heq => ?_
  exact hne (compare_eq_iff_eq.mpr heq)

/-- The keys of the entries that satisfy `p`, each once. -/
theorem nodup_filter_keys (m : BTreeMap κ ν) (p : κ × ν → Bool) :
    ((m.toList.filter p).map Prod.fst).Nodup := by
  refine List.Nodup.sublist ?_ (nodup_keys m)
  rw [← Std.TreeMap.map_fst_toList_eq_keys]
  exact List.Sublist.map _ List.filter_sublist

theorem mem_filter_keys (m : BTreeMap κ ν) (p : κ × ν → Bool) (k : κ) :
    k ∈ (m.toList.filter p).map Prod.fst ↔ ∃ v, m[k]? = some v ∧ p (k, v) = true := by
  constructor
  · intro hk
    obtain ⟨⟨a, v⟩, hv, rfl⟩ := List.mem_map.mp hk
    obtain ⟨hmem, hp⟩ := List.mem_filter.mp hv
    exact ⟨v, (mem_toList m a v).mp hmem, hp⟩
  · rintro ⟨v, hv, hp⟩
    exact List.mem_map.mpr ⟨(k, v), List.mem_filter.mpr ⟨(mem_toList m k v).mpr hv, hp⟩, rfl⟩

/-! ## Sums over the entries -/

/-- The sum of the weights `f k v` over the entries of `m`. -/
def sumOf (f : κ → ν → Nat) (m : BTreeMap κ ν) : Nat := (m.toList.map fun e => f e.1 e.2).sum

def tally (p : κ → ν → Bool) (m : BTreeMap κ ν) : Nat := sumOf (fun k v => if p k v then 1 else 0) m

@[simp] theorem sumOf_empty (f : κ → ν → Nat) : sumOf f (∅ : BTreeMap κ ν) = 0 := rfl

variable {m : BTreeMap κ ν}

theorem sumOf_congr_find (f : κ → ν → Nat) {m' : BTreeMap κ ν} (h : ∀ a : κ, m[a]? = m'[a]?) :
    sumOf f m = sumOf f m' := by
  have hp := Std.TreeMap.equiv_iff_toList_perm.mp (Std.TreeMap.Equiv.of_forall_constGet?_eq h)
  exact (hp.map fun e => f e.1 e.2).sum_eq

theorem sumOf_insert_fresh (f : κ → ν → Nat) (v : ν) (h : m[k]? = none) :
    sumOf f (m.insert k v) = sumOf f m + f k v := by
  have hp := Std.TreeMap.toList_insert_perm (t := m) (k := k) (v := v)
  have hall : m.toList.filter (fun e => decide ¬(k == e.1) = true) = m.toList := by
    rw [List.filter_eq_self]
    rintro ⟨a, w⟩ ha
    have hne : k ≠ a := by
      rintro rfl
      rw [mem_toList, h] at ha
      exact absurd ha (by simp)
    simp [hne]
  rw [hall] at hp
  have hs := (hp.map fun e => f e.1 e.2).sum_eq
  rw [List.map_cons, List.sum_cons] at hs
  rw [sumOf, sumOf, hs, Nat.add_comm]

variable {w : ν}

theorem sumOf_erase (f : κ → ν → Nat) (h : m[k]? = some w) : sumOf f (m.erase k) + f k w = sumOf f m := by
  rw [← sumOf_insert_fresh f w (find_erase_self m k)]
  refine sumOf_congr_find f fun a => ?_
  rw [find_insert]
  by_cases hk : k = a
  · rw [if_pos hk, ← hk, h]
  · rw [if_neg hk, find_erase_ne m hk]

theorem sumOf_insert_replace (f : κ → ν → Nat) (v : ν) (h : m[k]? = some w) :
    sumOf f (m.insert k v) + f k w = sumOf f m + f k v := by
  have hsum : sumOf f (m.insert k v) = sumOf f ((m.erase k).insert k v) := by
    refine sumOf_congr_find f fun a => ?_
    rw [find_insert, find_insert]
    by_cases hk : k = a
    · rw [if_pos hk, if_pos hk]
    · rw [if_neg hk, if_neg hk, find_erase_ne m hk]
  rw [hsum, sumOf_insert_fresh f v (find_erase_self m k), ← sumOf_erase f h]
  omega

theorem le_sumOf (f : κ → ν → Nat) (h : m[k]? = some w) : f k w ≤ sumOf f m := by
  rw [← sumOf_erase f h]
  exact Nat.le_add_left _ _

theorem sumOf_eq_zero (f : κ → ν → Nat) (m : BTreeMap κ ν) :
    sumOf f m = 0 ↔ ∀ k v, m[k]? = some v → f k v = 0 := by
  constructor
  · intro hz k v hk
    exact Nat.le_zero.mp (hz ▸ le_sumOf f hk)
  · intro hall
    rw [sumOf, List.sum_eq_zero_iff]
    intro x hx
    obtain ⟨⟨k, v⟩, hkv, rfl⟩ := List.mem_map.mp hx
    exact hall k v ((mem_toList m k v).mp hkv)

theorem sumOf_le_sumOf {f g : κ → ν → Nat} (h : ∀ k v, m[k]? = some v → f k v ≤ g k v) :
    sumOf f m ≤ sumOf g m := by
  refine List.sum_le_sum fun e he => ?_
  exact h e.1 e.2 ((mem_toList m e.1 e.2).mp he)

theorem size_eq_sumOf (m : BTreeMap κ ν) : m.size = sumOf (fun _ _ => 1) m := by
  rw [sumOf, List.map_const', List.sum_replicate, smul_eq_mul, Nat.mul_one]
  exact Std.TreeMap.length_toList.symm

end BTreeMap

end Bondry
