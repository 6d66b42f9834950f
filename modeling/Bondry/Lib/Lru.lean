/-
  LEAST RECENTLY USED CACHES, over arbitrary keys and values.

  The entries are a queue: an entry that is used moves to the back, and a full cache drops the one at the
  front.  What that is worth is said against the HISTORY of uses, the last one first: `age uses key` is the
  number of uses since the key was used, and `Ordered` says that the queue is sorted by it.
-/
import Mathlib

namespace Bondry.Lru

variable {κ α : Type} [DecidableEq κ]

/-! ## The operations -/

/-- The value under a key, and the entries with it at the back. -/
def get (entries : List (κ × α)) (key : κ) : Option (α × List (κ × α)) :=
  (entries.find? (·.1 = key)).map fun entry => (entry.2, entries.eraseP (·.1 = key) ++ [entry])

/-- The value that is there, or the new one, for which a full cache drops its first entry. -/
def insert (capacity : Nat) (entries : List (κ × α)) (key : κ) (value : α) : α × List (κ × α) :=
  match get entries key with
  | some found => found
  | none => (value, (if entries.length = capacity then entries.tail else entries) ++ [(key, value)])

/-- How many keys were used since. -/
def age (uses : List κ) (key : κ) : Nat := uses.idxOf key

/-- The queue is sorted by age, the oldest entry first. -/
structure Ordered (capacity : Nat) (uses : List κ) (entries : List (κ × α)) : Prop where
  bounded : entries.length ≤ capacity
  sorted : entries.Pairwise fun older newer => age uses newer.1 < age uses older.1

theorem ordered_nil (capacity : Nat) (uses : List κ) : Ordered capacity uses ([] : List (κ × α)) :=
  ⟨Nat.zero_le _, List.Pairwise.nil⟩

/-! ## Lookups -/

variable {entries : List (κ × α)} {key : κ}

theorem get_eq_none : get entries key = none ↔ ∀ entry ∈ entries, entry.1 ≠ key := by
  rw [get, Option.map_eq_none_iff, List.find?_eq_none]
  simp

variable {rest : List (κ × α)} {value : α}

theorem get_eq_some (h : get entries key = some (value, rest)) :
    ∃ front back, entries = front ++ (key, value) :: back ∧ rest = front ++ back ++ [(key, value)] := by
  obtain ⟨⟨found, value⟩, hfind, heq⟩ := Option.map_eq_some_iff.mp h
  obtain ⟨hkey, front, back, rfl, hfront⟩ := List.find?_eq_some_iff_append.mp hfind
  obtain rfl : found = key := of_decide_eq_true hkey
  cases heq
  refine ⟨front, back, rfl, ?_⟩
  have hskip : ∀ entry ∈ front, ¬ decide (entry.1 = found) = true := fun entry hentry => by
    simpa using hfront entry hentry
  rw [List.eraseP_append_right _ hskip, List.eraseP_cons_of_pos (by simp)]

theorem get_mem (h : get entries key = some (value, rest)) (entry : κ × α) :
    entry ∈ rest ↔ entry ∈ entries := by
  obtain ⟨front, back, rfl, rfl⟩ := get_eq_some h
  simp only [List.mem_append, List.mem_cons, List.not_mem_nil, or_false]
  tauto

theorem mem_of_get (h : get entries key = some (value, rest)) : (key, value) ∈ entries := by
  obtain ⟨front, back, rfl, -⟩ := get_eq_some h
  simp

/-! ## The order -/

section

variable {capacity : Nat} {uses : List κ} {entries : List (κ × α)}

variable {key : κ}

theorem age_cons_ne {other : κ} (h : key ≠ other) : age (key :: uses) other = age uses other + 1 :=
  List.idxOf_cons_ne _ h

theorem age_cons_self (key : κ) : age (key :: uses) key = 0 := List.idxOf_cons_self

theorem Ordered.nodup (h : Ordered capacity uses entries) : (entries.map (·.1)).Nodup := by
  rw [List.Nodup, List.pairwise_map]
  refine h.sorted.imp ?_
  intro older newer hlt heq
  rw [heq] at hlt
  exact Nat.lt_irrefl _ hlt

variable {value : α}

theorem Ordered.push {kept : List (κ × α)} (h : Ordered capacity uses entries)
    (hkept : kept.Sublist entries) (hkey : ∀ entry ∈ kept, entry.1 ≠ key)
    (hroom : kept.length < capacity) : Ordered capacity (key :: uses) (kept ++ [(key, value)]) := by
  constructor
  · rw [List.length_append, List.length_singleton]
    exact hroom
  · rw [List.pairwise_append]
    refine ⟨?_, List.pairwise_singleton _ _, ?_⟩
    · refine (h.sorted.sublist hkept).imp_of_mem ?_
      intro older newer holder hnewer hlt
      rw [age_cons_ne (hkey older holder).symm, age_cons_ne (hkey newer hnewer).symm]
      omega
    · intro older holder newer hnewer
      rw [List.mem_singleton.mp hnewer, age_cons_self, age_cons_ne (hkey older holder).symm]
      omega

theorem Ordered.get {rest : List (κ × α)} (h : Ordered capacity uses entries)
    (hget : Lru.get entries key = some (value, rest)) : Ordered capacity (key :: uses) rest := by
  obtain ⟨front, back, rfl, rfl⟩ := get_eq_some hget
  have hsub : (front ++ back).Sublist (front ++ (key, value) :: back) :=
    (List.Sublist.refl front).append (List.sublist_cons_self _ back)
  refine h.push hsub ?_ ?_
  · intro entry hentry heq
    have hnodup := h.nodup
    rw [List.map_append, List.map_cons, List.nodup_middle, List.nodup_cons, ← List.map_append] at hnodup
    exact hnodup.1 (List.mem_map.mpr ⟨entry, hentry, heq⟩)
  · have := h.bounded
    simp only [List.length_append, List.length_cons] at this ⊢
    omega

theorem Ordered.insert (h : Ordered capacity uses entries) (hcapacity : 0 < capacity) (key : κ) (value : α) :
    Ordered capacity (key :: uses) (Lru.insert capacity entries key value).2 := by
  rw [Lru.insert]
  rcases hget : Lru.get entries key with _ | ⟨found, rest⟩
  · have hkey := get_eq_none.mp hget
    dsimp only
    split_ifs with hfull
    · refine h.push (List.tail_sublist _) (fun entry hentry => hkey entry (List.mem_of_mem_tail hentry)) ?_
      rw [List.length_tail]
      omega
    · have := h.bounded
      exact h.push (List.Sublist.refl _) hkey (by omega)
  · exact h.get hget

/-! ## Evictions -/

theorem insert_mem {entry : κ × α} (h : entry ∈ (Lru.insert capacity entries key value).2) :
    entry ∈ entries ∨ entry = (key, value) := by
  rw [Lru.insert] at h
  rcases hget : Lru.get entries key with _ | ⟨found, rest⟩
  · rw [hget] at h
    rcases List.mem_append.mp h with h | h
    · split_ifs at h
      · exact .inl (List.mem_of_mem_tail h)
      · exact .inl h
    · exact .inr (List.mem_singleton.mp h)
  · rw [hget] at h
    exact .inl ((get_mem hget entry).mp h)

theorem insert_value (key : κ) (value : α) : (key, (Lru.insert capacity entries key value).1) ∈ entries ∨
      (Lru.insert capacity entries key value).1 = value := by
  rw [Lru.insert]
  rcases hget : Lru.get entries key with _ | ⟨found, rest⟩
  · exact .inr rfl
  · exact .inl (mem_of_get hget)

theorem Ordered.insert_evicts (h : Ordered capacity uses entries) {entry : κ × α}
    (hentry : entry ∈ entries) (hgone : entry ∉ (Lru.insert capacity entries key value).2) :
    ∀ other ∈ entries, other ≠ entry → age uses other.1 < age uses entry.1 := by
  rw [Lru.insert] at hgone
  rcases hget : Lru.get entries key with _ | ⟨found, rest⟩
  · rw [hget] at hgone
    dsimp only at hgone
    split_ifs at hgone with hfull
    · -- only the first entry can be missing, and the queue is sorted
      rcases entries with _ | ⟨first, rest⟩
      · cases hentry
      · have hfirst : entry = first := by
          rcases List.mem_cons.mp hentry with heq | hmem
          · exact heq
          · exact absurd (List.mem_append_left _ hmem) hgone
        intro other hother hne
        rw [hfirst] at hne ⊢
        exact (List.pairwise_cons.mp h.sorted).1 other ((List.mem_cons.mp hother).resolve_left hne)
    · exact absurd (List.mem_append_left _ hentry) hgone
  · rw [hget] at hgone
    exact absurd ((get_mem hget entry).mpr hentry) hgone

end

end Bondry.Lru
