/-
  SEARCHING AND SPLITTING TEXTS.

  `findFirst p text` cuts a text around the first occurrence of a pattern, and `countMatches p text` counts
  occurrences that do not overlap, as the standard libraries of most languages do.  The second half is about
  FILLING A GAP: what becomes of a text `a ++ x ++ b` when `x` varies and has no separator in it.
-/
import Mathlib

namespace Bondry.Search

variable {α : Type} [DecidableEq α]

/-! ## The first occurrence -/

/-- The text in front of the first occurrence of a pattern, and the text behind it. -/
def findFirst (pattern : List α) : List α → Option (List α × List α)
  | [] => if pattern = [] then some ([], []) else none
  | c :: rest =>
    if pattern.isPrefixOf (c :: rest) then some ([], (c :: rest).drop pattern.length)
    else (findFirst pattern rest).map fun found => (c :: found.1, found.2)

/-- How often a pattern occurs, with so many characters of the last occurrence still to pass. -/
def countMatches (pattern : List α) : Nat → List α → Nat
  | _, [] => 0
  | passing + 1, _ :: rest => countMatches pattern passing rest
  | 0, c :: rest =>
    if pattern.isPrefixOf (c :: rest) then 1 + countMatches pattern (pattern.length - 1) rest
    else countMatches pattern 0 rest

variable {pattern text : List α}

theorem occursAt_iff : pattern.isPrefixOf text = true ↔ pattern <+: text :=
  List.isPrefixOf_iff_prefix

variable {front back : List α}

theorem findFirst_eq_some (h : findFirst pattern text = some (front, back)) :
    text = front ++ pattern ++ back := by
  induction text generalizing front with
  | nil =>
    rw [findFirst] at h
    split_ifs at h with hempty
    cases h
    rw [hempty]
    rfl
  | cons c rest ih =>
    rw [findFirst] at h
    split_ifs at h with hhere
    · obtain ⟨tail, htail⟩ := occursAt_iff.mp hhere
      cases h
      rw [← htail, List.drop_left]
      rfl
    · obtain ⟨⟨front', back'⟩, hfound, heq⟩ := Option.map_eq_some_iff.mp h
      cases heq
      rw [ih hfound]
      rfl

theorem findFirst_parts (h : findFirst pattern text = some (front, back)) :
    front <:+: text ∧ back <:+: text := by
  have htext := findFirst_eq_some h
  exact ⟨⟨[], pattern ++ back, by simp [htext]⟩, ⟨front ++ pattern, [], by simp [htext]⟩⟩

theorem findFirst_eq_none : findFirst pattern text = none ↔ ¬ pattern <:+: text := by
  induction text with
  | nil =>
    rw [findFirst]
    by_cases hempty : pattern = []
    · simp [hempty]
    · simp [hempty]
  | cons c rest ih =>
    rw [findFirst, List.infix_cons_iff, ← occursAt_iff]
    by_cases hhere : pattern.isPrefixOf (c :: rest) = true
    · simp [hhere]
    · rw [if_neg hhere, Option.map_eq_none_iff, ih]
      simp [hhere]

theorem countMatches_of_none (h : findFirst pattern text = none) : countMatches pattern 0 text = 0 := by
  induction text with
  | nil => rfl
  | cons c rest ih =>
    rw [findFirst] at h
    split_ifs at h with hhere
    rw [countMatches, if_neg hhere]
    exact ih (Option.map_eq_none_iff.mp h)

theorem findFirst_append (h : findFirst pattern text = some (front, back)) (hpattern : pattern ≠ [])
    (more : List α) : findFirst pattern (text ++ more) = some (front, back ++ more) := by
  induction text generalizing front with
  | nil =>
    rw [findFirst, if_neg hpattern] at h
    cases h
  | cons c rest ih =>
    rw [findFirst] at h
    rw [List.cons_append, findFirst]
    split_ifs at h with hhere
    · cases h
      have hlonger : pattern.isPrefixOf (c :: (rest ++ more)) = true :=
        occursAt_iff.mpr
          ((occursAt_iff.mp hhere).trans (List.prefix_append _ _))
      have hlength := (occursAt_iff.mp hhere).length_le
      rw [if_pos hlonger, ← List.cons_append, List.drop_append_of_le_length hlength]
    · obtain ⟨⟨front', back'⟩, hfound, heq⟩ := Option.map_eq_some_iff.mp h
      cases heq
      have hlonger : ¬ pattern.isPrefixOf (c :: (rest ++ more)) = true := by
        intro hp
        -- an occurrence at the front would end inside the first text, where the later one does
        have hthere := findFirst_eq_some hfound
        have hlong : pattern.length ≤ (c :: rest).length := by
          rw [hthere]
          simp only [List.length_cons, List.length_append]
          omega
        refine hhere (occursAt_iff.mpr ?_)
        exact List.prefix_of_prefix_length_le (occursAt_iff.mp hp)
          (List.prefix_append (c :: rest) more) hlong
      rw [if_neg hlonger, ih hfound]
      rfl

theorem findFirst_replace (h : findFirst pattern text = some (front, back))
    (hpattern : pattern ≠ []) (more : List α) :
    findFirst pattern (front ++ pattern ++ more) = some (front, more) := by
  induction text generalizing front with
  | nil =>
    rw [findFirst, if_neg hpattern] at h
    cases h
  | cons c rest ih =>
    have htext := findFirst_eq_some h
    rw [findFirst] at h
    split_ifs at h with hhere
    · cases h
      obtain ⟨d, ds, rfl⟩ := List.exists_cons_of_ne_nil hpattern
      have hthere : (d :: ds).isPrefixOf (d :: (ds ++ more)) = true :=
        occursAt_iff.mpr (List.prefix_append (d :: ds) more)
      rw [List.nil_append, List.cons_append, findFirst, if_pos hthere, ← List.cons_append,
        List.drop_left]
    · obtain ⟨⟨front', back'⟩, hfound, heq⟩ := Option.map_eq_some_iff.mp h
      cases heq
      -- an earlier occurrence would lie in the part that stays
      have hearlier : ¬ pattern.isPrefixOf (c :: (front' ++ pattern ++ more)) = true := by
        intro hp
        have hshort : pattern <+: c :: (front' ++ pattern) :=
          List.prefix_of_prefix_length_le (occursAt_iff.mp hp)
            (List.prefix_append (c :: (front' ++ pattern)) more)
            (by simp only [List.length_cons, List.length_append]; omega)
        refine hhere (occursAt_iff.mpr (hshort.trans ?_))
        rw [htext]
        exact List.prefix_append (c :: (front' ++ pattern)) back'
      rw [List.cons_append, List.cons_append, findFirst, if_neg hearlier, ih hfound]
      rfl

theorem findFirst_late {more : List α} (hnone : findFirst pattern text = none)
    (h : findFirst pattern (text ++ more) = some (front, back)) :
    text.length < front.length + pattern.length := by
  by_contra hle
  have htext := findFirst_eq_some h
  refine findFirst_eq_none.mp hnone ?_
  have hpre : front ++ pattern <+: text :=
    List.prefix_of_prefix_length_le ⟨back, htext.symm⟩ (List.prefix_append text more)
      (by simp only [List.length_append]; omega)
  exact (List.suffix_append front pattern).isInfix.trans hpre.isInfix

variable {d : α}

theorem findFirst_char_eq_none : findFirst [d] text = none ↔ d ∉ text := by
  rw [findFirst_eq_none, List.singleton_infix_iff]

theorem not_mem_of_findFirst_char (h : findFirst [d] text = some (front, back)) : d ∉ front := by
  induction text generalizing front with
  | nil => cases h
  | cons c rest ih =>
    rw [findFirst] at h
    split_ifs at h with hhere
    · cases h
      exact List.not_mem_nil
    · obtain ⟨⟨front', back'⟩, hfound, heq⟩ := Option.map_eq_some_iff.mp h
      cases heq
      have hc : ¬ d = c := fun heq => hhere (by simp [heq])
      exact fun hmem => (List.mem_cons.mp hmem).elim hc (ih hfound)

/-! ## Filling a gap -/

theorem findFirst_skip {x : List α} (hx : ∀ c ∈ x, c ∉ pattern) (hpattern : pattern ≠ []) (b : List α) :
    findFirst pattern (x ++ b) = (findFirst pattern b).map fun found => (x ++ found.1, found.2) := by
  induction x with
  | nil => simp
  | cons c rest ih =>
    obtain ⟨first, others, rfl⟩ := List.exists_cons_of_ne_nil hpattern
    have hc : ¬ (first :: others).isPrefixOf (c :: (rest ++ b)) = true := by
      intro hp
      have hfirst := (List.cons_prefix_cons.mp (occursAt_iff.mp hp)).1
      exact hx c (List.mem_cons_self ..) (hfirst ▸ List.mem_cons_self ..)
    rw [List.cons_append, findFirst, if_neg hc, ih fun d hd => hx d (List.mem_cons_of_mem _ hd),
      Option.map_map]
    rfl

theorem findFirst_fill {a x : List α} (ha : findFirst pattern a = none) (hx : ∀ c ∈ x, c ∉ pattern)
    (hne : x ≠ []) (hpattern : pattern ≠ []) (b : List α) : findFirst pattern (a ++ x ++ b) =
      (findFirst pattern b).map fun found => (a ++ x ++ found.1, found.2) := by
  induction a with
  | nil => exact findFirst_skip hx hpattern b
  | cons c rest ih =>
    rw [findFirst] at ha
    split_ifs at ha with hhere
    have hlonger : ¬ pattern.isPrefixOf (c :: (rest ++ x ++ b)) = true := by
      intro hp
      have hwhole : pattern <+: (c :: rest) ++ (x ++ b) := by
        have := occursAt_iff.mp hp
        rwa [List.append_assoc] at this
      rcases Nat.le_total pattern.length (c :: rest).length with hshort | hlong
      · exact hhere (occursAt_iff.mpr
          (List.prefix_of_prefix_length_le hwhole (List.prefix_append _ _) hshort))
      -- it would go on into the gap
      obtain ⟨tail, rfl⟩ := List.prefix_of_prefix_length_le (List.prefix_append _ _) hwhole hlong
      have htail : tail <+: x ++ b := (List.prefix_append_right_inj _).mp hwhole
      rcases tail with _ | ⟨t, tail⟩
      · exact hhere (occursAt_iff.mpr (by simp))
      · obtain ⟨first, others, rfl⟩ := List.exists_cons_of_ne_nil hne
        have hfirst := (List.cons_prefix_cons.mp htail).1
        exact hx first (List.mem_cons_self ..) (hfirst ▸ by simp)
    rw [List.cons_append, List.cons_append, findFirst, if_neg hlonger,
      ih (Option.map_eq_none_iff.mp ha), Option.map_map]
    rfl

/-- The pieces around a gap. -/
theorem splitOn_fill (d : α) (a b : List α) :
    ∃ before last first after, a.splitOn d = before ++ [last] ∧ b.splitOn d = first :: after ∧
      ∀ x, d ∉ x → (a ++ x ++ b).splitOn d = before ++ (last ++ x ++ first) :: after := by
  obtain ⟨first, after, hb⟩ := List.exists_cons_of_ne_nil (List.splitOn_ne_nil d b)
  have hx : ∀ x, d ∉ x → (x ++ b).splitOn d = (x ++ first) :: after := by
    intro x hx
    induction x with
    | nil => exact hb
    | cons c rest ih =>
      have hc : ¬ (c == d) = true := fun heq => hx (by rw [← beq_iff_eq.mp heq]; simp)
      rw [List.cons_append, List.splitOn_cons_eq_if_modifyHead, if_neg hc,
        ih fun hmem => hx (List.mem_cons_of_mem _ hmem)]
      rfl
  induction a with
  | nil => exact ⟨[], [], first, after, by simp, hb, fun x hfree => by simpa using hx x hfree⟩
  | cons c rest ih =>
    obtain ⟨before, last, first', after', hrest, hb', hfill⟩ := ih
    rw [hb] at hb'
    cases hb'
    by_cases hc : (c == d) = true
    · refine ⟨[] :: before, last, first, after, ?_, hb, fun x hfree => ?_⟩
      · rw [List.splitOn_cons_eq_if_modifyHead, if_pos hc, hrest]
        rfl
      · rw [List.cons_append, List.cons_append, List.splitOn_cons_eq_if_modifyHead, if_pos hc,
          hfill x hfree]
        rfl
    · rcases before with _ | ⟨head, before⟩
      · refine ⟨[], c :: last, first, after, ?_, hb, fun x hfree => ?_⟩
        · rw [List.splitOn_cons_eq_if_modifyHead, if_neg hc, hrest]
          rfl
        · rw [List.cons_append, List.cons_append, List.splitOn_cons_eq_if_modifyHead, if_neg hc,
            hfill x hfree]
          rfl
      · refine ⟨(c :: head) :: before, last, first, after, ?_, hb, fun x hfree => ?_⟩
        · rw [List.splitOn_cons_eq_if_modifyHead, if_neg hc, hrest]
          rfl
        · rw [List.cons_append, List.cons_append, List.splitOn_cons_eq_if_modifyHead, if_neg hc,
            hfill x hfree]
          rfl

theorem infix_of_mem_splitOn {piece : List α} (h : piece ∈ text.splitOn d) : piece <:+: text := by
  have hjoin : ∀ pieces : List (List α), piece ∈ pieces → piece <:+: [d].intercalate pieces := by
    intro pieces hmem
    induction pieces with
    | nil => cases hmem
    | cons head rest ih =>
      rcases rest with _ | ⟨next, others⟩
      · rw [List.mem_singleton.mp hmem]
        simp [List.intercalate]
      · rw [List.intercalate_cons_cons]
        rcases List.mem_cons.mp hmem with rfl | hmem
        · exact ⟨[], [d] ++ [d].intercalate (next :: others), by simp⟩
        · exact (ih hmem).trans (List.suffix_append _ _).isInfix
  have hpiece := hjoin _ h
  rwa [List.intercalate_splitOn] at hpiece

end Bondry.Search
